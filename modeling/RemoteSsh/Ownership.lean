import RemoteSsh.Lib.Monitor
import RemoteSsh.Code.Funs
import Mathlib.Algebra.BigOperators.Group.List.Basic
import Mathlib.Data.Multiset.AddSub

/-!
# References to Python objects

Who owns the references that the call makes. `PyTuple_SetItem` takes one from the call.
-/

open Lib

namespace RemoteSsh.Ownership

/-- The references that the call owns, and whether any tuple could be made. -/
structure Ledger where
  owned : Multiset Ref
  made : Bool

@[local simp] def Ledger.next : Ledger → (c : Call) → Reply c → Ledger
  | s, .pyTupleNew _, tuple =>
    match (tuple : Option Handle) with
    | some ref => ⟨.object ref ::ₘ s.owned, true⟩
    | none => s
  | s, .pyStringFromString _, ref => { s with owned := .object ref ::ₘ s.owned }
  | s, .pyIntFromLong _, ref => { s with owned := .object ref ::ₘ s.owned }
  | s, .pyTupleSetItem _ _ item, _ => { s with owned := s.owned.erase item }
  | s, _, _ => s

/-- Only a reference that is owned is given away. -/
@[local simp] def Ledger.Allows (s : Ledger) : Call → Prop
  | .pyTupleSetItem _ _ item => item ∈ s.owned
  | _ => True

/-- The call raises while it owns a tuple, or there is no signal whose name it could put into the
response, and it gives away `Py_None`. -/
@[local simp] def Ledger.Fails (s : Ledger) : (c : Call) → Reply c → Prop
  | .libssh2ChannelOpenSession _, channel => channel = none ∧ s.made = true
  | .libssh2ChannelExec _ _, failed => (failed : Int) ≠ 0 ∧ s.made = true
  | .libssh2ChannelClose _, closed => (closed : Int) ≠ 0
  | .libssh2ChannelGetExitSignal _, signal => (signal : ExitSignal).name = none
  | _, _ => False

def watcher : Watcher Reply Ledger where
  next := Ledger.next
  allows := Ledger.Allows
  fails := Ledger.Fails

@[simp] theorem watcher_next : watcher.next = Ledger.next := rfl
@[simp] theorem watcher_allows : watcher.allows = Ledger.Allows := rfl
@[simp] theorem watcher_fails : watcher.fails = Ledger.Fails := rfl

def hold {α : Type} : Option (Tuple α) → Multiset Ref → Multiset Ref
  | some t, refs => .object t.ref ::ₘ refs
  | none, refs => refs

@[simp] theorem hold_some {α : Type} (t : Tuple α) (refs : Multiset Ref) :
    hold (some t) refs = .object t.ref ::ₘ refs := rfl
@[simp] theorem hold_none {α : Type} (refs : Multiset Ref) : hold
    (none : Option (Tuple α)) refs = refs := rfl

/-- Between the blocks the call owns its tuples and nothing else. -/
@[local simp] def Inv : Label → Ledger → Prop
  | .handshake _ _ _, s => s = ⟨0, false⟩
  | .authenticate _ _ _, s => s = ⟨0, false⟩
  | .commands _ _ _, s => s = ⟨0, false⟩
  | .commandLoop f _, s => s = ⟨hold f.pyResponse 0, f.pyResponse.isSome⟩
  | .stdoutLoop c, s => s.owned = hold c.pyCommandResponse (hold c.frame.pyResponse 0) ∧
      (c.pyCommandResponse.isSome → s.made = true)
  | .stderrLoop c, s => s.owned = hold c.pyCommandResponse (hold c.frame.pyResponse 0) ∧
      (c.pyCommandResponse.isSome → s.made = true)

abbrev Post : Label ⊕ Outcome → Watched Ledger → Prop := Watcher.Post Inv fun o s => s.owned ≠ hold o 0

section

variable {s : Ledger}

theorem execute_spec (args : Option Arguments) :
    (executeSshInstructions args).wp watcher.monitor Post ⟨⟨0, false⟩, False, False⟩ := by
  cases args with
  | none => simp [executeSshInstructions, raise]
  | some args => simp [executeSshInstructions, raise]

theorem handshake_spec (args : Arguments) (save : Handle) (sshSocket : Int) :
    (handshake args save sshSocket).wp watcher.monitor Post ⟨⟨0, false⟩, False, False⟩ := by
  simp [handshake, raise]

theorem authenticate_spec (args : Arguments) (save session : Handle) :
    (authenticate args save session).wp watcher.monitor Post ⟨⟨0, false⟩, False, False⟩ := by
  simp [authenticate, raise]

theorem commands_spec (save session list : Handle) :
    (commands save session list).wp watcher.monitor Post ⟨⟨0, false⟩, False, False⟩ := by
  simp [commands, pyTupleNew]
  intro count tuple
  cases tuple <;> rfl

theorem execCommand_spec (f : Frame) (i : UInt8) (t : Option (Tuple Item)) (save channel : Handle)
    (made : Bool) (hmade : made = true ↔ hold t (hold f.pyResponse 0) ≠ 0) :
    (execCommand f i t save channel).wp watcher.monitor Post
      ⟨⟨hold t (hold f.pyResponse 0), made⟩, False, False⟩ := by
  simp [execCommand, raise, commandAt, newResponseString, hmade]
  intro _ _ _ _ _ _ failed
  refine ⟨fun hok => ⟨fun hne => absurd hok hne, fun _ ht => ?_⟩, fun hne _ => hne⟩
  obtain ⟨u, rfl⟩ := Option.isSome_iff_exists.mp ht
  simp

theorem commandLoop_spec (f : Frame) (i : UInt8) :
    (commandLoop f i).wp watcher.monitor Post
      ⟨⟨hold f.pyResponse 0, f.pyResponse.isSome⟩, False, False⟩ := by
  simp [commandLoop, pyTupleNew, commandAt]
  intro _ tuple save channel
  -- With either tuple the call owns something when no channel is opened.
  have hmade : f.pyResponse.isSome = true ↔ hold f.pyResponse 0 ≠ 0 := by
    cases f.pyResponse <;> simp
  cases channel with
  | none => cases tuple <;> simp [raise, hmade]
  | some channel =>
    cases tuple with
    | none => simpa using execCommand_spec f i none save channel _ hmade
    | some ref =>
      simpa using execCommand_spec f i (some ⟨ref, [none, none, none, none]⟩) save channel true (by simp)

theorem stdoutLoop_spec (c : CommandFrame) (made : Bool)
    (hmade : c.pyCommandResponse.isSome → made = true) :
    (stdoutLoop c).wp watcher.monitor Post
      ⟨⟨hold c.pyCommandResponse (hold c.frame.pyResponse 0), made⟩, False, False⟩ := by
  simp [stdoutLoop, appendResponse, setOutput, pyTupleSetItem, newResponseString]
  intro _ _ _ _ _ _
  refine ⟨fun _ => hmade, fun _ _ _ u hu => ?_⟩
  rw [hu] at hmade ⊢
  exact ⟨rfl, hmade rfl⟩

theorem finishCommand_signal_spec (c : CommandFrame) (save : Handle) (u : Tuple Item) (code : Int)
    (name : CString) :
    (finishCommand c save (some u) code (some name)).wp watcher.monitor Post
      ⟨⟨hold (some u) (hold c.frame.pyResponse 0), true⟩, False, False⟩ := by
  simp [finishCommand, setExitSignal, pyTupleSetItem]
  intro t ht
  simp [ht]

/-- Without one, the call gives away `Py_None`, which it does not own. -/
theorem finishCommand_none_spec (c : CommandFrame) (save : Handle) (u : Tuple Item) (code : Int) :
    (finishCommand c save (some u) code none).wp watcher.monitor Post
      ⟨⟨hold (some u) (hold c.frame.pyResponse 0), true⟩, False, True⟩ := by
  have hnone : Ref.pyNone ∉ hold c.frame.pyResponse 0 := by cases c.frame.pyResponse <;> simp
  simp [finishCommand, setExitSignal, pyTupleSetItem, hnone]

theorem stderrLoop_spec (c : CommandFrame) (made : Bool)
    (hmade : c.pyCommandResponse.isSome → made = true) :
    (stderrLoop c).wp watcher.monitor Post
      ⟨⟨hold c.pyCommandResponse (hold c.frame.pyResponse 0), made⟩, False, False⟩ := by
  simp [stderrLoop, appendResponse, setOutput, pyTupleSetItem, closeChannel]
  intro r _ _ _ _ _
  refine ⟨fun _ => hmade, fun _ _ _ u hu save closed => ?_⟩
  rw [hu] at hmade ⊢
  obtain rfl := hmade rfl
  refine ⟨fun hok code signal => ?_, fun hne => ?_⟩
  · cases hname : ExitSignal.name signal with
    | none => simpa [hok] using finishCommand_none_spec c save _ code
    | some name => simpa [hok] using finishCommand_signal_spec c save _ code name
  · simpa [hne] using finishCommand_none_spec c save _ 0

theorem block_spec (l : Label) (s : Ledger) (h : Inv l s) :
    (block l).wp watcher.monitor Post ⟨s, False, False⟩ := by
  cases l with
  | handshake args save sshSocket => rw [show s = _ from h]; exact handshake_spec args save sshSocket
  | authenticate args save session => rw [show s = _ from h]; exact authenticate_spec args save session
  | commands save session list => rw [show s = _ from h]; exact commands_spec save session list
  | commandLoop f i => rw [show s = _ from h]; exact commandLoop_spec f i
  | stdoutLoop c =>
    obtain ⟨owned, made⟩ := s
    obtain ⟨rfl, hmade⟩ := h
    exact stdoutLoop_spec c made hmade
  | stderrLoop c =>
    obtain ⟨owned, made⟩ := s
    obtain ⟨rfl, hmade⟩ := h
    exact stderrLoop_spec c made hmade

end

/-! ## Reference counts -/

/-- What an event does to the count of `ref`. A reference that was given to a tuple is released with
the tuple, so it is counted as released. -/
def change (ref : Ref) : Event Reply → Int
  | ⟨.pyTupleNew _, some made⟩ => if ref = .object made then 1 else 0
  | ⟨.pyStringFromString _, made⟩ => if ref = .object made then 1 else 0
  | ⟨.pyIntFromLong _, made⟩ => if ref = .object made then 1 else 0
  | ⟨.pyTupleSetItem _ _ item, _⟩ => if ref = item then -1 else 0
  | _ => 0

def drift (ref : Ref) (t : List (Event Reply)) : Int := (t.map (change ref)).sum

theorem count_next (ref : Ref) (s : Ledger) (e : Event Reply) (h : s.Allows e.1) :
    ((s.next e.1 e.2).owned.count ref : Int) = s.owned.count ref + change ref e := by
  obtain ⟨c, r⟩ := e
  cases c with
  | pyTupleNew size =>
    cases r with
    | none => simp [change]
    | some made => by_cases hr : ref = .object made <;> simp [change, hr]
  | pyStringFromString bytes => by_cases hr : ref = .object r <;> simp [change, hr]
  | pyIntFromLong n => by_cases hr : ref = .object r <;> simp [change, hr]
  | pyTupleSetItem tuple i item =>
    by_cases hr : ref = item
    · subst hr
      have : 0 < s.owned.count ref := Multiset.count_pos.mpr h
      simp only [Ledger.next, change, Multiset.count_erase_self, if_true]
      omega
    · simp [change, hr, Multiset.count_erase_of_ne hr]
  | _ => simp [change]

theorem count_after (ref : Ref) (s : Ledger) (t : List (Event Reply)) (h : watcher.Follows s t) :
    ((watcher.after s t).owned.count ref : Int) = s.owned.count ref + drift ref t := by
  induction t generalizing s with
  | nil => simp [Watcher.after, drift]
  | cons e t ih =>
    have hnext := count_next ref s e h.1
    have := ih _ h.2
    simp only [drift, List.map_cons, List.sum_cons] at this ⊢
    change ((watcher.after (s.next e.1 e.2) t).owned.count ref : Int) = _
    simp only [watcher_next] at this
    rw [this, hnext]
    omega

/-- Only owned references are given away, and only the returned tuple is owned at the end. When it is
released too, no count has changed. -/
structure Balanced (args : Option Arguments) (env : Env Reply) : Prop where
  gives : ∀ n, watcher.Follows ⟨0, false⟩ (run block env (executeSshInstructions args) n).trace
  owns : ∀ n o, Ends block env (executeSshInstructions args) n o →
    (watcher.after ⟨0, false⟩ (run block env (executeSshInstructions args) n).trace).owned = hold o 0
  counts : ∀ n o, Ends block env (executeSshInstructions args) n o →
    ∀ ref, drift ref (run block env (executeSshInstructions args) n).trace - (hold o 0).count ref = 0

/-- References balance exactly if every command ends by a signal whose name is known, and no channel
is refused and no command fails to start once a tuple was made. -/
theorem balanced_iff (args : Option Arguments) (env : Env Reply) :
    Balanced args env ↔
      ∀ n, ¬ watcher.Fails ⟨0, false⟩ (run block env (executeSshInstructions args) n).trace := by
  rw [← watcher.follows_iff block_spec (execute_spec args) env]
  constructor
  · exact fun h n => ⟨h.gives n, fun o ho => not_not.mpr (h.owns n o ho)⟩
  · intro h
    refine ⟨fun n => (h n).1, fun n o ho => not_not.mp ((h n).2 o ho), fun n o ho ref => ?_⟩
    have hcount := count_after ref _ _ (h n).1
    rw [not_not.mp ((h n).2 o ho)] at hcount
    simp only [Multiset.count_zero] at hcount
    omega

/-- One silent command that ends by itself. -/
theorem none_given_away : ¬ Balanced (some sampleArguments) (accepting 1) := by
  intro h
  have hends : (run block (accepting 1) (executeSshInstructions (some sampleArguments)) 80).todo.outcome.isSome := by
    decide +kernel
  have hdrift : drift .pyNone (run block (accepting 1) (executeSshInstructions (some sampleArguments)) 80).trace =
      -1 := by decide +kernel
  obtain ⟨o, ho⟩ := Option.isSome_iff_exists.mp hends
  have := h.counts 80 o (ends_of_outcome _ _ ho) .pyNone
  omega

end RemoteSsh.Ownership
