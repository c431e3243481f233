import RemoteSsh.Commands.Rounds

/-!
# Failed calls

Which failures of the calls made for a command are reported, and which look like success.
-/

open Lib RemoteSsh.Commands RemoteSsh.Accumulate

namespace RemoteSsh.Failures

/-- A channel that is not opened, or a command that is not taken. -/
@[local simp] def Refusal : Event Reply → Prop
  | ⟨.libssh2ChannelOpenSession _, channel⟩ => channel = none
  | ⟨.libssh2ChannelExec _ _, failed⟩ => (failed : Int) ≠ 0
  | _ => False

/-- A read, a close or a query of the exit signal that fails. -/
def Loss : Event Reply → Prop
  | ⟨.libssh2ChannelRead _ _, r⟩ => ∃ e, r = .error e
  | ⟨.libssh2ChannelClose _, closed⟩ => (closed : Int) ≠ 0
  | ⟨.libssh2ChannelGetExitSignal _, signal⟩ => signal = .failed
  | _ => False

def Failure (e : Event Reply) : Prop := Refusal e ∨ Loss e

@[local simp] def Raises : Call → Prop
  | .pyErrSetString _ => True
  | _ => False

/-! ## What a run has seen -/

structure Seen where
  refused : Prop
  lost : Prop
  raised : Prop

def seer : Monitor Reply Seen where
  next s c r := ⟨s.refused ∨ Refusal ⟨c, r⟩, s.lost ∨ Loss ⟨c, r⟩, s.raised ∨ Raises c⟩
  fault s := ¬ s.refused

@[simp] theorem seer_next (refused lost raised : Prop) (c : Call) (r : Reply c) :
    seer.next ⟨refused, lost, raised⟩ c r =
      ⟨refused ∨ Refusal ⟨c, r⟩, lost ∨ Loss ⟨c, r⟩, raised ∨ Raises c⟩ := rfl
@[simp] theorem seer_guar (s : Seen) (c : Call) : seer.guar s c := trivial
@[simp] theorem seer_rely (s : Seen) (c : Call) (r : Reply c) : seer.rely s c r := trivial
@[simp] theorem seer_fault (refused lost raised : Prop) :
    seer.fault ⟨refused, lost, raised⟩ ↔ ¬ refused := Iff.rfl

/-- A round that goes on was not refused, and NULL is never filled. -/
@[local simp] def Inv : Label → Seen → Prop
  | .handshake _ _ _, s => ¬ s.refused ∧ ¬ s.lost
  | .authenticate _ _ _, s => ¬ s.refused ∧ ¬ s.lost
  | .commands _ _ _, s => ¬ s.refused ∧ ¬ s.lost
  | .commandLoop f _, s => ¬ s.refused ∧ (f.pyResponse = none → ¬ s.lost)
  | .stdoutLoop _, s => ¬ s.refused
  | .stderrLoop _, s => ¬ s.refused

@[local simp] def Post : Label ⊕ Outcome → Seen → Prop
  | .inl l, s => Inv l s
  | .inr (some _), s => ¬ s.refused
  | .inr none, s => s.refused ∧ s.raised ∨ ¬ s.refused ∧ ¬ s.lost

theorem finishCommand_spec (c : CommandFrame) (save : Handle) (t : Option (Tuple Item)) (code : Int)
    (signal : Option CString) (refused lost raised : Prop) (h : ¬ refused) :
    (finishCommand c save t code signal).wp seer Post ⟨refused, lost, raised⟩ := by
  cases signal with
  | none => simp [finishCommand, setExitSignal, pyTupleSetItem, h]
  | some name => simp [finishCommand, setExitSignal, pyTupleSetItem, h]

theorem execCommand_spec (f : Frame) (i : UInt8) (t : Option (Tuple Item)) (save channel : Handle)
    (refused lost raised : Prop) (h : ¬ refused) :
    (execCommand f i t save channel).wp seer Post ⟨refused, lost, raised⟩ := by
  simp [execCommand, raise, commandAt, newResponseString, h]
  intro _ _ _ _ _ _ _ _ _ hfailed _
  exact .inl hfailed

theorem block_spec : Verified seer block Post := by
  rintro l ⟨refused, lost, raised⟩ h
  cases l with
  | handshake args save sshSocket =>
    obtain ⟨hrefused, hlost⟩ := h
    simp only at hrefused hlost
    simp [block, handshake, raise, Loss, hrefused, hlost]
  | authenticate args save session =>
    obtain ⟨hrefused, hlost⟩ := h
    simp only at hrefused hlost
    simp [block, authenticate, raise, Loss, hrefused, hlost]
  | commands save session list =>
    obtain ⟨hrefused, hlost⟩ := h
    simp only at hrefused hlost
    simp [block, commands, pyTupleNew, Loss, hrefused, hlost]
  | commandLoop f i =>
    obtain ⟨hrefused, hlost⟩ := h
    simp only at hrefused hlost
    rw [block, commandLoop, wp_ite]
    refine ⟨fun _ => ?_, fun _ => ⟨trivial, fun _ _ => ?_⟩⟩
    · simp [pyTupleNew, commandAt, hrefused]
      intro _ _ _ _ _ _ save channel
      cases channel with
      | none => simp [raise]
      | some channel => exact execCommand_spec f i _ save channel _ _ _ (by simp)
    · cases hresponse : f.pyResponse with
      | none => exact .inr ⟨by simp [seer, hrefused], by simp [seer, Loss, hlost hresponse]⟩
      | some t => exact fun h => h.elim hrefused id
  | stdoutLoop c =>
    have hrefused : ¬ refused := h
    simp [block, stdoutLoop, appendResponse, setOutput, pyTupleSetItem, newResponseString, hrefused]
  | stderrLoop c =>
    have hrefused : ¬ refused := h
    simp [block, stderrLoop, appendResponse, setOutput, pyTupleSetItem, closeChannel, hrefused]
    intro r _ _ _ _ _ _ _ _ _ _ t _ _ save _ closed
    exact ⟨fun _ code signal => finishCommand_spec c save _ code _ _ _ _ not_false,
      fun _ => finishCommand_spec c save _ 0 none _ _ _ not_false⟩

theorem execute_spec (args : Option Arguments) :
    (executeSshInstructions args).wp seer Post ⟨False, False, False⟩ := by
  cases args with
  | none => simp [executeSshInstructions, raise, Loss]
  | some args => simp [executeSshInstructions, raise, Loss]

section Run

variable (args : Option Arguments) (env : Env Reply)

def traceOf (n : Nat) : List (Event Reply) := (run block env (executeSshInstructions args) n).trace

end Run

/-! ## The log of a run without losses -/

/-- The entry says that the command ended with exit code 0, and not by a signal. -/
def SaysSuccess (r : CommandResponse) : Prop :=
  r[2]? = some (some (.int 0)) ∧ r[3]? = some (some .pyNone)

/-- Both streams were drained, the channel was closed, and the server told of a clean exit. -/
structure Succeeded (l : CommandLog) : Prop where
  stdout : ∃ chunks, l.stdout = readResults chunks none
  stderr : ∃ chunks, l.stderr = readResults chunks none
  closed : l.closed = some 0
  exitStatus : l.exitStatus = some 0
  exitSignal : l.exitSignal = some .absent

/-- A tuple is returned only if no call failed, a failure raises, and an entry that says success is
from a command that succeeded. -/
structure Faithful (args : Option Arguments) (env : Env Reply) : Prop where
  tuple : ∀ n t, Ends block env (executeSshInstructions args) n (some t) →
    ∀ e ∈ traceOf args env n, ¬ Failure e
  raises : (∃ n, ∃ e ∈ traceOf args env n, Failure e) →
    ∃ m, Ends block env (executeSshInstructions args) m none ∧ ∃ e ∈ traceOf args env m, Raises e.1
  success : ∀ n t, Ends block env (executeSshInstructions args) n (some t) →
    ∀ (k : Nat) (r : CommandResponse), t.slots[k]? = some (some r) → SaysSuccess r →
      ∃ l, (logOf args env n).finished[k]? = some l ∧ Succeeded l

end RemoteSsh.Failures
