import RemoteSsh.Commands.Log

/-!
# The command loop

What holds at the head of the loop, in every round and after every answer of the server.
-/

open Lib RemoteSsh.Accumulate

namespace RemoteSsh.Commands

/-! ## The start of a round -/

section Start

variable {rely : Log → (c : Call) → Reply c → Prop} {undefined : Prop} {log : Log}

def Fetches (rely : Log → (c : Call) → Reply c → Prop) (list : Handle) (i : UInt8) (command : Handle) :
    Prop :=
  ∃ log object, rely log (.pyListGetItem list i.toNat) (some object) ∧
    rely log (.pyStringAsString object) (some command)

/-- The server does not open a channel, or does not take a command. -/
def Refused (rely : Log → (c : Call) → Reply c → Prop) : Prop :=
  (∃ log session, rely log (.libssh2ChannelOpenSession session) none) ∨
  ∃ log channel command failed, (failed : Int) ≠ 0 ∧ rely log (.libssh2ChannelExec channel command) failed

theorem commandAt_spec {Q : Option Handle → Log → Prop} (list : Handle) (i : UInt8)
    (hitem : ∀ log, rely log (.pyListGetItem list i.toNat) none → undefined)
    (hQ : ∀ command, (∀ string, command = some string → Fetches rely list i string) →
      (command = none → ∃ log object, rely log (.pyStringAsString object) none) → Q command log) :
    (commandAt list i).wp (logger rely undefined) Q log := by
  simp only [commandAt, Prog.ask_bind, wp_call, logger_guar, true_and, wp_bind, wp_check, logger_fault]
  intro item hitem'
  refine ⟨fun hnone => hitem log (hnone ▸ hitem'), ?_⟩
  rintro object rfl command hcommand
  refine hQ command ?_ ?_
  · rintro string rfl
    exact ⟨log, object, hitem', hcommand⟩
  · rintro rfl
    exact ⟨_, object, hcommand⟩

variable {Q : Label ⊕ Outcome → Log → Prop} {f : Frame} {i : UInt8} {s : Log}

/-- A round has begun: a channel was opened and the command of this round was sent on it. -/
structure RoundBegin (rely : Log → (c : Call) → Reply c → Prop) (f : Frame) (i : UInt8) (s : Log)
    (c : CommandFrame) (s' : Log) : Prop where
  start : RoundStart c s'
  more : (i.toNat : Int) < f.commandCount
  frame : c.frame = { f with save := c.frame.save }
  index : c.i = i
  null : c.pyCommandResponse = none → ∃ log, rely log (.pyTupleNew 4) none
  finished : s'.finished = s.finished
  opened : s'.opened = s.opened + 1
  execs : ∃ command, s'.current.execs = [command] ∧ s'.requests = s.requests ++ [command] ∧
    Fetches rely f.pyCommandList i command

theorem commandLoop_spec
    (hitem : ∀ log, rely log (.pyListGetItem f.pyCommandList i.toNat) none → undefined)
    (hstring : ∀ log object, rely log (.pyStringAsString object) none → undefined)
    (hend : ¬ (i.toNat : Int) < f.commandCount → Q (.inr f.pyResponse) s)
    (hraise : Refused rely → ∀ s', Q (.inr none) s')
    (hstart : ∀ c s', RoundBegin rely f i s c s' → Q (.inl (.stdoutLoop c)) s') :
    (commandLoop f i).wp (logger rely undefined) Q s := by
  rw [commandLoop, wp_ite]
  refine ⟨fun hmore => ?_, fun hmore => ⟨trivial, fun _ _ => hend hmore⟩⟩
  simp only [pyTupleNew, Prog.ask_bind, Prog.call_bind, Prog.pure_eq, Prog.ret_bind, wp_call, logger_guar,
    true_and, wp_bind]
  intro _ _ tuple htuple
  refine commandAt_spec f.pyCommandList i hitem fun _ _ _ save _ channel hchannel => ?_
  cases channel with
  | none => exact ⟨trivial, fun _ _ => hraise (.inl ⟨_, _, hchannel⟩) _⟩
  | some channel =>
    simp only [execCommand, Prog.ask_bind, wp_call, logger_guar, true_and, wp_bind]
    intro _ _ _ _
    refine commandAt_spec f.pyCommandList i hitem fun command hfetch hnone => ?_
    simp only [wp_check, logger_fault]
    intro save' _
    refine ⟨fun h => ?_, ?_⟩
    · obtain ⟨_, object, hobject⟩ := hnone h
      exact hstring _ object hobject
    rintro string rfl failed hfailed
    rw [wp_ite]
    refine ⟨fun h => ⟨trivial, fun _ _ => hraise (.inr ⟨_, _, _, _, h, hfailed⟩) _⟩, fun _ => ?_⟩
    simp only [newResponseString, Prog.ask_bind, Prog.call_bind, wp_call, logger_guar, true_and]
    intro address _
    refine hstart _ _ ⟨⟨?_, ?_, holds_empty⟩, hmore, rfl, rfl, ?_, ?_, ?_, string, ?_, ?_, hfetch string rfl⟩
    · intro u hu
      obtain ⟨ref, -, rfl⟩ := Option.map_eq_some_iff.mp hu
      rfl
    · simp [Log.next, Log.note]
    · intro hnull
      have : (tuple : Option Handle) = none := by simpa using hnull
      exact ⟨_, this ▸ htuple⟩
    · simp [Log.next, Log.note]
    · simp [Log.next, Log.note]
    · simp [Log.next, Log.note]
    · simp [Log.next, Log.note]

end Start

/-! ## The invariant of the loop -/

/-- The channels that are finished, and the slots that are filled. The counter is only as wide as a
`char`, so the slots are in order only if the list is short enough for it. -/
structure LoopInv (f : Frame) (i : UInt8) (s : Log) : Prop where
  index : i.toNat = s.finished.length % 256
  opened : s.opened = s.finished.length
  requests : s.requests = s.finished.flatMap CommandLog.execs
  complete : ∀ l ∈ s.finished, l.Complete
  short : f.commandCount ≤ 255 → s.finished.length ≤ f.commandCount.toNat
  slots : f.commandCount ≤ 255 → ∀ t, f.pyResponse = some t →
    t.slots = s.finished.map (fun l => some l.response) ++
      List.replicate (f.commandCount.toNat - s.finished.length) none

def InRound (c : CommandFrame) (s : Log) : Prop :=
  ∃ s', LoopInv c.frame c.i s' ∧ RoundStart c s ∧ (c.i.toNat : Int) < c.frame.commandCount ∧
    s.finished = s'.finished ∧ s.opened = s'.opened + 1 ∧ s.requests = s'.requests ++ s.current.execs

theorem RoundBegin.inRound {rely : Log → (c : Call) → Reply c → Prop} {f : Frame} {i : UInt8}
    {s s' : Log} {c : CommandFrame} (h : RoundBegin rely f i s c s') (hloop : LoopInv f i s) :
    InRound c s' := by
  have hcount : c.frame.commandCount = f.commandCount := by rw [h.frame]
  have hresponse : c.frame.pyResponse = f.pyResponse := by rw [h.frame]
  obtain ⟨command, hexecs, hrequests, -⟩ := h.execs
  refine ⟨s, ⟨?_, hloop.opened, hloop.requests, hloop.complete, ?_, ?_⟩, h.start, ?_, h.finished, h.opened,
    by rw [hexecs, hrequests]⟩
  · rw [h.index]; exact hloop.index
  · rw [hcount]; exact hloop.short
  · rw [hcount, hresponse]; exact hloop.slots
  · rw [h.index, hcount]; exact h.more

theorem set_first_empty {α : Type} (filled : List (Option α)) (a : α) (n : Nat) (h : filled.length < n) :
    (filled ++ List.replicate (n - filled.length) none).set filled.length (some a) =
      (filled ++ [some a]) ++ List.replicate (n - (filled ++ [some a]).length) none := by
  obtain ⟨d, rfl⟩ : ∃ d, n = filled.length + (d + 1) := ⟨n - filled.length - 1, by omega⟩
  simp [List.replicate_succ, List.set_append_right]
  omega

theorem RoundEnd.loopInv {c : CommandFrame} {s₀ s : Log} {f : Frame} {i : UInt8} (h : RoundEnd c s₀ f i s)
    (hround : InRound c s₀) : LoopInv f i s := by
  obtain ⟨s', hloop, -, hmore, hfinished, hopened, hrequests⟩ := hround
  have hcount : f.commandCount = c.frame.commandCount := by rw [h.frame]
  have hlength : s.finished.length = s'.finished.length + 1 := by rw [h.finished, hfinished]; simp
  have hindex := hloop.index
  refine ⟨?_, ?_, ?_, ?_, ?_, ?_⟩
  · rw [h.index, UInt8.toNat_add, hlength, hindex]
    simp
  · rw [h.opened, hopened, hloop.opened, hlength]
  · rw [h.requests, hrequests, hloop.requests, h.finished, hfinished, List.flatMap_append,
      List.flatMap_singleton, h.execs]
  · intro l hl
    rw [h.finished, hfinished, List.mem_append, List.mem_singleton] at hl
    rcases hl with hl | rfl
    · exact hloop.complete l hl
    · exact h.complete
  · intro hshort
    have := hloop.short (hcount ▸ hshort)
    rw [hcount] at hshort ⊢
    omega
  · intro hshort t ht
    rw [hcount] at hshort
    have hle := hloop.short hshort
    obtain ⟨u, hu, hset⟩ := h.response
    have hi : c.i.toNat = (s'.finished.map fun l => some l.response).length := by
      rw [List.length_map]; omega
    have hslots := hloop.slots hshort u hu
    rw [hset, Option.some.injEq] at ht
    subst ht
    simp only
    rw [hslots, hi, hcount, h.finished, hfinished, List.map_append, List.length_append, List.length_singleton]
    have := set_first_empty (s'.finished.map fun l => some l.response) s.current.response
      c.frame.commandCount.toNat (by rw [← hi]; omega)
    simpa using this

theorem LoopInv.ends {f : Frame} {i : UInt8} {s : Log} (h : LoopInv f i s)
    (hend : ¬ (i.toNat : Int) < f.commandCount) (t : Tuple CommandResponse) (ht : f.pyResponse = some t) :
    f.commandCount ≤ 255 ∧ s.finished.length = f.commandCount.toNat ∧
      t.slots = s.finished.map fun l => some l.response := by
  have hi := UInt8.toNat_lt i
  have hshort : f.commandCount ≤ 255 := by omega
  have hle := h.short hshort
  have hindex := h.index
  have hlength : s.finished.length = f.commandCount.toNat := by omega
  refine ⟨hshort, hlength, ?_⟩
  rw [h.slots hshort t ht, hlength, Nat.sub_self, List.replicate_zero, List.append_nil]

theorem commands_spec {rely : Log → (c : Call) → Reply c → Prop} {undefined : Prop}
    {Q : Label ⊕ Outcome → Log → Prop} {save session list : Handle} {s : Log} (hs : s = {})
    (hQ : ∀ f, LoopInv f 0 s → f.pyCommandList = list → rely s (.pyListSize list) f.commandCount →
      (f.pyResponse = none → rely s (.pyTupleNew f.commandCount) none) → Q (.inl (.commandLoop f 0)) s) :
    (commands save session list).wp (logger rely undefined) Q s := by
  simp only [commands, pyTupleNew, Prog.ask_bind, Prog.call_bind, Prog.pure_eq, Prog.ret_bind, wp_call,
    logger_guar, true_and]
  intro _ _ count hcount tuple htuple save' _
  subst hs
  refine hQ _ ⟨by simp, by simp, by simp, by simp, by simp, ?_⟩ rfl hcount ?_
  · intro _ t ht
    obtain ⟨ref, -, rfl⟩ := Option.map_eq_some_iff.mp ht
    simp
  · intro hnull
    have : (tuple : Option Handle) = none := by simpa using hnull
    exact this ▸ htuple

/-! ## Every run -/

/-- What holds of the log at each label, whatever the server answers. -/
def Inv : Label → Log → Prop
  | .handshake _ _ _, s => s = {}
  | .authenticate _ _ _, s => s = {}
  | .commands _ _ _, s => s = {}
  | .commandLoop f i, s => LoopInv f i s
  | .stdoutLoop c, s => ∃ c₀ s₀ chunks, InRound c₀ s₀ ∧ ReadsStdout c₀ s₀ chunks c s
  | .stderrLoop c, s => ∃ c₀ s₀ outs chunks, InRound c₀ s₀ ∧ ReadsStderr c₀ s₀ outs chunks c s

/-- Each slot of a returned tuple is the response of one channel, and each channel was drained. -/
def Returned (o : Outcome) (s : Log) : Prop :=
  ∀ t, o = some t → (t.slots = s.finished.map fun l => some l.response) ∧ ∀ l ∈ s.finished, l.Complete

def Post : Label ⊕ Outcome → Log → Prop
  | .inl l, s => Inv l s
  | .inr o, s => Returned o s

abbrev anyLog : Monitor Reply Log := logger (fun _ _ _ => True) True

theorem block_spec : Verified anyLog block Post := by
  intro l s h
  cases l with
  | handshake args save sshSocket =>
    obtain rfl : s = {} := h
    simp [block, handshake, raise, Post, Returned, Inv, Log.next]
  | authenticate args save session =>
    obtain rfl : s = {} := h
    simp [block, authenticate, raise, Post, Returned, Inv, Log.next]
  | commands save session list =>
    exact commands_spec h fun f hloop _ _ _ => hloop
  | commandLoop f i =>
    have hloop : LoopInv f i s := h
    refine commandLoop_spec (fun _ _ => trivial) (fun _ _ _ => trivial) ?_ (fun _ s' t ht => by cases ht) ?_
    · intro hend t ht
      exact ⟨(hloop.ends hend t ht).2.2, hloop.complete⟩
    · intro c s' hbegin
      exact ⟨c, s', [], hbegin.inRound hloop, hbegin.start.reads⟩
  | stdoutLoop c =>
    obtain ⟨c₀, s₀, chunks, hround, hreads⟩ := h
    obtain ⟨_, _, hstart, _⟩ := id hround
    refine stdoutLoop_spec hstart hreads (fun _ => trivial) (fun _ _ _ => trivial) ?_ ?_
    · exact fun chunk c' s' _ hreads' => ⟨c₀, s₀, _, hround, hreads'⟩
    · exact fun c' s' _ hreads' => ⟨c₀, s₀, _, _, hround, hreads'⟩
  | stderrLoop c =>
    obtain ⟨c₀, s₀, outs, chunks, hround, hreads⟩ := h
    obtain ⟨_, _, hstart, _⟩ := id hround
    refine stderrLoop_spec hstart hreads (fun _ => trivial) (fun _ _ _ => trivial) ?_ ?_
    · exact fun chunk c' s' _ hreads' => ⟨c₀, s₀, _, _, hround, hreads'⟩
    · exact fun f i s' _ _ _ hend => hend.loopInv hround

theorem execute_spec (args : Option Arguments) :
    (executeSshInstructions args).wp anyLog Post {} := by
  cases args with
  | none => simp [executeSshInstructions, raise, Post, Returned, Log.next]
  | some args => simp [executeSshInstructions, raise, Post, Returned, Inv, Log.next]

def logOf (args : Option Arguments) (env : Env Reply) (n : Nat) : Log :=
  anyLog.after {} (run block env (executeSshInstructions args) n).trace

end RemoteSsh.Commands
