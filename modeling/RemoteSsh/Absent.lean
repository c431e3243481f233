import RemoteSsh.Lib.Monitor
import RemoteSsh.Accumulate

/-!
# Values that are not there

NULL can come from the caller, from Python, from libssh2 and from the network. Which of these values
the call uses without looking.
-/

open Lib RemoteSsh.Accumulate

namespace RemoteSsh.Absent

/-! ## What is known while a call runs -/

structure Values where
  /-- Whether `py_response` is NULL, once it was asked for. -/
  responseNull : Option Bool := none
  /-- Whether `py_command_response` is NULL. -/
  commandNull : Bool := false
  channelOpen : Bool := false
  /-- Whether the last call was a `realloc`. -/
  reallocated : Bool := false

@[local simp] def isRealloc : Call → Bool
  | .realloc _ _ => true
  | _ => false

/-- The first tuple is `py_response`, and the others are the commands' responses. -/
@[local simp] def Values.track : Values → (c : Call) → Reply c → Values
  | s, .pyTupleNew _, tuple =>
    match s.responseNull with
    | none => { s with responseNull := some (tuple : Option Handle).isNone }
    | some _ => { s with commandNull := (tuple : Option Handle).isNone }
  | s, .libssh2ChannelOpenSession _, channel => { s with channelOpen := (channel : Option Handle).isSome }
  | s, .libssh2ChannelFree _, _ => { s with channelOpen := false }
  | s, _, _ => s

@[local simp] def Values.next (s : Values) (c : Call) (r : Reply c) : Values :=
  { s.track c r with reallocated := isRealloc c }

/-- A method is found in the list, the credential for it is NULL, and it is looked at: the password
always is, and the key path is if the password is not used. -/
def MissesCredential (args : Arguments) (methods : CString) : Prop :=
  (strstr methods.bytes password ∧ args.sshPassword = none) ∨
  ((strstr methods.bytes password → ∃ p, args.sshPassword = some p ∧ p.bytes = []) ∧
    strstr methods.bytes publickey ∧ args.sshKeyPath = none)

/-- The replies after which NULL is used. The command is not needed before its channel is open, and a
tuple is not needed before there is something to put into it. -/
@[local simp] def Values.Fails (args : Arguments) (s : Values) : (c : Call) → Reply c → Prop
  | .gethostbyname _, host => host = none
  | .libssh2SessionInit, session => session = none
  | .libssh2UserauthList _ _, methods => methods = none ∨ ∃ m, methods = some m ∧ MissesCredential args m
  | .pyListGetItem _ _, item => item = none
  | .pyStringAsString _, command => command = none ∧ s.channelOpen = true
  | .libssh2ChannelRead _ .stdout, r => r = .eof ∧ s.commandNull = true
  | .libssh2ChannelRead _ .stderr, r => r = .eof ∧ s.responseNull = some true
  | _, _ => False

def watcher (args : Arguments) : Watcher Reply Values where
  next := Values.next
  allows _ _ := True
  fails := Values.Fails args

@[simp] theorem watcher_next (args : Arguments) : (watcher args).next = Values.next := rfl
@[simp] theorem watcher_allows (args : Arguments) (s : Values) (c : Call) : (watcher args).allows s c := trivial
@[simp] theorem watcher_fails (args : Arguments) : (watcher args).fails = Values.Fails args := rfl

/-- What is undefined between a `realloc` and the next call is in `form_response_string`, and no NULL. -/
abbrev monitor (args : Arguments) : Monitor Reply (Watched Values) :=
  (watcher args).faultMonitor fun s => s.reallocated = true

@[local simp] def Inv (args : Arguments) : Label ⊕ Outcome → Values → Prop
  | .inl (.handshake a _ _), s => a = args ∧ s.responseNull = none ∧ s.channelOpen = false
  | .inl (.authenticate a _ _), s => a = args ∧ s.responseNull = none ∧ s.channelOpen = false
  | .inl (.commands _ _ _), s => s.responseNull = none ∧ s.channelOpen = false
  | .inl (.commandLoop f _), s => s.responseNull = some f.pyResponse.isNone ∧ s.channelOpen = false
  | .inl (.stdoutLoop c), s => s.responseNull = some c.frame.pyResponse.isNone ∧
      s.commandNull = c.pyCommandResponse.isNone ∧ s.channelOpen = true ∧
      ∃ text, Holds c.responseString.bytes text
  | .inl (.stderrLoop c), s => s.responseNull = some c.frame.pyResponse.isNone ∧
      c.pyCommandResponse.isSome = true ∧ s.channelOpen = true ∧ ∃ text, Holds c.responseString.bytes text
  | .inr _, _ => True

section Spec

variable {args : Arguments} {s : Values} {wrong : Prop}

theorem execute_spec : (executeSshInstructions (some args)).wp (monitor args) (Watcher.Sound (Inv args))
    ⟨{}, False, False⟩ := by
  simp [executeSshInstructions, raise]

theorem handshake_spec (save : Handle) (sshSocket : Int) (hresponse : s.responseNull = none)
    (hchannel : s.channelOpen = false) : (handshake args save sshSocket).wp (monitor args)
      (Watcher.Sound (Inv args)) ⟨s, wrong, False⟩ := by
  simp [handshake, raise, hresponse, hchannel]

theorem commands_spec (save sshSession list : Handle) (hresponse : s.responseNull = none)
    (hchannel : s.channelOpen = false) : (commands save sshSession list).wp (monitor args)
      (Watcher.Sound (Inv args)) ⟨s, wrong, False⟩ := by
  simp [commands, pyTupleNew, hresponse, hchannel]

/-! ## The credentials -/

theorem offered_eq_none_iff (methods : CString) (method : Bytes) (credential : Option CString) :
    offered methods method credential = none ↔ strstr methods.bytes method = true ∧ credential = none := by
  unfold offered
  split <;> simp_all

theorem offered_eq_false_iff (methods : CString) (method : Bytes) (credential : Option CString) :
    offered methods method credential = some false ↔
      (strstr methods.bytes method = true → ∃ c, credential = some c ∧ c.bytes = []) := by
  unfold offered
  split <;> simp_all

theorem credential_of_offered {methods : CString} {method : Bytes} {credential : Option CString}
    (h : offered methods method credential = some true) : credential ≠ none := by
  rintro rfl
  unfold offered at h
  split at h <;> simp at h

theorem missesCredential_iff (args : Arguments) (methods : CString) : MissesCredential args methods ↔
    offered methods password args.sshPassword = none ∨
      offered methods password args.sshPassword = some false ∧
        offered methods publickey args.sshKeyPath = none := by
  rw [offered_eq_none_iff, offered_eq_false_iff, offered_eq_none_iff]
  rfl

theorem authenticate_spec (save sshSession : Handle) (hresponse : s.responseNull = none)
    (hchannel : s.channelOpen = false) : (authenticate args save sshSession).wp (monitor args)
      (Watcher.Sound (Inv args)) ⟨s, wrong, False⟩ := by
  simp [authenticate, raise, hresponse, hchannel, missesCredential_iff]
  intro methods
  cases methods with
  | none => simp
  | some m =>
    cases hp : offered m password args.sshPassword with
    | none => simp [hp]
    | some usable =>
      cases usable with
      | true => simp [hp, credential_of_offered hp]
      | false =>
        cases hk : offered m publickey args.sshKeyPath with
        | none => simp [hp, hk]
        | some usable =>
          cases usable with
          | true => simp [hp, hk, credential_of_offered hk]
          | false => simp [hp, hk]

/-! ## One command -/

theorem execCommand_spec (f : Frame) (i : UInt8) (t : Option (Tuple Item)) (save channel : Handle)
    (hresponse : s.responseNull = some f.pyResponse.isNone) (hcommand : s.commandNull = t.isNone)
    (hchannel : s.channelOpen = true) : (execCommand f i t save channel).wp (monitor args)
      (Watcher.Sound (Inv args)) ⟨s, wrong, False⟩ := by
  simp [execCommand, raise, commandAt, newResponseString, hresponse, hcommand, hchannel]
  rintro item object rfl command
  refine ⟨fun h => .inr h, fun string hstring failed => ?_⟩
  simp [hstring]
  exact fun _ => ⟨[], holds_empty⟩

theorem commandLoop_spec (f : Frame) (i : UInt8) (hresponse : s.responseNull = some f.pyResponse.isNone)
    (hchannel : s.channelOpen = false) : (commandLoop f i).wp (monitor args)
      (Watcher.Sound (Inv args)) ⟨s, wrong, False⟩ := by
  simp [commandLoop, pyTupleNew, commandAt, hresponse, hchannel]
  intro _ tuple save channel
  cases channel with
  | none => simp [raise]
  | some channel =>
    apply execCommand_spec
    · rfl
    · cases tuple <;> rfl
    · rfl

/-! ## The reads -/

theorem room_eof {b text : Bytes} (h : Holds b text) : Room b .eof := by
  have hlength := cstr_length_lt b h.nul
  have hshort := h.short
  simp only [Room, ReadResult.count]
  omega

/-- A read is appended, or the call is undefined in `form_response_string`, and then it did not read a
zero. -/
theorem appendResponse_spec {Q : ResponseString → Watched Values → Prop} {string : ResponseString}
    {text : Bytes} {r : ReadResult} {failed : Prop} (h : Holds string.bytes text) (hfailed : failed → r = .eof)
    (hQ : ∀ address b, Room string.bytes r → Holds b (text ++ readText r) →
      Q ⟨address, b⟩ ⟨{ s with reallocated := true }, wrong, failed⟩) :
    (appendResponse string r).wp (monitor args) Q ⟨s, wrong, failed⟩ := by
  simp [appendResponse, response_size _ _ h.nul]
  intro memory
  refine ⟨fun hnone hf => ?_, fun b hb => ?_⟩
  · rw [hfailed hf, read_appends _ _ _ h.nul (room_eof h)] at hnone
    cases hnone
  · obtain ⟨hroom, hholds⟩ := read_spec _ _ _ _ _ h hb
    exact hQ _ _ hroom hholds

/-- The text of an output that was read goes into the tuple of the command, if there is one. -/
theorem setOutput_spec {Q : Option (Tuple Item) → Watched Values → Prop} {t : Option (Tuple Item)} {slot : Nat}
    {string : ResponseString} {failed : Prop} (hnul : 0 ∈ string.bytes) (hfailed : t = none → failed)
    (hQ : ∀ u : Tuple Item, t.isSome → Q (some u) ⟨{ s with reallocated := false }, wrong, failed⟩) :
    (setOutput t slot string).wp (monitor args) Q ⟨s, wrong, failed⟩ := by
  simp [setOutput, pyTupleSetItem, strlen_of_mem _ hnul]
  refine ⟨hfailed, fun u hu => hQ _ ?_⟩
  rw [hu]
  rfl

/-- One turn of a read loop. The result is appended before it is tested, and an error is undefined
there, so what comes after the loop has read a zero. -/
theorem readTurn_spec {Q : Label ⊕ Outcome → Watched Values → Prop} {channel : Handle} {stream : Stream}
    {string : ResponseString} {text : Bytes} {again rest : ResponseString → Body} (failed : Prop)
    (h : Holds string.bytes text)
    (hfails : ∀ r, Values.Fails args s (.libssh2ChannelRead channel stream) r ↔ r = .eof ∧ failed)
    (hagain : ∀ address b text, Holds b text →
      (again ⟨address, b⟩).wp (monitor args) Q ⟨{ s with reallocated := true }, wrong, False⟩)
    (hrest : ∀ address b, 0 ∈ b →
      (rest ⟨address, b⟩).wp (monitor args) Q ⟨{ s with reallocated := true }, wrong, failed⟩) :
    Prog.wp (monitor args) Q (do
      let r ← ask (.libssh2ChannelRead channel stream)
      let string ← appendResponse string r
      if (r : ReadResult).count > 0 then again string else rest string) ⟨s, wrong, False⟩ := by
  rw [Prog.ask_bind, wp_call]
  refine ⟨trivial, fun r _ => ?_⟩
  rw [wp_bind]
  simp only [Watcher.faultMonitor_next, watcher_next, watcher_allows, watcher_fails, hfails, Values.next,
    Values.track, isRealloc, not_true, or_false, false_or]
  apply appendResponse_spec h (fun hf => hf.1)
  intro address b hroom hholds
  cases r with
  | data chunk =>
    rw [if_pos ((count_pos_iff _).mpr ⟨chunk, rfl⟩)]
    simpa using hagain address b _ hholds
  | eof => simpa [ReadResult.count] using hrest address b hholds.nul
  | error e =>
    have hneg := e.neg
    exact absurd hroom.1 (by simp only [ReadResult.count]; omega)

theorem stdoutLoop_spec (c : CommandFrame) {text : Bytes}
    (hresponse : s.responseNull = some c.frame.pyResponse.isNone)
    (hcommand : s.commandNull = c.pyCommandResponse.isNone) (hchannel : s.channelOpen = true)
    (h : Holds c.responseString.bytes text) :
    (stdoutLoop c).wp (monitor args) (Watcher.Sound (Inv args)) ⟨s, wrong, False⟩ := by
  unfold stdoutLoop
  apply readTurn_spec (c.pyCommandResponse = none) h
  · intro r
    simp [hcommand]
  · intro address b text hb
    exact ⟨not_false, hresponse, hcommand, hchannel, text, hb⟩
  · intro address b hb
    simp
    apply setOutput_spec hb id
    intro u hu
    simp [newResponseString, hresponse, hchannel]
    exact ⟨Option.isSome_iff_ne_none.mp hu, [], holds_empty⟩

/-- The response of the command goes into `py_response`, if there is one. -/
theorem finishCommand_spec (c : CommandFrame) (save : Handle) (u : Tuple Item) (code : Int)
    (signal : Option CString) (hresponse : s.responseNull = some c.frame.pyResponse.isNone) :
    (finishCommand c save (some u) code signal).wp (monitor args) (Watcher.Sound (Inv args))
      ⟨s, wrong, c.frame.pyResponse = none⟩ := by
  cases signal with
  | none =>
    simp [finishCommand, setExitSignal, pyTupleSetItem, hresponse]
    intro t ht
    simp [ht]
  | some name =>
    simp [finishCommand, setExitSignal, pyTupleSetItem, hresponse]
    intro t ht
    simp [ht]

theorem stderrLoop_spec (c : CommandFrame) {text : Bytes}
    (hresponse : s.responseNull = some c.frame.pyResponse.isNone)
    (hcommand : c.pyCommandResponse.isSome = true) (hchannel : s.channelOpen = true)
    (h : Holds c.responseString.bytes text) :
    (stderrLoop c).wp (monitor args) (Watcher.Sound (Inv args)) ⟨s, wrong, False⟩ := by
  unfold stderrLoop
  apply readTurn_spec (c.frame.pyResponse = none) h
  · intro r
    simp [hresponse]
  · intro address b text hb
    exact ⟨not_false, hresponse, hcommand, hchannel, text, hb⟩
  · intro address b hb
    simp
    apply setOutput_spec hb (fun hnone => by simp [hnone] at hcommand)
    intro u _
    simp [closeChannel]
    intro save closed
    exact ⟨fun _ code signal => finishCommand_spec c save _ code _ hresponse,
      fun _ => finishCommand_spec c save _ 0 none hresponse⟩

theorem block_spec (l : Label) (s : Values) (wrong : Prop) (h : Inv args (.inl l) s) :
    (block l).wp (monitor args) (Watcher.Sound (Inv args)) ⟨s, wrong, False⟩ := by
  cases l with
  | handshake a save sshSocket =>
    obtain ⟨rfl, hresponse, hchannel⟩ := h
    exact handshake_spec save sshSocket hresponse hchannel
  | authenticate a save session =>
    obtain ⟨rfl, hresponse, hchannel⟩ := h
    exact authenticate_spec save session hresponse hchannel
  | commands save session list => exact commands_spec save session list h.1 h.2
  | commandLoop f i => exact commandLoop_spec f i h.1 h.2
  | stdoutLoop c =>
    obtain ⟨hresponse, hcommand, hchannel, text, hholds⟩ := h
    exact stdoutLoop_spec c hresponse hcommand hchannel hholds
  | stderrLoop c =>
    obtain ⟨hresponse, hcommand, hchannel, text, hholds⟩ := h
    exact stderrLoop_spec c hresponse hcommand hchannel hholds

end Spec

/-! ## How a call ends -/

/-- A value that nothing can be done without. -/
@[local simp] def Lacking : Event Reply → Prop
  | ⟨.gethostbyname _, host⟩ => host = none
  | ⟨.libssh2SessionInit, session⟩ => session = none
  | ⟨.libssh2UserauthList _ _, methods⟩ => methods = none
  | ⟨.pyListGetItem _ _, item⟩ => item = none
  | ⟨.pyTupleNew _, tuple⟩ => tuple = none
  | _ => False

/-- `PyTuple_New` sets an exception itself when it returns NULL. -/
@[local simp] def SetsException : Event Reply → Prop
  | ⟨.pyErrSetString _, _⟩ => True
  | ⟨.pyTupleNew _, tuple⟩ => tuple = none
  | _ => False

/-- The server takes the password or the key that the caller has given. -/
@[local simp] def LogsIn (args : Arguments) : Event Reply → Prop
  | ⟨.libssh2UserauthPassword _ _ p, failed⟩ => args.sshPassword = some p ∧ (failed : Int) = 0
  | ⟨.libssh2UserauthPublickeyFromfile _ _ k, failed⟩ => args.sshKeyPath = some k ∧ (failed : Int) = 0
  | _ => False

structure Account where
  lacking : Prop
  excepted : Prop
  loggedIn : Prop

def accountant (args : Arguments) : Monitor Reply Account where
  next s c r := ⟨s.lacking ∨ Lacking ⟨c, r⟩, s.excepted ∨ SetsException ⟨c, r⟩, s.loggedIn ∨ LogsIn args ⟨c, r⟩⟩

/-- A tuple that could not be made is still NULL, and an exception says so. -/
@[local simp] def Post (args : Arguments) : Label ⊕ Outcome → Account → Prop
  | .inl (.handshake a _ _), s => a = args ∧ ¬ s.lacking
  | .inl (.authenticate a _ _), s => a = args ∧ ¬ s.lacking
  | .inl (.commands _ _ _), s => ¬ s.lacking ∧ s.loggedIn
  | .inl (.commandLoop f _), s => s.loggedIn ∧ (s.lacking → f.pyResponse = none) ∧
      (f.pyResponse = none → s.excepted)
  | .inl (.stdoutLoop c), s => s.loggedIn ∧
      (s.lacking → c.frame.pyResponse = none ∨ c.pyCommandResponse = none) ∧
      (c.frame.pyResponse = none → s.excepted)
  | .inl (.stderrLoop c), s => s.loggedIn ∧ (s.lacking → c.frame.pyResponse = none) ∧
      (c.frame.pyResponse = none → s.excepted)
  | .inr none, s => s.excepted
  | .inr (some _), s => ¬ s.lacking ∧ s.loggedIn

section Ends

variable {args : Arguments} {lacking excepted loggedIn : Prop}

@[simp] theorem accountant_next (c : Call) (r : Reply c) :
    (accountant args).next ⟨lacking, excepted, loggedIn⟩ c r =
      ⟨lacking ∨ Lacking ⟨c, r⟩, excepted ∨ SetsException ⟨c, r⟩, loggedIn ∨ LogsIn args ⟨c, r⟩⟩ := rfl
@[simp] theorem accountant_guar (s : Account) (c : Call) : (accountant args).guar s c := trivial
@[simp] theorem accountant_rely (s : Account) (c : Call) (r : Reply c) : (accountant args).rely s c r := trivial
@[simp] theorem accountant_fault (s : Account) : (accountant args).fault s := trivial

theorem execute_ends : (executeSshInstructions (some args)).wp (accountant args) (Post args)
    ⟨False, False, False⟩ := by
  simp [executeSshInstructions, raise]

theorem handshake_ends (save : Handle) (sshSocket : Int) (h : ¬ lacking) :
    (handshake args save sshSocket).wp (accountant args) (Post args) ⟨lacking, excepted, loggedIn⟩ := by
  simp [handshake, raise, h]

theorem authenticate_ends (save sshSession : Handle) (h : ¬ lacking) :
    (authenticate args save sshSession).wp (accountant args) (Post args) ⟨lacking, excepted, loggedIn⟩ := by
  simp [authenticate, raise, h]
  rintro methods m rfl
  exact ⟨fun _ _ k hk => ⟨Option.some_ne_none m, .inr hk⟩, fun _ p hp => ⟨Option.some_ne_none m, .inr hp⟩⟩

theorem commands_ends (save sshSession list : Handle) (h : ¬ lacking) (hlogin : loggedIn) :
    (commands save sshSession list).wp (accountant args) (Post args) ⟨lacking, excepted, loggedIn⟩ := by
  simp [commands, pyTupleNew, h, hlogin]

theorem execCommand_ends (f : Frame) (i : UInt8) (t : Option (Tuple Item)) (save channel : Handle)
    (hlogin : loggedIn) (hlacking : lacking → f.pyResponse = none ∨ t = none)
    (hexcepted : f.pyResponse = none → excepted) : (execCommand f i t save channel).wp (accountant args)
      (Post args) ⟨lacking, excepted, loggedIn⟩ := by
  simp [execCommand, raise, commandAt, newResponseString, hlogin]
  exact ⟨hlacking, hexcepted⟩

theorem commandLoop_ends (f : Frame) (i : UInt8) (hlogin : loggedIn) (hlacking : lacking → f.pyResponse = none)
    (hexcepted : f.pyResponse = none → excepted) : (commandLoop f i).wp (accountant args) (Post args)
      ⟨lacking, excepted, loggedIn⟩ := by
  unfold commandLoop
  rw [wp_ite]
  refine ⟨fun _ => ?_, fun _ => ?_⟩
  · simp [pyTupleNew, commandAt, hlogin]
    intro tuple save channel
    cases channel with
    | none => simp [raise]
    | some channel =>
      apply execCommand_ends f i _ save channel trivial
      · rintro (hl | rfl)
        · exact .inl (hlacking hl)
        · exact .inr rfl
      · exact fun h => .inl (hexcepted h)
  · simp
    cases hresponse : f.pyResponse with
    | none => exact hexcepted hresponse
    | some t =>
      refine ⟨fun hl => ?_, hlogin⟩
      rw [hlacking hl] at hresponse
      cases hresponse

theorem stdoutLoop_ends (c : CommandFrame) (hlogin : loggedIn)
    (hlacking : lacking → c.frame.pyResponse = none ∨ c.pyCommandResponse = none)
    (hexcepted : c.frame.pyResponse = none → excepted) : (stdoutLoop c).wp (accountant args) (Post args)
      ⟨lacking, excepted, loggedIn⟩ := by
  simp [stdoutLoop, appendResponse, setOutput, pyTupleSetItem, newResponseString, hlogin]
  intro r _ _ _ _ _
  refine ⟨fun _ => ⟨hlacking, hexcepted⟩, fun _ _ _ t ht => ⟨fun hl => ?_, hexcepted⟩⟩
  exact (hlacking hl).resolve_right (by simp [ht])

theorem finishCommand_ends (c : CommandFrame) (save : Handle) (t : Option (Tuple Item)) (code : Int)
    (signal : Option CString) (hlogin : loggedIn) (hlacking : lacking → c.frame.pyResponse = none) :
    (finishCommand c save t code signal).wp (accountant args) (Post args) ⟨lacking, excepted, loggedIn⟩ := by
  have hfilled : ∀ a, c.frame.pyResponse = some a → ¬ lacking := by
    intro a ha hl
    rw [hlacking hl] at ha
    cases ha
  cases signal with
  | none =>
    simp [finishCommand, setExitSignal, pyTupleSetItem, hlogin]
    exact fun _ _ => hfilled
  | some name =>
    simp [finishCommand, setExitSignal, pyTupleSetItem, hlogin]
    exact fun _ _ => hfilled

theorem stderrLoop_ends (c : CommandFrame) (hlogin : loggedIn) (hlacking : lacking → c.frame.pyResponse = none)
    (hexcepted : c.frame.pyResponse = none → excepted) : (stderrLoop c).wp (accountant args) (Post args)
      ⟨lacking, excepted, loggedIn⟩ := by
  simp [stderrLoop, appendResponse, setOutput, pyTupleSetItem, closeChannel, hlogin]
  intro r _ _ _ _ _
  refine ⟨fun _ => ⟨hlacking, hexcepted⟩, fun _ _ _ t _ save closed => ⟨fun _ code signal => ?_, fun _ => ?_⟩⟩
  · exact finishCommand_ends c save _ code _ trivial hlacking
  · exact finishCommand_ends c save _ 0 none trivial hlacking

theorem block_ends : Verified (accountant args) block (Post args) := by
  rintro l ⟨lacking, excepted, loggedIn⟩ h
  cases l with
  | handshake a save sshSocket =>
    obtain ⟨rfl, hlacking⟩ := h
    exact handshake_ends save sshSocket hlacking
  | authenticate a save session =>
    obtain ⟨rfl, hlacking⟩ := h
    exact authenticate_ends save session hlacking
  | commands save session list => exact commands_ends save session list h.1 h.2
  | commandLoop f i => exact commandLoop_ends f i h.1 h.2.1 h.2.2
  | stdoutLoop c => exact stdoutLoop_ends c h.1 h.2.1 h.2.2
  | stderrLoop c => exact stderrLoop_ends c h.1 h.2.1 h.2.2

end Ends

/-! ## NULL is not used -/

/-- NULL, as an address. -/
def nullAddress : Handle := 0

/-- `malloc` and `realloc` give no memory. The `memset` or the `strlen` that comes next does not look. -/
def NoMemory : Event Reply → Prop
  | ⟨.malloc _, address⟩ => (address : Handle) = nullAddress
  | ⟨.realloc _ _, memory⟩ => (memory : Realloced).address = nullAddress
  | _ => False

def endsInRealloc (t : List (Event Reply)) : Bool := t.getLast?.any fun e => isRealloc e.1

/-- The call is undefined, and not because of the lengths in `form_response_string`, or it was given no
memory. -/
def UsesNull (cfg : Config Reply Label Outcome) : Prop :=
  (cfg.todo = .fault ∧ endsInRealloc cfg.trace = false) ∨ ∃ e ∈ cfg.trace, NoMemory e

section Run

variable (args : Arguments) (env : Env Reply)

def runOf (n : Nat) : Config Reply Label Outcome := run block env (executeSshInstructions (some args)) n

/-- NULL is never used, it is returned with an exception, and a tuple is returned only if all that it
needs was there. A credential that is None was then not needed: the other one was taken. -/
structure Safe : Prop where
  unused : ∀ n, ¬ UsesNull (runOf args env n)
  raises : ∀ n, Ends block env (executeSshInstructions (some args)) n none →
    ∃ e ∈ (runOf args env n).trace, SetsException e
  complete : ∀ n t, Ends block env (executeSshInstructions (some args)) n (some t) →
    ∀ e ∈ (runOf args env n).trace, ¬ Lacking e
  login : ∀ n t, Ends block env (executeSshInstructions (some args)) n (some t) →
    ∃ e ∈ (runOf args env n).trace, LogsIn args e

theorem reallocated_after (s : Values) (hs : s.reallocated = false) (t : List (Event Reply)) :
    ((watcher args).after s t).reallocated = endsInRealloc t := by
  rcases List.eq_nil_or_concat t with rfl | ⟨u, e, rfl⟩
  · exact hs
  · simp [Watcher.after, endsInRealloc]

theorem undefined_iff : (∀ n, (runOf args env n).todo = .fault → endsInRealloc (runOf args env n).trace = true) ↔
    ∀ n, ¬ (watcher args).Fails {} (runOf args env n).trace := by
  have h := (watcher args).faults_iff block_spec execute_spec env
  simp only [reallocated_after args {} rfl] at h
  exact h

theorem ends_run (n : Nat) : (runOf args env n).todo.wp (accountant args) (Post args)
    ((accountant args).after ⟨False, False, False⟩ (runOf args env n).trace) :=
  run_wp _ _ _ block_ends execute_ends n (Monitor.relied_of_trivial _ (fun _ _ _ => trivial) _ _)

theorem null_excepted {n : Nat} (h : Ends block env (executeSshInstructions (some args)) n none) :
    ∃ e ∈ (runOf args env n).trace, SetsException e := by
  have hpost := ends_run args env n
  rw [show (runOf args env n).todo = .ret (.inr none) from h] at hpost
  rw [wp_ret, Post, Monitor.flag_iff _ Account.excepted SetsException (fun _ _ _ => Iff.rfl)] at hpost
  exact hpost.resolve_left not_false

theorem tuple_complete {n : Nat} {t : Tuple CommandResponse}
    (h : Ends block env (executeSshInstructions (some args)) n (some t)) :
    (∀ e ∈ (runOf args env n).trace, ¬ Lacking e) ∧ ∃ e ∈ (runOf args env n).trace, LogsIn args e := by
  have hpost := ends_run args env n
  rw [show (runOf args env n).todo = .ret (.inr (some t)) from h] at hpost
  rw [wp_ret, Post, Monitor.flag_iff _ Account.lacking Lacking (fun _ _ _ => Iff.rfl),
    Monitor.flag_iff _ Account.loggedIn (LogsIn args) (fun _ _ _ => Iff.rfl)] at hpost
  obtain ⟨hlacking, hlogin⟩ := hpost
  exact ⟨fun e he hl => hlacking (.inr ⟨e, he, hl⟩), hlogin.resolve_left not_false⟩

/-- No value that is not there is used exactly if no reply is NULL at a place where the code needs it. -/
theorem safe_iff : Safe args env ↔ ∀ n, ¬ (watcher args).Fails {} (runOf args env n).trace ∧
    ∀ e ∈ (runOf args env n).trace, ¬ NoMemory e := by
  rw [forall_and, ← undefined_iff]
  constructor
  · intro h
    refine ⟨fun n hfault => ?_, fun n e he hnone => h.unused n (.inr ⟨e, he, hnone⟩)⟩
    by_contra hlast
    exact h.unused n (.inl ⟨hfault, by simpa using hlast⟩)
  · rintro ⟨hfault, hmemory⟩
    refine ⟨?_, fun n h => null_excepted args env h, fun n t h => (tuple_complete args env h).1,
      fun n t h => (tuple_complete args env h).2⟩
    rintro n (⟨hundefined, hlast⟩ | ⟨e, he, hnone⟩)
    · rw [hfault n hundefined] at hlast
      cases hlast
    · exact hmemory n e he hnone

end Run

/-- A call with a key path `k`, and None for the password. -/
def keyOnly : Arguments := { sampleArguments with sshPassword := none, sshKeyPath := some ⟨[107], by decide⟩ }

/-- A server that offers `publickey,password`. -/
def offersBoth : Env Reply := fun t c =>
  match c with
  | .libssh2UserauthList _ _ => some ⟨publickey ++ 44 :: password, by decide⟩
  | c => accepting 0 t c

/-- The key would do, but the length of the password is taken first. -/
theorem none_password_measured : ¬ Safe keyOnly offersBoth := by
  intro h
  have hfault : (runOf keyOnly offersBoth 20).todo = .fault := rfl
  have hlast : endsInRealloc (runOf keyOnly offersBoth 20).trace = false := by decide +kernel
  exact h.unused 20 (.inl ⟨hfault, hlast⟩)

end RemoteSsh.Absent
