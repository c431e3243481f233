import RemoteSsh.Lib.Monitor
import RemoteSsh.Lib.NameList
import RemoteSsh.Code.Funs

/-!
# The choice of a credential

Which credential the call sends to a server that offers some methods, and what it has to wait for.
-/

open Lib

namespace RemoteSsh.Auth

/-! ## What the server offers -/

/-- `','`. -/
def comma : UInt8 := 44

/-- An SSH name-list. -/
structure MethodList extends NameList comma where
  noNul : ∀ name ∈ names, 0 ∉ name

/-- What `libssh2_userauth_list` returns for it. -/
def MethodList.methods (m : MethodList) : CString where
  bytes := m.text
  noNul := by
    intro h
    rcases m.mem_text h with hsep | ⟨name, hname, h0⟩
    · exact absurd hsep (by decide)
    · exact m.noNul name hname h0

/-- `env`, with a server that offers `m`. -/
def offering (m : MethodList) (env : Env Reply) : Env Reply := fun t c =>
  match c with
  | .libssh2UserauthList _ _ => some m.methods
  | c => env t c

/-- The arguments of a call that has a password and a key path. Both may be empty. -/
structure Login where
  sshHost : CString
  sshUsername : CString
  sshPassword : CString
  sshKeyPath : CString
  pyCommandList : Handle

def Login.arguments (l : Login) : Arguments :=
  ⟨l.sshHost, l.sshUsername, some l.sshPassword, some l.sshKeyPath, l.pyCommandList⟩

@[local simp] def Shakes : Event Reply → Prop
  | ⟨.libssh2SessionHandshake _ _, failed⟩ => (failed : Int) = 0
  | _ => False

@[local simp] def asks : Call → Bool
  | .libssh2UserauthList _ _ => true
  | _ => false

@[local simp] def sendsPassword : Call → Bool
  | .libssh2UserauthPassword _ _ _ => true
  | _ => false

@[local simp] def usesKey : Call → Bool
  | .libssh2UserauthPublickeyFromfile _ _ _ => true
  | _ => false

def sendsCredential (c : Call) : Bool := sendsPassword c || usesKey c

/-- The server takes the credential. -/
@[local simp] def Accepts : Event Reply → Prop
  | ⟨.libssh2UserauthPassword _ _ _, failed⟩ => (failed : Int) = 0
  | ⟨.libssh2UserauthPublickeyFromfile _ _ _, failed⟩ => (failed : Int) = 0
  | _ => False

/-- A channel is opened, or a command is sent. -/
@[local simp] def works : Call → Bool
  | .libssh2ChannelOpenSession _ => true
  | .libssh2ChannelExec _ _ => true
  | _ => false

@[local simp] def raises : Call → Bool
  | .pyErrSetString _ => true
  | _ => false

section Property

variable (l : Login) (m : MethodList) (env : Env Reply)

def runOf (n : Nat) : Config Reply Label Outcome :=
  run block (offering m env) (executeSshInstructions (some l.arguments)) n

end Property

/-! ## How far a run has come -/

structure Progress where
  shaken : Prop
  asked : Prop
  passwordSent : Prop
  keySent : Prop
  accepted : Prop
  raised : Prop

def Progress.start : Progress := ⟨False, False, False, False, False, False⟩

@[local simp] def Offers (m : MethodList) : (c : Call) → Reply c → Prop
  | .libssh2UserauthList _ _, methods => methods = some m.methods
  | _, _ => True

def passwordFound (l : Login) (m : MethodList) : Bool :=
  strstr m.methods.bytes password && decide (l.sshPassword.bytes.length ≠ 0)

def keyFound (l : Login) (m : MethodList) : Bool :=
  strstr m.methods.bytes publickey && decide (l.sshKeyPath.bytes.length ≠ 0)

def Untried (s : Progress) : Prop := ¬ s.asked ∧ ¬ s.passwordSent ∧ ¬ s.keySent

/-- The list was asked for, and what was found in it decided. -/
structure Tried (l : Login) (m : MethodList) (s : Progress) : Prop where
  asked : s.asked
  passwordSent : s.passwordSent ↔ passwordFound l m
  keySent : s.keySent ↔ ¬ passwordFound l m ∧ keyFound l m

def LoggedIn (l : Login) (m : MethodList) (s : Progress) : Prop :=
  Tried l m s ∧ (passwordFound l m ∨ keyFound l m) ∧ s.accepted

/-- The choice is not due yet, or it is made, and if there was nothing to choose then NULL is returned
with an exception. -/
def Settled (l : Login) (m : MethodList) (s : Progress) (null : Prop) : Prop :=
  Untried s ∨ Tried l m s ∧ ((passwordFound l m ∨ keyFound l m) ∨ null ∧ s.raised)

theorem LoggedIn.settled {l : Login} {m : MethodList} {s : Progress} (h : LoggedIn l m s) (null : Prop) :
    Settled l m s null :=
  .inr ⟨h.1, .inl h.2.1⟩

def watch (l : Login) (m : MethodList) : Monitor Reply Progress where
  next s c r := ⟨s.shaken ∨ Shakes ⟨c, r⟩, s.asked ∨ asks c, s.passwordSent ∨ sendsPassword c,
    s.keySent ∨ usesKey c, s.accepted ∨ Accepts ⟨c, r⟩, s.raised ∨ raises c⟩
  guar s c := (sendsCredential c → s.shaken ∧ ¬ s.passwordSent ∧ ¬ s.keySent) ∧ (works c → s.accepted)
  rely _ c r := Offers m c r
  fault s := Untried s ∨ LoggedIn l m s

def Post (l : Login) (m : MethodList) : Label ⊕ Outcome → Progress → Prop
  | .inl (.handshake args _ _), s => args = l.arguments ∧ Untried s
  | .inl (.authenticate args _ _), s => args = l.arguments ∧ s.shaken ∧ Untried s
  | .inl _, s => LoggedIn l m s
  | .inr o, s => Settled l m s (o = none)

section Spec

variable {l : Login} {m : MethodList}

@[simp] theorem watch_next (shaken asked passwordSent keySent accepted raised : Prop) (c : Call) (r : Reply c) :
    (watch l m).next ⟨shaken, asked, passwordSent, keySent, accepted, raised⟩ c r =
      ⟨shaken ∨ Shakes ⟨c, r⟩, asked ∨ asks c, passwordSent ∨ sendsPassword c, keySent ∨ usesKey c,
        accepted ∨ Accepts ⟨c, r⟩, raised ∨ raises c⟩ := rfl
@[simp] theorem watch_guar (s : Progress) (c : Call) : (watch l m).guar s c ↔
    (sendsCredential c → s.shaken ∧ ¬ s.passwordSent ∧ ¬ s.keySent) ∧ (works c → s.accepted) := Iff.rfl
@[simp] theorem watch_rely (s : Progress) (c : Call) (r : Reply c) : (watch l m).rely s c r ↔ Offers m c r :=
  Iff.rfl
@[simp] theorem watch_fault (s : Progress) : (watch l m).fault s ↔ Untried s ∨ LoggedIn l m s := Iff.rfl

theorem offered_given (methods c : CString) (method : Bytes) :
    offered methods method (some c) = some (strstr methods.bytes method && decide (c.bytes.length ≠ 0)) := by
  unfold offered
  cases strstr methods.bytes method <;> rfl

theorem offered_password : offered m.methods password (some l.sshPassword) = some (passwordFound l m) :=
  offered_given m.methods l.sshPassword password

theorem offered_key : offered m.methods publickey (some l.sshKeyPath) = some (keyFound l m) :=
  offered_given m.methods l.sshKeyPath publickey

theorem execute_spec : (executeSshInstructions (some l.arguments)).wp (watch l m) (Post l m)
    Progress.start := by
  simp [executeSshInstructions, Progress.start, raise, sendsCredential, Post, Settled, Untried]

theorem handshake_spec (save : Handle) (sshSocket : Int) {s : Progress} (h : Untried s) :
    (handshake l.arguments save sshSocket).wp (watch l m) (Post l m) s := by
  obtain ⟨shaken, asked, passwordSent, keySent, accepted, raised⟩ := s
  obtain ⟨hasked, hpassword, hkey⟩ := h
  simp_all [handshake, raise, sendsCredential, Post, Settled, Untried]

theorem authenticate_spec (save sshSession : Handle) {s : Progress} (hshaken : s.shaken) (h : Untried s) :
    (authenticate l.arguments save sshSession).wp (watch l m) (Post l m) s := by
  obtain ⟨shaken, asked, passwordSent, keySent, accepted, raised⟩ := s
  obtain ⟨hasked, hpassword, hkey⟩ := h
  simp only at hshaken hasked hpassword hkey
  unfold authenticate
  rw [Prog.ask_bind, wp_call]
  refine ⟨by simp [sendsCredential], fun methods hmethods => ?_⟩
  obtain rfl : methods = some m.methods := hmethods
  simp only [Login.arguments, Prog.check_some, Prog.ret_bind, offered_password, offered_key]
  -- The three ways out of the block, as the code decides between them.
  cases hp : passwordFound l m with
  | true =>
    have htried : ∀ accepted raised, Tried l m ⟨True, True, True, False, accepted, raised⟩ :=
      fun _ _ => ⟨trivial, by simp [hp], by simp [hp]⟩
    simp [raise, sendsCredential, Post, Settled, LoggedIn, hp, hshaken, hpassword, hkey, htried]
  | false =>
    cases hk : keyFound l m with
    | true =>
      have htried : ∀ accepted raised, Tried l m ⟨True, True, False, True, accepted, raised⟩ :=
        fun _ _ => ⟨trivial, by simp [hp], by simp [hp, hk]⟩
      simp [raise, sendsCredential, Post, Settled, LoggedIn, hp, hk, hshaken, hpassword, hkey, htried]
    | false =>
      have htried : ∀ accepted raised, Tried l m ⟨True, True, False, False, accepted, raised⟩ :=
        fun _ _ => ⟨trivial, by simp [hp], by simp [hp, hk]⟩
      simp [raise, sendsCredential, Post, Settled, hp, hk, hshaken, hpassword, hkey, htried]

/-! ## After the choice -/

/-- Neither the list nor a credential is touched. -/
@[local simp] def Neutral (c : Call) : Prop := asks c = false ∧ sendsPassword c = false ∧ usesKey c = false

/-- The labels behind `authenticate`, and the ends. -/
@[local simp] def Behind : Label ⊕ Outcome → Prop
  | .inl (.handshake _ _ _) => False
  | .inl (.authenticate _ _ _) => False
  | _ => True

theorem execCommand_neutral (f : Frame) (i : UInt8) (t : Option (Tuple Item)) (save channel : Handle) :
    (execCommand f i t save channel).wp (only Neutral) (fun x _ => Behind x) () := by
  simp [execCommand, raise, commandAt, newResponseString]

theorem finishCommand_neutral (c : CommandFrame) (save : Handle) (t : Option (Tuple Item)) (code : Int)
    (signal : Option CString) :
    (finishCommand c save t code signal).wp (only Neutral) (fun x _ => Behind x) () := by
  cases signal with
  | none =>
    simp [finishCommand, setExitSignal, pyTupleSetItem]
  | some name =>
    simp [finishCommand, setExitSignal, pyTupleSetItem]

theorem block_neutral (label : Label) (h : Behind (.inl label)) :
    (block label).wp (only Neutral) (fun x _ => Behind x) () := by
  cases label with
  | handshake => exact h.elim
  | authenticate => exact h.elim
  | commands => simp [block, commands, pyTupleNew]
  | commandLoop f i =>
    simp [block, commandLoop, pyTupleNew, commandAt]
    intro _ tuple save channel
    cases channel with
    | none => simp [raise]
    | some channel => exact execCommand_neutral f i _ save channel
  | stdoutLoop c =>
    simp [block, stdoutLoop, appendResponse, setOutput, pyTupleSetItem, newResponseString]
  | stderrLoop c =>
    simp [block, stderrLoop, appendResponse, setOutput, pyTupleSetItem, closeChannel]
    intro r _ _ _ _ _ _ _ _ t _ save closed
    exact ⟨fun _ code signal => finishCommand_neutral c save _ code _,
      fun _ => finishCommand_neutral c save _ 0 none⟩

theorem loggedIn_step (s : Progress) (c : Call) (hc : Neutral c) (h : LoggedIn l m s) :
    (watch l m).guar s c ∧ ∀ r, (watch l m).rely s c r → LoggedIn l m ((watch l m).next s c r) := by
  obtain ⟨-, hpassword, hkey⟩ := hc
  obtain ⟨⟨hasked, hsent, hused⟩, hfound, haccepted⟩ := h
  refine ⟨⟨fun hcredential => ?_, fun _ => haccepted⟩, fun r _ => ⟨⟨.inl hasked, ?_, ?_⟩, hfound, .inl haccepted⟩⟩
  · rw [sendsCredential, hpassword, hkey] at hcredential
    cases hcredential
  · simpa [watch, hpassword, -sendsPassword] using hsent
  · simpa [watch, hkey, -usesKey] using hused

theorem post_of_loggedIn (x : Label ⊕ Outcome) (s : Progress) (hx : Behind x) (h : LoggedIn l m s) :
    Post l m x s := by
  match x with
  | .inl (.handshake _ _ _) => exact hx.elim
  | .inl (.authenticate _ _ _) => exact hx.elim
  | .inl (.commands _ _ _) => exact h
  | .inl (.commandLoop _ _) => exact h
  | .inl (.stdoutLoop _) => exact h
  | .inl (.stderrLoop _) => exact h
  | .inr o => exact h.settled _

theorem loggedIn_spec (label : Label) (hlabel : Behind (.inl label)) {s : Progress} (h : LoggedIn l m s) :
    (block label).wp (watch l m) (Post l m) s := by
  apply wp_frame (watch l m) loggedIn_step _ post_of_loggedIn (block_neutral label hlabel) h
  exact fun _ h => .inr h

theorem block_spec : Verified (watch l m) block (Post l m) := by
  intro label s h
  cases label with
  | handshake args save sshSocket =>
    obtain ⟨rfl, huntried⟩ := h
    exact handshake_spec save sshSocket huntried
  | authenticate args save session =>
    obtain ⟨rfl, hshaken, huntried⟩ := h
    exact authenticate_spec save session hshaken huntried
  | commands save session list => exact loggedIn_spec (.commands save session list) trivial h
  | commandLoop f i => exact loggedIn_spec (.commandLoop f i) trivial h
  | stdoutLoop c => exact loggedIn_spec (.stdoutLoop c) trivial h
  | stderrLoop c => exact loggedIn_spec (.stderrLoop c) trivial h

end Spec

/-! ## Every run -/

section Run

variable (l : Login) (m : MethodList) (env : Env Reply)

def progress (n : Nat) : Progress :=
  (watch l m).after Progress.start (runOf l m env n).trace

theorem offers_offering (t : List (Event Reply)) (c : Call) : Offers m c (offering m env t c) := by
  cases c with
  | libssh2UserauthList => rfl
  | _ => trivial

theorem relied (n : Nat) :
    (watch l m).Relied Progress.start (runOf l m env n).trace :=
  relied_run _ _ _ (fun t c => offers_offering m env t c) _ n

theorem kept (n : Nat) :
    (watch l m).Kept Progress.start (runOf l m env n).trace :=
  run_kept _ _ _ block_spec execute_spec n (relied l m env n)

theorem settled (n : Nat) : ∃ k, n ≤ k ∧
    Settled l m (progress l m env k) ((runOf l m env k).todo = .ret (.inr none)) := by
  obtain ⟨k, hk, hend⟩ := exists_end_wp _ block (offering m env) block_spec execute_spec (relied l m env) n
  refine ⟨k, hk, ?_⟩
  rcases hend with ⟨x, hq, hpost⟩ | ⟨-, hpost⟩
  · match x with
    | .inl (.handshake _ _ _) => exact .inl hpost.2
    | .inl (.authenticate _ _ _) => exact .inl hpost.2.2
    | .inl (.commands _ _ _) => exact LoggedIn.settled hpost _
    | .inl (.commandLoop _ _) => exact LoggedIn.settled hpost _
    | .inl (.stdoutLoop _) => exact LoggedIn.settled hpost _
    | .inl (.stderrLoop _) => exact LoggedIn.settled hpost _
    | .inr o =>
      rcases hpost with huntried | ⟨htried, hfound | ⟨rfl, hraised⟩⟩
      · exact .inl huntried
      · exact .inr ⟨htried, .inl hfound⟩
      · exact .inr ⟨htried, .inr ⟨hq, hraised⟩⟩
  · rcases hpost with huntried | hin
    · exact .inl huntried
    · exact LoggedIn.settled hin _

variable {n : Nat} {t u : List (Event Reply)} {e : Event Reply}
variable (h : (runOf l m env n).trace = t ++ e :: u)

include h

end Run

/-! ## Names and parts of names -/

section Choice

variable (l : Login) (m : MethodList)

variable {l m}

variable (l m)

end Choice

end RemoteSsh.Auth
