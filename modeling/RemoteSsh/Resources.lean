import RemoteSsh.Lib.Monitor
import RemoteSsh.Code.Funs
import Mathlib.Data.Multiset.AddSub

/-!
# Resources outside of Python

The socket, the session, the channels, the response buffers and the names of exit signals: what is
open, what is used and what is left open.
-/

open Lib

namespace RemoteSsh.Resources

inductive Resource where
  | socket (fd : Int)
  | session (h : Handle)
  | channel (h : Handle)
  | buffer (h : Handle)
  | signal (h : Handle)
  deriving DecidableEq

def Resource.isChannel : Resource → Bool
  | .channel _ => true
  | _ => false

def Resource.isBuffer : Resource → Bool
  | .buffer _ => true
  | _ => false

@[simp] theorem channel_isChannel (h : Handle) : (Resource.channel h).isChannel = true := rfl
@[simp] theorem channel_isBuffer (h : Handle) : (Resource.channel h).isBuffer = false := rfl
@[simp] theorem buffer_isChannel (h : Handle) : (Resource.buffer h).isChannel = false := rfl
@[simp] theorem buffer_isBuffer (h : Handle) : (Resource.buffer h).isBuffer = true := rfl

/-- What is open, and whether the socket and the connection could be made. -/
structure Opened where
  resources : Multiset Resource
  socketFailed : Bool
  connectFailed : Bool

def Opened.add (s : Opened) (x : Resource) : Opened := { s with resources := x ::ₘ s.resources }

def Opened.remove (s : Opened) (x : Resource) : Opened := { s with resources := s.resources.erase x }

@[local simp] def Opened.next : Opened → (c : Call) → Reply c → Opened
  | s, .socket, fd => if 0 ≤ (fd : Int) then s.add (.socket fd) else { s with socketFailed := true }
  | s, .connect _ _, failed => if (failed : Int) = 0 then s else { s with connectFailed := true }
  | s, .libssh2SessionInit, session =>
    match (session : Option Handle) with
    | some session => s.add (.session session)
    | none => s
  | s, .libssh2ChannelOpenSession _, channel =>
    match (channel : Option Handle) with
    | some channel => s.add (.channel channel)
    | none => s
  | s, .libssh2ChannelFree channel, _ => s.remove (.channel channel)
  | s, .malloc _, block => s.add (.buffer block)
  | s, .realloc old _, block => (s.remove (.buffer old)).add (.buffer (block : Realloced).address)
  | s, .free block, _ => s.remove (.buffer block)
  | s, .libssh2ChannelGetExitSignal _, signal =>
    match (signal : ExitSignal) with
    | .present buffer _ => s.add (.signal buffer)
    | _ => s
  | s, _, _ => s

/-- The resources that a call works with. A negative socket is none. -/
def uses : Call → List Resource
  | .connect fd _ => if 0 ≤ fd then [.socket fd] else []
  | .libssh2SessionHandshake session fd =>
    .session session :: if 0 ≤ fd then [.socket fd] else []
  | .libssh2SessionSetBlocking session | .libssh2SessionSetTimeout session
  | .libssh2SessionMethodPref session | .libssh2UserauthList session _
  | .libssh2UserauthPassword session _ _ | .libssh2UserauthPublickeyFromfile session _ _
  | .libssh2ChannelOpenSession session => [.session session]
  | .libssh2ChannelSetBlocking channel | .libssh2ChannelExec channel _ | .libssh2ChannelRead channel _
  | .libssh2ChannelClose channel | .libssh2ChannelGetExitStatus channel
  | .libssh2ChannelGetExitSignal channel | .libssh2ChannelFree channel => [.channel channel]
  | .realloc block _ | .free block => [.buffer block]
  | _ => []

/-- No channel is opened while another is open, and no buffer. -/
def Opened.Room (s : Opened) : Call → Prop
  | .libssh2ChannelOpenSession _ => ∀ x ∈ s.resources, x.isChannel = false
  | .malloc _ => ∀ x ∈ s.resources, x.isBuffer = false
  | _ => True

/-- Only what is open is used or released. -/
def Opened.Allows (s : Opened) (c : Call) : Prop := (∀ x ∈ uses c, x ∈ s.resources) ∧ s.Room c

def watcher : Watcher Reply Opened where
  next := Opened.next
  allows := Opened.Allows
  fails _ _ _ := False

/-- Nothing is open that is used for one command only. -/
def Calm (resources : Multiset Resource) : Prop := ∀ x ∈ resources, x.isChannel = false ∧ x.isBuffer = false

def Settled (session : Handle) (s : Opened) : Prop :=
  s.connectFailed = false ∧ .session session ∈ s.resources ∧ Calm s.resources

def Reading (c : CommandFrame) (s : Opened) : Prop :=
  ∃ s', Settled c.frame.sshSession s' ∧
    s = (s'.add (.channel c.sshChannel)).add (.buffer c.responseString.address)

def Inv : Label → Opened → Prop
  | .handshake _ _ fd, s => s.connectFailed = false ∧ (0 ≤ fd → .socket fd ∈ s.resources) ∧ Calm s.resources
  | .authenticate _ _ session, s => Settled session s
  | .commands _ session _, s => Settled session s
  | .commandLoop f _, s => Settled f.sshSession s
  | .stdoutLoop c, s => Reading c s
  | .stderrLoop c, s => Reading c s

/-- At the end nothing is open exactly if nothing could be opened. -/
def CleanEnd (s : Opened) : Prop := s.resources = 0 ↔ s.socketFailed = true ∧ s.connectFailed = true

abbrev Post : Label ⊕ Outcome → Watched Opened → Prop := Watcher.Post Inv fun _ s => ¬ CleanEnd s

section

variable {α : Type} {Q : α → Watched Opened → Prop} {s : Opened} {session : Handle}

theorem call_spec {c : Call} {k : Reply c → Code α} (h : s.Allows c)
    (hk : ∀ r, (k r).wp watcher.monitor Q ⟨s.next c r, False, False⟩) :
    (Prog.call c k).wp watcher.monitor Q ⟨s, False, False⟩ :=
  watcher.wp_of_allowed h (fun _ => not_false) hk

theorem allows_free {c : Call} (huses : uses c = []) (hroom : s.Room c) : s.Allows c :=
  ⟨by simp [huses], hroom⟩

theorem cleanEnd_of_open {x : Resource} (hx : x ∈ s.resources) (hconnect : s.connectFailed = false) :
    CleanEnd s := by
  refine iff_of_false ?_ (by simp [hconnect])
  intro h0
  simp [h0] at hx

theorem Settled.cleanEnd (h : Settled session s) : CleanEnd s := cleanEnd_of_open h.2.1 h.1

theorem raise_spec (message : String) (h : CleanEnd s) :
    (raise message).wp watcher.monitor Post ⟨s, False, False⟩ := by
  refine call_spec (allows_free rfl trivial) fun _ => ?_
  change False ∨ ¬ CleanEnd s ↔ False
  simp [h]

theorem check_spec (o : Option α) (hQ : ∀ a, o = some a → Q a ⟨s, False, False⟩) :
    (Prog.check o : Code α).wp watcher.monitor Q ⟨s, False, False⟩ := by
  rw [wp_check]
  exact ⟨fun _ => Iff.rfl, hQ⟩

theorem execute_spec (args : Arguments) :
    (executeSshInstructions (some args)).wp watcher.monitor Post ⟨⟨0, false, false⟩, False, False⟩ := by
  simp only [executeSshInstructions, Prog.ask_bind]
  refine call_spec (allows_free rfl trivial) fun _ => ?_
  refine call_spec (allows_free rfl trivial) fun _ => ?_
  refine call_spec (allows_free rfl trivial) fun _ => ?_
  refine call_spec (allows_free rfl trivial) fun save => ?_
  refine call_spec (allows_free rfl trivial) fun fd => ?_
  refine call_spec (allows_free rfl trivial) fun remoteHost => ?_
  rw [wp_bind]
  refine check_spec _ fun remoteHost _ => ?_
  refine call_spec (allows_free rfl trivial) fun address => ?_
  by_cases hfd : 0 ≤ (fd : Int)
  · refine call_spec ⟨by simp [uses, Opened.add, hfd], trivial⟩ fun failed => ?_
    rw [wp_ite]
    refine ⟨fun hfailed => raise_spec _ ?_, fun hok => ?_⟩
    · simp [CleanEnd, Opened.add, hfd, hfailed]
    · simp [Inv, Calm, Opened.add, Resource.isChannel, Resource.isBuffer, hfd, not_not.mp hok]
  · refine call_spec ⟨by simp [uses, hfd], trivial⟩ fun failed => ?_
    rw [wp_ite]
    refine ⟨fun hfailed => raise_spec _ ?_, fun hok => ?_⟩
    · simp [CleanEnd, hfd, hfailed]
    · simp [Inv, Calm, hfd, not_not.mp hok]

theorem calm_add {x : Resource} (h : Calm s.resources) (hx : x.isChannel = false ∧ x.isBuffer = false) :
    Calm (s.add x).resources := by
  intro y hy
  rcases Multiset.mem_cons.mp hy with rfl | hy
  · exact hx
  · exact h y hy

theorem Settled.uses (h : Settled session s) {c : Call} (huses : uses c = [.session session]) :
    ∀ x ∈ Resources.uses c, x ∈ s.resources := by
  rw [huses]
  intro x hx
  rw [List.mem_singleton.mp hx]
  exact h.2.1

theorem handshake_spec (args : Arguments) (save : Handle) (fd : Int)
    (h : Inv (.handshake args save fd) s) :
    (handshake args save fd).wp watcher.monitor Post ⟨s, False, False⟩ := by
  obtain ⟨hconnect, hsocket, hcalm⟩ := h
  simp only [handshake, Prog.ask_bind]
  refine call_spec (allows_free rfl trivial) fun session => ?_
  rw [wp_bind]
  refine check_spec _ fun session hsession => ?_
  subst hsession
  have hsettled : Settled session (s.add (.session session)) :=
    ⟨hconnect, Multiset.mem_cons_self _ _, calm_add hcalm ⟨rfl, rfl⟩⟩
  refine call_spec ⟨hsettled.uses rfl, trivial⟩ fun _ => ?_
  refine call_spec ⟨hsettled.uses rfl, trivial⟩ fun _ => ?_
  refine call_spec ⟨hsettled.uses rfl, trivial⟩ fun _ => ?_
  refine call_spec ⟨?_, trivial⟩ fun failed => ?_
  · intro x hx
    rcases List.mem_cons.mp hx with rfl | hx
    · exact hsettled.2.1
    · by_cases hfd : 0 ≤ fd
      · rw [if_pos hfd] at hx
        rw [List.mem_singleton.mp hx]
        exact Multiset.mem_cons_of_mem (hsocket hfd)
      · simp [hfd] at hx
  · rw [wp_ite]
    exact ⟨fun _ => raise_spec _ hsettled.cleanEnd, fun _ => ⟨Iff.rfl, fun _ => hsettled⟩⟩

theorem authenticate_spec (args : Arguments) (save : Handle) (h : Settled session s) :
    (authenticate args save session).wp watcher.monitor Post ⟨s, False, False⟩ := by
  simp only [authenticate, Prog.ask_bind]
  refine call_spec ⟨h.uses rfl, trivial⟩ fun methods => ?_
  rw [wp_bind]
  refine check_spec _ fun methods _ => ?_
  rw [wp_bind]
  refine check_spec _ fun byPassword _ => ?_
  rw [wp_ite]
  refine ⟨fun _ => ?_, fun _ => ?_⟩
  · rw [wp_bind]
    refine check_spec _ fun sshPassword _ => ?_
    refine call_spec ⟨h.uses rfl, trivial⟩ fun failed => ?_
    rw [wp_ite]
    exact ⟨fun _ => raise_spec _ h.cleanEnd, fun _ => ⟨Iff.rfl, fun _ => h⟩⟩
  · rw [wp_bind]
    refine check_spec _ fun byKey _ => ?_
    rw [wp_ite]
    refine ⟨fun _ => ?_, fun _ => raise_spec _ h.cleanEnd⟩
    rw [wp_bind]
    refine check_spec _ fun sshKeyPath _ => ?_
    refine call_spec ⟨h.uses rfl, trivial⟩ fun failed => ?_
    rw [wp_ite]
    exact ⟨fun _ => raise_spec _ h.cleanEnd, fun _ => ⟨Iff.rfl, fun _ => h⟩⟩

theorem commands_spec (save list : Handle) (h : Settled session s) :
    (commands save session list).wp watcher.monitor Post ⟨s, False, False⟩ := by
  simp only [commands, pyTupleNew, Prog.ask_bind, Prog.call_bind, Prog.pure_eq, Prog.ret_bind]
  refine call_spec (allows_free rfl trivial) fun _ => ?_
  refine call_spec (allows_free rfl trivial) fun count => ?_
  refine call_spec (allows_free rfl trivial) fun tuple => ?_
  refine call_spec (allows_free rfl trivial) fun save => ?_
  exact ⟨Iff.rfl, fun _ => h⟩

theorem commandAt_spec {Q : Option Handle → Watched Opened → Prop} (list : Handle) (i : UInt8)
    (hQ : ∀ command, Q command ⟨s, False, False⟩) :
    (commandAt list i).wp watcher.monitor Q ⟨s, False, False⟩ := by
  simp only [commandAt, Prog.ask_bind]
  refine call_spec (allows_free rfl trivial) fun item => ?_
  rw [wp_bind]
  refine check_spec _ fun object _ => ?_
  exact call_spec (allows_free rfl trivial) fun command => hQ command

theorem Settled.room (h : Settled session s) (channel : Handle) (size : Nat) :
    (s.add (.channel channel)).Room (.malloc size) := by
  intro x hx
  rcases Multiset.mem_cons.mp hx with rfl | hx
  · rfl
  · exact (h.2.2 x hx).2

theorem uses_channel {c : Call} {channel : Handle} (huses : uses c = [.channel channel]) :
    ∀ x ∈ uses c, x ∈ (s.add (.channel channel)).resources := by
  rw [huses]
  intro x hx
  rw [List.mem_singleton.mp hx]
  exact Multiset.mem_cons_self _ _

theorem execCommand_spec (f : Frame) (i : UInt8) (t : Option (Tuple Item)) (save channel : Handle)
    (h : Settled f.sshSession s) :
    (execCommand f i t save channel).wp watcher.monitor Post ⟨s.add (.channel channel), False, False⟩ := by
  simp only [execCommand, newResponseString, Prog.ask_bind]
  refine call_spec ⟨uses_channel rfl, trivial⟩ fun _ => ?_
  refine call_spec (allows_free rfl trivial) fun _ => ?_
  rw [wp_bind]
  refine commandAt_spec _ _ fun command => ?_
  refine call_spec (allows_free rfl trivial) fun save => ?_
  rw [wp_bind]
  refine check_spec _ fun command _ => ?_
  refine call_spec ⟨uses_channel rfl, trivial⟩ fun failed => ?_
  rw [wp_ite]
  refine ⟨fun _ => raise_spec _ (cleanEnd_of_open (Multiset.mem_cons_self _ _) h.1), fun _ => ?_⟩
  exact call_spec (allows_free rfl (h.room channel _)) fun address => ⟨Iff.rfl, fun _ => ⟨s, h, rfl⟩⟩

theorem commandLoop_spec (f : Frame) (i : UInt8) (h : Settled f.sshSession s) :
    (commandLoop f i).wp watcher.monitor Post ⟨s, False, False⟩ := by
  rw [commandLoop, wp_ite]
  refine ⟨fun _ => ?_, fun _ => call_spec (allows_free rfl trivial) fun _ => ?_⟩
  · simp only [pyTupleNew, Prog.ask_bind, Prog.call_bind, Prog.pure_eq, Prog.ret_bind]
    refine call_spec (allows_free rfl trivial) fun _ => ?_
    refine call_spec (allows_free rfl trivial) fun tuple => ?_
    rw [wp_bind]
    refine commandAt_spec _ _ fun _ => ?_
    refine call_spec (allows_free rfl trivial) fun save => ?_
    refine call_spec ⟨h.uses rfl, fun x hx => (h.2.2 x hx).1⟩ fun channel => ?_
    cases channel with
    | none => exact raise_spec _ h.cleanEnd
    | some channel => exact execCommand_spec f i _ save channel h
  · change False ∨ ¬ CleanEnd s ↔ False
    simp [h.cleanEnd]

theorem remove_add (x : Resource) : (s.add x).remove x = s := by
  simp [Opened.add, Opened.remove]

theorem appendResponse_spec {Q : ResponseString → Watched Opened → Prop} (string : ResponseString)
    (r : ReadResult) (hQ : ∀ string' : ResponseString,
      Q string' ⟨s.add (.buffer string'.address), False, False⟩) :
    (appendResponse string r).wp watcher.monitor Q ⟨s.add (.buffer string.address), False, False⟩ := by
  simp only [appendResponse, wp_bind]
  refine check_spec _ fun size _ => ?_
  refine call_spec ⟨?_, trivial⟩ fun block => ?_
  · intro x hx
    rw [List.mem_singleton.mp hx]
    exact Multiset.mem_cons_self _ _
  · have hnext : (s.add (.buffer string.address)).next (.realloc string.address size) block =
        s.add (.buffer (block : Realloced).address) := by
      rw [Opened.next, remove_add]
    rw [hnext]
    exact check_spec _ fun bytes _ => hQ ⟨_, bytes⟩

theorem setItem_spec {β : Type} {Q : Option (Tuple β) → Watched Opened → Prop} (t : Option (Tuple β))
    (i : Nat) (item : Ref) (value : β) (hQ : ∀ u, Q u ⟨s, False, False⟩) :
    (pyTupleSetItem t i item value).wp watcher.monitor Q ⟨s, False, False⟩ := by
  simp only [pyTupleSetItem, wp_bind]
  refine check_spec _ fun u _ => ?_
  exact call_spec (allows_free rfl trivial) fun _ => hQ _

theorem setOutput_spec {Q : Option (Tuple Item) → Watched Opened → Prop} (t : Option (Tuple Item))
    (slot : Nat) (string : ResponseString) (hQ : ∀ u, Q u ⟨s, False, False⟩) :
    (setOutput t slot string).wp watcher.monitor Q ⟨s, False, False⟩ := by
  simp only [setOutput, wp_bind]
  refine check_spec _ fun length _ => ?_
  refine call_spec (allows_free rfl trivial) fun ref => ?_
  exact setItem_spec t slot _ _ hQ

theorem free_spec {k : Unit → Code α} (address : Handle)
    (hk : ∀ r, (k r).wp watcher.monitor Q ⟨s, False, False⟩) :
    (Prog.call (.free address) k).wp watcher.monitor Q ⟨s.add (.buffer address), False, False⟩ := by
  refine call_spec ⟨?_, trivial⟩ fun r => ?_
  · intro x hx
    rw [List.mem_singleton.mp hx]
    exact Multiset.mem_cons_self _ _
  · rw [Opened.next, remove_add]
    exact hk r

theorem channelFree_spec {k : Unit → Code α} (channel : Handle)
    (hk : ∀ r, (k r).wp watcher.monitor Q ⟨s, False, False⟩) :
    (Prog.call (.libssh2ChannelFree channel) k).wp watcher.monitor Q
      ⟨s.add (.channel channel), False, False⟩ := by
  refine call_spec ⟨uses_channel rfl, trivial⟩ fun r => ?_
  rw [Opened.next, remove_add]
  exact hk r

theorem uses_channel_reading {c : Call} {channel buffer : Handle} (huses : uses c = [.channel channel]) :
    ∀ x ∈ uses c, x ∈ ((s.add (.channel channel)).add (.buffer buffer)).resources := by
  rw [huses]
  intro x hx
  rw [List.mem_singleton.mp hx]
  exact Multiset.mem_cons_of_mem (Multiset.mem_cons_self _ _)

theorem stdoutLoop_spec (c : CommandFrame) (h : Reading c s) :
    (stdoutLoop c).wp watcher.monitor Post ⟨s, False, False⟩ := by
  obtain ⟨s', hsettled, rfl⟩ := h
  simp only [stdoutLoop, Prog.ask_bind]
  refine call_spec ⟨uses_channel_reading rfl, trivial⟩ fun r => ?_
  rw [wp_bind]
  refine appendResponse_spec c.responseString r fun string => ?_
  rw [wp_ite]
  refine ⟨fun _ => ⟨Iff.rfl, fun _ => ⟨s', hsettled, rfl⟩⟩, fun _ => ?_⟩
  refine call_spec (allows_free rfl trivial) fun _ => ?_
  rw [wp_bind]
  refine setOutput_spec _ _ _ fun u => ?_
  refine call_spec (allows_free rfl trivial) fun save => ?_
  refine free_spec string.address fun _ => ?_
  exact call_spec (allows_free rfl (hsettled.room c.sshChannel _)) fun address =>
    ⟨Iff.rfl, fun _ => ⟨s', hsettled, rfl⟩⟩

theorem closeChannel_spec {Q : Int × Option CString → Watched Opened → Prop} (channel : Handle)
    (h : Settled session s)
    (hQ : ∀ x s', Settled session s' → Q x ⟨s'.add (.channel channel), False, False⟩) :
    (closeChannel channel).wp watcher.monitor Q ⟨s.add (.channel channel), False, False⟩ := by
  simp only [closeChannel, Prog.ask_bind]
  refine call_spec ⟨uses_channel rfl, trivial⟩ fun closed => ?_
  rw [wp_ite]
  refine ⟨fun _ => ?_, fun _ => hQ _ s h⟩
  refine call_spec ⟨uses_channel rfl, trivial⟩ fun code => ?_
  refine call_spec ⟨uses_channel rfl, trivial⟩ fun signal => ?_
  cases signal with
  | absent => exact hQ _ s h
  | failed => exact hQ _ s h
  | present buffer name =>
    have hswap : (s.add (.channel channel)).add (.signal buffer) =
        (s.add (.signal buffer)).add (.channel channel) := by
      simp only [Opened.add, Multiset.cons_swap]
    change Q _ ⟨(s.add (.channel channel)).add (.signal buffer), False, False⟩
    rw [hswap]
    exact hQ _ _ ⟨h.1, Multiset.mem_cons_of_mem h.2.1, calm_add h.2.2 ⟨rfl, rfl⟩⟩

theorem setExitSignal_spec {Q : Option (Tuple Item) → Watched Opened → Prop} (t : Option (Tuple Item))
    (signal : Option CString) (hQ : ∀ u, Q u ⟨s, False, False⟩) :
    (setExitSignal t signal).wp watcher.monitor Q ⟨s, False, False⟩ := by
  cases signal with
  | none => exact setItem_spec t 3 _ _ hQ
  | some name => exact call_spec (allows_free rfl trivial) fun ref => setItem_spec t 3 _ _ hQ

theorem finishCommand_spec (c : CommandFrame) (save : Handle) (t : Option (Tuple Item)) (code : Int)
    (signal : Option CString) (h : Settled c.frame.sshSession s) :
    (finishCommand c save t code signal).wp watcher.monitor Post
      ⟨s.add (.channel c.sshChannel), False, False⟩ := by
  simp only [finishCommand, Prog.ask_bind]
  refine call_spec (allows_free rfl trivial) fun _ => ?_
  refine call_spec (allows_free rfl trivial) fun exitCode => ?_
  rw [wp_bind]
  refine setItem_spec _ _ _ _ fun u => ?_
  rw [wp_bind]
  refine setExitSignal_spec _ _ fun u => ?_
  refine call_spec (allows_free rfl trivial) fun save => ?_
  refine channelFree_spec c.sshChannel fun _ => ?_
  refine call_spec (allows_free rfl trivial) fun _ => ?_
  rw [wp_bind]
  refine check_spec _ fun response _ => ?_
  rw [wp_bind]
  refine setItem_spec _ _ _ _ fun u => ?_
  exact call_spec (allows_free rfl trivial) fun save => ⟨Iff.rfl, fun _ => h⟩

theorem stderrLoop_spec (c : CommandFrame) (h : Reading c s) :
    (stderrLoop c).wp watcher.monitor Post ⟨s, False, False⟩ := by
  obtain ⟨s', hsettled, rfl⟩ := h
  simp only [stderrLoop, Prog.ask_bind]
  refine call_spec ⟨uses_channel_reading rfl, trivial⟩ fun r => ?_
  rw [wp_bind]
  refine appendResponse_spec c.responseString r fun string => ?_
  rw [wp_ite]
  refine ⟨fun _ => ⟨Iff.rfl, fun _ => ⟨s', hsettled, rfl⟩⟩, fun _ => ?_⟩
  refine call_spec (allows_free rfl trivial) fun _ => ?_
  rw [wp_bind]
  refine setOutput_spec _ _ _ fun u => ?_
  refine call_spec (allows_free rfl trivial) fun save => ?_
  refine free_spec string.address fun _ => ?_
  rw [wp_bind]
  exact closeChannel_spec c.sshChannel hsettled fun x s'' hs'' => finishCommand_spec c save u x.1 x.2 hs''

theorem block_spec (l : Label) (s : Opened) (h : Inv l s) :
    (block l).wp watcher.monitor Post ⟨s, False, False⟩ := by
  cases l with
  | handshake args save fd => exact handshake_spec args save fd h
  | authenticate args save session => exact authenticate_spec args save h
  | commands save session list => exact commands_spec save list h
  | commandLoop f i => exact commandLoop_spec f i h
  | stdoutLoop c => exact stdoutLoop_spec c h
  | stderrLoop c => exact stderrLoop_spec c h

end

/-! ## Every run -/

section Run

variable (args : Arguments) (env : Env Reply)

def traceOf (n : Nat) : List (Event Reply) := (run block env (executeSshInstructions (some args)) n).trace

end Run

end RemoteSsh.Resources
