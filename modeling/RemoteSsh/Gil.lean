import RemoteSsh.Lib.Monitor
import RemoteSsh.Code.Funs

/-! # The global interpreter lock -/

open Lib

namespace RemoteSsh.Gil

/-- The lock, as the call sees it. A released lock knows the thread state that was saved. -/
inductive Lock where
  | held
  | released (save : Handle)

@[local simp] def Lock.next : Lock → (c : Call) → Reply c → Lock
  | _, .pyEvalSaveThread, save => .released save
  | _, .pyEvalRestoreThread _, _ => .held
  | lock, _, _ => lock

/-- The Python C API, and `libssh2_init`, which is not thread safe. -/
@[local simp] def needsLock : Call → Bool
  | .pyInitialize | .libssh2Init | .pyArgParseTupleAndKeywords | .pyErrSetString _
  | .pyEvalSaveThread | .pyListSize _ | .pyListGetItem _ _ | .pyStringAsString _
  | .pyStringFromString _ | .pyIntFromLong _ | .pyTupleNew _ | .pyTupleSetItem _ _ _ => true
  | _ => false

@[local simp] def Lock.Allows (lock : Lock) : Call → Prop
  | .pyEvalRestoreThread save => lock = .released save
  | c => needsLock c = true → lock = .held

/-- The replies after which the call raises with the lock released. -/
@[local simp] def ErrorExit (args : Option Arguments) : Event Reply → Prop
  | ⟨.connect _ _, failed⟩ => (failed : Int) ≠ 0
  | ⟨.libssh2SessionHandshake _ _, failed⟩ => (failed : Int) ≠ 0
  | ⟨.libssh2UserauthList _ _, methods⟩ => ∃ a m, args = some a ∧ methods = some m ∧
      offered m password a.sshPassword = some false ∧ offered m publickey a.sshKeyPath = some false
  | ⟨.libssh2UserauthPassword _ _ _, failed⟩ => (failed : Int) ≠ 0
  | ⟨.libssh2UserauthPublickeyFromfile _ _ _, failed⟩ => (failed : Int) ≠ 0
  | ⟨.libssh2ChannelOpenSession _, channel⟩ => channel = none
  | ⟨.libssh2ChannelExec _ _, failed⟩ => (failed : Int) ≠ 0
  | _ => False

def watcher (args : Option Arguments) : Watcher Reply Lock where
  next := Lock.next
  allows := Lock.Allows
  fails _ c r := ErrorExit args ⟨c, r⟩

@[simp] theorem watcher_next (args : Option Arguments) : (watcher args).next = Lock.next := rfl
@[simp] theorem watcher_allows (args : Option Arguments) : (watcher args).allows = Lock.Allows := rfl
@[simp] theorem watcher_fails (args : Option Arguments) (lock : Lock) (c : Call) (r : Reply c) :
    (watcher args).fails lock c r ↔ ErrorExit args ⟨c, r⟩ := Iff.rfl

/-- Between the blocks the lock is released, with the state that the frame holds. -/
@[local simp] def Inv (args : Option Arguments) : Label → Lock → Prop
  | .handshake a save _, lock => args = some a ∧ lock = .released save
  | .authenticate a save _, lock => args = some a ∧ lock = .released save
  | .commands save _ _, lock => lock = .released save
  | .commandLoop f _, lock => lock = .released f.save
  | .stdoutLoop c, lock => lock = .released c.frame.save
  | .stderrLoop c, lock => lock = .released c.frame.save

abbrev Post (args : Option Arguments) : Label ⊕ Outcome → Watched Lock → Prop :=
  Watcher.Post (Inv args) fun _ lock => lock ≠ .held

section

variable {args : Option Arguments} {a : Arguments} {save : Handle}

theorem execute_spec :
    (executeSshInstructions args).wp (watcher args).monitor (Post args) ⟨.held, False, False⟩ := by
  cases h : args with
  | none => simp [executeSshInstructions, raise]
  | some a => simp [executeSshInstructions, raise]

theorem handshake_spec (sshSocket : Int) (h : args = some a) :
    (handshake a save sshSocket).wp (watcher args).monitor (Post args) ⟨.released save, False, False⟩ := by
  simp [handshake, raise, h]

theorem authenticate_spec (sshSession : Handle) (h : args = some a) :
    (authenticate a save sshSession).wp (watcher args).monitor (Post args)
      ⟨.released save, False, False⟩ := by
  simp [authenticate, raise, h]
  intro methods
  cases methods with
  | none => simp
  | some m =>
    rcases hp : offered m password a.sshPassword with _ | _ | _ <;>
      rcases hk : offered m publickey a.sshKeyPath with _ | _ | _ <;> simp [hp, hk]

theorem commands_spec (sshSession pyCommandList : Handle) :
    (commands save sshSession pyCommandList).wp (watcher args).monitor (Post args)
      ⟨.released save, False, False⟩ := by
  simp [commands, pyTupleNew]

theorem execCommand_spec (f : Frame) (i : UInt8) (t : Option (Tuple Item)) (sshChannel : Handle) :
    (execCommand f i t save sshChannel).wp (watcher args).monitor (Post args)
      ⟨.released save, False, False⟩ := by
  simp [execCommand, raise, commandAt, newResponseString]

theorem commandLoop_spec (f : Frame) (i : UInt8) :
    (commandLoop f i).wp (watcher args).monitor (Post args) ⟨.released f.save, False, False⟩ := by
  simp [commandLoop, pyTupleNew, commandAt]
  intro _ t save channel
  cases channel with
  | none => simp [raise]
  | some channel => simpa using execCommand_spec f i _ channel

theorem stdoutLoop_spec (c : CommandFrame) :
    (stdoutLoop c).wp (watcher args).monitor (Post args) ⟨.released c.frame.save, False, False⟩ := by
  simp [stdoutLoop, appendResponse, setOutput, pyTupleSetItem, newResponseString]

theorem finishCommand_spec (c : CommandFrame) (t : Option (Tuple Item)) (code : Int)
    (signal : Option CString) :
    (finishCommand c save t code signal).wp (watcher args).monitor (Post args)
      ⟨.released save, False, False⟩ := by
  cases signal with
  | none =>
    simp [finishCommand, setExitSignal, pyTupleSetItem]
  | some name =>
    simp [finishCommand, setExitSignal, pyTupleSetItem]

theorem stderrLoop_spec (c : CommandFrame) :
    (stderrLoop c).wp (watcher args).monitor (Post args) ⟨.released c.frame.save, False, False⟩ := by
  simp [stderrLoop, appendResponse, setOutput, pyTupleSetItem, closeChannel]
  intro r _ _ _ _ _ _ _ _ t _ save closed
  exact ⟨fun _ code signal => finishCommand_spec c _ code _, fun _ => finishCommand_spec c _ 0 none⟩

theorem block_spec (l : Label) (lock : Lock) (h : Inv args l lock) :
    (block l).wp (watcher args).monitor (Post args) ⟨lock, False, False⟩ := by
  cases l with
  | handshake a save s => obtain ⟨ha, rfl⟩ := h; exact handshake_spec s ha
  | authenticate a save s => obtain ⟨ha, rfl⟩ := h; exact authenticate_spec s ha
  | commands save s l => obtain rfl := h; exact commands_spec s l
  | commandLoop f i => obtain rfl := h; exact commandLoop_spec f i
  | stdoutLoop c => obtain rfl := h; exact stdoutLoop_spec c
  | stderrLoop c => obtain rfl := h; exact stderrLoop_spec c

end

/-- Every call keeps the rule of the lock, and the function returns with the lock held. -/
def Disciplined (args : Option Arguments) (env : Env Reply) : Prop :=
  ∀ n, (watcher args).Follows .held (run block env (executeSshInstructions args) n).trace ∧
    ∀ o, Ends block env (executeSshInstructions args) n o →
      (watcher args).after .held (run block env (executeSshInstructions args) n).trace = .held

/-- The lock is handled as it should be exactly if nothing happens that makes the call raise after it
has released the lock. -/
theorem disciplined_iff (args : Option Arguments) (env : Env Reply) :
    Disciplined args env ↔
      ∀ n, ∀ e ∈ (run block env (executeSshInstructions args) n).trace, ¬ ErrorExit args e := by
  have h := (watcher args).follows_iff block_spec execute_spec env
  have hfails := fun t => (watcher args).fails_iff (watcher_fails args) .held t
  simp only [hfails, not_exists, not_and, ne_eq, not_not] at h
  exact h

def refusing : Env Reply := fun t c =>
  match c with
  | .connect _ _ => (-1 : Int)
  | c => accepting 1 t c

/-- The call returns with the lock released. -/
theorem failed_connect_keeps_lock_released : ¬ Disciplined (some sampleArguments) refusing := by
  intro h
  have hlock : Lock.released 0 = Lock.held := (h 9).2 none rfl
  cases hlock

end RemoteSsh.Gil
