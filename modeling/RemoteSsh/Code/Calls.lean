import RemoteSsh.Lib.Prog
import RemoteSsh.Lib.CMem

/-!
# The calls of `wrapper.c`

Everything that `execute_ssh_instructions` asks of Python, of libssh2, of the C library and of the
network, and what each call can answer. `malloc`, `realloc`, `PyString_FromString` and
`PyInt_FromLong` are taken to find the memory they need; `Absent` says what a `malloc` or a `realloc`
without memory comes to. Every other answer is left open.
-/

namespace RemoteSsh

open Lib

/-- A pointer to something that only the other side looks into. -/
abbrev Handle := Nat

/-- An IPv4 address, `in_addr_t`. -/
abbrev Address := UInt32

/-- A C string. Python's `s` and `z` formats let no NUL through. -/
structure CString where
  bytes : Bytes
  noNul : 0 ∉ bytes
  deriving DecidableEq

inductive Stream where
  | stdout
  | stderr
  deriving DecidableEq, Repr

/-- Size of `response_buffer`. -/
def bufferSize : Nat := 1024

/-- What a read with a positive result puts into `response_buffer`. -/
structure Chunk where
  bytes : Bytes
  pos : 0 < bytes.length
  le : bytes.length ≤ bufferSize
  deriving DecidableEq

/-- A negative libssh2 error code. -/
structure ErrorCode where
  code : Int
  neg : code < 0
  min : -2 ^ 31 ≤ code
  deriving DecidableEq

inductive ReadResult where
  | data (chunk : Chunk)
  | eof
  | error (e : ErrorCode)
  deriving DecidableEq

/-- `response_bytes`. -/
def ReadResult.count : ReadResult → Int
  | .data chunk => chunk.bytes.length
  | .eof => 0
  | .error e => e.code

/-- `response_buffer` after the read. It was set to zero before. -/
def ReadResult.buffer : ReadResult → Bytes
  | .data chunk => chunk.bytes ++ List.replicate (bufferSize - chunk.bytes.length) 0
  | _ => List.replicate bufferSize 0

/-- What `libssh2_channel_get_exit_signal` leaves in `exit_signal`. -/
inductive ExitSignal where
  | absent
  | present (buffer : Handle) (name : CString)
  | failed
  deriving DecidableEq

/-- `exit_signal` after the call. It is set to NULL if there is no signal, and if its name could not
be allocated. -/
def ExitSignal.name : ExitSignal → Option CString
  | .present _ name => some name
  | _ => none

/-- A block that `realloc` gave: its address, and what its new bytes hold. -/
structure Realloced where
  address : Handle
  fresh : Nat → UInt8

/-- A Python object: `Py_None`, which everybody shares, or an object made for this call. -/
inductive Ref where
  | pyNone
  | object (h : Handle)
  deriving DecidableEq

inductive Call where
  | pyInitialize
  | libssh2Init
  | pyArgParseTupleAndKeywords
  | pyErrSetString (message : String)
  | pyEvalSaveThread
  | pyEvalRestoreThread (save : Handle)
  | socket
  | gethostbyname (host : CString)
  | hAddrList0 (remoteHost : Handle)
  | connect (sshSocket : Int) (address : Address)
  | libssh2SessionInit
  | libssh2SessionSetBlocking (session : Handle)
  | libssh2SessionSetTimeout (session : Handle)
  | libssh2SessionMethodPref (session : Handle)
  | libssh2SessionHandshake (session : Handle) (sshSocket : Int)
  | libssh2UserauthList (session : Handle) (username : CString)
  | libssh2UserauthPassword (session : Handle) (username password : CString)
  | libssh2UserauthPublickeyFromfile (session : Handle) (username keyPath : CString)
  | pyListSize (list : Handle)
  | pyListGetItem (list : Handle) (i : Nat)
  | pyStringAsString (object : Handle)
  | pyStringFromString (string : Bytes)
  | pyIntFromLong (n : Int)
  | pyTupleNew (size : Int)
  | pyTupleSetItem (tuple : Handle) (i : Nat) (item : Ref)
  | libssh2ChannelOpenSession (session : Handle)
  | libssh2ChannelSetBlocking (channel : Handle)
  | libssh2ChannelExec (channel : Handle) (command : Handle)
  | libssh2ChannelRead (channel : Handle) (stream : Stream)
  | libssh2ChannelClose (channel : Handle)
  | libssh2ChannelGetExitStatus (channel : Handle)
  | libssh2ChannelGetExitSignal (channel : Handle)
  | libssh2ChannelFree (channel : Handle)
  | malloc (size : Nat)
  | realloc (block : Handle) (size : Nat)
  | free (block : Handle)

/-- `none` is NULL. -/
abbrev Reply : Call → Type
  | .pyEvalSaveThread => Handle
  | .socket => Int
  | .gethostbyname _ => Option Handle
  | .hAddrList0 _ => Address
  | .connect _ _ => Int
  | .libssh2SessionInit => Option Handle
  | .libssh2SessionHandshake _ _ => Int
  | .libssh2UserauthList _ _ => Option CString
  | .libssh2UserauthPassword _ _ _ => Int
  | .libssh2UserauthPublickeyFromfile _ _ _ => Int
  | .pyListSize _ => Int
  | .pyListGetItem _ _ => Option Handle
  | .pyStringAsString _ => Option Handle
  | .pyStringFromString _ => Handle
  | .pyIntFromLong _ => Handle
  | .pyTupleNew _ => Option Handle
  | .libssh2ChannelOpenSession _ => Option Handle
  | .libssh2ChannelExec _ _ => Int
  | .libssh2ChannelRead _ _ => ReadResult
  | .libssh2ChannelClose _ => Int
  | .libssh2ChannelGetExitStatus _ => Int
  | .libssh2ChannelGetExitSignal _ => ExitSignal
  | .malloc _ => Handle
  | .realloc _ _ => Realloced
  | _ => Unit

/-- A reply with which a call succeeds and gives nothing. -/
def Reply.quiet : (c : Call) → Reply c
  | .pyEvalSaveThread => (0 : Nat)
  | .socket => (3 : Int)
  | .gethostbyname _ => some (0 : Nat)
  | .hAddrList0 _ => (0 : UInt32)
  | .connect _ _ => (0 : Int)
  | .libssh2SessionInit => some (0 : Nat)
  | .libssh2SessionHandshake _ _ => (0 : Int)
  | .libssh2UserauthList _ _ => (none : Option CString)
  | .libssh2UserauthPassword _ _ _ => (0 : Int)
  | .libssh2UserauthPublickeyFromfile _ _ _ => (0 : Int)
  | .pyListSize _ => (0 : Int)
  | .pyListGetItem _ _ => some (0 : Nat)
  | .pyStringAsString _ => some (0 : Nat)
  | .pyStringFromString _ => (0 : Nat)
  | .pyIntFromLong _ => (0 : Nat)
  | .pyTupleNew _ => some (0 : Nat)
  | .libssh2ChannelOpenSession _ => some (0 : Nat)
  | .libssh2ChannelExec _ _ => (0 : Int)
  | .libssh2ChannelRead _ _ => ReadResult.eof
  | .libssh2ChannelClose _ => (0 : Int)
  | .libssh2ChannelGetExitStatus _ => (0 : Int)
  | .libssh2ChannelGetExitSignal _ => ExitSignal.absent
  | .malloc _ => (0 : Nat)
  | .realloc _ _ => (⟨0, fun _ => 0⟩ : Realloced)
  | .pyInitialize | .libssh2Init | .pyArgParseTupleAndKeywords | .pyErrSetString _
  | .pyEvalRestoreThread _ | .libssh2SessionSetBlocking _ | .libssh2SessionSetTimeout _
  | .libssh2SessionMethodPref _ | .pyTupleSetItem _ _ _ | .libssh2ChannelSetBlocking _
  | .libssh2ChannelFree _ | .free _ => ()

instance (c : Call) : Inhabited (Reply c) := ⟨Reply.quiet c⟩

/-! ## The length of a read -/

theorem buffer_length (r : ReadResult) : r.buffer.length = bufferSize := by
  cases r with
  | data chunk => have := chunk.le; simp [ReadResult.buffer]; omega
  | eof => simp [ReadResult.buffer]
  | error e => simp [ReadResult.buffer]

theorem buffer_take_count (chunk : Chunk) :
    (ReadResult.data chunk).buffer.take chunk.bytes.length = chunk.bytes := by
  simp [ReadResult.buffer]

theorem count_pos_iff (r : ReadResult) : 0 < r.count ↔ ∃ chunk, r = .data chunk := by
  cases r with
  | data chunk => have := chunk.pos; simp [ReadResult.count]; omega
  | eof => simp [ReadResult.count]
  | error e => have := e.neg; simp [ReadResult.count]; omega

end RemoteSsh
