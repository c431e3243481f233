import RemoteSsh.Code.Calls

/-!
# `wrapper.c`

`form_response_string` and `execute_ssh_instructions`, as the build without `DEBUG` runs them. The
body of `execute_ssh_instructions` is cut into blocks where its loops begin. Each block is named
after the lines it holds and ends by going to the next one, or with the value the function returns.
-/

namespace RemoteSsh

open Lib
open Lib.Prog (check)

/-! ## `form_response_string` -/

/-- The size that `realloc` is asked for: a `strlen` and a `long`, added as `unsigned long`. -/
def responseSize (responseString : Bytes) (responseChunkSize : Int) : Option Nat :=
  (strlen responseString).map fun n => toULong (n + responseChunkSize + 1)

/-- `fresh` is what the new bytes hold after the `realloc`. -/
def formResponseString (fresh : Nat → UInt8) (responseString responseChunk : Bytes)
    (responseChunkSize : Int) : Option Bytes := do
  let size ← responseSize responseString responseChunkSize
  let grown ← realloc fresh responseString size
  let offset ← strlen grown
  let filled ← memcpy grown offset responseChunk (toULong responseChunkSize)
  memset filled (size - 1) 0 1

/-- `malloc(1024 + 1)`, set to zero. -/
def emptyResponse : Bytes := List.replicate (bufferSize + 1) 0

/-! ## Values -/

/-- What `PyArg_ParseTupleAndKeywords` makes of a call, with the format `sszzO`. -/
structure Arguments where
  sshHost : CString
  sshUsername : CString
  sshPassword : Option CString
  sshKeyPath : Option CString
  pyCommandList : Handle

inductive Item where
  | pyNone
  | string (bytes : Bytes)
  | int (n : Int)
  deriving DecidableEq

/-- A tuple that the call has made, and what its slots hold so far. -/
structure Tuple (α : Type) where
  ref : Handle
  slots : List (Option α)

/-- `py_command_response`: stdout, stderr, exit code, exit signal. -/
abbrev CommandResponse := List (Option Item)

/-- `response_string_stdout` or `response_string_stderr`: where it is, and what it holds. -/
structure ResponseString where
  address : Handle
  bytes : Bytes

/-- The locals that live through the command loop. -/
structure Frame where
  save : Handle
  sshSession : Handle
  pyCommandList : Handle
  commandCount : Int
  pyResponse : Option (Tuple CommandResponse)

/-- The locals of one round of the command loop, while an output is read. -/
structure CommandFrame where
  frame : Frame
  i : UInt8
  pyCommandResponse : Option (Tuple Item)
  sshChannel : Handle
  responseString : ResponseString

/-- The value that the function returns. `none` is NULL. -/
abbrev Outcome := Option (Tuple CommandResponse)

inductive Label where
  | handshake (args : Arguments) (save : Handle) (sshSocket : Int)
  | authenticate (args : Arguments) (save sshSession : Handle)
  | commands (save sshSession pyCommandList : Handle)
  | commandLoop (f : Frame) (i : UInt8)
  | stdoutLoop (c : CommandFrame)
  | stderrLoop (c : CommandFrame)

abbrev Code (α : Type) := Prog Reply α

abbrev Body := Code (Label ⊕ Outcome)

abbrev ask (c : Call) : Code (Reply c) := Prog.ask c

/-! ## Pieces -/

def raise (message : String) : Body := do
  ask (.pyErrSetString message)
  return .inr none

def pyTupleNew (α : Type) (size : Int) : Code (Option (Tuple α)) := do
  let ref ← ask (.pyTupleNew size)
  return (ref : Option Handle).map fun ref => ⟨ref, List.replicate size.toNat none⟩

/-- `PyTuple_SetItem` looks into the tuple, so it must not be NULL. -/
def pyTupleSetItem {α : Type} (tuple : Option (Tuple α)) (i : Nat) (item : Ref) (value : α) :
    Code (Option (Tuple α)) := do
  let t ← check tuple
  ask (.pyTupleSetItem t.ref i item)
  return some { t with slots := t.slots.set i (some value) }

/-- `PyString_AsString(PyList_GetItem(py_command_list, i))`. The item must not be NULL. -/
def commandAt (pyCommandList : Handle) (i : UInt8) : Code (Option Handle) := do
  let item ← ask (.pyListGetItem pyCommandList i.toNat)
  let object ← check (item : Option Handle)
  .call (.pyStringAsString object) .ret

/-- `malloc(1024 + 1)` and its `memset`. -/
def newResponseString : Code ResponseString := do
  let address ← ask (.malloc (bufferSize + 1))
  return ⟨address, emptyResponse⟩

/-- `form_response_string(&response_string, response_buffer, response_bytes)`. -/
def appendResponse (s : ResponseString) (r : ReadResult) : Code ResponseString := do
  let size ← check (responseSize s.bytes r.count)
  let block ← ask (.realloc s.address size)
  let bytes ← check (formResponseString (block : Realloced).fresh s.bytes r.buffer r.count)
  return ⟨(block : Realloced).address, bytes⟩

/-- `PyString_FromString(response_string)` into slot `slot` of the command's response. -/
def setOutput (pyCommandResponse : Option (Tuple Item)) (slot : Nat) (s : ResponseString) :
    Code (Option (Tuple Item)) := do
  let length ← check (strlen s.bytes)
  let text := s.bytes.take length
  let ref ← ask (.pyStringFromString text)
  pyTupleSetItem pyCommandResponse slot (.object ref) (.string text)

/-- Whether `needle` is somewhere in `haystack`. -/
def strstr (haystack needle : Bytes) : Bool := haystack.tails.any fun t => needle.isPrefixOf t

/-- `"password"`. -/
def password : Bytes := [112, 97, 115, 115, 119, 111, 114, 100]

/-- `"publickey"`. -/
def publickey : Bytes := [112, 117, 98, 108, 105, 99, 107, 101, 121]

/-- `strstr(user_authentication_methods, method) && strlen(credential) != 0`. The credential is not
looked at unless the method is found, and must not be NULL then. -/
def offered (methods : CString) (method : Bytes) (credential : Option CString) : Option Bool :=
  if strstr methods.bytes method then
    credential.map fun c => decide (c.bytes.length ≠ 0)
  else some false

/-! ## `execute_ssh_instructions` -/

/-- Lines 79 to 124. `args` is `none` if the arguments do not fit the format. -/
def executeSshInstructions (args : Option Arguments) : Body := do
  ask .pyInitialize
  ask .libssh2Init
  ask .pyArgParseTupleAndKeywords
  match args with
  | none => raise "Invalid argument(s) provided"
  | some args =>
    let save ← ask .pyEvalSaveThread
    let sshSocket ← ask .socket
    -- The body of `if (remote_host == NULL)` is empty, so NULL is read through below.
    let remoteHost ← ask (.gethostbyname args.sshHost)
    let remoteHost ← check (remoteHost : Option Handle)
    let address ← ask (.hAddrList0 remoteHost)
    let connected ← ask (.connect sshSocket address)
    if (connected : Int) ≠ 0 then
      raise "Failed to connect to host"
    else
      return .inl (.handshake args save sshSocket)

/-- Lines 126 to 151. -/
def handshake (args : Arguments) (save : Handle) (sshSocket : Int) : Body := do
  let sshSession ← ask .libssh2SessionInit
  let sshSession ← check (sshSession : Option Handle)
  ask (.libssh2SessionSetBlocking sshSession)
  ask (.libssh2SessionSetTimeout sshSession)
  ask (.libssh2SessionMethodPref sshSession)
  let failed ← ask (.libssh2SessionHandshake sshSession sshSocket)
  if (failed : Int) ≠ 0 then
    raise "Failure establishing SSH session"
  else
    return .inl (.authenticate args save sshSession)

/-- Lines 153 to 181. -/
def authenticate (args : Arguments) (save sshSession : Handle) : Body := do
  let methods ← ask (.libssh2UserauthList sshSession args.sshUsername)
  let methods ← check (methods : Option CString)
  if ← check (offered methods password args.sshPassword) then
    let sshPassword ← check args.sshPassword
    let failed ← ask (.libssh2UserauthPassword sshSession args.sshUsername sshPassword)
    if (failed : Int) ≠ 0 then
      raise "Authentication by password failed"
    else
      return .inl (.commands save sshSession args.pyCommandList)
  else if ← check (offered methods publickey args.sshKeyPath) then
    let sshKeyPath ← check args.sshKeyPath
    let failed ← ask (.libssh2UserauthPublickeyFromfile sshSession args.sshUsername sshKeyPath)
    if (failed : Int) ≠ 0 then
      raise "Authentication by public key failed"
    else
      return .inl (.commands save sshSession args.pyCommandList)
  else
    raise "No supported authentication methods found"

/-- Lines 183 to 187, and `i = 0`. -/
def commands (save sshSession pyCommandList : Handle) : Body := do
  ask (.pyEvalRestoreThread save)
  let commandCount ← ask (.pyListSize pyCommandList)
  let pyResponse ← pyTupleNew CommandResponse commandCount
  let save ← ask .pyEvalSaveThread
  return .inl (.commandLoop ⟨save, sshSession, pyCommandList, commandCount, pyResponse⟩ 0)

/-- Lines 205 to 227. -/
def execCommand (f : Frame) (i : UInt8) (pyCommandResponse : Option (Tuple Item))
    (save sshChannel : Handle) : Body := do
  ask (.libssh2ChannelSetBlocking sshChannel)
  ask (.pyEvalRestoreThread save)
  let command ← commandAt f.pyCommandList i
  let save ← ask .pyEvalSaveThread
  -- `libssh2_channel_exec` takes the `strlen` of the command.
  let command ← check command
  let commandResponse ← ask (.libssh2ChannelExec sshChannel command)
  if (commandResponse : Int) ≠ 0 then
    raise "Error during command execution"
  else
    let s ← newResponseString
    return .inl (.stdoutLoop ⟨{ f with save }, i, pyCommandResponse, sshChannel, s⟩)

/-- Lines 189 to 227, and 296 to 297 when the loop is over. -/
def commandLoop (f : Frame) (i : UInt8) : Body := do
  if (i.toNat : Int) < f.commandCount then
    ask (.pyEvalRestoreThread f.save)
    let pyCommandResponse ← pyTupleNew Item 4
    -- Without `DEBUG`, `DEBUG_OUTPUT` leaves its arguments behind, and they are still evaluated.
    let _ ← commandAt f.pyCommandList i
    let save ← ask .pyEvalSaveThread
    let sshChannel ← ask (.libssh2ChannelOpenSession f.sshSession)
    match (sshChannel : Option Handle) with
    | none => raise "Failed to initiate SSH session"
    | some sshChannel => execCommand f i pyCommandResponse save sshChannel
  else
    ask (.pyEvalRestoreThread f.save)
    return .inr f.pyResponse

/-- Lines 228 to 246. -/
def stdoutLoop (c : CommandFrame) : Body := do
  let r ← ask (.libssh2ChannelRead c.sshChannel .stdout)
  let s ← appendResponse c.responseString r
  if (r : ReadResult).count > 0 then
    return .inl (.stdoutLoop { c with responseString := s })
  else
    ask (.pyEvalRestoreThread c.frame.save)
    let pyCommandResponse ← setOutput c.pyCommandResponse 0 s
    let save ← ask .pyEvalSaveThread
    ask (.free s.address)
    let s ← newResponseString
    return .inl (.stderrLoop
      { c with frame := { c.frame with save }, pyCommandResponse, responseString := s })

/-- Lines 263 to 270: the exit code and the exit signal, with what they are after a failed close. -/
def closeChannel (sshChannel : Handle) : Code (Int × Option CString) := do
  let closed ← ask (.libssh2ChannelClose sshChannel)
  if (closed : Int) = 0 then
    let processExitCode ← ask (.libssh2ChannelGetExitStatus sshChannel)
    let exitSignal ← ask (.libssh2ChannelGetExitSignal sshChannel)
    return (processExitCode, (exitSignal : ExitSignal).name)
  else
    return (0, none)

/-- Lines 277 to 282. `Py_None` goes into the tuple as it is. -/
def setExitSignal (pyCommandResponse : Option (Tuple Item)) (exitSignal : Option CString) :
    Code (Option (Tuple Item)) :=
  match exitSignal with
  | some name => do
    let ref ← ask (.pyStringFromString name.bytes)
    pyTupleSetItem pyCommandResponse 3 (.object ref) (.string name.bytes)
  | none => pyTupleSetItem pyCommandResponse 3 .pyNone .pyNone

/-- Lines 272 to 290, and `i++`. -/
def finishCommand (c : CommandFrame) (save : Handle) (pyCommandResponse : Option (Tuple Item))
    (processExitCode : Int) (exitSignal : Option CString) : Body := do
  ask (.pyEvalRestoreThread save)
  let exitCode ← ask (.pyIntFromLong processExitCode)
  let pyCommandResponse ←
    pyTupleSetItem pyCommandResponse 2 (.object exitCode) (.int processExitCode)
  let pyCommandResponse ← setExitSignal pyCommandResponse exitSignal
  let save ← ask .pyEvalSaveThread
  ask (.libssh2ChannelFree c.sshChannel)
  ask (.pyEvalRestoreThread save)
  let response ← check pyCommandResponse
  let pyResponse ←
    pyTupleSetItem c.frame.pyResponse c.i.toNat (.object response.ref) response.slots
  let save ← ask .pyEvalSaveThread
  return .inl (.commandLoop { c.frame with save, pyResponse } (c.i + 1))

/-- Lines 247 to 290. -/
def stderrLoop (c : CommandFrame) : Body := do
  let r ← ask (.libssh2ChannelRead c.sshChannel .stderr)
  let s ← appendResponse c.responseString r
  if (r : ReadResult).count > 0 then
    return .inl (.stderrLoop { c with responseString := s })
  else
    ask (.pyEvalRestoreThread c.frame.save)
    let pyCommandResponse ← setOutput c.pyCommandResponse 1 s
    let save ← ask .pyEvalSaveThread
    ask (.free s.address)
    let closed ← closeChannel c.sshChannel
    finishCommand c save pyCommandResponse closed.1 closed.2

def block : Label → Body
  | .handshake args save sshSocket => handshake args save sshSocket
  | .authenticate args save sshSession => authenticate args save sshSession
  | .commands save sshSession pyCommandList => commands save sshSession pyCommandList
  | .commandLoop f i => commandLoop f i
  | .stdoutLoop c => stdoutLoop c
  | .stderrLoop c => stderrLoop c

/-- The blocks of one round, from its first read on. It ends at the head of the loop. -/
def oneCommand : Label → Body
  | .commandLoop f _ => .ret (.inr f.pyResponse)
  | l => block l

/-! ## A call that meets no trouble -/

/-- Host `h`, user `u`, password `p`, no key, and a list. -/
def sampleArguments : Arguments :=
  ⟨⟨[104], by decide⟩, ⟨[117], by decide⟩, some ⟨[112], by decide⟩, none, 7⟩

/-- A server that takes passwords and is silent otherwise, and a list of `count` commands. -/
def accepting (count : Int) : Env Reply := fun _ c =>
  match c with
  | .libssh2UserauthList _ _ => some ⟨password, by decide⟩
  | .pyListSize _ => count
  | c => Reply.quiet c

end RemoteSsh
