import RemoteSsh.Lib.Wire
import RemoteSsh.Lib.Table

/-!
# The packets of a session

`packet.c` of libssh2: what a received packet does to the session and its channels, and how packets are
taken out of the queue again. A function that reads past the end of a packet gives `none`. A send that
would block is tried again from the same place, so it is one call here, and `sendRc` is what it returns.
The session has no listeners and no callbacks, as the wrapper sets none.
-/

open Lib

namespace RemoteSsh.Ssh

/-! ## Numbers of C -/

/-- What is stored in an `uint32_t`. -/
def u32 (n : Nat) : Nat := n % 2 ^ 32

/-- `a - b` of two `uint32_t`. -/
def sub32 (a b : Nat) : Nat := (a + 2 ^ 32 - b) % 2 ^ 32

/-- `a - b` of two `size_t`. -/
def subSize (a b : Nat) : Nat := (a + 2 ^ 64 - b) % 2 ^ 64

/-- An `uint32_t` that is stored in an `int`. -/
def toInt (n : Nat) : Int := if n < 2 ^ 31 then n else n - 2 ^ 32

/-! ## The session -/

def errorSocketSend : Int := -7
def errorInvalidMac : Int := -4
def errorSocketDisconnect : Int := -13
def errorEagain : Int := -37

/-- The packets that `_libssh2_packet_add` treats by their type. -/
inductive Msg where
  | disconnect
  | ignore
  | debug
  | globalRequest
  | channelOpen
  | channelWindowAdjust
  | channelData
  | channelExtendedData
  | channelEof
  | channelClose
  | channelRequest
  | other
  deriving DecidableEq

def Msg.ofByte (b : UInt8) : Msg :=
  if b = 1 then .disconnect
  else if b = 2 then .ignore
  else if b = 4 then .debug
  else if b = 80 then .globalRequest
  else if b = 90 then .channelOpen
  else if b = 93 then .channelWindowAdjust
  else if b = 94 then .channelData
  else if b = 95 then .channelExtendedData
  else if b = 96 then .channelEof
  else if b = 97 then .channelClose
  else if b = 98 then .channelRequest
  else .other

/-- `LIBSSH2_PACKET`. `data` has the `data_len` bytes that are used, and `data_head` of them are read. -/
structure Packet where
  data : Bytes
  dataHead : Nat
  deriving DecidableEq

inductive IgnoreMode where
  | normal
  | ignore
  | merge
  deriving DecidableEq

/-- `LIBSSH2_CHANNEL`. The window, the packet size, `eof` and `close` are those of `remote`. -/
structure Channel where
  localId : Nat
  remoteId : Nat
  windowSizeInitial : Nat
  windowSize : Nat
  packetSize : Nat
  localWindowSize : Nat
  localPacketSize : Nat
  extendedDataIgnoreMode : IgnoreMode
  eof : Bool
  close : Bool
  localEof : Bool
  localClose : Bool
  readAvail : Nat
  adjustQueue : Nat
  /-- `adjust_adjust`, while `adjust_state` is `libssh2_NB_state_created`. -/
  adjusting : Option Bytes
  /-- Whether `read_state` is `libssh2_NB_state_jump1`. -/
  widening : Bool
  exitStatus : Int
  exitSignal : Option Bytes
  deriving DecidableEq

/-- `LIBSSH2_SESSION`. `sent` is everything that was sent, in order. -/
structure Session where
  packets : List Packet
  channels : List Channel
  nextChannel : Nat
  connected : Bool
  sent : List Bytes
  deriving DecidableEq

def Session.channelLocate (s : Session) (id : Nat) : Option Channel := locate Channel.localId id s.channels

def Session.setChannel (s : Session) (c : Channel) : Session :=
  { s with channels := update Channel.localId c.localId (fun _ => c) s.channels }

def Session.transportSend (s : Session) (sendRc : Int) (packet : Bytes) : Session :=
  if sendRc = 0 then { s with sent := s.sent ++ [packet] } else s

/-! ## The receive window -/

/-- `LIBSSH2_CHANNEL_MINADJUST`. -/
def minAdjust : Nat := 1024

def adjustPacket (remoteId adjustment : Nat) : Bytes := 93 :: (htonu32 remoteId ++ htonu32 adjustment)

def sendAdjust (s : Session) (sendRc : Int) (c : Channel) (adjustment : Nat) (packet : Bytes) : Session × Int :=
  if sendRc = 0 then
    ((s.setChannel { c with windowSize := u32 (c.windowSize + adjustment), adjusting := none }).transportSend
      sendRc packet, 0)
  else (s.setChannel { c with adjustQueue := adjustment, adjusting := some packet }, errorSocketSend)

/-- `_libssh2_channel_receive_window_adjust`. -/
def receiveWindowAdjust (s : Session) (sendRc : Int) (c : Channel) (adjustment : Nat) (force : Bool) :
    Session × Int :=
  match c.adjusting with
  | some packet => sendAdjust s sendRc c adjustment packet
  | none =>
    if force = false ∧ u32 (adjustment + c.adjustQueue) < minAdjust then
      (s.setChannel { c with adjustQueue := u32 (c.adjustQueue + adjustment) }, 0)
    else if adjustment = 0 ∧ c.adjustQueue = 0 then (s, 0)
    else
      let adjustment := u32 (adjustment + c.adjustQueue)
      sendAdjust s sendRc { c with adjustQueue := 0 } adjustment (adjustPacket c.remoteId adjustment)

/-! ## What a packet does -/

/-- The callback is not set, so the lengths are only looked at. -/
def addDisconnect (s : Session) (data : Bytes) : Option (Session × Int) := do
  if 9 ≤ data.length then
    let messageLen ← u32At data 5
    if messageLen < subSize data.length 13 then
      let _ ← u32At data (9 + messageLen)
  return ({ s with connected := false }, errorSocketDisconnect)

def addDebug (s : Session) (data : Bytes) : Option (Session × Int) := do
  if 6 ≤ data.length then
    let messageLen ← u32At data 2
    if messageLen ≤ subSize data.length 10 then
      let _ ← u32At data (6 + messageLen)
  return (s, 0)

/-- `6 + len` and `5 + len` are `uint32_t`. -/
def addGlobalRequest (s : Session) (sendRc : Int) (data : Bytes) : Option (Session × Int) := do
  if 5 ≤ data.length then
    let len ← u32At data 1
    if u32 (6 + len) ≤ data.length then
      let wantReply ← data[u32 (5 + len)]?
      if wantReply ≠ 0 then
        return (s.transportSend sendRc [82], 0)
  return (s, 0)

/-- The channel that the first number of a packet names, if the packet is long enough. -/
def channelOf (s : Session) (size : Nat) (data : Bytes) : Option Channel :=
  if size ≤ data.length then (u32At data 1).bind s.channelLocate else none

/-- `packet_type(1) + channelno(4) + datalen(4)`, and the stream's number in extended data. -/
def dataHead (extended : Bool) : Nat := if extended then 13 else 9

/-- Extended data that nobody wants. `n` is `datalen - data_head`. -/
def dropExtended (s : Session) (sendRc : Int) (c : Channel) (n : Nat) : Session × Int :=
  let n := if c.windowSize ≤ c.readAvail + n then sub32 c.windowSize c.readAvail else n
  let c := { c with windowSize := sub32 c.windowSize n }
  ((receiveWindowAdjust (s.setChannel c) sendRc c n true).1, 0)

def addData (s : Session) (sendRc : Int) (extended : Bool) (data : Bytes) : Session × Int :=
  match channelOf s (dataHead extended) data with
  | none => (s, 0)
  | some c =>
    let n := data.length - dataHead extended
    if c.extendedDataIgnoreMode = .ignore ∧ extended = true then dropExtended s sendRc c n
    else
      let n := if c.packetSize < n then c.packetSize else n
      if c.windowSize ≤ c.readAvail then (s, 0)
      else
        let n := if c.windowSize < c.readAvail + n then sub32 c.windowSize c.readAvail else n
        let s := s.setChannel { c with eof := false, readAvail := u32 (c.readAvail + n) }
        ({ s with packets := s.packets ++ [⟨data.take (dataHead extended + n), dataHead extended⟩] }, 0)

def addEof (s : Session) (data : Bytes) : Session × Int :=
  match channelOf s 5 data with
  | none => (s, 0)
  | some c => (s.setChannel { c with eof := true }, 0)

def addClose (s : Session) (data : Bytes) : Session × Int :=
  match channelOf s 5 data with
  | none => (s, 0)
  | some c => (s.setChannel { c with close := true, eof := true }, 0)

/-- `memcmp` of `name` with the bytes at `offset`. -/
def memcmpAt (data : Bytes) (offset : Nat) (name : Bytes) : Option Bool :=
  if offset + name.length ≤ data.length then some ((data.drop offset).take name.length = name) else none

/-- Whether the request type of length `len` is `name`. -/
def requestIs (data : Bytes) (len : Nat) (name : Bytes) : Option Bool :=
  if len = name.length then memcmpAt data 9 name else some false

def addExitStatus (s : Session) (data : Bytes) (id : Nat) : Option Session :=
  match s.channelLocate id with
  | none => some s
  | some c => do
    let status ← u32At data 21
    return s.setChannel { c with exitStatus := toInt status }

def addExitSignal (s : Session) (data : Bytes) (id : Nat) : Option Session :=
  match s.channelLocate id with
  | none => some s
  | some c => do
    let namelen ← u32At data 21
    if 25 + namelen ≤ data.length then
      return s.setChannel { c with exitSignal := some ((data.drop 25).take namelen) }
    else none

def addExit (s : Session) (data : Bytes) (id len : Nat) : Option Session := do
  let isStatus ← requestIs data len (ascii "exit-status")
  if isStatus then addExitStatus s data id
  else
    let isSignal ← requestIs data len (ascii "exit-signal")
    if isSignal then addExitSignal s data id else return s

/-- The byte behind the request type. A packet that has no room for it wants a reply. -/
def wantReply (data : Bytes) (len : Nat) : Option UInt8 :=
  if len < subSize data.length 10 then data[u32 (9 + len)]? else some 1

def addRequest (s : Session) (sendRc : Int) (data : Bytes) : Option (Session × Int) :=
  if 9 ≤ data.length then do
    let id ← u32At data 1
    let len ← u32At data 5
    let reply ← wantReply data len
    let s ← addExit s data id len
    if reply ≠ 0 then return (s.transportSend sendRc (100 :: htonu32 id), sendRc) else return (s, 0)
  else some (s, 0)

def openFailure (senderChannel code : Nat) (text : Bytes) : Bytes :=
  92 :: (htonu32 senderChannel ++ htonu32 code ++ storeStr text ++ htonu32 0)

/-- `packet_queue_listener`, with no listener. -/
def packetQueueListener (s : Session) (sendRc : Int) (data : Bytes) : Option (Session × Int) := do
  let senderChannel ← u32At data 20
  let _ ← u32At data 24
  let _ ← u32At data 28
  let hostLen ← u32At data 32
  let _ ← u32At data (36 + hostLen)
  let shostLen ← u32At data (40 + hostLen)
  let _ ← u32At data (44 + hostLen + shostLen)
  return (s.transportSend sendRc (openFailure senderChannel 1 (ascii "Forward not requested")), sendRc)

/-- `packet_x11_open`, without the callback. -/
def packetX11Open (s : Session) (sendRc : Int) (data : Bytes) : Option (Session × Int) := do
  let senderChannel ← u32At data 8
  let _ ← u32At data 12
  let _ ← u32At data 16
  let shostLen ← u32At data 20
  let _ ← u32At data (24 + shostLen)
  return (s.transportSend sendRc (openFailure senderChannel 4 (ascii "X11 Forward Unavailable")), sendRc)

/-- Whether a packet opens a channel of this type. -/
def opens (data : Bytes) (name : Bytes) : Bool :=
  name.length + 5 ≤ data.length ∧ u32At data 1 = some name.length ∧ (data.drop 5).take name.length = name

def addOpen (s : Session) (sendRc : Int) (data : Bytes) : Option (Session × Int) :=
  if data.length < 17 then some (s, 0)
  else if opens data (ascii "forwarded-tcpip") then packetQueueListener s sendRc data
  else if opens data (ascii "x11") then packetX11Open s sendRc data
  else some (s, 0)

def addWindowAdjust (s : Session) (data : Bytes) : Session × Int :=
  match channelOf s 9 data, u32At data 5 with
  | some c, some bytesToAdd => (s.setChannel { c with localWindowSize := u32 (c.localWindowSize + bytesToAdd) }, 0)
  | _, _ => (s, 0)

/-- `_libssh2_packet_add`. A `KEXINIT` is only queued here: what the new key exchange does with the queue
comes after it. -/
def packetAdd (s : Session) (sendRc : Int) (macOk : Bool) (data : Bytes) : Option (Session × Int) :=
  match data with
  | [] => none
  | type :: _ =>
    if macOk = false then some (s, errorInvalidMac)
    else
      match Msg.ofByte type with
      | .disconnect => addDisconnect s data
      | .ignore => some (s, 0)
      | .debug => addDebug s data
      | .globalRequest => addGlobalRequest s sendRc data
      | .channelOpen => addOpen s sendRc data
      | .channelWindowAdjust => some (addWindowAdjust s data)
      | .channelData => some (addData s sendRc false data)
      | .channelExtendedData => some (addData s sendRc true data)
      | .channelEof => some (addEof s data)
      | .channelClose => some (addClose s data)
      | .channelRequest => addRequest s sendRc data
      | .other => some ({ s with packets := s.packets ++ [⟨data, 0⟩] }, 0)

/-! ## Taking a packet out of the queue -/

def asked (type : UInt8) (matchOfs : Nat) (matchBuf : Bytes) (p : Packet) : Bool :=
  p.data.head? = some type ∧ matchOfs + matchBuf.length ≤ p.data.length ∧
    (p.data.drop matchOfs).take matchBuf.length = matchBuf

/-- `_libssh2_packet_ask`. An empty `matchBuf` matches every packet of the type. -/
def packetAsk (s : Session) (type : UInt8) (matchOfs : Nat) (matchBuf : Bytes) : Option (Bytes × Session) :=
  match s.packets.find? (asked type matchOfs matchBuf) with
  | none => none
  | some p => some (p.data, { s with packets := s.packets.eraseP (asked type matchOfs matchBuf) })

/-- `_libssh2_packet_askv`. -/
def packetAskv (s : Session) (types : List UInt8) (matchOfs : Nat) (matchBuf : Bytes) :
    Option (Bytes × Session) :=
  types.findSome? fun type => packetAsk s type matchOfs matchBuf

end RemoteSsh.Ssh
