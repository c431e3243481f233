import RemoteSsh.Ssh.Packet

/-!
# The life of a channel

`channel.c` of libssh2: a channel is opened, starts a program, is read from, is closed and is freed. Each
of these takes packets from the socket while it waits. `arrivals` are the packets that come, in order, and
a function that has to wait for more than these returns `errorEagain`.
-/

open Lib

namespace RemoteSsh.Ssh

/-! ## Packets from the socket -/

/-- A packet that comes in, and what a send returns that it may cause. -/
structure Arrival where
  data : Bytes
  macOk : Bool
  sendRc : Int
  deriving DecidableEq

/-- `_libssh2_transport_read`, once it has a whole packet. It returns the type of the packet. -/
def transportRead (s : Session) (arrivals : List Arrival) : Option (Session × Int × List Arrival) :=
  if s.connected = false then some (s, 0, arrivals)
  else
    match arrivals with
    | [] => some (s, errorEagain, [])
    | a :: rest => do
      let (s', rc) ← packetAdd s a.sendRc a.macOk a.data
      return (s', if rc = 0 then ((a.data.headD 0).toNat : Int) else rc, rest)

/-- Reads packets as long as there are some. -/
def drain (s : Session) : List Arrival → Option (Session × Int × List Arrival)
  | [] => transportRead s []
  | a :: rest => do
    let (s', rc, rest') ← transportRead s (a :: rest)
    if 0 < rc then drain s' rest else return (s', rc, rest')

/-- `LIBSSH2_ERROR_TIMEOUT` does not come, as the wait is as long as it takes. A type of 0 is found in every
list of types, as it ends the list. -/
def packetRequirev (s : Session) (types : List UInt8) (matchOfs : Nat) (matchBuf : Bytes)
    (arrivals : List Arrival) : Option (Session × Int × Bytes × List Arrival) :=
  match packetAskv s types matchOfs matchBuf with
  | some (data, s') => some (s', 0, data, arrivals)
  | none => go s arrivals
where
  go (s : Session) : List Arrival → Option (Session × Int × Bytes × List Arrival)
    | [] => if s.connected then some (s, errorEagain, [], []) else some (s, errorSocketDisconnect, [], [])
    | a :: rest =>
      if s.connected then do
        let (s', ret, rest') ← transportRead s (a :: rest)
        if ret < 0 then return (s', ret, [], rest')
        else if ret = 0 ∨ ∃ type ∈ types, (type.toNat : Int) = ret then
          match packetAskv s' types matchOfs matchBuf with
          | some (data, s'') => return (s'', 0, data, rest')
          | none => return (s', -1, [], rest')
        else go s' rest
      else some (s, errorSocketDisconnect, [], a :: rest)

/-! ## Opening -/

/-- The largest id of a live channel, or `next_channel` if that is larger. -/
def nextid (s : Session) : Nat := s.channels.foldl (fun id c => if id < c.localId then c.localId else id) s.nextChannel

/-- `_libssh2_channel_nextid`. -/
def channelNextid (s : Session) : Nat × Session := (nextid s, { s with nextChannel := u32 (nextid s + 1) })

def newChannel (id windowSize packetSize : Nat) : Channel where
  localId := id
  remoteId := 0
  windowSizeInitial := windowSize
  windowSize := windowSize
  packetSize := packetSize
  localWindowSize := 0
  localPacketSize := 0
  extendedDataIgnoreMode := .normal
  eof := false
  close := false
  localEof := false
  localClose := false
  readAvail := 0
  adjustQueue := 0
  adjusting := none
  widening := false
  exitStatus := 0
  exitSignal := none

def openPacket (channelType : Bytes) (id windowSize packetSize : Nat) : Bytes :=
  90 :: (storeStr channelType ++ htonu32 id ++ htonu32 windowSize ++ htonu32 packetSize)

/-- Takes out the data of a channel, as long as there is some. -/
def clearPackets (id : Nat) : Nat → Session → Session
  | 0, s => s
  | fuel + 1, s =>
    match packetAsk s 94 1 (htonu32 id) with
    | some (_, s') => clearPackets id fuel s'
    | none =>
      match packetAsk s 95 1 (htonu32 id) with
      | some (_, s') => clearPackets id fuel s'
      | none => s

/-- Clears the packets of a channel and unlinks it. Every round takes a packet out, so there are not more
rounds than packets. -/
def Session.forget (s : Session) (id : Nat) : Session :=
  let s := clearPackets id s.packets.length s
  { s with channels := remove Channel.localId id s.channels }

/-- `_libssh2_channel_open`: the channel is linked before the server has heard of it. -/
def channelOpen (s : Session) (sendRc : Int) (channelType : Bytes) (windowSize packetSize : Nat)
    (arrivals : List Arrival) : Option (Session × Option Nat × Int × List Arrival) :=
  let (id, s) := channelNextid s
  let s := { s with channels := s.channels ++ [newChannel id windowSize packetSize] }
  let s := s.transportSend sendRc (openPacket channelType id windowSize packetSize)
  if sendRc ≠ 0 then some (s.forget id, none, sendRc, arrivals)
  else do
    let (s, rc, data, rest) ← packetRequirev s [91, 92] 1 (htonu32 id) arrivals
    if rc = errorEagain then return (s, none, rc, rest)
    else if rc ≠ 0 then return (s.forget id, none, rc, rest)
    else if data.head? = some 91 then
      let remoteId ← u32At data 5
      let localWindowSize ← u32At data 9
      let localPacketSize ← u32At data 13
      let c ← s.channelLocate id
      return (s.setChannel
        { c with
          remoteId := remoteId
          localWindowSize := localWindowSize
          localPacketSize := localPacketSize }, some id, 0, rest)
    else
      let _ ← u32At data 5
      return (s.forget id, none, -21, rest)

/-! ## Starting a program -/

/-- The request of `_libssh2_channel_process_startup`, with its message right behind it. -/
def startupPacket (remoteId : Nat) (request message : Bytes) : Bytes :=
  98 :: (htonu32 remoteId ++ storeStr request ++ [1] ++ storeStr message)

def processStartup (s : Session) (sendRc : Int) (id : Nat) (request message : Bytes)
    (arrivals : List Arrival) : Option (Session × Int × List Arrival) := do
  let c ← s.channelLocate id
  let s := s.transportSend sendRc (startupPacket c.remoteId request message)
  if sendRc ≠ 0 then return (s, sendRc, arrivals)
  else
    let (s, rc, data, rest) ← packetRequirev s [99, 100] 1 (htonu32 id) arrivals
    if rc ≠ 0 then return (s, rc, rest)
    else if data.head? = some 99 then return (s, 0, rest)
    else return (s, -22, rest)

/-! ## Reading -/

/-- `buflen` as an `int`. A negative one reads nothing. -/
def intLen (buflen : Nat) : Nat := if u32 buflen < 2 ^ 31 then u32 buflen else 0

/-- Whether a queued packet is data of this stream. -/
def wanted (c : Channel) (streamId : Int) (p : Packet) : Bool :=
  u32At p.data 1 = some c.localId ∧
    ((streamId ≠ 0 ∧ p.data.head? = some 95 ∧ (u32At p.data 5).map toInt = some streamId) ∨
      (streamId = 0 ∧ p.data.head? = some 94) ∨
      (streamId = 0 ∧ p.data.head? = some 95 ∧ c.extendedDataIgnoreMode = .merge))

/-- What a packet still has to give. -/
def Packet.rest (p : Packet) : Bytes := p.data.drop p.dataHead

/-- The copy loop of `_libssh2_channel_read`. A packet that was read to its end is unlinked. -/
def readLoop (want : Packet → Bool) (buflen : Nat) : Nat → List Packet → Bytes × List Packet
  | _, [] => ([], [])
  | bytesRead, p :: packets =>
    if bytesRead < buflen then
      if want p then
        let bytesWant := buflen - bytesRead
        if p.rest.length ≤ bytesWant then
          let (bytes, packets) := readLoop want buflen (bytesRead + p.rest.length) packets
          (p.rest ++ bytes, packets)
        else
          let (bytes, packets) := readLoop want buflen (bytesRead + bytesWant) packets
          (p.rest.take bytesWant ++ bytes, { p with dataHead := p.dataHead + bytesWant } :: packets)
      else
        let (bytes, packets) := readLoop want buflen bytesRead packets
        (bytes, p :: packets)
    else ([], p :: packets)

/-- Widens the window if it has become too narrow. -/
def widen (s : Session) (sendRc : Int) (c : Channel) (buflen : Nat) : Session × Int :=
  if c.widening = true ∨ c.windowSize < c.windowSizeInitial / 4 * 3 + buflen then
    let adjustment := u32 (c.windowSizeInitial + buflen + (2 ^ 32 - c.windowSize))
    let adjustment := if adjustment < minAdjust then minAdjust else adjustment
    let (s, rc) := receiveWindowAdjust s sendRc { c with widening := true } adjustment false
    if rc ≠ 0 then (s, rc)
    else
      match s.channelLocate c.localId with
      | some c => (s.setChannel { c with widening := false }, 0)
      | none => (s, 0)
  else (s, 0)

/-- Gives the bytes that are queued for the stream. `rc` is what the last packet read returned. -/
def copyOut (s : Session) (c : Channel) (streamId : Int) (buflen : Nat) (rc : Int) : Session × Int × Bytes :=
  let (bytes, packets) := readLoop (wanted c streamId) (intLen buflen) 0 s.packets
  let s := { s with packets := packets }
  if bytes = [] then
    if c.eof = true ∨ c.close = true then (s, 0, [])
    else if rc ≠ errorEagain then (s, 0, [])
    else (s, errorEagain, [])
  else
    (s.setChannel
      { c with
        readAvail := sub32 c.readAvail bytes.length
        windowSize := sub32 c.windowSize bytes.length }, bytes.length, bytes)

/-- `_libssh2_channel_read`. -/
def channelRead (s : Session) (sendRc : Int) (id : Nat) (streamId : Int) (buflen : Nat)
    (arrivals : List Arrival) : Option (Session × Int × Bytes × List Arrival) := do
  let c ← s.channelLocate id
  let (s, rc) := widen s sendRc c buflen
  if rc ≠ 0 then return (s, rc, [], arrivals)
  else
    let (s, rc, rest) ← drain s arrivals
    if rc < 0 ∧ rc ≠ errorEagain then return (s, rc, [], rest)
    else
      let c ← s.channelLocate id
      let (s, rc, bytes) := copyOut s c streamId buflen rc
      return (s, rc, bytes, rest)

/-- `libssh2_channel_read_ex`, up to where it would block. What the first adjustment returns is not looked at. -/
def channelReadEx (s : Session) (adjustRc sendRc : Int) (id : Nat) (streamId : Int) (buflen : Nat)
    (arrivals : List Arrival) : Option (Session × Int × Bytes × List Arrival) := do
  let c ← s.channelLocate id
  let s := if c.windowSize < buflen then (receiveWindowAdjust s adjustRc c (u32 buflen) true).1 else s
  channelRead s sendRc id streamId buflen arrivals

/-! ## Closing -/

/-- `channel_send_eof`. -/
def channelSendEof (s : Session) (sendRc : Int) (c : Channel) : Session × Int :=
  if sendRc = 0 then
    ((s.setChannel { c with localEof := true }).transportSend sendRc (96 :: htonu32 c.remoteId), 0)
  else (s, errorSocketSend)

/-- Waits for the close of the server, until a packet read returns something other than 0. -/
def awaitClose (s : Session) (id : Nat) : List Arrival → Option (Session × Int × List Arrival)
  | [] => do
    let c ← s.channelLocate id
    if c.close = true ∨ s.connected = false then return (s, 0, [])
    else transportRead s []
  | a :: rest => do
    let c ← s.channelLocate id
    if c.close = true ∨ s.connected = false then return (s, 0, a :: rest)
    else
      let (s', rc, rest') ← transportRead s (a :: rest)
      if rc = 0 then awaitClose s' id rest else return (s', rc, rest')

/-- `_libssh2_channel_close`. -/
def channelClose (s : Session) (eofRc closeRc : Int) (id : Nat) (arrivals : List Arrival) :
    Option (Session × Int × List Arrival) := do
  let c ← s.channelLocate id
  if c.localClose = true then return (s, 0, arrivals)
  else
    let s := if c.localEof = true then s else (channelSendEof s eofRc c).1
    let s := s.transportSend closeRc (97 :: htonu32 c.remoteId)
    let (s, rc, rest) ← if closeRc = 0 then awaitClose s id arrivals else some (s, closeRc, arrivals)
    if rc = errorEagain then return (s, rc, rest)
    else
      let c ← s.channelLocate id
      return (s.setChannel { c with localClose := true }, if 0 ≤ rc then 0 else rc, rest)

/-- `_libssh2_channel_free`. -/
def channelFree (s : Session) (eofRc closeRc : Int) (id : Nat) (arrivals : List Arrival) :
    Option (Session × Int × List Arrival) := do
  let c ← s.channelLocate id
  let (s, rc, rest) ←
    if c.localClose = false ∧ s.connected = true then channelClose s eofRc closeRc id arrivals
    else some (s, 0, arrivals)
  if rc = errorEagain then return (s, rc, rest)
  else return (s.forget id, 0, rest)

end RemoteSsh.Ssh
