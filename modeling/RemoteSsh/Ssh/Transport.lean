import RemoteSsh.Lib.Blocks
import RemoteSsh.Ssh.Channel

/-!
# Packets on a socket

`transport.c` of libssh2: how the packets are taken apart while their bytes come in, and how a packet is laid out on
the socket. Compression is never agreed on, so it is left out, and so is a key exchange that begins in the middle of
a packet.
-/

open Lib

namespace RemoteSsh.Ssh

/-! ## The methods of one direction -/

def errorDecrypt : Int := -12
def errorInval : Int := -34
def errorBadUse : Int := -39
def errorOutOfBoundary : Int := -41
def errorSocketRecv : Int := -43
def errorEncrypt : Int := -44

/-- `PACKETBUFSIZE`. -/
def packetBufSize : Nat := 1024 * 16

/-- `LIBSSH2_PACKET_MAXPAYLOAD`. -/
def maxPayload : Nat := 40000

/-- `MAX_SSH_PACKET_LEN`. -/
def maxSshPacketLen : Nat := 35000

/-- The cipher and the MAC of one direction, with the MAC's key. `hash` gets the number of the packet and its
bytes. -/
structure Suite (κ : Type) where
  cipher : Cipher κ
  macLen : Nat
  hash : Nat → Bytes → Bytes

/-- `crypt_none_crypt` and `mac_none_MAC`. -/
def methodsNone : Suite Unit := ⟨⟨8, fun key block => some (block, key)⟩, 0, fun _ _ => []⟩

/-- `none` until the first keys are there. -/
abbrev Mode (κ : Type) := Option (Suite κ)

section Read

variable {κ : Type}

/-- What a packet is read in units of. -/
def Mode.blocksize (mode : Mode κ) : Nat := mode.elim 5 fun suite => suite.cipher.blocksize

def Mode.macLen (mode : Mode κ) : Nat := mode.elim 0 Suite.macLen

/-! ## Reading -/

/-- What one call of `recv` gives. -/
inductive Recv where
  | data (bytes : Bytes)
  | again
  | failed
  deriving DecidableEq

/-- The part of `struct transportpacket` that is about what comes in. `buf` is what lies between `readidx` and
`writeidx`, and `payload` is what was written up to `wptr`, so its length is `data_num`. There is no packet if
`totalNum` is 0. -/
structure Incoming (κ : Type) where
  buf : Bytes
  init : Bytes
  packetLength : Nat
  paddingLength : Nat
  totalNum : Nat
  payload : Bytes
  seqno : Nat
  key : κ

/-- Where a part of the loop leaves off: at undefined behaviour, at a `return`, or in front of the next part. -/
inductive Part (κ : Type) where
  | fault
  | stop (rc : Int) (p : Incoming κ)
  | next (p : Incoming κ)

/-- Asks the socket for more, if less than a block is left. It gives no more than fits into the buffer. -/
def refill (mode : Mode κ) (p : Incoming κ) (socket : List Recv) : Part κ × List Recv :=
  if p.buf.length < mode.blocksize then
    match socket with
    | [] => (.stop errorEagain p, [])
    | .again :: socket => (.stop errorEagain p, socket)
    | .failed :: socket => (.stop errorSocketRecv p, socket)
    | .data bytes :: socket =>
      let room := packetBufSize - p.buf.length
      if bytes = [] then (.stop errorSocketRecv p, socket)
      else if bytes.length ≤ room then (.next { p with buf := p.buf ++ bytes }, socket)
      else (.next { p with buf := p.buf ++ bytes.take room }, .data (bytes.drop room) :: socket)
  else (.next p, socket)

/-- The lengths in the first block, and the payload that they make room for. Both are added as `uint32_t`. What does
not fit into the new payload is written behind it. -/
def readLengths (mode : Mode κ) (block : Bytes) (p : Incoming κ) : Part κ :=
  match u32At block 0, block[4]? with
  | some packetLength, some paddingLength =>
    if packetLength < 1 then .stop errorDecrypt { p with packetLength := packetLength }
    else
      let p := { p with packetLength := packetLength, paddingLength := paddingLength.toNat }
      let totalNum := u32 (packetLength - 1 + mode.macLen)
      if maxPayload < totalNum then .stop errorOutOfBoundary p
      else if totalNum < mode.blocksize - 5 then .fault
      else .next { p with totalNum := totalNum, payload := block.drop 5 }
  | _, _ => .fault

/-- Takes the first block of a packet, if there is no packet yet. -/
def readHead (mode : Mode κ) (p : Incoming κ) : Part κ :=
  if p.totalNum ≠ 0 then .next p
  else if p.buf.length < mode.blocksize then .stop errorEagain p
  else
    let rest := p.buf.drop mode.blocksize
    match mode with
    | none => readLengths mode (p.buf.take mode.blocksize) { p with buf := rest }
    | some suite =>
      match suite.cipher.blocks 1 p.key p.buf with
      | none => .stop errorDecrypt p
      | some (block, key) => readLengths mode block { p with buf := rest, init := block.take 5, key := key }

/-- `numbytes`: what is in the buffer, up to the end of the packet. -/
def numbytes (p : Incoming κ) : Nat := min p.buf.length (p.totalNum - p.payload.length)

/-- `numdecrypt`, and what `numbytes` becomes. The MAC is not decrypted, and a part of a block is left for later. -/
def portion (suite : Suite κ) (p : Incoming κ) : Int × Int :=
  if subSize p.totalNum suite.macLen < p.payload.length + numbytes p then
    ((p.totalNum : Int) - suite.macLen - p.payload.length, numbytes p)
  else
    let frac := numbytes p % suite.cipher.blocksize
    if frac = 0 then (numbytes p, numbytes p) else ((numbytes p : Int) - frac, 0)

/-- `decrypt`. It aborts if it is asked for a part of a block. -/
def decrypt (suite : Suite κ) (p : Incoming κ) (len : Nat) : Part κ :=
  if len % suite.cipher.blocksize ≠ 0 then .fault
  else
    match suite.cipher.blocks (len / suite.cipher.blocksize) p.key p.buf with
    | none => .stop errorDecrypt { p with totalNum := 0 }
    | some (plain, key) => .next { p with buf := p.buf.drop len, payload := p.payload ++ plain, key := key }

/-- Copies what is not decrypted. -/
def copyPlain (p : Incoming κ) (len : Nat) : Incoming κ :=
  { p with buf := p.buf.drop len, payload := p.payload ++ p.buf.take len }

/-- Decrypts the first bytes of a portion and copies the others. -/
def takePortion (suite : Suite κ) (p : Incoming κ) (numdecrypt numbytes : Int) : Part κ :=
  if 0 < numdecrypt then
    match decrypt suite p numdecrypt.toNat with
    | .next p => .next (copyPlain p (numbytes - numdecrypt).toNat)
    | part => part
  else .next (copyPlain p numbytes.toNat)

/-- Moves bytes from the buffer to the payload. -/
def readBody (mode : Mode κ) (p : Incoming κ) : Part κ :=
  match mode with
  | none => .next (copyPlain p (numbytes p))
  | some suite => takePortion suite p (portion suite p).1 (portion suite p).2

/-- Where a call leaves off: `spin` if it goes round for as long as it was watched. A `packet` is what goes to
`_libssh2_packet_add`. -/
inductive Collected (κ : Type) where
  | fault
  | spin
  | stop (rc : Int) (p : Incoming κ) (socket : List Recv)
  | packet (payload : Bytes) (len : Nat) (macOk : Bool) (p : Incoming κ) (socket : List Recv)

/-- `fullpacket`, up to `_libssh2_packet_add`. The length of the payload is a `size_t`. -/
def fullpacket (mode : Mode κ) (p : Incoming κ) (socket : List Recv) : Collected κ :=
  let payloadLen := p.packetLength - 1
  if p.payload.length < payloadLen + mode.macLen ∨ p.payload = [] then .fault
  else
    let macOk := mode.elim true fun suite =>
      suite.hash p.seqno (p.init ++ p.payload.take payloadLen) = (p.payload.drop payloadLen).take suite.macLen
    .packet p.payload (subSize payloadLen p.paddingLength) macOk { p with seqno := u32 (p.seqno + 1), totalNum := 0 }
      socket

/-- The loop of `_libssh2_transport_read`. -/
def collect (mode : Mode κ) : Nat → Incoming κ → List Recv → Collected κ
  | 0, _, _ => .spin
  | fuel + 1, p, socket =>
    match refill mode p socket with
    | (.fault, _) => .fault
    | (.stop rc p, socket) => .stop rc p socket
    | (.next p, socket) =>
      match readHead mode p with
      | .fault => .fault
      | .stop rc p => .stop rc p socket
      | .next p =>
        match readBody mode p with
        | .fault => .fault
        | .stop rc p => .stop rc p socket
        | .next p =>
          if p.payload.length = p.totalNum then fullpacket mode p socket else collect mode fuel p socket

/-- `_libssh2_transport_read`. A length that has gone below zero reaches past the payload, if the packet is looked into
at all. `none` is also a call that never returns. -/
def transportReadFrom (mode : Mode κ) (fuel : Nat) (s : Session) (sendRc : Int) (p : Incoming κ)
    (socket : List Recv) : Option (Session × Int × Incoming κ × List Recv) :=
  if s.connected = false then some (s, 0, p, socket)
  else
    match collect mode fuel p socket with
    | .fault => none
    | .spin => none
    | .stop rc p socket => some (s, rc, p, socket)
    | .packet payload len macOk p socket =>
      if macOk = true ∧ payload.length < len then none
      else
        (packetAdd s sendRc macOk (payload.take len)).map fun r =>
          (r.1, if r.2 = 0 then ((payload.headD 0).toNat : Int) else r.2, p, socket)

end Read

section Write

variable {κ : Type}

/-! ## Writing -/

/-- What one call of `send` does with a buffer: it takes so many bytes of it, as far as there are some. -/
inductive Sent where
  | wrote (n : Nat)
  | again
  | failed
  deriving DecidableEq

/-- The part of `struct transportpacket` that is about what goes out. The bytes of `outbuf` from `osent` on are not
sent yet, if `olen` is not 0. -/
structure Outgoing (κ : Type) where
  odata : Nat
  olen : Nat
  outbuf : Bytes
  osent : Nat
  seqno : Nat
  key : κ

/-- The two data areas of a packet, and where the first one is. -/
structure Areas where
  address : Nat
  data : Bytes
  data2 : Bytes
  deriving DecidableEq

/-- `send_existing`: what it returns, and what goes to the socket. `none` if nothing is left of the last packet. -/
def sendExisting (out : Outgoing κ) (areas : Areas) (sent : Sent) : Option (Int × Outgoing κ × Bytes) :=
  if out.olen = 0 then none
  else if areas.address ≠ out.odata ∨ areas.data.length ≠ out.olen then some (errorBadUse, out, [])
  else
    let left := out.outbuf.drop out.osent
    match sent with
    | .wrote n =>
      if left.length ≤ n then some (0, { out with olen := 0 }, left)
      else some (errorEagain, { out with osent := out.osent + n }, left.take n)
    | .again => some (errorEagain, out, [])
    | .failed => some (errorSocketSend, out, [])

/-- `blocksize` of a packet that goes out. -/
def Mode.outBlocksize (mode : Mode κ) : Nat := mode.elim 8 fun suite => suite.cipher.blocksize

/-- At least 4 bytes, up to the end of a block. -/
def paddingLength (blocksize dataLen : Nat) : Nat :=
  let padding := blocksize - (dataLen + 5) % blocksize
  if padding < 4 then padding + blocksize else padding

/-- The packet before it is encrypted. Its padding is random. -/
def layout (random : Nat → UInt8) (blocksize : Nat) (data : Bytes) : Bytes :=
  let padding := paddingLength blocksize data.length
  htonu32 (data.length + 5 + padding - 4) ++ UInt8.ofNat padding :: (data ++ (List.range padding).map random)

/-- Encrypts the packet block by block, and puts the MAC of the plain packet behind it. -/
def sealPacket (mode : Mode κ) (seqno : Nat) (key : κ) (plain : Bytes) : Option (Bytes × κ) :=
  match mode with
  | none => some (plain, key)
  | some suite =>
    (suite.cipher.blocks (plain.length / suite.cipher.blocksize) key plain).map fun r =>
      (r.1 ++ suite.hash seqno plain, r.2)

/-- `_libssh2_transport_send`: what it returns, and what goes to the socket. What is left of a cipher that fails is
not followed. -/
def transportSendTo (mode : Mode κ) (random : Nat → UInt8) (out : Outgoing κ) (areas : Areas) (sent : Sent) :
    Int × Outgoing κ × Bytes :=
  match sendExisting out areas sent with
  | some r => r
  | none =>
    if maxSshPacketLen - 0x100 ≤ areas.data.length + areas.data2.length then (errorInval, out, [])
    else
      match sealPacket mode out.seqno out.key (layout random mode.outBlocksize (areas.data ++ areas.data2)) with
      | none => (errorEncrypt, out, [])
      | some (raw, key) =>
        let out := { out with outbuf := raw, seqno := u32 (out.seqno + 1), key := key }
        match sent with
        | .wrote n =>
          if raw.length ≤ n then (0, { out with odata := 0, olen := 0 }, raw)
          else
            (errorEagain, { out with odata := areas.address, olen := areas.data.length, osent := n }, raw.take n)
        | .again => (errorEagain, { out with odata := areas.address, olen := areas.data.length, osent := 0 }, [])
        | .failed => (errorSocketSend, out, [])

end Write

end RemoteSsh.Ssh
