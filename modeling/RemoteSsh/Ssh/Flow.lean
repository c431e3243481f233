import RemoteSsh.Ssh.Steps

/-!
# A server that keeps to the window

One channel of a session, with the server at its other end. On this channel the server sends no more than it
was granted and nothing after its end. On all other channels it does what it likes.
-/

open Lib

namespace RemoteSsh.Ssh

/-! ## Data on the wire -/

/-- A packet of channel data. Extended data has the number of its stream. -/
def dataPacket (id : Nat) (code : Option Nat) (payload : Bytes) : Bytes :=
  match code with
  | none => 94 :: (htonu32 id ++ storeStr payload)
  | some code => 95 :: (htonu32 id ++ htonu32 code ++ storeStr payload)

/-- The `stream_id` under which the data is read. -/
def streamOf : Option Nat → Int
  | none => 0
  | some code => toInt code

/-- Whether a packet is data for this channel. -/
def dataFor (id : Nat) (data : Bytes) : Bool :=
  u32At data 1 = some id ∧
    ((data.head? = some 94 ∧ 9 ≤ data.length) ∨ (data.head? = some 95 ∧ 13 ≤ data.length))

/-- Whether a packet ends the data of this channel. -/
def endFor (id : Nat) (data : Bytes) : Bool :=
  u32At data 1 = some id ∧ (data.head? = some 96 ∨ data.head? = some 97)

/-- The bytes that a packet has for a stream of this channel. -/
def payloadFor (id : Nat) (streamId : Int) (data : Bytes) : Bytes :=
  if dataFor id data then
    if data.head? = some 94 then
      if streamId = 0 then data.drop 9 else []
    else if streamId ≠ 0 ∧ (u32At data 5).map toInt = some streamId then data.drop 13 else []
  else []

/-- How many bytes of this channel a packet has. -/
def sizeFor (id : Nat) (data : Bytes) : Nat :=
  if dataFor id data then data.length - dataHead (data.head? = some 95) else 0

/-- How much a packet of the client grants to the server's channel `remoteId`. -/
def grantFor (remoteId : Nat) (packet : Bytes) : Nat :=
  if packet.head? = some 93 ∧ u32At packet 1 = some remoteId then (u32At packet 5).getD 0 else 0

/-- The packets of a stream, as long as extended data is neither ignored nor merged. -/
def ofStream (id : Nat) (streamId : Int) (p : Packet) : Bool :=
  u32At p.data 1 = some id ∧
    ((streamId ≠ 0 ∧ p.data.head? = some 95 ∧ (u32At p.data 5).map toInt = some streamId) ∨
      (streamId = 0 ∧ p.data.head? = some 94))

/-! ## The two parties -/

/-- A session and the server, as far as they matter for one channel. -/
structure Net where
  session : Session
  /-- What is on its way to the client. -/
  wire : List Bytes
  /-- How much more the server may send. -/
  credit : Nat
  /-- How many packets of the client the server has read. -/
  heard : Nat
  /-- What the server has sent on each stream. -/
  written : Int → Bytes
  /-- What the client has read from each stream. -/
  got : Int → Bytes
  /-- Whether the server has ended its data. -/
  ended : Bool

section Steps

variable (id remoteId size : Nat)

/-- What the client does to the channels. It leaves the modes of this channel alone and does not free it, and
no other channel has its number at the server. -/
def Allowed (s : Session) (l : Label) (s' : Session) : Prop :=
  match l with
  | .arrive _ => False
  | .confirm other => other ≠ id ∧ ∀ c, s'.channelLocate other = some c → c.remoteId ≠ remoteId
  | .forget other => other ≠ id
  | .widen other _ => other ≠ id → ∀ c, s.channelLocate other = some c → c.remoteId ≠ remoteId
  | .mode other _ => other ≠ id ∧ ∀ c, s.channelLocate other = some c → c.remoteId ≠ remoteId
  | _ => True

/-- The bytes that a step reads from the channel. -/
def readBy (streamId : Int) : Label → Bytes
  | .copy other stream bytes => if other = id ∧ stream = streamId then bytes else []
  | _ => []

inductive NetStep (n : Net) : Net → Prop
  | client (l : Label) (s' : Session) (h : Small n.session l s') (hallowed : Allowed id remoteId n.session l s') :
      NetStep n { n with session := s', got := fun stream => n.got stream ++ readBy id stream l }
  | deliver (data : Bytes) (rest : List Bytes) (s' : Session) (rc : Int) (hwire : n.wire = data :: rest)
      (h : packetAdd n.session 0 true data = some (s', rc)) : NetStep n { n with session := s', wire := rest }
  | hear (packet : Bytes) (h : n.session.sent[n.heard]? = some packet) :
      NetStep n { n with heard := n.heard + 1, credit := n.credit + grantFor remoteId packet }
  | write (code : Option Nat) (payload : Bytes)
      (hcode : ∀ k, code = some k → 0 < k ∧ k < 2 ^ 32) (hended : n.ended = false)
      (hcredit : payload.length ≤ n.credit) (hsize : payload.length ≤ size) :
      NetStep n
        { n with
          wire := n.wire ++ [dataPacket id code payload]
          credit := n.credit - payload.length
          written := Function.update n.written (streamOf code) (n.written (streamOf code) ++ payload) }
  | other (data : Bytes) (hdata : dataFor id data = false) :
      NetStep n { n with wire := n.wire ++ [data], ended := n.ended || endFor id data }

end Steps

/-! ## What packets hold -/

section Packets

variable {id : Nat} {code : Option Nat} {payload : Bytes}

theorem toInt_ne_zero {n : Nat} (h : 0 < n) (hlt : n < 2 ^ 32) : toInt n ≠ 0 := by
  unfold toInt
  split <;> omega

/-- A packet of the server, as the client takes it apart. -/
theorem dataPacket_spec (hid : id < 2 ^ 32) (hcode : ∀ k, code = some k → 0 < k ∧ k < 2 ^ 32) (payload : Bytes) :
    (dataPacket id code payload).head? = some (if code.isSome then 95 else 94) ∧
      (dataPacket id code payload).length = dataHead code.isSome + payload.length ∧
      u32At (dataPacket id code payload) 1 = some id ∧
      (dataPacket id code payload).drop (dataHead code.isSome) = payload ∧
      (∀ k, code = some k → u32At (dataPacket id code payload) 5 = some k) := by
  cases code with
  | none =>
    refine ⟨rfl, ?_, ?_, ?_, nofun⟩
    · simp [dataPacket, dataHead, storeStr]
      omega
    · exact ntohu32_htonu32 id _ hid
    · rfl
  | some k =>
    obtain ⟨hpos, hlt⟩ := hcode k rfl
    refine ⟨rfl, ?_, ?_, ?_, ?_⟩
    · simp [dataPacket, dataHead, storeStr]
      omega
    · simp only [dataPacket, u32At, List.drop_succ_cons, List.drop_zero, List.append_assoc]
      exact ntohu32_htonu32 id _ hid
    · rfl
    · intro j hj
      cases hj
      exact ntohu32_htonu32 k _ hlt

theorem dataPacket_dataFor (hid : id < 2 ^ 32) (hcode : ∀ k, code = some k → 0 < k ∧ k < 2 ^ 32) :
    dataFor id (dataPacket id code payload) = true := by
  obtain ⟨hhead, hlength, hat, -, -⟩ := dataPacket_spec hid hcode payload
  cases code with
  | none => simp_all [dataFor, dataHead]
  | some k => simp_all [dataFor, dataHead]

theorem dataPacket_payload (hid : id < 2 ^ 32) (hcode : ∀ k, code = some k → 0 < k ∧ k < 2 ^ 32) (streamId : Int) :
    payloadFor id streamId (dataPacket id code payload) = if streamId = streamOf code then payload else [] := by
  obtain ⟨hhead, -, -, hdrop, hat⟩ := dataPacket_spec hid hcode payload
  unfold payloadFor
  rw [if_pos (dataPacket_dataFor hid hcode)]
  cases code with
  | none =>
    simp only [Option.isSome_none, dataHead, Bool.false_eq_true, if_false] at hdrop hhead
    by_cases hzero : streamId = 0
    · simp [hhead, hdrop, streamOf, hzero]
    · simp [hhead, streamOf, hzero]
  | some k =>
    obtain ⟨hpos, hlt⟩ := hcode k rfl
    have hne := toInt_ne_zero hpos hlt
    simp only [Option.isSome_some, dataHead, if_true] at hdrop
    simp only [hhead, Option.isSome_some, if_true, hat k rfl, Option.map_some, Option.some.injEq, streamOf, hdrop]
    rw [if_neg (by decide)]
    by_cases heq : toInt k = streamId
    · subst heq
      simp [hne]
    · simp [heq, Ne.symm heq]

theorem dataPacket_size (hid : id < 2 ^ 32) (hcode : ∀ k, code = some k → 0 < k ∧ k < 2 ^ 32) :
    sizeFor id (dataPacket id code payload) = payload.length := by
  obtain ⟨hhead, hlength, -, -, -⟩ := dataPacket_spec hid hcode payload
  unfold sizeFor
  rw [if_pos (dataPacket_dataFor hid hcode), hlength, hhead]
  cases code with
  | none => simp [dataHead]
  | some k => simp [dataHead]

theorem grantFor_adjust {remoteId n : Nat} (hremote : remoteId < 2 ^ 32) (hn : n < 2 ^ 32) :
    grantFor remoteId (adjustPacket remoteId n) = n := by
  have hat : u32At (adjustPacket remoteId n) 1 = some remoteId := ntohu32_htonu32 remoteId _ hremote
  have hgrant : u32At (adjustPacket remoteId n) 5 = some n := by
    have := ntohu32_htonu32 n [] hn
    rwa [List.append_nil] at this
  rw [grantFor, if_pos ⟨rfl, hat⟩, hgrant]
  rfl

theorem grantFor_other {remoteId other n : Nat} (hother : other < 2 ^ 32) (hne : other ≠ remoteId) :
    grantFor remoteId (adjustPacket other n) = 0 := by
  have hat : u32At (adjustPacket other n) 1 = some other := ntohu32_htonu32 other _ hother
  rw [grantFor, if_neg]
  rintro ⟨-, h⟩
  rw [hat] at h
  exact hne (Option.some.inj h)

theorem grantFor_plain {remoteId : Nat} {packet : Bytes} (h : packet.head? ≠ some 93) : grantFor remoteId packet = 0 :=
  if_neg fun hand => h hand.1

end Packets

/-! ## Steps that are not about the channel -/

/-- Whatever matters for the channel is as before. -/
structure Untouched (id remoteId : Nat) (s s' : Session) : Prop where
  channel : ∀ c, s.channelLocate id = some c → ∃ c', s'.channelLocate id = some c' ∧ c'.core = c.core
  pending : ∀ streamId, pending (ofStream id streamId) s'.packets = pending (ofStream id streamId) s.packets
  sent : ∃ extra, s'.sent = s.sent ++ extra ∧ (extra.map (grantFor remoteId)).sum = 0

/-- A channel that gives back what it ignores has another number at the server. -/
def Apart (id remoteId : Nat) (s : Session) : Prop :=
  ∀ other c, s.channelLocate other = some c → other ≠ id → c.extendedDataIgnoreMode = .ignore → c.remoteId ≠ remoteId

section Untouched

variable {id remoteId : Nat} {s s' : Session}

theorem byHeader_ofStream (streamId : Int) : ByHeader (ofStream id streamId) := fun _ _ => rfl

theorem ofStream_isFor {streamId : Int} {p : Packet} (h : ofStream id streamId p = true) : p.isFor id = true := by
  simp only [ofStream, decide_eq_true_eq] at h
  simp only [Packet.isFor, Packet.isData, decide_eq_true_eq]
  tauto

theorem pending_other {streamId : Int} {packets : List Packet} {p : Packet} (h : p.isFor id = false) :
    pending (ofStream id streamId) (packets ++ [p]) = pending (ofStream id streamId) packets := by
  have hno : ofStream id streamId p = false := by
    cases hp : ofStream id streamId p with
    | false => rfl
    | true =>
      rw [ofStream_isFor hp] at h
      cases h
  rw [pending_append, pending_cons_neg hno, pending_nil, List.append_nil]

theorem Untouched.same (hcore : SameCore s s') (extra : List Bytes) (hsent : s'.sent = s.sent ++ extra)
    (hextra : (extra.map (grantFor remoteId)).sum = 0) : Untouched id remoteId s s' where
  channel := by
    intro c hc
    obtain ⟨c', hc', heq⟩ := hcore.symm.locate_some hc
    exact ⟨c', hc', heq.symm⟩
  pending := by
    intro streamId
    rw [hcore.packets]
  sent := ⟨extra, hsent, hextra⟩

theorem Apart.same (h : Apart id remoteId s) (hcore : SameCore s s') : Apart id remoteId s' := by
  intro other c' hc' hne hmode
  obtain ⟨c, hc, heq⟩ := hcore.locate_some hc'
  have hmode' : c.extendedDataIgnoreMode = .ignore := by
    have := congrArg Channel.extendedDataIgnoreMode heq
    exact this.symm.trans hmode
  rw [(Channel.core_fields heq).2.1]
  exact h other c hc hne hmode'

/-- A step that only changes another channel. -/
theorem Untouched.setChannel {d : Channel} (hne : d.localId ≠ id) : Untouched id remoteId s (s.setChannel d) where
  channel := by
    intro c hc
    exact ⟨c, by rw [locate_setChannel_of_ne (Ne.symm hne), hc], rfl⟩
  pending := fun _ => rfl
  sent := ⟨[], by simp, rfl⟩

theorem Apart.setChannel {c d : Channel} (h : Apart id remoteId s) (hc : s.channelLocate d.localId = some c)
    (hd : d.localId ≠ id → d.extendedDataIgnoreMode = .ignore → d.remoteId ≠ remoteId) :
    Apart id remoteId (s.setChannel d) := by
  intro other e he hne hmode
  by_cases heq : other = d.localId
  · subst heq
    rw [locate_setChannel_self hc rfl] at he
    cases he
    exact hd hne hmode
  · rw [locate_setChannel_of_ne heq] at he
    exact h other e he hne hmode

theorem Untouched.trans {s'' : Session} (h : Untouched id remoteId s s') (h' : Untouched id remoteId s' s'') :
    Untouched id remoteId s s'' where
  channel := by
    intro c hc
    obtain ⟨c', hc', heq⟩ := h.channel c hc
    obtain ⟨c'', hc'', heq'⟩ := h'.channel c' hc'
    exact ⟨c'', hc'', heq'.trans heq⟩
  pending := fun streamId => (h'.pending streamId).trans (h.pending streamId)
  sent := by
    obtain ⟨extra, hsent, hsum⟩ := h.sent
    obtain ⟨extra', hsent', hsum'⟩ := h'.sent
    exact ⟨extra ++ extra', by rw [hsent', hsent, List.append_assoc], by simp [hsum, hsum']⟩

end Untouched

section Others

variable {id remoteId : Nat} {s s' : Session} {data : Bytes}

theorem pending_removed {streamId : Int} {before after : List Packet} {p : Packet} (h : p.isData = false) :
    pending (ofStream id streamId) (before ++ after) = pending (ofStream id streamId) (before ++ p :: after) := by
  have hno : ofStream id streamId p = false := by
    cases hp : ofStream id streamId p with
    | false => rfl
    | true =>
      have := ofStream_isFor hp
      simp [Packet.isFor, h] at this
  rw [pending_append, pending_append, pending_cons_neg hno]

theorem small_untouched {l : Label} (hs : Sound s)
    (hapart : Apart id remoteId s) (h : Small s l s') (hallowed : Allowed id remoteId s l s')
    (hcopy : ∀ streamId bytes, l ≠ .copy id streamId bytes) (hwiden : ∀ n, l ≠ .widen id n) :
    Untouched id remoteId s s' ∧ Apart id remoteId s' := by
  cases h with
  | arrive a rc _ _ => exact hallowed.elim
  | take type matchOfs matchBuf data htype h =>
    obtain ⟨before, p, after, hsplit, hp, -, rfl⟩ := packetAsk_some h
    refine ⟨⟨fun c hc => ⟨c, hc, rfl⟩, fun streamId => ?_, ⟨[], by simp, rfl⟩⟩, hapart⟩
    rw [hsplit]
    exact pending_removed (asked_isData htype hp)
  | link windowSize packetSize packet hroom hsize hpacket =>
    have hne (other : Nat) (c : Channel) (hc : s.channelLocate other = some c) : other ≠ s.nextChannel := by
      have := hs.fresh c (locate_mem hc)
      rw [locate_localId hc] at this
      omega
    refine ⟨⟨fun c hc => ⟨c, ?_, rfl⟩, fun _ => rfl, ⟨[packet], rfl, ?_⟩⟩, ?_⟩
    · rw [locate_link hs, if_neg (hne id c hc), hc]
    · simp [grantFor_plain hpacket]
    · intro other c hc hother hmode
      rw [locate_link hs] at hc
      split at hc
      · cases hc
        cases hmode
      · exact hapart other c hc hother hmode
  | confirm c remoteId' localWindowSize localPacketSize hc _ =>
    obtain ⟨hne, hremote⟩ := hallowed
    refine ⟨.setChannel hne, hapart.setChannel hc fun _ _ => ?_⟩
    exact hremote _ (locate_setChannel_self hc rfl)
  | forget other hother =>
    have hne : other ≠ id := hallowed
    rw [forget_spec hother]
    refine ⟨⟨fun c hc => ⟨c, (locate_remove_of_ne (Ne.symm hne)).trans hc, rfl⟩, fun streamId => ?_,
      ⟨[], by simp, rfl⟩⟩, ?_⟩
    · show pending (ofStream id streamId) (s.packets.filter fun p => !p.isFor other) = _
      unfold pending
      rw [List.filter_filter]
      congr 1
      apply List.filter_congr
      intro p _
      cases hp : ofStream id streamId p with
      | false => rfl
      | true =>
        have hfor := ofStream_isFor hp
        simp only [Packet.isFor, decide_eq_true_eq] at hfor
        simp [Packet.isFor, hfor.2, Ne.symm hne]
    · intro other' c hc hother' hmode
      by_cases heq : other' = other
      · rw [heq] at hc
        have hnone : locate Channel.localId other (remove Channel.localId other s.channels) = none :=
          locate_remove_self hs.distinct
        exact absurd (hnone.symm.trans hc) (by simp)
      · exact hapart other' c ((locate_remove_of_ne heq).symm.trans hc) hother' hmode
  | widen c n hc hlt =>
    have hne : c.localId ≠ id := fun h => hwiden n (by rw [h])
    have hremote := hallowed hne c hc
    refine ⟨Untouched.trans (.setChannel (by exact hne)) (.same (.transportSend _ _ _) [_] rfl ?_),
      Apart.same ?_ (.transportSend _ _ _)⟩
    · simp [grantFor_other (hs.remote _ c hc) hremote]
    · exact hapart.setChannel hc fun _ _ => hremote
  | copy c streamId buflen rc hc =>
    have hne : c.localId ≠ id := fun h => hcopy streamId _ (by rw [h])
    obtain ⟨-, -, -, -, hother, -, hresult, -⟩ := copyOut_spec hs hc streamId buflen rc
    have hkeep : ∀ streamId', ∀ p, wanted c streamId p = true → ofStream id streamId' p = false := by
      intro streamId' p hp
      have hfor := wanted_isFor hp
      simp only [Packet.isFor, decide_eq_true_eq] at hfor
      simp [ofStream, hfor.2, hne]
    constructor
    · refine ⟨fun d hd => ⟨d, ?_, rfl⟩, fun streamId' => ?_, ⟨[], ?_, rfl⟩⟩
      · rw [hresult]
        exact (locate_setChannel_of_ne (by exact Ne.symm hne)).trans hd
      · exact hother _ (byHeader_ofStream streamId') (hkeep streamId')
      · rw [hresult]
        simp
    · intro other d hd hother hmode
      rw [hresult] at hd
      have hset := Apart.setChannel (d := { c with
        readAvail := c.readAvail - (copyOut s c streamId buflen rc).2.2.length
        windowSize := c.windowSize - (copyOut s c streamId buflen rc).2.2.length }) hapart hc
        fun hc' hm => hapart _ c hc hc' hm
      exact hset other d hd hother hmode
  | mode c mode hc =>
    obtain ⟨hne, hremote⟩ := hallowed
    exact ⟨.setChannel hne, hapart.setChannel hc fun _ _ => hremote c hc⟩
  | send packet hpacket =>
    refine ⟨.same (.transportSend _ _ _) [packet] rfl ?_, hapart.same (.transportSend _ _ _)⟩
    simp [grantFor_plain hpacket]
  | note c localEof localClose hc =>
    exact ⟨.same (.setChannel hc rfl) [] (by simp) rfl, hapart.same (.setChannel hc rfl)⟩

/-- A packet that is not data of the channel either leaves it alone or ends it. -/
theorem added_untouched {c : Channel} (hs : Sound s) (hapart : Apart id remoteId s)
    (hc : s.channelLocate id = some c) (hnormal : c.extendedDataIgnoreMode = .normal) (h : Added s data s')
    (hdata : dataFor id data = false) :
    Apart id remoteId s' ∧ (Untouched id remoteId s s' ∨
      ∃ close, endFor id data = true ∧ s' = s.setChannel { c with eof := true, close := close }) := by
  cases h with
  | same extra hcore hsent hextra =>
    refine ⟨hapart.same hcore, .inl (.same hcore extra hsent ?_)⟩
    have hzero : ∀ packet ∈ extra, grantFor remoteId packet = 0 := fun packet hp => grantFor_plain (hextra packet hp)
    rw [List.map_congr_left hzero]
    simp
  | refunded d n hcore hd hmode hsent =>
    have hne : d.localId ≠ id := by
      intro heq
      rw [heq, hc] at hd
      cases hd
      rw [hnormal] at hmode
      cases hmode
    refine ⟨hapart.same hcore, .inl (.same hcore _ hsent ?_)⟩
    simp [grantFor_other (hs.remote _ d hd) (hapart _ d hd hne hmode)]
  | queued hother =>
    refine ⟨hapart, .inl ⟨fun c hc => ⟨c, hc, rfl⟩, fun streamId => ?_, ⟨[], by simp, rfl⟩⟩⟩
    exact pending_other (by simp [Packet.isFor, hother])
  | ended d close htype hid hd =>
    refine ⟨hapart.setChannel hd fun h hm => hapart _ d hd h hm, ?_⟩
    by_cases hne : d.localId = id
    · subst hne
      rw [hc] at hd
      cases hd
      exact .inr ⟨close, by simp [endFor, hid, htype], rfl⟩
    · exact .inl (.setChannel hne)
  | accepted d extended n htype hid hd _ hhead hn _ =>
    have hne : d.localId ≠ id := by
      rintro rfl
      cases extended <;> simp_all [dataFor, dataHead] <;> omega
    have hp := accepted_packet (n := n) htype hid (by omega) _ rfl
    have hset := Apart.setChannel (d := { d with eof := false, readAvail := d.readAvail + n }) hapart hd
      fun h hm => hapart _ d hd h hm
    refine ⟨hset, .inl ⟨fun e he => ⟨e, ?_, rfl⟩, fun streamId => ?_, ⟨[], by simp, rfl⟩⟩⟩
    · exact (locate_setChannel_of_ne (by exact Ne.symm hne)).trans he
    · refine pending_other ?_
      simp [Packet.isFor, hp.2.1, hne]

end Others

end RemoteSsh.Ssh
