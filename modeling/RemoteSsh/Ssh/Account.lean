import RemoteSsh.Ssh.Channel

/-!
# The account of a channel

What the server may still send is counted in one number, and what is queued in another. No packet of any
server brings them out of step with the queue.
-/

open Lib

namespace RemoteSsh.Ssh

/-! ## What is queued -/

def Packet.isData (p : Packet) : Bool := p.data.head? = some 94 ∨ p.data.head? = some 95

def Packet.isFor (id : Nat) (p : Packet) : Bool := p.isData ∧ u32At p.data 1 = some id

def queuedFor (id : Nat) (packets : List Packet) : Nat :=
  ((packets.filter (Packet.isFor id)).map fun p => p.rest.length).sum

/-- While all sends succeed, no window adjustment is left half done. -/
structure Channel.Idle (c : Channel) : Prop where
  queue : c.adjustQueue = 0
  adjusting : c.adjusting = none
  widening : c.widening = false

structure Sound (s : Session) : Prop where
  distinct : (s.channels.map Channel.localId).Nodup
  fresh : ∀ c ∈ s.channels, c.localId < s.nextChannel
  counted : ∀ id c, s.channelLocate id = some c → c.readAvail = queuedFor id s.packets
  fits : ∀ id c, s.channelLocate id = some c → c.readAvail ≤ c.windowSize ∧ c.windowSize < 2 ^ 32
  idle : ∀ id c, s.channelLocate id = some c → c.Idle
  remote : ∀ id c, s.channelLocate id = some c → c.remoteId < 2 ^ 32
  owned : ∀ p ∈ s.packets, p.isData = true → ∃ id c, u32At p.data 1 = some id ∧ s.channelLocate id = some c

/-! ## Changes that the account does not see -/

/-- A channel without what only the caller looks at. -/
def Channel.core (c : Channel) : Channel :=
  { c with
    localWindowSize := 0
    localPacketSize := 0
    localEof := false
    localClose := false
    exitStatus := 0
    exitSignal := none }

structure SameCore (s s' : Session) : Prop where
  packets : s'.packets = s.packets
  channels : s'.channels.map Channel.core = s.channels.map Channel.core
  nextChannel : s'.nextChannel = s.nextChannel

theorem SameCore.refl (s : Session) : SameCore s s := ⟨rfl, rfl, rfl⟩

theorem SameCore.trans {s s' s'' : Session} (h : SameCore s s') (h' : SameCore s' s'') : SameCore s s'' :=
  ⟨h'.packets.trans h.packets, h'.channels.trans h.channels, h'.nextChannel.trans h.nextChannel⟩

theorem SameCore.symm {s s' : Session} (h : SameCore s s') : SameCore s' s :=
  ⟨h.packets.symm, h.channels.symm, h.nextChannel.symm⟩

theorem SameCore.locate {s s' : Session} (h : SameCore s s') (id : Nat) :
    (s'.channelLocate id).map Channel.core = (s.channelLocate id).map Channel.core := by
  have hid : ∀ c : Channel, c.core.localId = c.localId := fun _ => rfl
  rw [Session.channelLocate, Session.channelLocate, ← locate_map Channel.core hid, ← locate_map Channel.core hid,
    h.channels]

theorem SameCore.locate_some {s s' : Session} (h : SameCore s s') {id : Nat} {c' : Channel}
    (hc : s'.channelLocate id = some c') : ∃ c, s.channelLocate id = some c ∧ c'.core = c.core := by
  have hmap := h.locate id
  rw [hc] at hmap
  obtain ⟨c, hc, heq⟩ := Option.map_eq_some_iff.mp hmap.symm
  exact ⟨c, hc, heq.symm⟩

theorem SameCore.ids {s s' : Session} (h : SameCore s s') :
    s'.channels.map Channel.localId = s.channels.map Channel.localId := by
  have := congrArg (List.map Channel.localId) h.channels
  simpa [List.map_map, Function.comp_def, Channel.core] using this

theorem Channel.core_fields {c c' : Channel} (h : c'.core = c.core) :
    c'.localId = c.localId ∧ c'.remoteId = c.remoteId ∧ c'.windowSize = c.windowSize ∧
      c'.readAvail = c.readAvail ∧ (c.Idle → c'.Idle) := by
  simp only [Channel.core, Channel.mk.injEq] at h
  obtain ⟨hid, hremote, -, hwindow, -, -, -, -, -, -, -, -, havail, hqueue, hadjust, hwiden, -⟩ := h
  exact ⟨hid, hremote, hwindow, havail, fun hidle =>
    ⟨hqueue.trans hidle.queue, hadjust.trans hidle.adjusting, hwiden.trans hidle.widening⟩⟩

theorem Sound.same {s s' : Session} (h : Sound s) (hsame : SameCore s s') : Sound s' where
  distinct := by
    rw [hsame.ids]
    exact h.distinct
  fresh := by
    intro c hc
    have hmem : c.localId ∈ s'.channels.map Channel.localId := List.mem_map_of_mem hc
    rw [hsame.ids] at hmem
    obtain ⟨d, hd, heq⟩ := List.mem_map.mp hmem
    rw [hsame.nextChannel, ← heq]
    exact h.fresh d hd
  counted := by
    intro id c' hc'
    obtain ⟨c, hc, hcore⟩ := hsame.locate_some hc'
    rw [(Channel.core_fields hcore).2.2.2.1, hsame.packets]
    exact h.counted id c hc
  fits := by
    intro id c' hc'
    obtain ⟨c, hc, hcore⟩ := hsame.locate_some hc'
    rw [(Channel.core_fields hcore).2.2.2.1, (Channel.core_fields hcore).2.2.1]
    exact h.fits id c hc
  idle := by
    intro id c' hc'
    obtain ⟨c, hc, hcore⟩ := hsame.locate_some hc'
    exact (Channel.core_fields hcore).2.2.2.2 (h.idle id c hc)
  remote := by
    intro id c' hc'
    obtain ⟨c, hc, hcore⟩ := hsame.locate_some hc'
    rw [(Channel.core_fields hcore).2.1]
    exact h.remote id c hc
  owned := by
    intro p hp hdata
    rw [hsame.packets] at hp
    obtain ⟨id, c, hid, hc⟩ := h.owned p hp hdata
    obtain ⟨c', hc', -⟩ := hsame.symm.locate_some hc
    exact ⟨id, c', hid, hc'⟩

/-! ## Setting a channel -/

section SetChannel

variable {s : Session} {c d : Channel} {id : Nat}

theorem locate_localId (h : s.channelLocate id = some c) : c.localId = id := locate_key h

theorem locate_self (h : s.channelLocate id = some c) : s.channelLocate c.localId = some c := by
  rw [locate_localId h]
  exact h

theorem locate_setChannel_self (h : s.channelLocate id = some c) (hid : d.localId = id) :
    (s.setChannel d).channelLocate id = some d := by
  subst hid
  unfold Session.channelLocate Session.setChannel at *
  rw [locate_update_self fun _ _ => rfl, h]
  rfl

theorem locate_setChannel_of_ne (hne : id ≠ d.localId) :
    (s.setChannel d).channelLocate id = s.channelLocate id :=
  locate_update_of_ne (fun _ _ => rfl) hne

theorem setChannel_setChannel (hid : c.localId = d.localId) : (s.setChannel c).setChannel d = s.setChannel d := by
  unfold Session.setChannel
  rw [hid, update_update fun _ _ => hid]

theorem setChannel_ids : (s.setChannel d).channels.map Channel.localId = s.channels.map Channel.localId :=
  update_keys fun _ _ => rfl

@[simp] theorem setChannel_packets : (s.setChannel d).packets = s.packets := rfl
@[simp] theorem setChannel_nextChannel : (s.setChannel d).nextChannel = s.nextChannel := rfl
@[simp] theorem setChannel_sent : (s.setChannel d).sent = s.sent := rfl
@[simp] theorem setChannel_connected : (s.setChannel d).connected = s.connected := rfl

theorem SameCore.setChannel (h : s.channelLocate d.localId = some c) (hcore : d.core = c.core) :
    SameCore s (s.setChannel d) :=
  ⟨rfl, update_map Channel.core h hcore, rfl⟩

theorem SameCore.transportSend (s : Session) (sendRc : Int) (packet : Bytes) :
    SameCore s (s.transportSend sendRc packet) := by
  unfold Session.transportSend
  split
  · exact ⟨rfl, rfl, rfl⟩
  · exact .refl s

@[simp] theorem locate_transportSend (sendRc : Int) (packet : Bytes) :
    (s.transportSend sendRc packet).channelLocate id = s.channelLocate id := by
  unfold Session.transportSend
  split <;> rfl

theorem setChannel_transportSend (sendRc : Int) (packet : Bytes) :
    (s.transportSend sendRc packet).setChannel d = (s.setChannel d).transportSend sendRc packet := by
  unfold Session.transportSend
  split <;> rfl

theorem transportSend_zero (s : Session) (packet : Bytes) :
    s.transportSend 0 packet = { s with sent := s.sent ++ [packet] } := rfl

end SetChannel

/-! ## What a packet can do -/

/-- Everything that `_libssh2_packet_add` can do to the accounts of a session, and to what was sent about
them. -/
inductive Added (s : Session) (data : Bytes) : Session → Prop
  | same {s' : Session} (extra : List Bytes) (hcore : SameCore s s') (hsent : s'.sent = s.sent ++ extra)
      (hextra : ∀ packet ∈ extra, packet.head? ≠ some 93) : Added s data s'
  | refunded {s' : Session} (c : Channel) (n : Nat) (hcore : SameCore s s')
      (hc : s.channelLocate c.localId = some c) (hmode : c.extendedDataIgnoreMode = .ignore)
      (hsent : s'.sent = s.sent ++ [adjustPacket c.remoteId n]) : Added s data s'
  | queued (hother : (Packet.mk data 0).isData = false) :
      Added s data { s with packets := s.packets ++ [⟨data, 0⟩] }
  | ended (c : Channel) (close : Bool) (htype : data.head? = some 96 ∨ data.head? = some 97)
      (hid : u32At data 1 = some c.localId) (hc : s.channelLocate c.localId = some c) :
      Added s data (s.setChannel { c with eof := true, close := close })
  | accepted (c : Channel) (extended : Bool) (n : Nat) (htype : data.head? = some (if extended then 95 else 94))
      (hid : u32At data 1 = some c.localId) (hc : s.channelLocate c.localId = some c)
      (hmode : c.extendedDataIgnoreMode ≠ .ignore ∨ extended = false)
      (hhead : dataHead extended ≤ data.length)
      (hn : n = min (min (data.length - dataHead extended) c.packetSize) (c.windowSize - c.readAvail))
      (hopen : c.readAvail < c.windowSize) :
      Added s data
        { s.setChannel { c with eof := false, readAvail := c.readAvail + n } with
          packets := s.packets ++ [⟨data.take (dataHead extended + n), dataHead extended⟩] }

theorem Added.unchanged (s : Session) (data : Bytes) : Added s data s :=
  .same [] (.refl s) (by simp) (by simp)

section Cases

variable {s s' : Session} {data : Bytes} {rc : Int}

theorem channelOf_some {size : Nat} {c : Channel} (h : channelOf s size data = some c) :
    size ≤ data.length ∧ u32At data 1 = some c.localId ∧ s.channelLocate c.localId = some c := by
  unfold channelOf at h
  split at h
  next hsize =>
    obtain ⟨id, hid, hc⟩ := Option.bind_eq_some_iff.mp h
    exact ⟨hsize, by rw [locate_localId hc, hid], locate_self hc⟩
  next => cases h

theorem addDebug_cases (h : addDebug s data = some (s', rc)) : s' = s ∧ rc = 0 := by
  unfold addDebug at h
  simp only [Option.bind_eq_bind, Option.pure_def] at h
  split at h
  · obtain ⟨len, -, h⟩ := Option.bind_eq_some_iff.mp h
    split at h
    · obtain ⟨_, -, h⟩ := Option.bind_eq_some_iff.mp h
      simp_all
    · simp_all
  · simp_all

theorem addDisconnect_cases (h : addDisconnect s data = some (s', rc)) :
    s' = { s with connected := false } ∧ rc = errorSocketDisconnect := by
  unfold addDisconnect at h
  simp only [Option.bind_eq_bind, Option.pure_def] at h
  split at h
  · obtain ⟨len, -, h⟩ := Option.bind_eq_some_iff.mp h
    split at h
    · obtain ⟨_, -, h⟩ := Option.bind_eq_some_iff.mp h
      simp_all
    · simp_all
  · simp_all

theorem addGlobalRequest_cases {sendRc : Int} (h : addGlobalRequest s sendRc data = some (s', rc)) :
    (s' = s ∨ s' = s.transportSend sendRc [82]) ∧ rc = 0 := by
  unfold addGlobalRequest at h
  simp only [Option.bind_eq_bind, Option.pure_def] at h
  split at h
  · obtain ⟨len, -, h⟩ := Option.bind_eq_some_iff.mp h
    split at h
    · obtain ⟨wantReply, -, h⟩ := Option.bind_eq_some_iff.mp h
      split at h <;> simp_all
    · simp_all
  · simp_all

theorem addExit_cases {id len : Nat} (h : addExit s data id len = some s') :
    s' = s ∨ ∃ c status signal, s.channelLocate c.localId = some c ∧
      s' = s.setChannel { c with exitStatus := status, exitSignal := signal } := by
  unfold addExit at h
  obtain ⟨isStatus, -, h⟩ := Option.bind_eq_some_iff.mp h
  split at h
  · unfold addExitStatus at h
    split at h
    · simp_all
    next c hc =>
      obtain ⟨status, -, h⟩ := Option.bind_eq_some_iff.mp h
      exact .inr ⟨c, toInt status, c.exitSignal, locate_self hc, (Option.some.inj h).symm⟩
  · obtain ⟨isSignal, -, h⟩ := Option.bind_eq_some_iff.mp h
    split at h
    · unfold addExitSignal at h
      split at h
      · simp_all
      next c hc =>
        obtain ⟨namelen, -, h⟩ := Option.bind_eq_some_iff.mp h
        split at h
        · exact .inr ⟨c, c.exitStatus, some ((data.drop 25).take namelen), locate_self hc,
            (Option.some.inj h).symm⟩
        · cases h
    · simp_all

theorem addRequest_cases {sendRc : Int} (h : addRequest s sendRc data = some (s', rc)) :
    (∃ id len s'', (s'' = s ∨ addExit s data id len = some s'') ∧
      (s' = s'' ∨ s' = s''.transportSend sendRc (100 :: htonu32 id))) ∧ (rc = 0 ∨ rc = sendRc) := by
  unfold addRequest at h
  simp only [Option.bind_eq_bind, Option.pure_def] at h
  split at h
  · obtain ⟨id, -, h⟩ := Option.bind_eq_some_iff.mp h
    obtain ⟨len, -, h⟩ := Option.bind_eq_some_iff.mp h
    obtain ⟨reply, -, h⟩ := Option.bind_eq_some_iff.mp h
    obtain ⟨s'', hexit, h⟩ := Option.bind_eq_some_iff.mp h
    split at h
    · simp only [Option.some.injEq, Prod.mk.injEq] at h
      exact ⟨⟨id, len, s'', .inr hexit, .inr h.1.symm⟩, .inr h.2.symm⟩
    · simp only [Option.some.injEq, Prod.mk.injEq] at h
      exact ⟨⟨id, len, s'', .inr hexit, .inl h.1.symm⟩, .inl h.2.symm⟩
  · simp only [Option.some.injEq, Prod.mk.injEq] at h
    exact ⟨⟨0, 0, s, .inl rfl, .inl h.1.symm⟩, .inl h.2.symm⟩

theorem addOpen_cases {sendRc : Int} (h : addOpen s sendRc data = some (s', rc)) :
    (s' = s ∨ ∃ id code text, s' = s.transportSend sendRc (openFailure id code text)) ∧ (rc = 0 ∨ rc = sendRc) := by
  unfold addOpen at h
  split at h
  · simp_all
  · split at h
    · unfold packetQueueListener at h
      obtain ⟨id, -, h⟩ := Option.bind_eq_some_iff.mp h
      iterate 6 obtain ⟨_, -, h⟩ := Option.bind_eq_some_iff.mp h
      simp only [Option.pure_def, Option.some.injEq, Prod.mk.injEq] at h
      exact ⟨.inr ⟨id, 1, _, h.1.symm⟩, .inr h.2.symm⟩
    · split at h
      · unfold packetX11Open at h
        obtain ⟨id, -, h⟩ := Option.bind_eq_some_iff.mp h
        iterate 4 obtain ⟨_, -, h⟩ := Option.bind_eq_some_iff.mp h
        simp only [Option.pure_def, Option.some.injEq, Prod.mk.injEq] at h
        exact ⟨.inr ⟨id, 4, _, h.1.symm⟩, .inr h.2.symm⟩
      · simp_all

end Cases


section Data

variable {s : Session} {c : Channel} {data : Bytes} {extended : Bool}

theorem sub32_of_le {a b : Nat} (hba : b ≤ a) (ha : a < 2 ^ 32) : sub32 a b = a - b := by
  unfold sub32
  omega

theorem u32_of_lt {n : Nat} (h : n < 2 ^ 32) : u32 n = n := Nat.mod_eq_of_lt h

/-- The window loses what is dropped and gets it back at once. -/
theorem dropExtended_spec (hs : Sound s) (hc : s.channelLocate c.localId = some c)
    (hmode : c.extendedDataIgnoreMode = .ignore) (n : Nat) : Added s data (dropExtended s 0 c n).1 := by
  obtain ⟨hfits, hlt⟩ := hs.fits _ c hc
  have hidle := hs.idle _ c hc
  unfold dropExtended
  rw [sub32_of_le hfits hlt]
  extract_lets m d
  have hm : m ≤ c.windowSize - c.readAvail := by
    simp only [m]
    split <;> omega
  have hd : d.windowSize = c.windowSize - m := sub32_of_le (by omega) hlt
  have hset : (s.setChannel d).channelLocate c.localId = some d := locate_setChannel_self hc rfl
  have hqueue : d.adjustQueue = 0 := hidle.queue
  have hadjusting : d.adjusting = none := hidle.adjusting
  unfold receiveWindowAdjust
  rw [hadjusting]
  simp only [Bool.true_eq_false, false_and, if_false, hqueue, and_true, Nat.add_zero]
  split
  next hzero =>
    have hsame : d.core = c.core := by
      have hwindow : d.windowSize = c.windowSize := by omega
      rw [show d = { c with windowSize := d.windowSize } from rfl, hwindow]
    exact .same [] (.setChannel hc hsame) (by simp) (by simp)
  next hpos =>
    rw [u32_of_lt (by omega)]
    have hback : u32 (d.windowSize + m) = c.windowSize := by
      rw [hd, u32_of_lt (by omega)]
      omega
    unfold sendAdjust
    simp only [if_true, hback]
    rw [setChannel_setChannel (by rfl)]
    refine .refunded c m (SameCore.trans ?_ (.transportSend _ _ _)) hc hmode rfl
    exact SameCore.setChannel hc (by simp [Channel.core, d, hidle.queue, hidle.adjusting])

theorem addData_cases (hs : Sound s) (extended : Bool) (data : Bytes) (htype : data.head? = some (if extended then 95 else 94)) :
    Added s data (addData s 0 extended data).1 := by
  unfold addData
  split
  · exact .unchanged s data
  next c hof =>
    obtain ⟨hhead, hid, hc⟩ := channelOf_some hof
    obtain ⟨hfits, hlt⟩ := hs.fits _ c hc
    extract_lets n m k t
    split
    next hignore => exact dropExtended_spec hs hc hignore.1 n
    next hkeep =>
      split
      · exact .unchanged s data
      next hopen =>
        have hm : m = min n c.packetSize := by
          simp only [m]
          split <;> omega
        have hk : k = min (min n c.packetSize) (c.windowSize - c.readAvail) := by
          simp only [k, hm, sub32_of_le hfits hlt]
          split <;> omega
        have hmode : c.extendedDataIgnoreMode ≠ .ignore ∨ extended = false := by
          rcases not_and_or.mp hkeep with h | h
          · exact .inl h
          · exact .inr (by simpa using h)
        have := Added.accepted c extended k htype hid hc hmode hhead hk (by omega)
        simpa only [t, setChannel_packets, u32_of_lt (show c.readAvail + k < 2 ^ 32 by omega)] using this

/-- Data that keeps to the window and to the packet size is queued as it is. -/
theorem addData_whole (hs : Sound s) (hof : channelOf s (dataHead extended) data = some c)
    (hmode : c.extendedDataIgnoreMode ≠ .ignore ∨ extended = false)
    (hsize : data.length - dataHead extended ≤ c.packetSize)
    (hwindow : c.readAvail + (data.length - dataHead extended) ≤ c.windowSize) (hopen : c.readAvail < c.windowSize) :
    addData s 0 extended data =
      ({ s.setChannel { c with eof := false, readAvail := c.readAvail + (data.length - dataHead extended) } with
        packets := s.packets ++ [⟨data, dataHead extended⟩] }, 0) := by
  obtain ⟨hhead, -, hc⟩ := channelOf_some hof
  obtain ⟨-, hlt⟩ := hs.fits _ c hc
  unfold addData
  rw [hof]
  have hkeep : ¬(c.extendedDataIgnoreMode = .ignore ∧ extended = true) := by
    rintro ⟨hignore, hext⟩
    rcases hmode with h | h
    · exact h hignore
    · rw [h] at hext
      cases hext
  simp only [if_neg hkeep, if_neg (show ¬c.packetSize < data.length - dataHead extended by omega),
    if_neg (show ¬c.windowSize ≤ c.readAvail by omega),
    if_neg (show ¬c.windowSize < c.readAvail + (data.length - dataHead extended) by omega)]
  rw [u32_of_lt (by omega), Nat.add_sub_cancel' hhead, List.take_length]
  rfl

end Data

theorem head_of_ofByte {b : UInt8} {m : Msg} (h : Msg.ofByte b = m) :
    (m = .channelData → b = 94) ∧ (m = .channelExtendedData → b = 95) ∧ (m = .channelEof → b = 96) ∧
      (m = .channelClose → b = 97) ∧ (m = .other → b ≠ 94 ∧ b ≠ 95) := by
  unfold Msg.ofByte at h
  split_ifs at h <;> subst h <;> simp_all

theorem packetAdd_cases {s s' : Session} {macOk : Bool} {data : Bytes} {rc : Int} (hs : Sound s)
    (h : packetAdd s 0 macOk data = some (s', rc)) : Added s data s' := by
  unfold packetAdd at h
  split at h
  · cases h
  next type rest =>
    split at h
    · simp only [Option.some.injEq, Prod.mk.injEq] at h
      rw [← h.1]
      exact .unchanged s _
    next =>
      have htype := head_of_ofByte (rfl : Msg.ofByte type = Msg.ofByte type)
      cases hmsg : Msg.ofByte type with
      | disconnect =>
        rw [hmsg] at h
        rw [(addDisconnect_cases h).1]
        exact .same [] ⟨rfl, rfl, rfl⟩ (by simp) (by simp)
      | ignore =>
        simp only [hmsg, Option.some.injEq, Prod.mk.injEq] at h
        rw [← h.1]
        exact .unchanged s _
      | debug =>
        rw [hmsg] at h
        rw [(addDebug_cases h).1]
        exact .unchanged s _
      | globalRequest =>
        rw [hmsg] at h
        rcases (addGlobalRequest_cases h).1 with rfl | rfl
        · exact .unchanged _ _
        · exact .same [[82]] (.transportSend _ _ _) rfl (by simp)
      | channelOpen =>
        rw [hmsg] at h
        rcases (addOpen_cases h).1 with rfl | ⟨id, code, text, rfl⟩
        · exact .unchanged _ _
        · exact .same [openFailure id code text] (.transportSend _ _ _) rfl (by simp [openFailure])
      | channelWindowAdjust =>
        simp only [hmsg, Option.some.injEq] at h
        unfold addWindowAdjust at h
        split at h
        next c _ hof _ =>
          simp only [Prod.mk.injEq] at h
          rw [← h.1]
          exact .same [] (.setChannel (channelOf_some hof).2.2 rfl) (by simp) (by simp)
        next =>
          simp only [Prod.mk.injEq] at h
          rw [← h.1]
          exact .unchanged s _
      | channelData =>
        simp only [hmsg, Option.some.injEq] at h
        have := addData_cases hs false (type :: rest) (by simp [htype.1 hmsg])
        rwa [h] at this
      | channelExtendedData =>
        simp only [hmsg, Option.some.injEq] at h
        have := addData_cases hs true (type :: rest) (by simp [htype.2.1 hmsg])
        rwa [h] at this
      | channelEof =>
        simp only [hmsg, Option.some.injEq] at h
        unfold addEof at h
        split at h
        next =>
          simp only [Prod.mk.injEq] at h
          rw [← h.1]
          exact .unchanged s _
        next c hof =>
          simp only [Prod.mk.injEq] at h
          rw [← h.1]
          exact .ended c c.close (.inl (by simp [htype.2.2.1 hmsg])) (channelOf_some hof).2.1 (channelOf_some hof).2.2
      | channelClose =>
        simp only [hmsg, Option.some.injEq] at h
        unfold addClose at h
        split at h
        next =>
          simp only [Prod.mk.injEq] at h
          rw [← h.1]
          exact .unchanged s _
        next c hof =>
          simp only [Prod.mk.injEq] at h
          rw [← h.1]
          exact .ended c true (.inr (by simp [htype.2.2.2.1 hmsg])) (channelOf_some hof).2.1 (channelOf_some hof).2.2
      | channelRequest =>
        rw [hmsg] at h
        obtain ⟨⟨id, len, t, ht, hsend⟩, -⟩ := addRequest_cases h
        have hcore : SameCore s t ∧ t.sent = s.sent := by
          rcases ht with rfl | hexit
          · exact ⟨.refl _, rfl⟩
          · rcases addExit_cases hexit with rfl | ⟨c, status, signal, hc, rfl⟩
            · exact ⟨.refl _, rfl⟩
            · exact ⟨.setChannel hc rfl, rfl⟩
        rcases hsend with rfl | rfl
        · exact .same [] hcore.1 (by simp [hcore.2]) (by simp)
        · refine .same [100 :: htonu32 id] (hcore.1.trans (.transportSend _ _ _)) ?_ (by simp)
          rw [transportSend_zero, hcore.2]
      | other =>
        simp only [hmsg, Option.some.injEq, Prod.mk.injEq] at h
        rw [← h.1]
        exact .queued (by simpa [Packet.isData] using htype.2.2.2.2 hmsg)


/-! ## The accounts stay sound -/

section Keeps

variable {s : Session} {c : Channel} {id : Nat} {p : Packet} {packets : List Packet}

@[simp] theorem queuedFor_nil : queuedFor id [] = 0 := rfl

theorem queuedFor_cons : queuedFor id (p :: packets) =
    (if p.isFor id then p.rest.length else 0) + queuedFor id packets := by
  unfold queuedFor
  by_cases h : p.isFor id = true
  · simp [h]
  · simp [h]

theorem queuedFor_append (packets' : List Packet) :
    queuedFor id (packets ++ packets') = queuedFor id packets + queuedFor id packets' := by
  simp [queuedFor]

theorem queuedFor_other (h : p.isData = false) : queuedFor id [p] = 0 := by
  simp [queuedFor_cons, Packet.isFor, h]

/-- The packet that `addData` queues. -/
theorem accepted_packet {data : Bytes} {extended : Bool} {n id : Nat}
    (htype : data.head? = some (if extended then 95 else 94)) (hid : u32At data 1 = some id)
    (hn : dataHead extended + n ≤ data.length) (p : Packet)
    (hp : p = ⟨data.take (dataHead extended + n), dataHead extended⟩) :
    p.isData = true ∧ u32At p.data 1 = some id ∧ p.data.head? = some (if extended then 95 else 94) ∧
      p.rest = (data.drop (dataHead extended)).take n := by
  subst hp
  have hhead : 9 ≤ dataHead extended := by
    unfold dataHead
    split <;> omega
  have hfirst : (data.take (dataHead extended + n)).head? = some (if extended then 95 else 94) := by
    rw [List.head?_take, if_neg (by omega), htype]
  refine ⟨?_, ?_, hfirst, ?_⟩
  · rw [Packet.isData, hfirst]
    cases extended <;> rfl
  · rw [u32At_take _ _ _ (by omega), hid]
  · rw [Packet.rest, List.drop_take, Nat.add_sub_cancel_left]

/-- A step that changes one channel and the queue. -/
theorem Sound.change {d : Channel} {packets : List Packet} (hs : Sound s)
    (hc : s.channelLocate c.localId = some c) (hdid : d.localId = c.localId)
    (hcount : d.readAvail = queuedFor c.localId packets) (hfit : d.readAvail ≤ d.windowSize)
    (hlt : d.windowSize < 2 ^ 32) (hidle : d.Idle) (hremote : d.remoteId < 2 ^ 32)
    (hothers : ∀ id, id ≠ c.localId → queuedFor id packets = queuedFor id s.packets)
    (howned : ∀ p ∈ packets, p.isData = true → ∃ id e, u32At p.data 1 = some id ∧ s.channelLocate id = some e) :
    Sound { s.setChannel d with packets := packets } := by
  have hself : (s.setChannel d).channelLocate c.localId = some d := locate_setChannel_self hc hdid
  have hother (id : Nat) (hne : id ≠ c.localId) : (s.setChannel d).channelLocate id = s.channelLocate id :=
    locate_setChannel_of_ne (by rwa [hdid])
  refine ⟨?_, ?_, ?_, ?_, ?_, ?_, ?_⟩
  · show ((s.setChannel d).channels.map Channel.localId).Nodup
    rw [setChannel_ids]
    exact hs.distinct
  · intro e he
    have hmem : e.localId ∈ (s.setChannel d).channels.map Channel.localId := List.mem_map_of_mem he
    rw [setChannel_ids] at hmem
    obtain ⟨f, hf, heq⟩ := List.mem_map.mp hmem
    exact heq ▸ hs.fresh f hf
  · intro id e (he : (s.setChannel d).channelLocate id = some e)
    show e.readAvail = queuedFor id packets
    by_cases hne : id = c.localId
    · subst hne
      rw [hself] at he
      cases he
      exact hcount
    · rw [hother id hne] at he
      rw [hothers id hne]
      exact hs.counted id e he
  · intro id e (he : (s.setChannel d).channelLocate id = some e)
    by_cases hne : id = c.localId
    · subst hne
      rw [hself] at he
      cases he
      exact ⟨hfit, hlt⟩
    · rw [hother id hne] at he
      exact hs.fits id e he
  · intro id e (he : (s.setChannel d).channelLocate id = some e)
    by_cases hne : id = c.localId
    · subst hne
      rw [hself] at he
      cases he
      exact hidle
    · rw [hother id hne] at he
      exact hs.idle id e he
  · intro id e (he : (s.setChannel d).channelLocate id = some e)
    by_cases hne : id = c.localId
    · subst hne
      rw [hself] at he
      cases he
      exact hremote
    · rw [hother id hne] at he
      exact hs.remote id e he
  · intro p hp hdata
    obtain ⟨id, e, hid, he⟩ := howned p hp hdata
    by_cases hne : id = c.localId
    · exact ⟨id, d, hid, hne ▸ hself⟩
    · exact ⟨id, e, hid, (hother id hne).trans he⟩

/-- A step that changes one channel only. -/
theorem Sound.setChannel {d : Channel} (hs : Sound s) (hc : s.channelLocate c.localId = some c)
    (hdid : d.localId = c.localId) (havail : d.readAvail = c.readAvail) (hfit : c.readAvail ≤ d.windowSize)
    (hlt : d.windowSize < 2 ^ 32) (hidle : d.Idle) (hremote : d.remoteId < 2 ^ 32) : Sound (s.setChannel d) :=
  hs.change hc hdid (havail.trans (hs.counted _ c hc)) (by omega) hlt hidle hremote (fun _ _ => rfl) hs.owned

theorem Sound.queued {data : Bytes} (hs : Sound s) (hother : (Packet.mk data 0).isData = false) :
    Sound { s with packets := s.packets ++ [⟨data, 0⟩] } where
  distinct := hs.distinct
  fresh := hs.fresh
  counted := by
    intro id e he
    show e.readAvail = queuedFor id (s.packets ++ [⟨data, 0⟩])
    rw [queuedFor_append, queuedFor_other hother]
    exact hs.counted id e he
  fits := hs.fits
  idle := hs.idle
  remote := hs.remote
  owned := by
    intro p hp hdata
    rcases List.mem_append.mp hp with hp | hp
    · exact hs.owned p hp hdata
    · rw [List.mem_singleton.mp hp, hother] at hdata
      cases hdata

theorem Sound.accepted {n : Nat} (hs : Sound s) (hc : s.channelLocate c.localId = some c)
    (hfit : c.readAvail + n ≤ c.windowSize) (hdata : p.isData = true) (hid : u32At p.data 1 = some c.localId)
    (hrest : p.rest.length = n) :
    Sound { s.setChannel { c with eof := false, readAvail := c.readAvail + n } with
      packets := s.packets ++ [p] } := by
  obtain ⟨-, hlt⟩ := hs.fits _ c hc
  have hidle := hs.idle _ c hc
  refine hs.change hc rfl ?_ hfit hlt ⟨hidle.queue, hidle.adjusting, hidle.widening⟩ (hs.remote _ c hc) ?_ ?_
  · have hcount := hs.counted _ c hc
    simp [queuedFor_append, queuedFor_cons, Packet.isFor, hdata, hid, hrest, hcount]
  · intro id hne
    simp [queuedFor_append, queuedFor_cons, Packet.isFor, hdata, hid, Ne.symm hne]
  · intro q hq hqdata
    rcases List.mem_append.mp hq with hq | hq
    · exact hs.owned q hq hqdata
    · rw [List.mem_singleton.mp hq]
      exact ⟨c.localId, c, hid, hc⟩

theorem Sound.added {s' : Session} {data : Bytes} (hs : Sound s) (h : Added s data s') : Sound s' := by
  cases h with
  | same extra hcore _ _ => exact hs.same hcore
  | refunded c n hcore _ _ _ => exact hs.same hcore
  | queued hother => exact hs.queued hother
  | ended c close _ _ hc =>
    obtain ⟨hfit, hlt⟩ := hs.fits _ c hc
    have hidle := hs.idle _ c hc
    exact hs.setChannel hc rfl rfl hfit hlt ⟨hidle.queue, hidle.adjusting, hidle.widening⟩ (hs.remote _ c hc)
  | accepted c extended n htype hid hc _ hhead hn hopen =>
    have hfit : c.readAvail + n ≤ c.windowSize := by omega
    have hp := accepted_packet (n := n) htype hid (by omega) _ rfl
    refine hs.accepted hc hfit hp.1 hp.2.1 ?_
    rw [hp.2.2.2, List.length_take, List.length_drop]
    omega

/-- Whatever a server sends, the accounts stay sound. -/
theorem packetAdd_sound {s' : Session} {macOk : Bool} {data : Bytes} {rc : Int} (hs : Sound s)
    (h : packetAdd s 0 macOk data = some (s', rc)) : Sound s' :=
  hs.added (packetAdd_cases hs h)

end Keeps

end RemoteSsh.Ssh
