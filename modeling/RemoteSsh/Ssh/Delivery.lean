import RemoteSsh.Ssh.Flow

/-!
# No byte of a channel is lost

The server keeps to the window of one channel. Whatever the order of the steps, the bytes of this channel
are read, queued or on their way, in the order in which they were written.
-/

open Lib

namespace RemoteSsh.Ssh

/-! ## Where the bytes are -/


/-- Where the bytes and the credit of the channel are. -/
structure Own (id remoteId size : Nat) (n : Net) (c : Channel) : Prop where
  located : n.session.channelLocate id = some c
  remote : c.remoteId = remoteId
  packetSize : c.packetSize = size
  normal : c.extendedDataIgnoreMode = .normal
  window : c.windowSize = c.readAvail + (n.wire.map (sizeFor id)).sum + n.credit +
    ((n.session.sent.drop n.heard).map (grantFor remoteId)).sum
  heard : n.heard ≤ n.session.sent.length
  streams : ∀ streamId, n.got streamId ++ pending (ofStream id streamId) n.session.packets ++
    n.wire.flatMap (payloadFor id streamId) = n.written streamId
  small : ∀ data ∈ n.wire, sizeFor id data ≤ size
  ended : c.eof = true ∨ c.close = true ∨ (∃ data ∈ n.wire, endFor id data = true) → n.ended = true
  last : c.eof = true ∨ c.close = true → ∀ data ∈ n.wire, dataFor id data = false
  ordered : ∀ before data after, n.wire = before ++ data :: after → endFor id data = true →
    ∀ data' ∈ after, dataFor id data' = false

structure Flowing (id remoteId size : Nat) (n : Net) : Prop where
  sound : Sound n.session
  apart : Apart id remoteId n.session
  own : ∃ c, Own id remoteId size n c

section Flowing

variable {id remoteId size : Nat} {n : Net}

theorem sizeFor_of_not (data : Bytes) (h : dataFor id data = false) : sizeFor id data = 0 := by simp [sizeFor, h]

theorem payloadFor_of_not (data : Bytes) (streamId : Int) (h : dataFor id data = false) :
    payloadFor id streamId data = [] := by simp [payloadFor, h]

theorem wanted_eq {c : Channel} (hc : c.localId = id) (hnormal : c.extendedDataIgnoreMode = .normal) (streamId : Int) :
    wanted c streamId = ofStream id streamId := by
  funext p
  simp [wanted, ofStream, hc, hnormal]

/-- Steps that do not touch the channel keep its account. -/
theorem Own.untouched {c : Channel} {s' : Session} (h : Own id remoteId size n c)
    (hu : Untouched id remoteId n.session s') :
    ∃ c', Own id remoteId size { n with session := s' } c' := by
  obtain ⟨c', hc', hcore⟩ := hu.channel c h.located
  obtain ⟨extra, hsent, hextra⟩ := hu.sent
  simp only [Channel.core, Channel.mk.injEq] at hcore
  obtain ⟨-, hremote, -, hwindow, hsize, -, -, hmode, heof, hclose, -, -, havail, -⟩ := hcore
  refine ⟨c', hc', hremote.trans h.remote, hsize.trans h.packetSize, hmode.trans h.normal, ?_, ?_, ?_, h.small, ?_, ?_,
    h.ordered⟩
  · simp only
    rw [hwindow, havail, h.window, hsent, List.drop_append_of_le_length h.heard, List.map_append, List.sum_append,
      hextra, Nat.add_zero]
  · simp only
    rw [hsent, List.length_append]
    have := h.heard
    omega
  · intro streamId
    simp only
    rw [hu.pending]
    exact h.streams streamId
  · simp only
    rw [heof, hclose]
    exact h.ended
  · simp only
    rw [heof, hclose]
    exact h.last

theorem Own.widen {c : Channel} (hs : Sound n.session) (h : Own id remoteId size n c) {k : Nat}
    (hlt : c.windowSize + k < 2 ^ 32) :
    ∃ c', Own id remoteId size { n with session := n.session.widened c k } c' := by
  have hid := locate_localId h.located
  have hc := locate_self h.located
  have hgrant : grantFor remoteId (adjustPacket c.remoteId k) = k := by
    rw [← h.remote]
    exact grantFor_adjust (hs.remote _ c hc) (by omega)
  refine ⟨{ c with windowSize := c.windowSize + k }, ?_, h.remote, h.packetSize, h.normal, ?_, ?_,
    h.streams, h.small, h.ended, h.last, h.ordered⟩
  · rw [← hid]
    exact (locate_transportSend _ _).trans (locate_setChannel_self hc rfl)
  · simp only [Session.widened, transportSend_zero, setChannel_sent]
    rw [List.drop_append_of_le_length h.heard, List.map_append, List.sum_append, h.window]
    simp [hgrant]
    omega
  · simp only [Session.widened, transportSend_zero, setChannel_sent, List.length_append]
    have := h.heard
    omega

theorem Own.copy {c : Channel} (hs : Sound n.session) (h : Own id remoteId size n c) (streamId : Int) (buflen : Nat)
    (rc : Int) :
    ∃ c', Own id remoteId size
      { n with
        session := (copyOut n.session c streamId buflen rc).1
        got := fun stream => n.got stream ++
          readBy id stream (.copy id streamId (copyOut n.session c streamId buflen rc).2.2) } c' := by
  have hid := locate_localId h.located
  have hc := locate_self h.located
  obtain ⟨-, hpaid, hfront, -, hother, -, hresult, -⟩ :=
    copyOut_spec hs hc streamId buflen rc
  have hwanted := wanted_eq hid h.normal
  rw [hwanted] at hfront hother
  generalize (copyOut n.session c streamId buflen rc).1 = s' at *
  generalize (copyOut n.session c streamId buflen rc).2.2 = bytes at *
  have hsent : s'.sent = n.session.sent := by
    rw [hresult]
    rfl
  refine ⟨{ c with readAvail := c.readAvail - bytes.length, windowSize := c.windowSize - bytes.length }, ?_, h.remote,
    h.packetSize, h.normal, ?_, ?_, ?_, h.small, h.ended, h.last, h.ordered⟩
  · simp only
    rw [hresult, ← hid]
    exact locate_setChannel_self hc rfl
  · simp only
    rw [hsent, h.window]
    omega
  · simp only
    rw [hsent]
    exact h.heard
  · intro stream
    simp only [readBy, true_and]
    rw [← h.streams stream]
    by_cases hstream : streamId = stream
    · subst hstream
      rw [if_pos rfl, ← hfront]
      simp
    · rw [if_neg hstream, hother _ (byHeader_ofStream stream) ?_]
      · simp
      · intro p hp
        simp only [ofStream, decide_eq_true_eq] at hp
        simp only [ofStream, decide_eq_false_iff_not]
        grind

theorem dataFor_spec {data : Bytes} (h : dataFor id data = true) :
    ∃ extended : Bool, data.head? = some (if extended then 95 else 94) ∧ dataHead extended ≤ data.length ∧
      u32At data 1 = some id ∧ sizeFor id data = data.length - dataHead extended ∧
      (∀ streamId, payloadFor id streamId data =
        pending (ofStream id streamId) [⟨data, dataHead extended⟩]) ∧
      ∀ s, packetAdd s 0 true data = some (addData s 0 extended data) := by
  have hsize : sizeFor id data = data.length - dataHead (data.head? = some 95) := by rw [sizeFor, if_pos h]
  have hpayload (streamId : Int) : payloadFor id streamId data =
      if data.head? = some 94 then if streamId = 0 then data.drop 9 else []
      else if streamId ≠ 0 ∧ (u32At data 5).map toInt = some streamId then data.drop 13 else [] := by
    rw [payloadFor, if_pos h]
  simp only [dataFor, decide_eq_true_eq] at h
  obtain ⟨hid, ⟨hhead, hlength⟩ | ⟨hhead, hlength⟩⟩ := h
  · refine ⟨false, hhead, hlength, hid, by simpa [hhead] using hsize, fun streamId => ?_, fun s => ?_⟩
    · rw [hpayload, if_pos hhead]
      by_cases hzero : streamId = 0
      · rw [pending_cons_pos (by simp [ofStream, hid, hhead, hzero])]
        simp [hzero, Packet.rest, dataHead]
      · rw [pending_cons_neg (by simp [ofStream, hhead, hzero])]
        simp [hzero]
    · obtain ⟨tail, rfl⟩ := List.head?_eq_some_iff.mp hhead
      rfl
  · refine ⟨true, hhead, hlength, hid, by simpa [hhead] using hsize, fun streamId => ?_, fun s => ?_⟩
    · rw [hpayload, if_neg (by simp [hhead])]
      by_cases hstream : streamId ≠ 0 ∧ (u32At data 5).map toInt = some streamId
      · rw [if_pos hstream, pending_cons_pos (by simp [ofStream, hid, hhead, hstream])]
        simp [Packet.rest, dataHead]
      · have hno : ofStream id streamId ⟨data, dataHead true⟩ = false := by
          simp only [ofStream, decide_eq_false_iff_not]
          grind
        rw [if_neg hstream, pending_cons_neg hno]
        rfl
    · obtain ⟨tail, rfl⟩ := List.head?_eq_some_iff.mp hhead
      rfl

/-- What the rest of the wire keeps of the order. -/
theorem ordered_tail {wire rest : List Bytes} {data : Bytes} (hwire : wire = data :: rest)
    (h : ∀ before data after, wire = before ++ data :: after → endFor id data = true →
      ∀ data' ∈ after, dataFor id data' = false) :
    ∀ before data after, rest = before ++ data :: after → endFor id data = true →
      ∀ data' ∈ after, dataFor id data' = false := by
  intro before data' after hrest
  exact h (data :: before) data' after (by rw [hwire, hrest]; rfl)

/-- A packet of the channel's data is queued whole. -/
theorem Own.deliver {c : Channel} {data : Bytes} {rest : List Bytes} {s' : Session} {rc : Int}
    (hs : Sound n.session) (h : Own id remoteId size n c) (hwire : n.wire = data :: rest)
    (hdata : dataFor id data = true) (hadd : packetAdd n.session 0 true data = some (s', rc)) :
    (∃ c', Own id remoteId size { n with session := s', wire := rest } c') ∧
      (Apart id remoteId n.session → Apart id remoteId s') := by
  have hid := locate_localId h.located
  have hc := locate_self h.located
  obtain ⟨extended, htype, hhead, hat, hsize, hpayload, hdirect⟩ := dataFor_spec hdata
  have hsmall := h.small data (by simp [hwire])
  have hwindow := h.window
  have hsum : (n.wire.map (sizeFor id)).sum = sizeFor id data + (rest.map (sizeFor id)).sum := by simp [hwire]
  have hof : channelOf n.session (dataHead extended) data = some c := by
    rw [channelOf, if_pos hhead, hat]
    exact h.located
  have hended (eof : Bool) (heof : eof = true → c.eof = true) :
      (eof = true ∨ c.close = true ∨ (∃ data ∈ rest, endFor id data = true) → n.ended = true) ∧
        (eof = true ∨ c.close = true → ∀ data ∈ rest, dataFor id data = false) := by
    constructor
    · rintro (hflag | hflag | ⟨data', hmem, hend⟩)
      · exact h.ended (.inl (heof hflag))
      · exact h.ended (.inr (.inl hflag))
      · exact h.ended (.inr (.inr ⟨data', by simp [hwire, hmem], hend⟩))
    · intro hflag data' hmem
      exact h.last (hflag.imp_left heof) data' (by simp [hwire, hmem])
  rw [hdirect] at hadd
  by_cases hopen : c.readAvail < c.windowSize
  · have hwhole := addData_whole hs hof (.inl (by rw [h.normal]; decide)) (by rw [← hsize, h.packetSize]; exact hsmall)
      (by rw [← hsize]; omega) hopen
    rw [hwhole] at hadd
    simp only [Option.some.injEq, Prod.mk.injEq] at hadd
    obtain ⟨rfl, -⟩ := hadd
    constructor
    · refine ⟨{ c with eof := false, readAvail := c.readAvail + (data.length - dataHead extended) }, ?_, h.remote,
        h.packetSize, h.normal, ?_, h.heard, ?_, ?_, ?_, ?_, ordered_tail hwire h.ordered⟩
      · rw [← hid]
        exact locate_setChannel_self hc rfl
      · simp only [setChannel_sent]
        omega
      · intro streamId
        have := h.streams streamId
        rw [hwire, List.flatMap_cons, hpayload] at this
        simp only
        rw [pending_append, ← this]
        simp
      · intro data' hmem
        exact h.small data' (by simp [hwire, hmem])
      · exact (hended false nofun).1
      · exact (hended false nofun).2
    · intro hapart
      exact hapart.setChannel hc fun hne => absurd hid hne
  · -- The window is used up, so the packet has no bytes.
    have hempty : data.drop (dataHead extended) = [] := List.length_eq_zero_iff.mp (by rw [List.length_drop]; omega)
    have hsame : addData n.session 0 extended data = (n.session, 0) := by
      unfold addData
      rw [hof]
      have hkeep : ¬(c.extendedDataIgnoreMode = .ignore ∧ extended = true) := by
        rw [h.normal]
        simp
      simp only [if_neg hkeep, if_pos (Nat.not_lt.mp hopen)]
    rw [hsame] at hadd
    simp only [Option.some.injEq, Prod.mk.injEq] at hadd
    obtain ⟨rfl, -⟩ := hadd
    refine ⟨⟨c, h.located, h.remote, h.packetSize, h.normal, ?_, h.heard, ?_, ?_, (hended c.eof fun h => h).1,
      (hended c.eof fun h => h).2, ordered_tail hwire h.ordered⟩, fun h => h⟩
    · simp only
      omega
    · intro streamId
      have := h.streams streamId
      rw [hwire, List.flatMap_cons, hpayload] at this
      have hnil : pending (ofStream id streamId) [⟨data, dataHead extended⟩] = [] := by
        cases hp : ofStream id streamId ⟨data, dataHead extended⟩ with
        | false => rw [pending_cons_neg hp, pending_nil]
        | true =>
          rw [pending_cons_pos hp, pending_nil, List.append_nil]
          exact hempty
      rwa [hnil, List.nil_append] at this
    · intro data' hmem
      exact h.small data' (by simp [hwire, hmem])

end Flowing

section Steps

variable {id remoteId size : Nat} {n n' : Net}

theorem ordered_append {wire : List Bytes} {new : Bytes}
    (h : ∀ before data after, wire = before ++ data :: after → endFor id data = true →
      ∀ data' ∈ after, dataFor id data' = false)
    (hnew : dataFor id new = true → ∀ data ∈ wire, endFor id data = false) :
    ∀ before data after, wire ++ [new] = before ++ data :: after → endFor id data = true →
      ∀ data' ∈ after, dataFor id data' = false := by
  intro before data after hsplit hend data' hdata'
  rcases List.eq_nil_or_concat' after with rfl | ⟨front, last, rfl⟩
  · cases hdata'
  · have hconcat : wire ++ [new] = (before ++ data :: front) ++ [last] := by simpa using hsplit
    obtain ⟨hwire, hlast⟩ := List.append_inj' hconcat rfl
    obtain rfl := List.singleton_inj.mp hlast
    rcases List.mem_append.mp hdata' with hmem | hmem
    · exact h before data front hwire hend data' hmem
    · rw [List.mem_singleton.mp hmem]
      cases hd : dataFor id new with
      | false => rfl
      | true =>
        have := hnew hd data (by simp [hwire])
        rw [hend] at this
        cases this

theorem Flowing.client {l : Label} {s' : Session} (h : Flowing id remoteId size n) (hsmall : Small n.session l s')
    (hallowed : Allowed id remoteId n.session l s') :
    Flowing id remoteId size { n with session := s', got := fun stream => n.got stream ++ readBy id stream l } := by
  obtain ⟨hs, hapart, c, hown⟩ := h
  have hsound := hs.small hsmall
  have hc := locate_self hown.located
  obtain rfl := locate_localId hown.located
  by_cases hcopy : ∃ streamId bytes, l = .copy c.localId streamId bytes
  · obtain ⟨streamId, bytes, rfl⟩ := hcopy
    generalize hl : Label.copy c.localId streamId bytes = l at hsmall
    cases hsmall with
    | copy d stream buflen rc hd =>
      obtain ⟨heq, rfl, rfl⟩ := Label.copy.inj hl
      rw [← heq, hc] at hd
      cases hd
      have hresult := (copyOut_spec hs hc streamId buflen rc).result
      refine ⟨hsound, ?_, hown.copy hs streamId buflen rc⟩
      rw [hresult]
      intro other e he hne hmode
      have hset := Apart.setChannel (d := { c with
        readAvail := c.readAvail - (copyOut n.session c streamId buflen rc).2.2.length
        windowSize := c.windowSize - (copyOut n.session c streamId buflen rc).2.2.length })
        hapart hc fun hne => absurd rfl hne
      exact hset other e he hne hmode
    | _ => cases hl
  · have hread : (fun stream => n.got stream ++ readBy c.localId stream l) = n.got := by
      funext stream
      cases l with
      | copy other streamId bytes =>
        have hne : ¬(other = c.localId ∧ streamId = stream) := fun hand => hcopy ⟨streamId, bytes, by rw [hand.1]⟩
        simp [readBy, hne]
      | _ => simp [readBy]
    rw [hread]
    by_cases hwiden : ∃ k, l = .widen c.localId k
    · obtain ⟨k, rfl⟩ := hwiden
      generalize hl : Label.widen c.localId k = l at hsmall
      cases hsmall with
      | widen d k' hd hlt =>
        obtain ⟨heq, rfl⟩ := Label.widen.inj hl
        rw [← heq, hc] at hd
        cases hd
        refine ⟨hsound, ?_, hown.widen hs hlt⟩
        dsimp only [Session.widened]
        refine Apart.same ?_ (.transportSend _ _ _)
        exact hapart.setChannel hc fun hne => absurd rfl hne
      | _ => cases hl
    · obtain ⟨huntouched, hapart'⟩ := small_untouched hs hapart hsmall hallowed
        (fun streamId bytes heq => hcopy ⟨streamId, bytes, heq⟩) fun k heq => hwiden ⟨k, heq⟩
      exact ⟨hsound, hapart', hown.untouched huntouched⟩

theorem Flowing.deliver {data : Bytes} {rest : List Bytes} {s' : Session} {rc : Int}
    (h : Flowing id remoteId size n) (hwire : n.wire = data :: rest)
    (hadd : packetAdd n.session 0 true data = some (s', rc)) :
    Flowing id remoteId size { n with session := s', wire := rest } := by
  obtain ⟨hs, hapart, c, hown⟩ := h
  have hid := locate_localId hown.located
  have hadded := packetAdd_cases hs hadd
  have hsound := hs.added hadded
  cases hdata : dataFor id data with
  | true =>
    obtain ⟨hown', hapart'⟩ := hown.deliver hs hwire hdata hadd
    exact ⟨hsound, hapart' hapart, hown'⟩
  | false =>
    -- Without the packet, the wire has the same bytes of the channel.
    have hrest : Own id remoteId size { n with wire := rest } c := by
      refine ⟨hown.located, hown.remote, hown.packetSize, hown.normal, ?_, hown.heard, ?_, ?_, ?_, ?_,
        ordered_tail hwire hown.ordered⟩
      · have := hown.window
        rw [hwire, List.map_cons, List.sum_cons, sizeFor_of_not data hdata, Nat.zero_add] at this
        exact this
      · intro streamId
        have := hown.streams streamId
        rw [hwire, List.flatMap_cons, payloadFor_of_not data streamId hdata, List.nil_append] at this
        exact this
      · intro data' hmem
        exact hown.small data' (by simp [hwire, hmem])
      · rintro (hflag | hflag | ⟨data', hmem, hend⟩)
        · exact hown.ended (.inl hflag)
        · exact hown.ended (.inr (.inl hflag))
        · exact hown.ended (.inr (.inr ⟨data', by simp [hwire, hmem], hend⟩))
      · intro hflag data' hmem
        exact hown.last hflag data' (by simp [hwire, hmem])
    obtain ⟨hapart', huntouched | ⟨close, hend, rfl⟩⟩ := added_untouched hs hapart hown.located hown.normal hadded hdata
    · exact ⟨hsound, hapart', hrest.untouched huntouched⟩
    · have hended : n.ended = true := hown.ended (.inr (.inr ⟨data, by simp [hwire], hend⟩))
      have hlast : ∀ data' ∈ rest, dataFor id data' = false := hown.ordered [] data rest hwire hend
      exact ⟨hsound, hapart', { c with eof := true, close := close }, locate_setChannel_self hown.located hid,
        hrest.remote, hrest.packetSize, hrest.normal, hrest.window, hrest.heard, hrest.streams, hrest.small,
        fun _ => hended, fun _ => hlast, hrest.ordered⟩

theorem Flowing.step (hid : id < 2 ^ 32) (h : Flowing id remoteId size n) (hstep : NetStep id remoteId size n n') :
    Flowing id remoteId size n' := by
  cases hstep with
  | client l s' hsmall hallowed => exact h.client hsmall hallowed
  | deliver data rest s' rc hwire hadd => exact h.deliver hwire hadd
  | hear packet hpacket =>
    obtain ⟨hs, hapart, c, hown⟩ := h
    obtain ⟨hlt, rfl⟩ := List.getElem?_eq_some_iff.mp hpacket
    refine ⟨hs, hapart, c, hown.located, hown.remote, hown.packetSize, hown.normal, ?_, hlt, hown.streams, hown.small,
      hown.ended, hown.last, hown.ordered⟩
    have := hown.window
    rw [List.drop_eq_getElem_cons hlt, List.map_cons, List.sum_cons] at this
    simp only
    omega
  | write code payload hcode hended hcredit hsize =>
    obtain ⟨hs, hapart, c, hown⟩ := h
    have hopen : ¬(c.eof = true ∨ c.close = true ∨ ∃ data ∈ n.wire, endFor id data = true) := fun hflag => by
      rw [hown.ended hflag] at hended
      cases hended
    have hdata : dataFor id (dataPacket id code payload) = true := dataPacket_dataFor hid hcode
    have hnotend : endFor id (dataPacket id code payload) = false := by
      have hhead := (dataPacket_spec hid hcode payload).1
      cases code <;> simp [endFor, hhead]
    refine ⟨hs, hapart, c, hown.located, hown.remote, hown.packetSize, hown.normal, ?_, hown.heard, ?_, ?_, ?_, ?_, ?_⟩
    · have := hown.window
      simp only [List.map_append, List.map_cons, List.map_nil, List.sum_append, List.sum_cons, List.sum_nil,
        dataPacket_size hid hcode]
      omega
    · intro streamId
      simp only [List.flatMap_append, List.flatMap_cons, List.flatMap_nil, List.append_nil,
        dataPacket_payload hid hcode]
      rw [← List.append_assoc, hown.streams streamId]
      by_cases hstream : streamId = streamOf code
      · rw [if_pos hstream, hstream, Function.update_self]
      · rw [if_neg hstream, List.append_nil, Function.update_of_ne hstream]
    · intro data hmem
      rcases List.mem_append.mp hmem with hmem | hmem
      · exact hown.small data hmem
      · rw [List.mem_singleton.mp hmem, dataPacket_size hid hcode]
        exact hsize
    · rintro (hflag | hflag | ⟨data, hmem, hend⟩)
      · exact hown.ended (.inl hflag)
      · exact hown.ended (.inr (.inl hflag))
      · rcases List.mem_append.mp hmem with hmem | hmem
        · exact hown.ended (.inr (.inr ⟨data, hmem, hend⟩))
        · rw [List.mem_singleton.mp hmem, hnotend] at hend
          cases hend
    · intro hflag
      exact absurd (hflag.imp_right .inl) hopen
    · refine ordered_append hown.ordered fun _ data hmem => ?_
      cases hend : endFor id data with
      | false => rfl
      | true => exact absurd (.inr (.inr ⟨data, hmem, hend⟩)) hopen
  | other data hdata =>
    obtain ⟨hs, hapart, c, hown⟩ := h
    refine ⟨hs, hapart, c, hown.located, hown.remote, hown.packetSize, hown.normal, ?_, hown.heard, ?_, ?_, ?_, ?_, ?_⟩
    · simpa [sizeFor_of_not data hdata] using hown.window
    · intro streamId
      simpa [payloadFor_of_not data streamId hdata] using hown.streams streamId
    · intro data' hmem
      rcases List.mem_append.mp hmem with hmem | hmem
      · exact hown.small data' hmem
      · rw [List.mem_singleton.mp hmem, sizeFor_of_not data hdata]
        exact Nat.zero_le _
    · rintro (hflag | hflag | ⟨data', hmem, hend⟩)
      · simp [hown.ended (.inl hflag)]
      · simp [hown.ended (.inr (.inl hflag))]
      · rcases List.mem_append.mp hmem with hmem | hmem
        · simp [hown.ended (.inr (.inr ⟨data', hmem, hend⟩))]
        · rw [List.mem_singleton.mp hmem] at hend
          simp [hend]
    · intro hflag data' hmem
      rcases List.mem_append.mp hmem with hmem | hmem
      · exact hown.last hflag data' hmem
      · rw [List.mem_singleton.mp hmem, hdata]
    · exact ordered_append hown.ordered fun h => by rw [hdata] at h; cases h

end Steps

end RemoteSsh.Ssh
