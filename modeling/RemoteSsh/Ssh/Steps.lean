import RemoteSsh.Lib.Path
import RemoteSsh.Ssh.Reading

/-!
# The steps of a session

Every call of libssh2 is made of a few kinds of steps. A packet comes in, a packet is taken out of the queue,
a channel is linked or unlinked, its window is widened, its bytes are copied out. Here is what each kind does,
while the socket takes all that is sent.
-/

open Lib

namespace RemoteSsh.Ssh

/-! ## Widening the window -/

/-- The session after `n` more bytes were granted. -/
def Session.widened (s : Session) (c : Channel) (n : Nat) : Session :=
  (s.setChannel { c with windowSize := c.windowSize + n }).transportSend 0 (adjustPacket c.remoteId n)

/-- How much a read grants. -/
def grant (c : Channel) (buflen : Nat) : Nat := max minAdjust (c.windowSizeInitial + buflen - c.windowSize)

section Widen

variable {s : Session} {c : Channel} {buflen : Nat}

theorem widen_wide (hs : Sound s) (hc : s.channelLocate c.localId = some c)
    (h : c.windowSizeInitial / 4 * 3 + buflen ≤ c.windowSize) : widen s 0 c buflen = (s, 0) := by
  have hidle := hs.idle _ c hc
  rw [widen, if_neg]
  simp [hidle.widening, h]

/-- An adjustment that is large enough is sent at once. -/
theorem receiveWindowAdjust_large {n : Nat} (hqueue : c.adjustQueue = 0) (hadjusting : c.adjusting = none)
    (hbig : minAdjust ≤ n) (hlt : c.windowSize + n < 2 ^ 32) :
    receiveWindowAdjust s 0 c n false =
      ((s.setChannel { c with windowSize := c.windowSize + n, adjustQueue := 0, adjusting := none }).transportSend
        0 (adjustPacket c.remoteId n), 0) := by
  have hmin : minAdjust = 1024 := rfl
  have hn : u32 (n + c.adjustQueue) = n := by
    rw [hqueue]
    exact u32_of_lt (by omega)
  unfold receiveWindowAdjust
  rw [hadjusting]
  simp only [hn]
  rw [if_neg (by rintro ⟨-, h⟩; omega), if_neg (by rintro ⟨h, -⟩; omega)]
  simp [sendAdjust, u32_of_lt hlt]

theorem widen_narrow (hs : Sound s) (hc : s.channelLocate c.localId = some c)
    (h : c.windowSize < c.windowSizeInitial / 4 * 3 + buflen)
    (hsize : c.windowSizeInitial + buflen + minAdjust < 2 ^ 32) :
    widen s 0 c buflen = (s.widened c (grant c buflen), 0) := by
  have hidle := hs.idle _ c hc
  have hmin : minAdjust = 1024 := rfl
  have hgrant : grant c buflen = max 1024 (c.windowSizeInitial + buflen - c.windowSize) := rfl
  have hadjust : u32 (c.windowSizeInitial + buflen + (2 ^ 32 - c.windowSize)) =
      c.windowSizeInitial + buflen - c.windowSize := by
    unfold u32
    omega
  have hmax : (if c.windowSizeInitial + buflen - c.windowSize < minAdjust then minAdjust
      else c.windowSizeInitial + buflen - c.windowSize) = grant c buflen := by
    rw [hgrant, hmin]
    split <;> omega
  have hlt : c.windowSize + grant c buflen < 2 ^ 32 := by omega
  have hsent := receiveWindowAdjust_large (s := s) (c := { c with widening := true }) (n := grant c buflen)
    hidle.queue hidle.adjusting (Nat.le_max_left _ _) hlt
  rw [widen, if_pos (.inr h)]
  simp only [hadjust, hmax]
  rw [hsent]
  simp only [ne_eq, not_true_eq_false, if_false]
  -- The channel is looked up again, only to note that the widening is done.
  rw [locate_transportSend, locate_setChannel_self hc (by rfl)]
  simp only
  rw [setChannel_transportSend, setChannel_setChannel (by rfl)]
  rw [← hidle.queue, ← hidle.adjusting, ← hidle.widening]
  rfl

/-- An adjustment that is forced is sent, however small it is. -/
theorem receiveWindowAdjust_forced {n : Nat} (hs : Sound s) (hc : s.channelLocate c.localId = some c) (hpos : 0 < n)
    (hlt : c.windowSize + n < 2 ^ 32) : receiveWindowAdjust s 0 c n true = (s.widened c n, 0) := by
  have hidle := hs.idle _ c hc
  have hn : u32 (n + c.adjustQueue) = n := by
    rw [hidle.queue]
    exact u32_of_lt (by omega)
  unfold receiveWindowAdjust
  rw [hidle.adjusting]
  simp only [hn]
  rw [if_neg (by simp), if_neg (by omega)]
  simp only [sendAdjust, if_true, u32_of_lt hlt]
  rw [← hidle.queue, ← hidle.adjusting]
  rfl

end Widen

/-! ## Copying out -/

section Copy

variable {s : Session} {c : Channel} {streamId : Int} {buflen : Nat}

theorem intLen_le (buflen : Nat) : intLen buflen ≤ buflen := by
  unfold intLen u32
  split
  · exact Nat.mod_le _ _
  · exact Nat.zero_le _

theorem wanted_isFor {p : Packet} (h : wanted c streamId p = true) : p.isFor c.localId = true := by
  simp only [wanted, decide_eq_true_eq] at h
  simp only [Packet.isFor, Packet.isData, decide_eq_true_eq]
  tauto

/-- What one read leaves. -/
structure Copied (s : Session) (c : Channel) (streamId : Int) (buflen : Nat) (s' : Session) (bytes : Bytes) : Prop where
  length : bytes.length ≤ buflen
  paid : bytes.length ≤ c.readAvail
  front : bytes ++ pending (wanted c streamId) s'.packets = pending (wanted c streamId) s.packets
  rest : bytes.length < intLen buflen → pending (wanted c streamId) s'.packets = []
  other : ∀ other, ByHeader other → (∀ p, wanted c streamId p = true → other p = false) →
    pending other s'.packets = pending other s.packets
  shrinks : ∀ other, ByHeader other → (pending other s'.packets).Sublist (pending other s.packets)
  result : s' =
    { s.setChannel
        { c with
          readAvail := c.readAvail - bytes.length
          windowSize := c.windowSize - bytes.length } with
      packets := s'.packets }
  sound : Sound s'

theorem setChannel_self (hc : s.channelLocate c.localId = some c) : s.setChannel c = s := by
  unfold Session.setChannel Session.channelLocate at *
  congr 1
  generalize s.channels = l at hc
  induction l with
  | nil => rfl
  | cons d l ih =>
    unfold update
    by_cases hd : d.localId = c.localId
    · simp only [locate, hd, decide_true, List.find?_cons_of_pos, Option.some.injEq] at hc
      rw [if_pos hd, hc]
    · simp only [locate, hd, decide_false, Bool.false_eq_true, not_false_eq_true, List.find?_cons_of_neg] at hc
      rw [if_neg hd, ih hc]

theorem copyOut_spec (hs : Sound s) (hc : s.channelLocate c.localId = some c) (streamId : Int) (buflen : Nat)
    (rc : Int) :
    Copied s c streamId buflen (copyOut s c streamId buflen rc).1 (copyOut s c streamId buflen rc).2.2 := by
  obtain ⟨hfits, hlt⟩ := hs.fits _ c hc
  have hidle := hs.idle _ c hc
  set want := wanted c streamId with hwant
  set n := intLen buflen with hn
  have hnle : n ≤ buflen := intLen_le buflen
  have hlength := readLoop_length want n 0 s.packets
  have hwithin := readLoop_within want (byHeader_isFor c.localId) (fun p => wanted_isFor) n 0 s.packets
  rw [← queuedFor_eq, ← queuedFor_eq, ← hs.counted _ c hc] at hwithin
  have hothers (id : Nat) (hne : id ≠ c.localId) :
      queuedFor id (readLoop want n 0 s.packets).2 = queuedFor id s.packets := by
    rw [queuedFor_eq, queuedFor_eq]
    congr 1
    refine readLoop_other (byHeader_isFor id) ?_ n 0 s.packets
    intro p hp
    have hfor := wanted_isFor hp
    simp only [Packet.isFor, decide_eq_true_eq] at hfor
    simp [Packet.isFor, hfor.1, hfor.2, Ne.symm hne]
  have howned : ∀ p ∈ (readLoop want n 0 s.packets).2, p.isData = true →
      ∃ id e, u32At p.data 1 = some id ∧ s.channelLocate id = some e := by
    intro q hq hdata
    obtain ⟨p, hp, heq⟩ := readLoop_data n 0 s.packets hq
    obtain ⟨id, e, hid, he⟩ := hs.owned p hp (by simpa [Packet.isData, heq] using hdata)
    exact ⟨id, e, by rw [heq, hid], he⟩
  have hfront := readLoop_pending (byHeader_wanted c streamId) n 0 s.packets
  have hdrained := readLoop_drained want n 0 s.packets
  -- Both ends of the read leave the queue of the loop and take its bytes off the account.
  have hresult : (copyOut s c streamId buflen rc).1 =
      { s.setChannel
          { c with
            readAvail := c.readAvail - (readLoop want n 0 s.packets).1.length
            windowSize := c.windowSize - (readLoop want n 0 s.packets).1.length } with
        packets := (readLoop want n 0 s.packets).2 } ∧
      (copyOut s c streamId buflen rc).2.2 = (readLoop want n 0 s.packets).1 := by
    unfold copyOut
    simp only [← hwant, ← hn]
    split
    next hnil =>
      simp only [hnil, List.length_nil, Nat.sub_zero]
      rw [setChannel_self hc]
      split
      · simp
      · split <;> simp
    next =>
      simp only [and_true]
      rw [sub32_of_le (by omega) hlt, sub32_of_le (by omega) (by omega)]
      rfl
  obtain ⟨hsession, hbytes⟩ := hresult
  have hpackets : (copyOut s c streamId buflen rc).1.packets = (readLoop want n 0 s.packets).2 := by rw [hsession]
  refine ⟨?_, ?_, ?_, ?_, ?_, ?_, ?_, ?_⟩
  · rw [hbytes]
    omega
  · rw [hbytes]
    omega
  · rw [hbytes, hpackets, hfront]
  · intro hshort
    rw [hbytes] at hshort
    rw [hpackets]
    exact hdrained (by omega)
  · intro other hother hdisjoint
    rw [hpackets]
    exact readLoop_other hother hdisjoint n 0 s.packets
  · intro other hother
    rw [hpackets]
    exact readLoop_sublist hother n 0 s.packets
  · rw [hpackets, hbytes, hsession]
  · rw [hsession]
    refine hs.change hc rfl ?_ ?_ ?_ ⟨hidle.queue, hidle.adjusting, hidle.widening⟩ (hs.remote _ c hc) hothers howned
    · simp only
      omega
    · simp only
      omega
    · simp only
      omega

end Copy

/-! ## Taking packets out -/

section Ask

variable {s s' : Session} {id : Nat} {type : UInt8} {matchOfs : Nat} {matchBuf data : Bytes}

theorem packetAsk_some (h : packetAsk s type matchOfs matchBuf = some (data, s')) :
    ∃ before p after, s.packets = before ++ p :: after ∧ asked type matchOfs matchBuf p = true ∧
      p.data = data ∧ s' = { s with packets := before ++ after } := by
  unfold packetAsk at h
  split at h
  · cases h
  next p hfind =>
    obtain ⟨hp, before, after, hsplit, hbefore⟩ := List.find?_eq_some_iff_append.mp hfind
    simp only [Option.some.injEq, Prod.mk.injEq] at h
    refine ⟨before, p, after, hsplit, hp, h.1, ?_⟩
    rw [← h.2, hsplit, List.eraseP_append_right _ (by simpa using hbefore), List.eraseP_cons_of_pos hp]

theorem packetAsk_none (h : packetAsk s type matchOfs matchBuf = none) :
    ∀ p ∈ s.packets, asked type matchOfs matchBuf p = false := by
  unfold packetAsk at h
  split at h
  next hfind => simpa using List.find?_eq_none.mp hfind
  · cases h

theorem asked_isFor (hid : id < 2 ^ 32) (p : Packet) :
    p.isFor id = (asked 94 1 (htonu32 id) p || asked 95 1 (htonu32 id) p) := by
  have hsize : u32At p.data 1 = some id → 5 ≤ p.data.length := by
    intro h
    have := (u32At_isSome p.data 1).mp (by simp [h])
    omega
  have hiff := take_four_eq_iff p.data 1 id hid
  rw [Bool.eq_iff_iff, Bool.or_eq_true]
  simp only [Packet.isFor, Packet.isData, asked, htonu32_length, decide_eq_true_eq, hiff]
  grind

/-- All data of the channel goes, and nothing else. -/
theorem clearPackets_spec (hid : id < 2 ^ 32) (fuel : Nat) (s : Session)
    (hfuel : s.packets.countP (Packet.isFor id) ≤ fuel) :
    clearPackets id fuel s = { s with packets := s.packets.filter fun p => !p.isFor id } := by
  have hkeep (s : Session) (h : ∀ p ∈ s.packets, p.isFor id = false) :
      s = { s with packets := s.packets.filter fun p => !p.isFor id } := by
    rw [List.filter_eq_self.mpr (by simpa using h)]
  have hround {s s' : Session} {type : UInt8} {data : Bytes} (htype : type = 94 ∨ type = 95)
      (h : packetAsk s type 1 (htonu32 id) = some (data, s')) :
      s'.packets.countP (Packet.isFor id) + 1 = s.packets.countP (Packet.isFor id) ∧
        { s' with packets := s'.packets.filter fun p => !p.isFor id } =
          { s with packets := s.packets.filter fun p => !p.isFor id } := by
    obtain ⟨before, p, after, hsplit, hp, -, rfl⟩ := packetAsk_some h
    have hfor : p.isFor id = true := by
      rw [asked_isFor hid]
      rcases htype with rfl | rfl
      · simp [hp]
      · simp [hp]
    rw [hsplit]
    simp only [List.countP_append, List.countP_cons, hfor, List.filter_append, if_true]
    refine ⟨by omega, ?_⟩
    rw [List.filter_cons_of_neg (by simp [hfor])]
  induction fuel generalizing s with
  | zero =>
    have hnone : ∀ p ∈ s.packets, p.isFor id = false := by
      simpa using List.countP_eq_zero.mp (Nat.le_zero.mp hfuel)
    exact hkeep s hnone
  | succ fuel ih =>
    unfold clearPackets
    split
    next s' h =>
      obtain ⟨hcount, heq⟩ := hround (.inl rfl) h
      rw [ih s' (by omega), heq]
    next h94 =>
      split
      next s' h =>
        obtain ⟨hcount, heq⟩ := hround (.inr rfl) h
        rw [ih s' (by omega), heq]
      next h95 =>
        refine hkeep s fun p hp => ?_
        rw [asked_isFor hid, packetAsk_none h94 p hp, packetAsk_none h95 p hp]
        rfl

theorem forget_spec (hid : id < 2 ^ 32) : s.forget id =
    { s with
      packets := s.packets.filter fun p => !p.isFor id
      channels := remove Channel.localId id s.channels } := by
  unfold Session.forget
  rw [clearPackets_spec hid _ s List.countP_le_length]

theorem queuedFor_filter {keep : Packet → Bool} {packets : List Packet} (h : ∀ p, p.isFor id = true → keep p = true) :
    queuedFor id (packets.filter keep) = queuedFor id packets := by
  unfold queuedFor
  rw [List.filter_filter]
  congr 2
  apply List.filter_congr
  intro p _
  cases hp : p.isFor id with
  | false => rfl
  | true => simp [h p hp]

theorem Sound.forget (hs : Sound s) (hid : id < 2 ^ 32) : Sound (s.forget id) := by
  rw [forget_spec hid]
  have hlocate (id' : Nat) (e : Channel)
      (he : locate Channel.localId id' (remove Channel.localId id s.channels) = some e) :
      id' ≠ id ∧ s.channelLocate id' = some e := by
    by_cases hne : id' = id
    · rw [hne, locate_remove_self hs.distinct] at he
      cases he
    · rw [locate_remove_of_ne hne] at he
      exact ⟨hne, he⟩
  refine ⟨remove_keys hs.distinct, ?_, ?_, ?_, ?_, ?_, ?_⟩
  · intro c hc
    exact hs.fresh c (List.mem_of_mem_eraseP hc)
  · intro id' e he
    obtain ⟨hne, he⟩ := hlocate id' e he
    show e.readAvail = queuedFor id' (s.packets.filter fun p => !p.isFor id)
    rw [queuedFor_filter, hs.counted id' e he]
    intro p hp
    simp only [Packet.isFor, decide_eq_true_eq] at hp
    simp [Packet.isFor, hp.2, hne]
  · intro id' e he
    exact hs.fits id' e (hlocate id' e he).2
  · intro id' e he
    exact hs.idle id' e (hlocate id' e he).2
  · intro id' e he
    exact hs.remote id' e (hlocate id' e he).2
  · intro p hp hdata
    obtain ⟨hp, hnot⟩ := List.mem_filter.mp hp
    obtain ⟨id', e, hpid, he⟩ := hs.owned p hp hdata
    have hne : id' ≠ id := by
      rintro rfl
      simp [Packet.isFor, hdata, hpid] at hnot
    exact ⟨id', e, hpid, (locate_remove_of_ne hne).trans he⟩

theorem asked_isData {p : Packet} (htype : type ≠ 94 ∧ type ≠ 95) (h : asked type matchOfs matchBuf p = true) :
    p.isData = false := by
  simp only [asked, decide_eq_true_eq] at h
  simp [Packet.isData, h.1, htype]

theorem Sound.take (hs : Sound s) (htype : type ≠ 94 ∧ type ≠ 95)
    (h : packetAsk s type matchOfs matchBuf = some (data, s')) : Sound s' := by
  obtain ⟨before, p, after, hsplit, hp, -, rfl⟩ := packetAsk_some h
  have hdata := asked_isData htype hp
  have hcount (id : Nat) : queuedFor id (before ++ after) = queuedFor id s.packets := by
    have hcons : before ++ p :: after = before ++ ([p] ++ after) := rfl
    rw [hsplit, hcons, queuedFor_append, queuedFor_append, queuedFor_append, queuedFor_other hdata, Nat.zero_add]
  refine ⟨hs.distinct, hs.fresh, ?_, hs.fits, hs.idle, hs.remote, ?_⟩
  · intro id e he
    show e.readAvail = queuedFor id (before ++ after)
    rw [hcount]
    exact hs.counted id e he
  · intro q hq hqdata
    refine hs.owned q ?_ hqdata
    rw [hsplit]
    rcases List.mem_append.mp hq with hq | hq
    · exact List.mem_append_left _ hq
    · exact List.mem_append_right _ (List.mem_cons_of_mem _ hq)

end Ask

/-! ## Linking a channel -/

section Open

variable {s : Session}

theorem nextid_eq (hs : Sound s) : nextid s = s.nextChannel := by
  have hfold (l : List Channel) (n : Nat) (h : ∀ c ∈ l, c.localId < n) :
      l.foldl (fun id c => if id < c.localId then c.localId else id) n = n := by
    induction l with
    | nil => rfl
    | cons c l ih =>
      have hc := h c List.mem_cons_self
      rw [List.foldl_cons, if_neg (by omega)]
      exact ih fun d hd => h d (List.mem_cons_of_mem _ hd)
  exact hfold s.channels s.nextChannel hs.fresh

/-- The session after a channel was linked and the request for it was sent. -/
def Session.link (s : Session) (windowSize packetSize : Nat) (packet : Bytes) : Session :=
  Session.transportSend
    { s with
      nextChannel := u32 (nextid s + 1)
      channels := s.channels ++ [newChannel (nextid s) windowSize packetSize] } 0 packet

theorem locate_link (hs : Sound s) {windowSize packetSize : Nat} {packet : Bytes} (id : Nat) :
    (s.link windowSize packetSize packet).channelLocate id =
      if id = s.nextChannel then some (newChannel id windowSize packetSize) else s.channelLocate id := by
  unfold Session.link
  rw [locate_transportSend, nextid_eq hs]
  show locate Channel.localId id (s.channels ++ [newChannel s.nextChannel windowSize packetSize]) = _
  rw [locate_append]
  split
  next heq =>
    have hnone : locate Channel.localId id s.channels = none := by
      rw [locate_eq_none]
      intro hmem
      obtain ⟨c, hc, hcid⟩ := List.mem_map.mp hmem
      have := hs.fresh c hc
      omega
    rw [hnone, heq]
    simp [locate, newChannel]
  next hne =>
    have hnone : locate Channel.localId id [newChannel s.nextChannel windowSize packetSize] = none := by
      simp [locate, newChannel, Ne.symm hne]
    rw [hnone, Option.or_none]
    rfl

theorem Sound.link (hs : Sound s) (hroom : s.nextChannel + 1 < 2 ^ 32) {windowSize packetSize : Nat}
    (hsize : windowSize < 2 ^ 32) (packet : Bytes) : Sound (s.link windowSize packetSize packet) := by
  have hnone : s.channelLocate s.nextChannel = none := by
    refine locate_eq_none.mpr fun hmem => ?_
    obtain ⟨c, hc, hcid⟩ := List.mem_map.mp hmem
    have := hs.fresh c hc
    omega
  have hnext : (s.link windowSize packetSize packet).nextChannel = s.nextChannel + 1 := by
    show u32 (nextid s + 1) = s.nextChannel + 1
    rw [nextid_eq hs, u32_of_lt hroom]
  have hchannels : (s.link windowSize packetSize packet).channels =
      s.channels ++ [newChannel s.nextChannel windowSize packetSize] := by
    show s.channels ++ [newChannel (nextid s) windowSize packetSize] = _
    rw [nextid_eq hs]
  refine ⟨?_, ?_, ?_, ?_, ?_, ?_, ?_⟩
  · rw [hchannels, List.map_append, List.nodup_append]
    refine ⟨hs.distinct, by simp, ?_⟩
    intro a ha b hb heq
    simp only [newChannel, List.map_cons, List.map_nil, List.mem_singleton] at hb
    obtain ⟨c, hc, hcid⟩ := List.mem_map.mp ha
    have := hs.fresh c hc
    omega
  · intro c hc
    rw [hchannels] at hc
    rw [hnext]
    rcases List.mem_append.mp hc with hc | hc
    · have := hs.fresh c hc
      omega
    · rw [List.mem_singleton.mp hc]
      exact Nat.lt_succ_self _
  · intro id c hc
    rw [locate_link hs] at hc
    show c.readAvail = queuedFor id s.packets
    split at hc
    next heq =>
      cases hc
      -- Nothing can be queued for a channel that was not there.
      rw [queuedFor_eq]
      have hempty : s.packets.filter (Packet.isFor id) = [] := by
        refine List.filter_eq_nil_iff.mpr fun p hp hfor => ?_
        simp only [Packet.isFor, decide_eq_true_eq] at hfor
        obtain ⟨id', e, hpid, he⟩ := hs.owned p hp hfor.1
        rw [hfor.2] at hpid
        cases hpid
        rw [heq, hnone] at he
        cases he
      simp [pending, hempty, newChannel]
    next => exact hs.counted id c hc
  · intro id c hc
    rw [locate_link hs] at hc
    split at hc
    · cases hc
      exact ⟨Nat.zero_le _, hsize⟩
    · exact hs.fits id c hc
  · intro id c hc
    rw [locate_link hs] at hc
    split at hc
    · cases hc
      exact ⟨rfl, rfl, rfl⟩
    · exact hs.idle id c hc
  · intro id c hc
    rw [locate_link hs] at hc
    split at hc
    · cases hc
      exact Nat.two_pow_pos 32
    · exact hs.remote id c hc
  · intro p hp hdata
    obtain ⟨id, e, hid, he⟩ := hs.owned p hp hdata
    refine ⟨id, e, hid, ?_⟩
    rw [locate_link hs, if_neg, he]
    rintro rfl
    rw [hnone] at he
    cases he

end Open

/-! ## The steps -/

inductive Label where
  | arrive (a : Arrival)
  | take
  | link (id windowSize packetSize : Nat)
  | confirm (id : Nat)
  | forget (id : Nat)
  | widen (id n : Nat)
  | copy (id : Nat) (streamId : Int) (bytes : Bytes)
  | mode (id : Nat) (mode : IgnoreMode)
  | send
  | note (id : Nat)

/-- Every step of a session, while all sends succeed, fewer than `2 ^ 32 - 1` channels were opened, and no
window is so large that widening it would overflow. -/
inductive Small : Session → Label → Session → Prop
  | arrive {s s' : Session} (a : Arrival) (rc : Int) (hsend : a.sendRc = 0)
      (h : packetAdd s 0 a.macOk a.data = some (s', rc)) : Small s (.arrive a) s'
  | take {s s' : Session} (type : UInt8) (matchOfs : Nat) (matchBuf data : Bytes)
      (htype : type ≠ 94 ∧ type ≠ 95) (h : packetAsk s type matchOfs matchBuf = some (data, s')) : Small s .take s'
  | link {s : Session} (windowSize packetSize : Nat) (packet : Bytes) (hroom : s.nextChannel + 1 < 2 ^ 32)
      (hsize : windowSize < 2 ^ 32) (hpacket : packet.head? ≠ some 93) :
      Small s (.link (nextid s) windowSize packetSize) (s.link windowSize packetSize packet)
  | confirm {s : Session} (c : Channel) (remoteId localWindowSize localPacketSize : Nat)
      (hc : s.channelLocate c.localId = some c) (hremote : remoteId < 2 ^ 32) :
      Small s (.confirm c.localId)
        (s.setChannel
          { c with
            remoteId := remoteId
            localWindowSize := localWindowSize
            localPacketSize := localPacketSize })
  | forget {s : Session} (id : Nat) (hid : id < 2 ^ 32) : Small s (.forget id) (s.forget id)
  | widen {s : Session} (c : Channel) (n : Nat) (hc : s.channelLocate c.localId = some c)
      (hlt : c.windowSize + n < 2 ^ 32) : Small s (.widen c.localId n) (s.widened c n)
  | copy {s : Session} (c : Channel) (streamId : Int) (buflen : Nat) (rc : Int)
      (hc : s.channelLocate c.localId = some c) :
      Small s (.copy c.localId streamId (copyOut s c streamId buflen rc).2.2) (copyOut s c streamId buflen rc).1
  | mode {s : Session} (c : Channel) (mode : IgnoreMode) (hc : s.channelLocate c.localId = some c) :
      Small s (.mode c.localId mode) (s.setChannel { c with extendedDataIgnoreMode := mode })
  | send {s : Session} (packet : Bytes) (hpacket : packet.head? ≠ some 93) : Small s .send (s.transportSend 0 packet)
  | note {s : Session} (c : Channel) (localEof localClose : Bool) (hc : s.channelLocate c.localId = some c) :
      Small s (.note c.localId) (s.setChannel { c with localEof := localEof, localClose := localClose })

theorem Sound.small {s s' : Session} {l : Label} (hs : Sound s) (h : Small s l s') : Sound s' := by
  cases h with
  | arrive a rc _ h => exact packetAdd_sound hs h
  | take type matchOfs matchBuf data htype h => exact hs.take htype h
  | link windowSize packetSize packet hroom hsize _ => exact hs.link hroom hsize packet
  | confirm c remoteId _ _ hc hremote =>
    obtain ⟨hfit, hlt⟩ := hs.fits _ c hc
    have hidle := hs.idle _ c hc
    exact hs.setChannel hc rfl rfl hfit hlt ⟨hidle.queue, hidle.adjusting, hidle.widening⟩ hremote
  | forget id hid => exact hs.forget hid
  | widen c n hc hlt =>
    obtain ⟨hfit, -⟩ := hs.fits _ c hc
    have hidle := hs.idle _ c hc
    refine Sound.same ?_ (.transportSend _ _ _)
    refine hs.setChannel hc rfl rfl ?_ hlt ⟨hidle.queue, hidle.adjusting, hidle.widening⟩ (hs.remote _ c hc)
    simp only
    omega
  | copy c streamId buflen rc hc => exact (copyOut_spec hs hc streamId buflen rc).sound
  | mode c mode hc =>
    obtain ⟨hfit, hlt⟩ := hs.fits _ c hc
    have hidle := hs.idle _ c hc
    exact hs.setChannel hc rfl rfl hfit hlt ⟨hidle.queue, hidle.adjusting, hidle.widening⟩ (hs.remote _ c hc)
  | send packet _ => exact hs.same (.transportSend _ _ _)
  | note c localEof localClose hc => exact hs.same (.setChannel hc rfl)

end RemoteSsh.Ssh
