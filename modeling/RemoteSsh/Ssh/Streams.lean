import Mathlib.Data.List.Flatten
import Mathlib.Logic.Relation
import RemoteSsh.Ssh.Delivery
import RemoteSsh.Ssh.Runs

/-!
# Streams from end to end

From the call that opens a channel to the read that returns 0. No byte is lost in any order of the steps, and
the end that the client sees is the end that the server meant.
-/

open Lib

namespace RemoteSsh.Ssh

/-! ## Opening the channel -/

/-- A channel that was just opened: nothing was sent on it, and the server may send its window. -/
structure Started (id remoteId size : Nat) (n : Net) : Prop where
  sound : Sound n.session
  apart : Apart id remoteId n.session
  channel : ∃ c, n.session.channelLocate id = some c ∧ c.remoteId = remoteId ∧ c.packetSize = size ∧
    c.extendedDataIgnoreMode = .normal ∧ c.readAvail = 0 ∧ c.eof = false ∧ c.close = false ∧ n.credit = c.windowSize
  wire : n.wire = []
  heard : n.heard = n.session.sent.length
  written : ∀ streamId, n.written streamId = []
  got : ∀ streamId, n.got streamId = []

section Open

variable {id : Nat} {s s' : Session}

/-- No channel throws extended data away. -/
def NoIgnore (s : Session) : Prop := ∀ id c, s.channelLocate id = some c → c.extendedDataIgnoreMode ≠ .ignore

theorem NoIgnore.step {s s' : Session} {l : Label} (h : NoIgnore s) (hs : Sound s)
    (hl : ∀ id mode, l ≠ .mode id mode) (hsmall : Small s l s') : NoIgnore s' := by
  intro id c' hc' hignore
  rcases small_terms hs hsmall hc' with ⟨windowSize, packetSize, -, hterms⟩ | ⟨c, hc, hterms | ⟨mode, rfl, -⟩⟩
  · have hmode : c'.extendedDataIgnoreMode = .normal := congrArg Prod.snd hterms
    rw [hmode] at hignore
    cases hignore
  · have hmode : c'.extendedDataIgnoreMode = c.extendedDataIgnoreMode := congrArg Prod.snd hterms
    exact h id c hc (hmode.symm.trans hignore)
  · exact hl id mode rfl

/-- The network right after a channel was opened. -/
def Net.opened (s : Session) (windowSize : Nat) : Net where
  session := s
  wire := []
  credit := windowSize
  heard := s.sent.length
  written := fun _ => []
  got := fun _ => []
  ended := false

end Open

def channelZero (windowSize readAvail : Nat) : Channel :=
  { newChannel 0 2048 512 with
    remoteId := 7
    localWindowSize := 2048
    localPacketSize := 512
    windowSize := windowSize
    readAvail := readAvail }

/-- A session with one channel, which has the number 7 at the server. -/
def oneChannel (windowSize readAvail : Nat) (packets : List Packet) : Session where
  packets := packets
  channels := [channelZero windowSize readAvail]
  nextChannel := 1
  connected := true
  sent := [openPacket (ascii "session") 0 2048 512]

section Runs

variable {id remoteId size : Nat} {n n' : Net}

theorem Started.flowing (h : Started id remoteId size n) : Flowing id remoteId size n := by
  obtain ⟨c, hc, hremote, hsize, hmode, havail, heof, hclose, hcredit⟩ := h.channel
  -- A channel without queued bytes has no bytes of any stream.
  have hempty (streamId : Int) : pending (ofStream id streamId) n.session.packets = [] := by
    have hcount := h.sound.counted id c hc
    rw [havail, queuedFor_eq] at hcount
    have hnil := List.length_eq_zero_iff.mp hcount.symm
    have hsub : (pending (ofStream id streamId) n.session.packets).Sublist
        (pending (Packet.isFor id) n.session.packets) := by
      refine List.Sublist.flatMap ?_ _
      exact List.monotone_filter_right _ fun p hp => ofStream_isFor hp
    rw [hnil] at hsub
    exact List.sublist_nil.mp hsub
  refine ⟨h.sound, h.apart, c, hc, hremote, hsize, hmode, ?_, ?_, ?_, ?_, ?_, ?_, ?_⟩
  · simp [h.wire, h.heard, havail, hcredit]
  · exact h.heard.le
  · intro streamId
    simp [h.got, h.written, h.wire, hempty]
  · simp [h.wire]
  · simp [h.wire, heof, hclose]
  · simp [h.wire]
  · intro before data after hsplit
    rw [h.wire] at hsplit
    simp at hsplit

theorem Flowing.run (hid : id < 2 ^ 32) (h : Flowing id remoteId size n)
    (hrun : Relation.ReflTransGen (NetStep id remoteId size) n n') : Flowing id remoteId size n' := by
  induction hrun with
  | refl => exact h
  | tail _ hstep ih => exact ih.step hid hstep

end Runs

/-! ## Calls of the client -/

/-- Packets that come in unharmed. -/
def arriving (wire : List Bytes) : List Arrival := wire.map fun data => ⟨data, true, 0⟩

/-- The steps that a call on this channel may make. -/
def Label.ownOf (id : Nat) : Label → Bool
  | .widen other _ => other = id
  | .confirm _ => false
  | .forget _ => false
  | .mode _ _ => false
  | _ => true

section Calls

variable {id remoteId size : Nat} {n : Net}

/-- A call on the channel is a part of the run. -/
theorem net_path (remoteId size : Nat) {labels : List Label} {s s' : Session} (hpath : Path Small s labels s')
    (hown : ∀ l ∈ labels, l.ownOf id = true) {n : Net} (hn : n.session = s) {done later : List Bytes}
    (horder : labels.filterMap Label.arrival = arriving done) (hwire : n.wire = done ++ later) :
    Relation.ReflTransGen (NetStep id remoteId size) n
      { n with
        session := s'
        wire := later
        got := fun stream => n.got stream ++ labels.flatMap (readBy id stream) } := by
  induction hpath generalizing n done with
  | nil s =>
    have hdone : done = [] := by simpa [arriving] using horder.symm
    subst hdone hn
    simp only [List.nil_append] at hwire
    simp only [List.flatMap_nil, List.append_nil, ← hwire]
    exact .refl
  | @cons s t u l labels hsmall _ ih =>
    subst hn
    have hrest : ∀ l ∈ labels, l.ownOf id = true := fun l hl => hown l (List.mem_cons_of_mem _ hl)
    have hl := hown l List.mem_cons_self
    by_cases harrive : ∃ a, l = .arrive a
    · obtain ⟨a, rfl⟩ := harrive
      cases done with
      | nil => simp [arriving, Label.arrival] at horder
      | cons data done =>
        simp only [List.filterMap_cons, Label.arrival, arriving, List.map_cons, List.cons.injEq] at horder
        obtain ⟨rfl, horder⟩ := horder
        cases hsmall with
        | arrive a rc _ hadd =>
          have hstep : NetStep id remoteId size n { n with session := t, wire := done ++ later } :=
            .deliver data (done ++ later) t rc hwire hadd
          refine Relation.ReflTransGen.head hstep ?_
          have := ih hrest (n := { n with session := t, wire := done ++ later }) rfl horder rfl
          simpa [readBy] using this
    · have harrival : l.arrival = none := by
        cases l <;> first | rfl | exact absurd ⟨_, rfl⟩ harrive
      rw [List.filterMap_cons_none harrival] at horder
      have hallowed : Allowed id remoteId n.session l t := by
        cases l <;> simp_all [Allowed, Label.ownOf]
      refine Relation.ReflTransGen.head (.client l t hsmall hallowed) ?_
      have := ih hrest (n := { n with session := t, got := fun stream => n.got stream ++ readBy id stream l })
        rfl horder hwire
      simpa [List.append_assoc] using this

/-- A call that reads nothing is a part of the run. -/
theorem Made.net (remoteId size : Nat) {labels : List Label} {s' : Session} {now later : List Bytes} {rest : List Arrival}
    (h : Made n.session (arriving now) labels s' rest) (hwire : n.wire = now ++ later)
    (hlabels : ∀ l ∈ labels, l.ownOf id = true ∧ ∀ stream, readBy id stream l = []) :
    ∃ done left, now = done ++ left ∧ rest = arriving left ∧
      Relation.ReflTransGen (NetStep id remoteId size) n { n with session := s', wire := left ++ later } := by
  obtain ⟨done, left, rfl, hdone, hleft⟩ := List.map_eq_append_iff.mp h.order
  have hnet := net_path remoteId size h.path (fun l hl => (hlabels l hl).1) rfl hdone.symm
    (hwire.trans (List.append_assoc done left later))
  have hgot : (fun stream => n.got stream ++ labels.flatMap (readBy id stream)) = n.got := by
    funext stream
    rw [List.flatMap_eq_nil_iff.mpr fun l hl => (hlabels l hl).2 stream, List.append_nil]
  rw [hgot] at hnet
  exact ⟨done, left, rfl, hleft.symm, hnet⟩

/-- A read is a part of the run, and so are the steps before its bytes are copied. -/
theorem Read.net (remoteId size : Nat) {streamId : Int} {buflen : Nat} {s' : Session} {rc : Int} {bytes : Bytes}
    {now later : List Bytes} {rest : List Arrival}
    (h : Read n.session id streamId buflen (arriving now) s' rc bytes rest) (hwire : n.wire = now ++ later) :
    ∃ (t : Session) (done left : List Bytes), now = done ++ left ∧ rest = arriving left ∧
      Relation.ReflTransGen (NetStep id remoteId size) n { n with session := t, wire := left ++ later } ∧
      ((rc < 0 ∧ bytes = [] ∧ s' = t) ∨
        ∃ c ret, t.channelLocate id = some c ∧ copyOut t c streamId buflen ret = (s', rc, bytes) ∧
          (ret = errorEagain ∨ t.connected = false ∨ ∃ data ∈ now, data.head? = some 0)) := by
  obtain ⟨grants, done, t, hgrants, hmade, hread⟩ := h
  have hplain : ∀ l ∈ grants ++ done.map .arrive, l.ownOf id = true ∧ ∀ stream, readBy id stream l = [] := by
    intro l hl
    rcases List.mem_append.mp hl with hl | hl
    · obtain ⟨n, rfl⟩ := hgrants l hl
      exact ⟨by simp [Label.ownOf], fun _ => rfl⟩
    · obtain ⟨a, -, rfl⟩ := List.mem_map.mp hl
      exact ⟨rfl, fun _ => rfl⟩
  obtain ⟨first, left, hnow, hrest, hnet⟩ := hmade.net remoteId size hwire hplain
  refine ⟨t, first, left, hnow, hrest, hnet, ?_⟩
  rcases hread with hfail | ⟨c, ret, hc, hcopy, hret⟩
  · exact .inl hfail
  · refine .inr ⟨c, ret, hc, hcopy, hret.imp_right fun hret => hret.imp_right ?_⟩
    rintro ⟨a, ha, htype⟩
    obtain ⟨data, hdata, rfl⟩ := List.mem_map.mp ha
    exact ⟨data, hdata, htype⟩

theorem copyOut_connected (s : Session) (c : Channel) (streamId : Int) (buflen : Nat) (rc : Int) :
    (copyOut s c streamId buflen rc).1.connected = s.connected := by
  unfold copyOut
  simp only
  split_ifs <;> rfl

/-- Without a reason from the socket, a read returns 0 only when the server has ended the channel. -/
theorem copyOut_zero {s s' : Session} {c : Channel} {streamId : Int} {buflen : Nat} {bytes : Bytes}
    (h : copyOut s c streamId buflen errorEagain = (s', 0, bytes)) : bytes = [] ∧ (c.eof = true ∨ c.close = true) := by
  unfold copyOut at h
  simp only [ne_eq, not_true_eq_false, if_false] at h
  split at h
  · split at h
    next hended =>
      simp only [Prod.mk.injEq] at h
      exact ⟨h.2.2.symm, hended⟩
    next =>
      simp only [Prod.mk.injEq] at h
      exact absurd h.2.1 (by decide)
  next hbytes =>
    simp only [Prod.mk.injEq] at h
    have hzero := List.length_eq_zero_iff.mp (Int.ofNat_eq_zero.mp h.2.1)
    exact absurd hzero hbytes

/-- What a read that returns 0 means, while the data flows. -/
theorem Flowing.read_zero {streamId : Int} {buflen : Nat} {s' : Session} {bytes : Bytes} {now later : List Bytes}
    {rest : List Arrival} (hid : id < 2 ^ 32) (hflow : Flowing id remoteId size n) (hwire : n.wire = now ++ later)
    (hpos : 0 < buflen) (hlen : buflen < 2 ^ 31)
    (hsize : ∀ c, n.session.channelLocate id = some c → c.windowSizeInitial + buflen + minAdjust < 2 ^ 32)
    (hread : channelReadEx n.session 0 0 id streamId buflen (arriving now) = some (s', 0, bytes, rest)) :
    (n.ended = true ∧ n.got streamId = n.written streamId) ∨ s'.connected = false ∨
      ∃ data ∈ now, data.head? = some 0 := by
  have hsend : ∀ a ∈ arriving now, a.sendRc = 0 := by simp [arriving]
  have hspec := channelReadEx_spec hflow.sound hsend hlen hsize hread
  obtain ⟨t, done, left, -, -, hnet, ⟨hneg, -⟩ | ⟨c, ret, hc, hcopy, hret⟩⟩ := hspec.net remoteId size hwire
  · exact absurd hneg (by decide)
  obtain ⟨hs, -, c', hown⟩ := hflow.run hid hnet
  have hsame : c' = c := Option.some.inj (hown.located.symm.trans hc)
  subst hsame
  rcases hret with rfl | hgone | htype
  · obtain ⟨-, -, hfront, hdrained, -, -, -, -⟩ := copyOut_spec hs (locate_self hc) streamId buflen errorEagain
    obtain ⟨rfl, hended⟩ := copyOut_zero hcopy
    have hint : intLen buflen = buflen := by
      unfold intLen
      rw [u32_of_lt (by omega), if_pos hlen]
    rw [hcopy, hint] at hdrained
    rw [hcopy, hdrained hpos, wanted_eq (locate_localId hc) hown.normal] at hfront
    refine .inl ⟨hown.ended (hended.imp_right .inl), ?_⟩
    have hstreams := hown.streams streamId
    have hwire' : (left ++ later).flatMap (payloadFor id streamId) = [] :=
      List.flatMap_eq_nil_iff.mpr fun data hdata => payloadFor_of_not data streamId (hown.last hended data hdata)
    rw [hwire', ← hfront] at hstreams
    simpa using hstreams
  · refine .inr (.inl ?_)
    have := copyOut_connected t c' streamId buflen ret
    rwa [hcopy, hgone] at this
  · exact .inr (.inr htype)

end Calls

end RemoteSsh.Ssh
