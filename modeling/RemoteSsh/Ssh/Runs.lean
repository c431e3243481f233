import Mathlib.Data.List.Flatten
import RemoteSsh.Ssh.Calls
import RemoteSsh.Ssh.Flow

/-!
# Programs that use a session

A program makes calls, and between any two of them packets come in. The server may send whatever it likes.
The accounts stay sound, and what is read from a stream was sent on it, in this order.
-/

open Lib

namespace RemoteSsh.Ssh

/-- The window of a channel that a step opens. -/
def Label.linked : Label → Option Nat
  | .link _ windowSize _ => some windowSize
  | _ => none

/-! ## What is read was sent -/

/-- The bytes that were read from one stream. -/
def readOf (id : Nat) (streamId : Int) (out : List (Nat × Int × Bytes)) : Bytes :=
  (out.filter fun o => o.1 = id ∧ o.2.1 = streamId).flatMap fun o => o.2.2

/-- All that came on one stream. -/
def cameFor (id : Nat) (streamId : Int) (arrivals : List Arrival) : Bytes :=
  arrivals.flatMap fun a => payloadFor id streamId a.data

/-- Extended data does not come out of the standard stream. -/
def Unmerged (streamId : Int) (s : Session) : Prop :=
  streamId ≠ 0 ∨ ∀ id c, s.channelLocate id = some c → c.extendedDataIgnoreMode ≠ .merge

section Intact

variable {id : Nat} {streamId : Int} {s s' : Session} {l : Label}

/-- What was read and what is queued of a stream, after some steps. -/
def Intact (id : Nat) (streamId : Int) (past : List Label) (s : Session) : Prop :=
  (readOf id streamId (past.filterMap Label.copied) ++ pending (ofStream id streamId) s.packets).Sublist
    (cameFor id streamId (past.filterMap Label.arrival))

@[simp] theorem readOf_append (out out' : List (Nat × Int × Bytes)) :
    readOf id streamId (out ++ out') = readOf id streamId out ++ readOf id streamId out' := by
  simp [readOf]

@[simp] theorem cameFor_append (arrivals arrivals' : List Arrival) :
    cameFor id streamId (arrivals ++ arrivals') = cameFor id streamId arrivals ++ cameFor id streamId arrivals' := by
  simp [cameFor]

/-- What a packet adds to the queue came with it. -/
theorem added_pending (id : Nat) (streamId : Int) {data : Bytes} (h : Added s data s') :
    ∃ bytes, pending (ofStream id streamId) s'.packets = pending (ofStream id streamId) s.packets ++ bytes ∧
      bytes.Sublist (payloadFor id streamId data) := by
  cases h with
  | same extra hcore _ _ => exact ⟨[], by rw [hcore.packets, List.append_nil], List.nil_sublist _⟩
  | refunded c n hcore _ _ _ => exact ⟨[], by rw [hcore.packets, List.append_nil], List.nil_sublist _⟩
  | queued hother =>
    refine ⟨[], ?_, List.nil_sublist _⟩
    rw [List.append_nil]
    exact pending_other (by simp [Packet.isFor, hother])
  | ended c close _ _ _ => exact ⟨[], by simp, List.nil_sublist _⟩
  | accepted c extended n htype hid hc hmode hhead hn hopen =>
    have hp := accepted_packet (n := n) htype hid (by omega) _ rfl
    generalize hpacket : (⟨data.take (dataHead extended + n), dataHead extended⟩ : Packet) = p at hp
    refine ⟨pending (ofStream id streamId) [p], pending_append _, ?_⟩
    cases hof : ofStream id streamId p with
    | false =>
      rw [pending_cons_neg hof]
      exact List.nil_sublist _
    | true =>
      rw [pending_cons_pos hof, pending_nil, List.append_nil, hp.2.2.2]
      have hcode : extended = true → u32At p.data 5 = u32At data 5 := by
        rintro rfl
        rw [← hpacket]
        exact u32At_take _ _ _ (by unfold dataHead; simp; omega)
      have hpayload : payloadFor id streamId data = data.drop (dataHead extended) := by
        simp only [ofStream, decide_eq_true_eq, hp.2.1, hp.2.2.1] at hof
        obtain ⟨hsame, hof⟩ := hof
        rw [← hid] at hsame
        cases extended with
        | false =>
          simp only [dataHead] at hhead
          simp_all [payloadFor, dataFor, dataHead]
        | true =>
          simp only [dataHead] at hhead
          simp_all [payloadFor, dataFor, dataHead]
      rw [hpayload]
      exact List.take_sublist _ _

theorem Intact.quiet {past : List Label} (h : Intact id streamId past s) (hcopied : l.copied = none)
    (hpackets : (pending (ofStream id streamId) s'.packets).Sublist (pending (ofStream id streamId) s.packets)) :
    Intact id streamId (past ++ [l]) s' := by
  have hout : (past ++ [l]).filterMap Label.copied = past.filterMap Label.copied := by simp [hcopied]
  unfold Intact at h ⊢
  rw [hout, List.filterMap_append, cameFor_append]
  exact (((List.Sublist.refl _).append hpackets).trans h).trans (List.sublist_append_left _ _)

theorem Intact.copy {past : List Label} {c : Channel} {stream : Int} {buflen : Nat} {rc : Int} (hs : Sound s)
    (hc : s.channelLocate c.localId = some c) (hmerge : streamId ≠ 0 ∨ c.extendedDataIgnoreMode ≠ .merge)
    (h : Intact id streamId past s) :
    Intact id streamId (past ++ [.copy c.localId stream (copyOut s c stream buflen rc).2.2])
      (copyOut s c stream buflen rc).1 := by
  obtain ⟨-, -, hfront, -, -, hshrinks, -, -⟩ := copyOut_spec hs hc stream buflen rc
  generalize (copyOut s c stream buflen rc).1 = s' at *
  generalize (copyOut s c stream buflen rc).2.2 = bytes at *
  by_cases hempty : bytes = []
  · exact h.quiet (by simp [Label.copied, hempty]) (hshrinks _ (byHeader_ofStream streamId))
  have hlabel : (past ++ [Label.copy c.localId stream bytes]).filterMap Label.copied =
      past.filterMap Label.copied ++ [(c.localId, stream, bytes)] := by simp [Label.copied, hempty]
  have harrival : (past ++ [Label.copy c.localId stream bytes]).filterMap Label.arrival =
      past.filterMap Label.arrival := by simp [Label.arrival]
  unfold Intact at h ⊢
  rw [hlabel, harrival, readOf_append]
  by_cases hmine : c.localId = id ∧ stream = streamId
  · obtain ⟨rfl, rfl⟩ := hmine
    have hwanted : wanted c stream = ofStream c.localId stream := by
      funext p
      rcases hmerge with hzero | hmode
      · simp [wanted, ofStream, hzero]
      · simp [wanted, ofStream, hmode]
    have hread : readOf c.localId stream [(c.localId, stream, bytes)] = bytes := by simp [readOf]
    rw [hread, List.append_assoc, ← hwanted, hfront, hwanted]
    exact h
  · have hread : readOf id streamId [(c.localId, stream, bytes)] = [] := by simp [readOf, hmine]
    rw [hread, List.append_nil]
    exact ((List.Sublist.refl _).append (hshrinks _ (byHeader_ofStream streamId))).trans h

theorem Intact.step {past : List Label} (hs : Sound s) (hmerge : Unmerged streamId s) (h : Intact id streamId past s) (hsmall : Small s l s') : Intact id streamId (past ++ [l]) s' := by
  cases hsmall with
  | arrive a rc _ hadd =>
    obtain ⟨bytes, hpending, hbytes⟩ := added_pending id streamId (packetAdd_cases hs hadd)
    unfold Intact at h ⊢
    have hcame : cameFor id streamId [a] = payloadFor id streamId a.data := by simp [cameFor]
    simp only [List.filterMap_append, List.filterMap_cons, List.filterMap_nil, Label.copied, Label.arrival,
      List.append_nil, cameFor_append]
    rw [hpending, ← List.append_assoc, hcame]
    exact h.append hbytes
  | take type matchOfs matchBuf data htype hask =>
    obtain ⟨before, p, after, hsplit, hp, -, rfl⟩ := packetAsk_some hask
    refine h.quiet rfl ?_
    rw [hsplit]
    rw [pending_removed (asked_isData htype hp)]
  | forget other hother =>
    refine h.quiet rfl ?_
    rw [forget_spec hother]
    exact (List.filter_sublist.filter _).flatMap _
  | copy c stream buflen rc hc => exact h.copy hs hc (hmerge.imp_right fun hall => hall _ c hc)
  | link windowSize packetSize packet _ _ _ => exact h.quiet rfl (List.Sublist.refl _)
  | confirm c remoteId _ _ hc _ => exact h.quiet rfl (List.Sublist.refl _)
  | widen c n hc _ => exact h.quiet rfl (List.Sublist.refl _)
  | mode c mode hc => exact h.quiet rfl (List.Sublist.refl _)
  | send packet _ => exact h.quiet rfl (List.Sublist.refl _)
  | note c localEof localClose hc => exact h.quiet rfl (List.Sublist.refl _)

end Intact

/-! ## What no step changes -/

section Kept

variable {id : Nat} {s s' : Session} {l : Label} {c c' d : Channel}

theorem locate_setChannel_cases (hd : s.channelLocate d.localId = some c)
    (h : (s.setChannel d).channelLocate id = some c') :
    (id = d.localId ∧ c' = d) ∨ s.channelLocate id = some c' := by
  by_cases hid : id = d.localId
  · rw [hid, locate_setChannel_self hd rfl] at h
    exact .inl ⟨hid, (Option.some.inj h).symm⟩
  · rw [locate_setChannel_of_ne hid] at h
    exact .inr h

/-- How a channel was opened, and what happens to extended data. -/
def Channel.terms (c : Channel) : Nat × IgnoreMode := (c.windowSizeInitial, c.extendedDataIgnoreMode)

theorem setChannel_terms (hd : s.channelLocate d.localId = some c) (hterms : d.terms = c.terms)
    (h : (s.setChannel d).channelLocate id = some c') :
    ∃ e, s.channelLocate id = some e ∧ c'.terms = e.terms := by
  rcases locate_setChannel_cases hd h with ⟨rfl, rfl⟩ | hc
  · exact ⟨c, hd, hterms⟩
  · exact ⟨c', hc, rfl⟩

theorem sameCore_terms (hcore : SameCore s s') (h : s'.channelLocate id = some c') :
    ∃ e, s.channelLocate id = some e ∧ c'.terms = e.terms := by
  obtain ⟨e, he, heq⟩ := hcore.locate_some h
  simp only [Channel.core, Channel.mk.injEq] at heq
  exact ⟨e, he, by simp [Channel.terms, heq]⟩

theorem added_terms {data : Bytes} (hadd : Added s data s') (h : s'.channelLocate id = some c') :
    ∃ e, s.channelLocate id = some e ∧ c'.terms = e.terms := by
  cases hadd with
  | same extra hcore _ _ => exact sameCore_terms hcore h
  | refunded d n hcore _ _ _ => exact sameCore_terms hcore h
  | queued _ => exact ⟨c', h, rfl⟩
  | ended d close _ _ hd => exact setChannel_terms (by exact hd) (by rfl) h
  | accepted d extended n _ _ hd _ _ _ _ =>
    exact setChannel_terms (d := { d with eof := false, readAvail := d.readAvail + n }) hd rfl h

theorem added_nextChannel {data : Bytes} (hadd : Added s data s') : s'.nextChannel = s.nextChannel := by
  cases hadd with
  | same extra hcore _ _ => exact hcore.nextChannel
  | refunded d n hcore _ _ _ => exact hcore.nextChannel
  | queued _ => rfl
  | ended d close _ _ _ => rfl
  | accepted d extended n _ _ _ _ _ _ _ => rfl

/-- The terms of a channel are set when it is opened, and the mode only by its own call. -/
theorem small_terms (hs : Sound s) (hsmall : Small s l s') (h : s'.channelLocate id = some c') :
    (∃ windowSize packetSize, l = .link id windowSize packetSize ∧ c'.terms = (windowSize, .normal)) ∨
      ∃ e, s.channelLocate id = some e ∧
        (c'.terms = e.terms ∨ ∃ mode, l = .mode id mode ∧ c'.terms = (e.windowSizeInitial, mode)) := by
  cases hsmall with
  | arrive a rc _ hadd =>
    obtain ⟨e, he, heq⟩ := added_terms (packetAdd_cases hs hadd) h
    exact .inr ⟨e, he, .inl heq⟩
  | take type matchOfs matchBuf data _ hask =>
    obtain ⟨before, p, after, -, -, -, rfl⟩ := packetAsk_some hask
    exact .inr ⟨c', h, .inl rfl⟩
  | link windowSize packetSize packet _ _ _ =>
    rw [locate_link hs] at h
    split at h
    next heq =>
      cases h
      exact .inl ⟨windowSize, packetSize, by rw [nextid_eq hs, heq], rfl⟩
    next => exact .inr ⟨c', h, .inl rfl⟩
  | confirm d remoteId localWindowSize localPacketSize hd _ =>
    obtain ⟨e, he, heq⟩ := setChannel_terms (by exact hd) (by rfl) h
    exact .inr ⟨e, he, .inl heq⟩
  | forget other hother =>
    rw [forget_spec hother] at h
    have hne : id ≠ other := by
      rintro rfl
      exact absurd ((locate_remove_self hs.distinct).symm.trans h) (by simp)
    exact .inr ⟨c', (locate_remove_of_ne hne).symm.trans h, .inl rfl⟩
  | widen d n hd _ =>
    have h := (locate_transportSend _ _).symm.trans h
    obtain ⟨e, he, heq⟩ := setChannel_terms (by exact hd) (by rfl) h
    exact .inr ⟨e, he, .inl heq⟩
  | copy d stream buflen rc hd =>
    rw [(copyOut_spec hs hd stream buflen rc).result] at h
    obtain ⟨e, he, heq⟩ := setChannel_terms (by exact hd) (by rfl) h
    exact .inr ⟨e, he, .inl heq⟩
  | mode d mode hd =>
    rcases locate_setChannel_cases (by exact hd) h with ⟨rfl, rfl⟩ | hc
    · exact .inr ⟨d, hd, .inr ⟨mode, rfl, rfl⟩⟩
    · exact .inr ⟨c', hc, .inl rfl⟩
  | send packet _ => exact .inr ⟨c', (locate_transportSend _ _).symm.trans h, .inl rfl⟩
  | note d localEof localClose hd =>
    obtain ⟨e, he, heq⟩ := setChannel_terms (by exact hd) (by rfl) h
    exact .inr ⟨e, he, .inl heq⟩

/-- Only a new channel takes a number. -/
theorem small_nextChannel (hs : Sound s) (hsmall : Small s l s') :
    s'.nextChannel ≤ s.nextChannel + l.linked.toList.length := by
  cases hsmall with
  | arrive a rc _ hadd => rw [added_nextChannel (packetAdd_cases hs hadd)]; exact Nat.le_add_right _ _
  | take type matchOfs matchBuf data _ hask =>
    obtain ⟨before, p, after, -, -, -, rfl⟩ := packetAsk_some hask
    exact Nat.le_add_right _ _
  | link windowSize packetSize packet _ _ _ =>
    show u32 (nextid s + 1) ≤ s.nextChannel + 1
    rw [nextid_eq hs]
    exact Nat.mod_le _ _
  | forget other hother =>
    rw [forget_spec hother]
    exact Nat.le_add_right _ _
  | copy d stream buflen rc hd =>
    rw [(copyOut_spec hs hd stream buflen rc).result]
    exact Nat.le_add_right _ _
  | confirm d _ _ _ _ _ => exact Nat.le_add_right _ _
  | widen d n _ _ => exact Nat.le_add_right _ _
  | mode d mode _ => exact Nat.le_add_right _ _
  | send packet _ => exact Nat.le_add_right _ _
  | note d _ _ _ => exact Nat.le_add_right _ _

end Kept

theorem Unmerged.step {streamId : Int} {s s' : Session} {l : Label} (h : Unmerged streamId s) (hs : Sound s)
    (hl : streamId ≠ 0 ∨ ∀ other, l ≠ .mode other .merge) (hsmall : Small s l s') : Unmerged streamId s' := by
  rcases h with hzero | h
  · exact .inl hzero
  rcases hl with hzero | hl
  · exact .inl hzero
  refine .inr fun id c' hc' hmerge => ?_
  rcases small_terms hs hsmall hc' with ⟨windowSize, packetSize, -, hterms⟩ | ⟨c, hc, hterms | ⟨mode, rfl, hterms⟩⟩
  · have hmode : c'.extendedDataIgnoreMode = .normal := congrArg Prod.snd hterms
    rw [hmode] at hmerge
    cases hmerge
  · have hmode : c'.extendedDataIgnoreMode = c.extendedDataIgnoreMode := congrArg Prod.snd hterms
    exact h id c hc (hmode.symm.trans hmerge)
  · have hmode : c'.extendedDataIgnoreMode = mode := congrArg Prod.snd hterms
    exact hl id (by rw [← hmode, hmerge])

/-! ## Calls of a program -/

inductive Call where
  | channelOpen (channelType : Bytes) (windowSize packetSize : Nat)
  | processStartup (id : Nat) (request message : Bytes)
  | channelRead (id : Nat) (streamId : Int) (buflen : Nat)
  | extendedData (id : Nat) (mode : IgnoreMode)
  | channelClose (id : Nat)
  | channelFree (id : Nat)

/-- What a call gives: the session, the bytes that were read, the packets that are left, and whether the
call still waits. A read that waits is made again by the caller. -/
structure Outcome where
  session : Session
  out : List (Nat × Int × Bytes)
  rest : List Arrival
  waits : Bool

def Call.run (s : Session) (arrivals : List Arrival) : Call → Option Outcome
  | .channelOpen channelType windowSize packetSize => do
    let (s', _, rc, rest) ← Ssh.channelOpen s 0 channelType windowSize packetSize arrivals
    return ⟨s', [], rest, rc = errorEagain⟩
  | .processStartup id request message => do
    let (s', rc, rest) ← Ssh.processStartup s 0 id request message arrivals
    return ⟨s', [], rest, rc = errorEagain⟩
  | .channelRead id streamId buflen => do
    let (s', _, bytes, rest) ← channelReadEx s 0 0 id streamId buflen arrivals
    return ⟨s', if bytes = [] then [] else [(id, streamId, bytes)], rest, false⟩
  | .extendedData id mode => do
    let c ← s.channelLocate id
    return ⟨s.setChannel { c with extendedDataIgnoreMode := mode }, [], arrivals, false⟩
  | .channelClose id => do
    let (s', rc, rest) ← Ssh.channelClose s 0 0 id arrivals
    return ⟨s', [], rest, rc = errorEagain⟩
  | .channelFree id => do
    let (s', rc, rest) ← Ssh.channelFree s 0 0 id arrivals
    return ⟨s', [], rest, rc = errorEagain⟩

/-- A session after the handshake. -/
def Session.fresh : Session where
  packets := []
  channels := []
  nextChannel := 0
  connected := true
  sent := []

/-- Windows and reads that stay below the largest number of the window's type. -/
def Call.Modest (limit : Nat) : Call → Prop
  | .channelOpen _ windowSize _ => windowSize + limit + minAdjust < 2 ^ 32
  | .channelRead _ _ buflen => buflen ≤ limit
  | _ => True

/-- The windows that a call opens. -/
def Call.links : Call → List Nat
  | .channelOpen _ windowSize _ => [windowSize]
  | _ => []

section Run

variable {s s' : Session} {limit : Nat} {arrivals : List Arrival} {call : Call} {o : Outcome}

/-- What holds between two calls. -/
structure Ready (limit room : Nat) (s : Session) : Prop where
  sound : Sound s
  windows : ∀ id c, s.channelLocate id = some c → c.windowSizeInitial + limit + minAdjust < 2 ^ 32
  room : s.nextChannel + room < 2 ^ 32

theorem Ready.path {room : Nat} {labels : List Label} (h : Ready limit (room + (labels.filterMap Label.linked).length) s)
    (hlinks : ∀ windowSize ∈ labels.filterMap Label.linked, windowSize + limit + minAdjust < 2 ^ 32)
    (hpath : Path Small s labels s') : Ready limit room s' := by
  induction hpath with
  | nil s => exact ⟨h.sound, h.windows, by simpa using h.room⟩
  | @cons s t u l labels hsmall _ ih =>
    have hnext := small_nextChannel h.sound hsmall
    have hroom := h.room
    have hcons : (l :: labels).filterMap Label.linked = l.linked.toList ++ labels.filterMap Label.linked := by
      cases hl : l.linked <;> simp [hl]
    rw [hcons, List.length_append] at hroom
    rw [hcons] at hlinks
    refine ih ⟨h.sound.small hsmall, ?_, by omega⟩ fun windowSize hmem =>
      hlinks windowSize (List.mem_append_right _ hmem)
    intro id c hc
    rcases small_terms h.sound hsmall hc with ⟨windowSize, packetSize, rfl, hterms⟩ | ⟨e, he, hterms | ⟨mode, -, hterms⟩⟩
    · have hwindow : c.windowSizeInitial = windowSize := congrArg Prod.fst hterms
      rw [hwindow]
      exact hlinks windowSize (by simp [Label.linked])
    · have hwindow : c.windowSizeInitial = e.windowSizeInitial := congrArg Prod.fst hterms
      rw [hwindow]
      exact h.windows id e he
    · have hwindow : c.windowSizeInitial = e.windowSizeInitial := congrArg Prod.fst hterms
      rw [hwindow]
      exact h.windows id e he

/-- What the labels of a call show of it. -/
structure Shown (call : Call) (out : List (Nat × Int × Bytes)) (labels : List Label) : Prop where
  copied : labels.filterMap Label.copied = out
  linked : labels.filterMap Label.linked = call.links
  mode : ∀ id mode, Label.mode id mode ∈ labels → call = .extendedData id mode

/-- Labels that are neither reads nor openings nor modes. -/
def Label.plain : Label → Bool
  | .copy _ _ _ => false
  | .link _ _ _ => false
  | .mode _ _ => false
  | _ => true

theorem plain_labels {labels : List Label} (h : ∀ l ∈ labels, l.plain = true) :
    labels.filterMap Label.copied = [] ∧ labels.filterMap Label.linked = [] ∧
      ∀ id mode, Label.mode id mode ∉ labels := by
  refine ⟨List.filterMap_eq_nil_iff.mpr ?_, List.filterMap_eq_nil_iff.mpr ?_, ?_⟩
  · intro l hl
    have := h l hl
    cases l <;> simp_all [Label.copied, Label.plain]
  · intro l hl
    have := h l hl
    cases l <;> simp_all [Label.linked, Label.plain]
  · intro id mode hl
    cases h _ hl

theorem Shown.plain {labels : List Label} (hlinks : call.links = []) (h : ∀ l ∈ labels, l.plain = true) :
    Shown call [] labels := by
  obtain ⟨hcopied, hlinked, hmode⟩ := plain_labels h
  exact ⟨hcopied, hlinked.trans hlinks.symm, fun id mode hl => absurd hl (hmode id mode)⟩

end Run

/-! ## Runs -/

section Runs

variable {s s' : Session} {limit : Nat} {left : List Arrival} {calls : List (Call × List Arrival)}
  {out : List (Nat × Int × Bytes)}

/-- One call uses up at most one number. -/
theorem Ready.call {room : Nat} {call : Call} {labels : List Label} (h : Ready limit (room + 1) s)
    (hmodest : call.Modest limit) (hlinks : labels.filterMap Label.linked = call.links)
    (hpath : Path Small s labels s') : Ready limit room s' := by
  have hroom := h.room
  have hone : call.links.length ≤ 1 := by cases call <;> simp [Call.links]
  refine Ready.path ⟨h.sound, h.windows, by rw [hlinks]; omega⟩ ?_ hpath
  rw [hlinks]
  cases call with
  | channelOpen channelType windowSize packetSize =>
    intro w hw
    rw [List.mem_singleton.mp hw]
    exact hmodest
  | _ => simp [Call.links]

theorem Ready.fresh (h : calls.length < 2 ^ 32) : Ready limit calls.length .fresh := by
  have hnone (id : Nat) : Session.fresh.channelLocate id = none := rfl
  refine ⟨⟨by simp [Session.fresh], ?_, ?_, ?_, ?_, ?_, ?_⟩, ?_, ?_⟩
  · intro c hc
    cases hc
  · intro id c hc
    cases (hnone id).symm.trans hc
  · intro id c hc
    cases (hnone id).symm.trans hc
  · intro id c hc
    cases (hnone id).symm.trans hc
  · intro id c hc
    cases (hnone id).symm.trans hc
  · intro p hp
    cases hp
  · intro id c hc
    cases (hnone id).symm.trans hc
  · show 0 + calls.length < 2 ^ 32
    omega

end Runs

end RemoteSsh.Ssh
