import RemoteSsh.Ssh.Framing
import RemoteSsh.Ssh.Runs

/-!
# The packets of a stream

The server's packets are one stream of bytes, and the socket cuts it wherever it likes. Each call gives the next
packet or waits, and in the end the session has been given all of them, each once and in their order.
-/

open Lib

namespace RemoteSsh.Ssh

section Frame

variable {κ : Type} {mode : Mode κ} {f : Frame κ} {n : Nat} {p : Incoming κ}

/-! ## What the socket holds -/

def Recv.bytes : Recv → Bytes
  | .data bytes => bytes
  | .again => []
  | .failed => []

def incoming (socket : List Recv) : Bytes := socket.flatMap Recv.bytes

/-- The connection stays: no call of `recv` fails or finds the end. -/
def Steady (socket : List Recv) : Prop := ∀ r ∈ socket, r ≠ .failed ∧ r ≠ .data []

instance (socket : List Recv) : Decidable (Steady socket) := inferInstanceAs (Decidable (∀ r ∈ socket, _))

/-- How often `recv` can be called. -/
def turns (socket : List Recv) : Nat := (socket.map fun r => r.bytes.length + 1).sum

@[simp] theorem turns_cons (r : Recv) (socket : List Recv) :
    turns (r :: socket) = r.bytes.length + 1 + turns socket := rfl

theorem Steady.tail {r : Recv} {socket : List Recv} (h : Steady (r :: socket)) : Steady socket :=
  fun a ha => h a (List.mem_cons_of_mem _ ha)

/-- What a call of `recv` leaves behind. -/
structure Received (p : Incoming κ) (socket : List Recv) (p' : Incoming κ) (socket' : List Recv) : Prop where
  same : p' = { p with buf := p'.buf }
  bytes : p'.buf ++ incoming socket' = p.buf ++ incoming socket
  steady : Steady socket'

theorem refill_spec {socket : List Recv} (hsmall : mode.blocksize ≤ packetBufSize) (hsteady : Steady socket) :
    (refill mode p socket = (.next p, socket) ∧ mode.blocksize ≤ p.buf.length) ∨
    (p.buf.length < mode.blocksize ∧ ∃ p' socket', Received p socket p' socket' ∧
      ((refill mode p socket = (.stop errorEagain p', socket') ∧ p' = p ∧
          (socket = [] ∨ turns socket' < turns socket)) ∨
        (refill mode p socket = (.next p', socket') ∧ turns socket' < turns socket))) := by
  unfold refill
  by_cases hless : p.buf.length < mode.blocksize
  · rw [if_pos hless]
    refine .inr ⟨hless, ?_⟩
    cases socket with
    | nil => exact ⟨p, [], ⟨rfl, rfl, hsteady⟩, .inl ⟨rfl, rfl, .inl rfl⟩⟩
    | cons r socket =>
      obtain ⟨hfailed, hempty⟩ := hsteady r (List.mem_cons_self ..)
      cases r with
      | failed => exact absurd rfl hfailed
      | again => exact ⟨p, socket, ⟨rfl, rfl, hsteady.tail⟩, .inl ⟨rfl, rfl, .inr (by simp)⟩⟩
      | data bytes =>
        have hne : bytes ≠ [] := fun hnil => hempty (by rw [hnil])
        dsimp only
        rw [if_neg hne]
        by_cases hroom : bytes.length ≤ packetBufSize - p.buf.length
        · rw [if_pos hroom]
          refine ⟨{ p with buf := p.buf ++ bytes }, socket, ⟨rfl, ?_, hsteady.tail⟩, .inr ⟨rfl, ?_⟩⟩
          · exact List.append_assoc ..
          · rw [turns_cons]
            omega
        · rw [if_neg hroom]
          refine ⟨{ p with buf := p.buf ++ bytes.take (packetBufSize - p.buf.length) },
            .data (bytes.drop (packetBufSize - p.buf.length)) :: socket, ⟨rfl, ?_, ?_⟩, .inr ⟨rfl, ?_⟩⟩
          · show (p.buf ++ _) ++ (_ ++ _) = p.buf ++ (bytes ++ _)
            rw [List.append_assoc, ← List.append_assoc (List.take _ _), Recv.bytes, List.take_append_drop]
          · intro a ha
            rcases List.mem_cons.mp ha with rfl | ha
            · refine ⟨nofun, fun hnil => ?_⟩
              have hdrop := List.drop_eq_nil_iff.mp (Recv.data.inj hnil)
              omega
            · exact hsteady.tail a ha
          · simp only [turns_cons, Recv.bytes, List.length_drop]
            omega
  · rw [if_neg hless]
    exact .inl ⟨rfl, by omega⟩

/-! ## One call -/

/-- The bytes of the packet that are not read yet are in the buffer, on the socket and not in the payload. -/
structure Reading (mode : Mode κ) (f : Frame κ) (later : Bytes) (n : Nat) (p : Incoming κ) (socket : List Recv) :
    Prop where
  place : (n = 0 ∧ p.totalNum = 0 ∧ p.key = f.before) ∨ Midway mode f n p
  inside : n < f.raw.length
  bytes : p.buf ++ incoming socket = f.raw.drop n ++ later
  steady : Steady socket

/-- A call waits only if it needs more than it has. -/
def Hungry (f : Frame κ) (n : Nat) (p : Incoming κ) : Prop := n = 0 ∨ p.buf.length < f.raw.length - n

section Call

variable {later : Bytes} {socket socket' : List Recv} {p' : Incoming κ}

theorem Midway.totalNum_pos (hf : f.Good mode) (h : Midway mode f n p) : p.totalNum ≠ 0 := by
  have hmore := hf.more
  rw [h.totalNum]
  omega

theorem Midway.buffered {buf : Bytes} (h : Midway mode f n p) : Midway mode f n { p with buf := buf } :=
  ⟨h.started, h.inside, h.packetLength, h.paddingLength, h.totalNum, h.payload, h.init, h.key⟩

theorem Reading.received (h : Reading mode f later n p socket) (hr : Received p socket p' socket') :
    Reading mode f later n p' socket' := by
  refine ⟨?_, h.inside, hr.bytes.trans h.bytes, hr.steady⟩
  rw [hr.same]
  exact h.place.imp id Midway.buffered

/-- Whoever waits is not waiting for what is already there. -/
theorem Reading.not_dry (hf : f.Good mode) (h : Reading mode f later n p socket) (hhungry : Hungry f n p)
    (hless : p.buf.length < mode.blocksize) : socket ≠ [] := by
  rintro rfl
  have hraw := hf.raw_length
  have hlarge := hf.large
  have hlen := congrArg List.length h.bytes
  simp only [incoming, List.flatMap_nil, List.append_nil, List.length_append, List.length_drop] at hlen
  rcases hhungry with rfl | hhungry
  · omega
  · omega

/-- The packet is begun, or there is not enough to begin it with. -/
theorem Reading.head (hf : f.Good mode) (h : Reading mode f later n p socket) :
    (n = 0 ∧ p.buf.length < mode.blocksize ∧ readHead mode p = .stop errorEagain p) ∨
    ∃ n' p', readHead mode p = .next p' ∧ Midway mode f n' p' ∧ p'.buf ++ incoming socket = f.raw.drop n' ++ later ∧
      p'.seqno = p.seqno := by
  rcases h.place with ⟨rfl, htotal, hkey⟩ | hmid
  · by_cases hless : p.buf.length < mode.blocksize
    · refine .inl ⟨rfl, hless, ?_⟩
      rw [readHead, if_neg (by simpa using htotal), if_pos hless]
    · obtain ⟨p', hhead, hmid, hb, hseq⟩ := readHead_spec hf htotal hkey (by omega) h.bytes
      exact .inr ⟨_, p', hhead, hmid, hb, hseq⟩
  · refine .inr ⟨n, p, ?_, hmid, h.bytes, rfl⟩
    rw [readHead, if_pos (hmid.totalNum_pos hf)]

/-- One round of the loop, with what is in the buffer. -/
theorem Reading.round (hf : f.Good mode) (h : Reading mode f later n p socket) :
    (n = 0 ∧ p.buf.length < mode.blocksize ∧ readHead mode p = .stop errorEagain p) ∨
    ∃ n' p2 p', readHead mode p = .next p2 ∧ readBody mode p2 = .next p' ∧ Midway mode f n' p' ∧
      p'.buf ++ incoming socket = f.raw.drop n' ++ later ∧ p'.seqno = p.seqno ∧
        ((n' = f.raw.length ∧ p'.payload.length = p'.totalNum) ∨
          (n' < f.raw.length ∧ p'.payload.length ≠ p'.totalNum ∧ p'.buf.length < mode.blocksize ∧
            Hungry f n' p')) := by
  rcases h.head hf with hshort | ⟨n2, p2, hhead, hmid2, hb2, hseq2⟩
  · exact .inl hshort
  · obtain ⟨n', p', hbody, hmid, hb, hseq, hend⟩ := readBody_spec hf hmid2 hb2
    refine .inr ⟨n', p2, p', hhead, hbody, hmid, hb, hseq.trans hseq2, ?_⟩
    have hlen := hmid.payload_length hf
    have htotal := hmid.totalNum
    have hraw := hf.raw_length
    have hfive := hf.blocksize_pos
    have hstarted := hmid.started
    have hmore := hf.more
    rcases hend with rfl | ⟨hinside, hless, hhungry⟩
    · exact .inl ⟨rfl, by omega⟩
    · exact .inr ⟨hinside, by omega, hless, .inr hhungry⟩

/-- How a call ends that began with so many calls of `recv` left: it waits in the middle of the packet, or it has the
whole packet. -/
def Collects (mode : Mode κ) (f : Frame κ) (later : Bytes) (seqno most : Nat) (c : Collected κ) : Prop :=
  (∃ n p socket, c = .stop errorEagain p socket ∧ Reading mode f later n p socket ∧ Hungry f n p ∧ p.seqno = seqno ∧
    turns socket < most) ∨
  ∃ p socket, c = fullpacket mode p socket ∧ Midway mode f f.raw.length p ∧ p.buf ++ incoming socket = later ∧
    p.seqno = seqno ∧ turns socket ≤ most ∧ Steady socket

theorem Collects.mono {seqno most most' : Nat} {c : Collected κ} (h : Collects mode f later seqno most c)
    (hle : most ≤ most') : Collects mode f later seqno most' c := by
  rcases h with ⟨n, p, socket, hc, hreading, hhungry, hseq, hless⟩ | ⟨p, socket, hc, hmid, hb, hseq, hmost, hsteady⟩
  · exact .inl ⟨n, p, socket, hc, hreading, hhungry, hseq, by omega⟩
  · exact .inr ⟨p, socket, hc, hmid, hb, hseq, by omega, hsteady⟩

/-- One call takes the packet as far as it can. -/
theorem collect_spec (hf : f.Good mode) (hsmall : mode.blocksize ≤ packetBufSize) {fuel : Nat}
    (h : Reading mode f later n p socket) (hhungry : Hungry f n p)
    (hfuel : turns socket + (if p.buf.length < mode.blocksize then 0 else 1) < fuel) :
    Collects mode f later p.seqno (turns socket) (collect mode fuel p socket) := by
  induction fuel generalizing n p socket with
  | zero => omega
  | succ fuel ih =>
    -- What is left to do once there is something in the buffer.
    have hrest {p1 : Incoming κ} {socket1 : List Recv} (h1 : Reading mode f later n p1 socket1)
        (hseq1 : p1.seqno = p.seqno) (hle : turns socket1 ≤ turns socket)
        (hmore : turns socket1 < turns socket ∨ mode.blocksize ≤ p1.buf.length) (hleft : turns socket1 < fuel)
        (hrefill : refill mode p socket = (.next p1, socket1)) :
        Collects mode f later p.seqno (turns socket) (collect mode (fuel + 1) p socket) := by
      unfold collect
      rw [hrefill]
      dsimp only
      rcases h1.round hf with ⟨rfl, hless, hhead⟩ | ⟨n', p2, p', hhead, hbody, hmid, hb, hseq, hend⟩
      · exact .inl ⟨0, p1, socket1, by rw [hhead], h1, .inl rfl, hseq1, by omega⟩
      · rw [hhead]
        dsimp only
        rw [hbody]
        dsimp only
        rcases hend with ⟨rfl, hfull⟩ | ⟨hinside, hpart, hless, hhungry'⟩
        · rw [if_pos hfull]
          rw [List.drop_length, List.nil_append] at hb
          exact .inr ⟨p', socket1, rfl, hmid, hb, hseq.trans hseq1, hle, h1.steady⟩
        · rw [if_neg hpart]
          have h' : Reading mode f later n' p' socket1 := ⟨.inr hmid, hinside, hb, h1.steady⟩
          have hcollects := ih h' hhungry' (by rw [if_pos hless]; exact hleft)
          rw [hseq.trans hseq1] at hcollects
          exact hcollects.mono hle
    rcases refill_spec (p := p) hsmall h.steady with ⟨hrefill, hlarge⟩ | ⟨hless, p1, socket1, hreceived, hcase⟩
    · have hfull : ¬p.buf.length < mode.blocksize := by omega
      rw [if_neg hfull] at hfuel
      exact hrest h rfl (Nat.le_refl _) (.inr hlarge) (by omega) hrefill
    · rw [if_pos hless] at hfuel
      rcases hcase with ⟨hrefill, hsame, hturns⟩ | ⟨hrefill, hturns⟩
      · have hdry : turns socket1 < turns socket := hturns.resolve_left (h.not_dry hf hhungry hless)
        subst hsame
        refine .inl ⟨n, p1, socket1, ?_, h.received hreceived, hhungry, rfl, hdry⟩
        rw [collect, hrefill]
      · have hseq1 : p1.seqno = p.seqno := by rw [hreceived.same]
        exact hrest (h.received hreceived) hseq1 hturns.le (.inl hturns) (by omega) hrefill

end Call

/-! ## The stream -/

/-- Packets one after the other, from the state of the cipher and the number of the first one. -/
def Chained (mode : Mode κ) : κ → Nat → List (Frame κ) → Prop
  | _, _, [] => True
  | key, seqno, f :: fs =>
    f.Good mode ∧ f.Typed ∧ f.before = key ∧ Chained mode f.after (u32 (seqno + 1)) fs

/-- The packets that the client has not been given yet. -/
inductive Carries (mode : Mode κ) (p : Incoming κ) (socket : List Recv) : List (Frame κ) → Prop
  | nil (htotal : p.totalNum = 0) (hbytes : p.buf ++ incoming socket = []) (hsteady : Steady socket) :
      Carries mode p socket []
  | cons (f : Frame κ) (fs : List (Frame κ)) (n : Nat) (hchain : Chained mode f.before p.seqno (f :: fs))
      (h : Reading mode f (fs.flatMap Frame.raw) n p socket) (hhungry : Hungry f n p) :
      Carries mode p socket (f :: fs)

def Frame.arrival (mode : Mode κ) (seqno : Nat) (f : Frame κ) : Arrival := ⟨f.data, f.macOk mode seqno, 0⟩

/-- The packets as the session gets them. -/
def arrivalsOf (mode : Mode κ) : Nat → List (Frame κ) → List Arrival
  | _, [] => []
  | seqno, f :: fs => f.arrival mode seqno :: arrivalsOf mode (u32 (seqno + 1)) fs

theorem arrivalsOf_send (mode : Mode κ) (seqno : Nat) (fs : List (Frame κ)) :
    ∀ a ∈ arrivalsOf mode seqno fs, a.sendRc = 0 := by
  induction fs generalizing seqno with
  | nil => nofun
  | cons f fs ih =>
    intro a ha
    rcases List.mem_cons.mp ha with rfl | ha
    · rfl
    · exact ih _ a ha

theorem arrivalsOf_length (mode : Mode κ) (seqno : Nat) (fs : List (Frame κ)) :
    (arrivalsOf mode seqno fs).length = fs.length := by
  induction fs generalizing seqno with
  | nil => rfl
  | cons f fs ih => rw [arrivalsOf, List.length_cons, List.length_cons, ih]

section Stream

variable {fs : List (Frame κ)} {socket : List Recv} {s : Session} {fuel : Nat}

/-- Between two packets. -/
theorem carries_between (hchain : Chained mode p.key p.seqno fs) (htotal : p.totalNum = 0)
    (hb : p.buf ++ incoming socket = fs.flatMap Frame.raw) (hsteady : Steady socket) : Carries mode p socket fs := by
  cases fs with
  | nil => exact .nil htotal hb hsteady
  | cons f fs =>
    have hraw := hchain.1.raw_length
    have hkey : p.key = f.before := hchain.2.2.1.symm
    rw [hkey] at hchain
    exact .cons f fs 0 hchain ⟨.inl ⟨rfl, htotal, hkey⟩, by omega, hb, hsteady⟩ (.inl rfl)

/-- With nothing left of the stream, a call waits. -/
theorem collect_dry (hpos : 0 < mode.blocksize) (hfuel : 0 < fuel) (hb : p.buf ++ incoming socket = [])
    (hsteady : Steady socket) : collect mode fuel p socket = .stop errorEagain p socket.tail := by
  obtain ⟨hbuf, hsocket⟩ := List.append_eq_nil_iff.mp hb
  obtain ⟨fuel, rfl⟩ := Nat.exists_eq_succ_of_ne_zero hfuel.ne'
  have hless : p.buf.length < mode.blocksize := by rwa [hbuf]
  unfold collect refill
  rw [if_pos hless]
  cases socket with
  | nil => rfl
  | cons r socket =>
    obtain ⟨hfailed, hempty⟩ := hsteady r (List.mem_cons_self ..)
    cases r with
    | failed => exact absurd rfl hfailed
    | again => rfl
    | data bytes =>
      have hnil : bytes = [] := (List.append_eq_nil_iff.mp hsocket).1
      exact absurd (by rw [hnil]) hempty

/-- One call: the next packet goes to the session, or the call waits. -/
theorem transportReadFrom_spec (hpos : 0 < mode.blocksize) (hsmall : mode.blocksize ≤ packetBufSize)
    (h : Carries mode p socket fs) (hfuel : turns socket + 1 < fuel) (hconn : s.connected = true) :
    (∃ p' socket', transportReadFrom mode fuel s 0 p socket = some (s, errorEagain, p', socket') ∧
      Carries mode p' socket' fs ∧ p'.seqno = p.seqno ∧
        (fs = [] ∧ socket' = socket.tail ∨ turns socket' < turns socket)) ∨
    ∃ f fs' p' socket', fs = f :: fs' ∧ Carries mode p' socket' fs' ∧ p'.seqno = u32 (p.seqno + 1) ∧
      turns socket' ≤ turns socket ∧ transportReadFrom mode fuel s 0 p socket =
        (transportRead s (arrivalsOf mode p.seqno fs)).map fun r => (r.1, r.2.1, p', socket') := by
  unfold transportReadFrom
  rw [if_neg (by simp [hconn])]
  cases h with
  | nil htotal hbytes hsteady =>
    rw [collect_dry hpos (by omega) hbytes hsteady]
    have htail : Steady socket.tail := fun r hr => hsteady r (List.mem_of_mem_tail hr)
    refine .inl ⟨p, socket.tail, rfl, .nil htotal ?_ htail, rfl, .inl ⟨rfl, rfl⟩⟩
    obtain ⟨hbuf, hsocket⟩ := List.append_eq_nil_iff.mp hbytes
    rw [hbuf, List.nil_append]
    cases socket with
    | nil => rfl
    | cons r socket => exact (List.append_eq_nil_iff.mp hsocket).2
  | cons f fs n hchain h hhungry =>
    obtain ⟨hf, htyped, -, hnext⟩ := hchain
    have hrounds : turns socket + (if p.buf.length < mode.blocksize then 0 else 1) < fuel := by
      split
      · omega
      · exact hfuel
    rcases collect_spec hf hsmall h hhungry hrounds with
      ⟨n', p', socket', hcollect, hreading, hhungry', hseq, hturns⟩ |
      ⟨p', socket', hcollect, hmid, hb, hseq, hturns, hsteady⟩
    · rw [hcollect]
      rw [← hseq] at hnext
      exact .inl ⟨p', socket', rfl, .cons f fs n' ⟨hf, htyped, rfl, hnext⟩ hreading hhungry', hseq, .inr hturns⟩
    · rw [← hseq] at hnext
      obtain ⟨hfull, hdata, hne, hlen⟩ := fullpacket_spec hf htyped hmid socket'
      refine .inr ⟨f, fs, { p' with seqno := u32 (p'.seqno + 1), totalNum := 0 }, socket', rfl, ?_, by rw [hseq],
        hturns, ?_⟩
      · refine carries_between ?_ rfl hb hsteady
        show Chained mode p'.key _ fs
        rw [hmid.end_key hf]
        exact hnext
      · -- The type of the packet is the first byte of what the session gets.
        have htype : p'.payload.headD 0 = f.data.headD 0 := by
          obtain ⟨b, tail, hcons⟩ := List.exists_cons_of_ne_nil hne
          rw [← List.take_append_drop (f.packetLength - 1 - f.paddingLength) p'.payload, hdata, hcons]
          rfl
        rw [hcollect, hfull]
        dsimp only
        rw [if_neg (by omega), hdata, htype]
        unfold transportRead
        rw [if_neg (by simp [hconn]), arrivalsOf, ← hseq]
        dsimp only [Frame.arrival]
        cases packetAdd s 0 (f.macOk mode p'.seqno) f.data with
        | none => rfl
        | some r => rfl

/-! ## All of the stream -/

/-- Reads packets as long as there are some, and waits as long as the socket has something to come. -/
def drainFrom (mode : Mode κ) (fuel : Nat) : Nat → Session → Incoming κ → List Recv → Option (Session × Int)
  | 0, _, _, _ => none
  | calls + 1, s, p, socket => do
    let (s', rc, p', socket') ← transportReadFrom mode fuel s 0 p socket
    if 0 < rc ∨ (rc = errorEagain ∧ socket ≠ []) then drainFrom mode fuel calls s' p' socket' else return (s', rc)

def Incoming.fresh (key : κ) (seqno : Nat) : Incoming κ := ⟨[], [], 0, 0, 0, [], seqno, key⟩

theorem drain_gone (hgone : s.connected = false) (arrivals : List Arrival) :
    drain s arrivals = some (s, 0, arrivals) := by
  cases arrivals with
  | nil => rw [drain, transportRead, if_pos hgone]
  | cons a rest =>
    rw [drain, transportRead, if_pos hgone]
    rfl

theorem drain_cons_map (a : Arrival) (rest : List Arrival) : drain s (a :: rest) =
    (transportRead s (a :: rest)).bind fun r => if 0 < r.2.1 then drain r.1 rest else some r := rfl

theorem drainFrom_spec {calls : Nat} (hpos : 0 < mode.blocksize) (hsmall : mode.blocksize ≤ packetBufSize)
    (h : Carries mode p socket fs) (hfuel : turns socket + 1 < fuel) (hcalls : turns socket + fs.length < calls) :
    drainFrom mode fuel calls s p socket =
      (drain s (arrivalsOf mode p.seqno fs)).map fun r => (r.1, r.2.1) := by
  induction calls generalizing s p socket fs with
  | zero => omega
  | succ calls ih =>
    unfold drainFrom
    by_cases hconn : s.connected = true
    case neg =>
      have hgone : s.connected = false := by simpa using hconn
      rw [drain_gone hgone, transportReadFrom, if_pos hgone]
      rfl
    rcases transportReadFrom_spec hpos hsmall h hfuel hconn with
      ⟨p', socket', hcall, hcarries, hseq, hless⟩ | ⟨f, fs', p', socket', rfl, hcarries, hseq, hle, hcall⟩
    · rw [hcall]
      dsimp only [Option.bind_eq_bind, Option.bind_some]
      by_cases hsocket : socket = []
      · subst hsocket
        obtain ⟨rfl, -⟩ : fs = [] ∧ _ := hless.resolve_right (Nat.not_lt_zero _)
        rw [if_neg (by simp [errorEagain])]
        simp [arrivalsOf, drain, transportRead, hconn]
      · have hfewer : turns socket' < turns socket := by
          rcases hless with ⟨-, rfl⟩ | hless
          · obtain ⟨r, tail, rfl⟩ := List.exists_cons_of_ne_nil hsocket
            rw [turns_cons, List.tail_cons]
            omega
          · exact hless
        rw [if_pos (.inr ⟨rfl, hsocket⟩), ih hcarries (by omega) (by omega), hseq]
    · have hsend := arrivalsOf_send mode p.seqno (f :: fs')
      rw [List.length_cons] at hcalls
      rw [hcall, arrivalsOf, drain_cons_map]
      rw [arrivalsOf] at hsend
      cases hread : transportRead s (f.arrival mode p.seqno :: arrivalsOf mode (u32 (p.seqno + 1)) fs') with
      | none => rfl
      | some r =>
        obtain ⟨s', rc, rest'⟩ := r
        have hrc : rc ≠ errorEagain := by
          rcases transportRead_cases hsend hread with ⟨hgone, -⟩ | ⟨hnil, -⟩ | ⟨-, -, -, hrc, -⟩
          · exact absurd hgone (by simp [hconn])
          · cases hnil
          · exact hrc
        dsimp only [Option.map_some, Option.bind_eq_bind, Option.bind_some]
        by_cases hmore : 0 < rc
        · rw [if_pos (.inl hmore), if_pos hmore, ih hcarries (by omega) (by omega), hseq]
        · rw [if_neg (by simp [hmore, hrc]), if_neg hmore]
          rfl

/-- However the socket cuts the stream, the session is given the packets that are in it. -/
theorem stream_drained {key : κ} {seqno calls : Nat} (hchain : Chained mode key seqno fs) (hpos : 0 < mode.blocksize)
    (hsmall : mode.blocksize ≤ packetBufSize) (hsteady : Steady socket)
    (hbytes : incoming socket = fs.flatMap Frame.raw) (hfuel : turns socket + 1 < fuel)
    (hcalls : turns socket + fs.length < calls) :
    drainFrom mode fuel calls s (.fresh key seqno) socket =
      (drain s (arrivalsOf mode seqno fs)).map fun r => (r.1, r.2.1) :=
  drainFrom_spec hpos hsmall (carries_between hchain rfl hbytes hsteady) hfuel hcalls

/-! ## A damaged packet -/

end Stream

end Frame

end RemoteSsh.Ssh
