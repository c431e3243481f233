import RemoteSsh.Ssh.Account

/-!
# Reading what is queued

The copy loop takes bytes from the packets it wants, from the first packet on, and leaves the other packets
alone.
-/

open Lib

namespace RemoteSsh.Ssh

/-- The bytes that the packets of a kind still have to give. -/
def pending (want : Packet → Bool) (packets : List Packet) : Bytes := (packets.filter want).flatMap Packet.rest

/-- A kind of packets that does not depend on how much of them was read. -/
def ByHeader (want : Packet → Bool) : Prop := ∀ p n, want { p with dataHead := n } = want p

theorem byHeader_wanted (c : Channel) (streamId : Int) : ByHeader (wanted c streamId) := fun _ _ => rfl

theorem byHeader_isFor (id : Nat) : ByHeader (Packet.isFor id) := fun _ _ => rfl

section Pending

variable {want other : Packet → Bool} {p : Packet} {packets : List Packet}

@[simp] theorem pending_nil : pending want [] = [] := rfl

theorem pending_cons_pos (h : want p = true) : pending want (p :: packets) = p.rest ++ pending want packets := by
  simp [pending, h]

theorem pending_cons_neg (h : want p = false) : pending want (p :: packets) = pending want packets := by
  simp [pending, h]

theorem pending_append (packets' : List Packet) :
    pending want (packets ++ packets') = pending want packets ++ pending want packets' := by
  simp [pending]

theorem queuedFor_eq (id : Nat) : queuedFor id packets = (pending (Packet.isFor id) packets).length := by
  simp [queuedFor, pending, List.length_flatMap]

/-! ## The copy loop -/

theorem rest_advance (n : Nat) : Packet.rest { p with dataHead := p.dataHead + n } = p.rest.drop n := by
  simp [Packet.rest]

/-- One packet of the loop, as a case for each branch. -/
theorem readLoop_cons (buflen bytesRead : Nat) :
    readLoop want buflen bytesRead (p :: packets) =
      if buflen ≤ bytesRead then ([], p :: packets)
      else if want p = false then
        ((readLoop want buflen bytesRead packets).1, p :: (readLoop want buflen bytesRead packets).2)
      else if p.rest.length ≤ buflen - bytesRead then
        (p.rest ++ (readLoop want buflen (bytesRead + p.rest.length) packets).1,
          (readLoop want buflen (bytesRead + p.rest.length) packets).2)
      else
        (p.rest.take (buflen - bytesRead), { p with dataHead := p.dataHead + (buflen - bytesRead) } :: packets) := by
  have hfull (packets : List Packet) : readLoop want buflen buflen packets = ([], packets) := by
    cases packets <;> simp [readLoop]
  rw [readLoop]
  by_cases hlt : bytesRead < buflen
  · rw [if_pos hlt, if_neg (Nat.not_le.mpr hlt)]
    cases hwant : want p with
    | false => simp
    | true =>
      by_cases hle : p.rest.length ≤ buflen - bytesRead
      · simp [hle]
      · have hend : bytesRead + (buflen - bytesRead) = buflen := by omega
        simp [hle, hend, hfull]
  · rw [if_neg hlt, if_pos (Nat.not_lt.mp hlt)]

/-- What is read is taken from the front of what is pending. -/
theorem readLoop_pending (hwant : ByHeader want) (buflen bytesRead : Nat) (packets : List Packet) :
    (readLoop want buflen bytesRead packets).1 ++ pending want (readLoop want buflen bytesRead packets).2 =
      pending want packets := by
  induction packets generalizing bytesRead with
  | nil => rfl
  | cons p packets ih =>
    rw [readLoop_cons]
    split
    · rfl
    · split
      next hno => rw [pending_cons_neg hno, pending_cons_neg hno, ih]
      next hyes =>
        have hyes : want p = true := by simpa using hyes
        split
        · rw [pending_cons_pos hyes, List.append_assoc, ih]
        · rw [pending_cons_pos ((hwant p _).trans hyes), pending_cons_pos hyes, rest_advance, ← List.append_assoc,
            List.take_append_drop]

/-- Packets of another kind keep all they have. -/
theorem readLoop_other (hother : ByHeader other) (hdisjoint : ∀ p, want p = true → other p = false)
    (buflen bytesRead : Nat) (packets : List Packet) :
    pending other (readLoop want buflen bytesRead packets).2 = pending other packets := by
  induction packets generalizing bytesRead with
  | nil => rfl
  | cons p packets ih =>
    rw [readLoop_cons]
    split
    · rfl
    · split
      next =>
        cases ho : other p with
        | false => rw [pending_cons_neg ho, pending_cons_neg ho, ih]
        | true => rw [pending_cons_pos ho, pending_cons_pos ho, ih]
      next hyes =>
        have hno := hdisjoint p (by simpa using hyes)
        split
        · rw [pending_cons_neg hno, ih]
        · rw [pending_cons_neg ((hother p _).trans hno), pending_cons_neg hno]

/-- A wider kind loses exactly as many bytes as are read. -/
theorem readLoop_within (want : Packet → Bool) (hother : ByHeader other) (hsub : ∀ p, want p = true → other p = true)
    (buflen bytesRead : Nat) (packets : List Packet) :
    (readLoop want buflen bytesRead packets).1.length +
      (pending other (readLoop want buflen bytesRead packets).2).length = (pending other packets).length := by
  induction packets generalizing bytesRead with
  | nil => rfl
  | cons p packets ih =>
    rw [readLoop_cons]
    split
    · simp
    · split
      next =>
        cases ho : other p with
        | false => rw [pending_cons_neg ho, pending_cons_neg ho, ih]
        | true =>
          rw [pending_cons_pos ho, pending_cons_pos ho, List.length_append, List.length_append, ← ih bytesRead]
          simp only
          omega
      next hyes =>
        have hin := hsub p (by simpa using hyes)
        split
        · rw [pending_cons_pos hin, List.length_append, List.length_append,
            ← ih (bytesRead + p.rest.length)]
          simp only
          omega
        · rw [pending_cons_pos ((hother p _).trans hin), pending_cons_pos hin, rest_advance, List.length_append,
            List.length_append, List.length_take, List.length_drop]
          omega

/-- A packet gives bytes away only at its front. -/
theorem readLoop_sublist (hother : ByHeader other) (buflen bytesRead : Nat) (packets : List Packet) :
    (pending other (readLoop want buflen bytesRead packets).2).Sublist (pending other packets) := by
  induction packets generalizing bytesRead with
  | nil => exact List.Sublist.refl _
  | cons p packets ih =>
    rw [readLoop_cons]
    split
    · exact List.Sublist.refl _
    · cases ho : other p with
      | false =>
        rw [pending_cons_neg ho]
        split
        · rw [pending_cons_neg ho]
          exact ih _
        · split
          · exact ih _
          · rw [pending_cons_neg ((hother p _).trans ho)]
      | true =>
        rw [pending_cons_pos ho]
        split
        · rw [pending_cons_pos ho]
          exact (List.Sublist.refl _).append (ih _)
        · split
          · exact (ih _).trans (List.sublist_append_right _ _)
          · rw [pending_cons_pos ((hother p _).trans ho), rest_advance]
            exact (List.drop_sublist _ _).append (List.Sublist.refl _)

theorem readLoop_data {q : Packet} (buflen bytesRead : Nat) (packets : List Packet)
    (hq : q ∈ (readLoop want buflen bytesRead packets).2) : ∃ p ∈ packets, q.data = p.data := by
  induction packets generalizing bytesRead with
  | nil => simp [readLoop] at hq
  | cons p packets ih =>
    rw [readLoop_cons] at hq
    split at hq
    · exact ⟨q, hq, rfl⟩
    · split at hq
      · rcases List.mem_cons.mp hq with rfl | hq
        · exact ⟨q, List.mem_cons_self, rfl⟩
        · obtain ⟨p', hp', heq⟩ := ih _ hq
          exact ⟨p', List.mem_cons_of_mem _ hp', heq⟩
      · split at hq
        · obtain ⟨p', hp', heq⟩ := ih _ hq
          exact ⟨p', List.mem_cons_of_mem _ hp', heq⟩
        · rcases List.mem_cons.mp hq with rfl | hq
          · exact ⟨p, List.mem_cons_self, rfl⟩
          · exact ⟨q, List.mem_cons_of_mem _ hq, rfl⟩

theorem readLoop_length (want : Packet → Bool) (buflen bytesRead : Nat) (packets : List Packet) :
    (readLoop want buflen bytesRead packets).1.length ≤ buflen - bytesRead := by
  induction packets generalizing bytesRead with
  | nil => simp [readLoop]
  | cons p packets ih =>
    rw [readLoop_cons]
    split
    · simp
    · split
      · exact ih bytesRead
      · split
        · have := ih (bytesRead + p.rest.length)
          rw [List.length_append]
          omega
        · simp

/-- A read that is not full has taken everything. -/
theorem readLoop_drained (want : Packet → Bool) (buflen bytesRead : Nat) (packets : List Packet)
    (h : (readLoop want buflen bytesRead packets).1.length < buflen - bytesRead) :
    pending want (readLoop want buflen bytesRead packets).2 = [] := by
  induction packets generalizing bytesRead with
  | nil => rfl
  | cons p packets ih =>
    rw [readLoop_cons] at h ⊢
    split at h
    · simp at h
      omega
    next hlt =>
      rw [if_neg hlt]
      split at h
      next hno =>
        rw [if_pos hno, pending_cons_neg hno]
        exact ih _ h
      next hyes =>
        rw [if_neg hyes]
        split at h
        next hle =>
          rw [if_pos hle]
          rw [List.length_append] at h
          exact ih _ (by omega)
        next hgt =>
          simp at h
          omega

end Pending

end RemoteSsh.Ssh
