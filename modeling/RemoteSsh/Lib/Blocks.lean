import RemoteSsh.Lib.CMem

/-!
# Ciphers that work on blocks

A cipher takes one block at a time and keeps a state between the blocks. So a text can be cut wherever a block
ends, and the parts come to the same as the whole.
-/

namespace Lib

/-- `none` is a block that the cipher could not work on. -/
structure Cipher (κ : Type) where
  blocksize : Nat
  crypt : κ → Bytes → Option (Bytes × κ)

section Blocks

variable {κ : Type} (c : Cipher κ)

/-- The first `n` blocks of a text. -/
def Cipher.blocks : Nat → κ → Bytes → Option (Bytes × κ)
  | 0, k, _ => some ([], k)
  | n + 1, k, text => do
    let (first, k) ← c.crypt k (text.take c.blocksize)
    let (rest, k) ← Cipher.blocks n k (text.drop c.blocksize)
    return (first ++ rest, k)

/-- A block stays as long as it is. -/
def Cipher.KeepsLength : Prop :=
  ∀ k block out k', c.crypt k block = some (out, k') → out.length = block.length

variable {c} {n m : Nat} {k k' : κ} {text out : Bytes}

theorem blocks_succ : c.blocks (n + 1) k text = (c.crypt k (text.take c.blocksize)).bind fun first =>
    (c.blocks n first.2 (text.drop c.blocksize)).map fun rest => (first.1 ++ rest.1, rest.2) := by
  simp only [Cipher.blocks, Option.bind_eq_bind, Option.pure_def]
  congr 1
  funext first
  rw [Option.map_eq_bind]
  rfl

/-- The blocks of two parts, one after the other. -/
theorem blocks_add (n m : Nat) (k : κ) (text : Bytes) :
    c.blocks (n + m) k text = (c.blocks n k text).bind fun first =>
      (c.blocks m first.2 (text.drop (n * c.blocksize))).map fun rest => (first.1 ++ rest.1, rest.2) := by
  induction n generalizing k text with
  | zero =>
    simp only [Nat.zero_add, Cipher.blocks, Option.bind_some, Nat.zero_mul, List.drop_zero, List.nil_append]
    exact Option.map_id'.symm
  | succ n ih =>
    rw [Nat.add_right_comm, blocks_succ, blocks_succ, Option.bind_assoc]
    congr 1
    funext first
    rw [ih, Option.map_bind, Option.bind_map]
    congr 1
    funext second
    simp only [Function.comp, Option.map_map, List.drop_drop, Nat.succ_mul, Nat.add_comm c.blocksize]
    congr 1
    funext third
    simp

/-- Blocks look no further than they reach. -/
theorem blocks_append (h : n * c.blocksize ≤ text.length) (later : Bytes) :
    c.blocks n k (text ++ later) = c.blocks n k text := by
  induction n generalizing k text with
  | zero => rfl
  | succ n ih =>
    rw [Nat.succ_mul] at h
    rw [blocks_succ, blocks_succ, List.take_append_of_le_length (by omega), List.drop_append_of_le_length (by omega)]
    congr 1
    funext first
    rw [ih (by rw [List.length_drop]; omega)]

theorem blocks_take (h : n * c.blocksize ≤ text.length) :
    c.blocks n k (text.take (n * c.blocksize)) = c.blocks n k text := by
  have hlen : n * c.blocksize ≤ (text.take (n * c.blocksize)).length := by
    rw [List.length_take]
    omega
  have hcut := blocks_append (k := k) hlen (text.drop (n * c.blocksize))
  rw [List.take_append_drop] at hcut
  exact hcut.symm

theorem blocks_length (hlen : c.KeepsLength) (h : n * c.blocksize ≤ text.length)
    (hblocks : c.blocks n k text = some (out, k')) : out.length = n * c.blocksize := by
  induction n generalizing k text out with
  | zero =>
    simp only [Cipher.blocks, Option.some.injEq, Prod.mk.injEq] at hblocks
    simp [← hblocks.1]
  | succ n ih =>
    rw [Nat.succ_mul] at h
    rw [blocks_succ] at hblocks
    obtain ⟨⟨first, k1⟩, hfirst, hrest⟩ := Option.bind_eq_some_iff.mp hblocks
    obtain ⟨⟨rest, k2⟩, hmap, heq⟩ := Option.map_eq_some_iff.mp hrest
    simp only [Prod.mk.injEq] at heq
    obtain ⟨rfl, rfl⟩ := heq
    have hone := hlen _ _ _ _ hfirst
    have hleft : n * c.blocksize ≤ (text.drop c.blocksize).length := by
      rw [List.length_drop]
      omega
    have hmore := ih hleft hmap
    rw [List.length_append, hone, hmore, List.length_take, Nat.succ_mul]
    omega

/-- The blocks of a text in two parts, when the whole goes through. -/
theorem blocks_split (hlen : c.KeepsLength) (h : (n + m) * c.blocksize ≤ text.length)
    (hblocks : c.blocks (n + m) k text = some (out, k')) :
    ∃ k1, c.blocks n k text = some (out.take (n * c.blocksize), k1) ∧
      c.blocks m k1 (text.drop (n * c.blocksize)) = some (out.drop (n * c.blocksize), k') := by
  rw [blocks_add] at hblocks
  obtain ⟨⟨first, k1⟩, hfirst, hrest⟩ := Option.bind_eq_some_iff.mp hblocks
  obtain ⟨⟨rest, k2⟩, hmap, heq⟩ := Option.map_eq_some_iff.mp hrest
  simp only [Prod.mk.injEq] at heq
  obtain ⟨rfl, rfl⟩ := heq
  have hone := blocks_length hlen (by rw [Nat.add_mul] at h; omega) hfirst
  exact ⟨k1, by rw [← hone, List.take_left]; exact hfirst, by rw [← hone, List.drop_left, hone]; exact hmap⟩

/-- `dec` undoes what `enc` does, and both come to the same state. -/
def Cipher.Undoes (dec enc : Cipher κ) : Prop :=
  dec.blocksize = enc.blocksize ∧ ∀ k block, block.length = enc.blocksize →
    ∃ out k', enc.crypt k block = some (out, k') ∧ out.length = enc.blocksize ∧ dec.crypt k out = some (block, k')

theorem blocks_undone {dec enc : Cipher κ} (h : dec.Undoes enc) (htext : text.length = n * enc.blocksize) :
    ∃ out k', enc.blocks n k text = some (out, k') ∧ out.length = n * enc.blocksize ∧
      dec.blocks n k out = some (text, k') := by
  obtain ⟨hsize, hone⟩ := h
  induction n generalizing k text with
  | zero =>
    rw [Nat.zero_mul] at htext
    obtain rfl := List.length_eq_zero_iff.mp htext
    exact ⟨[], k, rfl, by simp, rfl⟩
  | succ n ih =>
    rw [Nat.succ_mul] at htext
    obtain ⟨first, k1, henc, hfirst, hdec⟩ := hone k (text.take enc.blocksize) (by rw [List.length_take]; omega)
    have hleft : (text.drop enc.blocksize).length = n * enc.blocksize := by
      rw [List.length_drop]
      omega
    obtain ⟨rest, k2, hencs, hrest, hdecs⟩ := ih (k := k1) hleft
    refine ⟨first ++ rest, k2, ?_, ?_, ?_⟩
    · rw [blocks_succ, henc, Option.bind_some, hencs]
      rfl
    · rw [List.length_append, hfirst, hrest, Nat.succ_mul, Nat.add_comm]
    · rw [blocks_succ, hsize, List.take_left' hfirst, List.drop_left' hfirst, hdec, Option.bind_some, hdecs]
      simp

end Blocks

end Lib
