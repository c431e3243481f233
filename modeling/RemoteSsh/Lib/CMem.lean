import Mathlib.Data.List.TakeWhile
import Mathlib.Tactic.Ring

/-!
# C memory and C strings

An allocated block is the list of its bytes, so its length is its size. A function that would read
or write outside a block gives `none`.
-/

namespace Lib

abbrev Bytes := List UInt8

/-- A `long` that is used as an `unsigned long`. -/
def toULong (n : Int) : Nat := (n % 2 ^ 64).toNat

/-- The bytes before the first NUL. -/
def cstr (b : Bytes) : Bytes := b.takeWhile (· ≠ 0)

/-- Scans for the NUL. `none` if the scan runs out of the block. -/
def strlen : Bytes → Option Nat
  | [] => none
  | x :: rest => if x = 0 then some 0 else (strlen rest).map (· + 1)

/-- Keeps the old bytes as far as they fit. New bytes hold whatever was there. A size of zero frees
the block. -/
def realloc (fresh : Nat → UInt8) (b : Bytes) (size : Nat) : Option Bytes :=
  if size = 0 then none else some (b.take size ++ (List.range (size - b.length)).map fresh)

def memcpy (dst : Bytes) (offset : Nat) (src : Bytes) (n : Nat) : Option Bytes :=
  if n ≤ src.length ∧ offset + n ≤ dst.length then
    some (dst.take offset ++ src.take n ++ dst.drop (offset + n))
  else none

def memset (dst : Bytes) (offset : Nat) (byte : UInt8) (n : Nat) : Option Bytes :=
  if offset + n ≤ dst.length then
    some (dst.take offset ++ List.replicate n byte ++ dst.drop (offset + n))
  else none

/-! ## Unsigned lengths -/

theorem toULong_of_range (n : Int) (h : 0 ≤ n) (hlt : n < 2 ^ 64) : toULong n = n.toNat := by
  rw [toULong, Int.emod_eq_of_lt h hlt]

theorem toULong_natCast (n : Nat) (hlt : n < 2 ^ 64) : toULong n = n := by
  rw [toULong_of_range _ (by omega) (by omega)]
  rfl

theorem toULong_negative (n : Int) (h : n < 0) (hmin : -2 ^ 63 ≤ n) : 2 ^ 63 ≤ toULong n := by
  have : n % 2 ^ 64 = n + 2 ^ 64 := by omega
  rw [toULong, this]
  omega

theorem toULong_wrapped (n : Int) (h : 2 ^ 64 ≤ n) (hlt : n < 2 * 2 ^ 64) :
    toULong n = n.toNat - 2 ^ 64 := by
  have : n % 2 ^ 64 = n - 2 ^ 64 := by omega
  rw [toULong, this]
  omega

/-! ## The first NUL -/

theorem forall_ne_nul (s : Bytes) (h : 0 ∉ s) : ∀ x ∈ s, decide (x ≠ 0) = true := by
  intro x hx
  simp only [ne_eq, decide_not, Bool.not_eq_eq_eq_not, Bool.not_true, decide_eq_false_iff_not]
  exact fun h0 => h (h0 ▸ hx)

theorem cstr_append_nul (s rest : Bytes) (h : 0 ∉ s) : cstr (s ++ 0 :: rest) = s := by
  unfold cstr
  rw [List.takeWhile_append_of_pos (forall_ne_nul s h)]
  simp

theorem nul_notMem_cstr (b : Bytes) : 0 ∉ cstr b := by
  intro h
  simpa using List.mem_takeWhile_imp h

theorem cstr_length_le (b : Bytes) : (cstr b).length ≤ b.length :=
  (List.takeWhile_prefix _).length_le

theorem cstr_eq_self (b : Bytes) (h : 0 ∉ b) : cstr b = b := by
  unfold cstr
  rw [List.takeWhile_eq_self_iff]
  exact forall_ne_nul b h

theorem cstr_eq_self_iff (b : Bytes) : cstr b = b ↔ 0 ∉ b :=
  ⟨fun h => h ▸ nul_notMem_cstr b, cstr_eq_self b⟩

theorem cstr_length_lt (b : Bytes) (h : 0 ∈ b) : (cstr b).length < b.length := by
  rcases Nat.lt_or_ge (cstr b).length b.length with hlt | hge
  · exact hlt
  · have := (List.takeWhile_prefix (l := b) (· ≠ 0)).eq_of_length_le hge
    exact absurd h ((cstr_eq_self_iff b).mp this)

theorem exists_eq_cstr (b : Bytes) (h : 0 ∈ b) : ∃ rest, b = cstr b ++ 0 :: rest := by
  induction b with
  | nil => simp at h
  | cons x b ih =>
    by_cases hx : x = 0
    · exact ⟨b, by simp [cstr, hx]⟩
    · obtain ⟨rest, hrest⟩ := ih (by simpa [Ne.symm hx] using h)
      refine ⟨rest, ?_⟩
      have : cstr (x :: b) = x :: cstr b := by simp [cstr, hx]
      rw [this, List.cons_append, ← hrest]

theorem strlen_append_nul (s rest : Bytes) (h : 0 ∉ s) : strlen (s ++ 0 :: rest) = some s.length := by
  induction s with
  | nil => simp [strlen]
  | cons x s ih =>
    have hx : x ≠ 0 := fun h0 => h (by simp [h0])
    have hs : 0 ∉ s := fun h0 => h (by simp [h0])
    simp [strlen, hx, ih hs]

theorem strlen_of_mem (b : Bytes) (h : 0 ∈ b) : strlen b = some (cstr b).length := by
  obtain ⟨rest, hrest⟩ := exists_eq_cstr b h
  conv_lhs => rw [hrest]
  exact strlen_append_nul _ _ (nul_notMem_cstr b)

theorem strlen_of_notMem (b : Bytes) (h : 0 ∉ b) : strlen b = none := by
  induction b with
  | nil => rfl
  | cons x b ih =>
    have hx : x ≠ 0 := fun h0 => h (by simp [h0])
    have hb : 0 ∉ b := fun h0 => h (by simp [h0])
    simp [strlen, hx, ih hb]

/-! ## Blocks that hold a C string -/

theorem realloc_keeps (fresh : Nat → UInt8) (s rest : Bytes) (n : Nat) :
    ∃ tail, realloc fresh (s ++ 0 :: rest) (s.length + n + 1) = some (s ++ 0 :: tail) ∧
      tail.length = n := by
  refine ⟨rest.take n ++ (List.range (n - rest.length)).map fresh, ?_, ?_⟩
  · have hsize : s.length + n + 1 - (s ++ 0 :: rest).length = n - rest.length := by simp; omega
    have htake : (s ++ 0 :: rest).take (s.length + n + 1) = s ++ 0 :: rest.take n := by
      rw [show s.length + n + 1 = s.length + (n + 1) by omega, List.take_length_add_append]
      simp
    rw [realloc, if_neg (by omega), hsize, htake]
    simp
  · simp
    omega

/-- A resize that cuts into the C string loses its NUL. -/
theorem realloc_cuts (fresh : Nat → UInt8) (b s : Bytes) (size : Nat) (h : size ≤ (cstr b).length)
    (hs : realloc fresh b size = some s) : strlen s = none := by
  unfold realloc at hs
  split at hs
  · cases hs
  · have hlen := cstr_length_le b
    have hzero : size - b.length = 0 := by omega
    simp only [hzero, List.range_zero, List.map_nil, List.append_nil, Option.some.injEq] at hs
    apply strlen_of_notMem
    rw [← hs]
    intro h0
    have hpre : b.take size = (cstr b).take size := by
      obtain ⟨rest, hrest⟩ := List.takeWhile_prefix (l := b) (· ≠ 0)
      conv_lhs => rw [← hrest]
      exact List.take_append_of_le_length h
    rw [hpre] at h0
    exact nul_notMem_cstr b (List.mem_of_mem_take h0)

theorem memcpy_after (s tail src : Bytes) (x : UInt8) (n : Nat) (hsrc : n ≤ src.length)
    (htail : tail.length = n) :
    ∃ y, memcpy (s ++ x :: tail) s.length src n = some (s ++ src.take n ++ [y]) := by
  have hfit : s.length + n ≤ (s ++ x :: tail).length := by simp; omega
  have hlast : ((s ++ x :: tail).drop (s.length + n)).length = 1 := by simp; omega
  obtain ⟨y, hy⟩ := List.length_eq_one_iff.mp hlast
  exact ⟨y, by rw [memcpy, if_pos ⟨hsrc, hfit⟩, hy]; simp⟩

theorem memset_last (s : Bytes) (x byte : UInt8) : memset (s ++ [x]) s.length byte 1 = some
    (s ++ [byte]) := by
  rw [memset, if_pos (by simp)]
  simp

end Lib
