import RemoteSsh.Lib.CMem

/-!
# Numbers and strings on the wire

A 32-bit number is written with its highest byte first, and a string is its length and its bytes. What
reads past the end of a block gives `none`.
-/

namespace Lib

def htonu32 (n : Nat) : Bytes :=
  [UInt8.ofNat (n / 2 ^ 24), UInt8.ofNat (n / 2 ^ 16), UInt8.ofNat (n / 2 ^ 8), UInt8.ofNat n]

def ntohu32 : Bytes → Option Nat
  | a :: b :: c :: d :: _ => some (a.toNat * 2 ^ 24 + b.toNat * 2 ^ 16 + c.toNat * 2 ^ 8 + d.toNat)
  | _ => none

/-- The number that starts at an offset. -/
def u32At (b : Bytes) (offset : Nat) : Option Nat := ntohu32 (b.drop offset)

def storeStr (s : Bytes) : Bytes := htonu32 s.length ++ s

def ascii (s : String) : Bytes := s.toList.map fun c => UInt8.ofNat c.toNat

@[simp] theorem htonu32_length (n : Nat) : (htonu32 n).length = 4 := rfl

theorem ntohu32_htonu32 (n : Nat) (rest : Bytes) (h : n < 2 ^ 32) : ntohu32 (htonu32 n ++ rest) = some n := by
  simp only [htonu32, List.cons_append, ntohu32, UInt8.toNat_ofNat', Option.some.injEq]
  omega

theorem htonu32_ntohu32 {b : Bytes} {n : Nat} (h : ntohu32 b = some n) : b.take 4 = htonu32 n := by
  unfold ntohu32 at h
  split at h
  · next x y z w _ =>
    have := x.toNat_lt
    have := y.toNat_lt
    have := z.toNat_lt
    have := w.toNat_lt
    simp only [Option.some.injEq] at h
    simp only [List.take_succ_cons, List.take_zero, htonu32, List.cons.injEq, and_true]
    refine ⟨?_, ?_, ?_, ?_⟩ <;>
    · apply UInt8.toNat_inj.mp
      rw [UInt8.toNat_ofNat']
      omega
  · cases h

theorem ntohu32_isSome (b : Bytes) : (ntohu32 b).isSome ↔ 4 ≤ b.length := by
  unfold ntohu32
  split
  · simp
  · next h =>
    rcases b with _ | ⟨x, _ | ⟨y, _ | ⟨z, _ | ⟨w, rest⟩⟩⟩⟩
    all_goals first | exact absurd rfl (h _ _ _ _ _) | simp

theorem u32At_isSome (b : Bytes) (offset : Nat) : (u32At b offset).isSome ↔ offset + 4 ≤ b.length := by
  rw [u32At, ntohu32_isSome, List.length_drop]
  omega

/-- The bytes at an offset are those of a number exactly if the number is read there. -/
theorem take_four_eq_iff (b : Bytes) (offset n : Nat) (h : n < 2 ^ 32) :
    (b.drop offset).take 4 = htonu32 n ↔ u32At b offset = some n := by
  constructor
  · intro heq
    have hsplit := List.take_append_drop 4 (b.drop offset)
    rw [heq] at hsplit
    rw [u32At, ← hsplit, ntohu32_htonu32 n _ h]
  · exact htonu32_ntohu32

theorem u32At_take (b : Bytes) (offset size : Nat) (h : offset + 4 ≤ size) :
    u32At (b.take size) offset = u32At b offset := by
  have hfour (x : Bytes) : ntohu32 x = ntohu32 (x.take 4) := by
    rcases x with _ | ⟨p, _ | ⟨q, _ | ⟨r, _ | ⟨t, rest⟩⟩⟩⟩ <;> rfl
  rw [u32At, u32At, hfour, hfour (b.drop offset), List.drop_take, List.take_take, Nat.min_eq_left (by omega)]

end Lib
