import Mathlib.Data.List.Nodup

/-!
# Tables

A list of records, each with a key. `locate` finds the first record with a key, `update` changes it, and
`remove` takes it out.
-/

namespace Lib

variable {α κ : Type} [DecidableEq κ] (key : α → κ)

def locate (k : κ) (l : List α) : Option α := l.find? fun x => key x = k

def update (k : κ) (f : α → α) : List α → List α
  | [] => []
  | x :: l => if key x = k then f x :: l else x :: update k f l

def remove (k : κ) (l : List α) : List α := l.eraseP fun x => key x = k

variable {key} {k k' : κ} {f : α → α} {l : List α} {x : α}

theorem locate_key (h : locate key k l = some x) : key x = k := by
  simpa using List.find?_some h

theorem locate_mem (h : locate key k l = some x) : x ∈ l := List.mem_of_find?_eq_some h

theorem locate_isSome : (locate key k l).isSome ↔ k ∈ l.map key := by
  rw [locate, List.find?_isSome, List.mem_map]
  simp

theorem locate_eq_none : locate key k l = none ↔ k ∉ l.map key := by
  rw [← locate_isSome, Option.not_isSome_iff_eq_none]

theorem update_keys (hf : ∀ x, key x = k → key (f x) = k) : (update key k f l).map key = l.map key := by
  induction l with
  | nil => rfl
  | cons y l ih =>
    unfold update
    by_cases hy : key y = k
    · rw [if_pos hy, List.map_cons, List.map_cons, hf y hy, hy]
    · rw [if_neg hy, List.map_cons, List.map_cons, ih]

theorem locate_update_self (hf : ∀ x, key x = k → key (f x) = k) :
    locate key k (update key k f l) = (locate key k l).map f := by
  induction l with
  | nil => rfl
  | cons y l ih =>
    unfold update
    by_cases hy : key y = k
    · simp [locate, hy, hf y hy]
    · simpa [locate, hy] using ih

theorem locate_update_of_ne (hf : ∀ x, key x = k → key (f x) = k) (h : k' ≠ k) :
    locate key k' (update key k f l) = locate key k' l := by
  induction l with
  | nil => rfl
  | cons y l ih =>
    unfold update
    by_cases hy : key y = k
    · simp [locate, hy, hf y hy, h.symm]
    · by_cases hy' : key y = k'
      · subst hy'
        simp [locate, hy]
      · simpa [locate, hy, hy'] using ih

theorem update_update {g : α → α} (hf : ∀ x, key x = k → key (f x) = k) :
    update key k g (update key k f l) = update key k (fun x => g (f x)) l := by
  induction l with
  | nil => rfl
  | cons y l ih =>
    by_cases hy : key y = k
    · simp [update, hy, hf y hy]
    · simp [update, hy, ih]

/-- A change of the record that `g` does not see. -/
theorem update_map {β : Type} (g : α → β) {y : α} (h : locate key k l = some x) (hg : g y = g x) :
    (update key k (fun _ => y) l).map g = l.map g := by
  induction l with
  | nil => rfl
  | cons z l ih =>
    unfold update
    by_cases hz : key z = k
    · simp only [locate, hz, decide_true, List.find?_cons_of_pos, Option.some.injEq] at h
      rw [if_pos hz, List.map_cons, List.map_cons, hg, h]
    · rw [if_neg hz]
      simp only [locate, hz, decide_false, Bool.false_eq_true, not_false_eq_true, List.find?_cons_of_neg] at h
      simp [ih h]

theorem locate_map {β : Type} (g : α → β) {key' : β → κ} (hg : ∀ x, key' (g x) = key x) :
    locate key' k (l.map g) = (locate key k l).map g := by
  unfold locate
  rw [List.find?_map]
  simp only [Function.comp_def, hg]

theorem locate_append (l l' : List α) : locate key k (l ++ l') = (locate key k l).or (locate key k l') := by
  simp [locate]

theorem remove_keys (h : (l.map key).Nodup) : ((remove key k l).map key).Nodup :=
  h.sublist (List.eraseP_sublist.map key)

theorem locate_remove_of_ne (h : k' ≠ k) : locate key k' (remove key k l) = locate key k' l := by
  induction l with
  | nil => rfl
  | cons y l ih =>
    by_cases hy : key y = k
    · simp [locate, remove, hy, h.symm]
    · by_cases hy' : key y = k'
      · subst hy'
        simp [locate, remove, hy]
      · simpa [locate, remove, hy, hy'] using ih

theorem locate_remove_self (h : (l.map key).Nodup) : locate key k (remove key k l) = none := by
  induction l with
  | nil => rfl
  | cons y l ih =>
    have hnodup := List.nodup_cons.mp h
    by_cases hy : key y = k
    · have hrest := locate_eq_none.mpr hnodup.1
      rw [hy] at hrest
      simpa [remove, hy] using hrest
    · simpa [locate, remove, hy] using ih hnodup.2

end Lib
