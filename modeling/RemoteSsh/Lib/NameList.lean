import Mathlib.Data.List.Infix

/-!
# Name lists

Names with a separator between them, written as one text. A search in the text that does not look
for the separators finds a part of some name, which need not be a name.
-/

namespace Lib

structure NameList {α : Type} (sep : α) where
  names : List (List α)
  noEmpty : ∀ name ∈ names, name ≠ []
  noSep : ∀ name ∈ names, sep ∉ name

variable {α : Type} {sep : α}

def NameList.text (m : NameList sep) : List α := [sep].intercalate m.names

theorem mem_of_mem_intercalate {names : List (List α)} {x : α} (h : x ∈ [sep].intercalate names) :
    x = sep ∨ ∃ name ∈ names, x ∈ name := by
  induction names with
  | nil => simp at h
  | cons a names ih =>
    cases names with
    | nil => exact .inr ⟨a, List.mem_cons_self, by simpa using h⟩
    | cons b names =>
      rw [List.intercalate_cons_cons, List.mem_append, List.mem_append, List.mem_singleton] at h
      rcases h with (ha | hsep) | hrest
      · exact .inr ⟨a, List.mem_cons_self, ha⟩
      · exact .inl hsep
      · rcases ih hrest with hsep | ⟨name, hname, hx⟩
        · exact .inl hsep
        · exact .inr ⟨name, List.mem_cons_of_mem _ hname, hx⟩

theorem NameList.mem_text (m : NameList sep) {x : α} (h : x ∈ m.text) :
    x = sep ∨ ∃ name ∈ m.names, x ∈ name :=
  mem_of_mem_intercalate h

end Lib
