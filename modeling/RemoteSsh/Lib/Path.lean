import Mathlib.Data.List.Basic

/-!
# Paths of a labelled system

What a step keeps holds along every path. The invariant may look at the labels that came before.
-/

namespace Lib

inductive Path {σ l : Type} (step : σ → l → σ → Prop) : σ → List l → σ → Prop
  | nil (s : σ) : Path step s [] s
  | cons {s t u : σ} {a : l} {labels : List l} (h : step s a t) (rest : Path step t labels u) :
      Path step s (a :: labels) u

variable {σ l : Type} {step : σ → l → σ → Prop} {s t u : σ} {a : l} {labels labels' : List l}

theorem Path.single (h : step s a t) : Path step s [a] t := .cons h (.nil t)

theorem Path.append (h : Path step s labels t) (h' : Path step t labels' u) :
    Path step s (labels ++ labels') u := by
  induction h with
  | nil => exact h'
  | cons hstep _ ih => exact .cons hstep (ih h')

theorem Path.split (h : Path step s (labels ++ labels') u) :
    ∃ t, Path step s labels t ∧ Path step t labels' u := by
  induction labels generalizing s with
  | nil => exact ⟨s, .nil s, h⟩
  | cons a labels ih =>
    cases h with
    | cons hstep hrest =>
      obtain ⟨t, hfirst, hsecond⟩ := ih hrest
      exact ⟨t, .cons hstep hfirst, hsecond⟩

/-- A property of all labels holds at each step. -/
theorem Path.restrict {P : l → Prop} (h : Path step s labels t) (hP : ∀ a ∈ labels, P a) :
    Path (fun s a t => step s a t ∧ P a) s labels t := by
  induction h with
  | nil => exact .nil _
  | cons hs _ ih =>
    exact .cons ⟨hs, hP _ List.mem_cons_self⟩ (ih fun a ha => hP a (List.mem_cons_of_mem _ ha))

theorem Path.invariant (I : σ → Prop) (hstep : ∀ s a t, I s → step s a t → I t) (hI : I s)
    (h : Path step s labels t) : I t := by
  induction h with
  | nil => exact hI
  | cons hs _ ih => exact ih (hstep _ _ _ hI hs)

end Lib
