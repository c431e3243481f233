import Mathlib.Logic.Function.Iterate

/-!
# Programs that make calls

A program is a finite tree: it makes a call, waits for the reply, and goes on. Loops are not in
the tree. A block ends at a label, and the machine goes on with the block of that label, so a run
can be as long as it likes. The world answers each call, and may look at all that happened before.
-/

namespace Lib

/-- `fault` is undefined behaviour: nothing can be said about what comes after it. -/
inductive Prog {C : Type} (R : C → Type) (α : Type) where
  | ret (a : α)
  | call (c : C) (k : R c → Prog R α)
  | fault

namespace Prog

variable {C : Type} {R : C → Type} {α β : Type}

def bind : Prog R α → (α → Prog R β) → Prog R β
  | ret a, f => f a
  | call c k, f => call c fun r => (k r).bind f
  | fault, _ => fault

instance : Monad (Prog R) where
  pure := ret
  bind := bind

def ask (c : C) : Prog R (R c) := call c ret

/-- Goes on with a value that may be missing. Without it, the program is undefined. -/
def check : Option α → Prog R α
  | some a => ret a
  | none => fault

@[simp] theorem pure_eq (a : α) : (pure a : Prog R α) = ret a := rfl
@[simp] theorem ret_bind (a : α) (f : α → Prog R β) : (ret a : Prog R α) >>= f = f a := rfl
@[simp] theorem call_bind (c : C) (k : R c → Prog R α) (f : α → Prog R β) :
    call c k >>= f = call c fun r => k r >>= f := rfl
@[simp] theorem fault_bind (f : α → Prog R β) : (fault : Prog R α) >>= f = fault := rfl
@[simp] theorem ask_bind (c : C) (f : R c → Prog R β) : ask c >>= f = call c f := rfl
@[simp] theorem check_some (a : α) : (check (some a) : Prog R α) = ret a := rfl
@[simp] theorem check_none : (check none : Prog R α) = fault := rfl

end Prog

/-! ## Runs -/

abbrev Event {C : Type} (R : C → Type) := Σ c, R c

/-- The world: its reply to a call, after all that happened before. -/
abbrev Env {C : Type} (R : C → Type) := List (Event R) → (c : C) → R c

structure Config {C : Type} (R : C → Type) (L O : Type) where
  todo : Prog R (L ⊕ O)
  trace : List (Event R)

section Run

variable {C : Type} {R : C → Type} {L O : Type} (block : L → Prog R (L ⊕ O)) (env : Env R)

def step : Config R L O → Config R L O
  | ⟨.call c k, t⟩ => ⟨k (env t c), t ++ [⟨c, env t c⟩]⟩
  | ⟨.ret (.inl l), t⟩ => ⟨block l, t⟩
  | ⟨.ret (.inr o), t⟩ => ⟨.ret (.inr o), t⟩
  | ⟨.fault, t⟩ => ⟨.fault, t⟩

def run (p : Prog R (L ⊕ O)) (n : Nat) : Config R L O := (step block env)^[n] ⟨p, []⟩

/-- The run ends with `o` after `n` steps. -/
def Ends (p : Prog R (L ⊕ O)) (n : Nat) (o : O) : Prop := (run block env p n).todo = .ret (.inr o)

def Prog.outcome : Prog R (L ⊕ O) → Option O
  | .ret (.inr o) => some o
  | _ => none

theorem run_succ (p : Prog R (L ⊕ O)) (n : Nat) :
    run block env p (n + 1) = step block env (run block env p n) :=
  Function.iterate_succ_apply' _ _ _

theorem run_add (p : Prog R (L ⊕ O)) (n m : Nat) :
    run block env p (n + m) = (step block env)^[m] (run block env p n) := by
  unfold run
  rw [Nat.add_comm, Function.iterate_add_apply]

theorem step_call (c : C) (k : R c → Prog R (L ⊕ O)) (t : List (Event R)) :
    step block env ⟨.call c k, t⟩ = ⟨k (env t c), t ++ [⟨c, env t c⟩]⟩ := rfl

theorem step_goto (l : L) (t : List (Event R)) :
    step block env ⟨.ret (.inl l), t⟩ = ⟨block l, t⟩ := rfl

theorem step_trace (cfg : Config R L O) :
    ∃ t, (step block env cfg).trace = cfg.trace ++ t := by
  match cfg with
  | ⟨.call c k, t⟩ => exact ⟨_, rfl⟩
  | ⟨.ret (.inl l), t⟩ => exact ⟨[], by simp [step]⟩
  | ⟨.ret (.inr o), t⟩ => exact ⟨[], by simp [step]⟩
  | ⟨.fault, t⟩ => exact ⟨[], by simp [step]⟩

theorem iterate_trace (cfg : Config R L O) (m : Nat) :
    ∃ t, ((step block env)^[m] cfg).trace = cfg.trace ++ t := by
  induction m with
  | zero => exact ⟨[], by simp⟩
  | succ m ih =>
    obtain ⟨t, ht⟩ := ih
    obtain ⟨u, hu⟩ := step_trace block env ((step block env)^[m] cfg)
    exact ⟨t ++ u, by rw [Function.iterate_succ_apply', hu, ht, List.append_assoc]⟩

theorem run_trace (p : Prog R (L ⊕ O)) {n m : Nat} (h : n ≤ m) :
    ∃ t, (run block env p m).trace = (run block env p n).trace ++ t := by
  obtain ⟨d, rfl⟩ := Nat.exists_eq_add_of_le h
  rw [run_add]
  exact iterate_trace block env _ d

theorem iterate_done (o : O) (t : List (Event R)) (m : Nat) :
    (step block env)^[m] ⟨.ret (.inr o), t⟩ = ⟨.ret (.inr o), t⟩ := by
  induction m with
  | zero => rfl
  | succ m ih => rw [Function.iterate_succ_apply', ih]; rfl

theorem iterate_fault (t : List (Event R)) (m : Nat) :
    (step block env)^[m] (⟨.fault, t⟩ : Config R L O) = ⟨.fault, t⟩ := by
  induction m with
  | zero => rfl
  | succ m ih => rw [Function.iterate_succ_apply', ih]; rfl

theorem ends_of_outcome {p : Prog R (L ⊕ O)} {n : Nat} {o : O}
    (h : (run block env p n).todo.outcome = some o) : Ends block env p n o := by
  unfold Ends
  match hq : (run block env p n).todo with
  | .ret (.inr o') => rw [hq] at h; simpa [Prog.outcome] using h
  | .ret (.inl l) => rw [hq] at h; cases h
  | .call c k => rw [hq] at h; cases h
  | .fault => rw [hq] at h; cases h

theorem Ends.stays {p : Prog R (L ⊕ O)} {n m : Nat} {o : O} (h : Ends block env p n o) (hm : n ≤ m) :
    run block env p m = run block env p n := by
  obtain ⟨d, rfl⟩ := Nat.exists_eq_add_of_le hm
  unfold Ends at h
  rw [run_add]
  generalize run block env p n = cfg at h ⊢
  obtain ⟨todo, trace⟩ := cfg
  simp only at h
  rw [h, iterate_done]

theorem Ends.unique {p : Prog R (L ⊕ O)} {n m : Nat} {o o' : O} (h : Ends block env p n o)
    (h' : Ends block env p m o') : o = o' := by
  rcases Nat.le_total n m with hm | hm
  · have := h.stays block env hm
    unfold Ends at h h'
    rw [this, h] at h'
    simpa using h'
  · have := h'.stays block env hm
    unfold Ends at h h'
    rw [this, h'] at h
    simpa using h.symm

end Run

end Lib
