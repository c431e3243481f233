import RemoteSsh.Lib.Monitor
import Mathlib.Logic.Function.Basic

/-!
# Programs that share a world

Any number of programs run at once, one step at a time and in any order. What a call is answered
depends on a state that they share, and that the world may also change by itself.
-/

namespace Lib

structure Pool {C : Type} (R : C → Type) (L O ι σ : Type) where
  threads : ι → Config R L O
  shared : σ

inductive Action {C : Type} (R : C → Type) (ι σ : Type) where
  | call (i : ι) (e : Event R)
  | goto (i : ι)
  | world (s : σ)

/-- `serves s i c r s'` if thread `i` may be answered `r`, and `moves p s'` if the world may go to `s'`
by itself. -/
structure World {C : Type} (R : C → Type) (L O ι σ : Type) where
  serves : σ → ι → (c : C) → R c → σ → Prop
  moves : Pool R L O ι σ → σ → Prop

section Steps

variable {C : Type} {R : C → Type} {L O ι σ : Type} [DecidableEq ι]

def Pool.set (p : Pool R L O ι σ) (i : ι) (t : Config R L O) (s : σ) : Pool R L O ι σ :=
  ⟨Function.update p.threads i t, s⟩

inductive Step (block : L → Prog R (L ⊕ O)) (w : World R L O ι σ) :
    Pool R L O ι σ → Action R ι σ → Pool R L O ι σ → Prop
  | call {p : Pool R L O ι σ} {i : ι} {c : C} {k : R c → Prog R (L ⊕ O)} (r : R c) (s' : σ)
      (h : (p.threads i).todo = .call c k) (hs : w.serves p.shared i c r s') :
      Step block w p (.call i ⟨c, r⟩) (p.set i ⟨k r, (p.threads i).trace ++ [⟨c, r⟩]⟩ s')
  | goto {p : Pool R L O ι σ} {i : ι} {l : L} (h : (p.threads i).todo = .ret (.inl l)) :
      Step block w p (.goto i) (p.set i ⟨block l, (p.threads i).trace⟩ p.shared)
  | world {p : Pool R L O ι σ} (s' : σ) (h : w.moves p s') :
      Step block w p (.world s') ⟨p.threads, s'⟩

/-- The pools that are reached by steps which are all `ok`. -/
inductive Reach (block : L → Prog R (L ⊕ O)) (w : World R L O ι σ)
    (ok : Pool R L O ι σ → Action R ι σ → Prop) (start : Pool R L O ι σ) : Pool R L O ι σ → Prop
  | start : Reach block w ok start start
  | step {p q : Pool R L O ι σ} {a : Action R ι σ} (h : Reach block w ok start p)
      (hstep : Step block w p a q) (hok : ok p a) : Reach block w ok start q

theorem Reach.mono {block : L → Prog R (L ⊕ O)} {w : World R L O ι σ}
    {ok ok' : Pool R L O ι σ → Action R ι σ → Prop} (h : ∀ p a, ok p a → ok' p a)
    {start p : Pool R L O ι σ} (hp : Reach block w ok start p) : Reach block w ok' start p := by
  induction hp with
  | start => exact .start
  | step _ hstep hok ih => exact .step ih hstep (h _ _ hok)

/-- Thread `i` alone, in a world that answers with `answer`. -/
def Pool.alone (block : L → Prog R (L ⊕ O)) (answer : σ → (c : C) → R c × σ) (i : ι)
    (p : Pool R L O ι σ) : Pool R L O ι σ :=
  match (p.threads i).todo with
  | .call c k =>
    p.set i ⟨k (answer p.shared c).1, (p.threads i).trace ++ [⟨c, (answer p.shared c).1⟩]⟩ (answer p.shared c).2
  | .ret (.inl l) => p.set i ⟨block l, (p.threads i).trace⟩ p.shared
  | _ => p

theorem Reach.alone {block : L → Prog R (L ⊕ O)} {w : World R L O ι σ}
    {ok : Pool R L O ι σ → Action R ι σ → Prop} {answer : σ → (c : C) → R c × σ} {i : ι} (I : σ → Prop)
    (hserves : ∀ s c, I s → w.serves s i c (answer s c).1 (answer s c).2 ∧ I (answer s c).2)
    (hcall : ∀ p c r, I p.shared → ok p (.call i ⟨c, r⟩)) (hgoto : ∀ p, ok p (.goto i))
    {start p : Pool R L O ι σ} (hp : Reach block w ok start p) (hI : I p.shared) (n : Nat) :
    Reach block w ok start ((Pool.alone block answer i)^[n] p) ∧
      I ((Pool.alone block answer i)^[n] p).shared := by
  induction n with
  | zero => exact ⟨hp, hI⟩
  | succ n ih =>
    rw [Function.iterate_succ_apply']
    generalize (Pool.alone block answer i)^[n] p = q at ih ⊢
    obtain ⟨hq, hIq⟩ := ih
    unfold Pool.alone
    split
    next c k htodo =>
      have hs := hserves q.shared c hIq
      exact ⟨hq.step (.call _ _ htodo hs.1) (hcall q c _ hIq), hs.2⟩
    next l htodo => exact ⟨hq.step (.goto htodo) (hgoto q), hIq⟩
    next => exact ⟨hq, hIq⟩

end Steps

/-! ## What each thread may rely on -/

section Rely

variable {C : Type} {R : C → Type} {L O ι σ τ : Type} [DecidableEq ι]
variable (block : L → Prog R (L ⊕ O)) (w : World R L O ι σ) (m : ι → Monitor R τ) (first : ι → τ)

def Pool.seen (p : Pool R L O ι σ) (i : ι) : τ := (m i).after (first i) (p.threads i).trace

theorem Monitor.kept_relied_mem (m : Monitor R τ) {good : Event R → Prop}
    (h : ∀ s c r, m.guar s c → m.rely s c r → good ⟨c, r⟩) {s : τ} {t : List (Event R)}
    (hkept : m.Kept s t) (hrelied : m.Relied s t) : ∀ e ∈ t, good e := by
  induction t generalizing s with
  | nil => simp
  | cons e t ih =>
    intro e' he'
    rcases List.mem_cons.mp he' with rfl | he'
    · exact h s _ _ hkept.1 hrelied.1
    · exact ih hkept.2 hrelied.2 e' he'

/-- What is known of a thread: its calls were as they should be, its replies were as promised, and the
rest of it is verified. -/
structure ThreadOk (m : Monitor R τ) (Q : L ⊕ O → τ → Prop) (first : τ) (t : Config R L O) : Prop where
  kept : m.Kept first t.trace
  relied : m.Relied first t.trace
  rest : t.todo.wp m Q (m.after first t.trace)

variable {block w m first}

theorem seen_set_self (p : Pool R L O ι σ) (i : ι) (t : Config R L O) (s : σ) :
    (p.set i t s).seen m first = Function.update (p.seen m first) i ((m i).after (first i) t.trace) := by
  funext j
  by_cases hj : j = i
  · subst hj
    simp [Pool.seen, Pool.set]
  · simp [Pool.seen, Pool.set, hj]

theorem threadOk_set {Q : ι → L ⊕ O → τ → Prop} {p : Pool R L O ι σ} {i : ι} {t : Config R L O} {s : σ}
    (h : ∀ j, ThreadOk (m j) (Q j) (first j) (p.threads j)) (ht : ThreadOk (m i) (Q i) (first i) t) :
    ∀ j, ThreadOk (m j) (Q j) (first j) ((p.set i t s).threads j) := by
  intro j
  by_cases hj : j = i
  · subst hj
    simpa [Pool.set] using ht
  · simpa [Pool.set, hj] using h j

/-- Rely and guarantee. `J` relates what the threads have seen to the shared state. If every answer
keeps `J` and what its thread relies on, and the world keeps `J`, then all of it always holds. -/
theorem reach_ok (m : ι → Monitor R τ) (first : ι → τ) (Q : ι → L ⊕ O → τ → Prop)
    (J : (ι → τ) → σ → Prop) {ok : Pool R L O ι σ → Action R ι σ → Prop} {start p : Pool R L O ι σ}
    (hp : Reach block w ok start p) (hv : ∀ i, Verified (m i) block (Q i))
    (hstart : ∀ i, ThreadOk (m i) (Q i) (first i) (start.threads i))
    (hJ : J (start.seen m first) start.shared)
    (hcall : ∀ (p : Pool R L O ι σ) i c r s', J (p.seen m first) p.shared →
      (m i).guar (p.seen m first i) c → w.serves p.shared i c r s' → ok p (.call i ⟨c, r⟩) →
      (m i).rely (p.seen m first i) c r ∧
        J (Function.update (p.seen m first) i ((m i).next (p.seen m first i) c r)) s')
    (hworld : ∀ p s', J (p.seen m first) p.shared → w.moves p s' → ok p (.world s') →
      J (p.seen m first) s') :
    (∀ i, ThreadOk (m i) (Q i) (first i) (p.threads i)) ∧ J (p.seen m first) p.shared := by
  induction hp with
  | start => exact ⟨hstart, hJ⟩
  | @step p q a _ hstep hok ih =>
    obtain ⟨hthreads, hshared⟩ := ih
    cases hstep with
    | @call i c k r s' htodo hserves =>
      have hi := hthreads i
      have hwp := hi.rest
      rw [htodo] at hwp
      obtain ⟨hrely, hnext⟩ := hcall p i c r s' hshared hwp.1 hserves hok
      refine ⟨threadOk_set hthreads ⟨?_, ?_, ?_⟩, ?_⟩
      · rw [Monitor.kept_append]
        exact ⟨hi.kept, hwp.1, trivial⟩
      · rw [Monitor.relied_append]
        exact ⟨hi.relied, hrely, trivial⟩
      · rw [Monitor.after_append, Monitor.after_single]
        exact hwp.2 r hrely
      · rw [seen_set_self, Monitor.after_append, Monitor.after_single]
        exact hnext
    | @goto i l htodo =>
      have hi := hthreads i
      have hwp := hi.rest
      rw [htodo] at hwp
      refine ⟨threadOk_set hthreads ⟨hi.kept, hi.relied, hv i l _ hwp⟩, ?_⟩
      rw [seen_set_self]
      have : Function.update (p.seen m first) i ((m i).after (first i) (p.threads i).trace) =
          p.seen m first := Function.update_eq_self i _
      rw [this]
      exact hshared
    | world s' hmoves => exact ⟨hthreads, hworld p s' hshared hmoves hok⟩

end Rely

end Lib
