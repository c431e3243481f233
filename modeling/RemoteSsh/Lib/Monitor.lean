import RemoteSsh.Lib.Prog

/-!
# Monitors

A monitor watches the calls and replies of a program and keeps a state of its own. `wp` says what
must hold before a program so that a condition holds at each of its ends. With an invariant for
each label, `wp` of each block gives a fact about every state of every run.
-/

namespace Lib

/-- `guar` is what each call must keep, `rely` is what its reply promises, and `fault` is what must
hold where the program is undefined. -/
structure Monitor {C : Type} (R : C → Type) (σ : Type) where
  next : σ → (c : C) → R c → σ
  guar : σ → C → Prop := fun _ _ => True
  rely : σ → (c : C) → R c → Prop := fun _ _ _ => True
  fault : σ → Prop := fun _ => True

section Wp

variable {C : Type} {R : C → Type} {σ α β : Type} (m : Monitor R σ)

def Monitor.after (s : σ) (t : List (Event R)) : σ := t.foldl (fun s e => m.next s e.1 e.2) s

def Monitor.Relied : σ → List (Event R) → Prop
  | _, [] => True
  | s, e :: t => m.rely s e.1 e.2 ∧ Relied (m.next s e.1 e.2) t

def Monitor.Kept : σ → List (Event R) → Prop
  | _, [] => True
  | s, e :: t => m.guar s e.1 ∧ Kept (m.next s e.1 e.2) t

@[simp] theorem Monitor.after_nil (s : σ) : m.after s [] = s := rfl

@[simp] theorem Monitor.after_append (s : σ) (t u : List (Event R)) :
    m.after s (t ++ u) = m.after (m.after s t) u := by
  simp [Monitor.after]

@[simp] theorem Monitor.after_single (s : σ) (e : Event R) : m.after s [e] = m.next s e.1 e.2 := rfl

theorem Monitor.relied_append (s : σ) (t u : List (Event R)) :
    m.Relied s (t ++ u) ↔ m.Relied s t ∧ m.Relied (m.after s t) u := by
  induction t generalizing s with
  | nil => simp [Monitor.Relied]
  | cons e t ih =>
    simp only [List.cons_append, Monitor.Relied, ih, and_assoc]
    rfl

theorem Monitor.kept_append (s : σ) (t u : List (Event R)) :
    m.Kept s (t ++ u) ↔ m.Kept s t ∧ m.Kept (m.after s t) u := by
  induction t generalizing s with
  | nil => simp [Monitor.Kept]
  | cons e t ih =>
    simp only [List.cons_append, Monitor.Kept, ih, and_assoc]
    rfl

/-- A flag that an event of some kind sets says whether there was one. -/
theorem Monitor.flag_iff (flag : σ → Prop) (P : Event R → Prop)
    (h : ∀ s c r, flag (m.next s c r) ↔ flag s ∨ P ⟨c, r⟩) (s : σ) (t : List (Event R)) :
    flag (m.after s t) ↔ flag s ∨ ∃ e ∈ t, P e := by
  induction t generalizing s with
  | nil => simp
  | cons e t ih =>
    change flag (m.after (m.next s e.1 e.2) t) ↔ _
    rw [ih, h, or_assoc]
    simp only [List.mem_cons, exists_eq_or_imp]

theorem Monitor.relied_of_trivial (h : ∀ s c r, m.rely s c r) (s : σ) (t : List (Event R)) :
    m.Relied s t := by
  induction t generalizing s with
  | nil => trivial
  | cons e t ih => exact ⟨h _ _ _, ih _⟩

def Prog.wp (Q : α → σ → Prop) : Prog R α → σ → Prop
  | .ret a, s => Q a s
  | .call c k, s => m.guar s c ∧ ∀ r, m.rely s c r → (k r).wp Q (m.next s c r)
  | .fault, s => m.fault s

@[simp] theorem wp_ret (Q : α → σ → Prop) (a : α) (s : σ) :
    (Prog.ret a : Prog R α).wp m Q s ↔ Q a s := Iff.rfl

@[simp] theorem wp_call (Q : α → σ → Prop) (c : C) (k : R c → Prog R α) (s : σ) :
    (Prog.call c k).wp m Q s ↔ m.guar s c ∧ ∀ r, m.rely s c r → (k r).wp m Q (m.next s c r) :=
  Iff.rfl

@[simp] theorem wp_fault (Q : α → σ → Prop) (s : σ) :
    (Prog.fault : Prog R α).wp m Q s ↔ m.fault s := Iff.rfl

@[simp] theorem wp_bind (Q : β → σ → Prop) (p : Prog R α) (f : α → Prog R β) (s : σ) :
    (p >>= f).wp m Q s ↔ p.wp m (fun a s => (f a).wp m Q s) s := by
  induction p generalizing s with
  | ret a => rfl
  | call c k ih => exact and_congr_right fun _ => forall_congr' fun r => imp_congr_right fun _ => ih r _
  | fault => rfl

@[simp] theorem wp_ask (c : C) (Q : R c → σ → Prop) (s : σ) :
    (Prog.ask c : Prog R (R c)).wp m Q s ↔
      m.guar s c ∧ ∀ r, m.rely s c r → Q r (m.next s c r) := Iff.rfl

@[simp] theorem wp_check (Q : α → σ → Prop) (o : Option α) (s : σ) :
    (Prog.check o : Prog R α).wp m Q s ↔ (o = none → m.fault s) ∧ ∀ a, o = some a → Q a s := by
  cases o with
  | none => simp
  | some a => simp

@[simp] theorem wp_ite (Q : α → σ → Prop) (b : Prop) [Decidable b] (p q : Prog R α) (s : σ) :
    (if b then p else q).wp m Q s ↔ (b → p.wp m Q s) ∧ (¬ b → q.wp m Q s) := by
  by_cases h : b <;> simp [h]

theorem wp_mono {Q Q' : α → σ → Prop} (h : ∀ a s, Q a s → Q' a s) (p : Prog R α) (s : σ)
    (hp : p.wp m Q s) : p.wp m Q' s := by
  induction p generalizing s with
  | ret a => exact h a s hp
  | call c k ih => exact ⟨hp.1, fun r hr => ih r _ (hp.2 r hr)⟩
  | fault => exact hp

/-! ## Calls that do not matter -/

/-- Looks only at which calls are made. -/
def only (P : C → Prop) : Monitor R Unit where
  next _ _ _ := ()
  guar _ c := P c

@[simp] theorem only_next (P : C → Prop) (s : Unit) (c : C) (r : R c) : (only P).next s c r = () := rfl
@[simp] theorem only_guar (P : C → Prop) (s : Unit) (c : C) : (only P : Monitor R Unit).guar s c ↔ P c :=
  Iff.rfl
@[simp] theorem only_rely (P : C → Prop) (s : Unit) (c : C) (r : R c) : (only P).rely s c r := trivial
@[simp] theorem only_fault (P : C → Prop) (s : Unit) : (only P : Monitor R Unit).fault s := trivial

/-- What the calls of a program leave as it is holds at its ends. -/
theorem wp_frame {P : C → Prop} {A : α → Prop} {I : σ → Prop} {Q : α → σ → Prop}
    (hstep : ∀ s c, P c → I s → m.guar s c ∧ ∀ r, m.rely s c r → I (m.next s c r))
    (hfault : ∀ s, I s → m.fault s) (hQ : ∀ a s, A a → I s → Q a s) {p : Prog R α}
    (hp : p.wp (only P) (fun a _ => A a) ()) {s : σ} (hs : I s) : p.wp m Q s := by
  induction p generalizing s with
  | ret a => exact hQ a s hp hs
  | call c k ih =>
    obtain ⟨hguar, hnext⟩ := hstep s c hp.1 hs
    exact ⟨hguar, fun r hr => ih r (hp.2 r trivial) (hnext r hr)⟩
  | fault => exact hfault s hs

end Wp

/-! ## Every state of every run -/

section Runs

variable {C : Type} {R : C → Type} {L O σ : Type} (m : Monitor R σ)
variable (block : L → Prog R (L ⊕ O)) (env : Env R)

/-- Each block keeps the invariants of the labels. -/
def Verified (Q : L ⊕ O → σ → Prop) : Prop := ∀ l s, Q (.inl l) s → (block l).wp m Q s

theorem run_wp {Q : L ⊕ O → σ → Prop} (hv : Verified m block Q) {p : Prog R (L ⊕ O)} {s : σ}
    (hp : p.wp m Q s) (n : Nat) (hr : m.Relied s (run block env p n).trace) :
    (run block env p n).todo.wp m Q (m.after s (run block env p n).trace) := by
  induction n with
  | zero => exact hp
  | succ n ih =>
    rw [run_succ] at hr ⊢
    generalize run block env p n = cfg at ih hr ⊢
    match cfg with
    | ⟨.call c k, t⟩ =>
      rw [step_call, Monitor.relied_append] at hr
      rw [step_call]
      simp only [Monitor.after_append, Monitor.after_single]
      exact (ih hr.1).2 _ hr.2.1
    | ⟨.ret (.inl l), t⟩ => exact hv l _ (ih hr)
    | ⟨.ret (.inr o), t⟩ => exact ih hr
    | ⟨.fault, t⟩ => exact ih hr

theorem run_kept {Q : L ⊕ O → σ → Prop} (hv : Verified m block Q) {p : Prog R (L ⊕ O)} {s : σ}
    (hp : p.wp m Q s) (n : Nat) (hr : m.Relied s (run block env p n).trace) :
    m.Kept s (run block env p n).trace := by
  induction n with
  | zero => trivial
  | succ n ih =>
    have hwp := run_wp m block env hv hp n
    rw [run_succ] at hr ⊢
    generalize run block env p n = cfg at ih hr hwp ⊢
    match cfg with
    | ⟨.call c k, t⟩ =>
      rw [step_call, Monitor.relied_append] at hr
      rw [step_call, Monitor.kept_append]
      exact ⟨ih hr.1, (hwp hr.1).1, trivial⟩
    | ⟨.ret (.inl l), t⟩ => exact ih hr
    | ⟨.ret (.inr o), t⟩ => exact ih hr
    | ⟨.fault, t⟩ => exact ih hr

def AtEnd : Prog R (L ⊕ O) → Prop
  | .call _ _ => False
  | _ => True

/-- Blocks are finite, so each run gets to the end of the block it is in. -/
theorem exists_end (p : Prog R (L ⊕ O)) (n : Nat) :
    ∃ k, n ≤ k ∧ AtEnd (run block env p k).todo := by
  suffices h : ∀ (q : Prog R (L ⊕ O)) (t : List (Event R)),
      ∃ d, AtEnd ((step block env)^[d] ⟨q, t⟩).todo by
    obtain ⟨d, hd⟩ := h (run block env p n).todo (run block env p n).trace
    exact ⟨n + d, Nat.le_add_right _ _, by rw [run_add]; exact hd⟩
  intro q
  induction q with
  | ret a => exact fun t => ⟨0, trivial⟩
  | call c k ih =>
    intro t
    obtain ⟨d, hd⟩ := ih (env t c) (t ++ [⟨c, env t c⟩])
    exact ⟨d + 1, by rw [Function.iterate_succ_apply]; exact hd⟩
  | fault => exact fun t => ⟨0, trivial⟩

/-- What is known where the block ends that a run is in. -/
theorem exists_end_wp {Q : L ⊕ O → σ → Prop} (hv : Verified m block Q) {p : Prog R (L ⊕ O)} {s : σ}
    (hp : p.wp m Q s) (hr : ∀ n, m.Relied s (run block env p n).trace) (n : Nat) : ∃ k, n ≤ k ∧
      ((∃ x, (run block env p k).todo = .ret x ∧ Q x (m.after s (run block env p k).trace)) ∨
        (run block env p k).todo = .fault ∧ m.fault (m.after s (run block env p k).trace)) := by
  obtain ⟨k, hk, hend⟩ := exists_end block env p n
  refine ⟨k, hk, ?_⟩
  have hwp := run_wp m block env hv hp k (hr k)
  match hq : (run block env p k).todo with
  | .ret x => rw [hq] at hwp; exact .inl ⟨x, rfl, hwp⟩
  | .fault => rw [hq] at hwp; exact .inr ⟨rfl, hwp⟩
  | .call c k' => rw [hq] at hend; exact hend.elim

theorem relied_run {s : σ} (h : ∀ t c, m.rely (m.after s t) c (env t c)) (p : Prog R (L ⊕ O)) (n : Nat) :
    m.Relied s (run block env p n).trace := by
  induction n with
  | zero => trivial
  | succ n ih =>
    rw [run_succ]
    generalize run block env p n = cfg at ih ⊢
    match cfg with
    | ⟨.call c k, t⟩ =>
      rw [step_call, Monitor.relied_append]
      exact ⟨ih, h t c, trivial⟩
    | ⟨.ret (.inl l), t⟩ => exact ih
    | ⟨.ret (.inr o), t⟩ => exact ih
    | ⟨.fault, t⟩ => exact ih

theorem sticky_run {P : σ → Prop} (hP : ∀ s c r, P s → P (m.next s c r)) {p : Prog R (L ⊕ O)} {s : σ}
    {n k : Nat} (h : n ≤ k) (hn : P (m.after s (run block env p n).trace)) :
    P (m.after s (run block env p k).trace) := by
  obtain ⟨t, ht⟩ := run_trace block env p h
  rw [ht, Monitor.after_append]
  generalize m.after s (run block env p n).trace = s' at hn
  clear ht
  induction t generalizing s' with
  | nil => exact hn
  | cons e t ih => exact ih _ (hP _ _ _ hn)

/-! ## Exact conditions -/

/-- If at each end of a block something is wrong exactly when something failed, then a run is right
exactly when nothing fails in it. -/
theorem exact_run {Q : L ⊕ O → σ → Prop} {wrong failed : σ → Prop} {wrongEnd : O → σ → Prop}
    (hv : Verified m block Q) {p : Prog R (L ⊕ O)} {s : σ} (hp : p.wp m Q s)
    (hr : ∀ n, m.Relied s (run block env p n).trace)
    (hwrong : ∀ s c r, wrong s → wrong (m.next s c r))
    (hfailed : ∀ s c r, failed s → failed (m.next s c r))
    (hlabel : ∀ l s, Q (.inl l) s → (wrong s ↔ failed s))
    (hend : ∀ o s, Q (.inr o) s → (wrong s ∨ wrongEnd o s ↔ failed s))
    (hfault : ∀ s, m.fault s → (wrong s ↔ failed s)) :
    (∀ n, ¬ wrong (m.after s (run block env p n).trace) ∧
      ∀ o, Ends block env p n o → ¬ wrongEnd o (m.after s (run block env p n).trace)) ↔
    ∀ n, ¬ failed (m.after s (run block env p n).trace) := by
  have hat := exists_end_wp m block env hv hp hr
  constructor
  · intro h n hn
    obtain ⟨k, hk, ⟨x, hq, hQ⟩ | ⟨-, hQ⟩⟩ := hat n
    · have hfk := sticky_run m block env hfailed hk hn
      cases x with
      | inl l => exact (h k).1 ((hlabel l _ hQ).mpr hfk)
      | inr o => exact ((hend o _ hQ).mpr hfk).elim (h k).1 ((h k).2 o hq)
    · exact (h k).1 ((hfault _ hQ).mpr (sticky_run m block env hfailed hk hn))
  · intro h n
    refine ⟨?_, ?_⟩
    · intro hn
      obtain ⟨k, hk, ⟨x, -, hQ⟩ | ⟨-, hQ⟩⟩ := hat n
      · have hwk := sticky_run m block env hwrong hk hn
        cases x with
        | inl l => exact h k ((hlabel l _ hQ).mp hwk)
        | inr o => exact h k ((hend o _ hQ).mp (.inl hwk))
      · exact h k ((hfault _ hQ).mp (sticky_run m block env hwrong hk hn))
    · intro o ho hw
      have hQ := run_wp m block env hv hp n (hr n)
      rw [show (run block env p n).todo = .ret (.inr o) from ho] at hQ
      exact h n ((hend o _ hQ).mp (.inr hw))

end Runs

/-! ## Rules and failures -/

/-- A rule on the calls of a run (`allows`), and the replies that count as failures (`fails`). -/
structure Watcher {C : Type} (R : C → Type) (σ : Type) where
  next : σ → (c : C) → R c → σ
  allows : σ → C → Prop
  fails : σ → (c : C) → R c → Prop

structure Watched (σ : Type) where
  state : σ
  wrong : Prop
  failed : Prop

namespace Watcher

variable {C : Type} {R : C → Type} {L O σ α : Type} (w : Watcher R σ)

def after (s : σ) (t : List (Event R)) : σ := t.foldl (fun s e => w.next s e.1 e.2) s

def Follows : σ → List (Event R) → Prop
  | _, [] => True
  | s, e :: t => w.allows s e.1 ∧ Follows (w.next s e.1 e.2) t

def Fails : σ → List (Event R) → Prop
  | _, [] => False
  | s, e :: t => w.fails s e.1 e.2 ∨ Fails (w.next s e.1 e.2) t

/-- If a failure is one in any state, it can be looked for anywhere in the trace. -/
theorem fails_iff {bad : Event R → Prop} (h : ∀ s c r, w.fails s c r ↔ bad ⟨c, r⟩) (s : σ)
    (t : List (Event R)) : w.Fails s t ↔ ∃ e ∈ t, bad e := by
  induction t generalizing s with
  | nil => simp [Fails]
  | cons e t ih => simp only [Fails, h, ih, List.mem_cons, exists_eq_or_imp]

def monitor : Monitor R (Watched σ) where
  next s c r := ⟨w.next s.state c r, s.wrong ∨ ¬ w.allows s.state c, s.failed ∨ w.fails s.state c r⟩
  fault s := s.wrong ↔ s.failed

/-- At the end of a block the rule is broken exactly if something failed. -/
def Post (Inv : L → σ → Prop) (wrongEnd : O → σ → Prop) : L ⊕ O → Watched σ → Prop
  | .inl l, s => (s.wrong ↔ s.failed) ∧ (¬ s.failed → Inv l s.state)
  | .inr o, s => s.wrong ∨ wrongEnd o s.state ↔ s.failed

theorem monitor_after (s : Watched σ) (t : List (Event R)) :
    (w.monitor.after s t).state = w.after s.state t ∧
    ((w.monitor.after s t).wrong ↔ s.wrong ∨ ¬ w.Follows s.state t) ∧
    ((w.monitor.after s t).failed ↔ s.failed ∨ w.Fails s.state t) := by
  induction t generalizing s with
  | nil => simp [Watcher.after, Watcher.Follows, Watcher.Fails]
  | cons e t ih =>
    obtain ⟨hs, hw, hf⟩ := ih (w.monitor.next s e.1 e.2)
    refine ⟨hs, ?_, ?_⟩
    · change (w.monitor.after (w.monitor.next s e.1 e.2) t).wrong ↔ _
      rw [hw]
      simp only [monitor, Watcher.Follows, not_and_or, or_assoc]
    · change (w.monitor.after (w.monitor.next s e.1 e.2) t).failed ↔ _
      rw [hf]
      simp only [monitor, Watcher.Fails, or_assoc]

@[simp] theorem monitor_next (s : σ) (wrong failed : Prop) (c : C) (r : R c) :
    w.monitor.next ⟨s, wrong, failed⟩ c r =
      ⟨w.next s c r, wrong ∨ ¬ w.allows s c, failed ∨ w.fails s c r⟩ := rfl

@[simp] theorem monitor_guar (s : Watched σ) (c : C) : w.monitor.guar s c := trivial

@[simp] theorem monitor_rely (s : Watched σ) (c : C) (r : R c) : w.monitor.rely s c r := trivial

@[simp] theorem monitor_fault (s : σ) (wrong failed : Prop) :
    w.monitor.fault ⟨s, wrong, failed⟩ ↔ (wrong ↔ failed) := Iff.rfl

@[simp] theorem post_label (Inv : L → σ → Prop) (wrongEnd : O → σ → Prop) (l : L) (s : σ)
    (wrong failed : Prop) :
    Post Inv wrongEnd (.inl l) ⟨s, wrong, failed⟩ ↔ (wrong ↔ failed) ∧ (¬ failed → Inv l s) := Iff.rfl

@[simp] theorem post_end (Inv : L → σ → Prop) (wrongEnd : O → σ → Prop) (o : O) (s : σ)
    (wrong failed : Prop) :
    Post Inv wrongEnd (.inr o) ⟨s, wrong, failed⟩ ↔ (wrong ∨ wrongEnd o s ↔ failed) := Iff.rfl

theorem wp_of_allowed {Q : α → Watched σ → Prop} {s : σ} {c : C} {k : R c → Prog R α}
    (hallows : w.allows s c) (hfails : ∀ r, ¬ w.fails s c r)
    (hk : ∀ r, (k r).wp w.monitor Q ⟨w.next s c r, False, False⟩) :
    (Prog.call c k).wp w.monitor Q ⟨s, False, False⟩ := by
  refine ⟨trivial, fun r _ => ?_⟩
  rw [monitor_next, false_or, false_or, eq_false (not_not.mpr hallows), eq_false (hfails r)]
  exact hk r

theorem wp_of_wrong (Inv : L → σ → Prop) (wrongEnd : O → σ → Prop) (p : Prog R (L ⊕ O))
    (s : Watched σ) (hw : s.wrong) (hf : s.failed) : p.wp w.monitor (Post Inv wrongEnd) s := by
  induction p generalizing s with
  | ret x =>
    cases x with
    | inl l => exact ⟨iff_of_true hw hf, fun h => absurd hf h⟩
    | inr o => exact iff_of_true (.inl hw) hf
  | call c k ih => exact ⟨trivial, fun r _ => ih r _ (.inl hw) (.inl hf)⟩
  | fault => exact iff_of_true hw hf

/-- A run keeps the rule, and ends as it should, exactly if nothing fails in it. -/
theorem follows_iff {block : L → Prog R (L ⊕ O)} {Inv : L → σ → Prop} {wrongEnd : O → σ → Prop}
    (hv : ∀ l s, Inv l s → (block l).wp w.monitor (Post Inv wrongEnd) ⟨s, False, False⟩)
    {p : Prog R (L ⊕ O)} {s : σ} (hp : p.wp w.monitor (Post Inv wrongEnd) ⟨s, False, False⟩)
    (env : Env R) :
    (∀ n, w.Follows s (run block env p n).trace ∧
      ∀ o, Ends block env p n o → ¬ wrongEnd o (w.after s (run block env p n).trace)) ↔
    ∀ n, ¬ w.Fails s (run block env p n).trace := by
  have hverified : Verified w.monitor block (Post Inv wrongEnd) := by
    rintro l ⟨state, wrong, failed⟩ ⟨hiff, hinv⟩
    simp only at hiff hinv
    by_cases hf : failed
    · exact wp_of_wrong w Inv wrongEnd _ _ (hiff.mpr hf) hf
    · rw [eq_false hf, eq_false (fun h => hf (hiff.mp h))]
      exact hv l state (hinv hf)
  have hexact := exact_run w.monitor block env hverified hp
    (fun _ => w.monitor.relied_of_trivial (fun _ _ _ => trivial) _ _)
    (fun s c r h => Or.inl h : ∀ s c r, Watched.wrong s → _)
    (fun s c r h => Or.inl h : ∀ s c r, Watched.failed s → _)
    (fun l s h => h.1) (fun o s h => h) (fun s h => h)
  have hafter := fun n => w.monitor_after ⟨s, False, False⟩ (run block env p n).trace
  simpa [(hafter _).1, (hafter _).2.1, (hafter _).2.2] using hexact

/-! ## Undefined steps -/

/-- Where the program is undefined, either something failed or the state excuses it. -/
def faultMonitor (excused : σ → Prop) : Monitor R (Watched σ) where
  next := w.monitor.next
  fault s := s.failed ↔ ¬ excused s.state

/-- What failed does not get past the block it failed in. -/
def Sound (Inv : L ⊕ O → σ → Prop) (x : L ⊕ O) (s : Watched σ) : Prop := ¬ s.failed ∧ Inv x s.state

section Faults

variable {excused : σ → Prop}

@[simp] theorem faultMonitor_next (s : σ) (wrong failed : Prop) (c : C) (r : R c) :
    (w.faultMonitor excused).next ⟨s, wrong, failed⟩ c r =
      ⟨w.next s c r, wrong ∨ ¬ w.allows s c, failed ∨ w.fails s c r⟩ := rfl

@[simp] theorem faultMonitor_guar (s : Watched σ) (c : C) : (w.faultMonitor excused).guar s c := trivial

@[simp] theorem faultMonitor_rely (s : Watched σ) (c : C) (r : R c) : (w.faultMonitor excused).rely s c r :=
  trivial

@[simp] theorem faultMonitor_fault (s : Watched σ) :
    (w.faultMonitor excused).fault s ↔ (s.failed ↔ ¬ excused s.state) := Iff.rfl

@[simp] theorem sound_iff (Inv : L ⊕ O → σ → Prop) (x : L ⊕ O) (s : σ) (wrong failed : Prop) :
    Sound Inv x ⟨s, wrong, failed⟩ ↔ ¬ failed ∧ Inv x s := Iff.rfl

/-- Each undefined step of a run is excused exactly if nothing fails in it. -/
theorem faults_iff {block : L → Prog R (L ⊕ O)} {Inv : L ⊕ O → σ → Prop}
    (hv : ∀ l s wrong, Inv (.inl l) s → (block l).wp (w.faultMonitor excused) (Sound Inv) ⟨s, wrong, False⟩)
    {p : Prog R (L ⊕ O)} {s : σ} (hp : p.wp (w.faultMonitor excused) (Sound Inv) ⟨s, False, False⟩)
    (env : Env R) :
    (∀ n, (run block env p n).todo = .fault → excused (w.after s (run block env p n).trace)) ↔
      ∀ n, ¬ w.Fails s (run block env p n).trace := by
  have hverified : Verified (w.faultMonitor excused) block (Sound Inv) := by
    rintro l ⟨state, wrong, failed⟩ ⟨hfailed, hinv⟩
    simp only at hfailed hinv
    rw [eq_false hfailed]
    exact hv l state wrong hinv
  have hrelied : ∀ n, (w.faultMonitor excused).Relied ⟨s, False, False⟩ (run block env p n).trace :=
    fun _ => Monitor.relied_of_trivial _ (fun _ _ _ => trivial) _ _
  -- The two monitors differ only in what they ask of an undefined step.
  have hafter : ∀ t, (w.faultMonitor excused).after ⟨s, False, False⟩ t = w.monitor.after ⟨s, False, False⟩ t :=
    fun _ => rfl
  have hfails : ∀ t, (w.monitor.after ⟨s, False, False⟩ t).failed ↔ w.Fails s t := by
    intro t
    simpa using (w.monitor_after ⟨s, False, False⟩ t).2.2
  have hstate : ∀ t, (w.monitor.after ⟨s, False, False⟩ t).state = w.after s t :=
    fun t => (w.monitor_after ⟨s, False, False⟩ t).1
  constructor
  · intro h n hn
    obtain ⟨k, hk, hend⟩ := exists_end_wp _ block env hverified hp hrelied n
    rw [hafter] at hend
    have hfailed : (w.monitor.after ⟨s, False, False⟩ (run block env p k).trace).failed :=
      sticky_run w.monitor block env (fun _ _ _ h => Or.inl h) hk ((hfails _).mpr hn)
    rcases hend with ⟨x, -, hQ⟩ | ⟨hq, hQ⟩
    · exact hQ.1 hfailed
    · have hexcused := h k hq
      rw [← hstate] at hexcused
      exact hQ.mp hfailed hexcused
  · intro h n hq
    have hQ := run_wp _ block env hverified hp n (hrelied n)
    rw [hafter, hq] at hQ
    by_contra hnot
    rw [← hstate] at hnot
    exact h n ((hfails _).mp (hQ.mpr hnot))

end Faults

end Watcher

/-! ## Runs that get somewhere -/

section Reaches

variable {C : Type} {R : C → Type} {L O σ : Type} (m : Monitor R σ)
variable (block : L → Prog R (L ⊕ O)) (env : Env R)

theorem block_reaches {Q : L ⊕ O → σ → Prop} (hfault : ∀ s, ¬ m.fault s) (p : Prog R (L ⊕ O)) (s : σ)
    (hr : ∀ n, m.Relied s (run block env p n).trace) (q : Prog R (L ⊕ O)) (n : Nat)
    (hq : (run block env p n).todo = q) (hwp : q.wp m Q (m.after s (run block env p n).trace)) :
    ∃ k x, n ≤ k ∧ (run block env p k).todo = .ret x ∧ Q x (m.after s (run block env p k).trace) := by
  induction q generalizing n with
  | ret a => exact ⟨n, a, Nat.le_refl _, hq, hwp⟩
  | call c k ih =>
    have hs : run block env p (n + 1) = ⟨k (env (run block env p n).trace c),
        (run block env p n).trace ++ [⟨c, env (run block env p n).trace c⟩]⟩ := by
      rw [run_succ, ← step_call block env c k, ← hq]
    have hrel : m.rely (m.after s (run block env p n).trace) c (env (run block env p n).trace c) := by
      have := hr (n + 1)
      rw [hs, Monitor.relied_append] at this
      exact this.2.1
    obtain ⟨j, x, hj, hx⟩ := ih _ (n + 1) (by rw [hs]) (by rw [hs]; simpa using hwp.2 _ hrel)
    exact ⟨j, x, by omega, hx⟩
  | fault => exact absurd hwp (hfault _)

/-- If each block gets to `Done`, or to a label that is smaller, then so does each run. -/
theorem run_reaches (Inv : L → σ → Prop) (Done : L ⊕ O → σ → Prop) {rel : L × σ → L × σ → Prop}
    (wf : WellFounded rel) (hfault : ∀ s, ¬ m.fault s)
    (hv : ∀ l s, Inv l s → (block l).wp m (fun x s' => Done x s' ∨
      ∃ l', x = .inl l' ∧ Inv l' s' ∧ rel (l', s') (l, s)) s)
    (p : Prog R (L ⊕ O)) (s : σ) (hr : ∀ n, m.Relied s (run block env p n).trace)
    {l : L} {n : Nat} (hn : (run block env p n).todo = .ret (.inl l))
    (hinv : Inv l (m.after s (run block env p n).trace)) :
    ∃ k x, n ≤ k ∧ (run block env p k).todo = .ret x ∧
      Done x (m.after s (run block env p k).trace) := by
  suffices h : ∀ (a : L × σ) (n : Nat), (run block env p n).todo = .ret (.inl a.1) →
      m.after s (run block env p n).trace = a.2 → Inv a.1 a.2 →
      ∃ k x, n ≤ k ∧ (run block env p k).todo = .ret x ∧
        Done x (m.after s (run block env p k).trace) from
    h (l, _) n hn rfl hinv
  intro a
  induction a using wf.induction with
  | _ a ih =>
    intro n hq hs hinv
    have hnext : run block env p (n + 1) = ⟨block a.1, (run block env p n).trace⟩ := by
      rw [run_succ, ← step_goto block env, ← hq]
    obtain ⟨k, x, hk, hx, hdone | ⟨l', rfl, hinv', hrel⟩⟩ :=
      block_reaches m block env hfault p s hr (block a.1) (n + 1) (by rw [hnext])
        (by rw [hnext, hs]; exact hv a.1 a.2 hinv)
    · exact ⟨k, x, by omega, hx, hdone⟩
    · obtain ⟨j, y, hj, hy⟩ := ih (l', _) hrel k hx rfl hinv'
      exact ⟨j, y, by omega, hy⟩

end Reaches

end Lib
