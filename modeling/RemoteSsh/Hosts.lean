import RemoteSsh.Lib.Pool
import RemoteSsh.Code.Funs

/-!
# The host that a call talks to

Any number of calls at once. `gethostbyname` leaves its answer in one cell that all of them share, and
the call reads it there in a later step, with the lock of the interpreter released.
-/

open Lib

namespace RemoteSsh.Hosts

/-- The first address in the reply cell, and the thread that has the lock of the interpreter. -/
structure Net (ι : Type) where
  cell : Option Address
  gil : Option ι

section World

variable {ι : Type} (resolve : CString → Address)

/-- The interpreter makes the call with the lock. `resolve` gives the first address of a host. -/
def serves (s : Net ι) (i : ι) : (c : Call) → Reply c → Net ι → Prop
  | .pyInitialize, _, s' => s.gil = none ∧ s' = { s with gil := some i }
  | .pyEvalSaveThread, _, s' => s' = { s with gil := none }
  | .pyEvalRestoreThread _, _, s' => s.gil = none ∧ s' = { s with gil := some i }
  | .gethostbyname host, r, s' => r ≠ none ∧ s' = { s with cell := some (resolve host) }
  | .hAddrList0 _, address, s' => s.cell = some address ∧ s' = s
  | _, _, s' => s' = s

/-- When a call has returned, its thread lets go of the lock. -/
def moves (p : Pool Reply Label Outcome ι (Net ι)) (s' : Net ι) : Prop :=
  ∃ i o, (p.threads i).todo = .ret (.inr o) ∧ p.shared.gil = some i ∧ s' = { p.shared with gil := none }

def world : World Reply Label Outcome ι (Net ι) := ⟨serves resolve, moves⟩

def start (args : ι → Arguments) : Pool Reply Label Outcome ι (Net ι) :=
  ⟨fun i => ⟨executeSshInstructions (some (args i)), []⟩, ⟨none, none⟩⟩

end World

/-! ## One call -/

@[local simp] def waits : Bool → (c : Call) → Reply c → Bool
  | _, .gethostbyname _, _ => true
  | _, .hAddrList0 _, _ => false
  | waiting, _, _ => waiting

/-- The call looks up its own host, reads the answer at once, and connects to what it has read. -/
@[local simp] def Guar (right : Address → Prop) (host : CString) (waiting : Bool) : Call → Prop
  | .gethostbyname h => waiting = false ∧ h = host
  | .hAddrList0 _ => waiting = true
  | .connect _ address => waiting = false ∧ right address
  | _ => waiting = false

@[local simp] def Rely (right : Address → Prop) : (c : Call) → Reply c → Prop
  | .gethostbyname _, r => r ≠ none
  | .hAddrList0 _, address => right address
  | _, _ => True

def listener (right : Address → Prop) (host : CString) : Monitor Reply Bool where
  next := waits
  guar := Guar right host
  rely _ := Rely right
  fault waiting := waiting = false

@[simp] theorem listener_next (right : Address → Prop) (host : CString) :
    (listener right host).next = waits := rfl
@[simp] theorem listener_guar (right : Address → Prop) (host : CString) :
    (listener right host).guar = Guar right host := rfl
@[simp] theorem listener_rely (right : Address → Prop) (host : CString) (waiting : Bool) :
    (listener right host).rely waiting = Rely right := rfl
@[simp] theorem listener_fault (right : Address → Prop) (host : CString) (waiting : Bool) :
    (listener right host).fault waiting ↔ waiting = false := Iff.rfl

@[local simp] def Post : Label ⊕ Outcome → Bool → Prop := fun _ waiting => waiting = false

section One

variable {right : Address → Prop} {host : CString}

theorem execCommand_spec (f : Frame) (i : UInt8) (t : Option (Tuple Item)) (save channel : Handle) :
    (execCommand f i t save channel).wp (listener right host) Post false := by
  simp [execCommand, raise, commandAt, newResponseString]

theorem finishCommand_spec (c : CommandFrame) (save : Handle) (t : Option (Tuple Item)) (code : Int)
    (signal : Option CString) :
    (finishCommand c save t code signal).wp (listener right host) Post false := by
  cases signal <;> simp [finishCommand, setExitSignal, pyTupleSetItem]

theorem block_spec : Verified (listener right host) block Post := by
  intro l waiting h
  obtain rfl : waiting = false := h
  cases l with
  | handshake args save sshSocket => simp [block, handshake, raise]
  | authenticate args save session => simp [block, authenticate, raise]
  | commands save session list => simp [block, commands, pyTupleNew]
  | commandLoop f i =>
    simp [block, commandLoop, pyTupleNew, commandAt]
    intro _ tuple save channel
    cases channel with
    | none => simp [raise]
    | some channel => exact execCommand_spec f i _ save channel
  | stdoutLoop c =>
    simp [block, stdoutLoop, appendResponse, setOutput, pyTupleSetItem, newResponseString]
  | stderrLoop c =>
    simp [block, stderrLoop, appendResponse, setOutput, pyTupleSetItem, closeChannel]
    intro _ _ _ _ _ _ _ _ _ u _ save closed
    exact ⟨fun _ code signal => finishCommand_spec c save _ code _, fun _ => finishCommand_spec c save _ 0 none⟩

theorem execute_spec (args : Arguments) (h : host = args.sshHost) :
    (executeSshInstructions (some args)).wp (listener right host) Post false := by
  simp [executeSshInstructions, raise, h]

end One

/-! ## Any number of calls -/

def waiting (t : List (Event Reply)) : Bool := t.foldl (fun w e => waits w e.1 e.2) false

theorem next_reads {right : Address → Prop} {host : CString} {t : Config Reply Label Outcome}
    (h : ThreadOk (listener right host) Post false t) (hwaits : waiting t.trace = true) :
    ∃ remoteHost k, t.todo = .call (.hAddrList0 remoteHost) k := by
  have hwp := h.rest
  rw [show (listener right host).after false t.trace = true from hwaits] at hwp
  match htodo : t.todo with
  | .ret x => rw [htodo] at hwp; cases hwp
  | .fault => rw [htodo] at hwp; cases hwp
  | .call c k =>
    rw [htodo] at hwp
    have hguar : Guar right host true c := hwp.1
    cases c with
    | hAddrList0 remoteHost => exact ⟨remoteHost, k, rfl⟩
    | gethostbyname host => cases hguar.1
    | connect fd address => cases hguar.1
    | _ => cases hguar

section Many

variable {ι : Type} {resolve : CString → Address} {s s' : Net ι} {i : ι} {c : Call} {r : Reply c}

theorem serves_other (hc : ∀ host, c ≠ .gethostbyname host) (h : serves resolve s i c r s') :
    s'.cell = s.cell := by
  cases c with
  | gethostbyname host => exact absurd rfl (hc host)
  | pyInitialize => rw [h.2]
  | pyEvalRestoreThread save => rw [h.2]
  | hAddrList0 remoteHost => rw [h.2]
  | pyEvalSaveThread => rw [show s' = _ from h]
  | _ => rw [show s' = s from h]

theorem waits_other {w : Bool} (hc : ∀ host, c ≠ .gethostbyname host) (h : waits w c r = true) :
    w = true := by
  cases c with
  | gethostbyname host => exact absurd rfl (hc host)
  | hAddrList0 remoteHost => cases h
  | _ => exact h

variable {args : ι → Arguments} {p q : Pool Reply Label Outcome ι (Net ι)}

variable [DecidableEq ι]
variable {ok : Pool Reply Label Outcome ι (Net ι) → Action Reply ι (Net ι) → Prop}

/-- While a call waits, the cell holds an address that is right for it. -/
theorem reach_right (right : ι → Address → Prop) (hright : ∀ i, right i (resolve (args i).sshHost))
    (hlookup : ∀ p i r, ok p (.call i ⟨.gethostbyname (args i).sshHost, r⟩) →
      ∀ j, j ≠ i → waiting (p.threads j).trace = true → right j (resolve (args i).sshHost))
    (hp : Reach block (world resolve) ok (start args) p) :
    ∀ i, ThreadOk (listener (right i) (args i).sshHost) Post false (p.threads i) := by
  refine (reach_ok (fun i => listener (right i) (args i).sshHost) (fun _ => false) (fun _ => Post)
    (fun seen net => ∀ i, seen i = true → ∃ a, net.cell = some a ∧ right i a) hp
    (fun i => block_spec) (fun i => ⟨trivial, trivial, execute_spec (args i) rfl⟩) ?_ ?_ ?_).1
  · intro i h
    cases h
  · intro p i c r s' hJ hguar hserves hok
    by_cases hc : ∃ host, c = .gethostbyname host
    · obtain ⟨host, rfl⟩ := hc
      obtain rfl : host = (args i).sshHost := hguar.2
      obtain ⟨hr, rfl⟩ := hserves
      refine ⟨hr, fun j hj => ⟨_, rfl, ?_⟩⟩
      by_cases hji : j = i
      · subst hji
        exact hright j
      · rw [Function.update_of_ne hji] at hj
        exact hlookup p i r hok j hji hj
    · have hother := fun host h => hc ⟨host, h⟩
      refine ⟨?_, fun j hj => ?_⟩
      · cases c with
        | gethostbyname host => exact absurd rfl (hother host)
        | hAddrList0 remoteHost =>
          obtain ⟨a, hcell, ha⟩ := hJ i hguar
          obtain rfl : a = r := Option.some.inj (hcell.symm.trans hserves.1)
          exact ha
        | _ => trivial
      · rw [serves_other hother hserves]
        by_cases hji : j = i
        · subst hji
          rw [Function.update_self] at hj
          exact hJ j (waits_other hother hj)
        · rw [Function.update_of_ne hji] at hj
          exact hJ j hj
  · rintro p s' hJ ⟨i, o, -, -, rfl⟩ -
    exact hJ

variable (resolve args)

/-- The address that is read and the address that is connected to are the first one of the host. -/
def Own (host : CString) : Event Reply → Prop
  | ⟨.hAddrList0 _, address⟩ => address = resolve host
  | ⟨.connect _ address, _⟩ => address = resolve host
  | _ => True

def TalksToOwn (p : Pool Reply Label Outcome ι (Net ι)) : Prop :=
  ∀ i, ∀ e ∈ (p.threads i).trace, Own resolve (args i).sshHost e

/-- No host is looked up while another call waits for an answer that is a different one. -/
def Careful (p : Pool Reply Label Outcome ι (Net ι)) : Action Reply ι (Net ι) → Prop
  | .call i ⟨.gethostbyname host, _⟩ =>
    ∀ j, j ≠ i → waiting (p.threads j).trace = true → resolve (args j).sshHost = resolve host
  | _ => True

/-- A lookup that is not careful makes another call read the wrong address in its next step. -/
theorem careless_read {a : Action Reply ι (Net ι)}
    (hp : Reach block (world resolve) (fun _ _ => True) (start args) p)
    (hstep : Step block (world resolve) p a q) (ha : ¬ Careful resolve args p a) :
    ∃ b q', Step block (world resolve) q b q' ∧ ¬ TalksToOwn resolve args q' := by
  have hthreads := reach_right (fun _ _ => True) (fun _ => trivial) (fun _ _ _ _ _ _ _ => trivial) hp
  cases hstep with
  | goto => exact absurd trivial ha
  | world => exact absurd trivial ha
  | @call i c k r s' htodo hserves =>
    by_cases hc : ∃ host, c = .gethostbyname host
    · obtain ⟨host, rfl⟩ := hc
      simp only [Careful, not_forall] at ha
      obtain ⟨j, hji, hwaits, hne⟩ := ha
      obtain ⟨remoteHost, k', htodo'⟩ := next_reads (hthreads j) hwaits
      obtain ⟨-, rfl⟩ := hserves
      have hthread : (p.set i ⟨k r, (p.threads i).trace ++ [⟨_, r⟩]⟩
          { p.shared with cell := some (resolve host) }).threads j = p.threads j := by
        simp [Pool.set, hji]
      refine ⟨_, _, .call (i := j) (k := k') (resolve host) _ (by rw [hthread]; exact htodo') ⟨rfl, rfl⟩, ?_⟩
      intro howns
      have := howns j ⟨.hAddrList0 remoteHost, resolve host⟩ (by simp [Pool.set])
      exact hne this.symm
    · cases c with
      | gethostbyname host => exact absurd ⟨host, rfl⟩ hc
      | _ => exact absurd trivial ha

/-- Each call talks to its own host in every run whose lookups are all careful, and any other lookup
lets a call read the wrong address. -/
theorem own_hosts :
    (∀ p, Reach block (world resolve) (Careful resolve args) (start args) p →
      TalksToOwn resolve args p) ∧
    ∀ p a q, Reach block (world resolve) (fun _ _ => True) (start args) p →
      Step block (world resolve) p a q → ¬ Careful resolve args p a →
      ∃ b q', Step block (world resolve) q b q' ∧ ¬ TalksToOwn resolve args q' := by
  refine ⟨fun p hp i => ?_, fun p a q hp hstep ha => careless_read resolve args hp hstep ha⟩
  have hthread := reach_right (fun i a => a = resolve (args i).sshHost) (fun _ => rfl)
    (fun p i r hcareful j hji hwaits => (hcareful j hji hwaits).symm) hp i
  refine Monitor.kept_relied_mem _ ?_ hthread.kept hthread.relied
  intro waiting c r hguar hrely
  cases c with
  | hAddrList0 remoteHost => exact hrely
  | connect fd address => exact hguar.2
  | _ => trivial

end Many

/-! ## Two calls -/

def hostA : CString := ⟨[97], by decide⟩

def hostB : CString := ⟨[98], by decide⟩

def twoHosts (i : Bool) : Arguments := { sampleArguments with sshHost := if i then hostA else hostB }

def twoAddresses (host : CString) : Address := if host = hostA then 1 else 2

theorem both_look_up :
    ∃ p k, Reach block (world twoAddresses) (fun _ _ => True) (start twoHosts) p ∧
      waiting (p.threads true).trace = true ∧ (p.threads false).todo = .call (.gethostbyname hostB) k := by
  have h0 : Reach block (world twoAddresses) (fun _ _ => True) (start twoHosts) _ := .start
  have h1 := h0.step (.call (i := true) () ⟨none, some true⟩ rfl ⟨rfl, rfl⟩) trivial
  have h2 := h1.step (.call (i := true) () _ rfl rfl) trivial
  have h3 := h2.step (.call (i := true) () _ rfl rfl) trivial
  have h4 := h3.step (.call (i := true) (0 : Nat) _ rfl rfl) trivial
  have h5 := h4.step (.call (i := true) (3 : Int) _ rfl rfl) trivial
  have h6 := h5.step (.call (i := true) (some (0 : Nat)) _ rfl ⟨Option.some_ne_none _, rfl⟩) trivial
  -- The first call has released the lock, so the second one can come in.
  have k1 := h6.step (.call (i := false) () _ rfl ⟨rfl, rfl⟩) trivial
  have k2 := k1.step (.call (i := false) () _ rfl rfl) trivial
  have k3 := k2.step (.call (i := false) () _ rfl rfl) trivial
  have k4 := k3.step (.call (i := false) (0 : Nat) _ rfl rfl) trivial
  have k5 := k4.step (.call (i := false) (3 : Int) _ rfl rfl) trivial
  exact ⟨_, _, k5, rfl, rfl⟩

theorem careless_step : ∃ p a q, Reach block (world twoAddresses) (fun _ _ => True) (start twoHosts) p ∧
    Step block (world twoAddresses) p a q ∧ ¬ Careful twoAddresses twoHosts p a := by
  obtain ⟨p, k, hp, hwaits, htodo⟩ := both_look_up
  refine ⟨p, _, _, hp, .call (some (0 : Nat)) _ htodo ⟨Option.some_ne_none _, rfl⟩, fun hcareful => ?_⟩
  have : twoAddresses hostA = twoAddresses hostB := hcareful true (by decide) hwaits
  exact absurd this (by decide)

/-- A call that has connected to its own host, and the careless lookup of another one. -/
theorem own_hosts_two :
    (∃ p, Reach block (world twoAddresses) (Careful twoAddresses twoHosts) (start twoHosts) p ∧
      (⟨.connect 3 1, (0 : Int)⟩ : Event Reply) ∈ (p.threads true).trace ∧
      TalksToOwn twoAddresses twoHosts p) ∧
    ∃ q b q', Step block (world twoAddresses) q b q' ∧ ¬ TalksToOwn twoAddresses twoHosts q' := by
  constructor
  · have h0 : Reach block (world twoAddresses) (Careful twoAddresses twoHosts) (start twoHosts) _ := .start
    have h1 := h0.step (.call (i := true) () ⟨none, some true⟩ rfl ⟨rfl, rfl⟩) trivial
    have h2 := h1.step (.call (i := true) () _ rfl rfl) trivial
    have h3 := h2.step (.call (i := true) () _ rfl rfl) trivial
    have h4 := h3.step (.call (i := true) (0 : Nat) _ rfl rfl) trivial
    have h5 := h4.step (.call (i := true) (3 : Int) _ rfl rfl) trivial
    have h6 := h5.step (.call (i := true) (some (0 : Nat)) _ rfl ⟨Option.some_ne_none _, rfl⟩)
      (fun j hj hwaits => by cases j with
        | true => exact absurd rfl hj
        | false => cases hwaits)
    have h7 := h6.step (.call (i := true) (1 : Address) _ rfl ⟨rfl, rfl⟩) trivial
    have h8 := h7.step (.call (i := true) (0 : Int) _ rfl rfl) trivial
    exact ⟨_, h8, by simp [Pool.set], (own_hosts twoAddresses twoHosts).1 _ h8⟩
  · obtain ⟨p, a, q, hp, hstep, hcareless⟩ := careless_step
    exact ⟨q, (own_hosts twoAddresses twoHosts).2 p a q hp hstep hcareless⟩

/-- The second call's lookup comes between the first call's lookup and its read of the answer. -/
theorem wrong_host : ¬ ∀ p, Reach block (world twoAddresses) (fun _ _ => True) (start twoHosts) p →
    TalksToOwn twoAddresses twoHosts p := by
  intro h
  obtain ⟨p, a, q, hp, hstep, hcareless⟩ := careless_step
  obtain ⟨b, q', hstep', hwrong⟩ := careless_read _ _ hp hstep hcareless
  exact hwrong (h q' ((hp.step hstep trivial).step hstep' trivial))

end RemoteSsh.Hosts
