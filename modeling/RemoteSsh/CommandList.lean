import RemoteSsh.Lib.Pool
import RemoteSsh.Code.Funs

/-!
# The commands that are sent

The list of commands belongs to Python. The call reads its size once, fetches each command again when
its turn comes, and sends the command after it has released the lock. While the lock is released,
other threads change the list.
-/

open Lib

namespace RemoteSsh.CommandList

/-- The strings that are alive, and `ssh_commands`. A list keeps its elements alive. -/
structure Memory where
  heap : Handle → Option Bytes
  list : List Handle
  live : ∀ h ∈ list, (heap h).isSome

def Memory.strings (m : Memory) : List Bytes := m.list.map fun h => (m.heap h).getD []

theorem strings_length (m : Memory) : m.strings.length = m.list.length := by
  unfold Memory.strings
  exact List.length_map _

theorem strings_eq (m : Memory) (j : Nat) : m.strings[j]? = m.list[j]?.bind m.heap := by
  unfold Memory.strings
  rw [List.getElem?_map]
  cases hj : m.list[j]? with
  | none => rfl
  | some h =>
    obtain ⟨b, hb⟩ := Option.isSome_iff_exists.mp (m.live h (List.mem_of_getElem? hj))
    simp [hb]

/-- What another thread can do to the list and to the strings. A Python string does not change. -/
inductive Edit (m m' : Memory) : Prop
  | change (heap : m'.heap = m.heap)
  | create (h : Handle) (b : Bytes) (fresh : m.heap h = none) (list : m'.list = m.list)
      (heap : m'.heap = Function.update m.heap h (some b))
  | drop (h : Handle) (list : m'.list = m.list) (heap : m'.heap = Function.update m.heap h none)

structure Interp where
  held : Bool
  memory : Memory
  /-- The bytes of the commands when the size was read. -/
  snapshot : Option (List Bytes)
  fetched : Nat
  /-- What `PyString_AsString` gave last, unless it is gone. -/
  pointer : Option Handle
  /-- The payloads of the exec requests. It is `none` if the command was gone when it was read. -/
  sent : List (Option Bytes)

/-- The macro `libssh2_channel_exec` makes an `unsigned int` of the `strlen`. -/
def payload (b : Bytes) : Bytes := (cstr b).take ((cstr b).length % 2 ^ 32)

def serves (s : Interp) (_ : Unit) : (c : Call) → Reply c → Interp → Prop
  | .pyEvalSaveThread, _, s' => s' = { s with held := false }
  | .pyEvalRestoreThread _, _, s' => s' = { s with held := true }
  | .pyListSize _, n, s' =>
    n = (s.memory.list.length : Int) ∧ s' = { s with snapshot := some s.memory.strings }
  | .pyListGetItem _ i, r, s' => r = s.memory.list[i]? ∧ s' = { s with fetched := s.fetched + 1 }
  | .pyStringAsString h, r, s' => r = some h ∧ s' = { s with pointer := some h }
  | .libssh2ChannelExec _ command, _, s' =>
    s' = { s with sent := s.sent ++
      [if s.pointer = some command then (s.memory.heap command).map payload else none] }
  | _, _, s' => s' = s

def moves (p : Pool Reply Label Outcome Unit Interp) (s' : Interp) : Prop :=
  p.shared.held = false ∧ ∃ m, Edit p.shared.memory m ∧ s' =
    { p.shared with memory := m, pointer := p.shared.pointer.filter fun h => (m.heap h).isSome }

def world : World Reply Label Outcome Unit Interp := ⟨serves, moves⟩

/-- The call comes from Python, so it has the lock. -/
def start (args : Arguments) (m : Memory) : Pool Reply Label Outcome Unit Interp :=
  ⟨fun _ => ⟨executeSshInstructions (some args), []⟩, ⟨true, m, none, 0, none, []⟩⟩

/-! ## What the call does -/

/-- What one call knows: whether it has the lock, the size it read, how often it fetched and sent a
command, the item that it was given and has not used, and the pointer that it made of the last one. -/
structure Seen where
  held : Bool
  size : Option Int
  fetched : Nat
  sent : Nat
  item : Option Handle
  pointer : Option Handle

@[local simp] def Seen.next (s : Seen) : (c : Call) → Reply c → Seen
  | .pyEvalSaveThread, _ => { s with held := false }
  | .pyEvalRestoreThread _, _ => { s with held := true }
  | .pyListSize _, n => { s with size := some n }
  | .pyListGetItem _ _, r => { s with fetched := s.fetched + 1, item := r }
  | .pyStringAsString _, r => { s with item := none, pointer := r }
  | .libssh2ChannelExec _ _, _ => { s with sent := s.sent + 1 }
  | _, _ => s

/-- The index is a byte, so more than 255 commands are not counted through. -/
@[local simp] def Guar (s : Seen) : Call → Prop
  | .pyEvalSaveThread => s.item = none
  | .pyListSize _ => s.held = true ∧ s.size = none ∧ s.fetched = 0 ∧ s.sent = 0 ∧ s.item = none
  | .pyListGetItem _ i => s.held = true ∧ i ≤ 255 ∧ ∃ n : Nat, s.size = some (n : Int) ∧ i < n ∧
      (s.fetched = 2 * s.sent ∨ s.fetched = 2 * s.sent + 1) ∧ (n ≤ 255 → s.sent = i)
  | .pyStringAsString h => s.held = true ∧ s.item = some h
  | .libssh2ChannelExec _ command =>
    s.item = none ∧ s.pointer = some command ∧ s.fetched = 2 * (s.sent + 1)
  | _ => True

@[local simp] def Rely : (c : Call) → Reply c → Prop
  | .pyListSize _, n => ∃ k : Nat, n = (k : Int)
  | .pyListGetItem _ _, r => r ≠ none
  | .pyStringAsString h, r => r = some h
  | _, _ => True

def watch : Monitor Reply Seen where
  next := Seen.next
  guar := Guar
  rely _ := Rely
  fault _ := True

@[simp] theorem watch_next : watch.next = Seen.next := rfl
@[simp] theorem watch_guar : watch.guar = Guar := rfl
@[simp] theorem watch_rely (s : Seen) : watch.rely s = Rely := rfl
@[simp] theorem watch_fault (s : Seen) : watch.fault s ↔ True := Iff.rfl

structure InLoop (f : Frame) (i : Nat) (s : Seen) : Prop where
  held : s.held = false
  item : s.item = none
  fetched : s.fetched = 2 * s.sent
  sized : ∃ n : Nat, f.commandCount = n ∧ s.size = some (n : Int) ∧ (n ≤ 255 → s.sent = i ∧ i ≤ n)

def Before (s : Seen) : Prop :=
  s.size = none ∧ s.fetched = 0 ∧ s.sent = 0 ∧ s.item = none

def Post : Label ⊕ Outcome → Seen → Prop
  | .inl (.commandLoop f i), s => InLoop f i.toNat s
  | .inl (.stdoutLoop c), s => InLoop c.frame (c.i.toNat + 1) s
  | .inl (.stderrLoop c), s => InLoop c.frame (c.i.toNat + 1) s
  | .inl _, s => Before s ∧ s.held = false
  | .inr none, _ => True
  | .inr (some _), s => ∃ n : Nat, s.size = some (n : Int) ∧ s.sent = n ∧ n ≤ 255

theorem InLoop.relocked {f g : Frame} {i : Nat} {s : Seen} (h : InLoop f i s)
    (hcount : g.commandCount = f.commandCount) : InLoop g i { s with held := false } := by
  obtain ⟨-, hitem, hfetched, n, hn, hsize, hsent⟩ := h
  exact ⟨rfl, hitem, hfetched, n, hcount.trans hn, hsize, hsent⟩

theorem execCommand_spec (f : Frame) (i : UInt8) (t : Option (Tuple Item)) (save channel : Handle) (n : Nat)
    (s : Seen) (hcount : f.commandCount = n) (hsize : s.size = some (n : Int)) (hi : i.toNat < n)
    (hfetched : s.fetched = 2 * s.sent + 1) (hsent : n ≤ 255 → s.sent = i.toNat) :
    (execCommand f i t save channel).wp watch Post s := by
  have hbyte := i.toNat_lt
  simp [execCommand, raise, commandAt, newResponseString, Post, hsize, hfetched]
  refine ⟨⟨by omega, hi, hsent⟩, fun item _ object hobject => ⟨hobject, fun save => ⟨by omega, ?_⟩⟩⟩
  refine ⟨rfl, rfl, ?_, n, hcount, rfl, fun hn => ?_⟩
  · show 2 * s.sent + 1 + 1 = 2 * (s.sent + 1)
    omega
  · show s.sent + 1 = i.toNat + 1 ∧ i.toNat + 1 ≤ n
    have := hsent hn
    omega

theorem commandLoop_spec (f : Frame) (i : UInt8) (s : Seen) (h : InLoop f i.toNat s) :
    (commandLoop f i).wp watch Post s := by
  obtain ⟨hheld, hitem, hfetched, n, hcount, hsize, hsent⟩ := h
  have hbyte := i.toNat_lt
  simp [commandLoop, pyTupleNew, commandAt, hsize, hcount]
  constructor
  · intro hi tuple
    refine ⟨⟨by omega, hi, .inl hfetched, fun hn => (hsent hn).1⟩, fun item _ object hobject =>
      ⟨hobject, fun save channel => ?_⟩⟩
    cases channel with
    | none => simp [raise, Post]
    | some channel =>
      apply execCommand_spec f i _ save channel n _ hcount rfl hi
      · show s.fetched + 1 = 2 * s.sent + 1
        omega
      · exact fun hn => (hsent hn).1
  · intro hover
    -- The index is at most 255, so a loop that ends has counted all commands.
    have := hsent (by omega)
    cases f.pyResponse with
    | none => trivial
    | some response => exact ⟨n, rfl, by show s.sent = n; omega, by omega⟩

theorem finishCommand_spec (c : CommandFrame) (save : Handle) (t : Option (Tuple Item)) (code : Int)
    (signal : Option CString) (s : Seen) (h : InLoop c.frame (c.i.toNat + 1) s) :
    (finishCommand c save t code signal).wp watch Post s := by
  have hnext : InLoop c.frame (c.i + 1).toNat s := by
    obtain ⟨hheld, hitem, hfetched, n, hcount, hsize, hsent⟩ := h
    refine ⟨hheld, hitem, hfetched, n, hcount, hsize, fun hn => ?_⟩
    have := hsent hn
    have hbyte : (c.i + 1).toNat = (c.i.toNat + 1) % 256 := by simp
    omega
  unfold finishCommand setExitSignal pyTupleSetItem
  cases signal
  all_goals
    simp [Post, -UInt8.toNat_add]
    intro _ _
    exact ⟨h.item, fun _ _ => ⟨h.item, fun save => hnext.relocked rfl⟩⟩

theorem stdoutLoop_spec (c : CommandFrame) (s : Seen) (h : InLoop c.frame (c.i.toNat + 1) s) :
    (stdoutLoop c).wp watch Post s := by
  simp [stdoutLoop, appendResponse, setOutput, pyTupleSetItem, newResponseString, Post]
  intro r _ _ _ _ _
  refine ⟨fun _ => h, fun _ _ _ _ _ => ⟨h.item, fun save => h.relocked rfl⟩⟩

theorem stderrLoop_spec (c : CommandFrame) (s : Seen) (h : InLoop c.frame (c.i.toNat + 1) s) :
    (stderrLoop c).wp watch Post s := by
  simp [stderrLoop, appendResponse, setOutput, pyTupleSetItem, closeChannel, Post]
  intro r _ _ _ _ _
  refine ⟨fun _ => h, fun _ _ _ _ _ => ⟨h.item, fun save closed => ⟨fun _ code signal => ?_, fun _ => ?_⟩⟩⟩
  · exact finishCommand_spec c save _ code _ _ (h.relocked rfl)
  · exact finishCommand_spec c save _ 0 none _ (h.relocked rfl)

theorem block_spec : Verified watch block Post := by
  intro l s h
  cases l with
  | handshake args save sshSocket =>
    obtain ⟨⟨hsize, hfetched, hsent, hitem⟩, hheld⟩ := h
    simp [block, handshake, raise, Post, Before, hsize, hfetched, hsent, hitem, hheld]
  | authenticate args save session =>
    obtain ⟨⟨hsize, hfetched, hsent, hitem⟩, hheld⟩ := h
    simp [block, authenticate, raise, Post, Before, hsize, hfetched, hsent, hitem, hheld]
  | commands save session list =>
    obtain ⟨⟨hsize, hfetched, hsent, hitem⟩, hheld⟩ := h
    simp [block, commands, pyTupleNew, Post, hsize, hfetched, hsent, hitem]
    intro n response save
    exact ⟨rfl, rfl, rfl, n, rfl, rfl, fun _ => ⟨rfl, Nat.zero_le n⟩⟩
  | commandLoop f i => exact commandLoop_spec f i s h
  | stdoutLoop c => exact stdoutLoop_spec c s h
  | stderrLoop c => exact stderrLoop_spec c s h

theorem execute_spec (args : Arguments) :
    (executeSshInstructions (some args)).wp watch Post ⟨true, none, 0, 0, none, none⟩ := by
  simp [executeSshInstructions, raise, Post, Before]

/-! ## Edits that do no harm -/

def Clean (b : Bytes) : Prop := 0 ∉ b ∧ b.length < 2 ^ 32

theorem payload_clean {b : Bytes} (h : Clean b) : payload b = b := by
  unfold payload
  rw [cstr_eq_self b h.1, Nat.mod_eq_of_lt h.2, List.take_length]

/-- The call has made its pointer, and has not sent the command yet. -/
def Interp.Borrows (s : Interp) : Prop := s.fetched = 2 * (s.sent.length + 1)

/-- Each round fetches its command twice. The commands whose last fetch is still to come stay in their
place, and the command that is about to be sent stays alive. A list of more than 255 commands, with which
the call does not come to an end, only has to stay long enough. -/
structure Harmless (s s' : Interp) : Prop where
  short : ∀ snap, s.snapshot = some snap → snap.length ≤ 255 →
    ∀ j, s.fetched / 2 ≤ j → j < snap.length → s'.memory.strings[j]? = snap[j]?
  long : ∀ snap, s.snapshot = some snap → 255 < snap.length → 255 < s'.memory.list.length
  pointer : s.Borrows → s'.pointer = s.pointer

/-- The commands are clean when the list is read, and no thread does harm to it later. -/
def Careful (p : Pool Reply Label Outcome Unit Interp) : Action Reply Unit Interp → Prop
  | .call _ ⟨.pyListSize _, _⟩ =>
    p.shared.memory.list.length ≤ 255 → ∀ b ∈ p.shared.memory.strings, Clean b
  | .world s' => Harmless p.shared s'
  | _ => True

theorem Edit.keeps {m m' : Memory} (h : Edit m m') {x : Handle} {b : Bytes} (hx : m.heap x = some b)
    (hx' : (m'.heap x).isSome) : m'.heap x = some b := by
  cases h with
  | change heap => rw [heap, hx]
  | create y c fresh list heap =>
    have hne : x ≠ y := by
      rintro rfl
      rw [fresh] at hx
      cases hx
    rw [heap, Function.update_of_ne hne, hx]
  | drop y list heap =>
    have hne : x ≠ y := by
      rintro rfl
      rw [heap, Function.update_self] at hx'
      cases hx'
    rw [heap, Function.update_of_ne hne, hx]

/-! ## The call and the list -/

structure Kept (k : Seen) (s : Interp) (snap : List Bytes) : Prop where
  clean : snap.length ≤ 255 → ∀ b ∈ snap, Clean b
  rest : snap.length ≤ 255 → ∀ j, k.fetched / 2 ≤ j → j < snap.length → s.memory.strings[j]? = snap[j]?
  long : 255 < snap.length → 255 < s.memory.list.length
  sent : snap.length ≤ 255 → s.sent = (snap.take k.sent).map some

/-- The string `h` is alive, and it is the command whose turn it is. -/
def Current (k : Seen) (s : Interp) (h : Handle) : Prop :=
  ∃ b, s.memory.heap h = some b ∧
    (k.fetched = 2 * (k.sent + 1) → ∀ snap, s.snapshot = some snap → snap.length ≤ 255 → snap[k.sent]? = some b)

structure Agrees (k : Seen) (s : Interp) : Prop where
  held : s.held = k.held
  fetched : s.fetched = k.fetched
  sent : s.sent.length = k.sent
  alive : none ∉ s.sent
  sized : ∀ n : Nat, k.size = some (n : Int) → ∃ snap, s.snapshot = some snap ∧ snap.length = n ∧ Kept k s snap
  item : ∀ h, k.item = some h → k.held = true ∧ Current k s h
  pointer : k.item = none → k.fetched = 2 * (k.sent + 1) →
    ∃ h, k.pointer = some h ∧ s.pointer = some h ∧ Current k s h

theorem start_agrees (m : Memory) : Agrees ⟨true, none, 0, 0, none, none⟩ ⟨true, m, none, 0, none, []⟩ where
  held := rfl
  fetched := rfl
  sent := rfl
  alive := List.not_mem_nil
  sized := nofun
  item := nofun
  pointer := fun _ h => by simp at h

section Served

variable {k : Seen} {s : Interp}

theorem fetch_agrees (h : Agrees k s) {list : Handle} {i : Nat} (hguar : Guar k (.pyListGetItem list i)) :
    s.memory.list[i]? ≠ none ∧ Agrees (k.next (.pyListGetItem list i) s.memory.list[i]?)
      { s with fetched := s.fetched + 1 } := by
  obtain ⟨hheld, hbyte, n, hsize, hi, hturn, hsent⟩ := hguar
  obtain ⟨snap, hsnap, hlength, hkept⟩ := h.sized n hsize
  have hstring : n ≤ 255 → s.memory.strings[i]? = snap[i]? := fun hn =>
    hkept.rest (by omega) i (by have := hsent hn; omega) (by omega)
  have hinside : i < s.memory.list.length := by
    by_cases hn : n ≤ 255
    · have hcommand := hstring hn
      rw [List.getElem?_eq_getElem (show i < snap.length by omega)] at hcommand
      obtain ⟨hlt, -⟩ := List.getElem?_eq_some_iff.mp hcommand
      rwa [strings_length] at hlt
    · have := hkept.long (by omega)
      omega
  obtain ⟨object, hobject⟩ : ∃ object, s.memory.list[i]? = some object :=
    ⟨_, List.getElem?_eq_getElem hinside⟩
  obtain ⟨b, hb⟩ := Option.isSome_iff_exists.mp (s.memory.live object (List.mem_of_getElem? hobject))
  rw [hobject]
  refine ⟨Option.some_ne_none _, h.held, congrArg (· + 1) h.fetched, h.sent, h.alive, ?_, ?_, nofun⟩
  · intro n' hn'
    obtain ⟨snap', hsnap', hlength', hkept'⟩ := h.sized n' hn'
    refine ⟨snap', hsnap', hlength', hkept'.clean, fun hn j hj => hkept'.rest hn j ?_, hkept'.long, hkept'.sent⟩
    have : (k.fetched + 1) / 2 ≤ j := hj
    omega
  · rintro _ ⟨⟩
    refine ⟨hheld, b, hb, fun _ snap' hsnap' hn => ?_⟩
    obtain rfl : snap = snap' := Option.some.inj (hsnap.symm.trans hsnap')
    have := hstring (by omega)
    rw [strings_eq, hobject] at this
    show snap[k.sent]? = some b
    rw [hsent (by omega), ← this]
    exact hb

theorem point_agrees (h : Agrees k s) {object : Handle} (hguar : Guar k (.pyStringAsString object)) :
    Agrees (k.next (.pyStringAsString object) (some object)) { s with pointer := some object } where
  held := h.held
  fetched := h.fetched
  sent := h.sent
  alive := h.alive
  sized := fun n hn => by
    obtain ⟨snap, hsnap, hlength, hkept⟩ := h.sized n hn
    exact ⟨snap, hsnap, hlength, ⟨hkept.clean, hkept.rest, hkept.long, hkept.sent⟩⟩
  item := nofun
  pointer := fun _ _ => ⟨object, rfl, rfl, (h.item object hguar.2).2⟩

theorem send_agrees (h : Agrees k s) {channel command : Handle} {r : Int}
    (hguar : Guar k (.libssh2ChannelExec channel command)) :
    Agrees (k.next (.libssh2ChannelExec channel command) r) { s with sent := s.sent ++
      [if s.pointer = some command then (s.memory.heap command).map payload else none] } := by
  obtain ⟨hitem, hpointer, hfetched⟩ := hguar
  obtain ⟨x, hx, hpointer', b, hb, hcurrent⟩ := h.pointer hitem hfetched
  obtain rfl : command = x := Option.some.inj (hpointer.symm.trans hx)
  rw [if_pos hpointer', hb, Option.map_some]
  refine ⟨h.held, h.fetched, by simp [h.sent], by simp [h.alive], ?_, ?_, ?_⟩
  · intro n hn
    obtain ⟨snap, hsnap, hlength, hkept⟩ := h.sized n hn
    refine ⟨snap, hsnap, hlength, hkept.clean, hkept.rest, hkept.long, fun hshort => ?_⟩
    have hcommand := hcurrent hfetched snap hsnap hshort
    have hclean : payload b = b := payload_clean (hkept.clean hshort b (List.mem_of_getElem? hcommand))
    show s.sent ++ [some (payload b)] = (snap.take (k.sent + 1)).map some
    rw [hclean, hkept.sent hshort, List.take_add_one, hcommand]
    simp
  · intro y hy
    have : k.item = some y := hy
    rw [hitem] at this
    cases this
  · intro _ hnext
    have : k.fetched = 2 * (k.sent + 1 + 1) := hnext
    omega

theorem size_agrees (h : Agrees k s) {list : Handle} (hguar : Guar k (.pyListSize list))
    (hclean : s.memory.list.length ≤ 255 → ∀ b ∈ s.memory.strings, Clean b) :
    Agrees (k.next (.pyListSize list) (s.memory.list.length : Int))
      { s with snapshot := some s.memory.strings } := by
  obtain ⟨hheld, hsize, hfetched, hsent, hitem⟩ := hguar
  have hlength := strings_length s.memory
  refine ⟨h.held, h.fetched, h.sent, h.alive, ?_, ?_, ?_⟩
  · intro n hn
    have hn : (s.memory.list.length : Int) = n := Option.some.inj hn
    refine ⟨_, rfl, by omega, fun hshort => hclean (by omega), fun _ _ _ _ => rfl, fun hlong => ?_, fun _ => ?_⟩
    · show 255 < s.memory.list.length
      omega
    · show s.sent = (s.memory.strings.take k.sent).map some
      rw [hsent, List.take_zero, List.map_nil]
      exact List.eq_nil_of_length_eq_zero (h.sent.trans hsent)
  · intro y hy
    have : k.item = some y := hy
    rw [hitem] at this
    cases this
  · intro _ hnext
    have : k.fetched = 2 * (k.sent + 1) := hnext
    omega

theorem lock_agrees (h : Agrees k s) (held : Bool) (hitem : held = false → k.item = none) :
    Agrees { k with held := held } { s with held := held } := by
  refine ⟨rfl, h.fetched, h.sent, h.alive, ?_, ?_, h.pointer⟩
  · intro n hn
    obtain ⟨snap, hsnap, hlength, hkept⟩ := h.sized n hn
    exact ⟨snap, hsnap, hlength, ⟨hkept.clean, hkept.rest, hkept.long, hkept.sent⟩⟩
  · intro x hx
    refine ⟨?_, (h.item x hx).2⟩
    cases held with
    | true => rfl
    | false =>
      have : k.item = some x := hx
      rw [hitem rfl] at this
      cases this

theorem edit_agrees (h : Agrees k s) {m : Memory} (hheld : s.held = false) (hedit : Edit s.memory m)
    (hharmless : Harmless s
      { s with memory := m, pointer := s.pointer.filter fun x => (m.heap x).isSome }) :
    Agrees k { s with memory := m, pointer := s.pointer.filter fun x => (m.heap x).isSome } := by
  refine ⟨h.held, h.fetched, h.sent, h.alive, ?_, ?_, ?_⟩
  · intro n hn
    obtain ⟨snap, hsnap, hlength, hkept⟩ := h.sized n hn
    refine ⟨snap, hsnap, hlength, hkept.clean, fun hshort => ?_, hharmless.long snap hsnap, hkept.sent⟩
    rw [← h.fetched]
    exact hharmless.short snap hsnap hshort
  · intro x hx
    have hlocked := (h.item x hx).1
    rw [← h.held, hheld] at hlocked
    cases hlocked
  · intro hitem hfetched
    obtain ⟨x, hx, hpointer, b, hb, hcurrent⟩ := h.pointer hitem hfetched
    have hborrows : s.Borrows := by
      unfold Interp.Borrows
      rw [h.fetched, h.sent, hfetched]
    have hstays := hharmless.pointer hborrows
    simp only [hpointer] at hstays
    have halive : (m.heap x).isSome := (Option.filter_eq_some_iff.mp hstays).2
    refine ⟨x, hx, ?_, b, hedit.keeps hb halive, hcurrent⟩
    rw [← hstays, hpointer]

end Served

theorem serves_agrees {k : Seen} {s s' : Interp} {c : Call} {r : Reply c} (h : Agrees k s)
    (hguar : Guar k c)
    (hserves : serves s () c r s')
    (hclean : ∀ list, c = .pyListSize list → s.memory.list.length ≤ 255 → ∀ b ∈ s.memory.strings, Clean b) :
    Rely c r ∧ Agrees (k.next c r) s' := by
  cases c with
  | pyEvalSaveThread =>
    obtain rfl : s' = _ := hserves
    exact ⟨trivial, lock_agrees h false fun _ => hguar⟩
  | pyEvalRestoreThread save =>
    obtain rfl : s' = _ := hserves
    exact ⟨trivial, lock_agrees h true nofun⟩
  | pyListSize list =>
    obtain ⟨rfl, rfl⟩ := hserves
    exact ⟨⟨_, rfl⟩, size_agrees h hguar (hclean list rfl)⟩
  | pyListGetItem list i =>
    obtain ⟨rfl, rfl⟩ := hserves
    exact fetch_agrees h hguar
  | pyStringAsString object =>
    obtain ⟨rfl, rfl⟩ := hserves
    exact ⟨rfl, point_agrees h hguar⟩
  | libssh2ChannelExec channel command =>
    obtain rfl : s' = _ := hserves
    exact ⟨trivial, send_agrees h hguar⟩
  | _ =>
    obtain rfl : s' = s := hserves
    exact ⟨trivial, h⟩

/-! ## Every run -/

/-- `PyList_GetItem` gives NULL if the index is outside of the list. -/
def Found : Event Reply → Prop
  | ⟨.pyListGetItem _ _, r⟩ => r ≠ none
  | _ => True

/-- The call sends what the list held when its size was read, and does not touch what is not there. -/
structure Faithful (p : Pool Reply Label Outcome Unit Interp) : Prop where
  found : ∀ e ∈ (p.threads ()).trace, Found e
  alive : none ∉ p.shared.sent
  same : ∀ response, (p.threads ()).todo = .ret (.inr (some response)) →
    ∃ snap, p.shared.snapshot = some snap ∧ p.shared.sent = snap.map some

/-- The call is faithful in every run whose edits are all harmless. -/
theorem commands_sent (args : Arguments) (m : Memory) :
    ∀ p, Reach block world Careful (start args m) p → Faithful p := by
  intro p hp
  obtain ⟨hthreads, hagrees⟩ := reach_ok (fun _ => watch) (fun _ => ⟨true, none, 0, 0, none, none⟩)
    (fun _ => Post) (fun seen s => Agrees (seen ()) s) hp (fun _ => block_spec)
    (fun _ => ⟨trivial, trivial, execute_spec args⟩) (start_agrees m)
    (fun p i c r s' h hguar hserves hcareful => by
      rw [Function.update_self]
      refine serves_agrees h hguar hserves ?_
      rintro list rfl
      exact hcareful)
    (fun p s' h hmoves hcareful => by
      obtain ⟨hheld, m', hedit, rfl⟩ := hmoves
      exact edit_agrees h hheld hedit hcareful)
  have hthread := hthreads ()
  refine ⟨?_, hagrees.alive, fun response hdone => ?_⟩
  · refine Monitor.kept_relied_mem watch ?_ hthread.kept hthread.relied
    intro k c r _ hrely
    cases c with
    | pyListGetItem list i => exact hrely
    | _ => trivial
  · have hpost := hthread.rest
    rw [hdone] at hpost
    obtain ⟨n, hsize, hsent, hn⟩ := hpost
    obtain ⟨snap, hsnap, rfl, hkept⟩ := hagrees.sized n hsize
    refine ⟨snap, hsnap, ?_⟩
    rw [hkept.sent hn]
    show (snap.take (watch.after _ _).sent).map some = snap.map some
    rw [hsent, List.take_length]

/-! ## One command -/

/-- The command `ls`, in a list of `count` references to it. -/
def listing (count : Nat) : Memory where
  heap h := if h = 5 then some [108, 115] else none
  list := List.replicate count 5
  live h hh := by
    rw [List.eq_of_mem_replicate hh]
    rfl

def answer (s : Interp) : (c : Call) → Reply c × Interp
  | .pyEvalSaveThread => ((0 : Nat), { s with held := false })
  | .pyEvalRestoreThread _ => ((), { s with held := true })
  | .pyListSize _ => ((s.memory.list.length : Int), { s with snapshot := some s.memory.strings })
  | .pyListGetItem _ i => (s.memory.list[i]?, { s with fetched := s.fetched + 1 })
  | .pyStringAsString h => (some h, { s with pointer := some h })
  | .libssh2ChannelExec _ command => ((0 : Int), { s with sent := s.sent ++
      [if s.pointer = some command then (s.memory.heap command).map payload else none] })
  | c => (accepting 0 [] c, s)

theorem answer_serves (s : Interp) (c : Call) : serves s () c (answer s c).1 (answer s c).2 := by
  cases c with
  | pyListSize list => exact ⟨rfl, rfl⟩
  | pyListGetItem list i => exact ⟨rfl, rfl⟩
  | pyStringAsString h => exact ⟨rfl, rfl⟩
  | _ => exact rfl

theorem answer_memory (s : Interp) (c : Call) : (answer s c).2.memory = s.memory := by
  cases c <;> rfl

theorem reach_alone {m : Memory} (hclean : ∀ b ∈ m.strings, Clean b)
    {p q : Pool Reply Label Outcome Unit Interp} (hp : Reach block world Careful p q)
    (hq : q.shared.memory = m) (n : Nat) :
    Reach block world Careful p ((Pool.alone block answer ())^[n] q) ∧
      ((Pool.alone block answer ())^[n] q).shared.memory = m := by
  refine hp.alone (fun s => s.memory = m) ?_ ?_ (fun _ => trivial) hq n
  · exact fun s c hs => ⟨answer_serves s c, (answer_memory s c).trans hs⟩
  · intro p c r hm
    cases c with
    | pyListSize list =>
      intro _
      rw [hm]
      exact hclean
    | _ => trivial

theorem listing_clean (count : Nat) : ∀ b ∈ (listing count).strings, Clean b := by
  intro b hb
  unfold Memory.strings listing at hb
  rw [List.map_replicate] at hb
  obtain rfl : b = [108, 115] := List.eq_of_mem_replicate hb
  exact ⟨by decide, by decide⟩

/-- The call has read that there is one command, and has released the lock. -/
def counted : Pool Reply Label Outcome Unit Interp :=
  (Pool.alone block answer ())^[22] (start sampleArguments (listing 1))

theorem counted_reach : Reach block world Careful (start sampleArguments (listing 1)) counted ∧
    counted.shared.memory = listing 1 :=
  reach_alone (listing_clean 1) .start rfl 22

def edited (count : Nat) : Pool Reply Label Outcome Unit Interp :=
  ⟨counted.threads, { counted.shared with
    memory := listing count
    pointer := counted.shared.pointer.filter fun h => ((listing count).heap h).isSome }⟩

theorem edited_step (count : Nat) : Step block world counted (.world (edited count).shared)
    (edited count) := by
  refine .world _ ⟨by decide +kernel, listing count, .change ?_, rfl⟩
  rw [counted_reach.2]
  rfl

theorem append_harmless : Harmless counted.shared (edited 2).shared := by
  have hsnap : counted.shared.snapshot = some [[108, 115]] := by decide +kernel
  refine ⟨fun snap h _ j _ hj => ?_, fun snap h hlong => ?_, fun h => absurd h ?_⟩
  · obtain rfl : [[108, 115]] = snap := Option.some.inj (hsnap.symm.trans h)
    obtain rfl : j = 0 := by simpa using hj
    rfl
  · obtain rfl : [[108, 115]] = snap := Option.some.inj (hsnap.symm.trans h)
    simp at hlong
  · unfold Interp.Borrows
    decide +kernel

/-- The caller passes one command, another thread appends one more after the size was read, and the call
returns a tuple and has sent the one command. -/
theorem commands_sent_one : ∃ p, Reach block world Careful (start sampleArguments (listing 1)) p ∧
    (p.threads ()).todo.outcome.isSome ∧ p.shared.sent = [some [108, 115]] ∧ Faithful p := by
  have hedited := counted_reach.1.step (edited_step 2) append_harmless
  have hend := (reach_alone (listing_clean 2) hedited rfl 50).1
  exact ⟨_, hend, by decide +kernel, by decide +kernel, commands_sent sampleArguments (listing 1) _ hend⟩

def missed : Event Reply → Bool
  | ⟨.pyListGetItem _ _, r⟩ => r.isNone
  | _ => false

theorem missed_not_found {e : Event Reply} (h : missed e = true) : ¬ Found e := by
  obtain ⟨c, r⟩ := e
  cases c with
  | pyListGetItem list i => exact fun hfound => hfound (Option.isNone_iff_eq_none.mp h)
  | _ => cases h

/-- Another thread clears the list after its size was read. The call fetches the first command. -/
theorem cleared_list : ¬ ∀ p, Reach block world (fun _ _ => True) (start sampleArguments (listing 1)) p →
    Faithful p := by
  intro h
  have hedited := (counted_reach.1.mono fun _ _ _ => trivial).step (edited_step 0) trivial
  have hend := (hedited.alone (i := ()) (fun _ => True) (fun s c _ => ⟨answer_serves s c, trivial⟩)
    (fun _ _ _ _ => trivial) (fun _ => trivial) trivial 5).1
  have hmissed : ((((Pool.alone block answer ())^[5] (edited 0)).threads ()).trace.any missed) = true := by
    decide +kernel
  obtain ⟨e, he, hmiss⟩ := List.any_eq_true.mp hmissed
  exact missed_not_found hmiss ((h _ hend).found e he)

end RemoteSsh.CommandList
