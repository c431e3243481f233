import RemoteSsh.Lib.Pool
import RemoteSsh.Accumulate

/-!
# The window that stdout and stderr share

One command, from the moment that the server has taken it. The server writes to stdout and to stderr and
may send no more than the client has granted. The client counts against its window only what it has read,
and it reads all of stdout before it reads anything of stderr.
-/

open Lib

namespace RemoteSsh.Channel

/-! ## The two parties -/

/-- `LIBSSH2_CHANNEL_WINDOW_DEFAULT`. -/
def windowInitial : Nat := 2 * 1024 * 1024

/-- `LIBSSH2_CHANNEL_PACKET_DEFAULT`. -/
def packetSize : Nat := 32768

/-- A read grants more if the window is smaller than `window_size_initial / 4 * 3 + buflen`. -/
def threshold : Nat := windowInitial / 4 * 3 + bufferSize

def topped : Nat := windowInitial + bufferSize

inductive Message where
  | data (stream : Stream) (n : Nat)
  | eof
  | exitStatus
  | close
  deriving DecidableEq

def Message.bytes (stream : Stream) : Message → Nat
  | .data s n => if s = stream then n else 0
  | _ => 0

structure Link where
  /-- The bytes that the server has not sent yet, each with its stream. -/
  left : List Stream
  ending : List Message
  credit : Nat
  wire : List Message
  adjusts : List Nat
  queued : Stream → Nat
  windowSize : Nat
  eof : Bool
  closed : Bool
  /-- Whether the read that the client is in has looked at the window. -/
  entered : Bool

def Link.enter (s : Link) : Link :=
  if s.windowSize < threshold then
    { s with windowSize := topped, adjusts := s.adjusts ++ [topped - s.windowSize], entered := true }
  else { s with entered := true }

theorem enter_low {s : Link} (h : s.windowSize < threshold) : s.enter =
    { s with windowSize := topped, adjusts := s.adjusts ++ [topped - s.windowSize], entered := true } :=
  if_pos h

theorem enter_high {s : Link} (h : threshold ≤ s.windowSize) : s.enter = { s with entered := true } :=
  if_neg (Nat.not_lt.mpr h)

def Link.take (s : Link) (stream : Stream) (n : Nat) : Link :=
  { s with
    queued := Function.update s.queued stream (s.queued stream - n)
    windowSize := s.windowSize - n
    entered := false }

def Link.arrive (s : Link) : Message → Link
  | .data stream n => { s with queued := Function.update s.queued stream (s.queued stream + n) }
  | .eof => { s with eof := true }
  | .exitStatus => s
  | .close => { s with closed := true }

section Arrive

variable (s : Link) (m : Message)

@[simp] theorem arrive_queued (stream : Stream) :
    (s.arrive m).queued stream = s.queued stream + m.bytes stream := by
  cases m with
  | data sender n =>
    by_cases h : sender = stream
    · subst h
      simp [Link.arrive, Message.bytes]
    · simp [Link.arrive, Message.bytes, h, Function.update_of_ne (Ne.symm h)]
  | _ => rfl

@[simp] theorem arrive_left : (s.arrive m).left = s.left := by cases m <;> rfl
@[simp] theorem arrive_ending : (s.arrive m).ending = s.ending := by cases m <;> rfl
@[simp] theorem arrive_credit : (s.arrive m).credit = s.credit := by cases m <;> rfl
@[simp] theorem arrive_wire : (s.arrive m).wire = s.wire := by cases m <;> rfl
@[simp] theorem arrive_adjusts : (s.arrive m).adjusts = s.adjusts := by cases m <;> rfl
@[simp] theorem arrive_windowSize : (s.arrive m).windowSize = s.windowSize := by cases m <;> rfl
@[simp] theorem arrive_entered : (s.arrive m).entered = s.entered := by cases m <;> rfl

@[simp] theorem arrive_eof : (s.arrive m).eof = true ↔ s.eof = true ∨ m = .eof := by
  cases m <;> simp [Link.arrive]

@[simp] theorem arrive_closed : (s.arrive m).closed = true ↔ s.closed = true ∨ m = .close := by
  cases m <;> simp [Link.arrive]

end Arrive

/-- A read waits for bytes of its own stream, or for the end. A close waits for the server's close. -/
def serves (s : Link) (_ : Unit) : (c : Call) → Reply c → Link → Prop
  | .libssh2ChannelRead _ stream, r, s' => s.entered = true ∧
    match (r : ReadResult) with
    | .data chunk => chunk.bytes.length ≤ s.queued stream ∧ s' = s.take stream chunk.bytes.length
    | .eof => s.queued stream = 0 ∧ (s.eof = true ∨ s.closed = true) ∧ s' = s.take stream 0
    | .error _ => False
  | .libssh2ChannelClose _, r, s' => s.closed = true ∧ r = (0 : Int) ∧ s' = s
  | _, _, s' => s' = s

inductive Moves (p : Pool Reply Label Outcome Unit Link) : Link → Prop
  | enter (channel : Handle) (stream : Stream) (k : ReadResult → Body)
      (hread : (p.threads ()).todo = .call (.libssh2ChannelRead channel stream) k)
      (hentered : p.shared.entered = false) : Moves p p.shared.enter
  | send (stream : Stream) (n : Nat) (rest : List Stream) (hleft : p.shared.left = List.replicate n stream ++ rest)
      (hpos : 0 < n) (hcredit : n ≤ p.shared.credit) (hsize : n ≤ packetSize) :
      Moves p { p.shared with
        left := rest, credit := p.shared.credit - n, wire := p.shared.wire ++ [.data stream n] }
  | finish (m : Message) (rest : List Message) (hleft : p.shared.left = []) (hending : p.shared.ending = m :: rest) :
      Moves p { p.shared with ending := rest, wire := p.shared.wire ++ [m] }
  | arrive (m : Message) (rest : List Message) (hwire : p.shared.wire = m :: rest) :
      Moves p (Link.arrive { p.shared with wire := rest } m)
  | adjust (n : Nat) (rest : List Nat) (hadjusts : p.shared.adjusts = n :: rest) :
      Moves p { p.shared with adjusts := rest, credit := p.shared.credit + n }

def world : World Reply Label Outcome Unit Link := ⟨serves, Moves⟩

theorem serves_data {s : Link} {channel : Handle} {stream : Stream} (chunk : Chunk)
    (hentered : s.entered = true)
    (hqueued : chunk.bytes.length ≤ s.queued stream) :
    world.serves s () (.libssh2ChannelRead channel stream) (ReadResult.data chunk)
      (s.take stream chunk.bytes.length) :=
  ⟨hentered, hqueued, rfl⟩

theorem serves_eof {s : Link} {channel : Handle} {stream : Stream} (hentered : s.entered = true)
    (hqueued : s.queued stream = 0) (hend : s.eof = true ∨ s.closed = true) :
    world.serves s () (.libssh2ChannelRead channel stream) ReadResult.eof (s.take stream 0) :=
  ⟨hentered, hqueued, hend, rfl⟩

def output (script : List (Stream × Nat)) : List Stream :=
  script.flatMap fun write => List.replicate write.2 write.1

def taken (f : Frame) (i : UInt8) (pyCommandResponse : Option (Tuple Item)) (channel address : Handle) :
    CommandFrame :=
  ⟨f, i, pyCommandResponse, channel, ⟨address, emptyResponse⟩⟩

def start (c : CommandFrame) (bytes : List Stream) : Pool Reply Label Outcome Unit Link :=
  ⟨fun _ => ⟨.ret (.inl (.stdoutLoop c)), []⟩,
    { left := bytes
      ending := [.eof, .exitStatus, .close]
      credit := windowInitial
      wire := []
      adjusts := []
      queued := fun _ => 0
      windowSize := windowInitial
      eof := false
      closed := false
      entered := false }⟩

/-- The client waits in a call, and nothing can happen any more. -/
def Stuck (p : Pool Reply Label Outcome Unit Link) : Prop :=
  (∃ c k, (p.threads ()).todo = .call c k) ∧ ∀ a q, ¬ Step oneCommand world p a q

/-! ## What can be granted -/

theorem count_streams (bytes : List Stream) : bytes.count .stdout + bytes.count .stderr = bytes.length := by
  induction bytes with
  | nil => rfl
  | cons stream rest ih =>
    cases stream with
    | stdout => simp; omega
    | stderr => simp; omega

/-- The totals that the client can have granted. It grants more when the window has just fallen below the
threshold, and then it has read `r` bytes, all of stdout. -/
inductive Granted (bytes : List Stream) : Nat → Prop
  | initial : Granted bytes windowInitial
  | more {g : Nat} (r : Nat) (h : Granted bytes g) (hlow : g < r + threshold)
      (hnear : r + threshold ≤ g + bufferSize) (hread : r ≤ (bytes.take g).count .stdout) :
      Granted bytes (r + topped)

/-- As long as the client has granted less than the whole output, what it granted leaves less than the
threshold for stderr. -/
def Safe (bytes : List Stream) : Prop :=
  ∀ g, Granted bytes g → g < bytes.length → (bytes.take g).count .stderr < threshold

theorem granted_initial_le {bytes : List Stream} {g : Nat} (h : Granted bytes g) : windowInitial ≤ g := by
  cases h with
  | initial => exact Nat.le_refl _
  | more r _ _ _ _ =>
    unfold topped
    omega

theorem safe_of_short {bytes : List Stream} (h : bytes.length ≤ windowInitial) : Safe bytes := by
  intro g hg hlt
  have := granted_initial_le hg
  omega

theorem safe_of_stderr {bytes : List Stream} (h : bytes.count .stderr < threshold) : Safe bytes := by
  intro g _ _
  have := (List.take_sublist g bytes).count_le .stderr
  omega

/-! ## The client -/

structure Seen where
  read : Nat
  drained : Bool

@[local simp] def Seen.next (k : Seen) : (c : Call) → Reply c → Seen
  | .libssh2ChannelRead _ .stdout, r =>
    match (r : ReadResult) with
    | .data chunk => { k with read := k.read + chunk.bytes.length }
    | _ => { k with drained := true }
  | _, _ => k

/-- Stdout is read first. -/
@[local simp] def Guar (k : Seen) : Call → Prop
  | .libssh2ChannelRead _ .stdout => k.drained = false
  | .libssh2ChannelRead _ .stderr => k.drained = true
  | .libssh2ChannelClose _ => k.drained = true
  | _ => True

def watch : Monitor Reply Seen where
  next := Seen.next
  guar := Guar
  rely _ _ _ := True
  fault _ := True

@[simp] theorem watch_next : watch.next = Seen.next := rfl
@[simp] theorem watch_guar : watch.guar = Guar := rfl
@[simp] theorem watch_rely (k : Seen) (c : Call) (r : Reply c) : watch.rely k c r ↔ True := Iff.rfl
@[simp] theorem watch_fault (k : Seen) : watch.fault k ↔ True := Iff.rfl

def Post : Label ⊕ Outcome → Seen → Prop
  | .inl (.stdoutLoop _), k => k.drained = false
  | .inl (.stderrLoop _), k => k.drained = true
  | .inl (.commandLoop _ _), _ => True
  | .inl _, _ => False
  | .inr _, _ => True

theorem stdoutLoop_spec (c : CommandFrame) (k : Seen) (h : k.drained = false) :
    (stdoutLoop c).wp watch Post k := by
  simp [stdoutLoop, appendResponse, setOutput, pyTupleSetItem, newResponseString, h]
  intro r
  cases r with
  | data chunk =>
    have hne : chunk.bytes ≠ [] := List.length_pos_iff.mp chunk.pos
    simp [ReadResult.count, Post, hne]
  | eof => simp [ReadResult.count, Post]
  | error e =>
    have hle : e.code ≤ 0 := e.neg.le
    simp [ReadResult.count, Post, hle]

theorem finishCommand_spec (c : CommandFrame) (save : Handle) (t : Option (Tuple Item)) (code : Int)
    (signal : Option CString) (k : Seen) : (finishCommand c save t code signal).wp watch Post k := by
  cases signal <;> simp [finishCommand, setExitSignal, pyTupleSetItem, Post]

theorem stderrLoop_spec (c : CommandFrame) (k : Seen) (h : k.drained = true) :
    (stderrLoop c).wp watch Post k := by
  simp [stderrLoop, appendResponse, setOutput, pyTupleSetItem, closeChannel, Post, h]
  intro r _ _ _ _ _ _ _ _ _ _ save closed
  exact ⟨fun _ code signal => finishCommand_spec c save _ code _ k, fun _ => finishCommand_spec c save _ 0 none k⟩

theorem oneCommand_spec : Verified watch oneCommand Post := by
  intro l k h
  cases l with
  | commandLoop f i => trivial
  | stdoutLoop c => exact stdoutLoop_spec c k h
  | stderrLoop c => exact stderrLoop_spec c k h
  | _ => cases h

/-! ## The bytes on their way -/

def Link.flying (s : Link) (stream : Stream) : Nat := (s.wire.map (Message.bytes stream)).sum

/-- While the client reads stdout: where all the bytes are that were sent, and where all the credit is. -/
structure Flow (bytes : List Stream) (read : Nat) (s : Link) (sent : List Stream) : Prop where
  split : bytes = sent ++ s.left
  stdout : sent.count .stdout = read + s.queued .stdout + s.flying .stdout
  stderr : sent.count .stderr = s.queued .stderr + s.flying .stderr
  window : s.windowSize + read = sent.length + s.credit + s.adjusts.sum
  granted : Granted bytes (s.windowSize + read)
  near : threshold ≤ s.windowSize + bufferSize
  entered : s.entered = true → threshold ≤ s.windowSize

/-- The end comes after all bytes, and it comes. -/
structure Ordered (s : Link) : Prop where
  last : s.eof = true ∨ s.closed = true ∨ Message.eof ∈ s.wire ∨ Message.close ∈ s.wire → s.left = []
  close : s.closed = true ∨ Message.close ∈ s.wire ∨ Message.close ∈ s.ending
  plain : ∀ m ∈ s.ending, ∀ stream, m.bytes stream = 0

structure Agrees (bytes : List Stream) (k : Seen) (s : Link) : Prop where
  ordered : Ordered s
  flow : k.drained = false → ∃ sent, Flow bytes k.read s sent
  ended : k.drained = true → s.eof = true ∨ s.closed = true

theorem start_agrees (c : CommandFrame) (bytes : List Stream) :
    Agrees bytes ⟨0, false⟩ (start c bytes).shared := by
  refine ⟨⟨by simp [start], by simp [start], by simp [start, Message.bytes]⟩, fun _ => ⟨[], ?_⟩, nofun⟩
  refine ⟨rfl, rfl, rfl, ?_, .initial, ?_, nofun⟩
  · simp [start]
  · show threshold ≤ windowInitial + bufferSize
    decide

section Steps

variable {bytes sent : List Stream} {read : Nat} {k : Seen} {s : Link}

theorem Flow.read_le (h : Flow bytes read s sent) : read ≤
    (bytes.take (s.windowSize + read)).count .stdout := by
  have hwindow := h.window
  have hprefix : sent <+: bytes.take (s.windowSize + read) :=
    List.prefix_take_iff.mpr ⟨⟨s.left, h.split.symm⟩, by omega⟩
  have hcount := hprefix.sublist.count_le .stdout
  have hstdout := h.stdout
  omega

theorem Flow.enter (h : Flow bytes read s sent) : Flow bytes read s.enter sent := by
  unfold Link.enter
  split
  next hlow =>
    have hnear := h.near
    have hwindow := h.window
    have hbuf : threshold ≤ topped := by decide
    refine ⟨h.split, h.stdout, h.stderr, ?_, ?_, ?_, ?_⟩
    · show topped + read = sent.length + s.credit + (s.adjusts ++ [topped - s.windowSize]).sum
      rw [List.sum_append, List.sum_singleton]
      omega
    · show Granted bytes (topped + read)
      rw [Nat.add_comm]
      exact .more read h.granted (by omega) (by omega) h.read_le
    · show threshold ≤ topped + bufferSize
      omega
    · exact fun _ => hbuf
  next hlow =>
    exact ⟨h.split, h.stdout, h.stderr, h.window, h.granted, h.near, fun _ => Nat.le_of_not_lt hlow⟩

theorem Flow.take (h : Flow bytes read s sent) {n : Nat} (hentered : s.entered = true)
    (hn : n ≤ s.queued .stdout)
    (hbuf : n ≤ bufferSize) : Flow bytes (read + n) (s.take .stdout n) sent := by
  have hwindow := h.entered hentered
  have hstdout := h.stdout
  have hsame : s.windowSize - n + (read + n) = s.windowSize + read := by
    have : bufferSize ≤ threshold := by decide
    omega
  refine ⟨h.split, ?_, ?_, ?_, ?_, ?_, nofun⟩
  · show sent.count .stdout =
      read + n + Function.update s.queued .stdout (s.queued .stdout - n) .stdout + s.flying .stdout
    rw [Function.update_self]
    omega
  · show sent.count .stderr = Function.update s.queued .stdout (s.queued .stdout - n) .stderr + s.flying .stderr
    rw [Function.update_of_ne (by decide)]
    exact h.stderr
  · exact hsame.trans h.window
  · show Granted bytes (s.windowSize - n + (read + n))
    rw [hsame]
    exact h.granted
  · show threshold ≤ s.windowSize - n + bufferSize
    omega

theorem Flow.send (h : Flow bytes read s sent) {stream : Stream} {n : Nat} {rest : List Stream}
    (hleft : s.left = List.replicate n stream ++ rest) (hcredit : n ≤ s.credit) :
    Flow bytes read { s with left := rest, credit := s.credit - n, wire := s.wire ++ [.data stream n] }
      (sent ++ List.replicate n stream) := by
  have hstdout := h.stdout
  have hstderr := h.stderr
  have hwindow := h.window
  refine ⟨?_, ?_, ?_, ?_, h.granted, h.near, h.entered⟩
  · rw [h.split, hleft, List.append_assoc]
  · unfold Link.flying at *
    cases stream <;> simp [Message.bytes, List.count_replicate] <;> omega
  · unfold Link.flying at *
    cases stream <;> simp [Message.bytes, List.count_replicate] <;> omega
  · simp
    omega

theorem Flow.finish (h : Flow bytes read s sent) {m : Message} {rest : List Message}
    (hm : ∀ stream, m.bytes stream = 0) :
    Flow bytes read { s with ending := rest, wire := s.wire ++ [m] } sent := by
  refine ⟨h.split, ?_, ?_, h.window, h.granted, h.near, h.entered⟩
  · rw [h.stdout]
    simp [Link.flying, hm]
  · rw [h.stderr]
    simp [Link.flying, hm]

theorem Flow.arrive (h : Flow bytes read s sent) {m : Message} {rest : List Message}
    (hwire : s.wire = m :: rest) :
    Flow bytes read (Link.arrive { s with wire := rest } m) sent := by
  have hstdout := h.stdout
  have hstderr := h.stderr
  unfold Link.flying at hstdout hstderr
  rw [hwire, List.map_cons, List.sum_cons] at hstdout hstderr
  refine ⟨by simpa using h.split, ?_, ?_, by simpa using h.window, by simpa using h.granted, by simpa using h.near,
    by simpa using h.entered⟩
  · simp only [Link.flying, arrive_queued, arrive_wire]
    omega
  · simp only [Link.flying, arrive_queued, arrive_wire]
    omega

theorem Flow.adjust (h : Flow bytes read s sent) {n : Nat} {rest : List Nat}
    (hadjusts : s.adjusts = n :: rest) :
    Flow bytes read { s with adjusts := rest, credit := s.credit + n } sent := by
  refine ⟨h.split, h.stdout, h.stderr, ?_, h.granted, h.near, h.entered⟩
  have hwindow := h.window
  rw [hadjusts, List.sum_cons] at hwindow
  show s.windowSize + read = sent.length + (s.credit + n) + rest.sum
  omega

theorem Ordered.arrive (h : Ordered s) {m : Message} {rest : List Message} (hwire : s.wire = m :: rest) :
    Ordered (Link.arrive { s with wire := rest } m) := by
  obtain ⟨hlast, hclose, hplain⟩ := h
  rw [hwire] at hlast hclose
  refine ⟨?_, ?_, by simpa using hplain⟩
  · simp only [arrive_eof, arrive_closed, arrive_wire, arrive_left, List.mem_cons] at hlast ⊢
    tauto
  · simp only [arrive_closed, arrive_wire, arrive_ending, List.mem_cons] at hclose ⊢
    tauto

theorem Ordered.send (h : Ordered s) {stream : Stream} {n : Nat} {rest : List Stream}
    (hleft : s.left = List.replicate n stream ++ rest) (hpos : 0 < n) :
    Ordered { s with left := rest, credit := s.credit - n, wire := s.wire ++ [.data stream n] } := by
  have hne : s.left ≠ [] := by
    rw [hleft]
    simp
    omega
  refine ⟨fun hend => absurd (h.last ?_) hne, ?_, h.plain⟩
  · simpa using hend
  · simpa using h.close

theorem Ordered.finish (h : Ordered s) {m : Message} {rest : List Message} (hleft : s.left = [])
    (hending : s.ending = m :: rest) : Ordered { s with ending := rest, wire := s.wire ++ [m] } := by
  have hclose := h.close
  have hplain := h.plain
  rw [hending] at hclose hplain
  refine ⟨fun _ => hleft, ?_, fun x hx => hplain x (List.mem_cons_of_mem _ hx)⟩
  simp only [List.mem_cons, List.mem_append, List.not_mem_nil, or_false] at hclose ⊢
  tauto

theorem enter_frame (s : Link) : s.enter.left = s.left ∧ s.enter.ending = s.ending ∧ s.enter.wire = s.wire ∧
    s.enter.eof = s.eof ∧ s.enter.closed = s.closed := by
  unfold Link.enter
  split
  next => exact ⟨rfl, rfl, rfl, rfl, rfl⟩
  next => exact ⟨rfl, rfl, rfl, rfl, rfl⟩

theorem Ordered.enter (h : Ordered s) : Ordered s.enter := by
  obtain ⟨hleft, hending, hwire, heof, hclosed⟩ := enter_frame s
  refine ⟨?_, ?_, ?_⟩
  · rw [heof, hclosed, hwire, hleft]
    exact h.last
  · rw [hclosed, hwire, hending]
    exact h.close
  · rw [hending]
    exact h.plain

theorem moves_agrees {p : Pool Reply Label Outcome Unit Link} {s' : Link} (h : Agrees bytes k p.shared)
    (hmoves : Moves p s') : Agrees bytes k s' := by
  cases hmoves with
  | enter channel stream next hread hentered =>
    refine ⟨h.ordered.enter, fun hk => ?_, fun hk => ?_⟩
    · obtain ⟨sent, hflow⟩ := h.flow hk
      exact ⟨sent, hflow.enter⟩
    · obtain ⟨-, -, -, heof, hclosed⟩ := enter_frame p.shared
      rw [heof, hclosed]
      exact h.ended hk
  | send stream n rest hleft hpos hcredit hsize =>
    refine ⟨h.ordered.send hleft hpos, fun hk => ?_, h.ended⟩
    obtain ⟨sent, hflow⟩ := h.flow hk
    exact ⟨_, hflow.send hleft hcredit⟩
  | finish m rest hleft hending =>
    refine ⟨h.ordered.finish hleft hending, fun hk => ?_, h.ended⟩
    obtain ⟨sent, hflow⟩ := h.flow hk
    exact ⟨sent, hflow.finish (h.ordered.plain m (hending ▸ List.mem_cons_self))⟩
  | arrive m rest hwire =>
    refine ⟨h.ordered.arrive hwire, fun hk => ?_, fun hk => ?_⟩
    · obtain ⟨sent, hflow⟩ := h.flow hk
      exact ⟨sent, hflow.arrive hwire⟩
    · have := h.ended hk
      simp only [arrive_eof, arrive_closed]
      tauto
  | adjust n rest hadjusts =>
    refine ⟨⟨h.ordered.last, h.ordered.close, h.ordered.plain⟩, fun hk => ?_, h.ended⟩
    obtain ⟨sent, hflow⟩ := h.flow hk
    exact ⟨sent, hflow.adjust hadjusts⟩

theorem read_agrees (h : Agrees bytes k s) {channel : Handle} {stream : Stream} {r : ReadResult} {s' : Link}
    (hguar : Guar k (.libssh2ChannelRead channel stream))
    (hserves : serves s () (.libssh2ChannelRead channel stream) r s') :
    Agrees bytes (k.next (.libssh2ChannelRead channel stream) r) s' := by
  have hordered : ∀ n, Ordered (s.take stream n) := fun n => ⟨h.ordered.last, h.ordered.close, h.ordered.plain⟩
  obtain ⟨hentered, hserves⟩ := hserves
  cases stream with
  | stdout =>
    have hguar : k.drained = false := hguar
    cases r with
    | data chunk =>
      obtain ⟨hqueued, rfl⟩ := hserves
      refine ⟨hordered _, fun _ => ?_, fun hk => ?_⟩
      · obtain ⟨sent, hflow⟩ := h.flow hguar
        exact ⟨sent, hflow.take hentered hqueued chunk.le⟩
      · rw [show k.drained = true from hk] at hguar
        cases hguar
    | eof =>
      obtain ⟨-, hend, rfl⟩ := hserves
      exact ⟨hordered _, nofun, fun _ => hend⟩
    | error e => cases hserves
  | stderr =>
    have hguar : k.drained = true := hguar
    have hflow : k.drained = false → ∃ sent, Flow bytes k.read s' sent := fun hk => by
      rw [hguar] at hk
      cases hk
    cases r with
    | data chunk =>
      obtain ⟨-, rfl⟩ := hserves
      exact ⟨hordered _, hflow, h.ended⟩
    | eof =>
      obtain ⟨-, -, rfl⟩ := hserves
      exact ⟨hordered _, hflow, h.ended⟩
    | error e => cases hserves

theorem serves_agrees (h : Agrees bytes k s) {c : Call} {r : Reply c} {s' : Link} (hguar : Guar k c)
    (hserves : serves s () c r s') : Agrees bytes (k.next c r) s' := by
  cases c with
  | libssh2ChannelRead channel stream => exact read_agrees h hguar hserves
  | libssh2ChannelClose channel =>
    obtain ⟨-, -, rfl⟩ := hserves
    exact h
  | _ =>
    obtain rfl : s' = s := hserves
    exact h

end Steps

theorem reach_agrees {c : CommandFrame} {bytes : List Stream} {p : Pool Reply Label Outcome Unit Link}
    (hp : Reach oneCommand world (fun _ _ => True) (start c bytes) p) :
    ThreadOk watch Post ⟨0, false⟩ (p.threads ()) ∧
      Agrees bytes (p.seen (fun _ => watch) (fun _ => ⟨0, false⟩) ()) p.shared := by
  obtain ⟨hthreads, hagrees⟩ := reach_ok (fun _ => watch) (fun _ => ⟨0, false⟩) (fun _ => Post)
    (fun seen s => Agrees bytes (seen ()) s) hp (fun _ => oneCommand_spec)
    (fun _ => ⟨trivial, trivial, rfl⟩) (start_agrees c bytes)
    (fun p i c r s' h hguar hserves _ => by
      rw [Function.update_self]
      exact ⟨trivial, serves_agrees h hguar hserves⟩)
    (fun p s' h hmoves _ => moves_agrees h hmoves)
  exact ⟨hthreads (), hagrees⟩

/-! ## Something can always happen -/

section Progress

variable {bytes : List Stream} {k : Seen} {p : Pool Reply Label Outcome Unit Link}

theorem moves_step {s' : Link} (h : Moves p s') : ∃ a q, Step oneCommand world p a q :=
  ⟨_, _, .world s' h⟩

theorem wire_moves (h : p.shared.wire ≠ []) : ∃ s', Moves p s' := by
  obtain ⟨m, rest, hwire⟩ := List.exists_cons_of_ne_nil h
  exact ⟨_, .arrive m rest hwire⟩

theorem close_moves (h : Ordered p.shared) (hleft : p.shared.left = []) (hopen : p.shared.closed = false) :
    ∃ s', Moves p s' := by
  rcases h.close with hclosed | hwire | hending
  · rw [hopen] at hclosed
    cases hclosed
  · exact wire_moves (List.ne_nil_of_mem hwire)
  · obtain ⟨m, rest, hm⟩ := List.exists_cons_of_ne_nil (List.ne_nil_of_mem hending)
    exact ⟨_, .finish m rest hleft hm⟩

theorem send_moves (hleft : p.shared.left ≠ []) (hcredit : 0 < p.shared.credit) : ∃ s', Moves p s' := by
  obtain ⟨stream, rest, hrest⟩ := List.exists_cons_of_ne_nil hleft
  exact ⟨_, .send stream 1 rest hrest Nat.one_pos hcredit (by decide)⟩

/-- When nothing is on its way and there is no credit, all of the window is filled with stderr. -/
theorem Flow.full {read : Nat} {s : Link} {sent : List Stream} (h : Flow bytes read s sent)
    (hwire : s.wire = [])
    (hadjusts : s.adjusts = []) (hcredit : s.credit = 0) (hstdout : s.queued .stdout = 0)
    (hentered : s.entered = true) :
    Granted bytes sent.length ∧ threshold ≤ (bytes.take sent.length).count .stderr := by
  have hwindow := h.window
  have hcount := h.stdout
  have hthreshold := h.entered hentered
  unfold Link.flying at hcount
  rw [hwire] at hcount
  rw [hadjusts, hcredit] at hwindow
  simp only [List.sum_nil, List.map_nil, Nat.add_zero] at hwindow hcount
  constructor
  · rw [← hwindow]
    exact h.granted
  · have hlength := count_streams sent
    rw [h.split, List.take_left]
    omega

theorem read_step {channel : Handle} {stream : Stream} {next : ReadResult → Body}
    (htodo : (p.threads ()).todo = .call (.libssh2ChannelRead channel stream) next)
    (hentered : p.shared.entered = true)
    (h : 0 < p.shared.queued stream ∨ p.shared.eof = true ∨ p.shared.closed = true) :
    ∃ a q, Step oneCommand world p a q := by
  by_cases hqueued : 0 < p.shared.queued stream
  · exact ⟨_, _, .call _ _ htodo (serves_data ⟨[0], by decide, by decide⟩ hentered hqueued)⟩
  · exact ⟨_, _, .call _ _ htodo (serves_eof hentered (by omega) (h.resolve_left hqueued))⟩

theorem stdout_step (hsafe : Safe bytes) (h : Agrees bytes k p.shared) (hk : k.drained = false)
    {channel : Handle}
    {next : ReadResult → Body} (htodo : (p.threads ()).todo = .call (.libssh2ChannelRead channel .stdout) next)
    (hentered : p.shared.entered = true) : ∃ a q, Step oneCommand world p a q := by
  obtain ⟨sent, hflow⟩ := h.flow hk
  by_cases hread : 0 < p.shared.queued .stdout ∨ p.shared.eof = true ∨ p.shared.closed = true
  · exact read_step htodo hentered hread
  · obtain ⟨hqueued, heof, hclosed⟩ : p.shared.queued .stdout = 0 ∧ p.shared.eof = false ∧
        p.shared.closed = false := by simpa using hread
    have hmoves : ∃ s', Moves p s' := by
      by_cases hwire : p.shared.wire = []
      · by_cases hleft : p.shared.left = []
        · exact close_moves h.ordered hleft hclosed
        · match hadjusts : p.shared.adjusts with
          | n :: rest => exact ⟨_, .adjust n rest hadjusts⟩
          | [] =>
            -- Only a client that has granted enough is left to wait for.
            refine send_moves hleft (Nat.pos_of_ne_zero fun hcredit => ?_)
            obtain ⟨hgranted, hstderr⟩ := hflow.full hwire hadjusts hcredit hqueued hentered
            have hlength := congrArg List.length hflow.split
            rw [List.length_append] at hlength
            have := List.length_pos_iff.mpr hleft
            have := hsafe _ hgranted (by omega)
            omega
      · exact wire_moves hwire
    obtain ⟨s', hs'⟩ := hmoves
    exact moves_step hs'

theorem close_step (h : Agrees bytes k p.shared) (hk : k.drained = true) {channel : Handle}
    {next : Int → Body}
    (htodo : (p.threads ()).todo = .call (.libssh2ChannelClose channel) next) :
    ∃ a q, Step oneCommand world p a q := by
  by_cases hclosed : p.shared.closed = true
  · exact ⟨_, _, .call (0 : Int) _ htodo ⟨hclosed, rfl, rfl⟩⟩
  · have hleft : p.shared.left = [] := by
      apply h.ordered.last
      have := h.ended hk
      tauto
    obtain ⟨s', hs'⟩ := close_moves h.ordered hleft (by simpa using hclosed)
    exact moves_step hs'

/-- A script that is safe never leaves the two parties waiting for each other. -/
theorem not_stuck {c : CommandFrame} (hsafe : Safe bytes)
    (hp : Reach oneCommand world (fun _ _ => True) (start c bytes) p) : ¬ Stuck p := by
  rintro ⟨⟨call, next, htodo⟩, hstuck⟩
  obtain ⟨hthread, hagrees⟩ := reach_agrees hp
  have hguar := hthread.rest
  rw [htodo] at hguar
  obtain ⟨a, q, hstep⟩ : ∃ a q, Step oneCommand world p a q := by
    cases call with
    | libssh2ChannelRead channel stream =>
      by_cases hentered : p.shared.entered = true
      · cases stream with
        | stdout => exact stdout_step hsafe hagrees hguar.1 htodo hentered
        | stderr => exact read_step htodo hentered (.inr (hagrees.ended hguar.1))
      · exact moves_step (.enter channel stream next htodo (by simpa using hentered))
    | libssh2ChannelClose channel => exact close_step hagrees hguar.1 htodo
    | _ => exact ⟨_, _, .call (Reply.quiet _) _ htodo rfl⟩
  exact hstuck a q hstep

end Progress

end RemoteSsh.Channel
