import RemoteSsh.Channel.Window

/-!
# When the two parties wait for each other

If the server can fill the window with stderr before the client has granted the whole output, there is a
run that does so: the client waits for stdout, and the server waits for credit.
-/

open Lib

namespace RemoteSsh.Channel

open Accumulate

/-! ## Runs of the client -/

def Comes (c : CommandFrame) (bytes : List Stream) (todo : Body) (s : Link) : Prop :=
  ∃ p, Reach oneCommand world (fun _ _ => True) (start c bytes) p ∧ (p.threads ()).todo = todo ∧ p.shared = s

section Comes

variable {c : CommandFrame} {bytes : List Stream} {s s' : Link}

theorem Comes.call {call : Call} {k : Reply call → Body} (h : Comes c bytes (.call call k) s)
    (r : Reply call)
    (hserves : world.serves s () call r s') : Comes c bytes (k r) s' := by
  obtain ⟨p, hp, htodo, rfl⟩ := h
  exact ⟨_, hp.step (.call r s' htodo hserves) trivial, by simp [Pool.set], rfl⟩

theorem Comes.goto {l : Label} (h : Comes c bytes (.ret (.inl l)) s) : Comes c bytes (oneCommand l) s := by
  obtain ⟨p, hp, htodo, rfl⟩ := h
  exact ⟨_, hp.step (.goto htodo) trivial, by simp [Pool.set], rfl⟩

theorem Comes.move {todo : Body} (h : Comes c bytes todo s)
    (hmoves : ∀ p : Pool Reply Label Outcome Unit Link, (p.threads ()).todo = todo → p.shared = s → Moves p s') :
    Comes c bytes todo s' := by
  obtain ⟨p, hp, htodo, hs⟩ := h
  exact ⟨_, hp.step (.world s' (hmoves p htodo hs)) trivial, htodo, rfl⟩

end Comes

/-! ## A read of zeros -/

def zeros (n : Nat) (hpos : 0 < n) (hle : n ≤ bufferSize) : Chunk :=
  ⟨List.replicate n 0, by simpa using hpos, by simpa using hle⟩

theorem append_zeros {b : ResponseString} (h : Holds b.bytes []) {n : Nat} (hpos : 0 < n)
    (hle : n ≤ bufferSize) :
    ∃ size b', Holds b' [] ∧ appendResponse b (.data (zeros n hpos hle)) =
      .call (.realloc b.address size) fun block => .ret ⟨block.address, b'⟩ := by
  have hroom : Room b.bytes (.data (zeros n hpos hle)) := by
    have hbuf : bufferSize = 1024 := rfl
    unfold Room
    rw [h.text]
    simp [ReadResult.count, zeros]
    omega
  have hform := fun fresh => read_appends fresh b.bytes (.data (zeros n hpos hle)) h.nul hroom
  have hholds := (read_spec (fun _ => 0) _ _ _ _ h (hform _)).2
  have htext : readText (.data (zeros n hpos hle)) = [] := by
    obtain ⟨m, rfl⟩ := Nat.exists_eq_succ_of_ne_zero (Nat.pos_iff_ne_zero.mp hpos)
    rfl
  rw [htext] at hholds
  refine ⟨toULong ((cstr b.bytes).length + (ReadResult.data (zeros n hpos hle)).count + 1), _, hholds, ?_⟩
  unfold appendResponse
  rw [response_size _ _ h.nul]
  simp only [Prog.check_some, Prog.ret_bind, Prog.ask_bind, hform]
  rfl

theorem stdoutLoop_zeros {c : CommandFrame} (h : Holds c.responseString.bytes []) {n : Nat} (hpos : 0 < n)
    (hle : n ≤ bufferSize) :
    ∃ size b' k, Holds b' [] ∧ stdoutLoop c = .call (.libssh2ChannelRead c.sshChannel .stdout) k ∧
      k (.data (zeros n hpos hle)) = .call (.realloc c.responseString.address size) fun block =>
        .ret (.inl (.stdoutLoop { c with responseString := ⟨block.address, b'⟩ })) := by
  obtain ⟨size, b', hb', happend⟩ := append_zeros h hpos hle
  refine ⟨size, b', _, hb', rfl, ?_⟩
  have hcount : (ReadResult.data (zeros n hpos hle)).count > 0 := (count_pos_iff _).mpr ⟨_, rfl⟩
  simp only [Prog.bind]
  rw [happend]
  simp only [Prog.call_bind, Prog.ret_bind, if_pos hcount, Prog.pure_eq]

/-! ## The client waits for stdout -/

def queue (out err : Nat) : Stream → Nat
  | .stdout => out
  | .stderr => err

/-- The client is in a read of stdout, and everything that was sent has arrived. -/
def reading (left : List Stream) (credit out err window : Nat) : Link where
  left := left
  ending := [.eof, .exitStatus, .close]
  credit := credit
  wire := []
  adjusts := []
  queued := queue out err
  windowSize := window
  eof := false
  closed := false
  entered := true

@[simp] theorem queue_stdout (out err n : Nat) : Function.update
    (queue out err) .stdout n = queue n err := by
  funext stream
  cases stream <;> simp [queue]

@[simp] theorem queue_stderr (out err n : Nat) : Function.update
    (queue out err) .stderr n = queue out n := by
  funext stream
  cases stream <;> simp [queue]

theorem take_reading (left : List Stream) (credit out err window n : Nat) :
    (reading left credit (out + n) err (window + n)).take .stdout n =
      { reading left credit out err window with entered := false } := by
  simp [Link.take, reading, queue]

/-- Some run comes to a read of stdout in the state `s`, with an empty response string. -/
def Waits (c : CommandFrame) (bytes : List Stream) (s : Link) : Prop :=
  ∃ c', Holds c'.responseString.bytes [] ∧ Comes c bytes (stdoutLoop c') s

section Waits

variable {c : CommandFrame} {bytes left : List Stream} {credit out err window n : Nat}

theorem waits_start (hc : Holds c.responseString.bytes []) :
    Waits c bytes (reading bytes windowInitial 0 0 windowInitial) := by
  have hstart : Comes c bytes (.ret (.inl (.stdoutLoop c))) (start c bytes).shared := ⟨_, .start, rfl, rfl⟩
  refine ⟨c, hc, hstart.goto.move fun p htodo hs => ?_⟩
  have hmove := Moves.enter c.sshChannel .stdout _ htodo (by rw [hs]; rfl)
  rw [hs] at hmove
  rw [enter_high (show threshold ≤ windowInitial by decide)] at hmove
  have hqueue : (fun _ => 0) = queue 0 0 := by
    funext stream
    cases stream <;> rfl
  unfold reading
  rw [← hqueue]
  exact hmove

theorem waits_send {stream : Stream} (h : Waits c bytes (reading (stream :: left) (credit + 1) out err window)) :
    Waits c bytes (reading left credit (out + if stream = .stdout then 1 else 0)
      (err + if stream = .stderr then 1 else 0) window) := by
  obtain ⟨c', hc', hcomes⟩ := h
  have hsent := hcomes.move fun p _ hs => by
    have hcredit : 1 ≤ p.shared.credit := by
      rw [hs]
      exact Nat.le_add_left 1 credit
    have hmove := Moves.send (p := p) stream 1 left (by rw [hs]; rfl) Nat.one_pos hcredit
      (by decide)
    rw [hs] at hmove
    exact hmove
  refine ⟨c', hc', hsent.move fun p _ hs => ?_⟩
  have hmove := Moves.arrive (p := p) (.data stream 1) [] (by rw [hs]; rfl)
  rw [hs] at hmove
  cases stream with
  | stdout => simpa [reading, Link.arrive, queue] using hmove
  | stderr => simpa [reading, Link.arrive, queue] using hmove

theorem waits_read (h : Waits c bytes (reading left credit (out + n) err (window + n))) (hpos : 0 < n)
    (hle : n ≤ bufferSize) : 
    Waits c bytes (if window < threshold then reading left (credit + (topped - window)) out err topped
      else reading left credit out err window) := by
  obtain ⟨c', hc', hcomes⟩ := h
  obtain ⟨size, b', k, hb', hloop, hnext⟩ := stdoutLoop_zeros hc' hpos hle
  rw [hloop] at hcomes
  have hlen : (zeros n hpos hle).bytes.length = n := List.length_replicate
  have hread := hcomes.call _ (serves_data (zeros n hpos hle) rfl (by
    rw [hlen]
    exact Nat.le_add_left n out))
  rw [hnext] at hread
  have hback := (hread.call ⟨0, fun _ => 0⟩ rfl).goto
  rw [hlen, take_reading] at hback
  refine ⟨{ c' with responseString := ⟨0, b'⟩ }, hb', ?_⟩
  have henter := hback.move fun p htodo hs => by
    have hmove := Moves.enter (p := p) c'.sshChannel .stdout _ htodo (by rw [hs])
    rw [hs] at hmove
    exact hmove
  split
  next hlow =>
    rw [enter_low hlow] at henter
    refine henter.move fun p _ hs => ?_
    have hmove := Moves.adjust (p := p) (topped - window) [] (by rw [hs]; rfl)
    rw [hs] at hmove
    exact hmove
  next hhigh =>
    rw [enter_high (Nat.le_of_not_lt hhigh)] at henter
    exact henter

end Waits

/-! ## Everything that is granted can be used up -/

/-- Some run comes to a read of stdout after `sent` bytes were sent and `read` bytes of stdout were read. -/
structure Stage (c : CommandFrame) (bytes : List Stream) (sent read window : Nat) : Prop where
  waits : Waits c bytes (reading (bytes.drop sent) (window + read - sent)
    ((bytes.take sent).count .stdout - read) ((bytes.take sent).count .stderr) window)
  within : sent ≤ bytes.length
  paid : sent ≤ window + read
  arrived : read ≤ (bytes.take sent).count .stdout
  high : threshold ≤ window

section Stage

variable {c : CommandFrame} {bytes : List Stream} {sent read window : Nat}

theorem stage_start (hc : Holds c.responseString.bytes []) : Stage c bytes 0 0 windowInitial :=
  ⟨waits_start hc, Nat.zero_le _, Nat.zero_le _, Nat.zero_le _, by decide⟩

theorem Stage.send (h : Stage c bytes sent read window) (hleft : sent < bytes.length)
    (hcredit : sent < window + read) : Stage c bytes (sent + 1) read window := by
  have harrived := h.arrived
  have hwaits := h.waits
  have htake : bytes.take (sent + 1) = bytes.take sent ++ [bytes.get ⟨sent, hleft⟩] := by
    rw [List.take_add_one, List.getElem?_eq_getElem hleft]
    rfl
  rw [List.drop_eq_getElem_cons hleft,
    show window + read - sent = window + read - (sent + 1) + 1 by omega] at hwaits
  have hnext := waits_send hwaits
  refine ⟨?_, hleft, hcredit, ?_, h.high⟩
  · convert hnext using 2
    · rw [htake, List.count_append, List.count_singleton]
      simp only [beq_iff_eq, List.get_eq_getElem]
      omega
    · rw [htake, List.count_append, List.count_singleton]
      simp only [beq_iff_eq, List.get_eq_getElem]
  · rw [htake, List.count_append]
    omega

theorem Stage.sendTo (h : Stage c bytes sent read window) {t : Nat} (ht : sent ≤ t)
    (hleft : t ≤ bytes.length)
    (hcredit : t ≤ window + read) : Stage c bytes t read window := by
  induction t, ht using Nat.le_induction with
  | base => exact h
  | succ t _ ih => exact (ih (by omega) (by omega)).send (by omega) (by omega)

theorem Stage.readSome (h : Stage c bytes sent read window) {n : Nat} (hpos : 0 < n) (hle : n ≤ bufferSize)
    (hn : read + n ≤ (bytes.take sent).count .stdout) :
    Stage c bytes sent (read + n) (if window - n < threshold then topped else window - n) := by
  have hhigh := h.high
  have hpaid := h.paid
  have hbuf : bufferSize ≤ threshold := by decide
  have htop : threshold ≤ topped := by decide
  have hwaits : Waits c bytes (reading (bytes.drop sent) (window + read - sent)
      ((bytes.take sent).count .stdout - (read + n) + n) ((bytes.take sent).count .stderr) (window - n + n)) := by
    convert h.waits using 2
    · omega
    · omega
  have hnext := waits_read hwaits hpos hle
  by_cases hlow : window - n < threshold
  · rw [if_pos hlow] at hnext ⊢
    refine ⟨?_, h.within, by omega, hn, htop⟩
    convert hnext using 2
    omega
  · rw [if_neg hlow] at hnext ⊢
    refine ⟨?_, h.within, by omega, hn, by omega⟩
    convert hnext using 2
    omega

theorem Stage.readTo (h : Stage c bytes sent read window) {r : Nat} (hr : read ≤ r)
    (harrived : r ≤ (bytes.take sent).count .stdout) (hhigh : threshold + r ≤ window + read) :
    Stage c bytes sent r (window + read - r) := by
  induction r, hr using Nat.le_induction with
  | base =>
    rw [Nat.add_sub_cancel]
    exact h
  | succ r _ ih =>
    have hnext := (ih (by omega) (by omega)).readSome Nat.one_pos (by decide) harrived
    rwa [if_neg (by omega), Nat.sub_sub] at hnext

/-- Every total that can be granted is granted in some run. -/
theorem granted_stage (hc : Holds c.responseString.bytes []) {g : Nat} (hg : Granted bytes g) :
    ∃ sent read window, Stage c bytes sent read window ∧ window + read = g := by
  induction hg with
  | initial => exact ⟨0, 0, windowInitial, stage_start hc, rfl⟩
  | @more g r _ hlow hnear hread ih =>
    obtain ⟨sent, read, window, hstage, rfl⟩ := ih
    have hhigh := hstage.high
    have htake : bytes.take (min (window + read) bytes.length) = bytes.take (window + read) :=
      List.take_eq_take_min.symm
    have hsent := hstage.sendTo (le_min hstage.paid hstage.within) (Nat.min_le_right _ _) (Nat.min_le_left _ _)
    rw [← htake] at hread
    -- One byte at a time down to the threshold, and the rest in one read.
    have hdown := hsent.readTo (show read ≤ window + read - threshold by omega) (by omega) (by omega)
    rw [show window + read - (window + read - threshold) = threshold by omega] at hdown
    obtain ⟨n, hn⟩ : ∃ n, r = window + read - threshold + n := ⟨r - (window + read - threshold), by omega⟩
    have hmore := hdown.readSome (show 0 < n by omega) (by omega) (by omega)
    rw [if_pos (Nat.sub_lt (by decide) (by omega)), ← hn] at hmore
    exact ⟨_, r, topped, hmore, Nat.add_comm _ _⟩

end Stage

/-! ## The deadlock -/

theorem reading_stuck {c : CommandFrame} {p : Pool Reply Label Outcome Unit Link} {left : List Stream}
    {err window : Nat} (hleft : left ≠ []) (htodo : (p.threads ()).todo = stdoutLoop c)
    (hs : p.shared = reading left 0 0 err window) : Stuck p := by
  refine ⟨⟨_, _, htodo⟩, fun a q hstep => ?_⟩
  cases hstep with
  | @call i call k r s' hcall hserves =>
    rw [htodo] at hcall
    cases hcall
    rw [hs] at hserves
    cases r with
    | data chunk => exact absurd hserves.2.1 (Nat.not_le.mpr chunk.pos)
    | eof => exact absurd hserves.2.2.1 (by simp [reading])
    | error e => exact hserves.2
  | @goto i l hgoto =>
    rw [htodo] at hgoto
    cases hgoto
  | world s' hmoves =>
    cases hmoves with
    | enter channel stream k hread hentered => rw [hs] at hentered; cases hentered
    | send stream n rest hrest hpos hcredit hsize =>
      rw [hs] at hcredit
      exact absurd hcredit (Nat.not_le.mpr hpos)
    | finish m rest hnil hending => rw [hs] at hnil; exact hleft hnil
    | arrive m rest hwire => rw [hs] at hwire; cases hwire
    | adjust n rest hadjusts => rw [hs] at hadjusts; cases hadjusts

theorem stuck_of_granted {c : CommandFrame} {bytes : List Stream} {g : Nat}
    (hc : Holds c.responseString.bytes [])
    (hg : Granted bytes g) (hlong : g < bytes.length) (hstderr : threshold ≤ (bytes.take g).count .stderr) :
    ∃ p, Reach oneCommand world (fun _ _ => True) (start c bytes) p ∧ Stuck p := by
  obtain ⟨sent, read, window, hstage, rfl⟩ := granted_stage hc hg
  have hcount := count_streams (bytes.take (window + read))
  rw [List.length_take_of_le hlong.le] at hcount
  have hsent := hstage.sendTo hstage.paid hlong.le (Nat.le_refl _)
  have hdrained := hsent.readTo hsent.arrived (Nat.le_refl _) (by omega)
  obtain ⟨c', -, p, hp, htodo, hs⟩ := hdrained.waits
  rw [Nat.sub_self, show window + read - (bytes.take (window + read)).count .stdout +
    (bytes.take (window + read)).count .stdout - (window + read) = 0 by omega] at hs
  refine ⟨p, hp, reading_stuck ?_ htodo hs⟩
  rw [ne_eq, List.drop_eq_nil_iff]
  omega

/-- The two parties never wait for each other if, and only if, the script is safe. -/
theorem never_stuck_iff (f : Frame) (i : UInt8) (pyCommandResponse : Option (Tuple Item))
    (channel address : Handle)
    (script : List (Stream × Nat)) :
    (∀ p, Reach oneCommand world (fun _ _ => True)
      (start (taken f i pyCommandResponse channel address) (output script)) p → ¬ Stuck p) ↔
    Safe (output script) := by
  constructor
  · intro h g hg hlong
    by_contra hstderr
    obtain ⟨p, hp, hstuck⟩ := stuck_of_granted (c := taken f i pyCommandResponse channel address) holds_empty hg
      hlong (Nat.le_of_not_lt hstderr)
    exact h p hp hstuck
  · exact fun hsafe p hp => not_stuck hsafe hp

def firstCommand : CommandFrame :=
  taken ⟨0, 0, 7, 1, some ⟨1, [none]⟩⟩ 0 (some ⟨2, [none, none, none, none]⟩) 3 4

/-- It writes one byte more to stderr than the first window holds. -/
theorem noisy_command_stuck : ¬ ∀ p, Reach oneCommand world (fun _ _ => True)
    (start firstCommand (output [(.stderr, 2097153)])) p → ¬ Stuck p := by
  intro h
  have hbytes : output [(.stderr, 2097153)] = List.replicate 2097153 .stderr := by
    unfold output
    rw [List.flatMap_singleton]
  have hlong : windowInitial < (List.replicate 2097153 Stream.stderr).length := by
    rw [List.length_replicate]
    decide
  have hstderr : threshold ≤ ((List.replicate 2097153 Stream.stderr).take windowInitial).count .stderr := by
    rw [List.take_replicate, List.count_replicate_self]
    decide
  obtain ⟨p, hp, hstuck⟩ := stuck_of_granted (c := firstCommand) holds_empty .initial hlong hstderr
  rw [hbytes] at h
  exact h p hp hstuck

end RemoteSsh.Channel
