import RemoteSsh.Commands.Rounds
import Mathlib.Data.Prod.Lex

/-!
# The output of a command

A server that sends something on both streams and then closes them, and what the response to the
command says about it.
-/

open Lib RemoteSsh.Accumulate

namespace RemoteSsh.Commands

/-- What a server sends on the two streams of a channel, as the reads cut it. -/
structure Output where
  stdout : List Chunk
  stderr : List Chunk

def sent (chunks : List Chunk) : Bytes := (chunks.map Chunk.bytes).flatten

/-- The next read gives the next chunk, and nothing after the last one. -/
def nextRead (chunks : List Chunk) (seen : List ReadResult) : ReadResult :=
  match chunks[seen.length]? with
  | some chunk => .data chunk
  | none => .eof

/-- The read that comes next, if the server sends `serve k` on channel `k`. -/
def nextReply (serve : Nat → Output) (s : Log) : Stream → ReadResult
  | .stdout => nextRead (serve s.finished.length).stdout s.current.stdout
  | .stderr => nextRead (serve s.finished.length).stderr s.current.stderr

/-- `env`, with a server that sends `serve`. The log is `start` when the run begins. -/
def sending (start : Log) (serve : Nat → Output) (env : Env Reply) : Env Reply := fun t c =>
  match c with
  | .libssh2ChannelRead _ stream => nextReply serve (anyLog.after start t) stream
  | c => env t c

def readsFrom (serve : Nat → Output) : Log → (c : Call) → Reply c → Prop
  | s, .libssh2ChannelRead _ stream, r => r = nextReply serve s stream
  | _, _, _ => True

def Sends (rely : Log → (c : Call) → Reply c → Prop) (serve : Nat → Output) : Prop :=
  ∀ s channel stream r, rely s (.libssh2ChannelRead channel stream) r → r = nextReply serve s stream

/-! ## Lengths and NULs -/

theorem fits_of_append (used : Nat) (a b : List Chunk) (h : Fits used (a ++ b)) : Fits used a := by
  induction a generalizing used with
  | nil =>
    cases b with
    | nil => exact h
    | cons c b => have := h.1; simp only [Fits]; omega
  | cons c a ih => exact ⟨h.1, ih _ h.2⟩

theorem fits_next (used : Nat) (a : List Chunk) (c : Chunk) (h : Fits used (a ++ [c])) :
    used + (outputText a).length + c.bytes.length + 1 < 2 ^ 64 := by
  induction a generalizing used with
  | nil => simpa [outputText] using h.1
  | cons d a ih =>
    have := ih _ h.2
    simp only [outputText, List.map_cons, List.flatten_cons, List.length_append] at this ⊢
    omega

theorem nul_notMem_outputText (chunks : List Chunk) : 0 ∉ outputText chunks := by
  simp only [outputText, List.mem_flatten, List.mem_map, not_exists, not_and]
  rintro _ ⟨c, -, rfl⟩
  exact nul_notMem_cstr c.bytes

theorem outputText_eq_sent (chunks : List Chunk) : outputText chunks = sent chunks ↔ 0 ∉ sent chunks := by
  constructor
  · intro h
    rw [← h]
    exact nul_notMem_outputText chunks
  · intro h
    have : ∀ c ∈ chunks, cstr c.bytes = c.bytes := by
      intro c hc
      apply cstr_eq_self
      intro h0
      exact h (List.mem_flatten.mpr ⟨c.bytes, List.mem_map_of_mem hc, h0⟩)
    rw [outputText, sent, List.map_congr_left this]

theorem fits_sent (used : Nat) (chunks : List Chunk) (h : 0 ∉ sent chunks) :
    Fits used chunks ↔ used + (sent chunks).length + 1 < 2 ^ 64 := by
  induction chunks generalizing used with
  | nil => simp [Fits, sent]
  | cons c chunks ih =>
    have hsent : sent (c :: chunks) = c.bytes ++ sent chunks := rfl
    rw [hsent, List.mem_append, not_or] at h
    rw [hsent, List.length_append, Fits, ih _ h.2, cstr_eq_self _ h.1]
    omega

/-! ## One round -/

theorem nextRead_data {all chunks : List Chunk} {chunk : Chunk} (h : chunks <+: all)
    (hr : .data chunk = nextRead all (chunks.map .data)) : chunks ++ [chunk] <+: all := by
  obtain ⟨rest, rfl⟩ := h
  cases rest with
  | nil => simp [nextRead] at hr
  | cons d rest =>
    simp only [nextRead, List.length_map, List.getElem?_append_right (Nat.le_refl _), Nat.sub_self,
      List.getElem?_cons_zero, ReadResult.data.injEq] at hr
    exact ⟨rest, by simp [hr]⟩

theorem nextRead_eof {all chunks : List Chunk} (h : chunks <+: all)
    (hr : .eof = nextRead all (chunks.map .data)) : chunks = all := by
  obtain ⟨rest, rfl⟩ := h
  cases rest with
  | nil => simp
  | cons d rest => simp [nextRead] at hr

theorem nextRead_room {all chunks : List Chunk} {b : Bytes} (h : chunks <+: all) (hfits : Fits 0 all)
    (hb : Holds b (outputText chunks)) : Room b (nextRead all (chunks.map .data)) := by
  cases hr : nextRead all (chunks.map .data) with
  | data chunk =>
    obtain ⟨rest, rfl⟩ := nextRead_data h hr.symm
    have := fits_next 0 chunks chunk (fits_of_append 0 _ rest hfits)
    rw [room_data, hb.text]
    omega
  | eof =>
    obtain rfl := nextRead_eof h hr.symm
    have := fits_end 0 chunks hfits
    simp only [Room, ReadResult.count, hb.text]
    omega
  | error e => simp only [nextRead] at hr; split at hr <;> cases hr

def RoundAt (out : Output) (c₀ : CommandFrame) (s₀ : Log) : Label → Log → Prop
  | .stdoutLoop c, s => ∃ chunks, ReadsStdout c₀ s₀ chunks c s ∧ chunks <+: out.stdout
  | .stderrLoop c, s => ∃ chunks, ReadsStderr c₀ s₀ out.stdout chunks c s ∧ chunks <+: out.stderr
  | .commandLoop f i, s => RoundEnd c₀ s₀ f i s ∧ s.current.stdout = readResults out.stdout none ∧
      s.current.stderr = readResults out.stderr none
  | _, _ => False

def left (out : Output) : Label → Log → Nat ×ₗ Nat
  | .stdoutLoop _, s => toLex (2, out.stdout.length - s.current.stdout.length)
  | .stderrLoop _, s => toLex (1, out.stderr.length - s.current.stderr.length)
  | _, _ => toLex (3, 0)

def RoundStep (out : Output) (c₀ : CommandFrame) (s₀ : Log) (l : Label) (s : Log) :
    Label ⊕ Outcome → Log → Prop
  | .inl l', s' => RoundAt out c₀ s₀ l' s' ∧ (left out l' s' < left out l s ∨ ∃ f i, l' = .commandLoop f i)
  | .inr _, _ => False

section Round

variable {rely : Log → (c : Call) → Reply c → Prop} {undefined : Prop} {serve : Nat → Output}
variable {c₀ c : CommandFrame} {s₀ s : Log}

theorem stdoutLoop_round (hsends : Sends rely serve) (hstart : RoundStart c₀ s₀)
    (hfits : undefined ∨ Fits 0 (serve s₀.finished.length).stdout)
    (hnull : c₀.pyCommandResponse = none → undefined)
    (h : RoundAt (serve s₀.finished.length) c₀ s₀ (.stdoutLoop c) s) :
    (stdoutLoop c).wp (logger rely undefined)
      (RoundStep (serve s₀.finished.length) c₀ s₀ (.stdoutLoop c) s) s := by
  obtain ⟨chunks, hreads, hprefix⟩ := h
  have hread : ∀ r, rely s (.libssh2ChannelRead c.sshChannel .stdout) r →
      r = nextRead (serve s₀.finished.length).stdout (chunks.map .data) := by
    intro r hr
    rw [hsends _ _ _ r hr, hreads.log]
    rfl
  refine stdoutLoop_spec hstart hreads hnull ?_ ?_ ?_
  · intro r hr hroom
    rcases hfits with hundefined | hfits
    · exact hundefined
    · rw [hread r hr] at hroom
      exact absurd (nextRead_room hprefix hfits hreads.string) hroom
  · intro chunk c' s' hr hreads'
    have hnext := nextRead_data hprefix (hread _ hr)
    have hlen := hnext.length_le
    refine ⟨⟨_, hreads', hnext⟩, .inl ?_⟩
    simp only [left, hreads.log, hreads'.log, Prod.Lex.toLex_lt_toLex, List.length_map, List.length_append,
      List.length_singleton, true_and] at hlen ⊢
    omega
  · intro c' s' hr hreads'
    obtain rfl := nextRead_eof hprefix (hread _ hr)
    refine ⟨⟨[], hreads', List.nil_prefix⟩, .inl ?_⟩
    simp only [left, Prod.Lex.toLex_lt_toLex]
    omega

theorem stderrLoop_round (hsends : Sends rely serve) (hstart : RoundStart c₀ s₀)
    (hfits : undefined ∨ Fits 0 (serve s₀.finished.length).stderr)
    (hnull : c₀.frame.pyResponse = none → undefined)
    (h : RoundAt (serve s₀.finished.length) c₀ s₀ (.stderrLoop c) s) :
    (stderrLoop c).wp (logger rely undefined)
      (RoundStep (serve s₀.finished.length) c₀ s₀ (.stderrLoop c) s) s := by
  obtain ⟨chunks, hreads, hprefix⟩ := h
  have hread : ∀ r, rely s (.libssh2ChannelRead c.sshChannel .stderr) r →
      r = nextRead (serve s₀.finished.length).stderr (chunks.map .data) := by
    intro r hr
    rw [hsends _ _ _ r hr, hreads.log]
    rfl
  refine stderrLoop_spec hstart hreads hnull ?_ ?_ ?_
  · intro r hr hroom
    rcases hfits with hundefined | hfits
    · exact hundefined
    · rw [hread r hr] at hroom
      exact absurd (nextRead_room hprefix hfits hreads.string) hroom
  · intro chunk c' s' hr hreads'
    have hnext := nextRead_data hprefix (hread _ hr)
    have hlen := hnext.length_le
    refine ⟨⟨_, hreads', hnext⟩, .inl ?_⟩
    simp only [left, hreads.log, hreads'.log, Prod.Lex.toLex_lt_toLex, List.length_map, List.length_append,
      List.length_singleton, true_and] at hlen ⊢
    omega
  · intro f i s' hr hstdout hstderr hend
    obtain rfl := nextRead_eof hprefix (hread _ hr)
    exact ⟨⟨hend, hstdout, hstderr⟩, .inr ⟨f, i, rfl⟩⟩

end Round

/-! ## One command -/

/-- A round in which a command was sent and nothing was read yet. -/
def reading (f : Frame) (i : UInt8) (pyResponse : Tuple CommandResponse)
    (pyCommandResponse sshChannel address : Handle) : CommandFrame :=
  { frame := { f with pyResponse := some pyResponse }
    i := i
    pyCommandResponse := some ⟨pyCommandResponse, [none, none, none, none]⟩
    sshChannel := sshChannel
    responseString := ⟨address, emptyResponse⟩ }

def startLog (c : CommandFrame) : Log := { opened := 1, current := { channel := some c.sshChannel } }

/-- The round ends, and its response says what the server has sent. -/
def Delivered (c : CommandFrame) (out : Output) (env : Env Reply) : Prop :=
  ∃ n t r, Ends oneCommand (sending (startLog c) (fun _ => out) env) (.ret (.inl (.stdoutLoop c))) n (some t) ∧
    t.slots[c.i.toNat]? = some (some r) ∧ r[0]? = some (some (.string (sent out.stdout))) ∧
    r[1]? = some (some (.string (sent out.stderr)))

section One

variable {c₀ : CommandFrame} {s₀ : Log} {out : Output}

abbrev oneLog (out : Output) : Monitor Reply Log :=
  logger (readsFrom fun _ => out) (¬ (Fits 0 out.stdout ∧ Fits 0 out.stderr))

def OnePost (out : Output) (c₀ : CommandFrame) (s₀ : Log) : Label ⊕ Outcome → Log → Prop
  | .inl l, s => RoundAt out c₀ s₀ l s
  | .inr o, s => ∃ f i, RoundAt out c₀ s₀ (.commandLoop f i) s ∧ o = f.pyResponse

theorem oneCommand_step (hstart : RoundStart c₀ s₀) (hc : c₀.pyCommandResponse ≠ none)
    (hf : c₀.frame.pyResponse ≠ none) (l : Label) (s : Log) (h : RoundAt out c₀ s₀ l s)
    (hl : ∀ f i, l ≠ .commandLoop f i) :
    (oneCommand l).wp (oneLog out) (RoundStep out c₀ s₀ l s) s := by
  have hsends : Sends (readsFrom fun _ => out) fun _ => out := fun _ _ _ _ hr => hr
  have hfits := em (Fits 0 out.stdout ∧ Fits 0 out.stderr)
  cases l with
  | stdoutLoop c =>
    exact stdoutLoop_round hsends hstart (hfits.elim (fun h => .inr h.1) .inl) (fun h => absurd h hc) h
  | stderrLoop c =>
    exact stderrLoop_round hsends hstart (hfits.elim (fun h => .inr h.2) .inl) (fun h => absurd h hf) h
  | commandLoop f i => exact absurd rfl (hl f i)
  | handshake => exact h.elim
  | authenticate => exact h.elim
  | commands => exact h.elim

theorem oneCommand_spec (hstart : RoundStart c₀ s₀) (hc : c₀.pyCommandResponse ≠ none)
    (hf : c₀.frame.pyResponse ≠ none) : Verified (oneLog out) oneCommand (OnePost out c₀ s₀) := by
  intro l s h
  by_cases hl : ∃ f i, l = .commandLoop f i
  · obtain ⟨f, i, rfl⟩ := hl
    exact ⟨f, i, h, rfl⟩
  · refine wp_mono _ ?_ _ _ (oneCommand_step hstart hc hf l s h fun f i he => hl ⟨f, i, he⟩)
    rintro (l' | o) s' hstep
    · exact hstep.1
    · exact hstep.elim

theorem round_response {f : Frame} {i : UInt8} {s : Log} (h : RoundAt out c₀ s₀ (.commandLoop f i) s)
    {t : Tuple CommandResponse} (ht : c₀.frame.pyResponse = some t) (hi : c₀.i.toNat < t.slots.length) :
    ∃ u r, f.pyResponse = some u ∧ u.slots[c₀.i.toNat]? = some (some r) ∧
      r[0]? = some (some (.string (outputText out.stdout))) ∧
      r[1]? = some (some (.string (outputText out.stderr))) := by
  obtain ⟨hend, hstdout, hstderr⟩ := h
  obtain ⟨t', ht', hset⟩ := hend.response
  obtain rfl := Option.some.inj (ht.symm.trans ht')
  refine ⟨_, s.current.response, hset, by simp [hi], ?_, ?_⟩
  · simp [CommandLog.response, hstdout, readChunks_results]
  · simp [CommandLog.response, hstderr, readChunks_results]

theorem round_fits {f : Frame} {i : UInt8} {s : Log} (h : RoundAt out c₀ s₀ (.commandLoop f i) s) :
    Fits 0 out.stdout ∧ Fits 0 out.stderr := by
  obtain ⟨hend, hstdout, hstderr⟩ := h
  obtain ⟨outs, houts, hfitsOut⟩ := hend.complete.stdout
  obtain ⟨errs, herrs, hfitsErr⟩ := hend.complete.stderr
  have h1 := readChunks_results outs
  have h2 := readChunks_results errs
  rw [← houts, hstdout, readChunks_results] at h1
  rw [← herrs, hstderr, readChunks_results] at h2
  exact ⟨h1 ▸ hfitsOut, h2 ▸ hfitsErr⟩

theorem sending_relied {L O : Type} (start : Log) (serve : Nat → Output) (undefined : Prop)
    (blocks : L → Prog Reply (L ⊕ O)) (env : Env Reply) (p : Prog Reply (L ⊕ O)) (n : Nat) :
    (logger (readsFrom serve) undefined).Relied start (run blocks (sending start serve env) p n).trace := by
  apply relied_run
  intro t c
  cases c with
  | libssh2ChannelRead channel stream => rfl
  | _ => trivial

theorem oneCommand_ends (hstart : RoundStart c₀ s₀) (hc : c₀.pyCommandResponse ≠ none)
    (hf : c₀.frame.pyResponse ≠ none) (hfits : Fits 0 out.stdout ∧ Fits 0 out.stderr) (env : Env Reply) :
    ∃ n f i, Ends oneCommand (sending s₀ (fun _ => out) env) (.ret (.inl (.stdoutLoop c₀))) n f.pyResponse ∧
      ∃ s, RoundAt out c₀ s₀ (.commandLoop f i) s := by
  have hreach := run_reaches (oneLog out) oneCommand (sending s₀ (fun _ => out) env)
    (fun l s => RoundAt out c₀ s₀ l s ∧ ∀ f i, l ≠ .commandLoop f i)
    (fun x s => ∃ f i, x = .inl (.commandLoop f i) ∧ RoundAt out c₀ s₀ (.commandLoop f i) s)
    (InvImage.wf (fun a : Label × Log => left out a.1 a.2) wellFounded_lt) (fun _ h => h hfits) ?_
    (.ret (.inl (.stdoutLoop c₀))) s₀ (sending_relied _ _ _ _ _ _) (n := 0) rfl
    ⟨⟨[], hstart.reads, List.nil_prefix⟩, by simp⟩
  · obtain ⟨k, x, -, hx, f, i, rfl, hround⟩ := hreach
    refine ⟨k + 1, f, i, ?_, _, hround⟩
    rw [Ends, run_succ]
    generalize run oneCommand (sending s₀ (fun _ => out) env) (.ret (.inl (.stdoutLoop c₀))) k = cfg at hx
    obtain ⟨todo, trace⟩ := cfg
    simp only at hx
    rw [hx]
    rfl
  · rintro l s ⟨h, hl⟩
    refine wp_mono _ ?_ _ _ (oneCommand_step hstart hc hf l s h hl)
    rintro (l' | o) s' hstep
    · obtain ⟨hround, hless⟩ := hstep
      by_cases hl' : ∃ f i, l' = .commandLoop f i
      · obtain ⟨f, i, rfl⟩ := hl'
        exact .inl ⟨f, i, rfl, hround⟩
      · exact .inr ⟨l', rfl, ⟨hround, fun f i he => hl' ⟨f, i, he⟩⟩, hless.resolve_right hl'⟩
    · exact hstep.elim

end One

theorem reading_start (f : Frame) (i : UInt8) (t : Tuple CommandResponse) (ref channel address : Handle) :
    RoundStart (reading f i t ref channel address) (startLog (reading f i t ref channel address)) := by
  refine ⟨?_, rfl, holds_empty⟩
  intro u hu
  rw [← Option.some.inj hu]

/-- A command's output is delivered exactly if it has no NUL and is shorter than the address space. -/
theorem delivered_iff (f : Frame) (i : UInt8) (t : Tuple CommandResponse) (ref channel address : Handle)
    (hi : i.toNat < t.slots.length) (out : Output) (env : Env Reply) :
    Delivered (reading f i t ref channel address) out env ↔
      (0 ∉ sent out.stdout ∧ (sent out.stdout).length + 1 < 2 ^ 64) ∧
      (0 ∉ sent out.stderr ∧ (sent out.stderr).length + 1 < 2 ^ 64) := by
  have hstart := reading_start f i t ref channel address
  generalize hc₀ : reading f i t ref channel address = c₀ at hstart ⊢
  have hc : c₀.pyCommandResponse ≠ none := by simp [← hc₀, reading]
  have hf : c₀.frame.pyResponse = some t := by simp [← hc₀, reading]
  have hi' : c₀.i.toNat < t.slots.length := by rw [← hc₀]; exact hi
  constructor
  · rintro ⟨n, t', r, hend, hr, hstdout, hstderr⟩
    have hpost := run_wp (oneLog out) oneCommand (sending (startLog c₀) (fun _ => out) env)
      (oneCommand_spec hstart hc (by simp [hf])) (p := .ret (.inl (.stdoutLoop c₀)))
      ⟨[], hstart.reads, List.nil_prefix⟩ n (sending_relied _ _ _ _ _ _ _)
    rw [hend] at hpost
    obtain ⟨f', i', hround, hresponse⟩ := hpost
    obtain ⟨u, r', hu, hr', hstdout', hstderr'⟩ := round_response hround hf hi'
    obtain rfl := Option.some.inj (hresponse.trans hu)
    obtain rfl := Option.some.inj (Option.some.inj (hr.symm.trans hr'))
    obtain ⟨hfitsOut, hfitsErr⟩ := round_fits hround
    simp only [hstdout, hstderr, Option.some.injEq, Item.string.injEq] at hstdout' hstderr'
    have hnulOut := (outputText_eq_sent out.stdout).mp hstdout'.symm
    have hnulErr := (outputText_eq_sent out.stderr).mp hstderr'.symm
    refine ⟨⟨hnulOut, ?_⟩, hnulErr, ?_⟩
    · simpa using (fits_sent 0 _ hnulOut).mp hfitsOut
    · simpa using (fits_sent 0 _ hnulErr).mp hfitsErr
  · rintro ⟨⟨hnulOut, hlenOut⟩, hnulErr, hlenErr⟩
    have hfits : Fits 0 out.stdout ∧ Fits 0 out.stderr :=
      ⟨(fits_sent 0 _ hnulOut).mpr (by simpa using hlenOut),
        (fits_sent 0 _ hnulErr).mpr (by simpa using hlenErr)⟩
    obtain ⟨n, f', i', hend, s, hround⟩ := oneCommand_ends hstart hc (by simp [hf]) hfits env
    obtain ⟨u, r, hu, hr, hstdout, hstderr⟩ := round_response hround hf hi'
    rw [hu] at hend
    refine ⟨n, u, r, hend, hr, ?_, ?_⟩
    · rw [hstdout, (outputText_eq_sent _).mpr hnulOut]
    · rw [hstderr, (outputText_eq_sent _).mpr hnulErr]

def sampleFrame : Frame := ⟨0, 0, 7, 1, none⟩

/-- `ok` on stdout in two reads, and nothing on stderr. -/
theorem delivered_ok : (0 : UInt8).toNat < [(none : Option CommandResponse)].length ∧
    Delivered (reading sampleFrame 0 ⟨1, [none]⟩ 2 3 4)
      ⟨[⟨[111], by decide, by decide⟩, ⟨[107], by decide, by decide⟩], []⟩ (accepting 1) :=
  ⟨by decide, (delivered_iff sampleFrame 0 ⟨1, [none]⟩ 2 3 4 (by decide) _ _).mpr (by decide)⟩

/-- `a`, a NUL and `b` on stdout. -/
def nulOutput : Output := ⟨[⟨[97, 0, 98], by decide, by decide⟩], []⟩

/-- What comes after the NUL is lost. -/
theorem output_cut_at_nul : ¬ Delivered (reading sampleFrame 0 ⟨1, [none]⟩ 2 3 4) nulOutput
    (accepting 1) := by
  rintro ⟨n, t, r, hend, hr, hstdout, -⟩
  have hcut : (run oneCommand (sending (startLog (reading sampleFrame 0 ⟨1, [none]⟩ 2 3 4)) (fun _ => nulOutput)
      (accepting 1)) (.ret (.inl (.stdoutLoop (reading sampleFrame 0 ⟨1, [none]⟩ 2 3 4)))) 60).todo.outcome.map
      (Option.map Tuple.slots) =
        some (some [some [some (.string [97]), some (.string []), some (.int 0), some .pyNone]]) := by
    decide +kernel
  obtain ⟨o, ho, htuple⟩ := Option.map_eq_some_iff.mp hcut
  obtain ⟨t', rfl, hslots⟩ := Option.map_eq_some_iff.mp htuple
  obtain rfl := Option.some.inj (hend.unique _ _ (ends_of_outcome _ _ ho))
  rw [hslots] at hr
  obtain rfl := Option.some.inj (Option.some.inj hr)
  exact absurd hstdout (by decide)

end RemoteSsh.Commands
