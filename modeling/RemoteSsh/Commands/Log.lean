import RemoteSsh.Lib.Monitor
import RemoteSsh.Accumulate

/-!
# What happened on each channel

The log of a run, and what the rounds of the command loop make of it. Nothing is asked of the
server here: a read may give any chunk, and every call may fail.
-/

open Lib RemoteSsh.Accumulate

namespace RemoteSsh.Commands

/-- One channel: the commands sent on it, the results of its reads, and how it was closed. -/
structure CommandLog where
  channel : Option Handle := none
  execs : List Handle := []
  stdout : List ReadResult := []
  stderr : List ReadResult := []
  closed : Option Int := none
  exitStatus : Option Int := none
  exitSignal : Option ExitSignal := none

/-- `opened` counts the channels, `requests` are the commands sent on any of them, and `finished` are
the channels that were freed, in order. -/
structure Log where
  opened : Nat := 0
  requests : List Handle := []
  finished : List CommandLog := []
  current : CommandLog := {}

/-- Notes something about a channel, if it is the one that was opened last. -/
def Log.note (s : Log) (channel : Handle) (f : CommandLog → CommandLog) : Log :=
  if s.current.channel = some channel then { s with current := f s.current } else s

def Log.next : Log → (c : Call) → Reply c → Log
  | s, .libssh2ChannelOpenSession _, channel =>
    match (channel : Option Handle) with
    | some channel => { s with opened := s.opened + 1, current := { channel } }
    | none => s
  | s, .libssh2ChannelExec channel command, _ =>
    { s with requests := s.requests ++ [command] }.note channel fun l =>
      { l with execs := l.execs ++ [command] }
  | s, .libssh2ChannelRead channel .stdout, r =>
    s.note channel fun l => { l with stdout := l.stdout ++ [r] }
  | s, .libssh2ChannelRead channel .stderr, r =>
    s.note channel fun l => { l with stderr := l.stderr ++ [r] }
  | s, .libssh2ChannelClose channel, closed => s.note channel fun l => { l with closed := some closed }
  | s, .libssh2ChannelGetExitStatus channel, status =>
    s.note channel fun l => { l with exitStatus := some status }
  | s, .libssh2ChannelGetExitSignal channel, signal =>
    s.note channel fun l => { l with exitSignal := some signal }
  | s, .libssh2ChannelFree channel, _ =>
    if s.current.channel = some channel then { s with finished := s.finished ++ [s.current] } else s
  | s, _, _ => s

/-- The log, with what is promised of the replies, and when undefined behaviour is allowed. -/
def logger (rely : Log → (c : Call) → Reply c → Prop) (undefined : Prop) : Monitor Reply Log where
  next := Log.next
  rely := rely
  fault _ := undefined

@[simp] theorem logger_next (rely : Log → (c : Call) → Reply c → Prop) (undefined : Prop) :
    (logger rely undefined).next = Log.next := rfl
@[simp] theorem logger_rely (rely : Log → (c : Call) → Reply c → Prop) (undefined : Prop) :
    (logger rely undefined).rely = rely := rfl
@[simp] theorem logger_guar (rely : Log → (c : Call) → Reply c → Prop) (undefined : Prop) (s : Log)
    (c : Call) : (logger rely undefined).guar s c := trivial
@[simp] theorem logger_fault (rely : Log → (c : Call) → Reply c → Prop) (undefined : Prop) (s : Log) :
    (logger rely undefined).fault s ↔ undefined := Iff.rfl

/-! ## The response to a command -/

/-- The text that the chunks leave in a response string. -/
def outputText (chunks : List Chunk) : Bytes := (chunks.map fun c => cstr c.bytes).flatten

def readChunks : List ReadResult → List Chunk
  | [] => []
  | .data chunk :: rest => chunk :: readChunks rest
  | _ :: rest => readChunks rest

/-- Zero if the channel could not be closed. -/
def CommandLog.exitCode (l : CommandLog) : Int :=
  if l.closed = some 0 then l.exitStatus.getD 0 else 0

/-- NULL if there was no signal, if it could not be told, and if the channel could not be closed. -/
def CommandLog.signal (l : CommandLog) : Option CString :=
  if l.closed = some 0 then l.exitSignal.bind ExitSignal.name else none

def signalItem : Option CString → Item
  | some name => .string name.bytes
  | none => .pyNone

def CommandLog.response (l : CommandLog) : CommandResponse :=
  [some (.string (outputText (readChunks l.stdout))), some (.string (outputText (readChunks l.stderr))),
    some (.int l.exitCode), some (signalItem l.signal)]

/-- Both read loops ended with a zero read, their outputs fit into memory, and after a successful
close the exit status and the exit signal were asked for. -/
structure CommandLog.Complete (l : CommandLog) : Prop where
  stdout : ∃ chunks, l.stdout = readResults chunks none ∧ Fits 0 chunks
  stderr : ∃ chunks, l.stderr = readResults chunks none ∧ Fits 0 chunks
  closed : l.closed.isSome
  exit : l.closed = some 0 → l.exitStatus.isSome ∧ l.exitSignal.isSome

theorem readChunks_append (a b : List ReadResult) : readChunks (a ++ b) = readChunks a ++ readChunks b := by
  induction a with
  | nil => rfl
  | cons r a ih => cases r <;> simp [readChunks, ih]

theorem readChunks_data (chunks : List Chunk) : readChunks (chunks.map .data) = chunks := by
  induction chunks with
  | nil => rfl
  | cons c chunks ih => simp [readChunks, ih]

theorem readChunks_results (chunks : List Chunk) : readChunks (readResults chunks none) = chunks := by
  simp [readResults, readChunks_append, readChunks_data, readChunks]

theorem outputText_snoc (chunks : List Chunk) (c : Chunk) :
    outputText (chunks ++ [c]) = outputText chunks ++ cstr c.bytes := by
  simp [outputText]

theorem fits_snoc (used : Nat) (chunks : List Chunk) (c : Chunk) (h : Fits used chunks)
    (hc : used + (outputText chunks).length + c.bytes.length + 1 < 2 ^ 64) :
    Fits used (chunks ++ [c]) := by
  induction chunks generalizing used with
  | nil =>
    have := cstr_length_le c.bytes
    simp only [outputText, List.map_nil, List.flatten_nil, List.length_nil] at hc
    exact ⟨by omega, show _ < _ by omega⟩
  | cons d chunks ih =>
    simp only [outputText, List.map_cons, List.flatten_cons, List.length_append] at hc
    refine ⟨h.1, ih _ h.2 ?_⟩
    simp only [outputText]
    omega

theorem fits_end (used : Nat) (chunks : List Chunk) (h : Fits used chunks) :
    used + (outputText chunks).length + 1 < 2 ^ 64 := by
  induction chunks generalizing used with
  | nil => simpa [outputText, Fits] using h
  | cons c chunks ih =>
    have := ih _ h.2
    simp only [outputText, List.map_cons, List.flatten_cons, List.length_append] at this ⊢
    omega

/-! ## Pieces of a round -/

section Pieces

variable {rely : Log → (c : Call) → Reply c → Prop} {undefined : Prop} {log : Log}

theorem appendResponse_spec {Q : ResponseString → Log → Prop} (s : ResponseString) (r : ReadResult)
    (text : Bytes) (h : Holds s.bytes text) (hroom : ¬ Room s.bytes r → undefined)
    (hQ : ∀ s' : ResponseString, Room s.bytes r → Holds s'.bytes (text ++ readText r) → Q s' log) :
    (appendResponse s r).wp (logger rely undefined) Q log := by
  simp only [appendResponse, response_size s.bytes r.count h.nul, Prog.check_some, Prog.ret_bind,
    Prog.ask_bind, wp_call, logger_guar, true_and, wp_bind, wp_check, logger_fault, logger_next]
  intro block _
  by_cases hr : Room s.bytes r
  · obtain ⟨b', hb'⟩ := read_defined (block : Realloced).fresh s.bytes r h.nul hr
    refine ⟨fun hnone => absurd (hb'.symm.trans hnone) (by simp), fun b hb => ?_⟩
    exact hQ ⟨_, b⟩ hr (read_spec _ s.bytes b text r h hb).2
  · exact ⟨fun _ => hroom hr, fun b hb => absurd (read_spec _ s.bytes b text r h hb).1 hr⟩

theorem pyTupleSetItem_spec {α : Type} {Q : Option (Tuple α) → Log → Prop} (t : Option (Tuple α))
    (i : Nat) (item : Ref) (value : α) (hnull : t = none → undefined)
    (hQ : ∀ u, t = some u → Q (some { u with slots := u.slots.set i (some value) }) log) :
    (pyTupleSetItem t i item value).wp (logger rely undefined) Q log := by
  simp only [pyTupleSetItem, wp_bind, wp_check, logger_fault]
  exact ⟨hnull, fun u hu => ⟨trivial, fun _ _ => hQ u hu⟩⟩

theorem setOutput_spec {Q : Option (Tuple Item) → Log → Prop} (t : Option (Tuple Item)) (slot : Nat)
    (s : ResponseString) (text : Bytes) (h : Holds s.bytes text) (hnull : t = none → undefined)
    (hQ : ∀ u, t = some u → Q (some { u with slots := u.slots.set slot (some (.string text)) }) log) :
    (setOutput t slot s).wp (logger rely undefined) Q log := by
  have htext : s.bytes.take (cstr s.bytes).length = text := by
    obtain ⟨rest, hrest⟩ := exists_eq_cstr s.bytes h.nul
    rw [← h.text]
    conv_lhs => arg 2; rw [hrest]
    simp
  simp only [setOutput, strlen_of_mem s.bytes h.nul, Prog.check_some, Prog.ret_bind, Prog.ask_bind,
    wp_call, logger_guar, true_and, htext]
  exact fun ref _ => pyTupleSetItem_spec t slot _ _ hnull hQ

theorem setExitSignal_spec {Q : Option (Tuple Item) → Log → Prop} (t : Option (Tuple Item))
    (signal : Option CString) (hnull : t = none → undefined)
    (hQ : ∀ u, t = some u → Q (some { u with slots := u.slots.set 3 (some (signalItem signal)) }) log) :
    (setExitSignal t signal).wp (logger rely undefined) Q log := by
  cases signal with
  | none => exact pyTupleSetItem_spec t 3 _ _ hnull hQ
  | some name =>
    simp only [setExitSignal, Prog.ask_bind, wp_call, logger_guar, true_and]
    exact fun ref _ => pyTupleSetItem_spec t 3 _ _ hnull hQ

theorem closeChannel_spec {Q : Int × Option CString → Log → Prop} (channel : Handle)
    (hchannel : log.current.channel = some channel)
    (hQ : ∀ l : CommandLog, l = { log.current with
        closed := l.closed, exitStatus := l.exitStatus, exitSignal := l.exitSignal } →
      l.closed.isSome → (l.closed = some 0 → l.exitStatus.isSome ∧ l.exitSignal.isSome) →
      Q (l.exitCode, l.signal) { log with current := l }) :
    (closeChannel channel).wp (logger rely undefined) Q log := by
  simp only [closeChannel, Prog.ask_bind, wp_call, logger_guar, true_and, wp_ite]
  intro closed _
  refine ⟨fun hc => ?_, fun hc => ?_⟩
  · intro status _ signal _
    obtain rfl : closed = 0 := hc
    have := hQ { log.current with closed := some 0, exitStatus := some status, exitSignal := some signal }
      rfl rfl fun _ => ⟨rfl, rfl⟩
    simpa [Log.next, Log.note, hchannel, CommandLog.exitCode, CommandLog.signal] using this
  · have hne : (some closed : Option Int) ≠ some 0 := fun h => hc (Option.some.inj h)
    have := hQ { log.current with closed := some closed } rfl rfl fun h => absurd h hne
    simpa [Log.next, Log.note, hchannel, CommandLog.exitCode, CommandLog.signal, hne] using this

end Pieces

/-! ## One round -/

/-- A command was sent, and nothing was read yet. -/
structure RoundStart (c : CommandFrame) (s : Log) : Prop where
  slots : ∀ u, c.pyCommandResponse = some u → u.slots = [none, none, none, none]
  log : s.current = { channel := some c.sshChannel, execs := s.current.execs }
  string : Holds c.responseString.bytes []

/-- `chunks` were read from stdout. -/
structure ReadsStdout (c₀ : CommandFrame) (s₀ : Log) (chunks : List Chunk) (c : CommandFrame) (s : Log) :
    Prop where
  frame : c = { c₀ with responseString := c.responseString }
  log : s = { s₀ with current.stdout := chunks.map .data }
  string : Holds c.responseString.bytes (outputText chunks)
  fits : Fits 0 chunks

/-- `outs` were read from stdout, and then `chunks` from stderr. -/
structure ReadsStderr (c₀ : CommandFrame) (s₀ : Log) (outs chunks : List Chunk) (c : CommandFrame)
    (s : Log) : Prop where
  frame : c = { c₀ with
    frame.save := c.frame.save
    pyCommandResponse := c.pyCommandResponse
    responseString := c.responseString }
  slots : ∃ u, c₀.pyCommandResponse = some u ∧
    c.pyCommandResponse = some { u with slots := [some (.string (outputText outs)), none, none, none] }
  log : s = { s₀ with current.stdout := readResults outs none, current.stderr := chunks.map .data }
  string : Holds c.responseString.bytes (outputText chunks)
  fitsStdout : Fits 0 outs
  fits : Fits 0 chunks

/-- The round is over, and its response is in the tuple. -/
structure RoundEnd (c₀ : CommandFrame) (s₀ : Log) (f : Frame) (i : UInt8) (s : Log) : Prop where
  index : i = c₀.i + 1
  frame : f = { c₀.frame with save := f.save, pyResponse := f.pyResponse }
  finished : s.finished = s₀.finished ++ [s.current]
  opened : s.opened = s₀.opened
  requests : s.requests = s₀.requests
  execs : s.current.execs = s₀.current.execs
  complete : s.current.Complete
  response : ∃ t, c₀.frame.pyResponse = some t ∧ f.pyResponse =
    some { t with slots := t.slots.set c₀.i.toNat (some s.current.response) }

section Round

variable {rely : Log → (c : Call) → Reply c → Prop} {undefined : Prop}
variable {Q : Label ⊕ Outcome → Log → Prop} {c₀ c : CommandFrame} {s₀ s : Log}

theorem RoundStart.channel (h : RoundStart c₀ s₀) : s₀.current.channel = some c₀.sshChannel := by
  rw [h.log]

theorem RoundStart.reads (h : RoundStart c₀ s₀) : ReadsStdout c₀ s₀ [] c₀ s₀ := by
  refine ⟨rfl, ?_, h.string, by simp [Fits]⟩
  obtain ⟨opened, requests, finished, current⟩ := s₀
  have := h.log
  simp only at this
  rw [this]
  rfl

theorem room_data (c : Chunk) (b : Bytes) : Room b (.data c) ↔
    (cstr b).length + c.bytes.length + 1 < 2 ^ 64 := by
  simp only [Room, ReadResult.count]
  omega

theorem not_room_error (e : ErrorCode) (b : Bytes) : ¬ Room b (.error e) := by
  have := e.neg
  simp only [Room, ReadResult.count]
  omega

theorem stdoutLoop_spec {chunks : List Chunk} (hstart : RoundStart c₀ s₀)
    (h : ReadsStdout c₀ s₀ chunks c s) (hnull : c₀.pyCommandResponse = none → undefined)
    (hroom : ∀ r, rely s (.libssh2ChannelRead c.sshChannel .stdout) r →
      ¬ Room c.responseString.bytes r → undefined)
    (hdata : ∀ chunk c' s', rely s (.libssh2ChannelRead c.sshChannel .stdout) (ReadResult.data chunk) →
      ReadsStdout c₀ s₀ (chunks ++ [chunk]) c' s' → Q (.inl (.stdoutLoop c')) s')
    (heof : ∀ c' s', rely s (.libssh2ChannelRead c.sshChannel .stdout) ReadResult.eof →
      ReadsStderr c₀ s₀ chunks [] c' s' → Q (.inl (.stderrLoop c')) s') :
    (stdoutLoop c).wp (logger rely undefined) Q s := by
  have hcurrent := hstart.log
  have hchannel : s₀.current.channel = some c.sshChannel := by rw [hstart.channel, h.frame]
  simp only [stdoutLoop, Prog.ask_bind, wp_call, logger_guar, true_and, wp_bind]
  intro r hr
  refine appendResponse_spec c.responseString r (outputText chunks) h.string (hroom r hr) ?_
  intro string hfit hholds
  rw [wp_ite]
  refine ⟨fun hpos => ?_, fun hpos => ?_⟩
  · obtain ⟨chunk, rfl⟩ := (count_pos_iff r).mp hpos
    have hlen := (room_data chunk _).mp hfit
    rw [h.string.text] at hlen
    apply hdata chunk { c with responseString := string } _ hr
    refine ⟨by rw [h.frame], ?_, by rw [outputText_snoc]; exact hholds,
      fits_snoc 0 chunks chunk h.fits (by omega)⟩
    rw [h.log]
    simp [Log.next, Log.note, hchannel]
  · have heq : r = .eof := by
      cases r with
      | data chunk => exact absurd ((count_pos_iff _).mpr ⟨chunk, rfl⟩) hpos
      | eof => rfl
      | error e => exact absurd hfit (not_room_error e _)
    subst heq
    simp only [readText, List.append_nil] at hholds
    simp only [wp_call, logger_guar, true_and, wp_bind]
    intro _ _
    refine setOutput_spec c.pyCommandResponse 0 string (outputText chunks) hholds ?_ ?_
    · rw [h.frame]; exact hnull
    · intro u hu
      rw [h.frame] at hu
      simp only [newResponseString, Prog.ask_bind, wp_call, logger_guar, true_and]
      intro save _ _ _ address _
      refine heof _ _ hr ⟨by rw [h.frame], ⟨u, hu, by rw [hstart.slots u hu]; rfl⟩, ?_, holds_empty,
        h.fits, by simp [Fits]⟩
      simp [h.log, Log.next, Log.note, hchannel, readResults]
      rw [hcurrent]

theorem finishCommand_spec (save : Handle) (u : Tuple Item) (outs errs : List Chunk) (l : CommandLog)
    (hframe : c.frame.pyResponse = c₀.frame.pyResponse ∧ c.i = c₀.i)
    (hslots : u.slots = [some (.string (outputText outs)), some (.string (outputText errs)), none, none])
    (hstdout : readChunks l.stdout = outs) (hstderr : readChunks l.stderr = errs)
    (hlog : s.current = l) (hchannel : l.channel = some c.sshChannel)
    (hnull : c₀.frame.pyResponse = none → undefined)
    (hQ : ∀ save t, c₀.frame.pyResponse = some t →
      Q (.inl (.commandLoop { c.frame with
          save
          pyResponse := some { t with slots := t.slots.set c₀.i.toNat (some l.response) } } (c₀.i + 1)))
        { s with finished := s.finished ++ [l] }) :
    (finishCommand c save (some u) l.exitCode l.signal).wp (logger rely undefined) Q s := by
  obtain ⟨hresponse, hi⟩ := hframe
  simp only [finishCommand, Prog.ask_bind, wp_call, logger_guar, true_and, wp_bind]
  intro _ _ code _
  refine pyTupleSetItem_spec _ 2 _ _ (fun h => by cases h) ?_
  rintro _ ⟨⟩
  refine setExitSignal_spec _ _ (fun h => by cases h) ?_
  rintro _ ⟨⟩
  simp only [Prog.check_some, wp_ret]
  intro save' _ _ _ _ _
  refine pyTupleSetItem_spec _ _ _ _ (by rw [hresponse]; exact hnull) ?_
  intro t ht save'' _
  have := hQ save'' t (hresponse ▸ ht)
  have hl : l.response = [some (.string (outputText outs)), some (.string (outputText errs)),
      some (.int l.exitCode), some (signalItem l.signal)] := by
    rw [CommandLog.response, hstdout, hstderr]
  rw [hl] at this
  simpa [hslots, Log.next, hlog, hi, hchannel] using this

theorem stderrLoop_spec {outs chunks : List Chunk} (hstart : RoundStart c₀ s₀)
    (h : ReadsStderr c₀ s₀ outs chunks c s) (hnull : c₀.frame.pyResponse = none → undefined)
    (hroom : ∀ r, rely s (.libssh2ChannelRead c.sshChannel .stderr) r →
      ¬ Room c.responseString.bytes r → undefined)
    (hdata : ∀ chunk c' s', rely s (.libssh2ChannelRead c.sshChannel .stderr) (ReadResult.data chunk) →
      ReadsStderr c₀ s₀ outs (chunks ++ [chunk]) c' s' → Q (.inl (.stderrLoop c')) s')
    (heof : ∀ f i s', rely s (.libssh2ChannelRead c.sshChannel .stderr) ReadResult.eof →
      s'.current.stdout = readResults outs none → s'.current.stderr = readResults chunks none →
      RoundEnd c₀ s₀ f i s' → Q (.inl (.commandLoop f i)) s') :
    (stderrLoop c).wp (logger rely undefined) Q s := by
  have hchannel : s₀.current.channel = some c.sshChannel := by rw [hstart.channel, h.frame]
  simp only [stderrLoop, Prog.ask_bind, wp_call, logger_guar, true_and, wp_bind]
  intro r hr
  refine appendResponse_spec c.responseString r (outputText chunks) h.string (hroom r hr) ?_
  intro string hfit hholds
  rw [wp_ite]
  refine ⟨fun hpos => ?_, fun hpos => ?_⟩
  · obtain ⟨chunk, rfl⟩ := (count_pos_iff r).mp hpos
    have hlen := (room_data chunk _).mp hfit
    rw [h.string.text] at hlen
    apply hdata chunk { c with responseString := string } _ hr
    refine ⟨by rw [h.frame], h.slots, ?_, by rw [outputText_snoc]; exact hholds, h.fitsStdout,
      fits_snoc 0 chunks chunk h.fits (by omega)⟩
    rw [h.log]
    simp [Log.next, Log.note, hchannel]
  · have heq : r = .eof := by
      cases r with
      | data chunk => exact absurd ((count_pos_iff _).mpr ⟨chunk, rfl⟩) hpos
      | eof => rfl
      | error e => exact absurd hfit (not_room_error e _)
    subst heq
    simp only [readText, List.append_nil] at hholds
    obtain ⟨u, hu, hslots⟩ := h.slots
    simp only [wp_call, logger_guar, true_and, wp_bind]
    intro _ _
    refine setOutput_spec c.pyCommandResponse 1 string (outputText chunks) hholds
      (by rw [hslots]; exact fun h => by cases h) ?_
    rw [hslots]
    rintro _ ⟨⟩ save _ _ _
    refine closeChannel_spec c.sshChannel (by simp [h.log, Log.next, Log.note, hchannel]) ?_
    intro l hl hclosed hexit
    simp only [h.log, logger_next, Log.next, Log.note, hchannel, if_true] at hl
    have hstdout : l.stdout = readResults outs none := by rw [hl]
    have hstderr : l.stderr = readResults chunks none := by rw [hl]; rfl
    refine finishCommand_spec save _ outs chunks l ⟨by rw [h.frame], by rw [h.frame]⟩ rfl
      (by rw [hstdout, readChunks_results]) (by rw [hstderr, readChunks_results]) rfl
      (by rw [hl]) hnull ?_
    intro save' t ht
    refine heof _ _ _ hr hstdout hstderr ⟨rfl, by rw [h.frame], ?_, ?_, ?_, by rw [hl],
      ⟨⟨outs, hstdout, h.fitsStdout⟩, ⟨chunks, hstderr, h.fits⟩, hclosed, hexit⟩, ⟨t, ht, rfl⟩⟩
    · simp [h.log, Log.next, Log.note, hchannel]
    · simp [h.log, Log.next, Log.note, hchannel]
    · simp [h.log, Log.next, Log.note, hchannel]

end Round

end RemoteSsh.Commands
