import RemoteSsh.Commands.Output

/-!
# Every command, once and in order

A list that nobody changes, and a server that takes every command, ends its output and lets every
channel be closed.
-/

open Lib RemoteSsh.Accumulate

namespace RemoteSsh.Commands

/-- `env`, with the list `items`, whose strings are `text`, and a server that sends `serve`. -/
def served (items : List Handle) (text : Handle → Handle) (serve : Nat → Output) (env : Env Reply) :
    Env Reply := fun t c =>
  match c with
  | .pyListSize _ => (items.length : Int)
  | .pyListGetItem _ i => items[i]?
  | .pyStringAsString object => some (text object)
  | .pyTupleNew size => some ((env t (.pyTupleNew size) : Option Handle).getD 0)
  | .libssh2ChannelOpenSession session => some ((env t (.libssh2ChannelOpenSession session) : Option Handle).getD 0)
  | .libssh2ChannelExec _ _ => (0 : Int)
  | .libssh2ChannelRead _ stream => nextReply serve (anyLog.after {} t) stream
  | .libssh2ChannelClose _ => (0 : Int)
  | c => env t c

section

variable (items : List Handle) (text : Handle → Handle) (serve : Nat → Output)

def promised : Log → (c : Call) → Reply c → Prop
  | _, .pyListSize _, n => (n : Int) = items.length
  | _, .pyListGetItem _ i, item => item = items[i]?
  | _, .pyStringAsString object, string => string = some (text object)
  | _, .pyTupleNew _, tuple => tuple ≠ none
  | _, .libssh2ChannelOpenSession _, channel => channel ≠ none
  | _, .libssh2ChannelExec _ _, failed => (failed : Int) = 0
  | s, .libssh2ChannelRead _ stream, r => r = nextReply serve s stream
  | _, _, _ => True

/-- The counter can count the commands, and their outputs fit into memory. -/
def InReach : Prop :=
  items.length ≤ 255 ∧ ∀ k < items.length, Fits 0 (serve k).stdout ∧ Fits 0 (serve k).stderr

/-- Channel `k` was used for the command that the counter points to, and was drained. -/
structure Served (k : Nat) (l : CommandLog) : Prop where
  execs : ∃ h, items[k % 256]? = some h ∧ l.execs = [text h]
  stdout : l.stdout = readResults (serve k).stdout none
  stderr : l.stderr = readResults (serve k).stderr none

structure HeadInv (f : Frame) (i : UInt8) (s : Log) : Prop where
  loop : LoopInv f i s
  count : f.commandCount = items.length
  tuple : f.pyResponse ≠ none
  served : ∀ k l, s.finished[k]? = some l → Served items text serve k l

structure HeadRound (c : CommandFrame) (s : Log) : Prop where
  round : InRound c s
  count : c.frame.commandCount = items.length
  tuple : c.frame.pyResponse ≠ none
  response : c.pyCommandResponse ≠ none
  served : ∀ k l, s.finished[k]? = some l → Served items text serve k l
  execs : ∃ h, items[s.finished.length % 256]? = some h ∧ s.current.execs = [text h]

def LoopAt : Label → Log → Prop
  | .commands _ _ _, s => s = {}
  | .commandLoop f i, s => HeadInv items text serve f i s
  | .handshake _ _ _, _ => False
  | .authenticate _ _ _, _ => False
  | l, s => ∃ c₀ s₀, HeadRound items text serve c₀ s₀ ∧ RoundAt (serve s₀.finished.length) c₀ s₀ l s

def LoopPost : Label ⊕ Outcome → Log → Prop
  | .inl l, s => LoopAt items text serve l s
  | .inr o, s => ∃ f i, HeadInv items text serve f i s ∧ ¬ (i.toNat : Int) < f.commandCount ∧ o = f.pyResponse

def remaining : Label → Log → Nat ×ₗ (Nat ×ₗ Nat)
  | .commands _ _ _, _ => toLex (items.length + 1, toLex (0, 0))
  | l, s => toLex (items.length - s.finished.length, left (serve s.finished.length) l s)

def LoopStep (l : Label) (s : Log) (x : Label ⊕ Outcome) (s' : Log) : Prop :=
  LoopPost items text serve x s' ∧
    (InReach items serve → ∀ l', x = .inl l' → remaining items serve l' s' < remaining items serve l s)

end

section Loop

variable {items : List Handle} {text : Handle → Handle} {serve : Nat → Output}

abbrev loopLog (items : List Handle) (text : Handle → Handle) (serve : Nat → Output) : Monitor Reply Log :=
  logger (promised items text serve) (¬ InReach items serve)

theorem promised_sends : Sends (promised items text serve) serve := fun _ _ _ _ hr => hr

theorem HeadRound.lt {c : CommandFrame} {s : Log} (h : HeadRound items text serve c s)
    (hshort : items.length ≤ 255) : s.finished.length < items.length := by
  obtain ⟨s', hloop, -, hmore, hfinished, -⟩ := h.round
  have hcount := h.count
  have hle := hloop.short (by omega)
  have hindex := hloop.index
  rw [hfinished]
  omega

theorem HeadRound.fits {c : CommandFrame} {s : Log} (h : HeadRound items text serve c s) :
    ¬ InReach items serve ∨
      Fits 0 (serve s.finished.length).stdout ∧ Fits 0 (serve s.finished.length).stderr := by
  by_cases hreach : InReach items serve
  · exact .inr (hreach.2 _ (h.lt hreach.1))
  · exact .inl hreach

theorem HeadInv.begin {f : Frame} {i : UInt8} {s s' : Log} {c : CommandFrame}
    (h : HeadInv items text serve f i s) (hbegin : RoundBegin (promised items text serve) f i s c s') :
    HeadRound items text serve c s' := by
  obtain ⟨command, hexecs, -, log, object, hobject, hcommand⟩ := hbegin.execs
  refine ⟨hbegin.inRound h.loop, ?_, ?_, ?_, ?_, object, ?_, ?_⟩
  · rw [hbegin.frame]; exact h.count
  · rw [hbegin.frame]; exact h.tuple
  · intro hnull
    obtain ⟨log, hlog⟩ := hbegin.null hnull
    exact hlog rfl
  · rw [hbegin.finished]; exact h.served
  · have : some object = items[i.toNat]? := hobject
    rw [hbegin.finished, ← h.loop.index, this]
  · have : some command = some (text object) := hcommand
    rw [hexecs, Option.some.inj this]

theorem HeadRound.head {c : CommandFrame} {s₀ s : Log} {f : Frame} {i : UInt8}
    (h : HeadRound items text serve c s₀)
    (hend : RoundAt (serve s₀.finished.length) c s₀ (.commandLoop f i) s) :
    HeadInv items text serve f i s := by
  obtain ⟨hend, hstdout, hstderr⟩ := hend
  obtain ⟨t, -, hset⟩ := hend.response
  refine ⟨hend.loopInv h.round, by rw [hend.frame]; exact h.count, by simp [hset], ?_⟩
  intro k l hl
  rw [hend.finished] at hl
  rcases Nat.lt_trichotomy k s₀.finished.length with hlt | rfl | hgt
  · rw [List.getElem?_append_left hlt] at hl
    exact h.served k l hl
  · rw [List.getElem?_append_right (Nat.le_refl _), Nat.sub_self] at hl
    obtain rfl := Option.some.inj hl
    exact ⟨by rw [hend.execs]; exact h.execs, hstdout, hstderr⟩
  · rw [List.getElem?_eq_none (by simp; omega)] at hl
    cases hl

theorem remaining_round (l : Label) (s : Log) (h : ∀ save session list, l ≠ .commands save session list) :
    remaining items serve l s =
      toLex (items.length - s.finished.length, left (serve s.finished.length) l s) := by
  cases l with
  | commands save session list => exact absurd rfl (h save session list)
  | _ => rfl

theorem RoundStep.loopStep {c₀ : CommandFrame} {s₀ s s' : Log} {l : Label} {x : Label ⊕ Outcome}
    (hround : HeadRound items text serve c₀ s₀)
    (hl : remaining items serve l s =
      toLex (items.length - s₀.finished.length, left (serve s₀.finished.length) l s))
    (h : RoundStep (serve s₀.finished.length) c₀ s₀ l s x s') : LoopStep items text serve l s x s' := by
  rcases x with l' | o
  · obtain ⟨hat, hless⟩ := h
    cases l' with
    | stdoutLoop c =>
      refine ⟨⟨c₀, s₀, hround, hat⟩, ?_⟩
      rintro - _ ⟨⟩
      obtain ⟨chunks, hreads, -⟩ := hat
      have hfinished : s'.finished = s₀.finished := by rw [hreads.log]
      rw [hl, remaining_round _ _ (by simp), hfinished, Prod.Lex.toLex_lt_toLex]
      exact .inr ⟨rfl, hless.resolve_right (by simp)⟩
    | stderrLoop c =>
      refine ⟨⟨c₀, s₀, hround, hat⟩, ?_⟩
      rintro - _ ⟨⟩
      obtain ⟨chunks, hreads, -⟩ := hat
      have hfinished : s'.finished = s₀.finished := by rw [hreads.log]
      rw [hl, remaining_round _ _ (by simp), hfinished, Prod.Lex.toLex_lt_toLex]
      exact .inr ⟨rfl, hless.resolve_right (by simp)⟩
    | commandLoop f i =>
      refine ⟨hround.head hat, ?_⟩
      rintro hreach _ ⟨⟩
      have hlt := hround.lt hreach.1
      rw [hl, remaining_round _ _ (by simp), hat.1.finished, Prod.Lex.toLex_lt_toLex]
      left
      simp only [List.length_append, List.length_singleton]
      omega
    | handshake => exact hat.elim
    | authenticate => exact hat.elim
    | commands => exact hat.elim
  · exact h.elim

/-- Each block is a step of the command loop. -/
theorem loop_step (l : Label) (s : Log) (h : LoopAt items text serve l s) :
    (block l).wp (loopLog items text serve) (LoopStep items text serve l s) s := by
  cases l with
  | handshake => exact h.elim
  | authenticate => exact h.elim
  | commands save session list =>
    refine commands_spec h fun f hloop _ hcount htuple => ⟨⟨hloop, hcount, fun hnull => htuple hnull rfl, ?_⟩, ?_⟩
    · intro k l hl
      rw [show s.finished = [] by rw [show s = {} from h]] at hl
      simp at hl
    · rintro - _ ⟨⟩
      simp only [remaining, Prod.Lex.toLex_lt_toLex]
      left
      omega
  | commandLoop f i =>
    have hhead : HeadInv items text serve f i s := h
    have hcount := hhead.count
    by_cases hmore : (i.toNat : Int) < f.commandCount
    · refine commandLoop_spec ?_ ?_ (fun hend => absurd hmore hend) ?_ ?_
      · intro log hnone
        have : none = items[i.toNat]? := hnone
        rw [List.getElem?_eq_getElem (by omega)] at this
        cases this
      · intro log object hnone
        cases (show none = some (text object) from hnone)
      · rintro (⟨log, session, hopen⟩ | ⟨log, channel, command, failed, hne, hfailed⟩) s'
        · exact absurd rfl hopen
        · exact absurd hfailed hne
      · intro c s' hbegin
        have hround := hhead.begin hbegin
        refine ⟨⟨c, s', hround, [], hbegin.start.reads, List.nil_prefix⟩, ?_⟩
        rintro - _ ⟨⟩
        simp only [remaining, hbegin.finished, left, Prod.Lex.toLex_lt_toLex]
        exact .inr ⟨trivial, .inl (by omega)⟩
    · rw [block, commandLoop, if_neg hmore]
      refine ⟨trivial, fun _ _ => ⟨⟨f, i, hhead, hmore, rfl⟩, ?_⟩⟩
      rintro - _ ⟨⟩
  | stdoutLoop c =>
    obtain ⟨c₀, s₀, hround, hat⟩ := h
    obtain ⟨_, _, hstart, _⟩ := hround.round
    refine wp_mono _ (fun x s' hstep => hstep.loopStep hround ?_) _ _
      (stdoutLoop_round promised_sends hstart (hround.fits.imp_right And.left)
        (fun hnull => absurd hnull hround.response) hat)
    obtain ⟨chunks, hreads, -⟩ := hat
    rw [remaining_round _ _ (by simp), show s.finished = s₀.finished by rw [hreads.log]]
  | stderrLoop c =>
    obtain ⟨c₀, s₀, hround, hat⟩ := h
    obtain ⟨_, _, hstart, _⟩ := hround.round
    refine wp_mono _ (fun x s' hstep => hstep.loopStep hround ?_) _ _
      (stderrLoop_round promised_sends hstart (hround.fits.imp_right And.right)
        (fun hnull => absurd hnull hround.tuple) hat)
    obtain ⟨chunks, hreads, -⟩ := hat
    rw [remaining_round _ _ (by simp), show s.finished = s₀.finished by rw [hreads.log]]

theorem loop_verified : Verified (loopLog items text serve) block (LoopPost items text serve) :=
  fun l s h => wp_mono _ (fun _ _ hstep => hstep.1) _ _ (loop_step l s h)

end Loop

theorem fits_of_complete {results : List ReadResult} {chunks : List Chunk}
    (h : ∃ chunks, results = readResults chunks none ∧ Fits 0 chunks)
    (hresults : results = readResults chunks none) : Fits 0 chunks := by
  obtain ⟨chunks', hresults', hfits⟩ := h
  have := readChunks_results chunks'
  rw [← hresults', hresults, readChunks_results] at this
  exact this ▸ hfits

/-! ## Every run -/

section Run

variable (items : List Handle) (text : Handle → Handle) (serve : Nat → Output) (env : Env Reply)
variable (save session list : Handle)

def commandsRun (n : Nat) : Config Reply Label Outcome :=
  run block (served items text serve env) (.ret (.inl (.commands save session list))) n

def commandsLog (n : Nat) : Log :=
  anyLog.after {} (commandsRun items text serve env save session list n).trace

theorem served_relied (n : Nat) : (loopLog items text serve).Relied {}
    (commandsRun items text serve env save session list n).trace := by
  apply relied_run
  intro t c
  cases c with
  | pyTupleNew size => exact Option.some_ne_none _
  | libssh2ChannelOpenSession session => exact Option.some_ne_none _
  | pyListSize | pyListGetItem | pyStringAsString | libssh2ChannelExec | libssh2ChannelRead => rfl
  | _ => trivial

theorem commands_run (n : Nat) : (commandsRun items text serve env save session list n).todo.wp
    (loopLog items text serve) (LoopPost items text serve)
    (commandsLog items text serve env save session list n) :=
  run_wp (loopLog items text serve) block _ loop_verified (p := .ret (.inl (.commands save session list)))
    (s := {}) rfl n (served_relied items text serve env save session list n)

/-- The loop ends with everything done: as many channels as commands, one command on each of them, in
the order of the list, and the tuple made of what came from them. -/
structure AllDone (t : Tuple CommandResponse) (log : Log) : Prop where
  opened : log.opened = items.length
  requests : log.requests = items.map text
  execs : log.finished.map CommandLog.execs = items.map fun h => [text h]
  drained : ∀ k l, log.finished[k]? = some l → l.stdout = readResults (serve k).stdout none ∧
    l.stderr = readResults (serve k).stderr none
  slots : t.slots = log.finished.map fun l => some l.response

/-- The loop ends with everything done, and no round begins with a slot that is filled. -/
def CommandsComplete : Prop :=
  (∃ n t, (commandsRun items text serve env save session list n).todo = .ret (.inr (some t)) ∧
    AllDone items text serve t (commandsLog items text serve env save session list n)) ∧
  ∀ n f i, (commandsRun items text serve env save session list n).todo = .ret (.inl (.commandLoop f i)) →
    (i.toNat : Int) < f.commandCount → ∀ t, f.pyResponse = some t → t.slots[i.toNat]? = some none

theorem inReach_of_end {n : Nat} {o : Outcome}
    (h : (commandsRun items text serve env save session list n).todo = .ret (.inr o)) :
    InReach items serve := by
  have hpost := commands_run items text serve env save session list n
  rw [h] at hpost
  obtain ⟨f, i, hhead, hend, rfl⟩ := hpost
  obtain ⟨t, ht⟩ := Option.ne_none_iff_exists'.mp hhead.tuple
  obtain ⟨hshort, hlength, -⟩ := hhead.loop.ends hend t ht
  have hcount := hhead.count
  refine ⟨by omega, fun k hk => ?_⟩
  obtain ⟨l, hl⟩ : ∃ l, (commandsLog items text serve env save session list n).finished[k]? = some l :=
    ⟨_, List.getElem?_eq_getElem (by omega)⟩
  have hserved := hhead.served k l hl
  have hcomplete := hhead.loop.complete l (List.mem_of_getElem? hl)
  exact ⟨fits_of_complete hcomplete.stdout hserved.stdout, fits_of_complete hcomplete.stderr hserved.stderr⟩

theorem HeadInv.allDone {f : Frame} {i : UInt8} {s : Log} {t : Tuple CommandResponse}
    (h : HeadInv items text serve f i s) (hend : ¬ (i.toNat : Int) < f.commandCount)
    (ht : f.pyResponse = some t) : AllDone items text serve t s := by
  obtain ⟨hshort, hlength, hslots⟩ := h.loop.ends hend t ht
  have hcount := h.count
  have hexecs : s.finished.map CommandLog.execs = items.map fun h => [text h] := by
    apply List.ext_getElem?
    intro k
    rw [List.getElem?_map, List.getElem?_map]
    by_cases hk : k < items.length
    · obtain ⟨l, hl⟩ : ∃ l, s.finished[k]? = some l := ⟨_, List.getElem?_eq_getElem (by omega)⟩
      obtain ⟨object, hobject, hl'⟩ := (h.served k l hl).execs
      rw [Nat.mod_eq_of_lt (by omega)] at hobject
      rw [hl, hobject, Option.map_some, Option.map_some, hl']
    · rw [List.getElem?_eq_none (by omega), List.getElem?_eq_none (by omega)]
      rfl
  refine ⟨by rw [h.loop.opened]; omega, ?_, hexecs, fun k l hl => ?_, hslots⟩
  · have hmap : items.map text = (items.map fun h => [text h]).flatten := by
      rw [List.map_eq_flatMap, List.flatMap_def]
    rw [h.loop.requests, List.flatMap_def, hexecs, hmap]
  · exact ⟨(h.served k l hl).stdout, (h.served k l hl).stderr⟩

theorem loop_ends (h : InReach items serve) :
    ∃ n t, (commandsRun items text serve env save session list n).todo = .ret (.inr (some t)) ∧
      AllDone items text serve t (commandsLog items text serve env save session list n) := by
  have hreach := run_reaches (loopLog items text serve) block (served items text serve env)
    (LoopAt items text serve) (fun x s => ∃ o, x = .inr o ∧ LoopPost items text serve (.inr o) s)
    (InvImage.wf (fun a : Label × Log => remaining items serve a.1 a.2) wellFounded_lt)
    (fun _ hn => hn h) ?_
    (.ret (.inl (.commands save session list))) {} (served_relied items text serve env save session list)
    (n := 0) rfl rfl
  · obtain ⟨n, x, -, hx, o, rfl, f, i, hhead, hend, rfl⟩ := hreach
    obtain ⟨t, ht⟩ := Option.ne_none_iff_exists'.mp hhead.tuple
    exact ⟨n, t, ht ▸ hx, hhead.allDone items text serve hend ht⟩
  · intro l s hat
    refine wp_mono _ ?_ _ _ (loop_step l s hat)
    rintro (l' | o) s' ⟨hpost, hless⟩
    · exact .inr ⟨l', rfl, hpost, hless h l' rfl⟩
    · exact .inl ⟨o, rfl, hpost⟩

/-- All commands are done, once and in order, exactly if there are at most 255 of them and their
outputs fit into the address space. -/
theorem commands_complete_iff :
    CommandsComplete items text serve env save session list ↔
      items.length ≤ 255 ∧ ∀ k < items.length, Fits 0 (serve k).stdout ∧ Fits 0 (serve k).stderr := by
  constructor
  · rintro ⟨⟨n, t, hend, -⟩, -⟩
    exact inReach_of_end items text serve env save session list hend
  · intro h
    refine ⟨loop_ends items text serve env save session list h, ?_⟩
    intro n f i hn hmore t ht
    have hhead := commands_run items text serve env save session list n
    rw [hn] at hhead
    have hcount := hhead.count
    have hle := hhead.loop.short (by omega)
    have hindex := hhead.loop.index
    rw [hhead.loop.slots (by omega) t ht, List.getElem?_append_right (by simp; omega), List.length_map,
      List.getElem?_replicate, if_pos (by omega)]

end Run

/-- With 256 commands the counter never gets to the end of the list. -/
theorem commands_never_end :
    ¬ CommandsComplete (List.replicate 256 0) id (fun _ => ⟨[], []⟩) (accepting 256) 0 0 7 := by
  rintro ⟨⟨n, t, hend, -⟩, -⟩
  have hshort := (inReach_of_end _ _ _ _ _ _ _ hend).1
  rw [List.length_replicate] at hshort
  omega

end RemoteSsh.Commands
