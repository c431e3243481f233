import RemoteSsh.Code.Funs

/-!
# The output that `form_response_string` collects

What one call does to the response string, and what the two read loops make of the results of their
reads.
-/

open Lib

namespace RemoteSsh.Accumulate

/-! ## One call -/

theorem response_size (b : Bytes) (n : Int) (h : 0 ∈ b) :
    responseSize b n = some (toULong ((cstr b).length + n + 1)) := by
  rw [responseSize, strlen_of_mem b h]
  rfl

/-- The new string is the old C string, the chunk, and a NUL. -/
theorem form_response_string_spec (fresh : Nat → UInt8) (b chunk : Bytes) (n : Nat) (h : 0 ∈ b)
    (hn : n ≤ chunk.length) (hfit : (cstr b).length + n + 1 < 2 ^ 64) :
    formResponseString fresh b chunk n = some (cstr b ++ chunk.take n ++ [0]) := by
  have hsize : toULong ((cstr b).length + (n : Int) + 1) = (cstr b).length + n + 1 := by
    have := toULong_natCast _ hfit
    push_cast at this
    exact this
  obtain ⟨rest, hrest⟩ := exists_eq_cstr b h
  obtain ⟨tail, hgrown, htail⟩ := realloc_keeps fresh (cstr b) rest n
  rw [← hrest] at hgrown
  obtain ⟨y, hfilled⟩ := memcpy_after (cstr b) tail chunk 0 n hn htail
  have hset := memset_last (cstr b ++ chunk.take n) y 0
  have hlen : (cstr b ++ chunk.take n).length = (cstr b).length + n := by simp; omega
  rw [hlen] at hset
  simp only [formResponseString, response_size b n h, hsize, Option.bind_eq_bind, Option.bind_some,
    hgrown, strlen_append_nul _ _ (nul_notMem_cstr b), toULong_natCast n (by omega), hfilled,
    Nat.add_sub_cancel, hset]

theorem form_response_string_negative (fresh : Nat → UInt8) (b chunk : Bytes) (n : Int) (hneg : n < 0)
    (hmin : -2 ^ 63 ≤ n) (hchunk : chunk.length < 2 ^ 63) :
    formResponseString fresh b chunk n = none := by
  have hlong := toULong_negative n hneg hmin
  have hcopy : ∀ dst offset, memcpy dst offset chunk (toULong n) = none := by
    intro dst offset
    rw [memcpy, if_neg (by omega)]
  simp [formResponseString, hcopy]

theorem form_response_string_wrapped (fresh : Nat → UInt8) (b chunk : Bytes) (n : Nat) (h : 0 ∈ b)
    (hb : b.length < 2 ^ 64) (hn : n ≤ bufferSize) (hwrap : 2 ^ 64 ≤ (cstr b).length + n + 1) :
    formResponseString fresh b chunk n = none := by
  have hlen := cstr_length_lt b h
  have hbuf : bufferSize = 1024 := rfl
  obtain ⟨size, hsize, hcut⟩ : ∃ size, toULong ((cstr b).length + (n : Int) + 1) = size ∧
      size ≤ (cstr b).length := by
    refine ⟨_, toULong_wrapped _ (by omega) (by omega), ?_⟩
    omega
  rw [formResponseString, response_size b n h, hsize]
  simp only [Option.bind_eq_bind, Option.bind_some]
  cases hr : realloc fresh b size with
  | none => rfl
  | some grown =>
    rw [Option.bind_some, realloc_cuts fresh b grown size hcut hr]
    rfl

/-! ## One read -/

/-- There is room for the result of a read. -/
def Room (b : Bytes) (r : ReadResult) : Prop := 0 ≤ r.count ∧ (cstr b).length + r.count + 1 < 2 ^ 64

theorem count_le (r : ReadResult) : r.count ≤ bufferSize := by
  cases r with
  | data chunk => have := chunk.le; simp [ReadResult.count]; omega
  | eof => simp [ReadResult.count]
  | error e => have := e.neg; simp [ReadResult.count]; omega

theorem read_appends (fresh : Nat → UInt8) (b : Bytes) (r : ReadResult) (h : 0 ∈ b) (hroom : Room b r) :
    formResponseString fresh b r.buffer r.count =
      some (cstr b ++ r.buffer.take r.count.toNat ++ [0]) := by
  obtain ⟨hpos, hfit⟩ := hroom
  have hle := count_le r
  have hlen := buffer_length r
  have := form_response_string_spec fresh b r.buffer r.count.toNat h (by omega) (by omega)
  rwa [Int.toNat_of_nonneg hpos] at this

theorem read_without_room (fresh : Nat → UInt8) (b : Bytes) (r : ReadResult) (h : 0 ∈ b)
    (hb : b.length < 2 ^ 64) (hroom : ¬ Room b r) :
    formResponseString fresh b r.buffer r.count = none := by
  have hle := count_le r
  have hlen := buffer_length r
  have hbuf : bufferSize = 1024 := rfl
  by_cases hpos : 0 ≤ r.count
  · have hwrap : ¬ (cstr b).length + r.count + 1 < 2 ^ 64 := fun h => hroom ⟨hpos, h⟩
    have := form_response_string_wrapped fresh b r.buffer r.count.toNat h hb (by omega) (by omega)
    rwa [Int.toNat_of_nonneg hpos] at this
  · have hmin : -2 ^ 31 ≤ r.count := by
      cases r with
      | error e => exact e.min
      | data chunk => simp [ReadResult.count] at hpos
      | eof => simp [ReadResult.count] at hpos
    exact form_response_string_negative fresh b r.buffer r.count (by omega) (by omega) (by omega)

/-- The text that a read adds: a NUL in the chunk hides what is behind it. -/
def readText : ReadResult → Bytes
  | .data chunk => cstr chunk.bytes
  | _ => []

theorem cstr_append_chunk (s chunk : Bytes) (h : 0 ∉ s) : cstr (s ++ chunk ++ [0]) = s ++ cstr chunk := by
  unfold cstr
  rw [List.append_assoc, List.takeWhile_append_of_pos (forall_ne_nul s h)]
  congr 1
  by_cases hc : 0 ∈ chunk
  · obtain ⟨rest, hrest⟩ := exists_eq_cstr chunk hc
    have h1 := cstr_append_nul (cstr chunk) (rest ++ [0]) (nul_notMem_cstr chunk)
    rw [← List.cons_append, ← List.append_assoc, ← hrest] at h1
    exact h1
  · have h1 := cstr_append_nul chunk [] hc
    exact h1.trans (cstr_eq_self chunk hc).symm

/-- What a response string always is: it has a NUL, it is shorter than the address space, and `text`
is what it says. -/
structure Holds (b : Bytes) (text : Bytes) : Prop where
  nul : 0 ∈ b
  short : b.length < 2 ^ 64
  text : cstr b = text

theorem holds_empty : Holds emptyResponse [] := by
  refine ⟨List.mem_replicate.mpr ⟨by decide, rfl⟩, ?_, rfl⟩
  rw [emptyResponse, List.length_replicate]
  decide

theorem take_count (r : ReadResult) (h : 0 ≤ r.count) :
    cstr (r.buffer.take r.count.toNat) = readText r := by
  cases r with
  | data chunk => simp [ReadResult.count, readText, buffer_take_count]
  | eof => simp [ReadResult.count, readText, cstr]
  | error e => have := e.neg; simp [ReadResult.count] at h; omega

theorem read_spec (fresh : Nat → UInt8) (b b' text : Bytes) (r : ReadResult) (h : Holds b text)
    (hform : formResponseString fresh b r.buffer r.count = some b') :
    Room b r ∧ Holds b' (text ++ readText r) := by
  by_cases hroom : Room b r
  · refine ⟨hroom, ?_⟩
    rw [read_appends fresh b r h.nul hroom, Option.some.injEq] at hform
    obtain ⟨hpos, hfit⟩ := hroom
    subst hform
    refine ⟨by simp, ?_, ?_⟩
    · simp
      omega
    · rw [cstr_append_chunk _ _ (nul_notMem_cstr b), h.text, take_count r hpos]
  · rw [read_without_room fresh b r h.nul h.short hroom] at hform
    cases hform

theorem read_defined (fresh : Nat → UInt8) (b : Bytes) (r : ReadResult) (h : 0 ∈ b) (hroom : Room b r) :
    ∃ b', formResponseString fresh b r.buffer r.count = some b' :=
  ⟨_, read_appends fresh b r h hroom⟩

/-! ## A sequence of chunks -/

/-- One call, taken apart: `grown` is the block after the `realloc`, `b'` is the new string, and
`behind` is what the chunk's buffer holds after the chunk. -/
structure Appends (fresh : Nat → UInt8) (b chunk behind grown b' : Bytes) : Prop where
  size : responseSize b chunk.length = some ((cstr b).length + chunk.length + 1)
  resized : realloc fresh b ((cstr b).length + chunk.length + 1) = some grown
  allocated : grown.length = (cstr b).length + chunk.length + 1
  rescanned : strlen grown = strlen b
  copied : ∀ offset, strlen grown = some offset → offset + chunk.length ≤ grown.length
  terminated : (cstr b).length + chunk.length + 1 - 1 < grown.length
  result : formResponseString fresh b (chunk ++ behind) chunk.length = some b'
  length : b'.length = (cstr b).length + chunk.length + 1
  nul : b'.getLast? = some 0
  bytes : b' = cstr b ++ chunk ++ [0]

theorem appends_of_fits (fresh : Nat → UInt8) (b chunk behind : Bytes) (h : 0 ∈ b)
    (hfit : (cstr b).length + chunk.length + 1 < 2 ^ 64) :
    ∃ grown b', Appends fresh b chunk behind grown b' := by
  obtain ⟨rest, hrest⟩ := exists_eq_cstr b h
  obtain ⟨tail, hgrown, htail⟩ := realloc_keeps fresh (cstr b) rest chunk.length
  rw [← hrest] at hgrown
  have hscan : strlen (cstr b ++ 0 :: tail) = some (cstr b).length :=
    strlen_append_nul _ _ (nul_notMem_cstr b)
  have hlength : (cstr b ++ 0 :: tail).length = (cstr b).length + chunk.length + 1 := by
    simp only [List.length_append, List.length_cons, htail]
    omega
  have hform := form_response_string_spec fresh b (chunk ++ behind) chunk.length h (by simp) hfit
  rw [List.take_left] at hform
  refine ⟨cstr b ++ 0 :: tail, cstr b ++ chunk ++ [0], ?_, hgrown, hlength, ?_, ?_, ?_, hform, ?_, ?_, rfl⟩
  · rw [response_size b _ h]
    have := toULong_natCast _ hfit
    push_cast at this
    rw [this]
  · rw [hscan, strlen_of_mem b h]
  · intro offset hoffset
    rw [hscan, Option.some.injEq] at hoffset
    omega
  · omega
  · simp
    omega
  · simp

/-- The calls for a sequence of chunks, each on the string that the one before it left. -/
def formChunks (fresh : Nat → Nat → UInt8) (b : Bytes) : List Bytes → Option Bytes
  | [] => some b
  | chunk :: rest =>
    (formResponseString (fresh rest.length) b chunk chunk.length).bind fun b' => formChunks fresh b' rest

/-- No call is asked for more than the address space, after a text of length `used`. -/
def ChunksFit (used : Nat) : List Bytes → Prop
  | [] => True
  | chunk :: rest => used + chunk.length + 1 < 2 ^ 64 ∧ ChunksFit (used + (cstr chunk).length) rest

theorem form_chunks_spec (fresh : Nat → Nat → UInt8) (chunks : List Bytes) (b : Bytes) (h : 0 ∈ b)
    (hfit : ChunksFit (cstr b).length chunks) :
    ∃ b', formChunks fresh b chunks = some b' ∧ cstr b' = cstr b ++ chunks.flatMap cstr := by
  induction chunks generalizing b with
  | nil => exact ⟨b, rfl, by simp⟩
  | cons chunk rest ih =>
    obtain ⟨hchunk, hrest⟩ := hfit
    obtain ⟨grown, b', happends⟩ := appends_of_fits (fresh rest.length) b chunk [] h hchunk
    have hform := happends.result
    rw [List.append_nil] at hform
    have htext : cstr b' = cstr b ++ cstr chunk := by
      rw [happends.bytes]
      exact cstr_append_chunk _ _ (nul_notMem_cstr b)
    have hnul : 0 ∈ b' := by
      rw [happends.bytes]
      simp
    rw [← List.length_append, ← htext] at hrest
    obtain ⟨last, hlast, hcstr⟩ := ih b' hnul hrest
    refine ⟨last, ?_, ?_⟩
    · rw [formChunks, hform, Option.bind_some, hlast]
    · rw [hcstr, htext, List.flatMap_cons, List.append_assoc]

/-- `form_response_string` leaves the old C string, the chunk and a NUL, and nothing else. After any
sequence of chunks the string says what the chunks say before their first NUL. -/
theorem form_response_string_exact :
    (∀ (fresh : Nat → UInt8) (b chunk behind : Bytes), 0 ∈ b →
      (cstr b).length + chunk.length + 1 < 2 ^ 64 → ∃ grown b', Appends fresh b chunk behind grown b') ∧
    (∀ (fresh : Nat → Nat → UInt8) (chunks : List Bytes), ChunksFit 0 chunks →
      ∃ b, formChunks fresh emptyResponse chunks = some b ∧ cstr b = chunks.flatMap cstr) := by
  refine ⟨appends_of_fits, fun fresh chunks hfit => ?_⟩
  have hempty : cstr emptyResponse = [] := holds_empty.text
  obtain ⟨b, hb, htext⟩ := form_chunks_spec fresh chunks emptyResponse holds_empty.nul (by rwa [hempty])
  rw [hempty, List.nil_append] at htext
  exact ⟨b, hb, htext⟩

/-- The chunk `a NUL b` after the text `h`, in a block of three bytes, and the two chunks one after the
other. -/
theorem form_response_string_exact_hidden :
    (∃ grown b', Appends (fun _ => 255) [104, 0, 7] [97, 0, 98] [0] grown b') ∧
    ∃ b, formChunks (fun _ _ => 255) emptyResponse [[104], [97, 0, 98]] = some b ∧ cstr b = [104, 97] :=
  ⟨form_response_string_exact.1 _ _ _ _ (by decide) (by decide),
    form_response_string_exact.2 _ [[104], [97, 0, 98]] (by simp [ChunksFit, cstr])⟩

/-! ## The read loop -/

/-- The results of the reads of one loop: any number of chunks, then a zero or an error. -/
def readResults (chunks : List Chunk) (last : Option ErrorCode) : List ReadResult :=
  chunks.map .data ++ [last.elim .eof .error]

/-- The text so far, the next chunk and the NUL always fit into the address space. -/
def Fits (used : Nat) : List Chunk → Prop
  | [] => used + 1 < 2 ^ 64
  | c :: rest => used + c.bytes.length + 1 < 2 ^ 64 ∧ Fits (used + (cstr c.bytes).length) rest

structure FormCall where
  fresh : Nat → UInt8
  responseString : Bytes
  read : ReadResult

/-- The calls that the `do`/`while` makes. The result of a read is passed on before it is tested. -/
def loopCalls (fresh : Nat → Nat → UInt8) (b : Bytes) : List ReadResult → List FormCall
  | [] => []
  | r :: rest => ⟨fresh rest.length, b, r⟩ ::
    match formResponseString (fresh rest.length) b r.buffer r.count with
    | some b' => if r.count > 0 then loopCalls fresh b' rest else []
    | none => []

/-- Both scans find their NUL, the size is what it should be and is not zero, and both writes are
inside the new block. -/
def InRange (c : FormCall) : Prop :=
  ∃ length size grown offset, strlen c.responseString = some length ∧
    responseSize c.responseString c.read.count = some size ∧
    (size : Int) = length + c.read.count + 1 ∧ 0 < size ∧
    realloc c.fresh c.responseString size = some grown ∧ strlen grown = some offset ∧
    0 ≤ c.read.count ∧ c.read.count ≤ bufferSize ∧ toULong c.read.count = c.read.count ∧
    offset + c.read.count ≤ grown.length ∧ size - 1 < grown.length ∧
    (formResponseString c.fresh c.responseString c.read.buffer c.read.count).isSome

theorem in_range_iff (fresh : Nat → UInt8) (b text : Bytes) (r : ReadResult) (h : Holds b text) :
    InRange ⟨fresh, b, r⟩ ↔ Room b r := by
  constructor
  · rintro ⟨length, size, grown, offset, -, -, -, -, -, -, -, -, -, -, -, hsome⟩
    obtain ⟨b', hb'⟩ := Option.isSome_iff_exists.mp hsome
    exact (read_spec fresh b b' text r h hb').1
  · intro hroom
    obtain ⟨b', hb'⟩ := read_defined fresh b r h.nul hroom
    obtain ⟨hpos, hfit⟩ := hroom
    have hle := count_le r
    obtain ⟨n, hn⟩ := Int.eq_ofNat_of_zero_le hpos
    obtain ⟨rest, hrest⟩ := exists_eq_cstr b h.nul
    obtain ⟨tail, hgrown, htail⟩ := realloc_keeps fresh (cstr b) rest n
    rw [← hrest] at hgrown
    have hsize : toULong ((cstr b).length + r.count + 1) = (cstr b).length + n + 1 := by
      rw [toULong_of_range _ (by omega) hfit]
      omega
    refine ⟨(cstr b).length, (cstr b).length + n + 1, cstr b ++ 0 :: tail, (cstr b).length,
      strlen_of_mem b h.nul, ?_, by push_cast; omega, by omega, hgrown,
      strlen_append_nul _ _ (nul_notMem_cstr b), hpos, hle, ?_, ?_, ?_, ?_⟩
    · simp only
      rw [response_size b r.count h.nul, hsize]
    · simp only
      rw [toULong_of_range _ hpos (by omega)]
      omega
    · simp only [List.length_append, List.length_cons, htail]
      push_cast
      omega
    · simp only [List.length_append, List.length_cons, htail]
      omega
    · simp only [hb', Option.isSome_some]

theorem last_count (last : Option ErrorCode) : (last.elim ReadResult.eof ReadResult.error).count ≤ 0 := by
  cases last with
  | none => exact Int.le_refl 0
  | some e => exact e.neg.le

theorem loopCalls_last (fresh : Nat → Nat → UInt8) (b : Bytes) (r : ReadResult) (h : r.count ≤ 0) :
    loopCalls fresh b [r] = [⟨fresh 0, b, r⟩] := by
  have hstop : ¬ r.count > 0 := by omega
  simp only [loopCalls, List.length_nil, hstop, if_false]
  cases formResponseString (fresh 0) b r.buffer r.count <;> rfl

theorem loopCalls_data (fresh : Nat → Nat → UInt8) (b text : Bytes) (c : Chunk) (rest : List ReadResult)
    (h : Holds b text) (hroom : Room b (.data c)) :
    ∃ b', Holds b' (text ++ cstr c.bytes) ∧
      loopCalls fresh b (.data c :: rest) = ⟨fresh rest.length, b, .data c⟩ :: loopCalls fresh b' rest := by
  have hpos : (ReadResult.data c).count > 0 := (count_pos_iff _).mpr ⟨c, rfl⟩
  obtain ⟨b', hb'⟩ := read_defined (fresh rest.length) b (.data c) h.nul hroom
  refine ⟨b', (read_spec _ b b' text _ h hb').2, ?_⟩
  simp only [loopCalls, hb', hpos, if_true]

theorem loop_from (fresh : Nat → Nat → UInt8) (chunks : List Chunk) (last : Option ErrorCode)
    (b text : Bytes) (h : Holds b text) :
    (∀ c ∈ loopCalls fresh b (readResults chunks last), InRange c) ↔
      last = none ∧ Fits text.length chunks := by
  induction chunks generalizing b text with
  | nil =>
    rw [readResults, List.map_nil, List.nil_append, loopCalls_last _ _ _ (last_count last)]
    simp only [List.mem_singleton, forall_eq, in_range_iff _ b text _ h, Room, h.text, Fits]
    cases last with
    | none => simp [ReadResult.count]; omega
    | some e => have := e.neg; simp [ReadResult.count]; omega
  | cons c rest ih =>
    have hroom : Room b (.data c) ↔ text.length + c.bytes.length + 1 < 2 ^ 64 := by
      simp only [Room, ReadResult.count, h.text]
      omega
    have hcons : readResults (c :: rest) last = .data c :: readResults rest last := rfl
    rw [hcons, Fits]
    by_cases hfit : text.length + c.bytes.length + 1 < 2 ^ 64
    · obtain ⟨b', hholds, hcalls⟩ := loopCalls_data fresh b text c (readResults rest last) h (hroom.mpr hfit)
      have hrest := ih b' _ hholds
      rw [List.length_append] at hrest
      rw [hcalls, List.forall_mem_cons, in_range_iff _ b text _ h, hroom, hrest]
      tauto
    · simp only [hfit, false_and, and_false, iff_false]
      intro hall
      exact hfit (hroom.mp ((in_range_iff _ b text _ h).mp (hall _ List.mem_cons_self)))

/-- A read loop stays in range exactly if it ends with a zero read, and its output fits into the
address space. -/
theorem loop_in_range_iff (fresh : Nat → Nat → UInt8) (chunks : List Chunk) (last : Option ErrorCode) :
    (∀ c ∈ loopCalls fresh emptyResponse (readResults chunks last), InRange c) ↔
      last = none ∧ Fits 0 chunks :=
  loop_from fresh chunks last emptyResponse [] holds_empty

/-- LIBSSH2_ERROR_SOCKET_RECV. -/
def socketRecv : ErrorCode := ⟨-43, by decide, by decide⟩

/-- The connection is lost before the first byte of output. -/
theorem lost_connection_out_of_range :
    ¬ ∀ c ∈ loopCalls (fun _ _ => 0) emptyResponse (readResults [] (some socketRecv)), InRange c := by
  intro h
  obtain ⟨_, _, _, _, -, -, -, -, -, -, hpos, -⟩ :=
    h ⟨fun _ => 0, emptyResponse, .error socketRecv⟩ List.mem_cons_self
  exact absurd hpos (by decide)

/-! ## The loops of `execute_ssh_instructions` -/

/-- The block reads, appends what it has read, and then tests whether it goes on. -/
def IsReadLoop (stream : Stream) (label : CommandFrame → Label) : Prop :=
  ∀ c, ∃ (save : Handle) (rest : ResponseString → Unit → Body), block (label c) = do
    let r ← ask (.libssh2ChannelRead c.sshChannel stream)
    let s ← appendResponse c.responseString r
    if (r : ReadResult).count > 0 then
      return .inl (label { c with responseString := s })
    else
      .call (.pyEvalRestoreThread save) (rest s)

theorem stdoutLoop_isReadLoop : IsReadLoop .stdout .stdoutLoop := fun c => ⟨c.frame.save, _, rfl⟩

theorem stderrLoop_isReadLoop : IsReadLoop .stderr .stderrLoop := fun c => ⟨c.frame.save, _, rfl⟩

/-- The calls of `form_response_string` that a trace begins with. -/
def formCalls (b : Bytes) : List (Event Reply) → List FormCall
  | ⟨.libssh2ChannelRead _ _, r⟩ :: ⟨.realloc _ _, memory⟩ :: t => ⟨memory.fresh, b, r⟩ ::
    match formResponseString memory.fresh b r.buffer r.count with
    | some b' => formCalls b' t
    | none => []
  | _ => []

/-- `env`, with the results of the reads of one loop. Each turn of the loop makes two calls. -/
def replaying (fresh : Nat → Nat → UInt8) (results : List ReadResult) (env : Env Reply) : Env Reply :=
    fun t c =>
  match c with
  | .libssh2ChannelRead _ _ => (results[t.length / 2]?).getD .eof
  | .realloc _ _ => ⟨0, fresh (results.length - (t.length / 2 + 1))⟩
  | c => env t c

section Turn

variable {stream : Stream} {label : CommandFrame → Label} {fresh : Nat → Nat → UInt8}
variable {results : List ReadResult}
variable {env : Env Reply} {c : CommandFrame} {t : List (Event Reply)} {text : Bytes} {r : ReadResult}
variable {k : Nat}

variable (fresh env)

theorem loop_turn (hloop : IsReadLoop stream label) (h : Holds c.responseString.bytes text)
    (ht : t.length = 2 * k)
    (hr : results[k]? = some r) : ∃ size save, ∃ rest : ResponseString → Unit → Body,
    (step block (replaying fresh results env))^[3] ⟨.ret (.inl (label c)), t⟩ =
      ⟨match formResponseString (fresh (results.length - (k + 1))) c.responseString.bytes r.buffer r.count with
        | some b' => if r.count > 0 then .ret (.inl (label { c with responseString := ⟨0, b'⟩ }))
          else .call (.pyEvalRestoreThread save) (rest ⟨0, b'⟩)
        | none => .fault,
        t ++ [⟨.libssh2ChannelRead c.sshChannel stream, r⟩,
          ⟨.realloc c.responseString.address size, ⟨0, fresh (results.length - (k + 1))⟩⟩]⟩ := by
  obtain ⟨save, rest, hblock⟩ := hloop c
  have hread : replaying fresh results env t (.libssh2ChannelRead c.sshChannel stream) = r := by
    unfold replaying
    simp only [ht, Nat.mul_div_cancel_left k Nat.two_pos, hr, Option.getD_some]
  have hblocks : ∀ address size, replaying fresh results env
      (t ++ [⟨.libssh2ChannelRead c.sshChannel stream, r⟩]) (.realloc address size) =
        ⟨0, fresh (results.length - (k + 1))⟩ := by
    intro address size
    have hhalf : (2 * k + 1) / 2 = k := by omega
    unfold replaying
    simp only [List.length_append, List.length_singleton, ht, hhalf]
  refine ⟨toULong ((cstr c.responseString.bytes).length + r.count + 1), save, rest, ?_⟩
  show step _ _ (step _ _ (step _ _ ⟨.ret (.inl (label c)), t⟩)) = _
  rw [step_goto, hblock, Prog.ask_bind, step_call, hread]
  unfold appendResponse
  rw [response_size _ _ h.nul]
  simp only [Prog.check_some, Prog.ret_bind, Prog.ask_bind, Prog.call_bind]
  rw [step_call, hblocks]
  cases formResponseString (fresh (results.length - (k + 1))) c.responseString.bytes r.buffer r.count with
  | none => simp
  | some b' => simp

theorem formCalls_turn (b : Bytes) (channel address : Handle) (size : Nat) (memory : Realloced)
    (u : List (Event Reply)) :
    formCalls b (⟨.libssh2ChannelRead channel stream, r⟩ :: ⟨.realloc address size, memory⟩ :: u) =
      ⟨memory.fresh, b, r⟩ :: match formResponseString memory.fresh b r.buffer r.count with
        | some b' => formCalls b' u
        | none => [] := rfl

theorem drop_cons {rest : List ReadResult} (h : results.drop k = r :: rest) :
    results[k]? = some r ∧ results.length - (k + 1) = rest.length ∧ results.drop (k + 1) = rest := by
  have htail : results.drop (k + 1) = rest := by rw [List.drop_add_one_eq_tail_drop, h, List.tail_cons]
  have hlength := congrArg List.length htail
  rw [List.length_drop] at hlength
  have hget : (results.drop k)[0]? = some r := by rw [h]; rfl
  rw [List.getElem?_drop, Nat.add_zero] at hget
  exact ⟨hget, hlength, htail⟩

/-- The last turn of a loop, or one that is undefined. -/
theorem turn_ends (hloop : IsReadLoop stream label) {rest : List ReadResult}
    (h : Holds c.responseString.bytes text)
    (ht : t.length = 2 * k) (hrest : results.drop k = r :: rest)
    (hend : formResponseString (fresh rest.length) c.responseString.bytes r.buffer r.count = none ∨ r.count ≤ 0) :
    ∃ n, ∀ m, n ≤ m → ∃ u,
      ((step block (replaying fresh results env))^[m] ⟨.ret (.inl (label c)), t⟩).trace = t ++ u ∧
      formCalls c.responseString.bytes u = loopCalls fresh c.responseString.bytes (r :: rest) := by
  obtain ⟨hr, hlength, -⟩ := drop_cons hrest
  obtain ⟨size, save, rest', hturn⟩ := loop_turn fresh env hloop h ht hr
  rw [hlength] at hturn
  cases hform : formResponseString (fresh rest.length) c.responseString.bytes r.buffer r.count with
  | none =>
    rw [hform] at hturn
    refine ⟨3, fun m hm => ?_⟩
    obtain ⟨d, rfl⟩ := Nat.exists_eq_add_of_le' hm
    rw [Function.iterate_add_apply, hturn, iterate_fault]
    refine ⟨_, rfl, ?_⟩
    rw [formCalls_turn, loopCalls, hform]
  | some b' =>
    have hstop : ¬ r.count > 0 := by
      rw [hform] at hend
      simpa using hend
    rw [hform] at hturn
    simp only [if_neg hstop] at hturn
    refine ⟨4, fun m hm => ?_⟩
    obtain ⟨d, rfl⟩ := Nat.exists_eq_add_of_le' hm
    rw [show d + 4 = d + 1 + 3 by omega, Function.iterate_add_apply, hturn, Function.iterate_succ_apply, step_call]
    obtain ⟨v, hv⟩ := iterate_trace block (replaying fresh results env) _ d
    refine ⟨_, by rw [hv, List.append_assoc, List.append_assoc], ?_⟩
    rw [List.cons_append, List.cons_append, formCalls_turn, loopCalls, hform]
    simp only [if_neg hstop]
    rfl

/-- The induction is on the chunks that are still to be read. -/
theorem loop_calls_from (hloop : IsReadLoop stream label) (chunks : List Chunk) (last : Option ErrorCode)
    (h : Holds c.responseString.bytes text) (ht : t.length = 2 * k)
    (hrest : results.drop k = readResults chunks last) :
    ∃ n, ∀ m, n ≤ m → ∃ u,
      ((step block (replaying fresh results env))^[m] ⟨.ret (.inl (label c)), t⟩).trace = t ++ u ∧
      formCalls c.responseString.bytes u = loopCalls fresh c.responseString.bytes (readResults chunks last) := by
  induction chunks generalizing c t text k with
  | nil => exact turn_ends fresh env hloop h ht hrest (.inr (last_count last))
  | cons chunk chunks ih =>
    have hrest : results.drop k = .data chunk :: readResults chunks last := hrest
    obtain ⟨hr, hlength, hnext⟩ := drop_cons hrest
    cases hform : formResponseString (fresh (readResults chunks last).length) c.responseString.bytes
        (ReadResult.data chunk).buffer (ReadResult.data chunk).count with
    | none => exact turn_ends fresh env hloop h ht hrest (.inl hform)
    | some b' =>
      have hgo : (ReadResult.data chunk).count > 0 := (count_pos_iff _).mpr ⟨chunk, rfl⟩
      obtain ⟨size, save, rest', hturn⟩ := loop_turn fresh env hloop h ht hr
      rw [hlength, hform] at hturn
      simp only [if_pos hgo] at hturn
      have hholds := (read_spec _ _ _ _ _ h hform).2
      obtain ⟨n, hn⟩ := ih (c := { c with responseString := ⟨0, b'⟩ }) (k := k + 1) hholds
        (t := t ++ [⟨.libssh2ChannelRead c.sshChannel stream, .data chunk⟩,
          ⟨.realloc c.responseString.address size, ⟨0, fresh (readResults chunks last).length⟩⟩])
        (by simp; omega) hnext
      refine ⟨n + 3, fun m hm => ?_⟩
      obtain ⟨d, rfl⟩ := Nat.exists_eq_add_of_le' hm
      obtain ⟨u, hu, hcalls⟩ := hn (d + n) (by omega)
      rw [show d + (n + 3) = d + n + 3 by omega, Function.iterate_add_apply, hturn, hu]
      refine ⟨_, List.append_assoc .., ?_⟩
      rw [List.cons_append, List.cons_append, List.nil_append, formCalls_turn]
      show _ = loopCalls fresh c.responseString.bytes (.data chunk :: readResults chunks last)
      rw [loopCalls, hform]
      simp only [if_pos hgo]
      exact congrArg _ hcalls

/-- In the model of the code a read loop calls `form_response_string` as `loopCalls` says. -/
theorem read_loop_calls (hloop : IsReadLoop stream label) (chunks : List Chunk) (last : Option ErrorCode)
    (h : Holds c.responseString.bytes text) : ∃ n, ∀ m, n ≤ m → formCalls c.responseString.bytes
      (run block (replaying fresh (readResults chunks last) env) (.ret (.inl (label c))) m).trace =
        loopCalls fresh c.responseString.bytes (readResults chunks last) := by
  obtain ⟨n, hn⟩ := loop_calls_from fresh env (t := []) (k := 0) hloop chunks last h rfl (List.drop_zero ..)
  refine ⟨n, fun m hm => ?_⟩
  obtain ⟨u, hu, hcalls⟩ := hn m hm
  unfold run
  rw [hu]
  exact hcalls

end Turn

end RemoteSsh.Accumulate
