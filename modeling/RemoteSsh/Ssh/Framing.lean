import RemoteSsh.Ssh.Transport

/-!
# Packets do not depend on how their bytes come in

The state in the middle of a packet is given by how many of its bytes were taken, and not by the calls of `recv` that
they came from. So however the socket cuts the stream, the same packets come out of it.
-/

open Lib

namespace RemoteSsh.Ssh

/-! ## A packet on the socket -/

/-- One packet: its bytes on the socket, what is encrypted in it from its length to its padding, its MAC, and the
states of the cipher before and after it. -/
structure Frame (κ : Type) where
  raw : Bytes
  plain : Bytes
  mac : Bytes
  packetLength : Nat
  paddingLength : Nat
  before : κ
  after : κ

section Frame

variable {κ : Type}

structure Frame.Good (mode : Mode κ) (f : Frame κ) : Prop where
  length : f.plain.length = 4 + f.packetLength
  macLength : f.mac.length = mode.macLen
  packetLength : u32At f.plain 0 = some f.packetLength
  paddingLength : f.plain[4]?.map UInt8.toNat = some f.paddingLength
  more : 2 ≤ f.packetLength
  fits : f.packetLength - 1 + mode.macLen ≤ maxPayload
  large : mode.blocksize ≤ 4 + f.packetLength
  plainText : mode = none → f.raw = f.plain ∧ f.after = f.before
  cipherText : ∀ suite, mode = some suite → suite.cipher.KeepsLength ∧ 5 ≤ suite.cipher.blocksize ∧
    (4 + f.packetLength) % suite.cipher.blocksize = 0 ∧
      ∃ body, f.raw = body ++ f.mac ∧ body.length = 4 + f.packetLength ∧
        suite.cipher.blocks ((4 + f.packetLength) / suite.cipher.blocksize) f.before body = some (f.plain, f.after)

/-- What the packet becomes, byte by byte. -/
def Frame.whole (f : Frame κ) : Bytes := f.plain ++ f.mac

/-- The cipher's state after `n` bytes of the packet. -/
def Frame.KeyAt (mode : Mode κ) (f : Frame κ) (n : Nat) (key : κ) : Prop :=
  match mode with
  | none => key = f.before
  | some suite =>
    (4 + f.packetLength ≤ n ∧ key = f.after) ∨ (n % suite.cipher.blocksize = 0 ∧ n < 4 + f.packetLength ∧
      suite.cipher.blocks (n / suite.cipher.blocksize) f.before f.raw = some (f.plain.take n, key))

/-- The state after `n` bytes of the packet, with the first block among them. -/
structure Midway (mode : Mode κ) (f : Frame κ) (n : Nat) (p : Incoming κ) : Prop where
  started : mode.blocksize ≤ n
  inside : n ≤ f.raw.length
  packetLength : p.packetLength = f.packetLength
  paddingLength : p.paddingLength = f.paddingLength
  totalNum : p.totalNum = f.packetLength - 1 + mode.macLen
  payload : p.payload = (f.whole.take n).drop 5
  init : mode ≠ none → p.init = f.plain.take 5
  key : f.KeyAt mode n p.key

variable {mode : Mode κ} {f : Frame κ} {n : Nat} {p : Incoming κ}

theorem Frame.Good.raw_length (h : f.Good mode) : f.raw.length = 4 + f.packetLength + mode.macLen := by
  cases mode with
  | none =>
    rw [(h.plainText rfl).1]
    exact h.length
  | some suite =>
    obtain ⟨-, -, -, body, hraw, hbody, -⟩ := h.cipherText suite rfl
    rw [hraw, List.length_append, hbody, h.macLength]

theorem Frame.Good.whole_length (h : f.Good mode) : f.whole.length = f.raw.length := by
  rw [h.raw_length, Frame.whole, List.length_append, h.length, h.macLength]

theorem Frame.Good.blocksize_pos (h : f.Good mode) : 5 ≤ mode.blocksize := by
  cases mode with
  | none => exact Nat.le_refl 5
  | some suite => exact (h.cipherText suite rfl).2.1

theorem Midway.payload_length (hf : f.Good mode) (h : Midway mode f n p) : p.payload.length = n - 5 := by
  have := h.inside
  rw [h.payload, List.length_drop, List.length_take, hf.whole_length]
  omega

/-! ## Bytes that are there -/

/-- Two ways to cut the same bytes. -/
theorem take_of_append_eq {a b c d : Bytes} {j : Nat} (h : a ++ b = c ++ d) (ha : j ≤ a.length)
    (hc : j ≤ c.length) : a.take j = c.take j := by
  have := congrArg (List.take j) h
  rwa [List.take_append_of_le_length ha, List.take_append_of_le_length hc] at this

theorem drop_of_append_eq {a b c d : Bytes} {j : Nat} (h : a ++ b = c ++ d) (ha : j ≤ a.length)
    (hc : j ≤ c.length) : a.drop j ++ b = c.drop j ++ d := by
  have := congrArg (List.drop j) h
  rwa [List.drop_append_of_le_length ha, List.drop_append_of_le_length hc] at this

/-- The bytes between two places. -/
theorem take_drop_append (w : Bytes) (n j : Nat) (hn : 5 ≤ n) (hlen : n ≤ w.length) :
    (w.take n).drop 5 ++ (w.drop n).take j = (w.take (n + j)).drop 5 := by
  rw [List.take_add, List.drop_append_of_le_length (by rw [List.length_take]; omega)]

/-! ## The body of a packet -/

/-- Behind the encrypted part, the bytes are taken as they are. -/
theorem Frame.Good.whole_drop (hf : f.Good mode) (hn : mode = none ∨ 4 + f.packetLength ≤ n) :
    f.whole.drop n = f.raw.drop n := by
  cases mode with
  | none =>
    have hmac : f.mac = [] := List.length_eq_zero_iff.mp hf.macLength
    rw [Frame.whole, hmac, List.append_nil, (hf.plainText rfl).1]
  | some suite =>
    obtain ⟨-, -, -, body, hraw, hbody, -⟩ := hf.cipherText suite rfl
    have hn : 4 + f.packetLength ≤ n := hn.resolve_left (by simp)
    have hplain := hf.length
    have hfirst : f.plain.drop n = [] := List.drop_eq_nil_of_le (by omega)
    have hsecond : body.drop n = [] := List.drop_eq_nil_of_le (by omega)
    rw [Frame.whole, hraw, List.drop_append, List.drop_append, hfirst, hsecond, hplain, hbody]

/-- `j` more bytes of the packet. -/
theorem Midway.advance {p' : Incoming κ} {j : Nat} (hf : f.Good mode) (h : Midway mode f n p)
    (hsame : p' = { p with buf := p'.buf, payload := p.payload ++ (f.whole.drop n).take j, key := p'.key })
    (hj : n + j ≤ f.raw.length) (hkey : f.KeyAt mode (n + j) p'.key) : Midway mode f (n + j) p' := by
  have hfive := hf.blocksize_pos
  have hstarted := h.started
  rw [hsame]
  refine ⟨by omega, hj, h.packetLength, h.paddingLength, h.totalNum, ?_, h.init, hkey⟩
  show p.payload ++ (f.whole.drop n).take j = (f.whole.take (n + j)).drop 5
  rw [h.payload, take_drop_append _ _ _ (by omega) (by rw [hf.whole_length]; omega)]

variable {rest later : Bytes}

/-- The blocks of a packet, cut at two places. -/
theorem Frame.Good.blocks_at {suite : Suite κ} {a b : Nat} (hf : f.Good (some suite))
    (hfit : (a + b) * suite.cipher.blocksize ≤ 4 + f.packetLength) :
    ∃ k1 k2, suite.cipher.blocks a f.before f.raw = some (f.plain.take (a * suite.cipher.blocksize), k1) ∧
      suite.cipher.blocks b k1 (f.raw.drop (a * suite.cipher.blocksize)) =
        some ((f.plain.drop (a * suite.cipher.blocksize)).take (b * suite.cipher.blocksize), k2) ∧
      suite.cipher.blocks (a + b) f.before f.raw = some (f.plain.take ((a + b) * suite.cipher.blocksize), k2) ∧
      ((a + b) * suite.cipher.blocksize = 4 + f.packetLength → k2 = f.after) := by
  obtain ⟨hkeeps, hsize, haligned, body, hraw, hbody, hblocks⟩ := hf.cipherText suite rfl
  have hpos : 0 < suite.cipher.blocksize := by omega
  have hsum := Nat.add_mul a b suite.cipher.blocksize
  obtain ⟨c, hc⟩ : ∃ c, 4 + f.packetLength = (a + b + c) * suite.cipher.blocksize := by
    obtain ⟨e, he⟩ := Nat.dvd_of_mod_eq_zero haligned
    have hle : a + b ≤ e := by
      rw [he, Nat.mul_comm suite.cipher.blocksize] at hfit
      exact Nat.le_of_mul_le_mul_right hfit hpos
    exact ⟨e - (a + b), by rw [he, Nat.add_sub_cancel' hle, Nat.mul_comm]⟩
  rw [hc, Nat.mul_div_cancel _ hpos] at hblocks
  obtain ⟨k2, hupto, hlast⟩ := blocks_split hkeeps (by omega) hblocks
  obtain ⟨k1, hfirst, hnext⟩ := blocks_split hkeeps (by omega) hupto
  refine ⟨k1, k2, ?_, ?_, ?_, fun hend => ?_⟩
  · rw [hraw, blocks_append (by omega), hfirst, List.take_take, Nat.min_eq_left (by omega)]
  · rw [hraw, List.drop_append_of_le_length (by omega), blocks_append (by rw [List.length_drop]; omega), hnext,
      List.drop_take, hsum, Nat.add_sub_cancel_left]
  · rw [hraw, blocks_append (by omega), hupto]
  · have hzero : c = 0 := by
      rw [hc, Nat.add_mul (a + b) c] at hend
      have : c * suite.cipher.blocksize = 0 := by omega
      exact (Nat.mul_eq_zero.mp this).resolve_right (by omega)
    subst hzero
    simp only [Cipher.blocks, Option.some.injEq, Prod.mk.injEq] at hlast
    exact hlast.2

/-- Some blocks of the packet. -/
theorem decrypt_spec {suite : Suite κ} {d : Nat} (hf : f.Good (some suite)) (h : Midway (some suite) f n p)
    (hn : n < 4 + f.packetLength) (hd : d % suite.cipher.blocksize = 0) (hfit : n + d ≤ 4 + f.packetLength)
    (hlen : d ≤ p.buf.length) (hb : p.buf ++ rest = f.raw.drop n ++ later) :
    ∃ key, decrypt suite p d =
        .next { p with buf := p.buf.drop d, payload := p.payload ++ (f.whole.drop n).take d, key := key } ∧
      f.KeyAt (some suite) (n + d) key := by
  have hplain := hf.length
  have hraw := hf.raw_length
  have hpos : 0 < suite.cipher.blocksize := by have := hf.blocksize_pos; exact Nat.lt_of_lt_of_le (by decide) this
  obtain ⟨hmod, hbefore⟩ : n % suite.cipher.blocksize = 0 ∧
      suite.cipher.blocks (n / suite.cipher.blocksize) f.before f.raw = some (f.plain.take n, p.key) := by
    rcases h.key with ⟨hpast, -⟩ | ⟨hmod, -, hbefore⟩
    · omega
    · exact ⟨hmod, hbefore⟩
  obtain ⟨a, rfl⟩ : ∃ a, n = a * suite.cipher.blocksize :=
    ⟨_, (Nat.div_mul_cancel (Nat.dvd_of_mod_eq_zero hmod)).symm⟩
  obtain ⟨b, rfl⟩ : ∃ b, d = b * suite.cipher.blocksize :=
    ⟨_, (Nat.div_mul_cancel (Nat.dvd_of_mod_eq_zero hd)).symm⟩
  obtain ⟨k1, k2, hfirst, hnext, hboth, hend⟩ := hf.blocks_at (a := a) (b := b) (by rw [Nat.add_mul]; exact hfit)
  rw [Nat.mul_div_cancel _ hpos, hfirst, Option.some.injEq, Prod.mk.injEq] at hbefore
  obtain ⟨-, rfl⟩ := hbefore
  -- The bytes in the buffer are those of the packet, as far as the blocks reach.
  have hsame : suite.cipher.blocks b p.key p.buf =
      suite.cipher.blocks b p.key (f.raw.drop (a * suite.cipher.blocksize)) := by
    have hrest : b * suite.cipher.blocksize ≤ (f.raw.drop (a * suite.cipher.blocksize)).length := by
      rw [List.length_drop]
      omega
    rw [← blocks_take hlen, ← blocks_take hrest, take_of_append_eq hb hlen hrest]
  have hwhole : (f.whole.drop (a * suite.cipher.blocksize)).take (b * suite.cipher.blocksize) =
      (f.plain.drop (a * suite.cipher.blocksize)).take (b * suite.cipher.blocksize) := by
    rw [Frame.whole, List.drop_append_of_le_length (by omega),
      List.take_append_of_le_length (by rw [List.length_drop]; omega)]
  refine ⟨k2, ?_, ?_⟩
  · rw [decrypt, if_neg (by simp), Nat.mul_div_cancel _ hpos, hsame, hnext, hwhole]
  · rw [← Nat.add_mul] at hfit ⊢
    rcases Nat.lt_or_eq_of_le hfit with hless | heq
    · exact .inr ⟨Nat.mul_mod_left _ _, hless, by rw [Nat.mul_div_cancel _ hpos]; exact hboth⟩
    · exact .inl ⟨heq.ge, hend heq⟩

/-- Bytes that are taken as they are. -/
theorem copyPlain_spec {j : Nat} (hf : f.Good mode) (h : Midway mode f n p)
    (hplain : mode = none ∨ 4 + f.packetLength ≤ n) (hlen : j ≤ p.buf.length) (hj : n + j ≤ f.raw.length)
    (hb : p.buf ++ rest = f.raw.drop n ++ later) :
    Midway mode f (n + j) (copyPlain p j) ∧ (copyPlain p j).buf ++ rest = f.raw.drop (n + j) ++ later := by
  have hraw : j ≤ (f.raw.drop n).length := by
    rw [List.length_drop]
    omega
  constructor
  · refine h.advance (j := j) hf ?_ hj ?_
    · rw [hf.whole_drop hplain, ← take_of_append_eq hb hlen hraw]
      rfl
    · show f.KeyAt mode (n + j) p.key
      have hkey := h.key
      cases mode with
      | none => exact hkey
      | some suite =>
        have hpast : 4 + f.packetLength ≤ n := hplain.resolve_left (by simp)
        rcases hkey with ⟨-, hkey⟩ | ⟨-, hless, -⟩
        · exact .inl ⟨by omega, hkey⟩
        · omega
  · rw [← List.drop_drop]
    exact drop_of_append_eq hb hlen hraw

/-- Whole blocks of the packet, as a step. -/
theorem decrypt_midway {suite : Suite κ} {d : Nat} (hf : f.Good (some suite)) (h : Midway (some suite) f n p)
    (hn : n < 4 + f.packetLength) (hd : d % suite.cipher.blocksize = 0) (hfit : n + d ≤ 4 + f.packetLength)
    (hlen : d ≤ p.buf.length) (hb : p.buf ++ rest = f.raw.drop n ++ later) :
    ∃ p', decrypt suite p d = .next p' ∧ Midway (some suite) f (n + d) p' ∧ p'.buf = p.buf.drop d ∧
      p'.buf ++ rest = f.raw.drop (n + d) ++ later ∧ p'.seqno = p.seqno := by
  have hraw := hf.raw_length
  obtain ⟨key, hdecrypt, hkey⟩ := decrypt_spec hf h hn hd hfit hlen hb
  refine ⟨_, hdecrypt, h.advance hf rfl (by omega) hkey, rfl, ?_, rfl⟩
  rw [← List.drop_drop]
  exact drop_of_append_eq hb hlen (by rw [List.length_drop]; omega)

section Body

variable {suite : Suite κ} {j : Nat}

theorem Midway.aligned (h : Midway (some suite) f n p) (hn : n < 4 + f.packetLength) :
    n % suite.cipher.blocksize = 0 := by
  rcases h.key with ⟨hpast, -⟩ | ⟨hmod, -⟩
  · omega
  · exact hmod

/-- A portion that reaches into the MAC. -/
theorem takePortion_mac (hf : f.Good (some suite)) (h : Midway (some suite) f n p)
    (hb : p.buf ++ rest = f.raw.drop n ++ later) (hlen : j ≤ p.buf.length) (hj : n + j ≤ f.raw.length)
    (hmac : 4 + f.packetLength < n + j) :
    ∃ p', takePortion suite p ((4 + f.packetLength : Int) - n) j = .next p' ∧ Midway (some suite) f (n + j) p' ∧
      p'.buf = p.buf.drop j ∧ p'.buf ++ rest = f.raw.drop (n + j) ++ later ∧ p'.seqno = p.seqno := by
  unfold takePortion
  by_cases hn : n < 4 + f.packetLength
  · obtain ⟨d, hd⟩ : ∃ d, n + d = 4 + f.packetLength := ⟨4 + f.packetLength - n, by omega⟩
    have hmod : d % suite.cipher.blocksize = 0 := by
      have haligned := (hf.cipherText suite rfl).2.2.1
      rw [← hd, Nat.add_mod, h.aligned hn, Nat.zero_add, Nat.mod_mod] at haligned
      exact haligned
    obtain ⟨p1, hdecrypt, hmid, hbuf, hrest, hseq⟩ := decrypt_midway hf h hn hmod (by omega) (by omega) hb
    have hlen1 : j - d ≤ p1.buf.length := by
      rw [hbuf, List.length_drop]
      omega
    obtain ⟨hmid', hrest'⟩ := copyPlain_spec hf hmid (.inr (by omega)) hlen1 (by omega) hrest
    have hdone : n + d + (j - d) = n + j := by omega
    rw [hdone] at hmid' hrest'
    refine ⟨copyPlain p1 (j - d), ?_, hmid', ?_, hrest', hseq⟩
    · have hfirst : ((4 + f.packetLength : Int) - n).toNat = d := by omega
      have hsecond : ((j : Int) - ((4 + f.packetLength : Int) - n)).toNat = j - d := by omega
      rw [if_pos (by omega), hfirst, hdecrypt]
      simp only [hsecond]
    · show p1.buf.drop (j - d) = p.buf.drop j
      rw [hbuf, List.drop_drop]
      congr 1
      omega
  · obtain ⟨hmid, hrest⟩ := copyPlain_spec hf h (.inr (by omega)) hlen hj hb
    refine ⟨copyPlain p j, ?_, hmid, rfl, hrest, rfl⟩
    rw [if_neg (by omega), Int.toNat_natCast]

/-- A portion before the MAC, with all the whole blocks that are there. -/
theorem takePortion_blocks {d : Nat} {m : Int} (hf : f.Good (some suite)) (h : Midway (some suite) f n p)
    (hb : p.buf ++ rest = f.raw.drop n ++ later) (hlen : d ≤ p.buf.length) (hd : d % suite.cipher.blocksize = 0)
    (hmac : n + d ≤ 4 + f.packetLength) (hm : m ≤ d) :
    ∃ p', takePortion suite p d m = .next p' ∧ Midway (some suite) f (n + d) p' ∧ p'.buf = p.buf.drop d ∧
      p'.buf ++ rest = f.raw.drop (n + d) ++ later ∧ p'.seqno = p.seqno := by
  have hcopy (q : Incoming κ) (k : Int) (hk : k ≤ 0) : copyPlain q k.toNat = q := by
    rw [Int.toNat_of_nonpos hk]
    simp [copyPlain]
  unfold takePortion
  by_cases hpos : 0 < d
  · obtain ⟨p1, hdecrypt, hmid, hbuf, hrest, hseq⟩ := decrypt_midway hf h (by omega) hd hmac hlen hb
    refine ⟨p1, ?_, hmid, hbuf, hrest, hseq⟩
    rw [if_pos (by omega), Int.toNat_natCast, hdecrypt]
    simp only
    rw [hcopy _ _ (by omega)]
  · obtain rfl : d = 0 := by omega
    refine ⟨p, ?_, h, rfl, hb, rfl⟩
    rw [if_neg (by omega), hcopy _ _ hm]

end Body

/-! ## What one round takes -/

theorem subSize_of_add (a b : Nat) (h : a + b < 2 ^ 64) : subSize (a + b) b = a := by
  unfold subSize
  omega

variable {suite : Suite κ} {j : Nat}

theorem Midway.numbytes_eq (hf : f.Good mode) (h : Midway mode f n p) :
    numbytes p = min p.buf.length (f.raw.length - n) := by
  have hraw := hf.raw_length
  have hpayload := h.payload_length hf
  have hstarted := h.started
  have hfive := hf.blocksize_pos
  have hmore := hf.more
  rw [numbytes, h.totalNum, hpayload]
  omega

/-- Where the MAC begins in the payload. -/
theorem Midway.mac_begins (hf : f.Good (some suite)) (h : Midway (some suite) f n p) :
    subSize p.totalNum suite.macLen = f.packetLength - 1 := by
  have htotal : p.totalNum = f.packetLength - 1 + suite.macLen := h.totalNum
  rw [htotal]
  apply subSize_of_add
  exact Nat.lt_of_le_of_lt hf.fits (by decide)

theorem Midway.portion_mac (hf : f.Good (some suite)) (h : Midway (some suite) f n p) (hj : numbytes p = j)
    (hmac : 4 + f.packetLength < n + j) : portion suite p = ((4 + f.packetLength : Int) - n, (j : Int)) := by
  have hstarted := h.started
  have hfive := hf.blocksize_pos
  have hmore := hf.more
  have htotal : p.totalNum = f.packetLength - 1 + suite.macLen := h.totalNum
  unfold portion
  rw [hj, h.mac_begins hf, h.payload_length hf, if_pos (by omega), htotal]
  congr 1
  omega

theorem Midway.portion_blocks (hf : f.Good (some suite)) (h : Midway (some suite) f n p) (hj : numbytes p = j)
    (hmac : n + j ≤ 4 + f.packetLength) :
    (portion suite p).1 = (j - j % suite.cipher.blocksize : Nat) ∧
      (portion suite p).2 ≤ (j - j % suite.cipher.blocksize : Nat) := by
  have hstarted := h.started
  have hfive := hf.blocksize_pos
  have hmore := hf.more
  have hle := Nat.mod_le j suite.cipher.blocksize
  unfold portion
  rw [hj, h.mac_begins hf, h.payload_length hf, if_neg (by omega)]
  dsimp only
  split
  next hzero => simp [hzero]
  next hzero =>
    constructor
    · simp only
      omega
    · simp

/-- One round takes all that it can: the rest of the packet, or all but a part of a block. -/
theorem readBody_spec {rest later : Bytes} (hf : f.Good mode) (h : Midway mode f n p)
    (hb : p.buf ++ rest = f.raw.drop n ++ later) :
    ∃ n' p', readBody mode p = .next p' ∧ Midway mode f n' p' ∧ p'.buf ++ rest = f.raw.drop n' ++ later ∧
      p'.seqno = p.seqno ∧ (n' = f.raw.length ∨
        (n' < f.raw.length ∧ p'.buf.length < mode.blocksize ∧ p'.buf.length < f.raw.length - n')) := by
  obtain ⟨j, hj⟩ : ∃ j, numbytes p = j := ⟨_, rfl⟩
  have hmin := hj.symm.trans (h.numbytes_eq hf)
  have hfive := hf.blocksize_pos
  have hinside := h.inside
  cases mode with
  | none =>
    obtain ⟨hmid, hrest⟩ := copyPlain_spec (j := j) hf h (.inl rfl) (by omega) (by omega) hb
    refine ⟨n + j, copyPlain p j, by rw [readBody, hj], hmid, hrest, rfl, ?_⟩
    have hbuf : (copyPlain p j).buf.length = p.buf.length - j := List.length_drop ..
    rw [hbuf]
    omega
  | some suite =>
    have hpos : 0 < suite.cipher.blocksize := Nat.lt_of_lt_of_le (by decide) hfive
    by_cases hmac : 4 + f.packetLength < n + j
    · obtain ⟨p', htake, hmid, hbuf, hrest, hseq⟩ := takePortion_mac hf h hb (by omega) (by omega) hmac
      refine ⟨n + j, p', ?_, hmid, hrest, hseq, ?_⟩
      · rw [readBody, h.portion_mac hf hj hmac, htake]
      · rw [hbuf, List.length_drop]
        omega
    · obtain ⟨r, hr⟩ : ∃ r, j % suite.cipher.blocksize = r := ⟨_, rfl⟩
      have hless : r < suite.cipher.blocksize := hr ▸ Nat.mod_lt j hpos
      have hle : r ≤ j := hr ▸ Nat.mod_le j suite.cipher.blocksize
      have hlen : j - r ≤ p.buf.length := by omega
      have hfit : n + (j - r) ≤ 4 + f.packetLength := by omega
      have hmod : (j - r) % suite.cipher.blocksize = 0 := by
        rw [← hr]
        exact Nat.sub_mod_eq_zero_of_mod_eq (Nat.mod_mod j _).symm
      obtain ⟨p', htake, hmid, hbuf, hrest, hseq⟩ : ∃ p', readBody (some suite) p = .next p' ∧
          Midway (some suite) f (n + (j - r)) p' ∧ p'.buf = p.buf.drop (j - r) ∧
            p'.buf ++ rest = f.raw.drop (n + (j - r)) ++ later ∧ p'.seqno = p.seqno := by
        obtain ⟨hone, htwo⟩ := h.portion_blocks hf hj (by omega)
        rw [hr] at hone htwo
        rw [readBody, hone]
        exact takePortion_blocks hf h hb hlen hmod hfit htwo
      refine ⟨n + (j - r), p', htake, hmid, hrest, hseq, ?_⟩
      -- If all of the packet is there, it ends with a whole block.
      have hwhole (hall : n + j = f.raw.length) : r = 0 := by
        have hraw := hf.raw_length
        by_cases hn : n = f.raw.length
        · omega
        have haligned := (hf.cipherText suite rfl).2.2.1
        have hend : 4 + f.packetLength = n + j := by omega
        rwa [hend, Nat.add_mod, h.aligned (by omega), Nat.zero_add, Nat.mod_mod, hr] at haligned
      have hsize : Mode.blocksize (some suite) = suite.cipher.blocksize := rfl
      rw [hbuf, List.length_drop, hsize]
      by_cases hall : n + j = f.raw.length
      · exact .inl (by rw [hwhole hall]; exact hall)
      · exact .inr (by omega)

section Head

variable {rest later : Bytes}

/-! ## The first block -/

theorem readLengths_spec (hf : f.Good mode) :
    readLengths mode (f.plain.take mode.blocksize) p =
      .next { p with
        packetLength := f.packetLength
        paddingLength := f.paddingLength
        totalNum := f.packetLength - 1 + mode.macLen
        payload := (f.plain.take mode.blocksize).drop 5 } := by
  have hfive := hf.blocksize_pos
  have hmore := hf.more
  have hlarge := hf.large
  have hfits := hf.fits
  have hlen : u32At (f.plain.take mode.blocksize) 0 = some f.packetLength := by
    rw [u32At_take _ _ _ (by omega), hf.packetLength]
  obtain ⟨padding, hpad, hpadding⟩ := Option.map_eq_some_iff.mp hf.paddingLength
  have hfifth : (f.plain.take mode.blocksize)[4]? = some padding := by
    rw [List.getElem?_take_of_lt (by omega), hpad]
  have hwide : f.packetLength - 1 + mode.macLen < 2 ^ 32 := Nat.lt_of_le_of_lt hfits (by decide)
  have htotal : u32 (f.packetLength - 1 + mode.macLen) = f.packetLength - 1 + mode.macLen := Nat.mod_eq_of_lt hwide
  unfold readLengths
  rw [hlen, hfifth]
  dsimp only
  rw [if_neg (by omega), htotal, if_neg (by omega), if_neg (by omega), hpadding]

theorem Frame.Good.first_block {suite : Suite κ} (hf : f.Good (some suite)) :
    ∃ key, suite.cipher.blocks 1 f.before f.raw = some (f.plain.take (Mode.blocksize (some suite)), key) ∧
      f.KeyAt (some suite) (Mode.blocksize (some suite)) key := by
  have hlarge : suite.cipher.blocksize ≤ 4 + f.packetLength := hf.large
  have hpos : 0 < suite.cipher.blocksize := Nat.lt_of_lt_of_le (by decide) hf.blocksize_pos
  obtain ⟨-, key, -, -, hblocks, hend⟩ := hf.blocks_at (a := 1) (b := 0) (by rw [Nat.one_mul]; exact hlarge)
  rw [Nat.add_zero, Nat.one_mul] at hblocks hend
  have hsize : Mode.blocksize (some suite) = suite.cipher.blocksize := rfl
  rw [hsize]
  refine ⟨key, hblocks, ?_⟩
  rcases Nat.lt_or_eq_of_le hlarge with hless | heq
  · exact .inr ⟨Nat.mod_self _, hless, by rw [Nat.div_self hpos]; exact hblocks⟩
  · exact .inl ⟨heq.ge, hend heq⟩

theorem readHead_spec (hf : f.Good mode) (htotal : p.totalNum = 0) (hkey : p.key = f.before)
    (hlen : mode.blocksize ≤ p.buf.length) (hb : p.buf ++ rest = f.raw ++ later) :
    ∃ p', readHead mode p = .next p' ∧ Midway mode f mode.blocksize p' ∧
      p'.buf ++ rest = f.raw.drop mode.blocksize ++ later ∧ p'.seqno = p.seqno := by
  have hraw := hf.raw_length
  have hplain := hf.length
  have hlarge := hf.large
  have hfive := hf.blocksize_pos
  have hreach : mode.blocksize ≤ f.raw.length := by omega
  have hwhole : (f.plain.take mode.blocksize).drop 5 = (f.whole.take mode.blocksize).drop 5 := by
    rw [Frame.whole, List.take_append_of_le_length (by omega)]
  have hrest := drop_of_append_eq hb hlen hreach
  have hsame := take_of_append_eq hb hlen hreach
  unfold readHead
  rw [if_neg (by simpa using htotal), if_neg (by omega)]
  cases mode with
  | none =>
    rw [(hf.plainText rfl).1] at hsame
    dsimp only
    rw [hsame, readLengths_spec hf]
    exact ⟨_, rfl, ⟨Nat.le_refl _, hreach, rfl, rfl, rfl, hwhole, nofun, hkey⟩, hrest, rfl⟩
  | some suite =>
    obtain ⟨key, hblocks, hkeyAt⟩ := hf.first_block
    have htaken (text : Bytes) (h : Mode.blocksize (some suite) ≤ text.length) (key : κ) :
        suite.cipher.blocks 1 key (text.take (Mode.blocksize (some suite))) = suite.cipher.blocks 1 key text := by
      have hone : 1 * suite.cipher.blocksize ≤ text.length := by rwa [Nat.one_mul]
      have htake := blocks_take (k := key) hone
      rwa [Nat.one_mul] at htake
    have hbuf : suite.cipher.blocks 1 p.key p.buf = some (f.plain.take (Mode.blocksize (some suite)), key) := by
      rw [hkey, ← htaken _ hlen, hsame, htaken _ hreach, hblocks]
    dsimp only
    rw [hbuf]
    dsimp only
    rw [readLengths_spec hf]
    refine ⟨_, rfl, ⟨Nat.le_refl _, hreach, rfl, rfl, rfl, hwhole, fun _ => ?_, hkeyAt⟩, hrest, rfl⟩
    exact (List.take_take ..).trans (by rw [Nat.min_eq_left hfive])
end Head

/-! ## The whole packet -/

/-- What the packet is for: its payload, without the padding. -/
def Frame.data (f : Frame κ) : Bytes := (f.plain.drop 5).take (f.packetLength - 1 - f.paddingLength)

/-- The padding leaves room for a type. -/
def Frame.Typed (f : Frame κ) : Prop := f.paddingLength + 1 < f.packetLength

/-- The MAC is right for the packet's number. -/
def Frame.macOk (mode : Mode κ) (seqno : Nat) (f : Frame κ) : Bool :=
  mode.elim true fun suite => suite.hash seqno f.plain = f.mac

theorem Midway.whole_payload (hf : f.Good mode) (h : Midway mode f f.raw.length p) :
    p.payload = f.plain.drop 5 ++ f.mac := by
  have hplain := hf.length
  have hmore := hf.more
  rw [h.payload, ← hf.whole_length, List.take_length, Frame.whole, List.drop_append_of_le_length (by omega)]

theorem Midway.end_key (hf : f.Good mode) (h : Midway mode f f.raw.length p) : p.key = f.after := by
  have hkey := h.key
  cases mode with
  | none => exact hkey.trans (hf.plainText rfl).2.symm
  | some suite =>
    rcases hkey with ⟨-, hkey⟩ | ⟨-, hless, -⟩
    · exact hkey
    · have hraw := hf.raw_length
      omega

theorem fullpacket_spec (hf : f.Good mode) (htyped : f.Typed) (h : Midway mode f f.raw.length p)
    (socket : List Recv) :
    fullpacket mode p socket = .packet p.payload (f.packetLength - 1 - f.paddingLength) (f.macOk mode p.seqno)
        { p with seqno := u32 (p.seqno + 1), totalNum := 0 } socket ∧
      p.payload.take (f.packetLength - 1 - f.paddingLength) = f.data ∧ f.data ≠ [] ∧
        f.packetLength - 1 - f.paddingLength ≤ p.payload.length := by
  have hpayload := h.whole_payload hf
  have hplain : (f.plain.drop 5).length = f.packetLength - 1 := by
    rw [List.length_drop, hf.length]
    omega
  have hmac := hf.macLength
  have hpadding : f.paddingLength + 1 < f.packetLength := htyped
  have hfits := hf.fits
  have hlen : p.payload.length = f.packetLength - 1 + mode.macLen := by
    rw [hpayload, List.length_append, hplain, hmac]
  have hsub : subSize (f.packetLength - 1) f.paddingLength = f.packetLength - 1 - f.paddingLength := by
    obtain ⟨k, hk⟩ : ∃ k, f.packetLength - 1 = k + f.paddingLength :=
      ⟨f.packetLength - 1 - f.paddingLength, by omega⟩
    have hsmall : k + f.paddingLength < 2 ^ 64 := by
      apply Nat.lt_of_le_of_lt _ (show maxPayload < 2 ^ 64 by decide)
      omega
    rw [hk, subSize_of_add _ _ hsmall, Nat.add_sub_cancel]
  have htake : p.payload.take (f.packetLength - 1) = f.plain.drop 5 := by
    rw [hpayload, List.take_left' hplain]
  have hdrop : p.payload.drop (f.packetLength - 1) = f.mac := by
    rw [hpayload, List.drop_left' hplain]
  have hok : (mode.elim true fun suite =>
      decide (suite.hash p.seqno (p.init ++ p.payload.take (f.packetLength - 1)) =
        (p.payload.drop (f.packetLength - 1)).take suite.macLen)) = f.macOk mode p.seqno := by
    cases mode with
    | none => rfl
    | some suite =>
      have hwhole : p.init ++ f.plain.drop 5 = f.plain := by
        rw [h.init (by simp), List.take_append_drop]
      have hall : f.mac.take suite.macLen = f.mac := List.take_of_length_le hmac.le
      rw [htake, hdrop]
      show decide (suite.hash p.seqno (p.init ++ f.plain.drop 5) = f.mac.take suite.macLen) = _
      rw [hwhole, hall]
      rfl
  have hne : p.payload ≠ [] := by
    intro hnil
    rw [hnil, List.length_nil] at hlen
    omega
  have hdata : p.payload.take (f.packetLength - 1 - f.paddingLength) = f.data := by
    rw [hpayload, List.take_append_of_le_length (by omega)]
    rfl
  refine ⟨?_, hdata, ?_, by omega⟩
  · unfold fullpacket
    rw [h.packetLength, h.paddingLength]
    dsimp only
    rw [if_neg (by simp only [not_or]; exact ⟨by omega, hne⟩), hsub, hok]
  · rw [← hdata]
    intro hnil
    have := congrArg List.length hnil
    rw [List.length_take, List.length_nil] at this
    omega

end Frame
end RemoteSsh.Ssh
