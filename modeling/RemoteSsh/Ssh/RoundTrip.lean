import RemoteSsh.Ssh.Socket

/-!
# From one side's packets to the other's

What `_libssh2_transport_send` writes is a stream of packets, however little of a packet the socket takes at a time.
The other side reads these packets from it.
-/

open Lib

namespace RemoteSsh.Ssh

section RoundTrip

variable {κ : Type}

/-! ## The methods of the two sides -/

def maxBlocksize : Nat := 32

def maxMacSize : Nat := 64

/-- `dec` takes apart what `enc` puts together. -/
structure Suite.Opens (dec enc : Suite κ) : Prop where
  undoes : dec.cipher.Undoes enc.cipher
  keepsLength : dec.cipher.KeepsLength
  large : 5 ≤ enc.cipher.blocksize
  small : enc.cipher.blocksize ≤ maxBlocksize
  macLen : dec.macLen = enc.macLen
  hash : dec.hash = enc.hash
  hashLength : ∀ seqno plain, (enc.hash seqno plain).length = enc.macLen
  macSmall : enc.macLen ≤ maxMacSize

inductive Opens : Mode κ → Mode κ → Prop
  | plain : Opens none none
  | keys (dec enc : Suite κ) (h : dec.Opens enc) : Opens (some dec) (some enc)

variable {dec enc : Mode κ} {random : Nat → UInt8} {data : Bytes} {size : Nat}

theorem Opens.outBlocksize (h : Opens dec enc) : 5 ≤ enc.outBlocksize ∧ enc.outBlocksize ≤ maxBlocksize := by
  cases h with
  | plain => exact ⟨show 5 ≤ 8 by decide, show 8 ≤ 32 by decide⟩
  | keys dec enc h => exact ⟨h.large, h.small⟩

theorem Opens.blocksize (h : Opens dec enc) : 0 < dec.blocksize ∧ dec.blocksize ≤ enc.outBlocksize := by
  cases h with
  | plain => exact ⟨show 0 < 5 by decide, show 5 ≤ 8 by decide⟩
  | keys dec enc h =>
    have hsize : dec.cipher.blocksize = enc.cipher.blocksize := h.undoes.1
    have hlarge := h.large
    have hone : Mode.blocksize (some dec) = dec.cipher.blocksize := rfl
    have htwo : Mode.outBlocksize (some enc) = enc.cipher.blocksize := rfl
    omega

theorem Opens.macLen (h : Opens dec enc) : dec.macLen ≤ maxMacSize := by
  cases h with
  | plain => exact Nat.zero_le _
  | keys dec enc h =>
    show dec.macLen ≤ maxMacSize
    rw [h.macLen]
    exact h.macSmall

/-! ## The layout of a packet -/

theorem paddingLength_bounds (h : 5 ≤ size) (n : Nat) :
    4 ≤ paddingLength size n ∧ paddingLength size n ≤ size + 3 := by
  have hmod := Nat.mod_lt (n + 5) (show 0 < size by omega)
  unfold paddingLength
  dsimp only
  split
  · omega
  · omega

/-- The padding fills the last block. -/
theorem paddingLength_fills (h : 0 < size) (n : Nat) : (n + 5 + paddingLength size n) % size = 0 := by
  have hmod := Nat.mod_lt (n + 5) h
  have hdiv := Nat.div_add_mod (n + 5) size
  unfold paddingLength
  dsimp only
  split
  · have hsum : n + 5 + (size - (n + 5) % size + size) =
        size * ((n + 5) / size + 2) := by
      rw [Nat.mul_add]
      omega
    rw [hsum, Nat.mul_mod_right]
  · have hsum : n + 5 + (size - (n + 5) % size) = size * ((n + 5) / size + 1) := by
      rw [Nat.mul_add]
      omega
    rw [hsum, Nat.mul_mod_right]

theorem layout_length (random : Nat → UInt8) (size : Nat) (data : Bytes) :
    (layout random size data).length = data.length + 5 + paddingLength size data.length := by
  simp only [layout, List.length_append, List.length_cons, htonu32_length, List.length_map, List.length_range]
  omega

/-- The packet that is sent for some data. -/
def frameOf (size : Nat) (data raw plain mac : Bytes) (before after : κ) : Frame κ where
  raw := raw
  plain := plain
  mac := mac
  packetLength := data.length + 1 + paddingLength size data.length
  paddingLength := paddingLength size data.length
  before := before
  after := after

theorem frameOf_data (raw mac : Bytes) (before after : κ) :
    (frameOf size data raw (layout random size data) mac before after).data = data := by
  have hfour : (htonu32 (data.length + 5 + paddingLength size data.length - 4)).length = 4 := rfl
  have hlen : data.length + 1 + paddingLength size data.length - 1 - paddingLength size data.length =
      data.length := by omega
  simp only [Frame.data, frameOf, layout, hlen]
  rw [List.drop_append, hfour, List.drop_eq_nil_of_le (by rw [hfour]; omega), List.nil_append, List.drop_succ_cons,
    List.drop_zero, List.take_left]

/-- What the layout says about itself. -/
theorem layout_lengths (random : Nat → UInt8) (hpos : 5 ≤ size) (hsize : size ≤ maxBlocksize)
    (hlen : data.length < maxSshPacketLen) :
    u32At (layout random size data) 0 = some (data.length + 1 + paddingLength size data.length) ∧
      (layout random size data)[4]?.map UInt8.toNat = some (paddingLength size data.length) := by
  have hbounds := paddingLength_bounds hpos data.length
  have hlimits : maxSshPacketLen = 35000 ∧ maxBlocksize = 32 := ⟨rfl, rfl⟩
  have hsub : data.length + 5 + paddingLength size data.length - 4 =
      data.length + 1 + paddingLength size data.length := by omega
  unfold layout
  dsimp only
  rw [hsub]
  constructor
  · rw [u32At, List.drop_zero, ntohu32_htonu32 _ _ (by omega)]
  · rw [List.getElem?_append_right (Nat.le_refl 4)]
    show some (UInt8.ofNat (paddingLength size data.length)).toNat = _
    rw [UInt8.toNat_ofNat', Nat.mod_eq_of_lt (by omega)]

theorem frameOf_good {raw mac : Bytes} {before after : κ} (h : Opens dec enc)
    (hlen : data.length < maxSshPacketLen - 0x100) (hmac : mac.length = dec.macLen)
    (hplain : dec = none → raw = layout random enc.outBlocksize data ∧ after = before)
    (hcipher : ∀ suite, dec = some suite → suite.cipher.KeepsLength ∧ 5 ≤ suite.cipher.blocksize ∧
      (layout random enc.outBlocksize data).length % suite.cipher.blocksize = 0 ∧
        ∃ body, raw = body ++ mac ∧ body.length = (layout random enc.outBlocksize data).length ∧
          suite.cipher.blocks ((layout random enc.outBlocksize data).length / suite.cipher.blocksize) before body =
            some (layout random enc.outBlocksize data, after)) :
    (frameOf enc.outBlocksize data raw (layout random enc.outBlocksize data) mac before after).Good dec := by
  have hsizes := h.outBlocksize
  have hreads := h.blocksize.2
  have hmacLen := h.macLen
  have hlayout := layout_length random enc.outBlocksize data
  have hbounds := paddingLength_bounds hsizes.1 data.length
  have hlimits : maxSshPacketLen = 35000 ∧ maxBlocksize = 32 ∧ maxMacSize = 64 ∧ maxPayload = 40000 :=
    ⟨rfl, rfl, rfl, rfl⟩
  have hwhole : 4 + (data.length + 1 + paddingLength enc.outBlocksize data.length) =
      (layout random enc.outBlocksize data).length := by omega
  have hfills := paddingLength_fills (show 0 < enc.outBlocksize by omega) data.length
  have hle : enc.outBlocksize ≤ data.length + 5 + paddingLength enc.outBlocksize data.length :=
    Nat.le_of_dvd (by omega) (Nat.dvd_of_mod_eq_zero hfills)
  obtain ⟨hpacket, hpadding⟩ := layout_lengths random hsizes.1 hsizes.2 (show data.length < _ by omega)
  refine ⟨hwhole.symm, hmac, hpacket, hpadding, ?_, ?_, ?_, hplain, fun suite hsuite => ?_⟩
  · show 2 ≤ data.length + 1 + paddingLength enc.outBlocksize data.length
    omega
  · show data.length + 1 + paddingLength enc.outBlocksize data.length - 1 + dec.macLen ≤ maxPayload
    omega
  · show dec.blocksize ≤ 4 + (data.length + 1 + paddingLength enc.outBlocksize data.length)
    omega
  · obtain ⟨hkeeps, hlarge, haligned, body, hraw, hbody, hblocks⟩ := hcipher suite hsuite
    rw [← hwhole] at haligned hbody hblocks
    exact ⟨hkeeps, hlarge, haligned, body, hraw, hbody, hblocks⟩

/-- What is sent is what the other side can take apart. -/
theorem sealPacket_spec (random : Nat → UInt8) (h : Opens dec enc) (seqno : Nat) (key : κ) (hdata : data ≠ [])
    (hlen : data.length < maxSshPacketLen - 0x100) :
    ∃ f : Frame κ, sealPacket enc seqno key (layout random enc.outBlocksize data) = some (f.raw, f.after) ∧
      f.Good dec ∧ f.Typed ∧ f.macOk dec seqno = true ∧ f.before = key ∧ f.data = data := by
  have hpos : 0 < data.length := List.length_pos_iff.mpr hdata
  have hpadding : paddingLength enc.outBlocksize data.length + 1 <
      data.length + 1 + paddingLength enc.outBlocksize data.length := by omega
  obtain ⟨plain, hplain⟩ : ∃ plain, layout random enc.outBlocksize data = plain := ⟨_, rfl⟩
  have hlayout := layout_length random enc.outBlocksize data
  have hgood := @frameOf_good κ dec enc random data
  rw [hplain] at hlayout
  cases h with
  | plain =>
    refine ⟨frameOf 8 data plain plain [] key key, ?_, ?_, hpadding, rfl, rfl, ?_⟩
    · rw [hplain]
      rfl
    · rw [← hplain]
      exact hgood .plain hlen rfl (fun _ => ⟨rfl, rfl⟩) nofun
    · rw [← hplain]
      exact frameOf_data ..
  | keys dec enc h =>
    have hlarge := h.large
    have hsize : dec.cipher.blocksize = enc.cipher.blocksize := h.undoes.1
    have hfills := paddingLength_fills (show 0 < enc.cipher.blocksize by omega) data.length
    have hout : Mode.outBlocksize (some enc) = enc.cipher.blocksize := rfl
    rw [hout] at hlayout
    rw [← hlayout] at hfills
    have hwhole := Nat.div_mul_cancel (Nat.dvd_of_mod_eq_zero hfills)
    obtain ⟨body, after, henc, hbody, hdec⟩ := blocks_undone (k := key) h.undoes hwhole.symm
    rw [hwhole] at hbody
    refine ⟨frameOf enc.cipher.blocksize data (body ++ enc.hash seqno plain) plain (enc.hash seqno plain) key after,
      ?_, ?_, hpadding, ?_, rfl, ?_⟩
    · rw [hplain, sealPacket, henc]
      rfl
    · rw [← hplain]
      refine hgood (.keys dec enc h) hlen ?_ nofun fun suite hsuite => ?_
      · rw [h.hashLength]
        exact h.macLen.symm
      · obtain rfl : dec = suite := Option.some.inj hsuite
        rw [hplain, hsize]
        exact ⟨h.keepsLength, hlarge, hfills, body, rfl, hbody, hdec⟩
    · show decide (dec.hash seqno plain = enc.hash seqno plain) = true
      rw [h.hash]
      exact decide_eq_true rfl
    · rw [← hplain]
      exact frameOf_data ..

/-! ## One call of the sender -/

def Areas.whole (areas : Areas) : Bytes := areas.data ++ areas.data2

/-- The packet as the other side gets it. -/
def Areas.arrival (areas : Areas) : Arrival := ⟨areas.whole, true, 0⟩

/-- What a packet must be for `_libssh2_transport_send` to take it. Its first area is not empty. -/
def Areas.Fits (areas : Areas) : Prop := areas.data ≠ [] ∧ areas.whole.length < maxSshPacketLen - 0x100

instance (areas : Areas) : Decidable areas.Fits := inferInstanceAs (Decidable (_ ∧ _))

/-- What is not sent yet. -/
def Outgoing.left (out : Outgoing κ) : Bytes := out.outbuf.drop out.osent

/-- A part of the packet is still to be sent. -/
structure Pending (out : Outgoing κ) (areas : Areas) : Prop where
  odata : areas.address = out.odata
  olen : out.olen = areas.data.length

/-- What a call leaves to do of the bytes that are due. -/
def Sends (areas : Areas) (due : Bytes) (r : Int × Outgoing κ × Bytes) : Prop :=
  (r.1 = 0 ∧ r.2.1.olen = 0 ∧ r.2.2 = due) ∨ (r.1 = errorEagain ∧ Pending r.2.1 areas ∧ r.2.2 ++ r.2.1.left = due)

variable {out : Outgoing κ} {areas : Areas} {sent : Sent}

theorem sends_pending (enc : Mode κ) (random : Nat → UInt8) (hfits : areas.Fits) (hsent : sent ≠ .failed)
    (h : Pending out areas) :
    ∃ r, transportSendTo enc random out areas sent = r ∧ Sends areas out.left r ∧ r.2.1.key = out.key ∧
      r.2.1.seqno = out.seqno := by
  have hpos : 0 < areas.data.length := List.length_pos_iff.mpr hfits.1
  have holen := h.olen
  refine ⟨_, rfl, ?_⟩
  unfold transportSendTo sendExisting
  rw [if_neg (by omega), if_neg (by simp [h.odata, holen])]
  cases sent with
  | failed => exact absurd rfl hsent
  | again => exact ⟨.inr ⟨rfl, h, rfl⟩, rfl, rfl⟩
  | wrote n =>
    dsimp only
    by_cases hall : (out.outbuf.drop out.osent).length ≤ n
    · rw [if_pos hall]
      exact ⟨.inl ⟨rfl, rfl, rfl⟩, rfl, rfl⟩
    · rw [if_neg hall]
      refine ⟨.inr ⟨rfl, ⟨h.odata, h.olen⟩, ?_⟩, rfl, rfl⟩
      simp only [Outgoing.left, ← List.drop_drop, List.take_append_drop]

theorem sends_new (random : Nat → UInt8) (hopens : Opens dec enc) (hfits : areas.Fits) (hsent : sent ≠ .failed)
    (hidle : out.olen = 0) :
    ∃ (f : Frame κ) (r : Int × Outgoing κ × Bytes), transportSendTo enc random out areas sent = r ∧
      Sends areas f.raw r ∧ r.2.1.key = f.after ∧ r.2.1.seqno = u32 (out.seqno + 1) ∧ f.Good dec ∧ f.Typed ∧
        f.before = out.key ∧ f.arrival dec out.seqno = areas.arrival := by
  have hne : areas.whole ≠ [] := fun hnil => hfits.1 (List.append_eq_nil_iff.mp hnil).1
  obtain ⟨f, hseal, hgood, htyped, hmac, hbefore, hdata⟩ :=
    sealPacket_spec random hopens out.seqno out.key hne hfits.2
  have harrival : f.arrival dec out.seqno = areas.arrival := by rw [Frame.arrival, hdata, hmac, Areas.arrival]
  have hshort := hfits.2
  rw [Areas.whole, List.length_append] at hshort
  refine ⟨f, _, rfl, ?_⟩
  unfold transportSendTo sendExisting
  rw [if_pos hidle]
  dsimp only
  rw [if_neg (by omega)]
  rw [Areas.whole] at hseal
  rw [hseal]
  cases sent with
  | failed => exact absurd rfl hsent
  | again => exact ⟨.inr ⟨rfl, ⟨rfl, rfl⟩, rfl⟩, rfl, rfl, hgood, htyped, hbefore, harrival⟩
  | wrote n =>
    dsimp only
    by_cases hall : f.raw.length ≤ n
    · rw [if_pos hall]
      exact ⟨.inl ⟨rfl, rfl, rfl⟩, rfl, rfl, hgood, htyped, hbefore, harrival⟩
    · rw [if_neg hall]
      exact ⟨.inr ⟨rfl, ⟨rfl, rfl⟩, List.take_append_drop n f.raw⟩, rfl, rfl, hgood, htyped, hbefore, harrival⟩

/-! ## All packets -/

/-- Sends packets one after the other. A packet that would block is sent again with the same areas. Each call has its
own random bytes. Returns what went to the socket, and the packets that are left. -/
def sendAll (mode : Mode κ) : Outgoing κ → List Areas → List ((Nat → UInt8) × Sent) → Bytes × List Areas
  | _, [], _ => ([], [])
  | _, areas :: packets, [] => ([], areas :: packets)
  | out, areas :: packets, call :: calls =>
    let (rc, out', bytes) := transportSendTo mode call.1 out areas call.2
    if rc = errorEagain then
      let r := sendAll mode out' (areas :: packets) calls
      (bytes ++ r.1, r.2)
    else if rc = 0 then
      let r := sendAll mode out' packets calls
      (bytes ++ r.1, r.2)
    else (bytes, areas :: packets)

/-- The packets that are due: those of a stream, behind what is left of the one before. -/
def Due (dec : Mode κ) (out : Outgoing κ) (packets : List Areas) (bytes : Bytes) : Prop :=
  (out.olen = 0 → ∃ fs, Chained dec out.key out.seqno fs ∧ arrivalsOf dec out.seqno fs = packets.map Areas.arrival ∧
    bytes = fs.flatMap Frame.raw) ∧
  ∀ areas rest, packets = areas :: rest → Pending out areas →
    ∃ fs, Chained dec out.key out.seqno fs ∧ arrivalsOf dec out.seqno fs = rest.map Areas.arrival ∧
      bytes = out.left ++ fs.flatMap Frame.raw

theorem sendAll_spec {packets : List Areas} {calls : List ((Nat → UInt8) × Sent)} {bytes : Bytes}
    (hopens : Opens dec enc) (hfits : ∀ areas ∈ packets, areas.Fits) (hcalls : ∀ call ∈ calls, call.2 ≠ .failed)
    (hsend : sendAll enc out packets calls = (bytes, [])) : Due dec out packets bytes := by
  induction calls generalizing out packets bytes with
  | nil =>
    cases packets with
    | nil =>
      simp only [sendAll, Prod.mk.injEq, and_true] at hsend
      exact ⟨fun _ => ⟨[], trivial, rfl, hsend.symm⟩, nofun⟩
    | cons areas packets => cases hsend
  | cons call calls ih =>
    cases packets with
    | nil =>
      simp only [sendAll, Prod.mk.injEq, and_true] at hsend
      exact ⟨fun _ => ⟨[], trivial, rfl, hsend.symm⟩, nofun⟩
    | cons areas packets =>
      have hone := hfits areas (List.mem_cons_self ..)
      have hrest : ∀ areas ∈ packets, areas.Fits := fun a ha => hfits a (List.mem_cons_of_mem _ ha)
      have hcall := hcalls call (List.mem_cons_self ..)
      have hmore : ∀ call ∈ calls, call.2 ≠ .failed := fun a ha => hcalls a (List.mem_cons_of_mem _ ha)
      -- What follows the bytes that are due of the first packet.
      have hnext {due : Bytes} {r : Int × Outgoing κ × Bytes}
          (hr : transportSendTo enc call.1 out areas call.2 = r) (hsends : Sends areas due r) :
          ∃ fs, Chained dec r.2.1.key r.2.1.seqno fs ∧ arrivalsOf dec r.2.1.seqno fs = packets.map Areas.arrival ∧
            bytes = due ++ fs.flatMap Frame.raw := by
        obtain ⟨rc, out', part⟩ := r
        unfold sendAll at hsend
        rw [hr] at hsend
        dsimp only at hsend
        rcases hsends with ⟨rfl, holen, rfl⟩ | ⟨rfl, hpending, hleft⟩
        · rw [if_neg (by decide), if_pos rfl] at hsend
          obtain ⟨rfl, hdone⟩ := Prod.mk.inj hsend
          obtain ⟨more, hrun⟩ : ∃ more, sendAll enc out' packets calls = (more, []) := ⟨_, Prod.ext rfl hdone⟩
          obtain ⟨fs, hchain, hdata, hraw⟩ := (ih hrest hmore hrun).1 holen
          exact ⟨fs, hchain, hdata, by rw [hrun, hraw]⟩
        · rw [if_pos rfl] at hsend
          obtain ⟨rfl, hdone⟩ := Prod.mk.inj hsend
          obtain ⟨more, hrun⟩ : ∃ more, sendAll enc out' (areas :: packets) calls = (more, []) :=
            ⟨_, Prod.ext rfl hdone⟩
          obtain ⟨fs, hchain, hdata, hraw⟩ := (ih hfits hmore hrun).2 areas packets rfl hpending
          exact ⟨fs, hchain, hdata, by rw [hrun, hraw, ← List.append_assoc, hleft]⟩
      constructor
      · intro hidle
        obtain ⟨f, r, hr, hsends, hkey, hseqno, hgood, htyped, hbefore, harrival⟩ :=
          sends_new call.1 hopens hone hcall hidle
        obtain ⟨fs, hchain, hall, hbytes⟩ := hnext hr hsends
        rw [hkey, hseqno] at hchain
        rw [hseqno] at hall
        exact ⟨f :: fs, ⟨hgood, htyped, hbefore, hchain⟩, by rw [arrivalsOf, harrival, hall, List.map_cons], hbytes⟩
      · rintro _ _ ⟨⟩ hpending
        obtain ⟨r, hr, hsends, hkey, hseqno⟩ := sends_pending enc call.1 hone hcall hpending
        obtain ⟨fs, hchain, hall, hbytes⟩ := hnext hr hsends
        rw [hkey, hseqno] at hchain
        rw [hseqno] at hall
        exact ⟨fs, hchain, hall, hbytes⟩

def Outgoing.fresh (key : κ) (seqno : Nat) : Outgoing κ := ⟨0, 0, [], 0, seqno, key⟩

/-- However little the socket takes at a time, and however it cuts what it gives, the session is given the packets that
were sent. -/
theorem packets_arrive {packets : List Areas} {sends : List ((Nat → UInt8) × Sent)} {bytes : Bytes} {s : Session}
    {socket : List Recv} {fuel calls : Nat} (hopens : Opens dec enc) (hidle : out.olen = 0)
    (hfits : ∀ areas ∈ packets, areas.Fits) (hsends : ∀ call ∈ sends, call.2 ≠ .failed)
    (hsent : sendAll enc out packets sends = (bytes, [])) (hsteady : Steady socket) (hbytes : incoming socket = bytes)
    (hfuel : turns socket + 1 < fuel) (hcalls : turns socket + packets.length < calls) :
    drainFrom dec fuel calls s (.fresh out.key out.seqno) socket =
      (drain s (packets.map Areas.arrival)).map fun r => (r.1, r.2.1) := by
  obtain ⟨fs, hchain, harrivals, hraw⟩ := (sendAll_spec hopens hfits hsends hsent).1 hidle
  have hsizes := hopens.blocksize
  have hlimit : enc.outBlocksize ≤ packetBufSize := hopens.outBlocksize.2.trans (by decide)
  have hlength : fs.length = packets.length := by
    rw [← arrivalsOf_length dec out.seqno fs, harrivals, List.length_map]
  rw [← harrivals]
  exact stream_drained hchain hsizes.1 (hsizes.2.trans hlimit) hsteady (hbytes.trans hraw) hfuel (by omega)

theorem methodsNone_opens : methodsNone.Opens methodsNone where
  undoes := ⟨rfl, fun key block hlen => ⟨block, key, rfl, hlen, rfl⟩⟩
  keepsLength := fun _ _ _ _ hcrypt => by rw [(Prod.mk.inj (Option.some.inj hcrypt)).1]
  large := by decide
  small := by decide
  macLen := rfl
  hash := rfl
  hashLength := fun _ _ => rfl
  macSmall := by decide

def twoPackets : List Areas := [⟨1, [5, 1], [2]⟩, ⟨1, [6], []⟩]

/-- The socket takes 3 bytes, then none, then all that is there. -/
def twoSends : List ((Nat → UInt8) × Sent) :=
  [(fun _ => 7, .wrote 3), (fun _ => 8, .again), (fun _ => 9, .wrote 100), (fun _ => 10, .wrote 100)]

def twoBytes : Bytes := (sendAll (some methodsNone) (.fresh () 0) twoPackets twoSends).1

/-- The first packet comes in two parts, and the second part has the first bytes of the second packet. -/
def twoParts : List Recv :=
  [.again, .data (twoBytes.take 10), .data ((twoBytes.drop 10).take 12), .again, .data (twoBytes.drop 22)]

theorem packets_arrive_two :
    (drainFrom (some methodsNone) 40 40 .fresh (.fresh () 0) twoParts).map (fun r => r.1.packets.map Packet.data) =
      some [[5, 1, 2], [6]] := by
  have hsent : sendAll (some methodsNone) (.fresh () 0) twoPackets twoSends = (twoBytes, []) := by decide +kernel
  have hsteady : Steady twoParts := by decide +kernel
  have harrive : drainFrom (some methodsNone) 40 40 .fresh (.fresh () 0) twoParts =
      (drain .fresh (twoPackets.map Areas.arrival)).map fun r => (r.1, r.2.1) :=
    packets_arrive (.keys _ _ methodsNone_opens) rfl (by decide) (by simp [twoSends]) hsent hsteady
      (by decide +kernel) (by decide +kernel) (by decide +kernel)
  rw [harrive]
  decide +kernel

end RoundTrip

end RemoteSsh.Ssh
