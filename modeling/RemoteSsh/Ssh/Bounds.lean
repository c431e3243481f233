import RemoteSsh.Ssh.Runs

/-!
# Packets that are too short for their own lengths

The lengths inside a packet are the server's. Here is exactly which packets make `_libssh2_packet_add` read
past their end.
-/

open Lib

namespace RemoteSsh.Ssh

/-! ## The lengths of a packet -/

/-- A channel request whose name is `name`, for a channel that is open. -/
def namedRequest (s : Session) (data : Bytes) (name : String) : Bool :=
  (data.drop 9).take 11 = ascii name ∧ ((u32At data 1).bind s.channelLocate).isSome

/-- A request that names an exit status or an exit signal and ends too early for it. -/
def exitOverread (s : Session) (data : Bytes) : Bool :=
  data.length < 20 ∨ (namedRequest s data "exit-status" ∧ data.length < 25) ∨
    (namedRequest s data "exit-signal" ∧ data.length < 25 + (u32At data 21).getD 0)

/-- The lengths of an opening by the server, in order. -/
def forwardedOverread (data : Bytes) : Bool :=
  data.length < 36 ∨ data.length < 44 + (u32At data 32).getD 0 ∨
    data.length < 48 + (u32At data 32).getD 0 + (u32At data (40 + (u32At data 32).getD 0)).getD 0

def x11Overread (data : Bytes) : Bool := data.length < 24 ∨ data.length < 28 + (u32At data 20).getD 0

/-- The packets whose own lengths point past their end. -/
def overread (s : Session) (data : Bytes) : Bool :=
  match data.head? with
  | none => true
  | some type =>
    match Msg.ofByte type with
    | .disconnect => 9 ≤ data.length ∧ data.length < 13
    | .debug => 6 ≤ data.length ∧ data.length < 10
    | .globalRequest => u32At data 1 = some (2 ^ 32 - 6)
    | .channelOpen =>
      17 ≤ data.length ∧ ((opens data (ascii "forwarded-tcpip") ∧ forwardedOverread data) ∨
        (opens data (ascii "x11") ∧ x11Overread data))
    | .channelRequest =>
      9 ≤ data.length ∧ ((data.length = 9 ∧ (u32At data 5).getD 0 + 9 < 2 ^ 32) ∨
        (u32At data 5 = some 11 ∧ exitOverread s data))
    | _ => false

section None

variable {s : Session} {data : Bytes} {sendRc : Int}

end None

/-! ## Runs that stay inside -/

/-- A packet that is long enough in every session, also as the answer to an opening. -/
structure WellFormed (data : Bytes) : Prop where
  small : data.length < 2 ^ 32
  inside : ∀ s, overread s data = false
  confirmation : data.head? = some 91 → 17 ≤ data.length
  failure : data.head? = some 92 → 9 ≤ data.length

/-- The answers that are queued are long enough. -/
def QueueOk (s : Session) : Prop :=
  ∀ p ∈ s.packets, (p.data.head? = some 91 → 17 ≤ p.data.length) ∧ (p.data.head? = some 92 → 9 ≤ p.data.length)

section Safe

variable {s s' : Session} {rc : Int} {id : Nat} {arrivals rest : List Arrival}

def Live (id : Nat) (s : Session) : Prop := id ∈ s.channels.map Channel.localId

theorem Live.locate (h : Live id s) : ∃ c, s.channelLocate id = some c :=
  Option.isSome_iff_exists.mp (locate_isSome.mpr h)

theorem Live.setChannel {d : Channel} (h : Live id s) : Live id (s.setChannel d) := by
  unfold Live
  rw [setChannel_ids]
  exact h

theorem Live.transportSend (h : Live id s) (packet : Bytes) : Live id (s.transportSend 0 packet) := by
  rw [transportSend_zero]
  exact h

theorem Live.widened {c : Channel} {n : Nat} (h : Live id s) : Live id (s.widened c n) := h.setChannel.transportSend _

theorem added_ids {data : Bytes} (h : Added s data s') :
    s'.channels.map Channel.localId = s.channels.map Channel.localId := by
  cases h with
  | same extra hcore _ _ => exact hcore.ids
  | refunded d n hcore _ _ _ => exact hcore.ids
  | queued _ => rfl
  | ended d close _ _ _ => exact setChannel_ids
  | accepted d extended n _ _ _ _ _ _ _ => exact setChannel_ids

/-- Packets do not take channels away. -/
theorem Live.arrive {done : List Arrival} (hlive : Live id s) (hs : Sound s)
    (h : Path Small s (done.map .arrive) s') : Live id s' ∧ Sound s' := by
  induction done generalizing s with
  | nil =>
    cases h
    exact ⟨hlive, hs⟩
  | cons a done ih =>
    cases h with
    | cons hsmall hrest =>
      have hs' := hs.small hsmall
      cases hsmall with
      | arrive _ _ _ hadd =>
        refine ih ?_ hs' hrest
        unfold Live
        rw [added_ids (packetAdd_cases hs hadd)]
        exact hlive

/-! ### Answers that stay long enough -/

theorem QueueOk.step {l : Label} (hq : QueueOk s) (hs : Sound s)
    (hl : ∀ a, l = .arrive a → WellFormed a.data) (h : Small s l s') : QueueOk s' := by
  cases h with
  | arrive a rc _ hadd =>
    have hformed := hl a rfl
    cases packetAdd_cases hs hadd with
    | same extra hcore _ _ =>
      unfold QueueOk
      rw [hcore.packets]
      exact hq
    | refunded d n hcore _ _ _ =>
      unfold QueueOk
      rw [hcore.packets]
      exact hq
    | queued _ =>
      intro p hp
      rcases List.mem_append.mp hp with hp | hp
      · exact hq p hp
      · rw [List.mem_singleton.mp hp]
        exact ⟨hformed.confirmation, hformed.failure⟩
    | ended d close _ _ _ => exact hq
    | accepted d extended n htype hid _ _ hhead hn _ =>
      intro p hp
      rcases List.mem_append.mp hp with hp | hp
      · exact hq p hp
      · have hfirst := (accepted_packet htype hid (by omega) p (List.mem_singleton.mp hp)).2.2.1
        rw [hfirst]
        cases extended <;> simp
  | take type matchOfs matchBuf data _ hask =>
    obtain ⟨before, p, after, hsplit, -, -, rfl⟩ := packetAsk_some hask
    intro q hq'
    refine hq q ?_
    rw [hsplit]
    rcases List.mem_append.mp hq' with hmem | hmem
    · exact List.mem_append_left _ hmem
    · exact List.mem_append_right _ (List.mem_cons_of_mem _ hmem)
  | forget other hother =>
    rw [forget_spec hother]
    exact fun p hp => hq p (List.mem_of_mem_filter hp)
  | copy c stream buflen rc hc =>
    intro q hmem
    have hpackets : (copyOut s c stream buflen rc).1.packets =
        (readLoop (wanted c stream) (intLen buflen) 0 s.packets).2 := by
      unfold copyOut
      simp only
      split_ifs <;> rfl
    rw [hpackets] at hmem
    obtain ⟨p, hp, heq⟩ := readLoop_data _ _ _ hmem
    rw [heq]
    exact hq p hp
  | link _ _ _ _ _ _ => exact hq
  | confirm c _ _ _ _ _ => exact hq
  | widen c n _ _ => exact hq
  | mode c _ _ => exact hq
  | send _ _ => exact hq
  | note c _ _ _ => exact hq

theorem QueueOk.path {labels : List Label} (hq : QueueOk s) (hs : Sound s)
    (hl : ∀ l ∈ labels, ∀ a, l = .arrive a → WellFormed a.data) (h : Path Small s labels s') : QueueOk s' :=
  (Path.invariant (fun s => Sound s ∧ QueueOk s)
    (fun _ _ _ hI hstep => ⟨hI.1.small hstep.1, hI.2.step hI.1 hstep.2 hstep.1⟩) ⟨hs, hq⟩ (h.restrict hl)).2

/-- The channel that a call uses. -/
def Call.channel : Call → Option Nat
  | .channelOpen _ _ _ => none
  | .processStartup id _ _ => some id
  | .channelRead id _ _ => some id
  | .extendedData id _ => some id
  | .channelClose id => some id
  | .channelFree id => some id

end Safe

end RemoteSsh.Ssh
