import RemoteSsh.Ssh.Steps

/-!
# The calls of a session

A call of libssh2 is a path of small steps. The packets that it takes from the socket are the first of those
that come, in their order.
-/

open Lib

namespace RemoteSsh.Ssh

/-! ## Steps in their order -/

def Label.arrival : Label → Option Arrival
  | .arrive a => some a
  | _ => none

/-- What a step gives to the caller: a channel, a stream and its bytes. -/
def Label.copied : Label → Option (Nat × Int × Bytes)
  | .copy id streamId bytes => if bytes = [] then none else some (id, streamId, bytes)
  | _ => none

/-- The steps of a call that was given `arrivals` and left `rest` of them. -/
structure Made (s : Session) (arrivals : List Arrival) (labels : List Label) (s' : Session) (rest : List Arrival) :
    Prop where
  path : Path Small s labels s'
  order : arrivals = labels.filterMap Label.arrival ++ rest

section Made

variable {s s' s'' : Session} {arrivals rest rest' : List Arrival} {labels labels' : List Label}

theorem Made.nil (s : Session) (arrivals : List Arrival) : Made s arrivals [] s arrivals := ⟨.nil s, rfl⟩

theorem Made.arrive {a : Arrival} (h : Small s (.arrive a) s') : Made s (a :: arrivals) [.arrive a] s' arrivals :=
  ⟨.single h, rfl⟩

theorem Made.silent {l : Label} (h : Small s l s') (hl : l.arrival = none) : Made s arrivals [l] s' arrivals :=
  ⟨.single h, by simp [hl]⟩

theorem Made.append (h : Made s arrivals labels s' rest) (h' : Made s' rest labels' s'' rest') :
    Made s arrivals (labels ++ labels') s'' rest' where
  path := h.path.append h'.path
  order := by rw [h.order, h'.order, List.filterMap_append, List.append_assoc]

/-- Packets that come later stay where they are. -/
theorem Made.later (h : Made s arrivals labels s' rest) (more : List Arrival) :
    Made s (arrivals ++ more) labels s' (rest ++ more) where
  path := h.path
  order := by rw [h.order, List.append_assoc]

end Made

/-! ## Reading packets -/

section Reading

variable {s s' : Session} {rc : Int} {a : Arrival} {arrivals rest : List Arrival}

theorem addData_rc (sendRc : Int) (extended : Bool) (data : Bytes) : (addData s sendRc extended data).2 = 0 := by
  unfold addData dropExtended
  split
  · rfl
  · simp only
    split_ifs <;> rfl

/-- A packet fails only when its code is wrong or when it ends the connection. -/
theorem packetAdd_rc {macOk : Bool} {data : Bytes} (h : packetAdd s 0 macOk data = some (s', rc)) :
    rc = 0 ∨ rc = errorInvalidMac ∨ rc = errorSocketDisconnect := by
  unfold packetAdd at h
  split at h
  · cases h
  next type tail =>
    split at h
    · simp only [Option.some.injEq, Prod.mk.injEq] at h
      exact .inr (.inl h.2.symm)
    · cases hmsg : Msg.ofByte type with
      | disconnect =>
        rw [hmsg] at h
        exact .inr (.inr (addDisconnect_cases h).2)
      | debug =>
        rw [hmsg] at h
        exact .inl (addDebug_cases h).2
      | globalRequest =>
        rw [hmsg] at h
        exact .inl (addGlobalRequest_cases h).2
      | channelOpen =>
        rw [hmsg] at h
        exact .inl ((addOpen_cases h).2.elim id id)
      | channelRequest =>
        rw [hmsg] at h
        exact .inl ((addRequest_cases h).2.elim id id)
      | channelData =>
        simp only [hmsg, Option.some.injEq] at h
        exact .inl (by simpa [h] using addData_rc (s := s) 0 false (type :: tail))
      | channelExtendedData =>
        simp only [hmsg, Option.some.injEq] at h
        exact .inl (by simpa [h] using addData_rc (s := s) 0 true (type :: tail))
      | channelWindowAdjust =>
        simp only [hmsg, Option.some.injEq, addWindowAdjust] at h
        split at h <;> simp_all
      | channelEof =>
        simp only [hmsg, Option.some.injEq, addEof] at h
        split at h <;> simp_all
      | channelClose =>
        simp only [hmsg, Option.some.injEq, addClose] at h
        split at h <;> simp_all
      | ignore => simp_all
      | other => simp_all

/-- One read of a packet: the connection is gone, there is no packet, or the first one is added. -/
theorem transportRead_cases (hsend : ∀ a ∈ arrivals, a.sendRc = 0)
    (h : transportRead s arrivals = some (s', rc, rest)) :
    (s.connected = false ∧ s' = s ∧ rc = 0 ∧ rest = arrivals) ∨
      (arrivals = [] ∧ s' = s ∧ rc = errorEagain ∧ rest = []) ∨
      ∃ a, arrivals = a :: rest ∧ Small s (.arrive a) s' ∧ rc ≠ errorEagain ∧
        (rc = 0 → a.data.head? = some 0) ∧ (0 < rc → a.data.head?.map (fun b => (b.toNat : Int)) = some rc) := by
  unfold transportRead at h
  split at h
  next hgone =>
    simp only [Option.some.injEq, Prod.mk.injEq] at h
    exact .inl ⟨hgone, h.1.symm, h.2.1.symm, h.2.2.symm⟩
  next =>
    split at h
    next =>
      simp only [Option.some.injEq, Prod.mk.injEq] at h
      exact .inr (.inl ⟨rfl, h.1.symm, h.2.1.symm, h.2.2.symm⟩)
    next a rest' =>
      obtain ⟨⟨t, ret⟩, hadd, h⟩ := Option.bind_eq_some_iff.mp h
      simp only [Option.pure_def, Option.some.injEq, Prod.mk.injEq] at h
      obtain ⟨rfl, hrc, rfl⟩ := h
      have ha := hsend a List.mem_cons_self
      rw [ha] at hadd
      refine .inr (.inr ⟨a, rfl, .arrive a ret ha hadd, ?_⟩)
      obtain ⟨data, macOk, sendRc⟩ := a
      cases data with
      | nil => cases hadd
      | cons type tail =>
        simp only [List.headD_cons] at hrc
        have htype : (type.toNat : Int) = 0 → type = 0 := by
          intro h
          exact UInt8.toNat_inj.mp (by simpa using h)
        have hcodes : errorInvalidMac = -4 ∧ errorSocketDisconnect = -13 ∧ errorEagain = -37 := ⟨rfl, rfl, rfl⟩
        rcases packetAdd_rc hadd with h | h | h
        · rw [if_pos h] at hrc
          refine ⟨by omega, fun hzero => ?_, fun _ => ?_⟩
          · rw [htype (by omega)]
            rfl
          · rw [← hrc]
            rfl
        · rw [if_neg (by omega)] at hrc
          exact ⟨by omega, by omega, by omega⟩
        · rw [if_neg (by omega)] at hrc
          exact ⟨by omega, by omega, by omega⟩

theorem drain_spec (hsend : ∀ a ∈ arrivals, a.sendRc = 0) (h : drain s arrivals = some (s', rc, rest)) :
    (∃ done : List Arrival, Made s arrivals (done.map .arrive) s' rest) ∧ rc ≤ 0 ∧
      (rc = 0 → s'.connected = false ∨ ∃ a ∈ arrivals, a.data.head? = some 0) ∧
      (rc = errorEagain → rest = []) := by
  have hcode : errorEagain = -37 := rfl
  induction arrivals generalizing s with
  | nil =>
    unfold drain at h
    rcases transportRead_cases hsend h with ⟨hgone, rfl, rfl, rfl⟩ | ⟨-, rfl, rfl, rfl⟩ | ⟨a, ha, -⟩
    · exact ⟨⟨[], .nil _ _⟩, le_rfl, fun _ => .inl hgone, fun _ => rfl⟩
    · exact ⟨⟨[], .nil _ _⟩, by decide, fun h => absurd h (by decide), fun _ => rfl⟩
    · cases ha
  | cons a arrivals ih =>
    unfold drain at h
    obtain ⟨⟨t, ret, rest'⟩, hread, h⟩ := Option.bind_eq_some_iff.mp h
    simp only at h
    rcases transportRead_cases hsend hread with ⟨hgone, rfl, rfl, rfl⟩ | ⟨ha, -⟩ | ⟨b, hb, hsmall, hagain, hzero, -⟩
    · simp only [Int.lt_irrefl, if_false, Option.pure_def, Option.some.injEq, Prod.mk.injEq] at h
      obtain ⟨rfl, rfl, rfl⟩ := h
      exact ⟨⟨[], .nil _ _⟩, le_rfl, fun _ => .inl hgone, fun h => absurd h (by decide)⟩
    · cases ha
    · cases hb
      split at h
      next hpos =>
        obtain ⟨⟨done, hdone⟩, hle, hend, hempty⟩ := ih (fun a ha => hsend a (List.mem_cons_of_mem _ ha)) h
        refine ⟨⟨a :: done, Made.append (.arrive hsmall) hdone⟩, hle, fun h => ?_, hempty⟩
        rcases hend h with hgone | ⟨b, hb, htype⟩
        · exact .inl hgone
        · exact .inr ⟨b, List.mem_cons_of_mem _ hb, htype⟩
      next hle =>
        simp only [Option.pure_def, Option.some.injEq, Prod.mk.injEq] at h
        obtain ⟨rfl, rfl, rfl⟩ := h
        refine ⟨⟨[a], .arrive hsmall⟩, by omega, fun h => ?_, fun h => absurd h hagain⟩
        exact .inr ⟨a, List.mem_cons_self, hzero h⟩

end Reading

/-! ## Waiting for a packet -/

section Require

variable {s s' : Session} {rc : Int} {types : List UInt8} {matchOfs : Nat} {matchBuf data : Bytes}
  {arrivals rest : List Arrival}

end Require

/-! ## The calls -/

section Calls

variable {s s' : Session} {id : Nat} {rc : Int} {arrivals rest : List Arrival}

theorem widen_rc {c : Channel} {buflen : Nat} (hs : Sound s) (hc : s.channelLocate c.localId = some c)
    (hsize : c.windowSizeInitial + buflen + minAdjust < 2 ^ 32) : (widen s 0 c buflen).2 = 0 := by
  by_cases h : c.windowSize < c.windowSizeInitial / 4 * 3 + buflen
  · rw [widen_narrow hs hc h hsize]
  · rw [widen_wide hs hc (by omega)]

theorem widen_made {c : Channel} {buflen : Nat} (arrivals : List Arrival) (hs : Sound s) (hc : s.channelLocate c.localId = some c)
    (hsize : c.windowSizeInitial + buflen + minAdjust < 2 ^ 32) :
    ∃ grants, (∀ l ∈ grants, ∃ n, l = .widen c.localId n) ∧
      Made s arrivals grants (widen s 0 c buflen).1 arrivals := by
  by_cases h : c.windowSize < c.windowSizeInitial / 4 * 3 + buflen
  · rw [widen_narrow hs hc h hsize]
    exact ⟨[.widen c.localId (grant c buflen)], by simp, .silent (.widen c _ hc (by unfold grant; omega)) rfl⟩
  · rw [widen_wide hs hc (by omega)]
    exact ⟨[], by simp, .nil s arrivals⟩

/-- What the call of a read gives: the window is widened, packets are read, and bytes are copied out if no
packet failed. `ret` is what the last packet returned. -/
def Read (s : Session) (id : Nat) (streamId : Int) (buflen : Nat) (arrivals : List Arrival) (s' : Session) (rc : Int)
    (bytes : Bytes) (rest : List Arrival) : Prop :=
  ∃ (grants : List Label) (done : List Arrival) (t : Session), (∀ l ∈ grants, ∃ n, l = .widen id n) ∧
    Made s arrivals (grants ++ done.map .arrive) t rest ∧
    ((rc < 0 ∧ bytes = [] ∧ s' = t) ∨
      ∃ c ret, t.channelLocate id = some c ∧ copyOut t c streamId buflen ret = (s', rc, bytes) ∧
        (ret = errorEagain ∨ t.connected = false ∨ ∃ a ∈ arrivals, a.data.head? = some 0))

theorem channelRead_spec {streamId : Int} {buflen : Nat} {bytes : Bytes} (hs : Sound s)
    (hsend : ∀ a ∈ arrivals, a.sendRc = 0)
    (hsize : ∀ c, s.channelLocate id = some c → c.windowSizeInitial + buflen + minAdjust < 2 ^ 32)
    (h : channelRead s 0 id streamId buflen arrivals = some (s', rc, bytes, rest)) :
    Read s id streamId buflen arrivals s' rc bytes rest := by
  unfold channelRead at h
  simp only [Option.bind_eq_bind, Option.pure_def] at h
  obtain ⟨c, hc, h⟩ := Option.bind_eq_some_iff.mp h
  obtain rfl := locate_localId hc
  obtain ⟨grants, hgrants, hwiden⟩ := widen_made arrivals hs hc (hsize c hc)
  split at h
  next hrc => exact absurd (widen_rc hs hc (hsize c hc)) hrc
  next =>
    obtain ⟨⟨t, ret, rest'⟩, hdrain, h⟩ := Option.bind_eq_some_iff.mp h
    simp only at h
    obtain ⟨⟨done, hdone⟩, hle, hzero, -⟩ := drain_spec hsend hdrain
    split at h
    next hfail =>
      simp only [Option.some.injEq, Prod.mk.injEq] at h
      obtain ⟨rfl, rfl, rfl, rfl⟩ := h
      exact ⟨grants, done, _, hgrants, hwiden.append hdone, .inl ⟨hfail.1, rfl, rfl⟩⟩
    next hgood =>
      obtain ⟨d, hd, h⟩ := Option.bind_eq_some_iff.mp h
      simp only [Option.some.injEq, Prod.mk.injEq] at h
      obtain ⟨rfl, rfl, rfl, rfl⟩ := h
      refine ⟨grants, done, t, hgrants, hwiden.append hdone, .inr ⟨d, ret, hd, rfl, ?_⟩⟩
      by_cases hagain : ret = errorEagain
      · exact .inl hagain
      · exact .inr (hzero (by omega))

theorem channelReadEx_spec {streamId : Int} {buflen : Nat} {bytes : Bytes} (hs : Sound s)
    (hsend : ∀ a ∈ arrivals, a.sendRc = 0) (hlen : buflen < 2 ^ 31)
    (hsize : ∀ c, s.channelLocate id = some c → c.windowSizeInitial + buflen + minAdjust < 2 ^ 32)
    (h : channelReadEx s 0 0 id streamId buflen arrivals = some (s', rc, bytes, rest)) :
    Read s id streamId buflen arrivals s' rc bytes rest := by
  unfold channelReadEx at h
  simp only [Option.bind_eq_bind] at h
  obtain ⟨c, hc, h⟩ := Option.bind_eq_some_iff.mp h
  obtain rfl := locate_localId hc
  split at h
  next hnarrow =>
    have hlt : c.windowSize + buflen < 2 ^ 32 := by omega
    rw [u32_of_lt (by omega), receiveWindowAdjust_forced hs hc (by omega) hlt] at h
    have hsmall := Small.widen c buflen hc hlt
    have hlocate : (s.widened c buflen).channelLocate c.localId =
        some { c with windowSize := c.windowSize + buflen } :=
      (locate_transportSend _ _).trans (locate_setChannel_self hc rfl)
    obtain ⟨grants, done, t, hgrants, hmade, hread⟩ := channelRead_spec (hs.small hsmall) hsend (fun d hd => by
      rw [hlocate] at hd
      cases hd
      exact hsize c hc) h
    have hfirst : Made s arrivals [.widen c.localId buflen] (s.widened c buflen) arrivals := .silent hsmall rfl
    refine ⟨.widen c.localId buflen :: grants, done, t, ?_, hfirst.append hmade, hread⟩
    intro l hl
    rcases List.mem_cons.mp hl with rfl | hl
    · exact ⟨buflen, rfl⟩
    · exact hgrants l hl
  next => exact channelRead_spec hs hsend hsize h

theorem awaitClose_spec (hsend : ∀ a ∈ arrivals, a.sendRc = 0) (h : awaitClose s id arrivals = some (s', rc, rest)) :
    ∃ done : List Arrival, Made s arrivals (done.map .arrive) s' rest := by
  induction arrivals generalizing s with
  | nil =>
    unfold awaitClose at h
    simp only [Option.bind_eq_bind, Option.pure_def] at h
    obtain ⟨c, hc, h⟩ := Option.bind_eq_some_iff.mp h
    split at h
    · simp only [Option.some.injEq, Prod.mk.injEq] at h
      obtain ⟨rfl, -, rfl⟩ := h
      exact ⟨[], .nil _ _⟩
    · rcases transportRead_cases hsend h with ⟨-, rfl, -, rfl⟩ | ⟨-, rfl, -, rfl⟩ | ⟨a, ha, -⟩
      · exact ⟨[], .nil _ _⟩
      · exact ⟨[], .nil _ _⟩
      · cases ha
  | cons a arrivals ih =>
    unfold awaitClose at h
    simp only [Option.bind_eq_bind, Option.pure_def] at h
    obtain ⟨c, hc, h⟩ := Option.bind_eq_some_iff.mp h
    split at h
    next =>
      simp only [Option.some.injEq, Prod.mk.injEq] at h
      obtain ⟨rfl, -, rfl⟩ := h
      exact ⟨[], .nil _ _⟩
    next hopen =>
      obtain ⟨⟨t, ret, rest'⟩, hread, h⟩ := Option.bind_eq_some_iff.mp h
      simp only at h
      rcases transportRead_cases hsend hread with ⟨hgone, -⟩ | ⟨ha, -⟩ | ⟨b, hb, hsmall, -⟩
      · exact absurd (.inr hgone) hopen
      · cases ha
      cases hb
      split at h
      · obtain ⟨done, hdone⟩ := ih (fun a ha => hsend a (List.mem_cons_of_mem _ ha)) h
        exact ⟨a :: done, Made.append (.arrive hsmall) hdone⟩
      · simp only [Option.some.injEq, Prod.mk.injEq] at h
        obtain ⟨rfl, -, rfl⟩ := h
        exact ⟨[a], .arrive hsmall⟩

theorem channelClose_spec (hsend : ∀ a ∈ arrivals, a.sendRc = 0)
    (h : channelClose s 0 0 id arrivals = some (s', rc, rest)) :
    ∃ (start : List Label) (done : List Arrival) (ending : List Label),
      Made s arrivals (start ++ done.map .arrive ++ ending) s' rest ∧
        (∀ l ∈ start, l = .note id ∨ l = .send) ∧ (ending = [] ∨ ending = [.note id]) := by
  unfold channelClose at h
  simp only [Option.bind_eq_bind, Option.pure_def] at h
  obtain ⟨c, hc, h⟩ := Option.bind_eq_some_iff.mp h
  obtain rfl := locate_localId hc
  split at h
  · simp only [Option.some.injEq, Prod.mk.injEq] at h
    obtain ⟨rfl, -, rfl⟩ := h
    exact ⟨[], [], [], .nil _ _, by simp, .inl rfl⟩
  -- First the two messages are sent.
  have hsent (t : Session) : Made t arrivals [.send] (t.transportSend 0 (97 :: htonu32 c.remoteId)) arrivals :=
    .silent (.send _ (by simp)) rfl
  have hstart : ∃ start, (∀ l ∈ start, l = .note c.localId ∨ l = .send) ∧ Made s arrivals start
      ((if c.localEof = true then s else (channelSendEof s 0 c).1).transportSend 0 (97 :: htonu32 c.remoteId))
      arrivals := by
    split
    · exact ⟨[.send], by simp, hsent s⟩
    · have hnote : Made s arrivals [.note c.localId] (s.setChannel { c with localEof := true }) arrivals :=
        .silent (.note c true c.localClose hc) rfl
      have heof : Made (s.setChannel { c with localEof := true }) arrivals [.send]
          ((s.setChannel { c with localEof := true }).transportSend 0 (96 :: htonu32 c.remoteId)) arrivals :=
        .silent (.send _ (by simp)) rfl
      exact ⟨_, by simp, (hnote.append heof).append (hsent _)⟩
  obtain ⟨start, hlabels, hmade⟩ := hstart
  simp only [if_true] at h
  obtain ⟨⟨t, ret, rest'⟩, hwait, h⟩ := Option.bind_eq_some_iff.mp h
  obtain ⟨done, hdone⟩ := awaitClose_spec hsend hwait
  refine ⟨start, done, ?_⟩
  simp only at h
  split at h
  · simp only [Option.some.injEq, Prod.mk.injEq] at h
    obtain ⟨rfl, -, rfl⟩ := h
    exact ⟨[], by simpa using hmade.append hdone, hlabels, .inl rfl⟩
  · obtain ⟨d, hd, h⟩ := Option.bind_eq_some_iff.mp h
    simp only [Option.some.injEq, Prod.mk.injEq] at h
    obtain ⟨rfl, -, rfl⟩ := h
    have hnote : Made t rest' [.note d.localId] (t.setChannel { d with localClose := true }) rest' :=
      .silent (.note d d.localEof true (locate_self hd)) rfl
    have hname : Label.note d.localId = .note c.localId := by rw [locate_localId hd]
    refine ⟨[.note c.localId], ?_, hlabels, .inr rfl⟩
    rw [← hname]
    exact (hmade.append hdone).append hnote

theorem channelFree_spec (hid : id < 2 ^ 32) (hsend : ∀ a ∈ arrivals, a.sendRc = 0)
    (h : channelFree s 0 0 id arrivals = some (s', rc, rest)) :
    ∃ (start : List Label) (done : List Arrival) (ending : List Label),
      Made s arrivals (start ++ done.map .arrive ++ ending) s' rest ∧
        (∀ l ∈ start, l = .note id ∨ l = .send) ∧ (∀ l ∈ ending, l = .note id ∨ l = .forget id) ∧
        (rc ≠ errorEagain → ∃ labels t, Path Small s labels t ∧ s' = t.forget id) := by
  unfold channelFree at h
  simp only [Option.bind_eq_bind, Option.pure_def] at h
  obtain ⟨c, hc, h⟩ := Option.bind_eq_some_iff.mp h
  have hclosed : ∃ (t : Session) (ret : Int) (rest' : List Arrival),
      (∃ (start : List Label) (done : List Arrival) (ending : List Label),
        Made s arrivals (start ++ done.map .arrive ++ ending) t rest' ∧
          (∀ l ∈ start, l = .note id ∨ l = .send) ∧ (ending = [] ∨ ending = [.note id])) ∧
        (if ret = errorEagain then some (t, ret, rest') else some (t.forget id, 0, rest')) = some (s', rc, rest) := by
    split at h
    · obtain ⟨⟨t, ret, rest'⟩, hclose, h⟩ := Option.bind_eq_some_iff.mp h
      exact ⟨t, ret, rest', channelClose_spec hsend hclose, h⟩
    · exact ⟨s, 0, arrivals, ⟨[], [], [], .nil _ _, by simp, .inl rfl⟩, h⟩
  clear h
  obtain ⟨t, ret, rest', ⟨start, done, ending, hmade, hstart, hending⟩, h⟩ := hclosed
  refine ⟨start, done, ?_⟩
  split at h
  next hagain =>
    simp only [Option.some.injEq, Prod.mk.injEq] at h
    obtain ⟨rfl, rfl, rfl⟩ := h
    refine ⟨ending, hmade, hstart, ?_, fun hne => absurd hagain hne⟩
    rcases hending with rfl | rfl <;> simp
  next =>
    simp only [Option.some.injEq, Prod.mk.injEq] at h
    obtain ⟨rfl, rfl, rfl⟩ := h
    have hforget : Made t rest' [.forget id] (t.forget id) rest' := .silent (.forget id hid) rfl
    refine ⟨ending ++ [.forget id], by simpa using hmade.append hforget, hstart, ?_, fun _ => ⟨_, t, hmade.path, rfl⟩⟩
    rcases hending with rfl | rfl <;> simp

end Calls

end RemoteSsh.Ssh
