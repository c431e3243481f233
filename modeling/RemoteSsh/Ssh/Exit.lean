import RemoteSsh.Ssh.Streams

/-!
# The exit status of a channel

The server sends the exit status in a request of its own, after the data. `_libssh2_channel_close` reads
packets while it waits for the server's close, but it stops after the first one of them.
-/

open Lib

namespace RemoteSsh.Ssh

/-- The exit status that a packet has for this channel. -/
def exitOf (id : Nat) (data : Bytes) : Option Int :=
  if data.head? = some 98 ∧ u32At data 1 = some id ∧ u32At data 5 = some 11 ∧
      (data.drop 9).take 11 = ascii "exit-status" then
    (u32At data 21).map toInt
  else none

/-! ## Changes that the status does not see -/

/-- The channels and their exit statuses. -/
def SameExit (s s' : Session) : Prop :=
  ∀ id, (s'.channelLocate id).map Channel.exitStatus = (s.channelLocate id).map Channel.exitStatus

section SameExit

variable {s s' s'' : Session} {c d : Channel} {id : Nat}

theorem SameExit.refl (s : Session) : SameExit s s := fun _ => rfl

theorem SameExit.trans (h : SameExit s s') (h' : SameExit s' s'') : SameExit s s'' :=
  fun id => (h' id).trans (h id)

theorem SameExit.setChannel (hd : (s.channelLocate d.localId).map Channel.exitStatus = some d.exitStatus) :
    SameExit s (s.setChannel d) := by
  intro id
  obtain ⟨c, hc, heq⟩ := Option.map_eq_some_iff.mp hd
  by_cases hid : id = d.localId
  · rw [hid, locate_setChannel_self hc rfl, hc, Option.map_some, Option.map_some, heq]
  · rw [locate_setChannel_of_ne hid]

theorem SameExit.transportSend (s : Session) (sendRc : Int) (packet : Bytes) :
    SameExit s (s.transportSend sendRc packet) := fun id => by rw [locate_transportSend]

theorem receiveWindowAdjust_exit {n : Nat} {sendRc : Int} {force : Bool}
    (hc : (s.channelLocate c.localId).map Channel.exitStatus = some c.exitStatus) :
    SameExit s (receiveWindowAdjust s sendRc c n force).1 := by
  have hsend (k : Nat) (q : Nat) (packet : Bytes) :
      SameExit s (sendAdjust s sendRc { c with adjustQueue := q } k packet).1 := by
    unfold sendAdjust
    split
    · refine SameExit.trans ?_ (.transportSend _ _ _)
      exact .setChannel hc
    · exact .setChannel hc
  unfold receiveWindowAdjust
  split
  · exact hsend n c.adjustQueue _
  · split_ifs
    · exact .setChannel hc
    · exact .refl s
    · exact hsend _ 0 _

theorem addData_exit (sendRc : Int) (extended : Bool) (data : Bytes) : SameExit s (addData s sendRc extended data).1 := by
  unfold addData
  split
  · exact .refl s
  next c hof =>
    have hc := (channelOf_some hof).2.2
    have hexit : (s.channelLocate c.localId).map Channel.exitStatus = some c.exitStatus := by rw [hc]; rfl
    simp only
    split_ifs
    · unfold dropExtended
      simp only
      refine SameExit.trans ?_ (receiveWindowAdjust_exit ?_)
      · exact .setChannel hexit
      · rw [locate_setChannel_self hc (by rfl)]
        rfl
    all_goals first | exact .refl s | exact .setChannel hexit

end SameExit

/-! ## What a packet does to the status -/

section Packets

variable {s s' : Session} {c : Channel} {id : Nat} {rc : Int} {data : Bytes}

theorem exitOf_of_type (h : data.head? ≠ some 98) : exitOf id data = none := if_neg fun hand => h hand.1

theorem exitOf_other {other : Nat} (hother : u32At data 1 = some other) (hne : id ≠ other) : exitOf id data = none := by
  refine if_neg fun hand => hne ?_
  rw [hother] at hand
  exact (Option.some.inj hand.2.1).symm

/-- Whether a request has this name. -/
theorem requestIs_some {len : Nat} {name : Bytes} {is : Bool} (h : requestIs data len name = some is) :
    is = true ↔ len = name.length ∧ (data.drop 9).take name.length = name := by
  unfold requestIs at h
  split at h
  next hlen =>
    unfold memcmpAt at h
    split at h
    · cases h
      simp [hlen]
    · cases h
  next hlen =>
    cases h
    simp [hlen]

theorem addExit_exit {other len : Nat} (htype : data.head? = some 98) (hother : u32At data 1 = some other)
    (hlen : u32At data 5 = some len) (hc : s.channelLocate id = some c) (h : addExit s data other len = some s') :
    (s'.channelLocate id).map Channel.exitStatus = some ((exitOf id data).getD c.exitStatus) := by
  have hlength : (ascii "exit-status").length = 11 := by decide
  unfold addExit at h
  obtain ⟨isStatus, hstatus, hrest⟩ := Option.bind_eq_some_iff.mp h
  clear h
  have hiff := requestIs_some hstatus
  rw [hlength] at hiff
  split at hrest
  next htrue =>
    obtain ⟨rfl, hname⟩ := hiff.mp htrue
    unfold addExitStatus at hrest
    by_cases hid : id = other
    · subst hid
      rw [hc] at hrest
      obtain ⟨status, hat, h⟩ := Option.bind_eq_some_iff.mp hrest
      obtain rfl := Option.some.inj h
      have hof : exitOf id data = some (toInt status) := by
        rw [exitOf, if_pos ⟨htype, hother, hlen, hname⟩, hat]
        rfl
      have hid : c.localId = id := locate_localId hc
      rw [locate_setChannel_self hc (d := { c with exitStatus := toInt status }) hid, hof]
      rfl
    · rw [exitOf_other hother hid]
      split at hrest
      · obtain rfl := Option.some.inj hrest
        rw [hc]
        rfl
      next d hd =>
        obtain ⟨status, -, h⟩ := Option.bind_eq_some_iff.mp hrest
        obtain rfl := Option.some.inj h
        rw [locate_setChannel_of_ne (by rw [locate_localId hd]; exact hid), hc]
        rfl
  next hfalse =>
    have hnone : exitOf id data = none := by
      refine if_neg fun hand => hfalse (hiff.mpr ⟨?_, hand.2.2.2⟩)
      rw [hlen] at hand
      exact Option.some.inj hand.2.2.1
    have hsame : SameExit s s' := by
      obtain ⟨isSignal, -, h⟩ := Option.bind_eq_some_iff.mp hrest
      split at h
      · unfold addExitSignal at h
        split at h
        · obtain rfl := Option.some.inj h
          exact .refl _
        next d hd =>
          obtain ⟨namelen, -, h⟩ := Option.bind_eq_some_iff.mp h
          split at h
          · obtain rfl := Option.some.inj h
            exact .setChannel (by rw [locate_self hd]; rfl)
          · cases h
      · obtain rfl := Option.some.inj h
        exact .refl _
    rw [hsame id, hc, hnone]
    rfl

theorem addRequest_exit (htype : data.head? = some 98) (hc : s.channelLocate id = some c)
    (h : addRequest s 0 data = some (s', rc)) :
    (s'.channelLocate id).map Channel.exitStatus = some ((exitOf id data).getD c.exitStatus) := by
  unfold addRequest at h
  simp only [Option.bind_eq_bind, Option.pure_def] at h
  split at h
  next hlength =>
    obtain ⟨other, hother, h⟩ := Option.bind_eq_some_iff.mp h
    obtain ⟨len, hlen, h⟩ := Option.bind_eq_some_iff.mp h
    obtain ⟨reply, -, h⟩ := Option.bind_eq_some_iff.mp h
    obtain ⟨t, hexit, h⟩ := Option.bind_eq_some_iff.mp h
    have hsame : SameExit t s' := by
      split at h
      · simp only [Option.some.injEq, Prod.mk.injEq] at h
        rw [← h.1]
        exact .transportSend _ _ _
      · simp only [Option.some.injEq, Prod.mk.injEq] at h
        rw [← h.1]
        exact .refl _
    rw [hsame id]
    exact addExit_exit htype hother hlen hc hexit
  next hlength =>
    simp only [Option.some.injEq, Prod.mk.injEq] at h
    rw [← h.1, hc]
    have hnone : exitOf id data = none := by
      refine if_neg fun hand => ?_
      have := (u32At_isSome data 5).mp (by simp [hand.2.2.1])
      omega
    rw [hnone]
    rfl

/-- A packet sets the exit status of a channel to what it has for it, and leaves it alone otherwise. -/
theorem packetAdd_exit (hc : s.channelLocate id = some c) (h : packetAdd s 0 true data = some (s', rc)) :
    (s'.channelLocate id).map Channel.exitStatus = some ((exitOf id data).getD c.exitStatus) := by
  have hkeep (hsame : SameExit s s') (hnone : exitOf id data = none) :
      (s'.channelLocate id).map Channel.exitStatus = some ((exitOf id data).getD c.exitStatus) := by
    rw [hsame id, hc, hnone]
    rfl
  unfold packetAdd at h
  split at h
  · cases h
  next type tail =>
    rw [if_neg (by simp)] at h
    by_cases htype : type = 98
    · subst htype
      exact addRequest_exit rfl hc h
    have hnone : exitOf id (type :: tail) = none := exitOf_of_type (by simpa using htype)
    refine hkeep ?_ hnone
    cases hmsg : Msg.ofByte type with
    | disconnect =>
      rw [hmsg] at h
      rw [(addDisconnect_cases h).1]
      exact .refl s
    | debug =>
      rw [hmsg] at h
      rw [(addDebug_cases h).1]
      exact .refl s
    | globalRequest =>
      rw [hmsg] at h
      rcases (addGlobalRequest_cases h).1 with rfl | rfl
      · exact .refl _
      · exact .transportSend _ _ _
    | channelOpen =>
      rw [hmsg] at h
      rcases (addOpen_cases h).1 with rfl | ⟨_, _, _, rfl⟩
      · exact .refl _
      · exact .transportSend _ _ _
    | channelRequest =>
      unfold Msg.ofByte at hmsg
      split_ifs at hmsg
    | channelData =>
      simp only [hmsg, Option.some.injEq] at h
      have := addData_exit (s := s) 0 false (type :: tail)
      rwa [h] at this
    | channelExtendedData =>
      simp only [hmsg, Option.some.injEq] at h
      have := addData_exit (s := s) 0 true (type :: tail)
      rwa [h] at this
    | channelWindowAdjust =>
      simp only [hmsg, Option.some.injEq, addWindowAdjust] at h
      split at h
      next d _ hof _ =>
        cases h
        exact .setChannel (by rw [(channelOf_some hof).2.2]; rfl)
      next =>
        cases h
        exact .refl _
    | channelEof =>
      simp only [hmsg, Option.some.injEq, addEof] at h
      split at h
      next =>
        cases h
        exact .refl _
      next d hof =>
        cases h
        exact .setChannel (by rw [(channelOf_some hof).2.2]; rfl)
    | channelClose =>
      simp only [hmsg, Option.some.injEq, addClose] at h
      split at h
      next =>
        cases h
        exact .refl _
      next d hof =>
        cases h
        exact .setChannel (by rw [(channelOf_some hof).2.2]; rfl)
    | ignore =>
      simp only [hmsg, Option.some.injEq] at h
      cases h
      exact .refl _
    | other =>
      simp only [hmsg, Option.some.injEq] at h
      cases h
      exact .refl _

end Packets

/-! ## Waiting for the close -/

section Close

variable {s s' : Session} {c : Channel} {id : Nat} {rc : Int}

end Close

/-! ## Over a whole run -/

section Runs

variable {s s' : Session} {l : Label}

/-- Every channel has no exit status yet, or one that came for it. -/
def Told (past : List Label) (s : Session) : Prop :=
  ∀ id c, s.channelLocate id = some c →
    c.exitStatus = 0 ∨ ∃ a ∈ past.filterMap Label.arrival, exitOf id a.data = some c.exitStatus

theorem Told.same {past : List Label} (h : Told past s) (hsame : SameExit s s') : Told (past ++ [l]) s' := by
  intro id c' hc'
  have hexit := hsame id
  rw [hc'] at hexit
  obtain ⟨c, hc, heq⟩ := Option.map_eq_some_iff.mp hexit.symm
  rw [← heq]
  refine (h id c hc).imp_right ?_
  rintro ⟨a, ha, hof⟩
  exact ⟨a, by simp [ha], hof⟩

theorem Told.step {past : List Label} (hs : Sound s) (h : Told past s) (hsmall : Small s l s') :
    Told (past ++ [l]) s' := by
  cases hsmall with
  | arrive a rc _ hadd =>
    cases hmac : a.macOk with
    | false =>
      rw [hmac] at hadd
      have hsame : s' = s := by
        unfold packetAdd at hadd
        split at hadd
        · cases hadd
        · simp only [if_true, Option.some.injEq, Prod.mk.injEq] at hadd
          exact hadd.1.symm
      rw [hsame]
      exact h.same (.refl s)
    | true =>
      rw [hmac] at hadd
      intro id c' hc'
      obtain ⟨c, hc, -⟩ := added_terms (packetAdd_cases hs hadd) hc'
      have hexit := packetAdd_exit hc hadd
      rw [hc', Option.map_some, Option.some.injEq] at hexit
      cases hof : exitOf id a.data with
      | some status =>
        rw [hof] at hexit
        exact .inr ⟨a, by simp [Label.arrival], by rw [hof, hexit]; rfl⟩
      | none =>
        rw [hof] at hexit
        rw [hexit]
        refine (h id c hc).imp_right ?_
        rintro ⟨b, hb, hof⟩
        exact ⟨b, by simp [hb], hof⟩
  | take type matchOfs matchBuf data _ hask =>
    obtain ⟨before, p, after, -, -, -, rfl⟩ := packetAsk_some hask
    exact h.same fun _ => rfl
  | link windowSize packetSize packet _ _ _ =>
    intro id c' hc'
    rw [locate_link hs] at hc'
    split at hc'
    · cases hc'
      exact .inl rfl
    · refine (h id c' hc').imp_right ?_
      rintro ⟨a, ha, hof⟩
      exact ⟨a, by simp [ha], hof⟩
  | forget other hother =>
    rw [forget_spec hother]
    intro id c' hc'
    have hne : id ≠ other := by
      rintro rfl
      exact absurd ((locate_remove_self hs.distinct).symm.trans hc') (by simp)
    refine (h id c' ((locate_remove_of_ne hne).symm.trans hc')).imp_right ?_
    rintro ⟨a, ha, hof⟩
    exact ⟨a, by simp [ha], hof⟩
  | confirm c _ _ _ hc _ => exact h.same (.setChannel (by rw [hc]; rfl))
  | widen c n hc _ =>
    refine h.same (SameExit.trans ?_ (.transportSend _ _ _))
    exact .setChannel (by rw [hc]; rfl)
  | copy c stream buflen rc hc =>
    rw [(copyOut_spec hs hc stream buflen rc).result]
    refine h.same ?_
    exact SameExit.setChannel (d := { c with
      readAvail := c.readAvail - (copyOut s c stream buflen rc).2.2.length
      windowSize := c.windowSize - (copyOut s c stream buflen rc).2.2.length }) (by rw [hc]; rfl)
  | mode c mode hc => exact h.same (.setChannel (by rw [hc]; rfl))
  | send packet _ => exact h.same (.transportSend _ _ _)
  | note c _ _ hc => exact h.same (.setChannel (by rw [hc]; rfl))

end Runs

end RemoteSsh.Ssh
