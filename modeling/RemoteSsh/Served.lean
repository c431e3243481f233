import RemoteSsh.Commands.Output
import RemoteSsh.Lib.Pool
import RemoteSsh.Ssh.Streams

/-!
# A command over libssh2

The loops of `wrapper.c` that read the output of a command, on a session of libssh2 with the server at the
other end. What the caller gets is what the server wrote.
-/

open Lib RemoteSsh.Commands

namespace RemoteSsh.Served

/-! ## The world of one command -/

/-- `stream_id` in `libssh2_channel_read` and in `libssh2_channel_read_stderr`. -/
def streamId : Stream → Int
  | .stdout => 0
  | .stderr => 1

/-- One attempt of `libssh2_channel_read_ex`, with the packets that it finds. -/
def Reads (id : Nat) (n : Ssh.Net) (stream : Stream) (rc : Int) (bytes : Bytes) (n' : Ssh.Net) : Prop :=
  ∃ now later left s', n.wire = now ++ later ∧
    Ssh.channelReadEx n.session 0 0 id (streamId stream) bufferSize (Ssh.arriving now) =
      some (s', rc, bytes, Ssh.arriving left) ∧
    n' =
      { n with
        session := s'
        wire := left ++ later
        got := fun k => n.got k ++ if k = streamId stream then bytes else [] }

def Closes (id : Nat) (n : Ssh.Net) (rc : Int) (n' : Ssh.Net) : Prop :=
  ∃ now later left s', n.wire = now ++ later ∧
    Ssh.channelClose n.session 0 0 id (Ssh.arriving now) = some (s', rc, Ssh.arriving left) ∧
    n' = { n with session := s', wire := left ++ later }

def Frees (id : Nat) (n : Ssh.Net) (rc : Int) (n' : Ssh.Net) : Prop :=
  ∃ now later left s', n.wire = now ++ later ∧
    Ssh.channelFree n.session 0 0 id (Ssh.arriving now) = some (s', rc, Ssh.arriving left) ∧
    n' = { n with session := s', wire := left ++ later }

/-- The session is blocking: a call ends with the first attempt that does not return `EAGAIN`, or when the wait
for the socket fails. -/
def servesChannel (id : Nat) (n : Ssh.Net) : (c : Call) → Reply c → Ssh.Net → Prop
  | .libssh2ChannelRead _ stream, r, n' =>
    match (r : ReadResult) with
    | .data chunk => Reads id n stream chunk.bytes.length chunk.bytes n'
    | .eof => Reads id n stream 0 [] n'
    | .error e => (e.code ≠ Ssh.errorEagain ∧ Reads id n stream e.code [] n') ∨ n' = n
  | .libssh2ChannelClose _, rc, n' =>
    ((rc : Int) ≠ Ssh.errorEagain ∧ Closes id n rc n') ∨ ((rc : Int) < 0 ∧ n' = n)
  | .libssh2ChannelGetExitStatus _, status, n' =>
    (∀ c, n.session.channelLocate id = some c → status = c.exitStatus) ∧ n' = n
  | .libssh2ChannelFree _, _, n' => (∃ rc, rc ≠ Ssh.errorEagain ∧ Frees id n rc n') ∨ n' = n
  | _, _, n' => n' = n

/-- The channel that a call is on. -/
def handleOf : Call → Option Handle
  | .libssh2ChannelRead channel _ => some channel
  | .libssh2ChannelClose channel => some channel
  | .libssh2ChannelGetExitStatus channel => some channel
  | .libssh2ChannelFree channel => some channel
  | _ => none

/-- `handle` is the channel with the number `id`. -/
def serves (handle : Handle) (id : Nat) (n : Ssh.Net) (_ : Unit) (c : Call) (r : Reply c) (n' : Ssh.Net) : Prop :=
  if handleOf c = some handle then servesChannel id n c r n' else n' = n

abbrev CommandPool := Pool Reply Label Outcome Unit Ssh.Net

/-- What happens while the client waits: the server does something, or a read that is waiting tries again. -/
inductive Moves (id remoteId size : Nat) (p : CommandPool) : Ssh.Net → Prop
  | server (n' : Ssh.Net) (h : Ssh.NetStep id remoteId size p.shared n')
      (hsession : n'.session = p.shared.session) (hgot : n'.got = p.shared.got) : Moves id remoteId size p n'
  | again (channel : Handle) (stream : Stream) (k : ReadResult → Body) (n' : Ssh.Net)
      (hread : (p.threads ()).todo = .call (.libssh2ChannelRead channel stream) k)
      (h : Reads id p.shared stream Ssh.errorEagain [] n') : Moves id remoteId size p n'

def world (handle : Handle) (id remoteId size : Nat) : World Reply Label Outcome Unit Ssh.Net :=
  ⟨serves handle id, Moves id remoteId size⟩

def start (c : CommandFrame) (n : Ssh.Net) : CommandPool := ⟨fun _ => ⟨.ret (.inl (.stdoutLoop c)), []⟩, n⟩

/-- The server uses no packet of type 0. -/
def Typed (n : Ssh.Net) : Prop := ∀ data ∈ n.wire, data.head? ≠ some 0

/-! ## A connection that is gone stays gone -/

section Connected

variable {s s' : Ssh.Session}

theorem transportSend_connected (s : Ssh.Session) (sendRc : Int) (packet : Bytes) :
    (s.transportSend sendRc packet).connected = s.connected := by
  unfold Ssh.Session.transportSend
  split
  · rfl
  · rfl

theorem receiveWindowAdjust_connected (s : Ssh.Session) (sendRc : Int) (c : Ssh.Channel) (n : Nat) (force : Bool) :
    (Ssh.receiveWindowAdjust s sendRc c n force).1.connected = s.connected := by
  have hsend (d : Ssh.Channel) (k : Nat) (packet : Bytes) : (Ssh.sendAdjust s sendRc d k packet).1.connected = s.connected := by
    unfold Ssh.sendAdjust
    split
    · exact transportSend_connected _ _ _
    · rfl
  unfold Ssh.receiveWindowAdjust
  split
  · exact hsend _ _ _
  · split_ifs
    · rfl
    · rfl
    · exact hsend _ _ _

theorem addData_connected (sendRc : Int) (extended : Bool) (data : Bytes) :
    (Ssh.addData s sendRc extended data).1.connected = s.connected := by
  unfold Ssh.addData
  split
  · rfl
  · simp only
    split_ifs
    · exact receiveWindowAdjust_connected _ _ _ _ _
    all_goals rfl

theorem addRequest_connected {sendRc rc : Int} {data : Bytes} (h : Ssh.addRequest s sendRc data = some (s', rc)) :
    s'.connected = s.connected := by
  obtain ⟨⟨id, len, t, ht, hs'⟩, -⟩ := Ssh.addRequest_cases h
  have hsent : s'.connected = t.connected := by
    rcases hs' with rfl | rfl
    · rfl
    · exact transportSend_connected _ _ _
  rw [hsent]
  rcases ht with rfl | hexit
  · rfl
  · rcases Ssh.addExit_cases hexit with rfl | ⟨c, status, signal, -, rfl⟩
    · rfl
    · rfl

theorem packetAdd_connected {macOk : Bool} {rc : Int} {data : Bytes} (h : Ssh.packetAdd s 0 macOk data = some (s', rc))
    (hconnected : s'.connected = true) : s.connected = true := by
  unfold Ssh.packetAdd at h
  split at h
  · cases h
  next type tail =>
    split at h
    · cases h
      exact hconnected
    suffices hsame : s'.connected = s.connected from hsame ▸ hconnected
    cases hmsg : Ssh.Msg.ofByte type with
    | disconnect =>
      rw [hmsg] at h
      rw [(Ssh.addDisconnect_cases h).1] at hconnected
      cases hconnected
    | debug =>
      rw [hmsg] at h
      rw [(Ssh.addDebug_cases h).1]
    | globalRequest =>
      rw [hmsg] at h
      rcases (Ssh.addGlobalRequest_cases h).1 with rfl | rfl
      · rfl
      · exact transportSend_connected _ _ _
    | channelOpen =>
      rw [hmsg] at h
      rcases (Ssh.addOpen_cases h).1 with rfl | ⟨_, _, _, rfl⟩
      · rfl
      · exact transportSend_connected _ _ _
    | channelRequest =>
      rw [hmsg] at h
      exact addRequest_connected h
    | channelData =>
      simp only [hmsg, Option.some.injEq] at h
      have := addData_connected (s := s) 0 false (type :: tail)
      rwa [h] at this
    | channelExtendedData =>
      simp only [hmsg, Option.some.injEq] at h
      have := addData_connected (s := s) 0 true (type :: tail)
      rwa [h] at this
    | channelWindowAdjust =>
      simp only [hmsg, Option.some.injEq, Ssh.addWindowAdjust] at h
      split at h <;> cases h <;> rfl
    | channelEof =>
      simp only [hmsg, Option.some.injEq, Ssh.addEof] at h
      split at h <;> cases h <;> rfl
    | channelClose =>
      simp only [hmsg, Option.some.injEq, Ssh.addClose] at h
      split at h <;> cases h <;> rfl
    | ignore =>
      simp only [hmsg, Option.some.injEq, Prod.mk.injEq] at h
      rw [h.1]
    | other =>
      simp only [hmsg, Option.some.injEq, Prod.mk.injEq] at h
      rw [← h.1]

theorem small_connected {l : Ssh.Label} (h : Ssh.Small s l s') (hconnected : s'.connected = true) :
    s.connected = true := by
  cases h with
  | arrive a rc _ hadd => exact packetAdd_connected hadd hconnected
  | take type matchOfs matchBuf data _ hask =>
    obtain ⟨before, p, after, -, -, -, rfl⟩ := Ssh.packetAsk_some hask
    exact hconnected
  | forget id hid =>
    rw [Ssh.forget_spec hid] at hconnected
    exact hconnected
  | copy c streamId buflen rc _ => exact (Ssh.copyOut_connected s c streamId buflen rc).symm.trans hconnected
  | link =>
    rw [Ssh.Session.link, transportSend_connected] at hconnected
    exact hconnected
  | widen =>
    rw [Ssh.Session.widened, transportSend_connected] at hconnected
    exact hconnected
  | send => exact (transportSend_connected _ _ _).symm.trans hconnected
  | _ => exact hconnected

theorem made_connected {labels : List Ssh.Label} {arrivals rest : List Ssh.Arrival}
    (h : Ssh.Made s arrivals labels s' rest) (hconnected : s'.connected = true) : s.connected = true := by
  by_contra hgone
  have := h.path.invariant (fun s => s.connected ≠ true) (fun _ _ _ hs hsmall hs' => hs (small_connected hsmall hs')) hgone
  exact this hconnected

end Connected

/-! ## Runs of the two parties -/

section Net

variable {id remoteId size : Nat} {n n' : Ssh.Net}

theorem net_connected (hrun : Relation.ReflTransGen (Ssh.NetStep id remoteId size) n n')
    (hconnected : n'.session.connected = true) : n.session.connected = true := by
  induction hrun with
  | refl => exact hconnected
  | tail _ hstep ih =>
    apply ih
    cases hstep with
    | client l s' hsmall _ => exact small_connected hsmall hconnected
    | deliver data rest s' rc _ hadd => exact packetAdd_connected hadd hconnected
    | _ => exact hconnected

/-- After its end the server writes nothing. -/
theorem net_ended (hrun : Relation.ReflTransGen (Ssh.NetStep id remoteId size) n n') (hended : n.ended = true) :
    n'.ended = true ∧ n'.written = n.written := by
  induction hrun with
  | refl => exact ⟨hended, rfl⟩
  | tail _ hstep ih =>
    obtain ⟨hended', hwritten⟩ := ih
    cases hstep with
    | write code payload _ hopen _ _ =>
      rw [hended'] at hopen
      cases hopen
    | other data _ => exact ⟨by simp [hended'], hwritten⟩
    | _ => exact ⟨hended', hwritten⟩

theorem net_got (hrun : Relation.ReflTransGen (Ssh.NetStep id remoteId size) n n') (k : Int) :
    n.got k <+: n'.got k := by
  induction hrun with
  | refl => exact List.prefix_rfl
  | tail _ hstep ih =>
    cases hstep with
    | client l s' _ _ => exact ih.trans (List.prefix_append _ _)
    | _ => exact ih

/-- The server has ended its data, and all of this stream was read. -/
def Settled (k : Int) (n : Ssh.Net) : Prop := n.ended = true ∧ n.got k = n.written k

theorem Settled.run {k : Int} (h : Settled k n) (hflow : Ssh.Flowing id remoteId size n')
    (hrun : Relation.ReflTransGen (Ssh.NetStep id remoteId size) n n') : Settled k n' := by
  obtain ⟨hended, hwritten⟩ := net_ended hrun h.1
  refine ⟨hended, ?_⟩
  obtain ⟨c, hown⟩ := hflow.own
  have hall : n'.got k <+: n'.written k := by
    rw [← hown.streams k, List.append_assoc]
    exact List.prefix_append _ _
  have hback : n'.written k <+: n'.got k := by
    rw [hwritten, ← h.2]
    exact net_got hrun k
  exact hall.eq_of_length_le hback.length_le

/-- No read of the wrapper can make the window overflow. -/
def Wide (id : Nat) (n : Ssh.Net) : Prop :=
  ∀ c, n.session.channelLocate id = some c → c.windowSizeInitial + bufferSize + Ssh.minAdjust < 2 ^ 32

theorem small_wide {s s' : Ssh.Session} {l : Ssh.Label} {c c' : Ssh.Channel} (hs : Ssh.Sound s)
    (hsmall : Ssh.Small s l s') (hc : s.channelLocate id = some c) (hc' : s'.channelLocate id = some c') :
    c'.windowSizeInitial = c.windowSizeInitial := by
  rcases Ssh.small_terms hs hsmall hc' with ⟨windowSize, packetSize, rfl, -⟩ | ⟨e, he, hterms⟩
  · -- A new channel gets a number that is free.
    cases hsmall with
    | link =>
      have hlt := hs.fresh c (locate_mem hc)
      rw [Ssh.locate_localId hc, Ssh.nextid_eq hs] at hlt
      omega
  · obtain rfl := Option.some.inj (hc.symm.trans he)
    rcases hterms with hterms | ⟨mode, -, hterms⟩
    · exact congrArg Prod.fst hterms
    · exact congrArg Prod.fst hterms

theorem Wide.run (hid : id < 2 ^ 32) (h : Wide id n) (hflow : Ssh.Flowing id remoteId size n)
    (hrun : Relation.ReflTransGen (Ssh.NetStep id remoteId size) n n') : Wide id n' := by
  induction hrun with
  | refl => exact h
  | @tail t u hfirst hstep ih =>
    have hflow' := hflow.run hid hfirst
    obtain ⟨c, hown⟩ := hflow'.own
    have hsame {s' : Ssh.Session} {l : Ssh.Label} (hsmall : Ssh.Small t.session l s') :
        ∀ c', s'.channelLocate id = some c' → c'.windowSizeInitial + bufferSize + Ssh.minAdjust < 2 ^ 32 := by
      intro c' hc'
      rw [small_wide hflow'.sound hsmall hown.located hc']
      exact ih c hown.located
    cases hstep with
    | client l s' hsmall _ => exact hsame hsmall
    | deliver data rest s' rc _ hadd => exact hsame (.arrive ⟨data, true, 0⟩ rc rfl hadd)
    | _ => exact ih

theorem arriving_injective {a b : List Bytes} (h : Ssh.arriving a = Ssh.arriving b) : a = b := by
  refine List.map_injective_iff.mpr ?_ h
  intro x y hxy
  exact congrArg Ssh.Arrival.data hxy

theorem Typed.later {now done left later : List Bytes} (h : Typed n) (hwire : n.wire = now ++ later)
    (hnow : now = done ++ left) : ∀ data ∈ left ++ later, data.head? ≠ some 0 := by
  intro data hdata
  refine h data ?_
  rw [hwire, hnow, List.append_assoc]
  exact List.mem_append_right _ hdata

/-- A read is a part of the run, and takes its packets from the front of the wire. -/
theorem Reads.net {stream : Stream} {rc : Int} {bytes : Bytes} (h : Reads id n stream rc bytes n')
    (hflow : Ssh.Flowing id remoteId size n) (hwide : Wide id n) (htyped : Typed n) :
    Relation.ReflTransGen (Ssh.NetStep id remoteId size) n n' ∧ Typed n' := by
  obtain ⟨now, later, left, s', hwire, hread, rfl⟩ := h
  have hsend : ∀ a ∈ Ssh.arriving now, a.sendRc = 0 := by simp [Ssh.arriving]
  have hspec := Ssh.channelReadEx_spec hflow.sound hsend (by decide) hwide hread
  obtain ⟨t, done, left', hnow, hleft, hnet, hcopied⟩ := hspec.net remoteId size hwire
  obtain rfl := arriving_injective hleft
  refine ⟨hnet.trans ?_, htyped.later hwire hnow⟩
  rcases hcopied with ⟨-, rfl, rfl⟩ | ⟨c, ret, hc, hcopy, -⟩
  · have hsame : (fun k => n.got k ++ if k = streamId stream then [] else []) = n.got := by simp
    rw [hsame]
  · obtain rfl := Ssh.locate_localId hc
    have hsmall := Ssh.Small.copy c (streamId stream) bufferSize ret hc
    rw [hcopy] at hsmall
    refine .single ?_
    let net := { n with session := t, wire := left ++ later }
    have hstep : Ssh.NetStep c.localId remoteId size net _ := .client _ _ hsmall trivial
    simpa [Ssh.readBy, eq_comm] using hstep

theorem Closes.net {rc : Int} (remoteId size : Nat) (h : Closes id n rc n') (htyped : Typed n) :
    Relation.ReflTransGen (Ssh.NetStep id remoteId size) n n' ∧ Typed n' ∧ n'.got = n.got := by
  obtain ⟨now, later, left, s', hwire, hclose, rfl⟩ := h
  have hsend : ∀ a ∈ Ssh.arriving now, a.sendRc = 0 := by simp [Ssh.arriving]
  obtain ⟨first, done, ending, hmade, hfirst, hending⟩ := Ssh.channelClose_spec hsend hclose
  have hplain : ∀ l ∈ first ++ done.map .arrive ++ ending,
      l.ownOf id = true ∧ ∀ stream, Ssh.readBy id stream l = [] := by
    intro l hl
    rcases List.mem_append.mp hl with hl | hl
    · rcases List.mem_append.mp hl with hl | hl
      · rcases hfirst l hl with rfl | rfl
        · exact ⟨rfl, fun _ => rfl⟩
        · exact ⟨rfl, fun _ => rfl⟩
      · obtain ⟨a, -, rfl⟩ := List.mem_map.mp hl
        exact ⟨rfl, fun _ => rfl⟩
    · rcases hending with rfl | rfl
      · cases hl
      · rw [List.mem_singleton.mp hl]
        exact ⟨rfl, fun _ => rfl⟩
  obtain ⟨taken, left', hnow, hleft, hnet⟩ := hmade.net remoteId size hwire hplain
  obtain rfl := arriving_injective hleft
  exact ⟨hnet, htyped.later hwire hnow, rfl⟩

/-- Nothing is left of a channel that was freed. -/
theorem Frees.gone {rc : Int} (h : Frees id n rc n') (hrc : rc ≠ Ssh.errorEagain) (hid : id < 2 ^ 32)
    (hs : Ssh.Sound n.session) (htyped : Typed n) :
    n'.session.channelLocate id = none ∧ Typed n' ∧ (n'.session.connected = true → n.session.connected = true) := by
  obtain ⟨now, later, left, s', hwire, hfree, rfl⟩ := h
  have hsend : ∀ a ∈ Ssh.arriving now, a.sendRc = 0 := by simp [Ssh.arriving]
  obtain ⟨first, done, ending, hmade, -, -, hgone⟩ := Ssh.channelFree_spec hid hsend hfree
  refine ⟨?_, ?_, made_connected hmade⟩
  · obtain ⟨labels, t, hpath, rfl⟩ := hgone hrc
    have ht : Ssh.Sound t := hpath.invariant Ssh.Sound (fun _ _ _ hs hsmall => hs.small hsmall) hs
    show (t.forget id).channelLocate id = none
    rw [Ssh.forget_spec hid]
    exact locate_remove_self ht.distinct
  · obtain ⟨taken, left', hnow, -, hleft⟩ := List.map_eq_append_iff.mp hmade.order
    obtain rfl := arriving_injective hleft
    exact htyped.later hwire hnow

end Net

/-! ## The log and the network -/

/-- The reads of one stream. -/
def readsOf (l : CommandLog) : Stream → List ReadResult
  | .stdout => l.stdout
  | .stderr => l.stderr

/-- The chunks that the log has are the bytes that the client got, and after the last of them the server has
nothing more to say. -/
structure Noted (handle : Handle) (l : CommandLog) (n : Ssh.Net) : Prop where
  channel : l.channel = some handle
  read : ∀ stream, sent (readChunks (readsOf l stream)) = n.got (streamId stream)
  ended : ∀ stream, .eof ∈ readsOf l stream → n.session.connected = true → Settled (streamId stream) n

/-- What the log has to do with the network, from the start of a round to its end. `count` channels were opened
before. -/
structure Agrees (handle : Handle) (id remoteId size count : Nat) (log : Log) (n : Ssh.Net) : Prop where
  state : n.session.channelLocate id = none ∨ (Ssh.Flowing id remoteId size n ∧ Wide id n)
  typed : Typed n
  opened : count ≤ log.opened
  noted : log.opened = count → Noted handle log.current n

section Agrees

variable {handle : Handle} {id remoteId size count : Nat} {log : Log} {l l' : CommandLog} {n n' : Ssh.Net}

theorem Noted.step (new : Stream → List ReadResult) (h : Noted handle l n) (hchannel : l'.channel = some handle)
    (hreads : ∀ stream, readsOf l' stream = readsOf l stream ++ new stream)
    (hgot : ∀ stream, n'.got (streamId stream) = n.got (streamId stream) ++ sent (readChunks (new stream)))
    (hsettled : ∀ k, Settled k n → Settled k n')
    (hconnected : n'.session.connected = true → n.session.connected = true)
    (hended : ∀ stream, .eof ∈ new stream → n'.session.connected = true → Settled (streamId stream) n') :
    Noted handle l' n' := by
  refine ⟨hchannel, fun stream => ?_, fun stream heof hc => ?_⟩
  · rw [hreads, hgot, ← h.read stream, readChunks_append]
    simp [sent]
  · rw [hreads] at heof
    rcases List.mem_append.mp heof with heof | heof
    · exact hsettled _ (h.ended stream heof (hconnected hc))
    · exact hended stream heof hc

/-- Calls other than a read of the channel note nothing about its output. -/
theorem next_reads (log : Log) (c : Call) (r : Reply c)
    (hc : ∀ stream, c ≠ .libssh2ChannelRead handle stream) :
    (log.next c r).opened = log.opened + 1 ∨ (log.next c r).opened = log.opened ∧
      (log.current.channel = some handle → (log.next c r).current.channel = some handle ∧
        ∀ stream, readsOf (log.next c r).current stream = readsOf log.current stream) := by
  have hnote (log : Log) (channel : Handle) (f : CommandLog → CommandLog)
      (hf : channel = handle → ∀ l, (f l).channel = l.channel ∧ ∀ stream, readsOf (f l) stream = readsOf l stream) :
      (log.note channel f).opened = log.opened ∧ (log.current.channel = some handle →
        (log.note channel f).current.channel = some handle ∧
          ∀ stream, readsOf (log.note channel f).current stream = readsOf log.current stream) := by
    unfold Log.note
    split
    next hsame =>
      refine ⟨rfl, fun hchannel => ?_⟩
      obtain ⟨hkept, hreads⟩ := hf (Option.some.inj (hsame.symm.trans hchannel)) log.current
      exact ⟨hkept.trans hchannel, hreads⟩
    next => exact ⟨rfl, fun hchannel => ⟨hchannel, fun _ => rfl⟩⟩
  cases c with
  | libssh2ChannelOpenSession session =>
    cases r with
    | some channel => exact .inl rfl
    | none => exact .inr ⟨rfl, fun hchannel => ⟨hchannel, fun _ => rfl⟩⟩
  | libssh2ChannelRead channel stream =>
    have hne : channel ≠ handle := fun heq => hc stream (by rw [heq])
    cases stream with
    | stdout => exact .inr (hnote _ channel _ fun heq => absurd heq hne)
    | stderr => exact .inr (hnote _ channel _ fun heq => absurd heq hne)
  | libssh2ChannelExec channel command =>
    exact .inr (hnote _ channel _ fun _ l => ⟨rfl, fun stream => by cases stream <;> rfl⟩)
  | libssh2ChannelClose channel =>
    exact .inr (hnote _ channel _ fun _ l => ⟨rfl, fun stream => by cases stream <;> rfl⟩)
  | libssh2ChannelGetExitStatus channel =>
    exact .inr (hnote _ channel _ fun _ l => ⟨rfl, fun stream => by cases stream <;> rfl⟩)
  | libssh2ChannelGetExitSignal channel =>
    exact .inr (hnote _ channel _ fun _ l => ⟨rfl, fun stream => by cases stream <;> rfl⟩)
  | libssh2ChannelFree channel =>
    refine .inr ?_
    simp only [Log.next]
    split
    · exact ⟨rfl, fun hchannel => ⟨hchannel, fun _ => rfl⟩⟩
    · exact ⟨rfl, fun hchannel => ⟨hchannel, fun _ => rfl⟩⟩
  | _ => exact .inr ⟨rfl, fun hchannel => ⟨hchannel, fun _ => rfl⟩⟩

/-- The log after a call that is not a read of the channel. -/
theorem Agrees.unread (h : Agrees handle id remoteId size count log n) {c : Call} {r : Reply c}
    (hc : ∀ stream, c ≠ .libssh2ChannelRead handle stream) :
    Agrees handle id remoteId size count (log.next c r) n := by
  have hopened := h.opened
  rcases next_reads log c r hc with hmore | ⟨hsame, hreads⟩
  · exact ⟨h.state, h.typed, by omega, fun heq => absurd heq (by omega)⟩
  · refine ⟨h.state, h.typed, by omega, fun heq => ?_⟩
    have hnoted := h.noted (hsame.symm.trans heq)
    obtain ⟨hchannel, hreads⟩ := hreads hnoted.channel
    refine hnoted.step (fun _ => []) hchannel ?_ ?_ (fun _ hk => hk) (fun hk => hk) nofun
    · simpa using hreads
    · simp [sent, readChunks]

/-- Steps in which the client reads nothing. -/
theorem Agrees.moved (hid : id < 2 ^ 32) (h : Agrees handle id remoteId size count log n)
    (hrun : Relation.ReflTransGen (Ssh.NetStep id remoteId size) n n') (hgot : n'.got = n.got) (htyped : Typed n')
    (hgone : n.session.channelLocate id = none → n'.session.channelLocate id = none) :
    Agrees handle id remoteId size count log n' := by
  refine ⟨?_, htyped, h.opened, fun hsame => ?_⟩
  · rcases h.state with hnone | ⟨hflow, hwide⟩
    · exact .inl (hgone hnone)
    · exact .inr ⟨hflow.run hid hrun, hwide.run hid hflow hrun⟩
  · have hnoted := h.noted hsame
    refine hnoted.step (fun _ => []) hnoted.channel (by simp) (by simp [hgot, sent, readChunks]) ?_
      (net_connected hrun) nofun
    intro k hsettled
    obtain ⟨hended, hwritten⟩ := net_ended hrun hsettled.1
    exact ⟨hended, by rw [hgot, hwritten, hsettled.2]⟩

theorem Agrees.closed {rc : Int} (hid : id < 2 ^ 32) (h : Agrees handle id remoteId size count log n)
    (hcloses : Closes id n rc n') : Agrees handle id remoteId size count log n' := by
  obtain ⟨hrun, htyped, hgot⟩ := hcloses.net remoteId size h.typed
  refine h.moved hid hrun hgot htyped fun hnone => ?_
  obtain ⟨now, later, left, s', -, hclose, -⟩ := hcloses
  unfold Ssh.channelClose at hclose
  simp [hnone] at hclose

theorem Agrees.freed {rc : Int} (hid : id < 2 ^ 32) (h : Agrees handle id remoteId size count log n)
    (hfrees : Frees id n rc n') (hrc : rc ≠ Ssh.errorEagain) : Agrees handle id remoteId size count log n' := by
  rcases h.state with hnone | ⟨hflow, -⟩
  · obtain ⟨now, later, left, s', -, hfree, -⟩ := hfrees
    unfold Ssh.channelFree at hfree
    simp [hnone] at hfree
  · obtain ⟨hgone, htyped, hconnected⟩ := hfrees.gone hrc hid hflow.sound h.typed
    refine ⟨.inl hgone, htyped, h.opened, fun hsame => ?_⟩
    have hnoted := h.noted hsame
    obtain ⟨now, later, left, s', -, -, rfl⟩ := hfrees
    exact hnoted.step (fun _ => []) hnoted.channel (by simp) (by simp [sent, readChunks]) (fun _ hk => hk)
      hconnected nofun

/-- A read appends to the log what it appends to the bytes of its stream. -/
theorem next_read (log : Log) (r : ReadResult) (stream : Stream) (h : log.current.channel = some handle) :
    (log.next (.libssh2ChannelRead handle stream) r).current.channel = some handle ∧
      ∀ other, readsOf (log.next (.libssh2ChannelRead handle stream) r).current other =
        readsOf log.current other ++ if other = stream then [r] else [] := by
  cases stream with
  | stdout =>
    simp only [Log.next, Log.note, h, if_true]
    exact ⟨trivial, fun other => by cases other <;> simp [readsOf]⟩
  | stderr =>
    simp only [Log.next, Log.note, h, if_true]
    exact ⟨trivial, fun other => by cases other <;> simp [readsOf]⟩

theorem next_read_opened (log : Log) (r : ReadResult) (stream : Stream) :
    (log.next (.libssh2ChannelRead handle stream) r).opened = log.opened := by
  cases stream with
  | stdout =>
    simp only [Log.next, Log.note]
    split <;> rfl
  | stderr =>
    simp only [Log.next, Log.note]
    split <;> rfl

theorem streamId_injective {a b : Stream} (h : streamId a = streamId b) : a = b := by
  cases a <;> cases b <;> first | rfl | cases h

/-- The log after a read of the channel. -/
theorem Agrees.read (hid : id < 2 ^ 32) (h : Agrees handle id remoteId size count log n) {stream : Stream}
    {r : ReadResult} {rc : Int} {bytes : Bytes} (hreads : Reads id n stream rc bytes n')
    (hbytes : sent (readChunks [r]) = bytes) (heof : r = .eof → rc = 0) :
    Agrees handle id remoteId size count (log.next (.libssh2ChannelRead handle stream) r) n' := by
  rcases h.state with hgone | ⟨hflow, hwide⟩
  · -- There is no channel to read from.
    obtain ⟨now, later, left, s', -, hread, -⟩ := hreads
    unfold Ssh.channelReadEx at hread
    simp [hgone] at hread
  · obtain ⟨hrun, htyped⟩ := hreads.net hflow hwide h.typed
    have hflow' := hflow.run hid hrun
    refine ⟨.inr ⟨hflow', hwide.run hid hflow hrun⟩, htyped, ?_, fun hsame => ?_⟩
    · rw [next_read_opened]
      exact h.opened
    · rw [next_read_opened] at hsame
      have hnoted := h.noted hsame
      obtain ⟨hchannel, hnext⟩ := next_read log r stream hnoted.channel
      refine hnoted.step _ hchannel hnext ?_ (fun _ hsettled => hsettled.run hflow' hrun) (net_connected hrun) ?_
      · intro other
        obtain ⟨now, later, left, s', -, -, rfl⟩ := hreads
        by_cases hother : other = stream
        · simp only [hother, if_true, hbytes]
        · have hne : streamId other ≠ streamId stream := fun heq => hother (streamId_injective heq)
          simp [hother, hne, readChunks, sent]
      · intro other hmem hconnected
        by_cases hother : other = stream
        · subst hother
          simp only [if_true, List.mem_singleton] at hmem
          obtain rfl := heof hmem.symm
          refine Settled.run (n := n) ?_ hflow' hrun
          obtain ⟨now, later, left, s', hwire, hread, rfl⟩ := hreads
          rcases hflow.read_zero hid hwire (by decide) (by decide) hwide hread with hsettled | hgone | ⟨data, hdata, htype⟩
          · exact hsettled
          · exact absurd hconnected (by simp [hgone])
          · exact absurd htype (h.typed data (by rw [hwire]; exact List.mem_append_left _ hdata))
        · simp [hother] at hmem

/-- The log after a read that gave up waiting. -/
theorem Agrees.failed (h : Agrees handle id remoteId size count log n) (stream : Stream) (e : ErrorCode) :
    Agrees handle id remoteId size count (log.next (.libssh2ChannelRead handle stream) (ReadResult.error e)) n := by
  refine ⟨h.state, h.typed, ?_, fun hsame => ?_⟩
  · rw [next_read_opened]
    exact h.opened
  · rw [next_read_opened] at hsame
    have hnoted := h.noted hsame
    obtain ⟨hchannel, hnext⟩ := next_read log (.error e) stream hnoted.channel
    refine hnoted.step _ hchannel hnext ?_ (fun _ hk => hk) (fun hk => hk) ?_
    · intro other
      split <;> simp [readChunks, sent]
    · intro other hmem
      split at hmem <;> simp at hmem

theorem serves_agrees (hid : id < 2 ^ 32) (h : Agrees handle id remoteId size count log n) {c : Call} {r : Reply c}
    (hserves : serves handle id n () c r n') : Agrees handle id remoteId size count (log.next c r) n' := by
  unfold serves at hserves
  split at hserves
  next hhandle =>
    cases c with
    | libssh2ChannelRead channel stream =>
      obtain rfl : channel = handle := Option.some.inj hhandle
      cases r with
      | data chunk => exact h.read hid hserves (by simp [readChunks, sent]) (by simp)
      | eof => exact h.read hid hserves (by simp [readChunks, sent]) fun _ => rfl
      | error e =>
        rcases hserves with ⟨-, hreads⟩ | rfl
        · exact h.read hid hreads (by simp [readChunks, sent]) (by simp)
        · exact h.failed stream e
    | libssh2ChannelClose channel =>
      rcases hserves with ⟨-, hcloses⟩ | ⟨-, rfl⟩
      · exact (h.closed hid hcloses).unread (by simp)
      · exact h.unread (by simp)
    | libssh2ChannelGetExitStatus channel =>
      obtain ⟨-, rfl⟩ := hserves
      exact h.unread (by simp)
    | libssh2ChannelFree channel =>
      rcases hserves with ⟨rc, hrc, hfrees⟩ | rfl
      · exact (h.freed hid hfrees hrc).unread (by simp)
      · exact h.unread (by simp)
    | _ => cases hhandle
  next hhandle =>
    subst hserves
    refine h.unread fun stream heq => hhandle ?_
    rw [heq]
    rfl

theorem moves_agrees (hid : id < 2 ^ 32) {p : CommandPool} (h : Agrees handle id remoteId size count log p.shared)
    (hmoves : Moves id remoteId size p n') (htyped : Typed n') : Agrees handle id remoteId size count log n' := by
  cases hmoves with
  | server _ hstep hsession hgot => exact h.moved hid (.single hstep) hgot htyped fun hnone => hsession ▸ hnone
  | again channel stream k _ _ hreads =>
    rcases h.state with hgone | ⟨hflow, hwide⟩
    · obtain ⟨now, later, left, s', -, hread, -⟩ := hreads
      unfold Ssh.channelReadEx at hread
      simp [hgone] at hread
    · obtain ⟨hrun, -⟩ := hreads.net hflow hwide h.typed
      refine h.moved hid hrun ?_ htyped fun hnone => ?_
      · obtain ⟨now, later, left, s', -, -, rfl⟩ := hreads
        simp
      · obtain ⟨c, hown⟩ := hflow.own
        cases hnone.symm.trans hown.located

end Agrees

/-! ## The end of the round -/

section Round

variable {c₀ : CommandFrame} {s₀ : Log}

def RoundPost (c₀ : CommandFrame) (s₀ : Log) : Label ⊕ Outcome → Log → Prop
  | .inl (.stdoutLoop c), s => ∃ chunks, ReadsStdout c₀ s₀ chunks c s
  | .inl (.stderrLoop c), s => ∃ outs chunks, ReadsStderr c₀ s₀ outs chunks c s
  | .inl (.commandLoop f i), s => RoundEnd c₀ s₀ f i s
  | .inl _, _ => False
  | .inr o, s => ∃ f i, RoundEnd c₀ s₀ f i s ∧ o = f.pyResponse

theorem oneCommand_spec (hstart : RoundStart c₀ s₀) : Verified anyLog oneCommand (RoundPost c₀ s₀) := by
  intro l s h
  cases l with
  | stdoutLoop c =>
    obtain ⟨chunks, hreads⟩ := h
    exact stdoutLoop_spec hstart hreads (fun _ => trivial) (fun _ _ _ => trivial)
      (fun chunk c' s' _ hreads' => ⟨_, hreads'⟩) fun c' s' _ hreads' => ⟨_, _, hreads'⟩
  | stderrLoop c =>
    obtain ⟨outs, chunks, hreads⟩ := h
    exact stderrLoop_spec hstart hreads (fun _ => trivial) (fun _ _ _ => trivial)
      (fun chunk c' s' _ hreads' => ⟨_, _, hreads'⟩) fun f i s' _ _ _ hend => hend
  | commandLoop f i => exact ⟨f, i, h, rfl⟩
  | _ => exact h.elim

/-- Steps after which no packet of type 0 is on its way. -/
def typedSteps (_ : CommandPool) (a : Action Reply Unit Ssh.Net) : Prop := ∀ n', a = .world n' → Typed n'

variable {handle : Handle} {id remoteId size : Nat} {n n₁ : Ssh.Net} {p : CommandPool}

theorem start_agrees (hid : id < 2 ^ 32) (hstarted : Ssh.Started id remoteId size n) (hwide : Wide id n)
    (hexec : Relation.ReflTransGen (Ssh.NetStep id remoteId size) n n₁) (hnothing : ∀ k, n₁.got k = [])
    (htyped : Typed n₁) (c : CommandFrame) :
    Agrees c.sshChannel id remoteId size (startLog c).opened (startLog c) n₁ := by
  refine ⟨.inr ⟨hstarted.flowing.run hid hexec, hwide.run hid hstarted.flowing hexec⟩, htyped, Nat.le_refl _, fun _ => ?_⟩
  refine ⟨rfl, fun stream => ?_, fun stream hmem => ?_⟩
  · rw [hnothing]
    cases stream <;> rfl
  · cases stream <;> cases hmem

theorem reach_agrees (hid : id < 2 ^ 32) (hstart : RoundStart c₀ s₀)
    (hagrees : Agrees c₀.sshChannel id remoteId size s₀.opened s₀ n₁)
    (hp : Reach oneCommand (world c₀.sshChannel id remoteId size) typedSteps (start c₀ n₁) p) :
    ThreadOk anyLog (RoundPost c₀ s₀) s₀ (p.threads ()) ∧
      Agrees c₀.sshChannel id remoteId size s₀.opened (p.seen (fun _ => anyLog) (fun _ => s₀) ()) p.shared := by
  obtain ⟨hthreads, hshared⟩ := reach_ok (fun _ => anyLog) (fun _ => s₀) (fun _ => RoundPost c₀ s₀)
    (fun seen n => Agrees c₀.sshChannel id remoteId size s₀.opened (seen ()) n) hp
    (fun _ => oneCommand_spec hstart) (fun _ => ⟨trivial, trivial, ⟨[], hstart.reads⟩⟩) hagrees
    (fun p i c r n' h _ hserves _ => by
      rw [Function.update_self]
      exact ⟨trivial, serves_agrees hid h hserves⟩)
    (fun p n' h hmoves hok => moves_agrees hid h hmoves (hok n' rfl))
  exact ⟨hthreads (), hshared⟩

end Round

/-! ## A command that writes `ok` -/

section Ok

/-- The server has written `ok` and has closed the channel, and nothing of it was read. -/
def okWritten : Ssh.Net where
  session := Ssh.oneChannel 2048 0 []
  wire := [Ssh.dataPacket 0 none [111, 107], 96 :: htonu32 0, 97 :: htonu32 0]
  credit := 2046
  heard := 1
  written := Function.update (fun _ => []) 0 [111, 107]
  got := fun _ => []
  ended := true

/-- The session of a call that ended well. -/
def sessionAfter {α : Type} (r : Option (Ssh.Session × α)) : Ssh.Session := (r.map Prod.fst).getD .fresh

def okRead : Ssh.Net :=
  { okWritten with
    session := sessionAfter (Ssh.channelReadEx okWritten.session 0 0 0 0 bufferSize (Ssh.arriving okWritten.wire))
    wire := []
    got := fun k => [] ++ if k = 0 then [111, 107] else [] }

def okClosed : Ssh.Net := { okRead with session := sessionAfter (Ssh.channelClose okRead.session 0 0 0 []) }

def okFreed : Ssh.Net := { okRead with session := sessionAfter (Ssh.channelFree okClosed.session 0 0 0 []) }

/-- What each of these networks answers on the channel. -/
def okAnswer (n : Ssh.Net) : (c : Call) → Reply c × Ssh.Net
  | .libssh2ChannelRead _ stream =>
    if (n.session.channelLocate 0).isNone = true then (ReadResult.error ⟨-9, by decide, by decide⟩, n)
    else if n.got 0 ≠ [] then (ReadResult.eof, n)
    else
      match stream with
      | .stdout => (ReadResult.data ⟨[111, 107], by decide, by decide⟩, okRead)
      | .stderr => (ReadResult.error ⟨-9, by decide, by decide⟩, n)
  | .libssh2ChannelClose _ =>
    if n.got 0 ≠ [] ∧ (n.session.channelLocate 0).isSome = true then ((0 : Int), okClosed) else ((-9 : Int), n)
  | .libssh2ChannelGetExitStatus _ => (((n.session.channelLocate 0).map Ssh.Channel.exitStatus).getD 0, n)
  | .libssh2ChannelFree _ =>
    if ((n.session.channelLocate 0).map Ssh.Channel.localClose) = some true then ((), okFreed) else ((), n)
  | c => (Reply.quiet c, n)

def answer (handle : Handle) (n : Ssh.Net) (c : Call) : Reply c × Ssh.Net :=
  if handleOf c = some handle then okAnswer n c else (Reply.quiet c, n)

def Ok (n : Ssh.Net) : Prop := n = okWritten ∨ n = okRead ∨ n = okClosed ∨ n = okFreed

/-- What is read from these networks. -/
theorem ok_reads :
    Ssh.channelReadEx okWritten.session 0 0 0 0 bufferSize (Ssh.arriving okWritten.wire) =
        some (okRead.session, 2, [111, 107], []) ∧
      Ssh.channelReadEx okRead.session 0 0 0 0 bufferSize [] = some (okRead.session, 0, [], []) ∧
      Ssh.channelReadEx okRead.session 0 0 0 1 bufferSize [] = some (okRead.session, 0, [], []) ∧
      Ssh.channelReadEx okClosed.session 0 0 0 0 bufferSize [] = some (okClosed.session, 0, [], []) ∧
      Ssh.channelReadEx okClosed.session 0 0 0 1 bufferSize [] = some (okClosed.session, 0, [], []) := by
  refine ⟨?_, ?_, ?_, ?_, ?_⟩ <;> decide +kernel

/-- How their channel is closed and freed. -/
theorem ok_ends :
    Ssh.channelClose okRead.session 0 0 0 [] = some (okClosed.session, 0, []) ∧
      Ssh.channelClose okClosed.session 0 0 0 [] = some (okClosed.session, 0, []) ∧
      Ssh.channelFree okClosed.session 0 0 0 [] = some (okFreed.session, 0, []) ∧
      (okRead.session.channelLocate 0).map Ssh.Channel.localClose = some false ∧
      (okClosed.session.channelLocate 0).map Ssh.Channel.localClose = some true ∧
      okFreed.session.channelLocate 0 = none := by
  decide +kernel

theorem okRead_reads : Reads 0 okWritten .stdout 2 [111, 107] okRead :=
  ⟨okWritten.wire, [], [], okRead.session, rfl, ok_reads.1, rfl⟩

theorem reads_nothing {n : Ssh.Net} {stream : Stream} (hwire : n.wire = [])
    (h : Ssh.channelReadEx n.session 0 0 0 (streamId stream) bufferSize [] = some (n.session, 0, [], [])) :
    Reads 0 n stream 0 [] n := by
  refine ⟨[], [], [], n.session, hwire, h, ?_⟩
  obtain ⟨session, wire, credit, heard, written, got, ended⟩ := n
  obtain rfl : wire = [] := hwire
  simp

theorem okRead_eof (stream : Stream) : Reads 0 okRead stream 0 [] okRead := by
  refine reads_nothing rfl ?_
  cases stream with
  | stdout => exact ok_reads.2.1
  | stderr => exact ok_reads.2.2.1

theorem okClosed_eof (stream : Stream) : Reads 0 okClosed stream 0 [] okClosed := by
  refine reads_nothing rfl ?_
  cases stream with
  | stdout => exact ok_reads.2.2.2.1
  | stderr => exact ok_reads.2.2.2.2

theorem okRead_closes : Closes 0 okRead 0 okClosed :=
  ⟨[], [], [], okClosed.session, rfl, ok_ends.1, rfl⟩

theorem okClosed_closes : Closes 0 okClosed 0 okClosed :=
  ⟨[], [], [], okClosed.session, rfl, ok_ends.2.1, rfl⟩

theorem okClosed_frees : Frees 0 okClosed 0 okFreed :=
  ⟨[], [], [], okFreed.session, rfl, ok_ends.2.2.1, rfl⟩

theorem okAnswer_serves (n : Ssh.Net) (c : Call) (h : Ok n) :
    servesChannel 0 n c (okAnswer n c).1 (okAnswer n c).2 ∧ Ok (okAnswer n c).2 := by
  have hwritten : okWritten.session.channelLocate 0 = some (Ssh.channelZero 2048 0) := rfl
  obtain ⟨-, -, -, hread, hclosed, hfreed⟩ := ok_ends
  obtain ⟨r, hread, hlocal⟩ := Option.map_eq_some_iff.mp hread
  obtain ⟨d, hclosed, hlocal'⟩ := Option.map_eq_some_iff.mp hclosed
  have hgot : okRead.got 0 = [111, 107] := rfl
  have hgot' : okClosed.got 0 = [111, 107] := rfl
  have hgot'' : okWritten.got 0 = [] := rfl
  cases c with
  | libssh2ChannelRead channel stream =>
    rcases h with rfl | rfl | rfl | rfl
    · cases stream with
      | stdout => simpa [okAnswer, hwritten, hgot'', servesChannel, Ok] using okRead_reads
      | stderr => simp [okAnswer, hwritten, hgot'', servesChannel, Ok]
    · simpa [okAnswer, hread, hgot, servesChannel, Ok] using okRead_eof stream
    · simpa [okAnswer, hclosed, hgot', servesChannel, Ok] using okClosed_eof stream
    · simp [okAnswer, hfreed, servesChannel, Ok]
  | libssh2ChannelClose channel =>
    rcases h with rfl | rfl | rfl | rfl
    · simp [okAnswer, hgot'', servesChannel, Ok]
    · simpa [okAnswer, hread, hgot, servesChannel, Ok, Ssh.errorEagain] using okRead_closes
    · simpa [okAnswer, hclosed, hgot', servesChannel, Ok, Ssh.errorEagain] using okClosed_closes
    · simp [okAnswer, hfreed, servesChannel, Ok]
  | libssh2ChannelGetExitStatus channel =>
    refine ⟨⟨fun c hc => ?_, rfl⟩, h⟩
    simp [okAnswer, hc]
  | libssh2ChannelFree channel =>
    rcases h with rfl | rfl | rfl | rfl
    · simp [okAnswer, hwritten, servesChannel, Ok, Ssh.channelZero, Ssh.newChannel]
    · simp [okAnswer, hread, hlocal, servesChannel, Ok]
    · simp only [okAnswer, hclosed, hlocal', Option.map_some, if_true, servesChannel, Ok]
      exact ⟨.inl ⟨0, by decide, okClosed_frees⟩, by simp⟩
    · simp [okAnswer, hfreed, servesChannel, Ok]
  | _ => exact ⟨rfl, h⟩

theorem answer_serves (handle : Handle) (n : Ssh.Net) (c : Call) (h : Ok n) :
    serves handle 0 n () c (answer handle n c).1 (answer handle n c).2 ∧ Ok (answer handle n c).2 := by
  unfold serves answer
  split
  · exact okAnswer_serves n c h
  · exact ⟨rfl, h⟩

end Ok

end RemoteSsh.Served
