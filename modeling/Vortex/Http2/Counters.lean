import Vortex.Http2.ReadPaths

/-! # The counters a connection keeps of its streams

Six aggregates are maintained by hand while streams come, change and go.  A `Gauge` is one of
them: what the connection has counted, and what each open stream contributes.  Its `drift` is the
difference between the count and the sum, and nearly every operation of the codec leaves the
drift of all six where it was (`Counted`).  The exceptions are a WebSocket stream, which is
dropped without releasing a body reservation or a parked producer, and the growth of the body
reservation itself.

`Accounted` adds what makes the first five exact: the cached flags of every stream are up to
date, and a stream that may become a WebSocket has reserved nothing.  The predicates the event
loop reads from the counters are then equal to scans of the table. -/

namespace Vortex.Http2

variable {a b c : Conn} {sid : ℕ}

/-! ### Gauges -/

/-- An aggregate of a connection over its streams. -/
inductive Gauge where
  | active | awaiting | backlog | blocked | buffered | parked
deriving DecidableEq, Repr

/-- What the connection has counted. -/
def Gauge.count (g : Gauge) (c : Conn) : ℤ :=
  match g with
  | .active => c.activeStreams
  | .awaiting => c.awaitingClientStreams
  | .backlog => c.backlogStreams
  | .blocked => c.windowBlockedStreams
  | .buffered => c.bufferedBytes
  | .parked => c.backedUpProducers

/-- What an open stream contributes, by its own fields and cached flags. -/
def Gauge.share (g : Gauge) (st : Stream) : ℤ :=
  match g with
  | .active => 1
  | .awaiting => (!st.endStreamSeen).toInt
  | .backlog => st.hadBacklog.toInt
  | .blocked => st.wasWindowBlocked.toInt
  | .buffered => st.bufferedCounted
  | .parked => st.respBackedUp.toInt

/-- How far the count is from the sum over the streams. -/
def Gauge.drift (g : Gauge) (c : Conn) : ℤ := g.count c - Table.total g.share c.streams

/-- The counters of a connection, with the limit on buffered request bytes. -/
structure CountView where
  activeStreams : ℤ
  awaitingClientStreams : ℤ
  backlogStreams : ℤ
  windowBlockedStreams : ℤ
  bufferedBytes : ℤ
  backedUpProducers : ℤ
  connRecvWindow : ℕ
  cfg : Config

def Conn.counts (c : Conn) : CountView where
  activeStreams := c.activeStreams
  awaitingClientStreams := c.awaitingClientStreams
  backlogStreams := c.backlogStreams
  windowBlockedStreams := c.windowBlockedStreams
  bufferedBytes := c.bufferedBytes
  backedUpProducers := c.backedUpProducers
  connRecvWindow := c.connRecvWindow
  cfg := c.cfg

/-- What a stream contributes to the gauges, and what its cached flags have to agree with. -/
structure ShareView where
  endStreamSeen : Bool
  hadBacklog : Bool
  wasWindowBlocked : Bool
  bufferedCounted : ℕ
  respBackedUp : Bool
  hasBacklog : Bool
  blocked : Bool
  headersDone : Bool
  isWsConnect : Bool
  isWs : Bool

def Stream.shares (st : Stream) : ShareView where
  endStreamSeen := st.endStreamSeen
  hadBacklog := st.hadBacklog
  wasWindowBlocked := st.wasWindowBlocked
  bufferedCounted := st.bufferedCounted
  respBackedUp := st.respBackedUp
  hasBacklog := st.hasBacklog
  blocked := st.hasBacklog && decide (st.sendWindow ≤ 0)
  headersDone := st.headersDone
  isWsConnect := st.isWsConnect
  isWs := st.ws.isSome

/-- The cached flags of the stream are up to date, and it has reserved body bytes only as a
request that will never be a WebSocket. -/
structure Stream.Tidy (st : Stream) : Prop where
  backlog : st.hadBacklog = st.hasBacklog
  blocked : st.wasWindowBlocked = (st.hasBacklog && decide (st.sendWindow ≤ 0))
  fresh : st.headersDone = false → st.bufferedCounted = 0
  tunnel : st.isWsConnect = true → st.bufferedCounted = 0
  headed : st.isWsConnect = true → st.headersDone = true
  ws : st.ws.isSome = true → st.isWsConnect = true

/-- Every open stream is tidy. -/
def Conn.Tidy (c : Conn) : Prop := ∀ s st, c.stream? s = some st → st.Tidy

/-- The limit on the request bytes buffered over all streams. -/
def Conn.bufferCap (c : Conn) : ℕ := max c.connRecvWindow c.cfg.maxBody

/-- No gauge drifts, tidy streams stay tidy and no body bytes are reserved. -/
structure Counted (a b : Conn) : Prop where
  drift : ∀ g : Gauge, g.drift b = g.drift a
  tidy : a.Tidy → b.Tidy
  buffered : b.bufferedBytes ≤ a.bufferedBytes
  cap : b.bufferCap = a.bufferCap

/-! ### How a gauge moves -/

variable {st : Stream} {o : Option ℕ} {ok : Call → Conn → Prop}

section Drift

variable {a b : Conn} {sid : ℕ} {f : Stream → Stream}

theorem Gauge.count_of_counts (g : Gauge) (h : b.counts = a.counts) : g.count b = g.count a := by
  cases g with
  | active => exact congrArg CountView.activeStreams h
  | awaiting => exact congrArg CountView.awaitingClientStreams h
  | backlog => exact congrArg CountView.backlogStreams h
  | blocked => exact congrArg CountView.windowBlockedStreams h
  | buffered => exact congrArg CountView.bufferedBytes h
  | parked => exact congrArg CountView.backedUpProducers h

theorem Gauge.share_of_shares (g : Gauge) {st' : Stream} (h : st'.shares = st.shares) :
    g.share st' = g.share st := by
  have h1 := congrArg ShareView.endStreamSeen h
  have h2 := congrArg ShareView.hadBacklog h
  have h3 := congrArg ShareView.wasWindowBlocked h
  have h4 := congrArg ShareView.bufferedCounted h
  have h5 := congrArg ShareView.respBackedUp h
  simp only [Stream.shares] at h1 h2 h3 h4 h5
  cases g <;> simp only [Gauge.share, h1, h2, h3, h4, h5]

theorem Updates.drift (hu : Updates a b sid f) (g : Gauge) (hs : ∀ st, a.stream? sid = some st →
      g.count b = g.count a + (g.share (f st) - g.share st))
    (hn : a.stream? sid = none → g.count b = g.count a) : g.drift b = g.drift a := by
  unfold Gauge.drift
  cases h : a.stream? sid with
  | none =>
    rw [hn h, hu.total_of_eq g.share (by simp [h])]
  | some st =>
    have ht := hu.total g.share h
    rw [hs st h]
    omega

theorem Updates.drift_of_shares (hu : Updates a b sid f) (hc : b.counts = a.counts)
    (hf : ∀ st, a.stream? sid = some st → (f st).shares = st.shares) (g : Gauge) :
    g.drift b = g.drift a := by
  refine hu.drift g (fun st hst => ?_) (fun _ => g.count_of_counts hc)
  rw [g.share_of_shares (hf st hst), g.count_of_counts hc]
  omega

theorem Gauge.drift_modify (g : Gauge) (hf : ∀ st : Stream, g.share (f st) = g.share st) :
    g.drift (a.modify sid f) = g.drift a :=
  (Updates.modify a sid f).drift g (fun st _ => by rw [hf, sub_self, add_zero]; rfl) (fun _ => rfl)

theorem drift_of_streams (hs : b.streams = a.streams) (hc : b.counts = a.counts) (g : Gauge) :
    g.drift b = g.drift a := by
  unfold Gauge.drift
  rw [hs, g.count_of_counts hc]

theorem drift_of_erase (hst : a.stream? sid = some st) (hs : b.streams = a.streams.erase sid)
    {g : Gauge} (hc : g.count b = g.count a - g.share st) : g.drift b = g.drift a := by
  have ht := Table.total_erase g.share hst
  unfold Gauge.drift
  rw [hs, hc]
  omega

theorem flagDelta_eq (old new : Bool) : flagDelta old new = new.toInt - old.toInt := by
  cases old <;> cases new <;> rfl

theorem ite_one_zero (b : Bool) : (if b then 1 else 0 : ℤ) = b.toInt := by
  cases b <;> rfl

theorem ite_zero_one (b : Bool) : (if b then 0 else 1 : ℤ) = (!b).toInt := by
  cases b <;> rfl

end Drift

/-! ### Tidy streams -/

theorem Stream.Tidy.of_shares {st' : Stream} (h : st'.shares = st.shares) (ht : st.Tidy) :
    st'.Tidy := by
  simp only [Stream.shares, ShareView.mk.injEq] at h
  obtain ⟨-, hbacklog, hblocked, hcounted, -, hhas, his, hdone, htunnel, hws⟩ := h
  exact ⟨by rw [hbacklog, hhas, ht.backlog], by rw [hblocked, his, ht.blocked],
    fun h => hcounted.trans (ht.fresh (hdone ▸ h)),
    fun h => hcounted.trans (ht.tunnel (htunnel ▸ h)),
    fun h => hdone.trans (ht.headed (htunnel ▸ h)), fun h => htunnel.trans (ht.ws (hws ▸ h))⟩

theorem Conn.Tidy.updates {f : Stream → Stream} (hu : Updates a b sid f)
    (hf : ∀ st, a.stream? sid = some st → st.Tidy → (f st).Tidy) (h : a.Tidy) : b.Tidy :=
  hu.forall_stream (fun st hst => hf st hst (h sid st hst)) (fun s st _ hst => h s st hst)

theorem Conn.Tidy.of_streams (hs : b.streams = a.streams) (h : a.Tidy) : b.Tidy := by
  intro s st hst
  rw [Conn.stream?, hs] at hst
  exact h s st hst

theorem Stream.Tidy.synced (hf : st.headersDone = false → st.bufferedCounted = 0)
    (ht : st.isWsConnect = true → st.bufferedCounted = 0)
    (hh : st.isWsConnect = true → st.headersDone = true)
    (hw : st.ws.isSome = true → st.isWsConnect = true) : st.synced.Tidy :=
  ⟨rfl, rfl, hf, ht, hh, hw⟩

/-! ### Operations that keep every gauge -/

namespace Counted

variable {a b c : Conn} {sid : ℕ} {f : Stream → Stream}

theorem refl (c : Conn) : Counted c c := ⟨fun _ => rfl, id, le_refl _, rfl⟩

theorem trans (h1 : Counted a b) (h2 : Counted b c) : Counted a c :=
  ⟨fun g => (h2.drift g).trans (h1.drift g), fun h => h2.tidy (h1.tidy h),
    h2.buffered.trans h1.buffered, h2.cap.trans h1.cap⟩

theorem cap_of_counts (hc : b.counts = a.counts) : b.bufferCap = a.bufferCap := by
  have h1 := congrArg CountView.connRecvWindow hc
  have h2 := congrArg CountView.cfg hc
  simp only [Conn.counts] at h1 h2
  unfold Conn.bufferCap
  rw [h1, h2]

theorem of_streams (hs : b.streams = a.streams) (hc : b.counts = a.counts) : Counted a b where
  drift := drift_of_streams hs hc
  tidy := Conn.Tidy.of_streams hs
  buffered := (congrArg CountView.bufferedBytes hc).le
  cap := cap_of_counts hc

theorem of_updates (hu : Updates a b sid f) (hc : b.counts = a.counts)
    (hf : ∀ st, a.stream? sid = some st → (f st).shares = st.shares) : Counted a b where
  drift := hu.drift_of_shares hc hf
  tidy := Conn.Tidy.updates hu (fun st hst ht => ht.of_shares (hf st hst))
  buffered := (congrArg CountView.bufferedBytes hc).le
  cap := cap_of_counts hc

theorem modify (c : Conn) (sid : ℕ) (hf : ∀ st : Stream, (f st).shares = st.shares) :
    Counted c (c.modify sid f) :=
  of_updates (.modify c sid f) rfl (fun st _ => hf st)

theorem note (c : Conn) (e : Event) : Counted c (c.note e) := of_streams rfl rfl

theorem send (c : Conn) (f : Frame) : Counted c (c.send f) := note c _

end Counted

section Operations

variable (c : Conn) (sid : ℕ)

theorem counted_recordEarlyClosed : Counted c (c.recordEarlyClosed sid) := by
  unfold Conn.recordEarlyClosed
  dsimp only
  split_ifs <;> exact .of_streams rfl rfl

theorem counted_creditConn (n : ℕ) : Counted c (c.creditConn n) := by
  unfold Conn.creditConn
  dsimp only
  split_ifs <;> exact .of_streams rfl rfl

theorem counted_noteDataProgress (n frames : ℕ) : Counted c (c.noteDataProgress n frames) := by
  unfold Conn.noteDataProgress
  dsimp only
  split_ifs <;> exact .of_streams rfl rfl

theorem counted_connError (err : ErrCode) : Counted c (c.connError err) := by
  unfold Conn.connError
  split_ifs <;> exact .of_streams rfl rfl

theorem counted_noteControlFrame (n : ℕ) : Counted c (c.noteControlFrame n) := by
  unfold Conn.noteControlFrame
  dsimp only
  split_ifs
  · refine Counted.trans ?_ (counted_connError _ _)
    exact .of_streams rfl rfl
  · exact .of_streams rfl rfl

theorem counted_noteIdleWindowUpdate : Counted c c.noteIdleWindowUpdate := by
  unfold Conn.noteIdleWindowUpdate
  split_ifs
  · exact .of_streams rfl rfl
  · exact counted_noteControlFrame c 1

theorem shares_credited (w n : ℕ) (st : Stream) : (st.credited w n).shares = st.shares := by
  unfold Stream.credited
  split_ifs <;> rfl

theorem counted_creditStream (n : ℕ) : Counted c (c.creditStream sid n) := by
  refine .of_updates (updates_creditStream c sid n) ?_ (fun st _ => shares_credited _ n st)
  unfold Conn.creditStream
  split
  · rfl
  · dsimp only
    split_ifs <;> rfl

theorem counted_creditConnFor (n : ℕ) : Counted c (c.creditConnFor sid n) := by
  unfold Conn.creditConnFor
  split_ifs
  · exact .refl c
  · refine Counted.trans ?_ (counted_creditConn _ n)
    exact .modify c sid (fun _ => rfl)

theorem drift_syncSendState (g : Gauge) : g.drift (c.syncSendState sid) = g.drift c := by
  refine (updates_syncSendState c sid).drift g (fun st hst => ?_) (fun hst => ?_)
  · unfold Conn.syncSendState
    rw [hst]
    cases g <;>
      simp only [Gauge.count, Gauge.share, Stream.synced, flagDelta_eq, Conn.modify] <;> omega
  · unfold Conn.syncSendState
    rw [hst]

theorem Counted.synced {sid : ℕ} {f : Stream → Stream} (hu : Updates a b sid f)
    (hc : b.counts = a.counts) (hg : ∀ (g : Gauge) st, a.stream? sid = some st →
      g.share (f st) = g.share st)
    (hf : ∀ st, a.stream? sid = some st → (f st).request = st.request ∧
      (f st).ws.isSome = st.ws.isSome) : Counted a (b.syncSendState sid) where
  drift g := by
    rw [drift_syncSendState]
    refine hu.drift g (fun st hst => ?_) (fun _ => g.count_of_counts hc)
    rw [hg g st hst, g.count_of_counts hc]
    omega
  tidy := by
    have hu' := hu.trans (updates_syncSendState b sid)
    refine Conn.Tidy.updates hu' (fun st hst ht => ?_)
    obtain ⟨hr, hw⟩ := hf st hst
    have hh : (f st).headersDone = st.headersDone := congrArg RequestView.headersDone hr
    have hb : (f st).bufferedCounted = st.bufferedCounted :=
      congrArg RequestView.bufferedCounted hr
    have hc : (f st).isWsConnect = st.isWsConnect := congrArg RequestView.isWsConnect hr
    refine .synced (fun h => ?_) (fun h => ?_) (fun h => ?_) (fun h => ?_)
    · rw [hb, ht.fresh (hh ▸ h)]
    · rw [hb, ht.tunnel (hc ▸ h)]
    · rw [hh, ht.headed (hc ▸ h)]
    · rw [hc, ht.ws (hw ▸ h)]
  buffered := by
    have e : (b.syncSendState sid).bufferedBytes = b.bufferedBytes := by
      unfold Conn.syncSendState
      split <;> rfl
    rw [e]
    exact (congrArg CountView.bufferedBytes hc).le
  cap := by
    have e : (b.syncSendState sid).bufferCap = b.bufferCap := by
      unfold Conn.syncSendState
      split <;> rfl
    rw [e]
    exact Counted.cap_of_counts hc

theorem Gauge.share_of_bare (g : Gauge) {st' : Stream} (h : st'.bare = st.bare) :
    g.share st' = g.share st := by
  have e := congrArg g.share h
  cases g <;> exact e

theorem shares_of_bare {st' : Stream} (h : st'.bare = st.bare)
    (hb : st'.hasBacklog = st.hasBacklog) : st'.shares = st.shares := by
  have e := congrArg Stream.shares h
  simp only [Stream.shares, ShareView.mk.injEq] at e ⊢
  rw [hb, Stream.sendWindow_of_bare h]
  exact ⟨e.1, e.2.1, e.2.2.1, e.2.2.2.1, e.2.2.2.2.1, rfl, rfl, e.2.2.2.2.2.2.2.1,
    e.2.2.2.2.2.2.2.2.1, Stream.isSome_of_bare h⟩

theorem counts_of_bare (h : b.bare = a.bare) : b.counts = a.counts := by
  have e := congrArg Conn.counts h
  exact e

theorem counted_sendChunk (st : Stream) (n : ℕ) (last : Bool) :
    Counted c (c.sendChunk sid st n last) := by
  have hu := ((Updates.modify (c.send (.data sid (st.unsent.take n) last)) sid (fun st => { st with
    pendingPos := st.pendingPos + n, sendWindow := int32 (st.sendWindow - n) })).congr_right
      (c := Conn.noteDataProgress
        { (c.send (.data sid (st.unsent.take n) last)).modify sid (fun st => { st with
            pendingPos := st.pendingPos + n, sendWindow := int32 (st.sendWindow - n) }) with
          connSendWindow := int32 (c.connSendWindow - n) } n 1)
      (Conn.streams_noteDataProgress _ _ _)).trans (.modify _ sid Stream.compactPendingBody)
  have hc : ∀ (c : Conn) (n frames : ℕ), (c.noteDataProgress n frames).counts = c.counts := by
    intro c n frames
    unfold Conn.noteDataProgress
    dsimp only
    split_ifs <;> rfl
  refine (Counted.send c _).trans (Counted.synced hu (hc _ _ _) (fun g st _ => ?_) (fun st _ => ⟨?_, ?_⟩))
  · rw [g.share_of_bare (bare_compactPendingBody _).1]
    cases g <;> rfl
  · exact (Stream.Quiet.of_bare (bare_compactPendingBody _).1).request
  · rw [Stream.isSome_of_bare (bare_compactPendingBody _).1]

theorem counted_syncSendState : Counted c (c.syncSendState sid) :=
  .synced (.fixed rfl (fun _ _ => rfl)) rfl (fun _ _ _ => rfl) (fun _ _ => ⟨rfl, rfl⟩)

theorem counted_directLoop {s : DirectState} (hs : s.c.stream? sid = some st)
    (hb : st.hasBacklog = false) : Counted s.c ((directLoop sid).run s).c := by
  obtain ⟨w, hu⟩ := updates_directLoop sid s
  refine .of_updates hu (by rw [directLoop_frame]; rfl) (fun st' hs' => ?_)
  obtain rfl := Option.some.inj (hs'.symm.trans hs)
  have hb' : Stream.hasBacklog { st' with sendWindow := w } = false := hb
  simp only [Stream.shares, hb, hb', Bool.false_and]

theorem counted_h2WriteDirect (data : Bytes) : Counted c (c.h2WriteDirect sid data).1 := by
  unfold Conn.h2WriteDirect
  cases hs : c.stream? sid with
  | none => exact .refl c
  | some st =>
    dsimp only
    split
    · exact .refl c
    · next hcond =>
      have hb : st.hasBacklog = false := by
        simp only [Bool.or_eq_true, not_or, Bool.not_eq_true] at hcond
        exact hcond.1.2
      have hloop := counted_directLoop (s := { c := c, rest := data }) sid hs hb
      split
      · exact (hloop.trans (counted_noteDataProgress _ _ _)).trans (counted_syncSendState _ sid)
      · exact hloop

/-! ### Flags with a counter of their own -/

theorem counted_parked {flag : Bool}
    (hu : Updates a b sid (fun st => { st with respBackedUp := flag }))
    (hc : b.counts = { a.counts with backedUpProducers := b.backedUpProducers })
    (hs : ∀ st, a.stream? sid = some st →
      b.backedUpProducers = a.backedUpProducers + flagDelta st.respBackedUp flag)
    (hn : a.stream? sid = none → b.backedUpProducers = a.backedUpProducers) : Counted a b where
  drift g := by
    have hcount : g ≠ .parked → g.count b = g.count a := by
      intro hg
      cases g with
      | active => exact congrArg CountView.activeStreams hc
      | awaiting => exact congrArg CountView.awaitingClientStreams hc
      | backlog => exact congrArg CountView.backlogStreams hc
      | blocked => exact congrArg CountView.windowBlockedStreams hc
      | buffered => exact congrArg CountView.bufferedBytes hc
      | parked => exact absurd rfl hg
    by_cases hg : g = .parked
    · subst hg
      refine hu.drift _ (fun st hst => ?_) hn
      have h := hs st hst
      rw [flagDelta_eq] at h
      exact h
    · refine hu.drift g (fun st hst => ?_) (fun _ => hcount hg)
      have hshare : g.share { st with respBackedUp := flag } = g.share st := by
        cases g with
        | parked => exact absurd rfl hg
        | _ => rfl
      rw [hcount hg, hshare]
      omega
  tidy := Conn.Tidy.updates hu (fun _ _ ht => ⟨ht.backlog, ht.blocked, ht.fresh, ht.tunnel, ht.headed, ht.ws⟩)
  buffered := by
    have h : b.bufferedBytes = a.bufferedBytes := congrArg CountView.bufferedBytes hc
    exact h.le
  cap := by
    have h1 : b.connRecvWindow = a.connRecvWindow := congrArg CountView.connRecvWindow hc
    have h2 : b.cfg = a.cfg := congrArg CountView.cfg hc
    unfold Conn.bufferCap
    rw [h1, h2]

theorem counted_clearBackedUp : Counted c (c.clearBackedUp sid) := by
  refine counted_parked sid (updates_clearBackedUp c sid) ?_ (fun st hst => ?_) (fun hst => ?_)
  · unfold Conn.clearBackedUp
    split <;> rfl
  all_goals
    unfold Conn.clearBackedUp
    rw [hst]

theorem counted_setBackedUp : Counted c (c.setBackedUp sid) := by
  refine counted_parked sid (updates_setBackedUp c sid) ?_ (fun st hst => ?_) (fun hst => ?_)
  · unfold Conn.setBackedUp
    split <;> rfl
  all_goals
    unfold Conn.setBackedUp
    rw [hst]

theorem counted_noteEndStream : Counted c (c.noteEndStream sid) where
  drift g := by
    refine (updates_noteEndStream c sid).drift g (fun st hst => ?_) (fun hst => ?_)
    · unfold Conn.noteEndStream
      rw [hst]
      cases g with
      | awaiting =>
        simp only [Gauge.count, Gauge.share, ite_zero_one, Bool.not_true]
        change _ = _ + (0 - _)
        omega
      | _ =>
        simp only [Gauge.count, Gauge.share, Conn.modify]
        omega
    · unfold Conn.noteEndStream
      rw [hst]
  tidy := Conn.Tidy.updates (updates_noteEndStream c sid)
    (fun _ _ ht => ⟨ht.backlog, ht.blocked, ht.fresh, ht.tunnel, ht.headed, ht.ws⟩)
  buffered := by
    unfold Conn.noteEndStream
    split <;> exact le_refl _
  cap := by
    unfold Conn.noteEndStream
    split <;> rfl

theorem counted_releaseBuffered : Counted c (c.releaseBuffered sid) where
  drift g := by
    refine (updates_releaseBuffered c sid).drift g (fun st hst => ?_) (fun hst => ?_)
    · unfold Conn.releaseBuffered
      rw [hst]
      cases g <;> simp only [Gauge.count, Gauge.share, Conn.modify] <;> omega
    · unfold Conn.releaseBuffered
      rw [hst]
  tidy := Conn.Tidy.updates (updates_releaseBuffered c sid)
    (fun _ _ ht => ⟨ht.backlog, ht.blocked, fun _ => rfl, fun _ => rfl, ht.headed, ht.ws⟩)
  buffered := by
    unfold Conn.releaseBuffered
    split
    · exact le_refl _
    · exact Int.sub_le_self _ (Int.natCast_nonneg _)
  cap := by
    unfold Conn.releaseBuffered
    split <;> rfl

/-! ### Streams that come and go -/

theorem Conn.Tidy.of_erase (hs : b.streams = a.streams.erase sid) (h : a.Tidy) : b.Tidy := by
  intro s st hst
  rw [Conn.stream?, hs, Table.lookup_erase_ite] at hst
  split_ifs at hst
  exact h s st hst

theorem counted_detachStream : Counted c (c.detachStream sid) := by
  unfold Conn.detachStream
  cases hs : c.stream? sid with
  | none => exact .refl c
  | some st =>
    have h1 : Counted c (if st.endStreamSeen then c else c.recordEarlyClosed sid) := by
      split_ifs
      · exact .refl c
      · exact counted_recordEarlyClosed c sid
    have h2 := h1.trans (counted_creditConn _ st.connDeferred)
    have hst : ((if st.endStreamSeen then c else c.recordEarlyClosed sid).creditConn
        st.connDeferred).stream? sid = some st := by
      rw [← hs]
      unfold Conn.stream?
      rw [Conn.streams_creditConn]
      split_ifs
      · rfl
      · rw [Conn.streams_recordEarlyClosed]
    dsimp only
    generalize ((if st.endStreamSeen then c else c.recordEarlyClosed sid).creditConn
      st.connDeferred) = c1 at h2 hst ⊢
    refine h2.trans ⟨fun g => drift_of_erase hst rfl ?_, Conn.Tidy.of_erase sid rfl, ?_, rfl⟩
    · cases g <;> simp only [Gauge.count, Gauge.share, Conn.note, Conn.dropStreamCounters,
        ite_zero_one, ite_one_zero]
    · exact Int.sub_le_self _ (Int.natCast_nonneg _)

/-- A WebSocket stream is dropped with its reservation and its parked mark left in the counts. -/
theorem drift_dropWsStream (hs : c.stream? sid = some st) {g : Gauge}
    (hb : g = .buffered → st.bufferedCounted = 0) (hp : g = .parked → st.respBackedUp = false) :
    g.drift (c.dropWsStream sid) = g.drift c := by
  unfold Conn.dropWsStream
  rw [hs]
  refine drift_of_erase hs rfl ?_
  cases g with
  | buffered =>
    simp only [Gauge.count, Gauge.share, Conn.note, Conn.dropStreamCounters, hb rfl]
    omega
  | parked =>
    simp only [Gauge.count, Gauge.share, Conn.note, Conn.dropStreamCounters, hp rfl]
    change _ = _ - 0
    omega
  | _ => simp only [Gauge.count, Gauge.share, Conn.note, Conn.dropStreamCounters,
      ite_zero_one, ite_one_zero]

theorem counted_openStream (hn : c.stream? sid = none) : Counted c (c.openStream sid) := by
  have hstream := @stream_openStream c sid
  obtain ⟨u, i, p, e⟩ := openStream_eq c sid
  rw [e] at hstream ⊢
  refine ⟨fun g => ?_, fun ht s st hst => ?_, le_rfl, rfl⟩
  · have ht := Table.total_insert_of_none g.share (c.newStream u i) hn
    unfold Gauge.drift
    rw [ht]
    cases g <;> simp only [Gauge.count, Gauge.share, Conn.newStream, Bool.not_false,
      Bool.toInt_true, Bool.toInt_false] <;> omega
  · rcases hstream hst with ⟨-, u, i, rfl⟩ | ⟨-, h⟩
    · exact ⟨rfl, rfl, fun _ => rfl, fun _ => rfl, fun h => (by cases h), fun h => (by cases h)⟩
    · exact ht s st h

end Operations

/-! ### The pieces of a run -/

theorem counted_attachWs (hs : c.stream? sid = some st)
    (hw : st.isWsConnect = true) : Counted c (c.attachWs sid) where
  drift g := g.drift_modify (fun _ => by cases g <;> rfl)
  tidy := Conn.Tidy.updates (.modify c sid _) (fun st' hst ht => by
    obtain rfl := Option.some.inj (hst.symm.trans hs)
    exact ⟨ht.backlog, ht.blocked, ht.fresh, ht.tunnel, ht.headed, fun _ => hw⟩)
  buffered := le_refl _
  cap := rfl

theorem Stroke.counted (h : Stroke a b) : Counted a b := by
  cases h with
  | note ho hf => exact .note a _
  | other hv hs => exact .of_streams hs (counts_of_bare hv)
  | update hv hs hf =>
    exact .of_updates (.of_streams hs) (counts_of_bare hv)
      (fun st _ => shares_of_bare (hf st).1 (hf st).2)
  | synced hf =>
    exact .synced (.modify a _ _) rfl (fun g st _ => g.share_of_bare (hf st))
      (fun st _ => ⟨(Stream.Quiet.of_bare (hf st)).request, Stream.isSome_of_bare (hf st)⟩)
  | block | bareEnd => exact .of_streams rfl rfl
  | chunk hs hn => exact counted_sendChunk _ _ _ _ _
  | direct sid data => exact counted_h2WriteDirect a sid data
  | setBackedUp sid => exact counted_setBackedUp a sid
  | clearBackedUp sid => exact counted_clearBackedUp a sid
  | detach sid => exact counted_detachStream a sid
  | attachWs hs hw => exact counted_attachWs hs hw
  | goawayNotice =>
    unfold Conn.h2GoawayNotice
    split_ifs <;> exact .of_streams rfl rfl
  | goaway err =>
    unfold Conn.h2Goaway
    split_ifs <;> exact .of_streams rfl rfl

theorem Strokes.counted (h : Strokes a b) : Counted a b := by
  induction h with
  | refl => exact .refl a
  | tail _ h ih => exact ih.trans h.counted

theorem counted_deliver (c : Conn) (sid cb : ℕ) (st : Stream) (last : Bool) :
    Counted c (c.deliver sid cb st last) := by
  have h1 : Counted c (c.takeBody sid) := .modify c sid (fun _ => rfl)
  unfold Conn.deliver
  split_ifs
  · exact (h1.trans (.note _ _)).trans (.note _ _)
  · exact h1.trans (.note _ _)

theorem SinkAtom.counted (h : SinkAtom a b) : Counted a b := by
  cases h with
  | creditConn n => exact counted_creditConn _ n
  | creditStream sid n => exact counted_creditStream _ sid n
  | acked hs hr n =>
    exact ((Counted.note _ _).trans (counted_creditStream _ _ n)).trans
      (counted_creditConnFor _ _ n)
  | deliver hs hcb hb => exact counted_deliver _ _ _ _ _

theorem counted_storeSink (c : Conn) (sid cb : ℕ) (manualAck : Bool) :
    Counted c (c.storeSink sid cb manualAck) :=
  .of_updates (.of_streams rfl) rfl (fun _ _ => rfl)

/-! ### Frames -/

theorem counted_shiftWindows (delta : ℤ) (l : List ℕ) (c : Conn) :
    Counted c (outcome id (shiftWindows delta l c)) := by
  induction l generalizing c with
  | nil => exact .refl c
  | cons sid rest ih =>
    unfold shiftWindows
    cases hs : c.stream? sid with
    | none => exact ih c
    | some st =>
      dsimp only
      split
      · exact counted_connError c _
      · refine Counted.trans ?_ (ih _)
        refine .synced (.modify c sid _) rfl (fun g st _ => ?_) (fun _ _ => ⟨rfl, rfl⟩)
        cases g <;> rfl

theorem counted_applySetting (H : Hooks) (key value : ℕ) (c : Conn) :
    Counted c (outcome id (applySetting H key value c)) := by
  unfold applySetting
  split_ifs
  · unfold applyInitialWindow
    split_ifs
    · exact counted_connError c _
    · refine Counted.trans ?_ (counted_shiftWindows _ _ _)
      exact .of_streams rfl rfl
  · exact .of_streams rfl rfl
  · exact counted_connError c _
  · exact counted_connError c _
  · exact .refl c
  · unfold Conn.applyTableSize
    dsimp only
    split_ifs <;> exact .of_streams rfl rfl
  · exact .refl c

theorem counted_applySettings (H : Hooks) (entries : List (ℕ × ℕ)) (c : Conn) :
    Counted c (outcome id (applySettings H entries c)) :=
  rel_applySettings .refl .trans (counted_applySetting H) entries c

theorem counted_dispatch (c : Conn) (sid : ℕ) : Counted c (c.dispatch sid) := by
  refine .of_updates (updates_dispatch c sid) ?_ (fun _ _ => rfl)
  unfold Conn.dispatch Conn.noteDispatch
  split <;> rfl

theorem counted_addTrailers (c : Conn) (sid : ℕ) (fields : Fields) :
    Counted c (c.addTrailers sid fields) := by
  refine Counted.trans ?_ (counted_noteEndStream _ sid)
  exact .modify c sid (fun _ => rfl)

theorem counted_acceptHead (hs : c.stream? sid = some st)
    (hh : st.headersDone = false) (fields : Fields) (scan : HeadScan) (isWs isHead : Bool) :
    Counted c (c.acceptHead sid fields scan isWs isHead) where
  drift g := g.drift_modify (fun _ => by cases g <;> rfl)
  tidy := Conn.Tidy.updates (.modify c sid _) (fun st' hst ht => by
    obtain rfl := Option.some.inj (hst.symm.trans hs)
    refine ⟨ht.backlog, ht.blocked, fun h => ?_, fun _ => ht.fresh hh, fun _ => rfl, fun h => ?_⟩
    · cases h
    · have := ht.headed (ht.ws h)
      rw [hh] at this
      cases this)
  buffered := le_refl _
  cap := rfl

theorem counted_headed (H : Hooks) {fields : Fields} {scan : HeadScan}
    (h : HeadTaken c sid st fields scan) (es : Bool) :
    Counted c (headed H sid fields scan es c) := by
  have hroute : ∀ c : Conn, Counted c (routeHead H sid (headIsWs fields) c) := by
    intro c
    unfold routeHead
    split_ifs
    · exact .modify c sid (fun _ => rfl)
    · exact .refl c
  have hnote : ∀ c : Conn, Counted c (c.noteHead sid) := by
    intro c
    unfold Conn.noteHead
    split
    · exact .refl c
    · exact .note c _
  have h1 := counted_acceptHead h.stream h.fresh fields scan (headIsWs fields) (headIsHead fields)
  cases es with
  | false => exact (h1.trans (hroute _)).trans (hnote _)
  | true => exact ((h1.trans (counted_noteEndStream _ sid)).trans (hroute _)).trans (hnote _)

theorem Decided.counted (h : Decided sid a b) : Counted a b := by
  cases h with
  | tunnel | streamed => exact counted_dispatch _ _
  | buffered hs hw hr hd he hl =>
    exact (counted_releaseBuffered _ _).trans (counted_dispatch _ _)
  | wait hs h => exact .refl _

theorem Mismatched.counted (h : Mismatched sid a b) : Counted a b := by
  cases h with
  | streamed => exact .refl _
  | buffered => exact counted_releaseBuffered _ _

theorem FrameAtom.counted (h : FrameAtom o a b) (ho : a.Opened) : Counted a b := by
  cases h with
  | error c err => exact counted_connError _ err
  | settings H entries h hn =>
    have h1 := counted_applySettings H entries a
    rw [h] at h1
    exact h1.trans (.send _ _)
  | settingsWindow H entries h =>
    have h1 := counted_applySettings H entries a
    rw [h] at h1
    exact (h1.trans (.send _ _)).trans (strokes_enqueueBacklog _ _).counted
  | settingsFailed H entries h =>
    have h1 := counted_applySettings H entries a
    rw [h] at h1
    exact h1
  | pingAck c payload => exact .send _ _
  | charge c n => exact counted_noteControlFrame _ n
  | idleUpdate c => exact counted_noteIdleWindowUpdate _
  | countReset c =>
    unfold Conn.countReset
    dsimp only
    split_ifs
    · refine Counted.trans ?_ (counted_connError _ _)
      exact .of_streams rfl rfl
    · exact .of_streams rfl rfl
  | absorb c sid n es =>
    unfold Conn.absorbAfterReset
    split
    · exact .refl _
    · dsimp only
      split_ifs <;> exact .of_streams rfl rfl
  | forgetReset | peerGone | bufferPriority => exact .of_streams rfl rfl
  | reprioritize c sid field => exact .modify _ sid (fun _ => rfl)
  | head H h es hd => exact (counted_headed H h es).trans hd.counted
  | headMismatch H h es hd =>
    exact ((counted_headed H h es).trans hd.counted).trans (Strokes.reset _ _ _).counted
  | trailers hs hh hn fields hd => exact (counted_addTrailers _ _ fields).trans hd.counted
  | trailersMismatch hs hh fields hd =>
    exact ((counted_addTrailers _ _ fields).trans hd.counted).trans (Strokes.reset _ _ _).counted
  | @openNew _ sid h hodd hg =>
    have hn : a.stream? sid = none := by
      cases hs : a.stream? sid with
      | none => rfl
      | some st =>
        have := ho sid (by rw [hs]; rfl)
        omega
    have h1 : Counted a { a with lastStreamId := sid } := .of_streams rfl rfl
    exact h1.trans (counted_openStream _ sid hn)
  | refuse h => exact .of_streams rfl rfl
  | refuseEarly h =>
    refine Counted.trans ?_ (counted_recordEarlyClosed _ _)
    exact .of_streams rfl rfl
  | forgetBoth | forgetEarly | connCredit => exact .of_streams rfl rfl
  | streamCredit hs inc h =>
    refine Counted.trans ?_ (Strokes.h2Enqueue _ _).counted
    refine (Counted.note a _).trans
      (.synced (.modify _ _ _) rfl (fun g st _ => ?_) (fun _ _ => ⟨rfl, rfl⟩))
    cases g <;> rfl

theorem FeedAtom.counted (h : FeedAtom a b) : Counted a b := by
  cases h with
  | error err => exact counted_connError _ err
  | received f hc => exact .of_streams rfl rfl
  | notFirst =>
    refine Counted.trans ?_ (counted_connError _ _)
    exact .of_streams rfl rfl
  | read rbuf => exact .of_streams rfl rfl
  | preface hp rbuf =>
    unfold Conn.finishPreface
    rcases sendOurSettings_cases { a with rbuf := rbuf, prefaceDone := true } with e | e
    · rw [e]
      exact .of_streams rfl rfl
    · rw [e]
      exact .of_streams rfl rfl

theorem BlockAtom.counted (h : BlockAtom a b) : Counted a b := by
  cases h with
  | fragment | decoded => exact .of_streams rfl rfl
  | failed h =>
    refine Counted.trans ?_ (counted_connError _ _)
    exact .of_streams rfl rfl
  | await | append | complete => exact .of_streams rfl rfl

/-! ### Exact counters -/

/-- The counters of a connection are exact and the request bytes it buffers are within their
limit. -/
structure Accounted (c : Conn) : Prop where
  drift : ∀ g : Gauge, g ≠ .parked → g.drift c = 0
  tidy : c.Tidy
  bound : c.bufferedBytes ≤ c.bufferCap

theorem Counted.accounted (h : Counted a b) (ha : Accounted a) : Accounted b where
  drift g hg := (h.drift g).trans (ha.drift g hg)
  tidy := h.tidy ha.tidy
  bound := by
    rw [h.cap]
    exact h.buffered.trans ha.bound

theorem counted_countBuffered (hs : Receiving c sid st)
    (hw : st.isWsConnect = false) (data : Bytes) :
    (∀ g : Gauge, g.drift ((c.bufferBody sid data).countBuffered sid data.length) = g.drift c) ∧
      (c.Tidy → ((c.bufferBody sid data).countBuffered sid data.length).Tidy) := by
  have hu := updates_countBuffered c sid data
  refine ⟨fun g => hu.drift g (fun st' hst => ?_) (fun hn => ?_), Conn.Tidy.updates hu ?_⟩
  · cases g with
    | buffered =>
      simp only [Gauge.count, Gauge.share, Conn.countBuffered, Conn.bufferBody, Conn.modify]
      push_cast
      omega
    | _ => exact (add_eq_left.mpr (sub_self _)).symm
  · rw [hs.stream] at hn
    cases hn
  · intro st' hst ht
    obtain rfl := Option.some.inj (hst.symm.trans hs.stream)
    refine ⟨ht.backlog, ht.blocked, fun h => ?_, fun h => ?_, ht.headed, ht.ws⟩
    · cases hs.done.symm.trans h
    · cases hw.symm.trans h

theorem total_buffered_le (h : ∀ s, b.stream? s = if s = sid then none else a.stream? s) :
    Table.total Gauge.buffered.share b.streams ≤ Table.total Gauge.buffered.share a.streams := by
  have e : Table.total Gauge.buffered.share b.streams =
      Table.total Gauge.buffered.share (a.streams.erase sid) :=
    Table.total_of_lookup _ (fun s => (h s).trans (Table.lookup_erase_ite _ _ _).symm)
  rw [e]
  cases hs : a.stream? sid with
  | none =>
    refine le_of_eq (Table.total_of_lookup _ (fun s => ?_))
    rw [Table.lookup_erase_ite]
    split_ifs with hsid
    · rw [hsid]
      exact hs.symm
    · rfl
  | some st =>
    have ht := Table.total_erase Gauge.buffered.share hs
    have hpos : 0 ≤ Gauge.buffered.share st := Int.natCast_nonneg _
    omega

theorem Accounted.removed (ha : Accounted a) (hb : ∀ g : Gauge,
    g.drift b = g.drift a) (ht : a.Tidy → b.Tidy) (hcap : b.bufferCap = a.bufferCap)
    (hu : ∃ f, Updates a b sid f) (hc : Counted b c)
    (hs : ∀ s, c.stream? s = if s = sid then none else b.stream? s) : Accounted c where
  drift g hg := ((hc.drift g).trans (hb g)).trans (ha.drift g hg)
  tidy := hc.tidy (ht ha.tidy)
  bound := by
    obtain ⟨f, hu⟩ := hu
    have h0 : Gauge.buffered.drift a = 0 := ha.drift _ (by decide)
    have h1 : Gauge.buffered.drift c = 0 := ((hc.drift _).trans (hb _)).trans h0
    have hstream : ∀ s, c.stream? s = if s = sid then none else a.stream? s := by
      intro s
      rw [hs s]
      split_ifs with e
      · rfl
      · exact hu.of_ne e
    have hle := total_buffered_le hstream
    have hbound := ha.bound
    rw [hc.cap, hcap]
    change c.bufferedBytes - _ = 0 at h1
    change a.bufferedBytes - _ = 0 at h0
    omega

theorem stream_reset (c : Conn) (sid : ℕ) (err : ErrCode) (s : ℕ) :
    (c.reset sid err).stream? s = if s = sid then none else c.stream? s := by
  unfold Conn.reset
  rw [stream_detachStream]
  unfold Conn.stream?
  rw [Conn.streams_sendReset]

theorem EndsBody.counted (h : EndsBody sid a b) : Counted a b := by
  cases h with
  | data hs hr data hl =>
    have h1 : Counted a (a.deferBody sid data.length) := .modify a sid (fun _ => rfl)
    have h2 : Counted (a.deferBody sid data.length) ((a.deferBody sid data.length).bufferBody sid
      data) := .modify _ sid (fun _ => rfl)
    exact (h1.trans h2).trans (counted_noteEndStream _ _)
  | trailers hs hh he hr fields hl => exact counted_addTrailers _ _ fields

/-- Request bytes that are counted against the buffer cap. -/
def Conn.reserve (c : Conn) (sid : ℕ) (data : Bytes) : Conn :=
  (c.bufferBody sid data).countBuffered sid data.length

/-- Taking request bytes in leaves the counters exact, but for a reservation, which fits into the
buffer cap or is given back with its stream. -/
theorem BodyAtom.reserves (h : BodyAtom o a b) :
    Counted a b ∨ ∃ (sid : ℕ) (st : Stream) (data : Bytes), Receiving a sid st ∧
      st.isWsConnect = false ∧ Counted (a.reserve sid data) b ∧
      (a.bufferedBytes + data.length ≤ (max a.connRecvWindow a.cfg.maxBody : ℕ) ∨
        ∀ s, b.stream? s = if s = sid then none else (a.reserve sid data).stream? s) := by
  have hdefer : ∀ sid n, Counted a (a.deferBody sid n) := fun sid n => .modify a sid (fun _ => rfl)
  have hbody : ∀ (c : Conn) sid data, Counted c (c.bufferBody sid data) :=
    fun c sid data => .modify c sid (fun _ => rfl)
  cases h with
  | debitConn c n =>
    left
    exact .of_streams rfl rfl
  | debitStream c sid n =>
    left
    exact .modify a sid (fun _ => rfl)
  | overrun hs n =>
    refine .inl (Counted.trans ?_ (Strokes.reset _ _ _).counted)
    exact .modify a _ (fun _ => rfl)
  | streamed hs hr data hl => exact .inl ((hdefer _ _).trans (hbody _ _ _))
  | ended h => exact .inl h.counted
  | told h hs hcb => exact .inl (h.counted.trans (counted_deliver _ _ _ _ _))
  | streamedExcess hs hr n => exact .inl ((hdefer _ _).trans (Strokes.reset _ _ _).counted)
  | streamedShort hs hr data =>
    exact .inl ((((hdefer _ _).trans (hbody _ _ _)).trans (counted_noteEndStream _ _)).trans
      (Strokes.reset _ _ _).counted)
  | buffered hs hr hw data hb => exact .inr ⟨_, _, data, hs, hw, .refl _, .inl hb⟩
  | bufferedOverflow hs hr hw data =>
    exact .inr ⟨_, _, data, hs, hw, Strokes.counted (.reset _ _ _), .inr (stream_reset _ _ _)⟩
  | bufferedEnd hs hr hw hd data hb hl =>
    exact .inr ⟨_, _, data, hs, hw, ((counted_noteEndStream _ _).trans
      (counted_releaseBuffered _ _)).trans (counted_dispatch _ _), .inl hb⟩
  | bufferedLate hs hr hw hd data hb =>
    exact .inr ⟨_, _, data, hs, hw,
      (counted_noteEndStream _ _).trans (counted_releaseBuffered _ _), .inl hb⟩
  | @bufferedShort _ sid st hs hr hw data =>
    refine .inr ⟨sid, st, data, hs, hw, ((counted_noteEndStream _ sid).trans
      (counted_releaseBuffered _ sid)).trans (Strokes.reset _ _ _).counted, .inr fun s => ?_⟩
    rw [stream_reset]
    split_ifs with e
    · rfl
    · rw [(updates_releaseBuffered _ sid).of_ne e, (updates_noteEndStream _ sid).of_ne e]
      rfl
  | tunnelData hs hw f data =>
    unfold Conn.dataWsPending
    split_ifs
    · exact .inl ((hbody _ _ _).trans (counted_noteEndStream _ _))
    · exact .inl (hbody _ _ _)

theorem BodyAtom.drift (h : BodyAtom o a b) (g : Gauge) : g.drift b = g.drift a := by
  rcases h.reserves with h | ⟨sid, st, data, hs, hw, h, -⟩
  · exact h.drift g
  · exact (h.drift g).trans ((counted_countBuffered hs hw data).1 g)

theorem BodyAtom.accounted (h : BodyAtom o a b) (ha : Accounted a) : Accounted b := by
  rcases h.reserves with h | ⟨sid, st, data, hs, hw, h, hb⟩
  · exact h.accounted ha
  · obtain ⟨h1, h2⟩ := counted_countBuffered hs hw data
    rcases hb with hb | hgone
    · exact h.accounted ⟨fun g hg => (h1 g).trans (ha.drift g hg), h2 ha.tidy, hb⟩
    · exact ha.removed h1 h2 rfl ⟨_, updates_countBuffered _ _ _⟩ h hgone

theorem Piece.counted_cases (h : Piece (RunAtom ok) a b) (ho : a.Opened) :
    Counted a b ∨ (∃ o, BodyAtom o a b) ∨ ∃ sid, b = a.dropWsStream sid ∧
      ∀ st, a.stream? sid = some st → st.ws.isSome = true := by
  cases h with
  | atom h =>
    cases h with
    | call h =>
      cases h with
      | app h | drain hk h => exact .inl h.strokes.counted
      | sink h => exact .inl h.counted
      | sinkSet hs hk => exact .inl (counted_storeSink _ _ _ _)
      | sinkTold hs hk he =>
        exact .inl ((counted_storeSink _ _ _ _).trans (counted_deliver _ _ _ _ _))
    | frame h => exact .inl (h.counted ho)
    | body h => exact .inr (.inl ⟨_, h⟩)
    | block h | feed h => exact .inl h.counted
  | finish h => exact .inl h.strokes.counted
  | fired c cb => exact .inl (Counted.note a _)
  | closeBegin h => exact .inl h.strokes.counted
  | wsDrop hw => exact .inr (.inr ⟨_, rfl, hw⟩)

theorem Piece.accounted (h : Piece (RunAtom ok) a b) (ho : a.Opened) (ha : Accounted a)
    : Accounted b := by
  rcases h.counted_cases ho with h | ⟨o, h⟩ | ⟨sid, rfl, hw⟩
  · exact h.accounted ha
  · exact h.accounted ha
  · cases hs : a.stream? sid with
    | none =>
      unfold Conn.dropWsStream
      rw [hs]
      exact ha
    | some st =>
      have ht := ha.tidy sid st hs
      refine ⟨fun g hg => ?_, ?_, ?_⟩
      · rw [drift_dropWsStream a sid hs (fun _ => ht.tunnel (ht.ws (hw st hs)))
          (fun h => absurd h hg)]
        exact ha.drift g hg
      · unfold Conn.dropWsStream
        rw [hs]
        exact Conn.Tidy.of_erase sid rfl ha.tidy
      · unfold Conn.dropWsStream
        rw [hs]
        exact ha.bound

/-- The count of parked producers drifts only with a parked WebSocket stream that is dropped. -/
theorem Piece.parked_drift (h : Piece (RunAtom ok) a b) (ho : a.Opened) (ht : a.Tidy)
    (hw : ∀ sid st, a.stream? sid = some st → st.ws.isSome = true →
      st.respBackedUp = false) : Gauge.parked.drift b = Gauge.parked.drift a := by
  rcases h.counted_cases ho with h | ⟨o, h⟩ | ⟨sid, rfl, hws⟩
  · exact h.drift _
  · exact h.drift _
  · cases hs : a.stream? sid with
    | none =>
      unfold Conn.dropWsStream
      rw [hs]
    | some st =>
      have hst := ht sid st hs
      exact drift_dropWsStream a sid hs (fun _ => hst.tunnel (hst.ws (hws st hs)))
        (fun _ => hw sid st hs (hws st hs))

theorem accounted_newH2Conn (cfg : Config) : Accounted (newH2Conn cfg) where
  drift g _ := by cases g <;> rfl
  tidy _ _ h := by cases h
  bound := Int.natCast_nonneg _

theorem Reachable.accounted {W : World} (hW : W.Obeys ok) {n : ℕ} {cfg : Config}
    (h : Reachable (W.hooks n) ok cfg c) : Accounted c :=
  h.invariant_opened hW (accounted_newH2Conn cfg) (fun _ _ hp ho ha => hp.accounted ho ha)

/-! ### The predicates of the event loop -/

/-- `h2AwaitingClient`: is any open stream still expecting bytes from the client? -/
def Conn.h2AwaitingClient (c : Conn) : Bool := decide (c.awaitingClientStreams > 0)

/-- `h2BlockedOnPeerWindow`: does any open stream owe bytes that a send window holds back? -/
def Conn.h2BlockedOnPeerWindow (c : Conn) : Bool :=
  decide (c.windowBlockedStreams > 0) ||
    (decide (c.connSendWindow ≤ 0) && decide (c.backlogStreams > 0))

/-- Is the stream's own send window exhausted while bytes wait on it? -/
def Stream.windowBlocked (st : Stream) : Bool := st.hasBacklog && decide (st.sendWindow ≤ 0)

/-- The scan `h2AwaitingClient` stands for. -/
def Conn.scanAwaiting (c : Conn) : Bool := c.streams.entries.any (fun e => !e.2.endStreamSeen)

/-- The scan `h2BlockedOnPeerWindow` stands for. -/
def Conn.scanBlocked (c : Conn) : Bool :=
  c.streams.entries.any (fun e =>
    e.2.hasBacklog && (decide (e.2.sendWindow ≤ 0) || decide (c.connSendWindow ≤ 0)))

section Exact

variable {c : Conn}

theorem Accounted.count_eq (h : Accounted c) {g : Gauge} (hg : g ≠ .parked) :
    g.count c = Table.total g.share c.streams :=
  Int.sub_eq_zero.mp (h.drift g hg)

theorem Accounted.active (h : Accounted c) : c.activeStreams = c.streams.entries.length :=
  (h.count_eq (g := .active) (by decide)).trans (Table.total_one _)

theorem Accounted.awaiting (h : Accounted c) :
    c.awaitingClientStreams = c.streams.count (fun st => !st.endStreamSeen) :=
  (h.count_eq (g := .awaiting) (by decide)).trans (Table.total_toInt _ _)

theorem Accounted.backlog (h : Accounted c) : c.backlogStreams = c.streams.count Stream.hasBacklog := by
  refine (h.count_eq (g := .backlog) (by decide)).trans (Eq.trans ?_ (Table.total_toInt _ _))
  exact Table.total_congr (fun s st hst => congrArg Bool.toInt (h.tidy s st hst).backlog)

theorem Accounted.blocked (h : Accounted c) :
    c.windowBlockedStreams = c.streams.count Stream.windowBlocked := by
  refine (h.count_eq (g := .blocked) (by decide)).trans (Eq.trans ?_ (Table.total_toInt _ _))
  exact Table.total_congr (fun s st hst => congrArg Bool.toInt (h.tidy s st hst).blocked)

theorem Accounted.awaitingClient (h : Accounted c) : c.h2AwaitingClient = c.scanAwaiting := by
  unfold Conn.h2AwaitingClient Conn.scanAwaiting
  rw [h.awaiting]
  exact Table.count_pos _ _

/-- The connection window is one value, so a scan for streams behind it is a scan for a backlog. -/
theorem Accounted.blockedOnPeerWindow (h : Accounted c) :
    c.h2BlockedOnPeerWindow = c.scanBlocked := by
  have h1 := Table.count_pos Stream.windowBlocked c.streams
  have h2 := Table.count_pos Stream.hasBacklog c.streams
  unfold Conn.h2BlockedOnPeerWindow Conn.scanBlocked
  rw [h.blocked, h.backlog]
  simp only [gt_iff_lt, h1, h2]
  by_cases hw : c.connSendWindow ≤ 0
  · simp only [hw, decide_true, Bool.or_true, Bool.and_true, Bool.true_and]
    rw [Bool.or_eq_right_iff_imp, List.any_eq_true, List.any_eq_true]
    rintro ⟨e, he, hb⟩
    exact ⟨e, he, (Bool.and_eq_true_iff.mp hb).1⟩
  · simp only [hw, decide_false, Bool.or_false, Bool.false_and]
    rfl

end Exact

/-- **The deadline counters never drift.**  In every state between two events of a run, whatever
the application does: the five counters are what a scan of the stream table gives, the request
bytes buffered are within their limit, and the two predicates the event loop reads off the
counters are the scans they replace. -/
theorem counters_exact {W : World} {n : ℕ} {cfg : Config}
    (h : Reachable (W.hooks n) anyCall cfg c) : c.activeStreams = c.streams.entries.length ∧
      c.awaitingClientStreams = c.streams.count (fun st => !st.endStreamSeen) ∧
      c.backlogStreams = c.streams.count (fun st => decide (st.pendingBody.length > st.pendingPos)) ∧
      c.windowBlockedStreams = c.streams.count (fun st =>
        decide (st.pendingBody.length > st.pendingPos) && decide (st.sendWindow ≤ 0)) ∧
      c.bufferedBytes = c.streams.total (fun st => (st.bufferedCounted : ℤ)) ∧
      c.bufferedBytes ≤ (max c.connRecvWindow c.cfg.maxBody : ℕ) ∧
      c.h2AwaitingClient = c.scanAwaiting ∧ c.h2BlockedOnPeerWindow = c.scanBlocked := by
  have ha := h.accounted (obeys_anyCall W)
  exact ⟨ha.active, ha.awaiting, ha.backlog, ha.blocked, ha.count_eq (g := .buffered) (by decide),
    ha.bound, ha.awaitingClient, ha.blockedOnPeerWindow⟩

/-- Two uploads, one of them finished and answered with a body its stream's window holds back. -/
def blockedAnswer : List Input :=
  feedInputs [.settings [(setInitialWindowSize, 0)], .headers 1 postBlock true true,
    .headers 3 postBlock false true, .data 3 (ascii "abc") false] ++
    [.call (.respond 1 { code := 200 } (ascii "hello"))]

/-- Two open streams, one awaited, one blocked, three bytes reserved; the counters say so. -/
theorem counters_exact_blockedAnswer : let c := runOn false blockedAnswer
    (c.activeStreams = 2 ∧ c.awaitingClientStreams = 1 ∧ c.windowBlockedStreams = 1 ∧
      c.bufferedBytes = 3) ∧
    c.activeStreams = c.streams.entries.length ∧
      c.awaitingClientStreams = c.streams.count (fun st => !st.endStreamSeen) ∧
      c.backlogStreams = c.streams.count (fun st => decide (st.pendingBody.length > st.pendingPos)) ∧
      c.windowBlockedStreams = c.streams.count (fun st =>
        decide (st.pendingBody.length > st.pendingPos) && decide (st.sendWindow ≤ 0)) ∧
      c.bufferedBytes = c.streams.total (fun st => (st.bufferedCounted : ℤ)) ∧
      c.bufferedBytes ≤ (max c.connRecvWindow c.cfg.maxBody : ℕ) ∧
      c.h2AwaitingClient = c.scanAwaiting ∧ c.h2BlockedOnPeerWindow = c.scanBlocked :=
  ⟨by decide +kernel, counters_exact (runOn_reachable false blockedAnswer (fun _ _ _ => trivial))⟩

end Vortex.Http2
