import Vortex.Http2.Journal
import Vortex.Http2.ReadPaths

/-! # Conservation of the receive windows

Every DATA frame is debited once from the windows of the connection and of its stream, and its
bytes come back eagerly, on delivery, on acknowledgement or at teardown.  Meanwhile they are
held in `pendingConnWindow`, `pendingWindow` or `connDeferred`.  This module shows that nothing
gets lost on the way: between two events the accounts add up to the advertised windows.

`Conn.recvTotal` and `Stream.recvTotal` are the accounts; `Sound` says what the deferred credit
of a stream stands for, which is what makes the sums move together; `Steady` is what a piece or
a callback does to them. -/

namespace Vortex.Http2

open Relation

variable {c : Conn} {sid n : ℕ}

/-! ### Accounts -/

/-- Window left, credit owed and credit deferred on the streams, for the connection. -/
def Conn.recvTotal (c : Conn) : ℤ :=
  c.connRecvRemaining + c.pendingConnWindow + (c.streams.total Stream.connDeferred : ℕ)

/-- Window left, credit owed and credit deferred, for one stream. -/
def Stream.recvTotal (st : Stream) : ℤ := st.recvRemaining + st.pendingWindow + st.connDeferred

/-- Request bytes the event hands to a manually acknowledging sink of the stream. -/
def handedBy (sid : ℕ) : Event → ℕ
  | .handed s n => if s = sid then n else 0
  | _ => 0

/-- Request bytes of the stream the event acknowledges. -/
def ackedBy (sid : ℕ) : Event → ℕ
  | .acked s n => if s = sid then n else 0
  | _ => 0

/-- Bytes of the stream delivered to a manually acknowledging sink and not acknowledged. -/
def Conn.unacked (c : Conn) (sid : ℕ) : ℤ :=
  (tally (handedBy sid) c.journal : ℤ) - tally (ackedBy sid) c.journal

/-! ### What deferred credit stands for -/

/-- The deferred credit of a stream is its buffered and its unacknowledged bytes if its request
is streamed, and nothing otherwise. -/
structure Stream.Sound (handed acked : ℕ) (st : Stream) : Prop where
  acked_le : acked ≤ handed
  plain : st.reqStreaming = false → st.connDeferred = 0
  streaming : st.reqStreaming = true → st.connDeferred + acked = st.body.length + handed
  tunnel : st.isWsConnect = true → st.reqStreaming = false
  ws : st.ws.isSome = true → st.isWsConnect = true
  fresh : st.headersDone = false →
    st.reqStreaming = false ∧ st.isWsConnect = false ∧ st.body = [] ∧ handed = acked

/-- Every open stream is sound, and ids that were not used yet have no history. -/
structure Sound (c : Conn) : Prop where
  stream : ∀ sid st, c.stream? sid = some st →
    st.Sound (tally (handedBy sid) c.journal) (tally (ackedBy sid) c.journal)
  opened : ∀ sid st, c.stream? sid = some st → sid ≤ c.lastStreamId
  unused : ∀ sid, c.lastStreamId < sid →
    tally (handedBy sid) c.journal = 0 ∧ tally (ackedBy sid) c.journal = 0

/-- What soundness of a stream depends on is the same. -/
structure Stream.Same (st st' : Stream) : Prop where
  kind : st'.kind = st.kind
  body : st'.body = st.body
  connDeferred : st'.connDeferred = st.connDeferred
  ws : st'.ws.isSome = true → st.ws.isSome = true

theorem Stream.Same.refl (st : Stream) : st.Same st := ⟨rfl, rfl, rfl, id⟩

variable {st st' : Stream} {a b : Conn} {e : Event}

theorem Stream.Sound.of_same {handed acked : ℕ} (h : st.Sound handed acked) (e : st.Same st') :
    st'.Sound handed acked := by
  have hd : st'.headersDone = st.headersDone := congrArg RequestKind.headersDone e.kind
  have hr : st'.reqStreaming = st.reqStreaming := congrArg RequestKind.reqStreaming e.kind
  have hw : st'.isWsConnect = st.isWsConnect := congrArg RequestKind.isWsConnect e.kind
  refine ⟨h.acked_le, ?_, ?_, ?_, ?_, ?_⟩
  · rw [hr, e.connDeferred]; exact h.plain
  · rw [hr, e.connDeferred, e.body]; exact h.streaming
  · rw [hr, hw]; exact h.tunnel
  · rw [hw]; exact fun hs => h.ws (e.ws hs)
  · rw [hd, hr, hw, e.body]; exact h.fresh

theorem Sound.of_same (h : Sound a)
    (hh : ∀ sid, tally (handedBy sid) b.journal = tally (handedBy sid) a.journal)
    (ha : ∀ sid, tally (ackedBy sid) b.journal = tally (ackedBy sid) a.journal)
    (hl : a.lastStreamId ≤ b.lastStreamId)
    (hs : ∀ sid st', b.stream? sid = some st' → ∃ st, a.stream? sid = some st ∧ st.Same st') :
    Sound b where
  stream sid st' hst' := by
    obtain ⟨st, hst, e⟩ := hs sid st' hst'
    rw [hh, ha]
    exact (h.stream sid st hst).of_same e
  opened sid st' hst' := by
    obtain ⟨st, hst, -⟩ := hs sid st' hst'
    exact (h.opened sid st hst).trans hl
  unused sid hsid := by
    rw [hh, ha]
    exact h.unused sid (hl.trans_lt hsid)

theorem Sound.update {f : Stream → Stream} (h : Sound a) (hu : Updates a b sid f)
    (hl : b.lastStreamId = a.lastStreamId)
    (hh : ∀ s, s ≠ sid → tally (handedBy s) b.journal = tally (handedBy s) a.journal)
    (ha : ∀ s, s ≠ sid → tally (ackedBy s) b.journal = tally (ackedBy s) a.journal)
    (hst : a.stream? sid = some st)
    (hso : (f st).Sound (tally (handedBy sid) b.journal) (tally (ackedBy sid) b.journal)) :
    Sound b where
  stream := hu.forall_at hst hso fun s st1 hne h1 => by
    rw [hh s hne, ha s hne]
    exact h.stream s st1 h1
  opened := by
    rw [hl]
    exact hu.forall_at hst (h.opened sid st hst) fun s st1 _ => h.opened s st1
  unused s hs := by
    rw [hl] at hs
    have hne : s ≠ sid := by
      rintro rfl
      exact absurd hs (not_lt.mpr (h.opened s st hst))
    rw [hh s hne, ha s hne]
    exact h.unused s hs

/-! ### Steps that keep the accounts -/

/-- The accounts of the connection and of the streams that stay open are kept. -/
structure Steady (a b : Conn) : Prop where
  sound : Sound b
  conn : b.recvTotal = a.recvTotal
  stream : ∀ sid st', b.stream? sid = some st' →
    ∃ st, a.stream? sid = some st ∧ st'.recvTotal = st.recvTotal

theorem Steady.refl (h : Sound c) : Steady c c := ⟨h, rfl, fun _ st hs => ⟨st, hs, rfl⟩⟩

theorem Steady.trans (h1 : Steady a b) (h2 : Steady b c) : Steady a c where
  sound := h2.sound
  conn := h2.conn.trans h1.conn
  stream sid st' hs' := by
    obtain ⟨st, hs, e⟩ := h2.stream sid st' hs'
    obtain ⟨st0, hs0, e0⟩ := h1.stream sid st hs
    exact ⟨st0, hs0, e.trans e0⟩

theorem Steady.of_same (h : Sound a)
    (hh : ∀ sid, tally (handedBy sid) b.journal = tally (handedBy sid) a.journal)
    (ha : ∀ sid, tally (ackedBy sid) b.journal = tally (ackedBy sid) a.journal)
    (hl : a.lastStreamId ≤ b.lastStreamId) (hc : b.recvTotal = a.recvTotal)
    (hs : ∀ sid st', b.stream? sid = some st' →
      ∃ st, a.stream? sid = some st ∧ st.Same st' ∧ st'.recvTotal = st.recvTotal) : Steady a b where
  sound := h.of_same hh ha hl (fun sid st' hst' =>
    (hs sid st' hst').imp fun _ hst => ⟨hst.1, hst.2.1⟩)
  conn := hc
  stream sid st' hst' := (hs sid st' hst').imp fun _ hst => ⟨hst.1, hst.2.2⟩

theorem Stream.Quiet.same (h : st.Quiet st') : st.Same st' where
  kind := congrArg (fun v : RequestView =>
    (⟨v.headersDone, v.reqStreaming, v.isWsConnect, v.isHead⟩ : RequestKind)) h.request
  body := congrArg BodyView.body h.bodySide
  connDeferred := congrArg BodyView.connDeferred h.bodySide
  ws hw := by
    cases hws : st.ws with
    | none => rw [h.noWs hws] at hw; exact hw
    | some w => rfl

theorem recvTotal_of_bodySide (h : st'.bodySide = st.bodySide) : st'.recvTotal = st.recvTotal := by
  unfold Stream.recvTotal
  rw [show st'.recvRemaining = st.recvRemaining from congrArg BodyView.recvRemaining h,
    show st'.pendingWindow = st.pendingWindow from congrArg BodyView.pendingWindow h,
    show st'.connDeferred = st.connDeferred from congrArg BodyView.connDeferred h]

theorem recvTotal_of_updates {f : Stream → Stream} (hu : Updates a b sid f)
    (hr : b.connRecvRemaining = a.connRecvRemaining)
    (hp : b.pendingConnWindow = a.pendingConnWindow)
    (hf : ∀ st, a.stream? sid = some st → (f st).connDeferred = st.connDeferred) :
    b.recvTotal = a.recvTotal := by
  unfold Conn.recvTotal
  rw [hr, hp, hu.total_of_eq _ hf]

theorem recvTotal_recordEarlyClosed (c : Conn) (sid : ℕ) :
    (c.recordEarlyClosed sid).recvTotal = c.recvTotal := by
  unfold Conn.recordEarlyClosed
  dsimp only
  split_ifs <;> rfl

theorem streams_recordEarlyClosed (c : Conn) (sid : ℕ) :
    (c.recordEarlyClosed sid).streams = c.streams := by
  unfold Conn.recordEarlyClosed
  dsimp only
  split_ifs <;> rfl

theorem streams_creditConn (c : Conn) (n : ℕ) : (c.creditConn n).streams = c.streams := by
  unfold Conn.creditConn
  dsimp only
  split_ifs <;> rfl

theorem recvTotal_creditConn (c : Conn) (n : ℕ) : (c.creditConn n).recvTotal = c.recvTotal + n := by
  unfold Conn.creditConn
  dsimp only
  split_ifs with h1 h2
  · simp [h1]
  · simp only [Conn.recvTotal, Conn.send, Conn.note]
    push_cast
    omega
  · simp only [Conn.recvTotal]
    push_cast
    omega

/-! ### Pieces of the write side -/

theorem handedBy_outbound (sid : ℕ) (h : e.isOutbound = true) : handedBy sid e = 0 := by
  cases e <;> first | rfl | cases h

theorem handedBy_inbound (sid : ℕ) (h : e.isInbound = true) : handedBy sid e = 0 := by
  cases e <;> first | rfl | cases h

theorem ackedBy_inbound (sid : ℕ) (h : e.isInbound = true) : ackedBy sid e = 0 := by
  cases e <;> first | rfl | cases h

theorem ackedBy_outbound (sid : ℕ) (h : e.isOutbound = true) : ackedBy sid e = 0 := by
  cases e <;> first | rfl | cases h

theorem tally_detachStream {f : Event → ℕ} (hc : ∀ sid, f (.closedEarly sid) = 0)
    (hw : ∀ sid n, f (.sent (.windowUpdate sid n)) = 0) (hr : ∀ sid, f (.removed sid) = 0)
    (c : Conn) (sid : ℕ) : tally f (c.detachStream sid).journal = tally f c.journal := by
  unfold Conn.detachStream
  split
  · rfl
  · next st hs =>
    rw [tally_note, hr, add_zero]
    refine (tally_creditConn hw _ st.connDeferred).trans ?_
    split_ifs
    · rfl
    · exact tally_recordEarlyClosed hc c sid

theorem recvTotal_detachStream (c : Conn) (sid : ℕ) :
    (c.detachStream sid).recvTotal = c.recvTotal := by
  unfold Conn.detachStream
  split
  · rfl
  · next st hs =>
    dsimp only
    have h1 : (if st.endStreamSeen then c else c.recordEarlyClosed sid).recvTotal =
        c.recvTotal := by
      split_ifs
      · rfl
      · exact recvTotal_recordEarlyClosed c sid
    have hstreams : (if st.endStreamSeen then c else c.recordEarlyClosed sid).streams =
        c.streams := by
      split_ifs
      · rfl
      · exact streams_recordEarlyClosed c sid
    generalize (if st.endStreamSeen then c else c.recordEarlyClosed sid) = c1 at h1 hstreams ⊢
    have h2 := recvTotal_creditConn c1 st.connDeferred
    have hst := streams_creditConn c1 st.connDeferred
    generalize c1.creditConn st.connDeferred = c2 at h2 hst ⊢
    have he := Table.total_erase Stream.connDeferred (t := c2.streams)
      (by rw [hst, hstreams]; exact hs)
    simp only [Conn.recvTotal, Conn.note, Conn.dropStreamCounters] at h1 h2 ⊢
    omega

/-- **The pieces of the write side keep the accounts.** -/
theorem Move.steady (h : Move a b) (hs : Sound a) : Steady a b := by
  have hl : a.lastStreamId ≤ b.lastStreamId := h.kept.lastStreamId.ge
  cases h with
  | note he =>
    refine .of_same hs (fun sid => ?_) (fun sid => ?_) hl rfl (fun sid st' h => ⟨st', h, .refl _, rfl⟩)
    · rw [tally_note, handedBy_outbound sid he, add_zero]
    · rw [tally_note, ackedBy_outbound sid he, add_zero]
  | other hv hst =>
    have hj : b.journal = a.journal := congrArg QuietView.journal hv
    have hr : b.connRecvRemaining = a.connRecvRemaining := congrArg QuietView.connRecvRemaining hv
    have hp : b.pendingConnWindow = a.pendingConnWindow := congrArg QuietView.pendingConnWindow hv
    refine .of_same hs (fun sid => by rw [hj]) (fun sid => by rw [hj]) hl ?_ (fun sid st' h => ?_)
    · unfold Conn.recvTotal
      rw [hr, hp, hst]
    · exact ⟨st', by rw [← h]; unfold Conn.stream?; rw [hst], .refl _, rfl⟩
  | @update _ sid f hv hst hf =>
    have hj : b.journal = a.journal := congrArg QuietView.journal hv
    have hu : Updates a b sid f := .of_streams hst
    refine .of_same hs (fun sid => by rw [hj]) (fun sid => by rw [hj]) hl ?_ ?_
    · exact recvTotal_of_updates hu (congrArg QuietView.connRecvRemaining hv)
        (congrArg QuietView.pendingConnWindow hv) (fun st _ => (hf st).same.connDeferred)
    · exact hu.forall_stream
        (fun st h => ⟨st, h, (hf st).same, recvTotal_of_bodySide (hf st).bodySide⟩)
        (fun s st _ h => ⟨st, h, .refl st, rfl⟩)
  | detach sid =>
    refine .of_same hs (fun s => ?_) (fun s => ?_) hl (recvTotal_detachStream a sid) ?_
    · exact tally_detachStream (fun _ => rfl) (fun _ _ => rfl) (fun _ => rfl) a sid
    · exact tally_detachStream (fun _ => rfl) (fun _ _ => rfl) (fun _ => rfl) a sid
    · intro s st' h
      rw [stream_detachStream] at h
      split at h
      · cases h
      · exact ⟨st', h, .refl st', rfl⟩
  | @attachWs sid st hst hw =>
    have hso := hs.stream sid st hst
    have hu : Updates a (a.attachWs sid) sid _ := .modify a sid _
    refine ⟨hs.update hu rfl (fun _ _ => rfl) (fun _ _ => rfl) hst ⟨hso.acked_le, hso.plain,
      fun hr => ?_, hso.tunnel, fun _ => hw, fun hd => ?_⟩,
      recvTotal_of_updates hu rfl rfl (fun _ _ => rfl),
      hu.forall_at hst ⟨st, hst, rfl⟩ (fun s st1 _ h1 => ⟨st1, h1, rfl⟩)⟩
    · rw [show st.reqStreaming = false from hso.tunnel hw] at hr
      cases hr
    · rw [(hso.fresh hd).2.1] at hw
      cases hw
  | @dropWs sid hw =>
    unfold Conn.dropWsStream at hl ⊢
    cases hst : a.stream? sid with
    | none => exact .refl hs
    | some st =>
      have hso := hs.stream sid st hst
      have hz : st.connDeferred = 0 := hso.plain (hso.tunnel (hso.ws (hw st hst)))
      refine .of_same hs (fun _ => tally_note _ _ _) (fun _ => tally_note _ _ _) le_rfl ?_
        (fun s st' h => ?_)
      · have he := Table.total_erase Stream.connDeferred (t := a.streams) hst
        simp only [Conn.recvTotal, Conn.note, Conn.dropStreamCounters]
        omega
      · simp only [Conn.stream?, Conn.note, Conn.dropStreamCounters,
          Table.lookup_erase_ite] at h
        split at h
        · cases h
        · exact ⟨st', h, .refl st', rfl⟩

theorem Moves.steady (h : Moves a b) (hs : Sound a) : Steady a b := by
  induction h with
  | refl => exact .refl hs
  | tail _ hm ih => exact ih.trans (hm.steady ih.sound)

/-! ### Delivery and acknowledgement -/

/-- What a call or a callback does: the read side is kept, and from a sound connection on the
accounts are. -/
structure Settles (a b : Conn) : Prop where
  kept : Kept a b
  steady : Sound a → Steady a b

theorem Settles.refl (c : Conn) : Settles c c := ⟨.refl c, .refl⟩

theorem Settles.trans (a b c : Conn) (h1 : Settles a b) (h2 : Settles b c) : Settles a c :=
  ⟨h1.kept.trans h2.kept, fun h => (h1.steady h).trans (h2.steady (h1.steady h).sound)⟩

theorem Moves.settles (h : Moves a b) : Settles a b := ⟨h.kept, h.steady⟩

theorem Path.settles (h : Path AppAtom Settles a b) : Settles a b :=
  h.rel_pieces Settles.refl Settles.trans (fun _ _ hp => hp.moves.settles) (fun _ _ h => h)
    (fun _ _ h => h.kept)

theorem Fires.settles (h : Fires Settles sid st a b) : Settles a b := by
  have hran : ∀ cb a b, Ran Settles cb a b → Settles a b := by
    intro cb a b h
    cases cb with
    | none =>
      rw [show b = a from h]
      exact .refl a
    | some cb => exact Settles.trans _ _ _ (Moves.note a rfl).settles h
  obtain ⟨c1, c2, h1, h2, h3⟩ := h
  refine Settles.trans _ _ _ (Settles.trans _ _ _ (hran _ _ _ h1) (hran _ _ _ h2)) ?_
  unfold DrainRan at h3
  split at h3
  · rw [h3]
    exact .refl _
  · rcases h3 with ⟨-, rfl⟩ | h3
    · exact .refl _
    · exact Settles.trans _ _ _ (Moves.note _ rfl).settles h3

theorem run_settles {H : Hooks} (hf : ∀ cb c, Settles c (H.fire cb c)) (cb : Callback) (c : Conn) :
    Settles c (H.run cb c) :=
  Settles.trans _ _ _ (Moves.note c rfl).settles (hf cb _)

theorem Stream.recvTotal_credited (st : Stream) (w n : ℕ) :
    st.Same (st.credited w n) ∧ (st.credited w n).recvTotal = st.recvTotal + n := by
  unfold Stream.credited
  split_ifs with h1 h2
  · exact ⟨.refl st, by simp [h1]⟩
  all_goals
    refine ⟨⟨rfl, rfl, rfl, id⟩, ?_⟩
    simp only [Stream.recvTotal]
    push_cast
    omega

theorem recvTotal_creditStream (c : Conn) (sid n : ℕ) :
    (c.creditStream sid n).recvTotal = c.recvTotal := by
  refine recvTotal_of_updates (updates_creditStream c sid n) ?_ ?_
    (fun st _ => (st.recvTotal_credited _ n).1.connDeferred)
  all_goals
    unfold Conn.creditStream
    split
    · rfl
    · dsimp only
      split_ifs <;> rfl

theorem stream_creditStream {s : ℕ} (h : (c.creditStream sid n).stream? s = some st') :
    ∃ st, c.stream? s = some st ∧ st.Same st' ∧
      st'.recvTotal = st.recvTotal + (if s = sid then n else 0 : ℕ) := by
  refine (updates_creditStream c sid n).forall_stream (P := fun s st' => ∃ st,
    c.stream? s = some st ∧ st.Same st' ∧ st'.recvTotal = st.recvTotal +
      (if s = sid then n else 0 : ℕ)) (fun st hs => ?_) (fun s st hne hs => ?_) s st' h
  · rw [if_pos rfl]
    exact ⟨st, hs, st.recvTotal_credited _ n⟩
  · exact ⟨st, hs, .refl st, by simp [hne]⟩

theorem Sound.creditStream (h : Sound c) (sid n : ℕ) : Sound (c.creditStream sid n) :=
  h.of_same (fun _ => tally_creditStream (fun _ _ => rfl) c sid n)
    (fun _ => tally_creditStream (fun _ _ => rfl) c sid n)
    (kept_creditStream c sid n).lastStreamId.ge
    (fun _ _ hs => (stream_creditStream hs).imp fun _ h => ⟨h.1, h.2.1⟩)

theorem stream_creditConn (c : Conn) (n s : ℕ) : (c.creditConn n).stream? s = c.stream? s := by
  unfold Conn.stream?
  rw [streams_creditConn]

theorem Sound.creditConn (h : Sound c) (n : ℕ) : Sound (c.creditConn n) :=
  h.of_same (fun _ => tally_creditConn (fun _ _ => rfl) c n)
    (fun _ => tally_creditConn (fun _ _ => rfl) c n) (kept_creditConn c n).lastStreamId.ge
    (fun s st hs => ⟨st, by rw [← stream_creditConn c n s]; exact hs, .refl st⟩)

/-- A debt of `n` bytes to the connection and to the stream `sid`: what taking bytes for an
auto-acknowledging sink leaves open until the credit is returned. -/
structure Owes (sid n : ℕ) (a b : Conn) : Prop where
  sound : Sound b
  conn : b.recvTotal + n = a.recvTotal
  stream : ∀ s st', b.stream? s = some st' → ∃ st, a.stream? s = some st ∧
    st'.recvTotal + (if s = sid then n else 0 : ℕ) = st.recvTotal

theorem Owes.trans (h1 : Owes sid n a b) (h2 : Steady b c) : Owes sid n a c where
  sound := h2.sound
  conn := by rw [h2.conn]; exact h1.conn
  stream s st' hs' := by
    obtain ⟨st, hs, e⟩ := h2.stream s st' hs'
    obtain ⟨st0, hs0, e0⟩ := h1.stream s st hs
    exact ⟨st0, hs0, by rw [e]; exact e0⟩

theorem Owes.settled (h : Owes sid n a b) : Steady a ((b.creditStream sid n).creditConn n) where
  sound := (h.sound.creditStream sid n).creditConn n
  conn := by
    rw [recvTotal_creditConn, recvTotal_creditStream]
    exact h.conn
  stream s st' hs' := by
    rw [stream_creditConn] at hs'
    obtain ⟨st, hs, -, e⟩ := stream_creditStream hs'
    obtain ⟨st0, hs0, e0⟩ := h.stream s st hs
    exact ⟨st0, hs0, e.trans e0⟩

theorem Stream.Sound.body_le {handed acked : ℕ} (h : st.Sound handed acked)
    (hb : st.reqStreaming = true ∨ st.body = []) : st.body.length ≤ st.connDeferred := by
  rcases hb with hb | hb
  · have := h.streaming hb
    have := h.acked_le
    omega
  · simp [hb]

theorem takeBody_owes (hs : Sound c) (hst : c.stream? sid = some st)
    (hm : st.bodyManualAck = false) (hb : st.reqStreaming = true ∨ st.body = []) :
    Owes sid st.body.length c (c.takeBody sid) := by
  have hso := hs.stream sid st hst
  have hle := hso.body_le hb
  have hu : Updates c (c.takeBody sid) sid fun _ => { st with
      body := [], connDeferred := st.connDeferred - st.body.length } := by
    refine (Updates.modify c sid _).congr_fun fun st' hs' => ?_
    obtain rfl : st' = st := Option.some.inj (hs'.symm.trans hst)
    simp [hm, hle]
  refine ⟨hs.update hu rfl (fun _ _ => rfl) (fun _ _ => rfl) hst ⟨hso.acked_le, fun h => ?_,
    fun h => ?_, hso.tunnel, hso.ws, fun h => ?_⟩, ?_,
    hu.forall_at hst ⟨st, hst, ?_⟩ (fun s st1 hne h => ⟨st1, h, by simp [hne]⟩)⟩
  · have := hso.plain h
    simp only
    omega
  · have := hso.streaming h
    simp only [List.length_nil, Conn.takeBody, Conn.modify]
    omega
  · obtain ⟨h1, h2, -, h4⟩ := hso.fresh h
    exact ⟨h1, h2, rfl, h4⟩
  · have ht := hu.total Stream.connDeferred hst
    simp only [Conn.recvTotal, Conn.takeBody, Conn.modify] at ht ⊢
    omega
  · simp only [Stream.recvTotal, if_true]
    omega

theorem takeBody_handed (hs : Sound c) (hst : c.stream? sid = some st)
    (hm : st.bodyManualAck = true) :
    Steady c ((c.takeBody sid).note (.handed sid st.body.length)) := by
  have hso := hs.stream sid st hst
  have hu : Updates c ((c.takeBody sid).note (.handed sid st.body.length)) sid fun _ =>
      { st with body := [] } := by
    refine (Updates.modify c sid _).congr_fun fun st' hs' => ?_
    obtain rfl : st' = st := Option.some.inj (hs'.symm.trans hst)
    simp [hm]
  have hh : ∀ s, tally (handedBy s) ((c.takeBody sid).note (.handed sid st.body.length)).journal =
      tally (handedBy s) c.journal + if sid = s then st.body.length else 0 :=
    fun s => tally_note _ _ _
  have ha : ∀ s, tally (ackedBy s) ((c.takeBody sid).note (.handed sid st.body.length)).journal =
      tally (ackedBy s) c.journal :=
    fun s => tally_note _ _ _
  refine ⟨hs.update hu rfl (fun s hne => ?_) (fun s _ => ha s) hst ?_,
    recvTotal_of_updates hu rfl rfl (fun st1 hst1 => ?_),
    hu.forall_at hst ⟨st, hst, rfl⟩ (fun s st1 _ h => ⟨st1, h, rfl⟩)⟩
  · rw [hh, if_neg hne.symm, add_zero]
  · rw [hh, ha, if_pos rfl]
    refine ⟨hso.acked_le.trans (Nat.le_add_right _ _), hso.plain, fun h => ?_, hso.tunnel, hso.ws,
      fun h => ?_⟩
    · have := hso.streaming h
      simp only [List.length_nil]
      omega
    · obtain ⟨h1, h2, h3, h4⟩ := hso.fresh h
      exact ⟨h1, h2, rfl, by simp [h3, h4]⟩
  · rw [Option.some.inj (hst1.symm.trans hst)]

/-! ### Calls of the application -/

/-- The sink of the stream may take what is buffered for it: it acknowledges by itself, or the
request is streamed, or nothing is buffered. -/
def Conn.SinkFits (c : Conn) (sid : ℕ) (manualAck : Bool) : Prop :=
  ∀ st, c.stream? sid = some st → manualAck = true ∨ st.reqStreaming = true ∨ st.body = []

/-- An acknowledgement covers no more than was delivered and not yet acknowledged. -/
def Call.AcksDelivered : Call → Conn → Prop
  | .ackBody sid n, c => (c.stream? sid).isSome = true → n ≤ c.unacked sid
  | _, _ => True

/-- A sink is registered where it may take the buffered bytes. -/
def Call.SinkFits : Call → Conn → Prop
  | .onBody sid _ manualAck, c => c.SinkFits sid manualAck
  | _, _ => True

/-- The calls under which the receive windows are conserved. -/
def Call.KeepsCredit (k : Call) (c : Conn) : Prop := k.AcksDelivered c ∧ k.SinkFits c

section Calls

variable {H : Hooks} (hf : ∀ cb c, Settles c (H.fire cb c))

include hf

/-- **Delivery keeps the accounts**, also when the sink answers and its stream goes away. -/
theorem h2DeliverBody_steady (hs : Sound c) (last : Bool)
    (hb : ∀ st, c.stream? sid = some st → c.SinkFits sid st.bodyManualAck) :
    Steady c (h2DeliverBody H sid last c) := by
  unfold h2DeliverBody
  cases hst : c.stream? sid with
  | none => exact .refl hs
  | some st =>
    dsimp only
    cases hcb : st.onBodyCb with
    | none => exact .refl hs
    | some cb =>
      dsimp only
      have hrun : ∀ c1, Sound c1 → Steady c1 (H.run (.body sid cb st.body last) c1) :=
        fun c1 => (run_settles hf _ c1).steady
      by_cases hdo : st.body.length > 0 ∨ last = true
      · rw [if_pos hdo]
        cases hm : st.bodyManualAck with
        | true =>
          have h1 := takeBody_handed hs hst hm
          exact h1.trans (hrun _ h1.sound)
        | false =>
          have hfit := hb st hst st hst
          rw [hm] at hfit
          have h1 := takeBody_owes hs hst hm (hfit.resolve_left (by simp))
          exact (h1.trans (hrun _ h1.sound)).settled
      · rw [if_neg hdo]
        exact .refl hs

theorem h2SetOnBody_steady (hs : Sound c) {cb : ℕ} {manualAck : Bool}
    (hfit : c.SinkFits sid manualAck) : Steady c (h2SetOnBody H sid cb manualAck c) := by
  unfold h2SetOnBody
  cases hst : c.stream? sid with
  | none => exact .refl hs
  | some st =>
    have h1 : Steady c (c.storeSink sid cb manualAck) := by
      refine .of_same hs (fun _ => tally_note _ _ _) (fun _ => tally_note _ _ _) le_rfl
        (recvTotal_of_updates (.modify _ _ _) rfl rfl (fun _ _ => rfl)) ?_
      exact Table.forall_modify (fun st1 h => ⟨st1, h, ⟨rfl, rfl, rfl, id⟩, rfl⟩)
        (fun s st1 _ h => ⟨st1, h, .refl st1, rfl⟩)
    refine h1.trans (h2DeliverBody_steady hf h1.sound _ ?_)
    intro st1 hst1 st2 hst2
    rcases Conn.stream_of_modify hst1 with ⟨-, st3, hst3, rfl⟩ | ⟨hne, -⟩
    · obtain rfl := Option.some.inj (hst2.symm.trans hst1)
      exact hfit st3 hst3
    · exact absurd rfl hne

omit hf in
theorem ackNothing_eq (c : Conn) (sid : ℕ) :
    ((c.note (.acked sid 0)).creditStream sid 0).creditConnFor sid 0 = c.note (.acked sid 0) := by
  have h : (c.note (.acked sid 0)).creditStream sid 0 = c.note (.acked sid 0) := by
    unfold Conn.creditStream
    split
    · rfl
    · exact if_pos rfl
  rw [h]
  exact if_pos rfl

omit hf in
theorem ackDeferred_sound (hs : Sound c) {k : ℕ} (hst : c.stream? sid = some st)
    (hr : st.reqStreaming = true)
    (hk : tally (ackedBy sid) c.journal + k ≤ tally (handedBy sid) c.journal) :
    let c' := ((c.note (.acked sid k)).creditStream sid k).modify sid (fun st =>
      { st with connDeferred := st.connDeferred - min k st.connDeferred })
    Sound c' ∧ c'.recvTotal + k = c.recvTotal ∧ ∀ s st', c'.stream? s = some st' →
      ∃ st, c.stream? s = some st ∧ st'.recvTotal = st.recvTotal := by
  intro c'
  have hso := hs.stream sid st hst
  have hcredit := hso.streaming hr
  obtain ⟨hsame, ht⟩ := st.recvTotal_credited (c.note (.acked sid k)).streamRecvWindow k
  have hd := hsame.connDeferred
  have hmin := Nat.min_eq_left (hd ▸ (by omega : k ≤ st.connDeferred))
  have hself := (updates_creditStream (c.note (.acked sid k)) sid k).self hst
  have hu : Updates c c' sid _ :=
    (updates_creditStream (c.note (.acked sid k)) sid k).trans (.modify _ sid _)
  have hh : ∀ s, tally (handedBy s) c'.journal = tally (handedBy s) c.journal := fun s =>
    (tally_creditStream (fun _ _ => rfl) _ sid k).trans (tally_note _ _ _)
  have ha : ∀ s, tally (ackedBy s) c'.journal =
      tally (ackedBy s) c.journal + if sid = s then k else 0 := fun s =>
    (tally_creditStream (fun _ _ => rfl) _ sid k).trans (tally_note _ _ _)
  refine ⟨hs.update hu (kept_creditStream (c.note (.acked sid k)) sid k).lastStreamId
    (fun s _ => hh s) (fun s hne => ?_) hst ?_, ?_, hu.forall_at hst ⟨st, hst, ?_⟩
      (fun s st1 _ h => ⟨st1, h, rfl⟩)⟩
  · rw [ha, if_neg hne.symm, add_zero]
  · have hacked : Stream.Sound (tally (handedBy sid) c.journal) (tally (ackedBy sid) c.journal + k)
        { st with connDeferred := st.connDeferred - k } := by
      refine ⟨hk, fun h => ?_, fun _ => ?_, hso.tunnel, hso.ws, fun h => ?_⟩
      · rw [show st.reqStreaming = false from h] at hr
        cases hr
      · dsimp only
        omega
      · rw [(hso.fresh h).1] at hr
        cases hr
    rw [hh, ha, if_pos rfl]
    exact hacked.of_same ⟨hsame.kind, hsame.body, by dsimp only; rw [hmin, hd], hsame.ws⟩
  · have h2 : ((c.note (.acked sid k)).creditStream sid k).recvTotal = c.recvTotal :=
      recvTotal_creditStream _ sid k
    have ht := Table.total_modify Stream.connDeferred (fun st : Stream => { st with
      connDeferred := st.connDeferred - min k st.connDeferred }) hself
    simp only [Conn.recvTotal, Conn.modify, c'] at h2 ⊢
    rw [hmin, hd] at ht
    dsimp only at ht
    omega
  · simp only [Stream.recvTotal, hmin] at ht ⊢
    omega

omit hf in
/-- **Acknowledged bytes move from the deferred credit to the windows.** -/
theorem h2AckBody_steady (hs : Sound c) {n : ℤ}
    (hn : (c.stream? sid).isSome = true → n ≤ c.unacked sid) : Steady c (h2AckBody sid n c) := by
  unfold h2AckBody
  cases hst : c.stream? sid with
  | none => exact .refl hs
  | some st =>
    dsimp only
    cases hr : st.reqStreaming with
    | false => exact .refl hs
    | true =>
      rw [if_pos rfl]
      have hroom : tally (ackedBy sid) c.journal + n.toNat ≤
          tally (handedBy sid) c.journal := by
        have h1 := hn (by rw [hst]; rfl)
        have h2 := (hs.stream sid st hst).acked_le
        unfold Conn.unacked at h1
        omega
      generalize n.toNat = k at hroom
      by_cases hk : k = 0
      · subst hk
        rw [ackNothing_eq]
        refine .of_same hs (fun s => tally_note _ _ _) (fun s => ?_) le_rfl rfl
          (fun s st1 h => ⟨st1, h, .refl st1, rfl⟩)
        rw [tally_note]
        simp [ackedBy]
      · obtain ⟨hsound, hconn, hstream⟩ := ackDeferred_sound hs hst hr hroom
        unfold Conn.creditConnFor
        rw [if_neg hk]
        refine ⟨hsound.creditConn k, ?_, fun s st' h => ?_⟩
        · rw [recvTotal_creditConn]
          exact hconn
        · rw [stream_creditConn] at h
          exact hstream s st' h

/-- **Every permitted call keeps the accounts**, if the callbacks it runs do. -/
theorem Call.settles {k : Call} (hok : k.KeepsCredit c) : Settles c (k.run H c) := by
  have hpath : Path (CallAtom Call.KeepsCredit) Settles c (k.run H c) :=
    Call.run_path hf (fun _ _ h => h.kept) hok
  have hkept : Kept c (k.run H c) := hpath.kept_call (fun _ _ h => h.kept)
  cases k with
  | onBody sid cb m => exact ⟨hkept, fun hs => h2SetOnBody_steady hf hs hok.2⟩
  | ackBody sid n => exact ⟨hkept, fun hs => h2AckBody_steady hs hok.1⟩
  | onDrain sid cb => exact ⟨hkept, fun hs => (onDrain_moves sid cb c).steady hs⟩
  | writable sid => exact ⟨hkept, fun hs => (h2Writable_moves sid c).steady hs⟩
  | _ =>
    exact (Call.write_path hf (fun _ _ h => h.kept) _ (by simp) (by simp) (by simp) (by simp)
      c).settles

end Calls

theorem World.fire_settles {W : World} (hW : W.Obeys Call.KeepsCredit) (n : ℕ) (cb : Callback)
    (c : Conn) : Settles c ((W.hooks n).fire cb c) :=
  World.fire_rel hW Settles.refl Settles.trans (fun _ _ _ hf hok => Call.settles hf hok) n cb c

end Vortex.Http2
