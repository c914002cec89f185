import Vortex.Http2.Run

/-! # What the codec's operations do to the stream table

One lemma for each operation that touches a stream: `Updates c c' sid f` says that the streams of
`c'` are those of `c` but for `f` applied to the stream `sid`, if it is open.  Operations that
look a stream up before they change it are brought to this form here, once.  The others are
simp lemmas about the table itself. -/

namespace Vortex.Http2

/-! ### Updated streams -/

/-- The cached backlog flags, brought up to date. -/
def Stream.synced (st : Stream) : Stream :=
  { st with
    hadBacklog := st.hasBacklog
    wasWindowBlocked := st.hasBacklog && decide (st.sendWindow ≤ 0) }

/-- A DATA frame of `n` bytes was cut from the backlog. -/
def Stream.sent (n : ℕ) (st : Stream) : Stream :=
  (Stream.compactPendingBody { st with
    pendingPos := st.pendingPos + n, sendWindow := int32 (st.sendWindow - n) }).synced

/-- The stream is queued if it can send. -/
def Stream.enqueued (st : Stream) : Stream :=
  if !st.inSendQ && st.sendable then { st with inSendQ := true } else st

/-- The end of the response was taken in. -/
def Stream.finished (trailers : Fields) (st : Stream) : Stream :=
  { st with
    respPhase := .rpFinished
    onRespDrain := none
    pendingIsLast := st.pendingIsLast || !st.isHead
    respTrailers := if !st.isHead && trailers.length > 0 then trailers else st.respTrailers
    respBackedUp := false }

/-- Bytes were returned to the stream's receive window, batched at half the window `w`. -/
def Stream.credited (w n : ℕ) (st : Stream) : Stream :=
  if n = 0 then st
  else if (st.pendingWindow + n) * 2 ≥ w then
    { st with
      recvRemaining := st.recvRemaining + ((st.pendingWindow + n : ℕ) : ℤ), pendingWindow := 0 }
  else { st with pendingWindow := st.pendingWindow + n }

namespace Conn

variable (c : Conn) (sid : ℕ)

/-! ### Updates -/

@[simp] theorem streams_note (e : Event) : (c.note e).streams = c.streams := rfl

@[simp] theorem streams_send (f : Frame) : (c.send f).streams = c.streams := rfl

@[simp] theorem streams_emitBlock (fields : Bytes) (es : Bool) :
    (c.emitBlock sid fields es).streams = c.streams := rfl

@[simp] theorem streams_modify (f : Stream → Stream) :
    (c.modify sid f).streams = c.streams.modify sid f := rfl

@[simp] theorem streams_sendReset (err : ErrCode) : (c.sendReset sid err).streams = c.streams := by
  unfold sendReset
  split_ifs <;> rfl

@[simp] theorem streams_recordEarlyClosed : (c.recordEarlyClosed sid).streams = c.streams := by
  unfold recordEarlyClosed
  dsimp only
  split_ifs <;> rfl

@[simp] theorem streams_recordServerReset (w : ℤ) :
    (c.recordServerReset sid w).streams = c.streams := by
  unfold recordServerReset
  dsimp only
  split_ifs <;> rfl

@[simp] theorem streams_stopClient : (c.stopClient sid).streams = c.streams := by
  unfold stopClient
  cases c.stream? sid with
  | none => rfl
  | some st =>
      dsimp only
      split_ifs
      · exact streams_recordServerReset _ _ _
      · rfl

@[simp] theorem streams_creditConn (n : ℕ) : (c.creditConn n).streams = c.streams := by
  unfold creditConn
  dsimp only
  split_ifs <;> rfl

@[simp] theorem streams_noteDataProgress (n frames : ℕ) :
    (c.noteDataProgress n frames).streams = c.streams := by
  unfold noteDataProgress
  dsimp only
  split_ifs <;> rfl

@[simp] theorem streams_connError (err : ErrCode) : (c.connError err).streams = c.streams := by
  unfold connError
  split_ifs <;> rfl

@[simp] theorem streams_noteControlFrame (n : ℕ) : (c.noteControlFrame n).streams = c.streams := by
  unfold noteControlFrame
  dsimp only
  split_ifs
  · exact streams_connError _ _
  · rfl

@[simp] theorem streams_noteHead : (c.noteHead sid).streams = c.streams := by
  unfold noteHead
  split <;> rfl

@[simp] theorem streams_noteDispatch : (c.noteDispatch sid).streams = c.streams := by
  unfold noteDispatch
  split <;> rfl

end Conn

/-! ### Updates -/

/-- The stream `sid` is updated by `f`, the others stay. -/
def Updates (c c' : Conn) (sid : ℕ) (f : Stream → Stream) : Prop :=
  ∀ s, c'.stream? s = if s = sid then (c.stream? sid).map f else c.stream? s

namespace Updates

variable {a b c : Conn} {sid : ℕ} {f g : Stream → Stream}

theorem modify (c : Conn) (sid : ℕ) (f : Stream → Stream) : Updates c (c.modify sid f) sid f :=
  fun _ => Table.lookup_modify _ _ _ _

theorem of_streams (h : b.streams = a.streams.modify sid f) : Updates a b sid f := by
  intro s
  unfold Conn.stream?
  rw [h, Table.lookup_modify]

theorem trans (h1 : Updates a b sid f) (h2 : Updates b c sid g) :
    Updates a c sid (fun st => g (f st)) := by
  intro s
  rw [h2 s, h1 sid, h1 s, if_pos rfl]
  split_ifs
  · rw [Option.map_map]
    rfl
  · rfl

theorem congr_right (h : Updates a b sid f) (e : c.streams = b.streams) : Updates a c sid f := by
  intro s
  rw [← h s]
  unfold Conn.stream?
  rw [e]

theorem congr_fun (h : Updates a b sid f) (e : ∀ st, a.stream? sid = some st → f st = g st) :
    Updates a b sid g := by
  intro s
  rw [h s]
  split_ifs
  · cases hs : a.stream? sid with
    | none => rfl
    | some st => exact congrArg some (e st hs)
  · rfl

theorem fixed (e : b.streams = a.streams) (h : ∀ st, a.stream? sid = some st → f st = st) :
    Updates a b sid f := by
  intro s
  have hs : b.stream? s = a.stream? s := by
    unfold Conn.stream?
    rw [e]
  rw [hs]
  split_ifs with hsid
  · rw [hsid]
    cases hst : a.stream? sid with
    | none => rfl
    | some st => exact congrArg some (h st hst).symm
  · rfl

theorem self (h : Updates a b sid f) {st : Stream} (hs : a.stream? sid = some st) :
    b.stream? sid = some (f st) := by
  rw [h sid, if_pos rfl, hs]
  rfl

theorem of_ne (h : Updates a b sid f) {s : ℕ} (hne : s ≠ sid) : b.stream? s = a.stream? s := by
  rw [h s, if_neg hne]

theorem forall_stream (h : Updates a b sid f) {P : ℕ → Stream → Prop}
    (hsid : ∀ st, a.stream? sid = some st → P sid (f st))
    (hne : ∀ s st, s ≠ sid → a.stream? s = some st → P s st) :
    ∀ s st, b.stream? s = some st → P s st := by
  intro s st hst
  rw [h s] at hst
  split_ifs at hst with e
  · obtain ⟨st0, hs0, rfl⟩ := Option.map_eq_some_iff.mp hst
    rw [e]
    exact hsid st0 hs0
  · exact hne s st e hst

theorem forall_at (h : Updates a b sid f) {P : ℕ → Stream → Prop} {st : Stream}
    (hs : a.stream? sid = some st) (hsid : P sid (f st))
    (hne : ∀ s st, s ≠ sid → a.stream? s = some st → P s st) :
    ∀ s st, b.stream? s = some st → P s st := by
  refine h.forall_stream (fun st' hs' => ?_) hne
  obtain rfl := Option.some.inj (hs'.symm.trans hs)
  exact hsid

section Total

variable {M : Type} [AddCommMonoid M] (q : Stream → M)

theorem total_eq (h : Updates a b sid f) :
    Table.total q b.streams = Table.total q (a.streams.modify sid f) :=
  Table.total_of_lookup q (fun s => (h s).trans (Table.lookup_modify _ _ _ _).symm)

/-- Updating a stream exchanges its share of a sum over the streams. -/
theorem total (h : Updates a b sid f) {st : Stream} (hs : a.stream? sid = some st) :
    q st + Table.total q b.streams = q (f st) + Table.total q a.streams := by
  rw [h.total_eq q]
  exact Table.total_modify q f hs

theorem total_of_eq (h : Updates a b sid f) (hq : ∀ st, a.stream? sid = some st → q (f st) = q st) :
    Table.total q b.streams = Table.total q a.streams := by
  rw [h.total_eq q]
  exact Table.total_modify_of_eq q hq

end Total

end Updates

section Operations

variable (c : Conn) (sid : ℕ)

theorem updates_syncSendState : Updates c (c.syncSendState sid) sid Stream.synced := by
  unfold Conn.syncSendState
  cases hs : c.stream? sid with
  | none => exact .fixed rfl (by simp [hs])
  | some st =>
    refine (Updates.of_streams rfl).congr_fun (fun st' hs' => ?_)
    obtain rfl : st' = st := Option.some.inj (hs'.symm.trans hs)
    rfl

theorem updates_clearBackedUp :
    Updates c (c.clearBackedUp sid) sid (fun st => { st with respBackedUp := false }) := by
  unfold Conn.clearBackedUp
  cases hs : c.stream? sid with
  | none => exact .fixed rfl (by simp [hs])
  | some st => exact .of_streams rfl

theorem updates_setBackedUp :
    Updates c (c.setBackedUp sid) sid (fun st => { st with respBackedUp := true }) := by
  unfold Conn.setBackedUp
  cases hs : c.stream? sid with
  | none => exact .fixed rfl (by simp [hs])
  | some st => exact .of_streams rfl

theorem updates_takeDrain : Updates c (c.takeDrain sid) sid
    (fun st => { st with respBackedUp := false, onRespDrain := none }) :=
  (updates_clearBackedUp c sid).trans (.modify _ sid _)

theorem updates_noteEndStream :
    Updates c (c.noteEndStream sid) sid (fun st => { st with endStreamSeen := true }) := by
  unfold Conn.noteEndStream
  cases hs : c.stream? sid with
  | none => exact .fixed rfl (by simp [hs])
  | some st => exact .of_streams rfl

theorem updates_releaseBuffered :
    Updates c (c.releaseBuffered sid) sid (fun st => { st with bufferedCounted := 0 }) := by
  unfold Conn.releaseBuffered
  cases hs : c.stream? sid with
  | none => exact .fixed rfl (by simp [hs])
  | some st => exact .of_streams rfl

theorem updates_dispatch :
    Updates c (c.dispatch sid) sid (fun st => { st with dispatched := true }) :=
  .of_streams (congrArg (Table.modify sid _) (Conn.streams_noteDispatch c sid))

theorem updates_h2Enqueue : Updates c (c.h2Enqueue sid) sid Stream.enqueued := by
  unfold Conn.h2Enqueue
  cases hs : c.stream? sid with
  | none => exact .fixed rfl (by simp [hs])
  | some st =>
    dsimp only
    split_ifs with h
    · refine (Updates.of_streams rfl).congr_fun (fun st' hs' => ?_)
      obtain rfl : st' = st := Option.some.inj (hs'.symm.trans hs)
      simp [Stream.enqueued, h]
    · refine .fixed rfl (fun st' hs' => ?_)
      obtain rfl : st' = st := Option.some.inj (hs'.symm.trans hs)
      simp [Stream.enqueued, h]

theorem updates_sendChunk (st : Stream) (n : ℕ) (last : Bool) :
    Updates c (c.sendChunk sid st n last) sid (Stream.sent n) := by
  have h1 := Updates.modify (c.send (.data sid (st.unsent.take n) last)) sid (fun st => { st with
    pendingPos := st.pendingPos + n, sendWindow := int32 (st.sendWindow - n) })
  have h2 := h1.congr_right (c := Conn.noteDataProgress
    { (c.send (.data sid (st.unsent.take n) last)).modify sid (fun st => { st with
        pendingPos := st.pendingPos + n, sendWindow := int32 (st.sendWindow - n) }) with
      connSendWindow := int32 (c.connSendWindow - n) } n 1) (Conn.streams_noteDataProgress _ _ _)
  exact (h2.trans (.modify _ sid Stream.compactPendingBody)).trans (updates_syncSendState _ sid)

theorem updates_beginFinish (trailers : Fields) :
    Updates c (c.beginFinish sid trailers) sid (Stream.finished trailers) := by
  have h := (Updates.modify c sid (fun st => { st with
    respPhase := .rpFinished
    onRespDrain := none
    pendingIsLast := st.pendingIsLast || !st.isHead
    respTrailers := if !st.isHead && trailers.length > 0 then trailers else st.respTrailers })).trans
      (updates_clearBackedUp _ sid)
  exact h

theorem updates_creditStream (n : ℕ) :
    Updates c (c.creditStream sid n) sid (Stream.credited c.streamRecvWindow n) := by
  unfold Conn.creditStream
  cases hs : c.stream? sid with
  | none => exact .fixed rfl (by simp [hs])
  | some st =>
    have hst : ∀ st', c.stream? sid = some st' → st' = st :=
      fun st' hs' => Option.some.inj (hs'.symm.trans hs)
    dsimp only
    split_ifs with h h'
    · exact .fixed rfl (fun st' _ => by simp [Stream.credited, h])
    · refine (Updates.of_streams rfl).congr_fun (fun st' hs' => ?_)
      obtain rfl := hst st' hs'
      simp [Stream.credited, h, h']
    · refine (Updates.of_streams rfl).congr_fun (fun st' hs' => ?_)
      obtain rfl := hst st' hs'
      simp [Stream.credited, h, h']

/-! ### The direct write loop -/

/-- The direct write loop after one more DATA frame, of `n` bytes. -/
def DirectState.next (sid n : ℕ) (s : DirectState) : DirectState where
  c := { (s.c.send (.data sid (s.rest.take n) false)).modify sid (fun st => { st with
      sendWindow := int32 (st.sendWindow - n) }) with
    connSendWindow := int32 (s.c.connSendWindow - n) }
  rest := s.rest.drop n
  off := s.off + n
  frames := s.frames + 1

/-- The loop can send `n` bytes for the stream `st`. -/
structure DirectState.CanSend (sid : ℕ) (s : DirectState) (st : Stream) (n : ℕ) : Prop where
  stream : s.c.stream? sid = some st
  connWindow : 0 < s.c.connSendWindow
  window : 0 < st.sendWindow
  room : s.c.pendingOut < respHighWater
  size : (n : ℤ) = s.c.chunkSize st s.rest.length
  pos : 0 < n

/-- Induction along the direct write loop, frame by frame. -/
theorem directLoop_induction (sid : ℕ) {P : DirectState → DirectState → Prop} (hdone : ∀ s, P s s)
    (hnext : ∀ s r st n, s.CanSend sid st n → P (s.next sid n) r → P s r) (s : DirectState) :
    P s ((directLoop sid).run s) := by
  refine (directLoop sid).run_induction ?_ ?_ s
  · intro s r h
    change directStep sid s = .inr r at h
    unfold directStep at h
    split at h
    · cases h
      exact hdone s
    · split at h
      · cases h
      · cases h
        exact hdone s
  · intro s s' r h ih
    change directStep sid s = .inl s' at h
    unfold directStep at h
    cases hs : s.c.stream? sid with
    | none =>
      rw [hs] at h
      cases h
    | some st =>
      rw [hs] at h
      dsimp only at h
      split at h
      · next hc =>
        have hpos := chunkSize_pos hc.1 hc.2.1 hc.2.2.1
        rw [← Sum.inl.inj h] at ih
        exact hnext s r st _ ⟨hs, hc.2.1, hc.2.2.1, hc.2.2.2, by omega, by omega⟩ ih
      · cases h

/-- The loop moves the two send windows and writes, nothing else. -/
theorem directLoop_frame (s : DirectState) : ((directLoop sid).run s).c = { s.c with
      streams := ((directLoop sid).run s).c.streams
      connSendWindow := ((directLoop sid).run s).c.connSendWindow
      journal := ((directLoop sid).run s).c.journal } :=
  directLoop_induction sid (P := fun s r => r.c = { s.c with
    streams := r.c.streams, connSendWindow := r.c.connSendWindow, journal := r.c.journal })
    (fun _ => rfl) (fun _ _ _ _ _ ih => ih) s

theorem updates_directLoop (s : DirectState) :
    ∃ w, Updates s.c ((directLoop sid).run s).c sid (fun st => { st with sendWindow := w }) := by
  refine directLoop_induction sid (P := fun s r => ∃ w, Updates s.c r.c sid
    (fun st => { st with sendWindow := w })) (fun s => ?_) (fun s r st n h ih => ?_) s
  · cases hs : s.c.stream? sid with
    | none => exact ⟨0, .fixed rfl (by simp [hs])⟩
    | some st =>
      refine ⟨st.sendWindow, .fixed rfl (fun st' hs' => ?_)⟩
      obtain rfl := Option.some.inj (hs'.symm.trans hs)
      rfl
  · obtain ⟨w, hw⟩ := ih
    have h1 : Updates s.c (s.next sid n).c sid _ := Updates.of_streams rfl
    have h2 := h1.trans hw
    exact ⟨w, h2⟩

/-! ### Removals -/

theorem stream_detachStream (s : ℕ) :
    (c.detachStream sid).stream? s = if s = sid then none else c.stream? s := by
  unfold Conn.detachStream
  cases hs : c.stream? sid with
  | none =>
    split_ifs with e
    · rw [e, hs]
    · rfl
  | some st =>
    have e : ((if st.endStreamSeen = true then c else c.recordEarlyClosed sid).creditConn
        st.connDeferred).streams = c.streams := by
      split_ifs <;> simp
    simp only [Conn.stream?, Conn.note, Conn.dropStreamCounters, e, Table.lookup_erase_ite]

theorem stream_dropWsStream (s : ℕ) :
    (c.dropWsStream sid).stream? s = if s = sid then none else c.stream? s := by
  unfold Conn.dropWsStream
  cases hs : c.stream? sid with
  | none =>
    split_ifs with e
    · rw [e, hs]
    · rfl
  | some st => simp only [Conn.stream?, Conn.note, Conn.dropStreamCounters, Table.lookup_erase_ite]

end Operations

end Vortex.Http2
