import Mathlib.Algebra.BigOperators.Fin
import Vortex.Http2.ReadPaths

/-! # No stream loses its turn

A stream waits for the scheduler in one of eight queues, and the flag `inSendQ` on the stream says
that it does.  What makes a stream sendable is spread over the codec: response bytes taken in, an
end taken in, credit from the peer, a WebSocket's frames or its close; and the scheduler takes
streams off their queue and puts them back around callbacks that write.

`Conn.Turns S` is the invariant: the flag counts the entries of the stream, and a stream that can
send is queued, the streams of `S` apart.  The exempt set is what makes the invariant hold in the
middle of things: a piece that changes what a stream can send exempts it, queueing the stream or
taking it out of the table ends the exemption.  While a closed WebSocket tells its application,
its stream is off the queues and still in the table; it stays exempt until it is dropped.

A connection that fails while it applies a SETTINGS frame has moved the send windows and does not
queue the streams any more; it reads nothing from then on.  Only streams with a backlog are affected:
one that owes nothing but its end is queued there too. -/

namespace Vortex.Http2

open Relation

/-! ### Entries -/

/-- The number of entries of the stream `sid` over the eight queues. -/
def Conn.turns (c : Conn) (sid : ℕ) : ℕ := ∑ u, (c.sendQ u).count sid

/-- The queues agree with the streams' flags, and a stream that can send is queued unless it is
exempt. -/
structure Conn.Turns (S : Set ℕ) (c : Conn) : Prop where
  opened : c.Opened
  known : ∀ u, ∀ s ∈ c.sendQ u, s ≤ c.lastStreamId
  queued : ∀ s st, c.stream? s = some st → c.turns s = if st.inSendQ then 1 else 0
  ready : ∀ s, s ∉ S → ∀ st, c.stream? s = some st → st.sendable = true →
    c.closing = false ∨ st.backlog = 0 → st.inSendQ = true

/-- The queues stay, no stream is opened, and only streams of `S` become sendable. -/
structure Calm (S : Set ℕ) (a b : Conn) : Prop where
  queue : b.sendQ = a.sendQ
  last : a.lastStreamId ≤ b.lastStreamId
  closing : b.closing = false → a.closing = false
  stream : ∀ s st', b.stream? s = some st' → ∃ st, a.stream? s = some st ∧
    st'.inSendQ = st.inSendQ ∧ (s ∉ S → st'.backlog = st.backlog ∧
      (st'.sendable = true → st.sendable = true))

/-- What the turns of a connection depend on beside its streams. -/
def Conn.queueSide (c : Conn) : (Fin 8 → List ℕ) × ℕ × Bool := (c.sendQ, c.lastStreamId, c.closing)

/-- What they depend on in a stream. -/
def Stream.turn (st : Stream) : Bool × Bool × ℕ := (st.inSendQ, st.sendable, st.backlog)

variable {st : Stream} {o : Option ℕ} {ok : Call → Conn → Prop} {S : Set ℕ} {c : Conn}

theorem Stream.turn_of_eq {st' : Stream} (hq : st'.inSendQ = st.inSendQ)
    (hb : st'.backlog = st.backlog) (hw : st'.sendWindow = st.sendWindow) (hws : st'.ws = st.ws)
    (hl : st'.pendingIsLast = st.pendingIsLast) : st'.turn = st.turn := by
  unfold Stream.turn Stream.sendable
  rw [hq, hb, hw, hws, hl]

namespace Calm

variable {S T : Set ℕ} {a b c : Conn} {sid : ℕ} {f : Stream → Stream}

theorem refl (c : Conn) : Calm S c c :=
  ⟨rfl, le_refl _, id, fun _ st h => ⟨st, h, rfl, fun _ => ⟨rfl, id⟩⟩⟩

theorem trans (h1 : Calm S a b) (h2 : Calm S b c) : Calm S a c where
  queue := h2.queue.trans h1.queue
  last := h1.last.trans h2.last
  closing h := h1.closing (h2.closing h)
  stream s st'' h := by
    obtain ⟨st', hs', hq', hr'⟩ := h2.stream s st'' h
    obtain ⟨st, hs, hq, hr⟩ := h1.stream s st' hs'
    exact ⟨st, hs, hq'.trans hq, fun hS => ⟨(hr' hS).1.trans (hr hS).1,
      fun hsend => (hr hS).2 ((hr' hS).2 hsend)⟩⟩

theorem of_side (hv : b.queueSide = a.queueSide) (hs : ∀ s st', b.stream? s = some st' →
    ∃ st, a.stream? s = some st ∧ st'.inSendQ = st.inSendQ ∧ (s ∉ S → st'.backlog = st.backlog ∧
      (st'.sendable = true → st.sendable = true))) : Calm S a b where
  queue := congrArg Prod.fst hv
  last := (congrArg (fun v => v.2.1) hv).ge
  closing h := (congrArg (fun v => v.2.2) hv).symm.trans h
  stream := hs

theorem of_streams (hv : b.queueSide = a.queueSide) (hs : b.streams = a.streams) : Calm S a b :=
  of_side hv (fun s st h => ⟨st, by rw [← h]; simp only [Conn.stream?, hs], rfl,
    fun _ => ⟨rfl, id⟩⟩)

theorem of_updates (hv : b.queueSide = a.queueSide) (hu : Updates a b sid f)
    (hf : ∀ st, a.stream? sid = some st → (f st).inSendQ = st.inSendQ ∧
      (sid ∉ S → (f st).backlog = st.backlog ∧ ((f st).sendable = true → st.sendable = true))) :
    Calm S a b :=
  of_side hv (hu.forall_stream (fun st hs => ⟨st, hs, hf st hs⟩)
    (fun _ st _ hs => ⟨st, hs, rfl, fun _ => ⟨rfl, id⟩⟩))

/-- An update that changes neither the flag nor what the stream can send. -/
theorem of_turn (hv : b.queueSide = a.queueSide) (hu : Updates a b sid f)
    (hf : ∀ st, a.stream? sid = some st → (f st).turn = st.turn) : Calm S a b :=
  of_updates hv hu (fun st hs => ⟨congrArg Prod.fst (hf st hs), fun _ =>
    ⟨congrArg (fun t => t.2.2) (hf st hs), fun h =>
      (congrArg (fun t => t.2.1) (hf st hs)).symm.trans h⟩⟩)

theorem modify (c : Conn) (sid : ℕ) (hf : ∀ st : Stream, (f st).turn = st.turn) :
    Calm S c (c.modify sid f) :=
  of_turn rfl (.modify c sid f) (fun st _ => hf st)

theorem of_exempt (hv : b.queueSide = a.queueSide) (hu : Updates a b sid f) (hS : sid ∈ S)
    (hf : ∀ st, a.stream? sid = some st → (f st).inSendQ = st.inSendQ) : Calm S a b :=
  of_updates hv hu (fun st hs => ⟨hf st hs, fun h => absurd hS h⟩)

theorem note (c : Conn) (e : Event) : Calm S c (c.note e) := of_streams rfl rfl

theorem send (c : Conn) (f : Frame) : Calm S c (c.send f) := note c _

theorem of_gone (sid : ℕ) (hv : b.queueSide = a.queueSide)
    (hs : ∀ s, b.stream? s = if s = sid then none else a.stream? s) : Calm S a b := by
  refine of_side hv (fun s st h => ?_)
  rw [hs s] at h
  split_ifs at h
  exact ⟨st, h, rfl, fun _ => ⟨rfl, id⟩⟩

end Calm

/-! ### Queueing -/

namespace Conn.Turns

variable {S T : Set ℕ} {a b c : Conn} {sid : ℕ} {u : Fin 8}

theorem mono (hST : S ⊆ T) (h : c.Turns S) : c.Turns T :=
  ⟨h.opened, h.known, h.queued, fun s hs => h.ready s (fun hS => hs (hST hS))⟩

theorem restrict (h : c.Turns S) (hST : ∀ s st, c.stream? s = some st → s ∈ S → s ∈ T) :
    c.Turns T :=
  ⟨h.opened, h.known, h.queued,
    fun s hs st hst => h.ready s (fun hS => hs (hST s st hst hS)) st hst⟩

/-- A connection that failed exempts every stream with a backlog. -/
theorem failed (h : c.Turns (S ∪ T)) (hc : c.closing = true)
    (hT : ∀ s ∈ T, ∀ st, c.stream? s = some st → 0 < st.backlog) : c.Turns S where
  opened := h.opened
  known := h.known
  queued := h.queued
  ready s hS st hs hsend hor := by
    have hb : st.backlog = 0 := hor.resolve_left (by simp [hc])
    refine h.ready s (fun hm => ?_) st hs hsend hor
    rcases hm with hm | hm
    · exact hS hm
    · exact absurd (hT s hm st hs) (by omega)

theorem calm (h : a.Turns S) (hc : Calm S a b) : b.Turns S where
  opened s hs := by
    obtain ⟨st', hst'⟩ := Option.isSome_iff_exists.mp hs
    obtain ⟨st, hst, -⟩ := hc.stream s st' hst'
    exact (h.opened s (by rw [hst]; rfl)).trans hc.last
  known u s hs := (h.known u s (hc.queue ▸ hs)).trans hc.last
  queued s st' hs := by
    obtain ⟨st, hst, hq, -⟩ := hc.stream s st' hs
    rw [hq, ← h.queued s st hst, turns, turns, hc.queue]
  ready s hS st' hs hsend hor := by
    obtain ⟨st, hst, hq, hr⟩ := hc.stream s st' hs
    rw [hq]
    exact h.ready s hS st hst ((hr hS).2 hsend) (hor.imp hc.closing (hr hS).1.symm.trans)

theorem settle (h : c.Turns (insert sid S))
    (hn : ∀ st, c.stream? sid = some st → st.sendable = true → st.inSendQ = true) : c.Turns S where
  opened := h.opened
  known := h.known
  queued := h.queued
  ready s hS st hs hsend hor := by
    by_cases e : s = sid
    · subst e
      exact hn st hs hsend
    · exact h.ready s (by simp [e, hS]) st hs hsend hor

theorem gone (h : c.Turns (insert sid S)) (hn : c.stream? sid = none) : c.Turns S :=
  h.settle (fun st hs => by rw [hn] at hs; cases hs)

theorem turns_update (c : Conn) (u : Fin 8) (q : List ℕ) (s : ℕ) :
    (c.sendQ u).count s + ∑ v, ((Function.update c.sendQ u q) v).count s =
      q.count s + c.turns s := by
  have h1 := Finset.add_sum_erase Finset.univ (fun v => ((Function.update c.sendQ u q) v).count s)
    (Finset.mem_univ u)
  have h2 := Finset.add_sum_erase Finset.univ (fun v => (c.sendQ v).count s) (Finset.mem_univ u)
  have h3 : ∑ v ∈ Finset.univ.erase u, ((Function.update c.sendQ u q) v).count s =
      ∑ v ∈ Finset.univ.erase u, (c.sendQ v).count s := by
    refine Finset.sum_congr rfl (fun v hv => ?_)
    rw [Function.update_of_ne (Finset.ne_of_mem_erase hv)]
  simp only [Function.update_self] at h1
  unfold turns
  omega

theorem push (h : c.Turns (insert sid S)) (hs : c.stream? sid = some st) (hq : st.inSendQ = false)
    {q : List ℕ} (hp : q.Perm (sid :: c.sendQ u)) :
    Turns S { c.modify sid (fun st => { st with inSendQ := true }) with
      sendQ := Function.update c.sendQ u q } := by
  have hu := Updates.modify c sid (fun st => { st with inSendQ := true })
  refine ⟨fun s hsome => ?_, fun v s hsv => ?_, ?_, fun s hS => ?_⟩
  · refine h.opened s ?_
    rw [← Conn.isSome_stream_modify c sid s (fun st => { st with inSendQ := true })]
    exact hsome
  · have hlast : sid ≤ c.lastStreamId := h.opened sid (by rw [hs]; rfl)
    by_cases e : v = u
    · subst e
      change s ∈ Function.update c.sendQ v q v at hsv
      rw [Function.update_self, hp.mem_iff, List.mem_cons] at hsv
      rcases hsv with rfl | hsv
      · exact hlast
      · exact h.known v s hsv
    · change s ∈ Function.update c.sendQ u q v at hsv
      rw [Function.update_of_ne e] at hsv
      exact h.known v s hsv
  · have hcount : ∀ s, q.count s = (if sid = s then 1 else 0) + (c.sendQ u).count s := by
      intro s
      rw [hp.count_eq, List.count_cons, Nat.add_comm]
      simp
    refine hu.forall_stream (P := fun s st' => ∑ v, (Function.update c.sendQ u q v).count s =
      if st'.inSendQ then 1 else 0) (fun st0 hs0 => ?_) (fun s st0 hne hs0 => ?_)
    · obtain rfl := Option.some.inj (hs0.symm.trans hs)
      have h1 := turns_update c u q sid
      have h2 := h.queued sid st0 hs
      rw [hq] at h2
      rw [hcount sid, if_pos rfl] at h1
      change _ = 1
      simp only [Bool.false_eq_true, if_false] at h2
      omega
    · have h1 := turns_update c u q s
      rw [hcount s, if_neg (Ne.symm hne)] at h1
      rw [← h.queued s st0 hs0]
      omega
  · refine fun st' hs' => hu.forall_stream (P := fun s st' => s ∉ S → st'.sendable = true →
      c.closing = false ∨ st'.backlog = 0 → st'.inSendQ = true) (fun _ _ _ _ _ => rfl)
      (fun s st0 hne hs0 hS hsend => ?_) s st' hs' hS
    exact h.ready s (by simp [hne, hS]) st0 hs0 hsend

theorem enqueue (h : c.Turns (insert sid S)) : (c.h2Enqueue sid).Turns S := by
  unfold Conn.h2Enqueue
  cases hs : c.stream? sid with
  | none => exact h.gone hs
  | some st =>
    dsimp only
    split_ifs with hc
    · simp only [Bool.and_eq_true, Bool.not_eq_true'] at hc
      exact h.push hs hc.1 (List.perm_append_comm)
    · refine h.settle (fun st' hs' hsend => ?_)
      obtain rfl := Option.some.inj (hs'.symm.trans hs)
      simpa [hsend] using hc

theorem endTurn (h : c.Turns (insert sid S))
    (hq : ∀ st, c.stream? sid = some st → st.inSendQ = false) : (c.endTurn sid).Turns S := by
  unfold Conn.endTurn
  cases hs : c.stream? sid with
  | none => exact h.gone hs
  | some st =>
    dsimp only
    split_ifs with hsend
    · refine h.push hs (hq st hs) ?_
      split_ifs
      · exact List.perm_append_comm
      · exact .refl _
    · refine h.settle (fun st' hs' hsend' => ?_)
      obtain rfl := Option.some.inj (hs'.symm.trans hs)
      exact absurd hsend' hsend

theorem turns_popQueue {rest : List ℕ} (hq : c.sendQ u = sid :: rest) (s : ℕ) :
    (if sid = s then 1 else 0) + (c.popQueue u).turns s = c.turns s := by
  have h1 := turns_update c u (c.sendQ u).tail s
  rw [hq, List.tail_cons, List.count_cons] at h1
  have h2 : (c.popQueue u).turns s = ∑ v, (Function.update c.sendQ u rest v).count s := by
    unfold turns Conn.popQueue
    rw [hq]
    rfl
  rw [h2]
  simp only [beq_iff_eq] at h1
  omega

theorem known_popQueue (h : ∀ u, ∀ s ∈ c.sendQ u, s ≤ c.lastStreamId) (v : Fin 8) (s : ℕ)
    (hs : s ∈ (c.popQueue u).sendQ v) : s ≤ c.lastStreamId := by
  refine h v s ?_
  change s ∈ Function.update c.sendQ u (c.sendQ u).tail v at hs
  by_cases e : v = u
  · subst e
    rw [Function.update_self] at hs
    exact List.mem_of_mem_tail hs
  · rwa [Function.update_of_ne e] at hs

theorem popStale (h : c.Turns S) (hq : ∃ rest, c.sendQ u = sid :: rest) (hn : c.stream? sid = none) :
    (c.popQueue u).Turns S := by
  obtain ⟨rest, hq⟩ := hq
  refine ⟨h.opened, known_popQueue h.known, fun s st hs => ?_, h.ready⟩
  have h1 := turns_popQueue hq s
  have hne : sid ≠ s := by
    rintro rfl
    change c.stream? sid = some st at hs
    rw [hn] at hs
    cases hs
  rw [if_neg hne] at h1
  rw [← h.queued s st hs]
  omega

theorem popTurn (h : c.Turns S) (ht : c.Turn u sid st) :
    (c.popTurn u sid).Turns (insert sid S) := by
  obtain ⟨rest, hq⟩ := ht.head
  have hu := Updates.modify (c.popQueue u) sid (fun st => { st with inSendQ := false })
  refine ⟨fun s hs => ?_, known_popQueue h.known, ?_, fun s hS => ?_⟩
  · refine h.opened s ?_
    rw [← Conn.isSome_stream_modify c sid s (fun st => { st with inSendQ := false })]
    exact hs
  · refine hu.forall_stream (P := fun s st' => (c.popQueue u).turns s = if st'.inSendQ then 1 else 0)
      (fun st0 hs0 => ?_) (fun s st0 hne hs0 => ?_)
    · have h1 := turns_popQueue hq sid
      have h2 := h.queued sid st0 hs0
      rw [if_pos rfl] at h1
      change _ = 0
      split_ifs at h2 <;> omega
    · have h1 := turns_popQueue hq s
      rw [if_neg (Ne.symm hne)] at h1
      rw [← h.queued s st0 hs0]
      omega
  · refine fun st' hs' => hu.forall_stream (P := fun s st' => s ∉ insert sid S →
      st'.sendable = true → c.closing = false ∨ st'.backlog = 0 → st'.inSendQ = true)
      (fun _ _ hS => ?_) (fun s st0 hne hs0 hS hsend => ?_) s st' hs' hS
    · exact absurd (Set.mem_insert sid S) hS
    · exact h.ready s (fun hm => hS (Set.mem_insert_of_mem sid hm)) st0 hs0 hsend

end Conn.Turns

/-! ### Calm operations -/

section Operations

variable {S : Set ℕ} (c : Conn) (sid : ℕ)

theorem calm_sendReset (err : ErrCode) : Calm S c (c.sendReset sid err) := by
  unfold Conn.sendReset
  split_ifs
  · exact .send _ _
  · exact .refl _

theorem calm_recordEarlyClosed : Calm S c (c.recordEarlyClosed sid) := by
  unfold Conn.recordEarlyClosed
  dsimp only
  split_ifs <;> exact .of_streams rfl rfl

theorem calm_recordServerReset (w : ℤ) : Calm S c (c.recordServerReset sid w) := by
  unfold Conn.recordServerReset
  dsimp only
  split_ifs <;> exact .of_streams rfl rfl

theorem calm_stopClient : Calm S c (c.stopClient sid) := by
  unfold Conn.stopClient
  split
  · exact .refl c
  · split_ifs
    · exact (Calm.send c _).trans (calm_recordServerReset _ _ _)
    · exact .refl c

theorem calm_creditConn (n : ℕ) : Calm S c (c.creditConn n) := by
  unfold Conn.creditConn
  dsimp only
  split_ifs <;> exact .of_streams rfl rfl

theorem calm_detachStream : Calm S c (c.detachStream sid) := by
  refine .of_gone sid ?_ (stream_detachStream c sid)
  unfold Conn.detachStream
  cases hs : c.stream? sid with
  | none => rfl
  | some st =>
    have h1 : ∀ c : Conn, (c.recordEarlyClosed sid).queueSide = c.queueSide := by
      intro c
      unfold Conn.recordEarlyClosed
      dsimp only
      split_ifs <;> rfl
    have h2 : ∀ c : Conn, (c.creditConn st.connDeferred).queueSide = c.queueSide := by
      intro c
      unfold Conn.creditConn
      dsimp only
      split_ifs <;> rfl
    refine (h2 _).trans ?_
    split_ifs
    · rfl
    · exact h1 c

theorem calm_complete : Calm S c (c.complete sid) :=
  (calm_stopClient c sid).trans (calm_detachStream _ sid)

theorem calm_reset (err : ErrCode) : Calm S c (c.reset sid err) :=
  (calm_sendReset c sid err).trans (calm_detachStream _ sid)

theorem calm_connError (err : ErrCode) : Calm S c (c.connError err) where
  queue := by unfold Conn.connError; dsimp only; split_ifs <;> rfl
  last := by unfold Conn.connError; dsimp only; split_ifs <;> exact le_refl _
  closing h := by cases h
  stream s st h := ⟨st, by rw [← h, Conn.stream?, Conn.stream?, Conn.streams_connError], rfl,
    fun _ => ⟨rfl, id⟩⟩

theorem calm_noteControlFrame (n : ℕ) : Calm S c (c.noteControlFrame n) := by
  have h1 : Calm S c (Conn.note { c with controlFrameCount := c.controlFrameCount + n }
    (.charged n)) := .of_streams rfl rfl
  unfold Conn.noteControlFrame
  dsimp only
  split_ifs
  · exact h1.trans (calm_connError _ _)
  · exact h1

theorem calm_noteIdleWindowUpdate : Calm S c c.noteIdleWindowUpdate := by
  unfold Conn.noteIdleWindowUpdate
  split_ifs
  · exact .of_streams rfl rfl
  · exact calm_noteControlFrame c 1

theorem queueSide_noteDataProgress (n frames : ℕ) :
    (c.noteDataProgress n frames).queueSide = c.queueSide := by
  unfold Conn.noteDataProgress
  dsimp only
  split_ifs <;> rfl

theorem queueSide_syncSendState : (c.syncSendState sid).queueSide = c.queueSide := by
  unfold Conn.syncSendState
  split <;> rfl

theorem calm_syncSendState : Calm S c (c.syncSendState sid) :=
  .of_turn (queueSide_syncSendState c sid) (updates_syncSendState c sid) (fun _ _ => rfl)

theorem calm_clearBackedUp : Calm S c (c.clearBackedUp sid) := by
  refine .of_turn ?_ (updates_clearBackedUp c sid) (fun _ _ => rfl)
  unfold Conn.clearBackedUp
  split <;> rfl

theorem calm_setBackedUp : Calm S c (c.setBackedUp sid) := by
  refine .of_turn ?_ (updates_setBackedUp c sid) (fun _ _ => rfl)
  unfold Conn.setBackedUp
  split <;> rfl

theorem calm_takeDrain : Calm S c (c.takeDrain sid) :=
  (calm_clearBackedUp c sid).trans (.modify _ sid (fun _ => rfl))

theorem calm_noteEndStream : Calm S c (c.noteEndStream sid) := by
  refine .of_turn ?_ (updates_noteEndStream c sid) (fun _ _ => rfl)
  unfold Conn.noteEndStream
  split <;> rfl

theorem calm_releaseBuffered : Calm S c (c.releaseBuffered sid) := by
  refine .of_turn ?_ (updates_releaseBuffered c sid) (fun _ _ => rfl)
  unfold Conn.releaseBuffered
  split <;> rfl

theorem calm_dispatch : Calm S c (c.dispatch sid) := by
  refine .of_turn ?_ (updates_dispatch c sid) (fun _ _ => rfl)
  unfold Conn.dispatch Conn.noteDispatch
  split <;> rfl

theorem calm_creditStream (n : ℕ) : Calm S c (c.creditStream sid n) := by
  refine .of_turn ?_ (updates_creditStream c sid n) (fun st _ => ?_)
  · unfold Conn.creditStream
    split
    · rfl
    · dsimp only
      split_ifs <;> rfl
  · unfold Stream.credited
    split_ifs <;> rfl

theorem calm_creditConnFor (n : ℕ) : Calm S c (c.creditConnFor sid n) := by
  unfold Conn.creditConnFor
  split_ifs
  · exact .refl c
  · refine Calm.trans ?_ (calm_creditConn _ n)
    exact .modify c sid (fun _ => rfl)

theorem inSendQ_compactPendingBody (st : Stream) : st.compactPendingBody.inSendQ = st.inSendQ := by
  unfold Stream.compactPendingBody
  dsimp only
  split_ifs <;> rfl

theorem calm_sendChunk (hS : sid ∈ S) (st : Stream) (n : ℕ) (last : Bool) :
    Calm S c (c.sendChunk sid st n last) := by
  refine .of_exempt ?_ (updates_sendChunk c sid st n last) hS
    (fun st _ => inSendQ_compactPendingBody _)
  unfold Conn.sendChunk
  rw [queueSide_syncSendState]
  exact queueSide_noteDataProgress _ n 1

theorem calm_beginFinish (hS : sid ∈ S) (trailers : Fields) :
    Calm S c (c.beginFinish sid trailers) := by
  refine Calm.trans ?_ (calm_clearBackedUp _ sid)
  exact .of_exempt rfl (.modify c sid _) hS (fun _ _ => rfl)

theorem calm_beginAbort : Calm S c (c.beginAbort sid) :=
  (Calm.note c _).trans (.modify _ sid (fun _ => rfl))

theorem calm_beginStreamed (hS : sid ∈ S) (st : Stream) (len : Declared) :
    Calm S c (c.beginStreamed sid st len) :=
  (Calm.note c _).trans (.of_exempt rfl (.modify _ sid _) hS (fun _ _ => rfl))

theorem calm_emitBlock (fields : Bytes) (es : Bool) : Calm S c (c.emitBlock sid fields es) :=
  .of_streams rfl rfl

theorem calm_queueBody (hS : sid ∈ S) (body : Bytes) : Calm S c (c.queueBody sid body) := by
  refine Calm.trans ?_ (calm_syncSendState _ sid)
  exact (Calm.note c _).trans (.of_exempt rfl (.modify _ sid _) hS (fun _ _ => rfl))

theorem calm_modifyWs (hS : sid ∈ S) (f : WsConn → WsConn) : Calm S c (c.modifyWs sid f) :=
  .of_exempt rfl (.modify c sid _) hS (fun _ _ => rfl)

theorem calm_marked {f : WsConn → WsConn} (hf : ∀ w : WsConn, w.Marked (f w)) :
    Calm S c (c.modifyWs sid f) :=
  .of_turn rfl (.modify c sid _)
    (fun st _ => congrArg (fun b => (st.inSendQ, b, st.backlog)) (Stream.sendable_marked hf st))

theorem calm_takeWsOutput (hS : sid ∈ S) (w : WsConn) : Calm S c (c.takeWsOutput sid w) := by
  unfold Conn.takeWsOutput
  split_ifs
  · refine Calm.trans ?_ (calm_syncSendState _ sid)
    refine Calm.trans ?_ (calm_modifyWs _ sid hS _)
    refine (Calm.note c _).trans (.of_exempt rfl (.modify _ sid _) hS (fun st _ => ?_))
    exact inSendQ_compactPendingBody st
  · exact .refl c

theorem calm_directLoop (hS : sid ∈ S) (s : DirectState) :
    Calm S s.c ((directLoop sid).run s).c := by
  obtain ⟨w, hw⟩ := updates_directLoop sid s
  refine .of_exempt ?_ hw hS (fun _ _ => rfl)
  rw [directLoop_frame]
  rfl

theorem calm_h2WriteDirect (hS : sid ∈ S) (data : Bytes) :
    Calm S c (c.h2WriteDirect sid data).1 := by
  have h1 := calm_directLoop sid hS { c := c, rest := data }
  have h2 : ∀ (c : Conn) n frames, Calm S c (c.noteDataProgress n frames) := fun c n frames =>
    .of_streams (queueSide_noteDataProgress c n frames) (Conn.streams_noteDataProgress c n frames)
  unfold Conn.h2WriteDirect
  split
  · exact .refl c
  · dsimp only
    split_ifs
    · exact .refl c
    · exact (h1.trans (h2 _ _ _)).trans (calm_syncSendState _ sid)
    · exact h1

theorem calm_acceptWrite (hS : sid ∈ S) (data : Bytes) : Calm S c (c.acceptWrite sid data) := by
  have h1 : Calm S c ((c.note (.accepted sid data)).modify sid (fun st =>
      Stream.compactPendingBody { st with
        respBodyWritten := st.respBodyWritten + data.length })) :=
    (Calm.note c _).trans (.of_exempt rfl (.modify _ sid _) hS
      (fun st _ => inSendQ_compactPendingBody _))
  have h2 := h1.trans (calm_h2WriteDirect _ sid hS data)
  unfold Conn.acceptWrite
  dsimp only
  split_ifs
  · refine (h2.trans ?_).trans (calm_syncSendState _ sid)
    exact .of_exempt rfl (.modify _ sid _) hS (fun _ _ => rfl)
  · exact h2

theorem calm_attachWs : Calm S c (c.attachWs sid) := by
  refine .of_updates rfl (.modify c sid _) (fun st _ => ⟨rfl, fun _ => ⟨rfl, fun h => ?_⟩⟩)
  unfold Stream.sendable at h ⊢
  change (if st.backlog > 0 then _ else false) = true at h
  split_ifs at h with hb
  rw [if_pos hb]
  exact h

theorem calm_wsStage (data : Bytes) : Calm S c (wsStage sid data false c) := by
  refine .of_turn rfl (.modify c sid _)
    (fun st _ => congrArg (fun b => (st.inSendQ, b, st.backlog)) ?_)
  unfold Stream.sendable
  change (if st.backlog > 0 then _ else _) = _
  split_ifs
  · rfl
  · cases st.ws with
    | none => rfl
    | some w => exact Bool.or_false _

theorem calm_storeSink (cb : ℕ) (manualAck : Bool) : Calm S c (c.storeSink sid cb manualAck) :=
  (Calm.note c _).trans (.modify _ sid (fun _ => rfl))

end Operations

/-! ### Settings -/

/-- Send windows moved: what a stream without a backlog can send stays. -/
structure Shifted (a b : Conn) : Prop where
  queue : b.sendQ = a.sendQ
  last : b.lastStreamId = a.lastStreamId
  closing : b.closing = false → a.closing = false
  stream : ∀ s st', b.stream? s = some st' → ∃ st, a.stream? s = some st ∧
    st'.inSendQ = st.inSendQ ∧ st'.backlog = st.backlog ∧
    (st.backlog = 0 → st'.sendable = st.sendable)

namespace Shifted

variable {a b c : Conn}

theorem refl (c : Conn) : Shifted c c :=
  ⟨rfl, rfl, id, fun _ st h => ⟨st, h, rfl, rfl, fun _ => rfl⟩⟩

theorem trans (h1 : Shifted a b) (h2 : Shifted b c) : Shifted a c where
  queue := h2.queue.trans h1.queue
  last := h2.last.trans h1.last
  closing h := h1.closing (h2.closing h)
  stream s st'' h := by
    obtain ⟨st', hs', hq', hb', hr'⟩ := h2.stream s st'' h
    obtain ⟨st, hs, hq, hb, hr⟩ := h1.stream s st' hs'
    exact ⟨st, hs, hq'.trans hq, hb'.trans hb, fun h0 => (hr' (hb.trans h0)).trans (hr h0)⟩

theorem of_streams (hv : b.queueSide = a.queueSide) (hs : b.streams = a.streams) : Shifted a b where
  queue := congrArg Prod.fst hv
  last := congrArg (fun v => v.2.1) hv
  closing h := (congrArg (fun v => v.2.2) hv).symm.trans h
  stream s st h := ⟨st, by rw [← h]; simp only [Conn.stream?, hs], rfl, rfl, fun _ => rfl⟩

theorem connError (c : Conn) (err : ErrCode) : Shifted c (c.connError err) where
  queue := by unfold Conn.connError; dsimp only; split_ifs <;> rfl
  last := by unfold Conn.connError; dsimp only; split_ifs <;> rfl
  closing h := by cases h
  stream s st h := ⟨st, by rw [← h, Conn.stream?, Conn.stream?, Conn.streams_connError], rfl, rfl,
    fun _ => rfl⟩

/-- The streams with a backlog are the ones that may have become sendable. -/
theorem calm (h : Shifted a b) (hS : ∀ s st, a.stream? s = some st → 0 < st.backlog → s ∈ S) :
    Calm S a b where
  queue := h.queue
  last := h.last.ge
  closing := h.closing
  stream s st' hs := by
    obtain ⟨st, hst, hq, hb, hr⟩ := h.stream s st' hs
    refine ⟨st, hst, hq, fun hn => ⟨hb, fun hsend => ?_⟩⟩
    have h0 : st.backlog = 0 := by
      by_contra hb
      exact hn (hS s st hst (Nat.pos_of_ne_zero hb))
    exact (hr h0).symm.trans hsend

end Shifted

theorem shifted_shiftWindows (delta : ℤ) (l : List ℕ) (c : Conn) :
    Shifted c (outcome id (shiftWindows delta l c)) := by
  induction l generalizing c with
  | nil => exact .refl c
  | cons sid rest ih =>
    unfold shiftWindows
    cases hs : c.stream? sid with
    | none => exact ih c
    | some st =>
      dsimp only
      split
      · exact .connError c _
      · refine Shifted.trans ?_ (ih _)
        have hu := (Updates.modify c sid (fun s => { s with
          sendWindow := st.sendWindow + delta })).trans (updates_syncSendState _ sid)
        have hv := queueSide_syncSendState (c.modify sid (fun s => { s with
          sendWindow := st.sendWindow + delta })) sid
        refine ⟨congrArg Prod.fst hv, congrArg (fun v => v.2.1) hv,
          fun h => (congrArg (fun v => v.2.2) hv).symm.trans h, ?_⟩
        refine hu.forall_stream (P := fun s st' => ∃ st, c.stream? s = some st ∧
          st'.inSendQ = st.inSendQ ∧ st'.backlog = st.backlog ∧
          (st.backlog = 0 → st'.sendable = st.sendable)) (fun st0 hs0 => ?_)
          (fun s st0 _ hs0 => ⟨st0, hs0, rfl, rfl, fun _ => rfl⟩)
        refine ⟨st0, hs0, rfl, rfl, fun hb => ?_⟩
        unfold Stream.sendable
        change (if st0.backlog > 0 then _ else _) = _
        rw [hb, if_neg (lt_irrefl 0), if_neg (lt_irrefl 0)]
        rfl

theorem shifted_applySetting (H : Hooks) (key value : ℕ) (c : Conn) :
    Shifted c (outcome id (applySetting H key value c)) := by
  unfold applySetting
  split_ifs
  · unfold applyInitialWindow
    split_ifs
    · exact .connError c _
    · refine Shifted.trans ?_ (shifted_shiftWindows _ _ _)
      exact .of_streams rfl rfl
  · exact .of_streams rfl rfl
  · exact .connError c _
  · exact .connError c _
  · exact .refl c
  · unfold Conn.applyTableSize
    dsimp only
    split_ifs <;> exact .of_streams rfl rfl
  · exact .refl c

theorem shifted_applySettings (H : Hooks) (entries : List (ℕ × ℕ)) (c : Conn) :
    Shifted c (outcome id (applySettings H entries c)) :=
  rel_applySettings .refl .trans (shifted_applySetting H) entries c

/-- Entries other than the initial window leave the streams alone. -/
theorem calm_applySettings (H : Hooks) (entries : List (ℕ × ℕ)) (c : Conn)
    (hn : entries.any (fun e => e.1 == setInitialWindowSize) = false) :
    Calm S c (outcome id (applySettings H entries c)) := by
  induction entries generalizing c with
  | nil => exact .refl c
  | cons e rest ih =>
    simp only [List.any_cons, Bool.or_eq_false_iff, beq_eq_false_iff_ne] at hn
    have h1 : Calm S c (outcome id (applySetting H e.1 e.2 c)) := by
      unfold applySetting
      rw [if_neg hn.1]
      split_ifs
      · exact .of_streams rfl rfl
      · exact calm_connError c _
      · exact calm_connError c _
      · exact .refl c
      · unfold Conn.applyTableSize
        dsimp only
        split_ifs <;> exact .of_streams rfl rfl
      · exact .refl c
    unfold applySettings
    cases h : applySetting H e.1 e.2 c with
    | error c1 => rw [h] at h1; exact h1
    | ok c1 => rw [h] at h1; exact h1.trans (ih c1 hn.2)

theorem applySetting_failed {H : Hooks} {key value : ℕ} {c' : Conn}
    (h : applySetting H key value c = .error c') : c'.closing = true := by
  unfold applySetting at h
  split_ifs at h
  · rcases applyInitialWindow_error h with rfl | ⟨c1, -, rfl⟩ <;> rfl
  · cases h
    rfl
  · cases h
    rfl

/-- A SETTINGS frame that cannot be applied fails the connection. -/
theorem applySettings_failed {H : Hooks} {entries : List (ℕ × ℕ)} {c' : Conn}
    (h : applySettings H entries c = .error c') : c'.closing = true := by
  induction entries generalizing c with
  | nil => cases h
  | cons e rest ih =>
    unfold applySettings at h
    cases h1 : applySetting H e.1 e.2 c with
    | error c1 =>
      rw [h1] at h
      rw [← Except.error.inj h]
      exact applySetting_failed h1
    | ok c1 =>
      rw [h1] at h
      exact ih h

theorem Conn.Turns.enqueueBacklog {R : Set ℕ} {l : List ℕ}
    (hR : ∀ s ∈ R, ∀ st, c.stream? s = some st → 0 < st.backlog)
    (h : c.Turns (S ∪ {s | s ∈ R ∧ s ∈ l})) : (enqueueBacklog l c).Turns S := by
  induction l generalizing c with
  | nil => exact h.mono (by simp)
  | cons sid rest ih =>
    have hins : c.Turns (insert sid (S ∪ {s | s ∈ R ∧ s ∈ rest})) := by
      refine h.mono (fun s hs => ?_)
      rcases hs with hs | ⟨hs, hm⟩
      · exact .inr (.inl hs)
      · rcases List.mem_cons.mp hm with rfl | hm
        · exact .inl rfl
        · exact .inr (.inr ⟨hs, hm⟩)
    unfold Http2.enqueueBacklog
    split_ifs with hb
    · refine ih (fun s hs st' hst' => ?_) hins.enqueue
      refine (updates_h2Enqueue c sid).forall_stream (P := fun s st => s ∈ R → 0 < st.backlog)
        (fun st hst hm => ?_) (fun s st _ hst hm => hR s hm st hst) s st' hst' hs
      unfold Stream.enqueued
      split_ifs <;> exact hR sid hm st hst
    · refine ih hR ?_
      by_cases hm : sid ∈ R
      · refine hins.gone ?_
        cases hs : c.stream? sid with
        | none => rfl
        | some st =>
          rw [hs] at hb
          exact absurd (hR sid hm st hs) (by simpa using hb)
      · refine h.mono (fun s hs => hs.imp_right (fun hs => ⟨hs.1, ?_⟩))
        rcases List.mem_cons.mp hs.2 with rfl | h'
        · exact absurd hs.1 hm
        · exact h'

/-- Moving the send windows exempts the streams with a backlog. -/
theorem Conn.Turns.shifted {a : Conn} (h : a.Turns S) (hs : Shifted a c) :
    ∃ R : Set ℕ, c.Turns (S ∪ R) ∧ ∀ s ∈ R, ∀ st, c.stream? s = some st → 0 < st.backlog := by
  refine ⟨{s | ∃ st, a.stream? s = some st ∧ 0 < st.backlog}, ?_, fun s hm st' hst' => ?_⟩
  · refine (h.mono Set.subset_union_left).calm (hs.calm (fun s st hst hb => ?_))
    exact .inr ⟨st, hst, hb⟩
  · obtain ⟨st, hst, -, hb, -⟩ := hs.stream s st' hst'
    obtain ⟨st0, hst0, hpos⟩ := hm
    rw [hb, Option.some.inj (hst.symm.trans hst0)]
    exact hpos

/-- A SETTINGS frame that moves the send windows queues the streams this makes sendable. -/
theorem Conn.Turns.settingsWindow {S : Set ℕ} {a c : Conn} (h : a.Turns S) (hs : Shifted a c)
    {l : List ℕ} (hl : l.Perm c.streams.keys) : (Http2.enqueueBacklog l c).Turns S := by
  obtain ⟨R, h1, hR⟩ := h.shifted hs
  refine Conn.Turns.enqueueBacklog hR (h1.restrict (fun s st hst hm => ?_))
  refine hm.imp_right (fun hm => ⟨hm, hl.mem_iff.mpr ?_⟩)
  exact AList.mem_keys.mpr (AList.lookup_isSome.mp (by rw [← Conn.stream?, hst]; rfl))

/-! ### Pieces -/

section Pieces

variable {S : Set ℕ} {a b c : Conn} {sid : ℕ} {u : Fin 8}

/-- A piece that only changes what `sid` can send, and queues it. -/
theorem Conn.Turns.calm_enqueue (h : a.Turns S) (hc : Calm (insert sid S) a b) :
    (b.h2Enqueue sid).Turns S :=
  ((h.mono (Set.subset_insert sid S)).calm hc).enqueue

/-- A piece that only changes what `sid` can send, and takes it out of the table. -/
theorem Conn.Turns.calm_gone (h : a.Turns S) (hc : Calm (insert sid S) a b)
    (hn : b.stream? sid = none) : b.Turns S :=
  ((h.mono (Set.subset_insert sid S)).calm hc).gone hn

theorem stream_complete (c : Conn) (sid : ℕ) : (c.complete sid).stream? sid = none := by
  unfold Conn.complete
  rw [stream_detachStream, if_pos rfl]

theorem Conn.Turns.turn_gone (h : a.Turns S) (ht : a.Turn u sid st)
    (hc : Calm (insert sid S) (a.popTurn u sid) b) (hn : b.stream? sid = none) : b.Turns S :=
  ((h.popTurn ht).calm hc).gone hn

theorem Conn.Turns.wsTurn (h : a.Turns S) (hw : a.WsTurn u sid b) : b.Turns (insert sid S) := by
  cases hw with
  | nothing ht hw => exact h.popTurn ht
  | chunk ht hw hn => exact (h.popTurn ht).calm (calm_sendChunk _ sid (Set.mem_insert sid S) _ _ _)

/-- A chunk was sent in a turn: the stream is off the queues. -/
theorem inSendQ_sendChunk (hs : a.stream? sid = some st) (st' : Stream) (n : ℕ) (last : Bool) :
    ∀ st, ((a.popTurn u sid).sendChunk sid st' n last).stream? sid = some st →
      st.inSendQ = false := by
  intro st1 hs1
  rw [(updates_sendChunk _ sid st' n last).self (stream_popTurn hs)] at hs1
  rw [← Option.some.inj hs1]
  exact inSendQ_compactPendingBody _

theorem ResponseAtom.turns (h : ResponseAtom o a b) (ha : a.Turns S) : b.Turns S := by
  have hmem : ∀ sid, sid ∈ insert sid S := fun sid => Set.mem_insert sid S
  cases h with
  | informational hs hr fields => exact ha.calm (calm_emitBlock _ _ _ _)
  | @sendHead _ sid st hs hr hh len fields =>
    have h1 : Calm S a (a.beginStreamed sid st len) := by
      refine (Calm.note a _).trans (.of_turn rfl (.modify _ sid _) (fun st' hs' => ?_))
      obtain rfl := Option.some.inj (hs'.symm.trans hs)
      refine Stream.turn_of_eq rfl rfl rfl rfl ?_
      change (st'.pendingIsLast || st'.isHead) = st'.pendingIsLast
      rw [hh, Bool.or_false]
    exact ha.calm (h1.trans (calm_emitBlock _ _ _ _))
  | @endHead _ sid st hs hr hh len fields =>
    exact ha.calm_gone (((calm_beginStreamed a sid (hmem sid) st len).trans
      (calm_emitBlock _ _ _ _)).trans (calm_complete _ sid)) (stream_complete _ sid)
  | @write _ sid st hs hp hh data hd =>
    exact ha.calm_enqueue (calm_acceptWrite a sid (hmem sid) data)
  | @abort _ sid st hs hp => exact ha.calm ((calm_beginAbort a sid).trans (calm_reset _ sid _))
  | @finishBare _ sid st hs hp hh hl trailers hb =>
    exact ha.calm_gone (((calm_beginFinish a sid (hmem sid) trailers).trans (.send _ _)).trans
      (calm_complete _ sid)) (stream_complete _ sid)
  | @finishTrailers _ sid st hs hp hh hl trailers hb st' =>
    exact ha.calm_gone (((calm_beginFinish a sid (hmem sid) trailers).trans
      (calm_emitBlock _ _ _ _)).trans (calm_complete _ sid)) (stream_complete _ sid)
  | @respond _ sid st hs hr head body hb =>
    have h1 : Calm (insert sid S) a (a.beginBuffered sid head body st) :=
      (Calm.note a _).trans (.modify _ sid (fun _ => rfl))
    exact ha.calm_enqueue ((h1.trans (calm_emitBlock _ _ _ _)).trans
      (calm_queueBody _ sid (hmem sid) body))
  | @endRespond _ sid st hs hr head body hb =>
    have h1 : Calm S a (a.beginBuffered sid head body st) :=
      (Calm.note a _).trans (.modify _ sid (fun _ => rfl))
    exact ha.calm ((h1.trans (calm_emitBlock _ _ _ _)).trans (calm_complete _ sid))
  | @chunk _ u sid n st ht hw hn =>
    exact ((ha.popTurn ht).calm (calm_sendChunk _ sid (hmem sid) _ _ _)).endTurn
      (inSendQ_sendChunk ht.stream _ _ _)
  | @endChunk _ u sid n st ht hn =>
    exact ha.turn_gone ht ((calm_sendChunk _ sid (hmem sid) _ _ _).trans (calm_complete _ sid))
      (stream_complete _ sid)
  | @endBare _ u sid st ht hw hl hb =>
    exact ha.turn_gone ht ((Calm.send _ _).trans (calm_complete _ sid)) (stream_complete _ sid)
  | @endTrailers _ u sid st ht hw hl hb =>
    exact ha.turn_gone ht ((calm_emitBlock _ _ _ _).trans (calm_complete _ sid))
      (stream_complete _ sid)
  | @wsAccept _ sid st hs hw hr hn fields =>
    exact ha.calm ((calm_attachWs a sid).trans (calm_emitBlock _ _ _ _))
  | @wsOutput _ sid st w hs hw data close =>
    exact ha.calm_enqueue ((calm_modifyWs a sid (hmem sid) _).trans
      (calm_takeWsOutput _ sid (hmem sid) _))
  | @wsFlush _ sid st w hs hw => exact ha.calm_enqueue (calm_takeWsOutput a sid (hmem sid) w)
  | @wsServed _ c' u sid h f hf => exact ((ha.wsTurn h).calm (calm_marked c' sid hf)).enqueue

theorem AppAtom.turns (h : AppAtom o a b) (ha : a.Turns S) : b.Turns S := by
  cases h with
  | response h => exact h.turns ha
  | reset hs err => exact ha.calm (calm_reset _ _ err)
  | resetGone hs err => exact ha.calm (calm_sendReset _ _ err)
  | detach hs => exact ha.calm (calm_detachStream _ _)
  | fed | peerClosed | wsDrained => exact ha.calm (.note _ _)
  | enqueue c sid => exact (ha.mono (Set.subset_insert sid S)).enqueue
  | popStale hq hs => exact ha.popStale hq hs
  | @idle _ u sid st ht hn =>
    refine (ha.popTurn ht).settle (fun st' hs' hsend => ?_)
    rw [stream_popTurn ht.stream] at hs'
    rw [← Option.some.inj hs'] at hsend
    cases hn.symm.trans hsend
  | scheduling | resuming => exact ha.calm (.of_streams rfl rfl)
  | wsStage c sid data => exact ha.calm (calm_wsStage _ sid data)
  | wsSetOnDrain c sid => exact ha.calm (calm_marked _ sid (fun _ => ⟨rfl, rfl⟩))
  | takeDrain hs hb hc => exact ha.calm ((calm_takeDrain _ _).trans (.note _ _))
  | setPriority c sid urgency incremental => exact ha.calm (.modify _ sid (fun _ => rfl))
  | flushed c n => exact ha.calm (.of_streams rfl rfl)
  | goawayNotice c =>
    refine ha.calm ?_
    unfold Conn.h2GoawayNotice
    split_ifs <;> exact .of_streams rfl rfl
  | goaway c err =>
    refine ha.calm ?_
    unfold Conn.h2Goaway
    split_ifs <;> exact .of_streams rfl rfl

theorem DrainAtom.calm {k : Call} (h : DrainAtom k a b) : Calm S a b := by
  cases h with
  | mark hs hp => exact calm_setBackedUp _ _
  | @register _ sid st hs hr cb =>
    have h1 : Calm S a (a.storeDrain sid cb) :=
      (Calm.note a _).trans (.modify _ sid (fun _ => rfl))
    refine h1.trans ?_
    unfold h2ArmDrain
    split
    · exact .refl _
    · split_ifs
      · exact calm_setBackedUp _ _
      · exact .refl _

theorem FinishAtom.turns (h : FinishAtom sid a b) (ha : a.Turns S) : b.Turns S := by
  cases h with
  | queue hs hp hh hl trailers hb =>
    exact ha.calm_enqueue (calm_beginFinish a sid (Set.mem_insert sid S) trailers)
  | @head st hs hp hh trailers =>
    refine ha.calm (.of_turn ?_ (updates_beginFinish a sid trailers) (fun st' hs' => ?_))
    · unfold Conn.beginFinish Conn.clearBackedUp
      split <;> rfl
    · obtain rfl := Option.some.inj (hs'.symm.trans hs)
      refine Stream.turn_of_eq rfl rfl rfl rfl ?_
      change (st'.pendingIsLast || !st'.isHead) = st'.pendingIsLast
      rw [hh, Bool.not_true, Bool.or_false]

/-- While a closed WebSocket tells its application, its stream is exempt. -/
theorem CloseBegin.turns (h : CloseBegin sid a b) (ha : a.Turns S) : b.Turns (insert sid S) := by
  cases h with
  | mk h hs hw hb hc f hf =>
    exact (ha.wsTurn h).calm (((calm_marked _ sid hf).trans (.send _ _)).trans (.note _ _))

theorem Conn.Turns.dropWsStream (h : c.Turns (insert sid S)) : (c.dropWsStream sid).Turns S := by
  have hn : (c.dropWsStream sid).stream? sid = none := by
    rw [stream_dropWsStream, if_pos rfl]
  refine (h.calm (.of_gone sid ?_ (stream_dropWsStream c sid))).gone hn
  unfold Conn.dropWsStream
  split <;> rfl

theorem RequestMove.calm (h : RequestMove a b) : Calm S a b := by
  cases h with
  | debit | note => exact .of_streams rfl rfl
  | record sid hf =>
    refine .modify a sid fun st => ?_
    have h := (hf st).1
    simp only [Stream.response, ResponseView.mk.injEq] at h
    obtain ⟨-, hw, -, -, -, -, hbody, hpos, hlast, hws⟩ := h
    exact Stream.turn_of_eq (hf st).2 (by rw [Stream.backlog, hbody, hpos]; rfl) hw hws hlast
  | count sid n => exact .of_turn rfl (.of_streams rfl) (fun _ _ => rfl)
  | ended => exact calm_noteEndStream _ _
  | release => exact calm_releaseBuffered _ _
  | dispatch => exact calm_dispatch _ _
  | reset => exact calm_reset _ _ _

theorem RequestMoves.calm (h : RequestMoves a b) : Calm S a b := by
  induction h with
  | refl => exact .refl _
  | tail _ h ih => exact ih.trans (RequestMove.calm h)

theorem SinkAtom.calm (h : SinkAtom a b) : Calm S a b := by
  cases h with
  | creditConn n => exact calm_creditConn _ n
  | creditStream sid n => exact calm_creditStream _ sid n
  | acked hs hr n =>
    exact ((Calm.note a _).trans (calm_creditStream _ _ n)).trans (calm_creditConnFor _ _ n)
  | deliver hs hcb hb => exact RequestMoves.calm (requestMoves_deliver ..)

theorem CallAtom.turns (h : CallAtom ok o a b) (ha : a.Turns S) : b.Turns S := by
  cases h with
  | app h => exact h.turns ha
  | drain hk h | sink h => exact ha.calm h.calm
  | sinkSet hs hk => exact ha.calm (calm_storeSink _ _ _ _)
  | sinkTold hs hk he =>
    exact ha.calm ((calm_storeSink _ _ _ _).trans (RequestMoves.calm (requestMoves_deliver ..)))

/-- A stream that is opened has nothing to send, and an id no entry has. -/
theorem Conn.Turns.openStream (h : c.Turns S) (hl : c.lastStreamId < sid) :
    (Conn.openStream { c with lastStreamId := sid } sid).Turns S := by
  have hopened := opened_openStream h.opened hl
  have hstream := @stream_openStream { c with lastStreamId := sid } sid
  obtain ⟨u, i, p, e⟩ := openStream_eq { c with lastStreamId := sid } sid
  rw [e] at hopened hstream ⊢
  refine ⟨hopened, fun u s hs => (h.known u s hs).trans hl.le, fun s st hs => ?_,
    fun s hS st hs hsend hor => ?_⟩
  · rcases hstream hs with ⟨rfl, u, i, rfl⟩ | ⟨hne, hs⟩
    · refine Finset.sum_eq_zero (fun u _ => List.count_eq_zero.mpr (fun hm => ?_))
      exact absurd (h.known u s hm) (by omega)
    · exact h.queued s st hs
  · rcases hstream hs with ⟨rfl, u, i, rfl⟩ | ⟨hne, hs⟩
    · cases hsend
    · exact h.ready s hS st hs hsend hor

theorem FrameAtom.turns (h : FrameAtom o a b) (ha : a.Turns S) : b.Turns S := by
  have hmoves : RequestMoves a b → b.Turns S := fun h => ha.calm h.calm
  cases h with
  | error c err => exact ha.calm (calm_connError _ err)
  | settings H entries h hn =>
    have h1 := calm_applySettings (S := S) H entries a hn
    rw [h] at h1
    exact ha.calm (h1.trans (.send _ _))
  | @settingsWindow _ c' H entries h =>
    have h1 := shifted_applySettings H entries a
    rw [h] at h1
    have h2 : Shifted a (c'.send .settingsAck) := h1.trans (.of_streams rfl rfl)
    exact ha.settingsWindow h2 (H.order (c'.send .settingsAck)).2
  | settingsFailed H entries h =>
    have h1 := shifted_applySettings H entries a
    rw [h] at h1
    obtain ⟨R, h2, hR⟩ := ha.shifted h1
    exact h2.failed (applySettings_failed h) hR
  | pingAck c payload => exact ha.calm (.send _ _)
  | charge c n => exact ha.calm (calm_noteControlFrame _ n)
  | idleUpdate c => exact ha.calm (calm_noteIdleWindowUpdate _)
  | countReset c =>
    refine ha.calm ?_
    unfold Conn.countReset
    dsimp only
    split_ifs
    · refine Calm.trans ?_ (calm_connError _ _)
      exact .of_streams rfl rfl
    · exact .of_streams rfl rfl
  | absorb c sid n es =>
    refine ha.calm ?_
    unfold Conn.absorbAfterReset
    split
    · exact .refl _
    · dsimp only
      split_ifs <;> exact .of_streams rfl rfl
  | forgetReset | peerGone | bufferPriority => exact ha.calm (.of_streams rfl rfl)
  | reprioritize c sid field => exact ha.calm (.modify _ sid (fun _ => rfl))
  | head H h es hd => exact hmoves (.trans (requestMoves_headed ..) hd.requestMoves)
  | headMismatch H h es hd =>
    exact hmoves (.tail (.trans (requestMoves_headed ..) hd.requestMoves) (.reset ..))
  | trailers hs hh hn fields hd =>
    exact hmoves (.trans (requestMoves_addTrailers ..) hd.requestMoves)
  | trailersMismatch hs hh fields hd =>
    exact hmoves (.tail (.trans (requestMoves_addTrailers ..) hd.requestMoves) (.reset ..))
  | openNew h hodd hg => exact ha.openStream h
  | refuse h =>
    exact ha.calm ⟨rfl, h.le, id, fun _ st hs => ⟨st, hs, rfl, fun _ => ⟨rfl, id⟩⟩⟩
  | refuseEarly h =>
    refine ha.calm (Calm.trans ?_ (calm_recordEarlyClosed _ _))
    exact ⟨rfl, h.le, id, fun _ st hs => ⟨st, hs, rfl, fun _ => ⟨rfl, id⟩⟩⟩
  | forgetBoth | forgetEarly | connCredit => exact ha.calm (.of_streams rfl rfl)
  | @streamCredit _ sid st hs inc h =>
    refine ha.calm_enqueue (Calm.trans ?_ (calm_syncSendState _ sid))
    refine (Calm.note a _).trans (.of_exempt rfl (.modify _ sid _) ?_ (fun _ _ => rfl))
    exact Set.mem_insert sid S

theorem BlockAtom.calm (h : BlockAtom a b) : Calm S a b := by
  cases h with
  | fragment | decoded => exact .of_streams rfl rfl
  | failed h =>
    refine Calm.trans ?_ (calm_connError _ _)
    exact .of_streams rfl rfl
  | await | append | complete => exact .of_streams rfl rfl

theorem FeedAtom.calm (h : FeedAtom a b) : Calm S a b := by
  cases h with
  | error err => exact calm_connError _ err
  | received f hc => exact .of_streams rfl rfl
  | notFirst =>
    refine Calm.trans ?_ (calm_connError _ _)
    exact .of_streams rfl rfl
  | read rbuf => exact .of_streams rfl rfl
  | preface hp rbuf =>
    unfold Conn.finishPreface
    rcases sendOurSettings_cases { a with rbuf := rbuf, prefaceDone := true } with e | e
    · rw [e]
      exact .of_streams rfl rfl
    · rw [e]
      exact .of_streams rfl rfl

theorem RunAtom.turns (h : RunAtom ok o a b) (ha : a.Turns S) : b.Turns S := by
  cases h with
  | call h | frame h => exact h.turns ha
  | body h => exact ha.calm h.requestMoves.calm
  | block h | feed h => exact ha.calm h.calm

end Pieces

/-! ### Runs -/

/-- Whatever is exempt, the turns are kept. -/
def KeepsTurns (a b : Conn) : Prop := ∀ S, a.Turns S → b.Turns S

namespace KeepsTurns

variable {a b c : Conn}

theorem ran {cb : Option Callback} (h : Ran KeepsTurns cb a b) : KeepsTurns a b := by
  cases cb with
  | none =>
    rw [show b = a from h]
    exact fun _ => id
  | some cb => exact fun S ha => h S (ha.calm (.note _ _))

theorem drainRan {sid : ℕ} {cb : Option ℕ} (h : DrainRan KeepsTurns sid cb a b) :
    KeepsTurns a b := by
  cases cb with
  | none =>
    rw [show b = a from h]
    exact fun _ => id
  | some cb =>
    rcases h with ⟨-, rfl⟩ | h
    · exact fun _ => id
    · exact fun S ha => h S (ha.calm (.note _ _))

theorem fires {sid : ℕ} (h : Fires KeepsTurns sid st a b) : KeepsTurns a b := by
  obtain ⟨c1, c2, h1, h2, h3⟩ := h
  exact fun S ha => drainRan h3 S (ran h2 S (ran h1 S ha))

/-- A WebSocket that closes is exempt from the frame that ends it until it is dropped. -/
theorem respects (ok : Call → Conn → Prop) : Respects (RunAtom ok) KeepsTurns where
  refl _ _ := id
  trans _ _ _ h1 h2 S h := h2 S (h1 S h)
  atom _ _ h _ := h.turns
  ended _ h hf S ha := fires hf S (h.turns ha)
  owed _ h hc hd S ha := drainRan hd S (hc S (h.turns ha))
  closing h hc _ _ ha := (hc _ (h.turns ha)).dropWsStream

end KeepsTurns

theorem turns_newH2Conn (cfg : Config) (S : Set ℕ) : (newH2Conn cfg).Turns S where
  opened := opened_newH2Conn cfg
  known _ _ h := by cases h
  queued _ _ h := by cases h
  ready _ _ _ h := by cases h

theorem Reachable.turns {W : World} (hW : W.Obeys ok) {n : ℕ} {cfg : Config}
    (h : Reachable (W.hooks n) ok cfg c) : c.Turns ∅ :=
  h.related hW (KeepsTurns.respects ok) ∅ (turns_newH2Conn cfg ∅)

/-- **No stream loses its turn.**  In every state between two events of a run, whatever the
application does and wherever it does it: the queues hold an open stream once if its flag is set
and not at all otherwise, and while the connection has not failed, every open stream that can
send is queued. -/
theorem no_stream_loses_its_turn {W : World} {n : ℕ} {cfg : Config}
    (h : Reachable (W.hooks n) anyCall cfg c) {sid : ℕ} (hs : c.stream? sid = some st) :
    (∑ u, (c.sendQ u).count sid) = (if st.inSendQ then 1 else 0) ∧
      (c.closing = false → st.sendable = true → st.inSendQ = true ∧ ∃ u, sid ∈ c.sendQ u) := by
  have ht := h.turns (obeys_anyCall W)
  have hcount := ht.queued sid st hs
  refine ⟨hcount, fun hc hsend => ?_⟩
  have hq := ht.ready sid (Set.notMem_empty sid) st hs hsend (.inl hc)
  refine ⟨hq, ?_⟩
  by_contra hnone
  rw [hq, if_pos rfl] at hcount
  have hzero : c.turns sid = 0 :=
    Finset.sum_eq_zero (fun u _ => List.count_eq_zero.mpr (fun hm => hnone ⟨u, hm⟩))
  omega

/-- A configuration with a control-frame budget. -/
def guardedConfig : Config := { smallConfig with maxControlFrames := 100 }

/-- The state after these events, in a world that makes no calls from callbacks. -/
def guardedRun (is : List Input) : Conn :=
  is.foldl (step ((idleWorld false).hooks 0)) (newH2Conn guardedConfig)

/-- A request is answered with writes that use up the window of its stream.  The rest of the body
and the trailers wait, until credit for the stream lets the last bytes out and, with them, uses up
the window of the connection. -/
def stuckTrailers : List Input :=
  [.bytes (connectionPreface ++ (Frame.settings [(setInitialWindowSize, 64512)]).bytes ++
      (Frame.headers 1 postBlock true true).bytes ++ (Frame.windowUpdate 1 1023).bytes),
    .feed, .feed, .feed, .call (.sendHead 1 { code := 200 } (-1))] ++
  List.replicate 63 (.call (.write 1 (List.replicate 1024 0))) ++
  [.call (.flushed 64512), .call (.write 1 (List.replicate 1023 0)),
    .call (.finish 1 [(ascii "x", ascii "y")]), .feed]

theorem stuckTrailers_reachable :
    Reachable ((idleWorld false).hooks 0) anyCall guardedConfig (guardedRun stuckTrailers) :=
  Reachable.foldl stuckTrailers .start (fun _ _ _ => trivial)

/-- The trailers wait for the connection's window, and their stream is queued. -/
theorem no_stream_loses_its_turn_stuckTrailers :
    ∃ st, (guardedRun stuckTrailers).stream? 1 = some st ∧ st.sendable = true ∧
      st.inSendQ = true ∧ ∃ u, 1 ∈ (guardedRun stuckTrailers).sendQ u := by
  have h : (guardedRun stuckTrailers).closing = false ∧
      ((guardedRun stuckTrailers).stream? 1).any Stream.sendable = true := by decide +kernel
  obtain ⟨st, hs, hsend⟩ := (Option.any_eq_true _ _).mp h.2
  exact ⟨st, hs, hsend, (no_stream_loses_its_turn stuckTrailers_reachable hs).2 h.1 hsend⟩

/-- A response the client's windows hold back; the credit comes in a SETTINGS frame whose second entry
is invalid. -/
def failedSettings : List Input :=
  feedInputs [.settings [(setInitialWindowSize, 0)], .headers 1 postBlock true true] ++
    [.call (.respond 1 { code := 200 } (ascii "hello")),
      .bytes (Frame.settings [(setInitialWindowSize, 100), (setMaxFrameSize, 1)]).bytes, .feed]

/-- The connection fails with a stream that can send and is not queued. -/
theorem failedSettings_unqueued :
    Reachable ((idleWorld false).hooks 0) anyCall smallConfig (runOn false failedSettings) ∧
      (runOn false failedSettings).closing = true ∧
      ∃ st, (runOn false failedSettings).stream? 1 = some st ∧ st.sendable = true ∧
        st.inSendQ = false := by
  refine ⟨runOn_reachable _ _ (fun _ _ _ => trivial), by decide +kernel, ?_⟩
  have h : ((runOn false failedSettings).stream? 1).any (fun st => st.sendable && !st.inSendQ) =
      true := by
    decide +kernel
  obtain ⟨st, hs, hq⟩ := (Option.any_eq_true _ _).mp h
  simp only [Bool.and_eq_true, Bool.not_eq_true'] at hq
  exact ⟨st, hs, hq.1, hq.2⟩

end Vortex.Http2
