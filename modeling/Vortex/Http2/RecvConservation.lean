import Vortex.Http2.RecvWindow

/-! # Conservation of the receive windows along runs

The accounts of `RecvWindow`, followed through the frame handlers.  A DATA frame opens a debt to
the connection and to its stream, which the branches of `handleData` pay back in different
ways; `Lacks k l sid` is the state in which `k` bytes are owed to the connection and `l` to the
stream `sid`.  The other frames do not touch the accounts.

A connection error in the middle of a frame leaves a debt unpaid (`Owing`).  The accounts of a
connection that is closing, and of a stream whose client has ended it, are therefore at most the
advertised windows; those of a live connection and of the streams it still reads are equal to
them. -/

namespace Vortex.Http2

open Relation

variable {c : Conn} {sid : ℕ} {W : World} {n : ℕ}

/-! ### Debts -/

/-- The account of a stream adds up to the window `w` but for `l` bytes, and to no more than that
once its client has ended it. -/
structure Stream.Lacks (w l : ℕ) (st : Stream) : Prop where
  le : st.recvTotal + l ≤ w
  eq : st.endStreamSeen = false → st.recvTotal + l = w

variable {st : Stream} {cfg : Config}

theorem Stream.Lacks.of_total {w l l' : ℕ} {st' : Stream} (h : st.Lacks w l)
    (ht : st'.recvTotal + l' = st.recvTotal + l)
    (he : st.endStreamSeen = true → st'.endStreamSeen = true) : st'.Lacks w l' where
  le := by rw [ht]; exact h.le
  eq hne := by
    rw [ht]
    refine h.eq ?_
    by_contra hend
    rw [he (by simpa using hend)] at hne
    cases hne

/-- The accounts add up to the advertised windows but for `k` bytes of the connection and `l`
bytes of the stream `sid`. -/
structure Lacks (k l sid : ℕ) (c : Conn) : Prop where
  sound : Sound c
  known : l = 0 ∨ sid ≤ c.lastStreamId
  conn : c.recvTotal + k = c.connRecvWindow
  stream : ∀ s st, c.stream? s = some st → st.Lacks c.streamRecvWindow (if s = sid then l else 0)

/-- The connection lacks this, or it is closing with some debt left. -/
def Owing (k l sid : ℕ) (c : Conn) : Prop :=
  Lacks k l sid c ∨ c.closing = true ∧ ∃ k' l' sid', Lacks k' l' sid' c

section Debts

variable {k l sid : ℕ} {a b : Conn}

theorem Lacks.of_change {k' l' : ℕ} (h : Lacks k l sid a) (hsound : Sound b)
    (hknown : l' = 0 ∨ sid ≤ b.lastStreamId) (hcw : b.connRecvWindow = a.connRecvWindow)
    (hsw : b.streamRecvWindow = a.streamRecvWindow) (hc : b.recvTotal + k' = a.recvTotal + k)
    (hs : ∀ s st', b.stream? s = some st' → ∃ st, a.stream? s = some st ∧
      st'.recvTotal + (if s = sid then l' else 0 : ℕ) =
        st.recvTotal + (if s = sid then l else 0 : ℕ) ∧
      (st.endStreamSeen = true → st'.endStreamSeen = true)) : Lacks k' l' sid b where
  sound := hsound
  known := hknown
  conn := by rw [hc, hcw]; exact h.conn
  stream s st' hst' := by
    obtain ⟨st, hst, ht, hend⟩ := hs s st' hst'
    rw [hsw]
    exact (h.stream s st hst).of_total ht hend

theorem Lacks.of_same (h : Lacks k l sid a)
    (hh : ∀ s, tally (handedBy s) b.journal = tally (handedBy s) a.journal)
    (ha : ∀ s, tally (ackedBy s) b.journal = tally (ackedBy s) a.journal)
    (hl : a.lastStreamId ≤ b.lastStreamId) (hcw : b.connRecvWindow = a.connRecvWindow)
    (hsw : b.streamRecvWindow = a.streamRecvWindow) (hc : b.recvTotal = a.recvTotal)
    (hs : b.streams = a.streams) : Lacks k l sid b := by
  have hst : ∀ s, b.stream? s = a.stream? s := fun s => by rw [Conn.stream?, hs]; rfl
  refine h.of_change (h.sound.of_same hh ha hl fun s st h' => ⟨st, hst s ▸ h', .refl st⟩)
    (h.known.imp_right hl.trans') hcw hsw (by rw [hc]) fun s st h' => ⟨st, hst s ▸ h', rfl, id⟩

theorem Lacks.note (h : Lacks k l sid a) {e : Event} (hh : ∀ s, handedBy s e = 0)
    (ha : ∀ s, ackedBy s e = 0) : Lacks k l sid (a.note e) :=
  h.of_same (fun s => by rw [tally_note, hh, add_zero]) (fun s => by rw [tally_note, ha, add_zero])
    le_rfl rfl rfl rfl rfl

theorem Lacks.send (h : Lacks k l sid a) (f : Frame) : Lacks k l sid (a.send f) :=
  h.note (fun _ => rfl) (fun _ => rfl)

theorem Lacks.other (h : Lacks k l sid a) (hj : b.journal = a.journal)
    (hl : a.lastStreamId ≤ b.lastStreamId) (hcw : b.connRecvWindow = a.connRecvWindow)
    (hsw : b.streamRecvWindow = a.streamRecvWindow)
    (hr : b.connRecvRemaining = a.connRecvRemaining)
    (hp : b.pendingConnWindow = a.pendingConnWindow) (hs : b.streams = a.streams) :
    Lacks k l sid b := by
  refine h.of_same (fun s => by rw [hj]) (fun s => by rw [hj]) hl hcw hsw ?_ hs
  unfold Conn.recvTotal
  rw [hr, hp, hs]

theorem Lacks.of_core (h : Lacks k l sid a) (hc : b.core = a.core) (hs : b.streams = a.streams) :
    Lacks k l sid b :=
  h.other (congrArg Core.journal hc) (congrArg Core.lastStreamId hc).ge
    (congrArg Core.connRecvWindow hc) (congrArg Core.streamRecvWindow hc)
    (congrArg Core.connRecvRemaining hc) (congrArg Core.pendingConnWindow hc) hs

theorem Lacks.of_bodySide (h : Lacks k l sid a) (hsound : Sound b) {s : ℕ} {f : Stream → Stream}
    (hc : b.core = a.core) (hs : b.streams = a.streams.modify s f)
    (hf : ∀ st : Stream, (f st).bodySide = st.bodySide)
    (he : ∀ st : Stream, st.endStreamSeen = true → (f st).endStreamSeen = true) :
    Lacks k l sid b := by
  have hu : Updates a b s f := .of_streams hs
  have hl : b.lastStreamId = a.lastStreamId := congrArg Core.lastStreamId hc
  refine h.of_change hsound (by rw [hl]; exact h.known) (congrArg Core.connRecvWindow hc)
    (congrArg Core.streamRecvWindow hc) ?_ (hu.forall_stream
      (fun st hst => ⟨st, hst, by rw [recvTotal_of_bodySide (hf st)], he st⟩)
      (fun s st _ hst => ⟨st, hst, rfl, id⟩))
  rw [recvTotal_of_updates hu (congrArg Core.connRecvRemaining hc)
    (congrArg Core.pendingConnWindow hc) (fun st _ => congrArg BodyView.connDeferred (hf st))]

theorem Lacks.update (h : Lacks k l sid a) {s : ℕ} {f : Stream → Stream} (hc : b.core = a.core)
    (hs : b.streams = a.streams.modify s f) (hf : ∀ st : Stream, st.Noted (f st)) :
    Lacks k l sid b := by
  have hj : b.journal = a.journal := congrArg Core.journal hc
  refine h.of_bodySide (h.sound.of_same (fun s => by rw [hj]) (fun s => by rw [hj])
    (congrArg Core.lastStreamId hc).ge ?_) hc hs (fun st => (hf st).bodySide)
    (fun st => (hf st).ended)
  refine (Updates.of_streams hs).forall_stream (fun st hst => ⟨st, hst, (hf st).kind,
    congrArg BodyView.body (hf st).bodySide, congrArg BodyView.connDeferred (hf st).bodySide,
    fun hw => ?_⟩) (fun s st _ hst => ⟨st, hst, .refl st⟩)
  rw [← show (f st).ws = st.ws from congrArg ResponseView.ws (hf st).response]
  exact hw

theorem Lacks.settles (h : Lacks k l sid a) (hs : Settles a b) : Lacks k l sid b := by
  have hst := hs.steady h.sound
  refine h.of_change hst.sound (by rw [hs.kept.lastStreamId]; exact h.known)
    hs.kept.connRecvWindow hs.kept.streamRecvWindow (by rw [hst.conn]) fun s st' hs' => ?_
  obtain ⟨st, hs0, ht⟩ := hst.stream s st' hs'
  obtain ⟨st1, hs1, hk⟩ := hs.kept.stream s st' hs'
  obtain rfl : st1 = st := Option.some.inj (hs1.symm.trans hs0)
  exact ⟨st1, hs1, by rw [ht], (congrArg RequestView.endStreamSeen hk.request).trans⟩

theorem Owing.settles (h : Owing k l sid a) (hs : Settles a b) : Owing k l sid b := by
  rcases h with h | ⟨hc, k', l', sid', h⟩
  · exact .inl (h.settles hs)
  · exact .inr ⟨hs.kept.closing.trans hc, k', l', sid', h.settles hs⟩

theorem Owing.lacks (h : Owing k l sid a) (hc : a.closing = false) : Lacks k l sid a := by
  rcases h with h | ⟨hclosing, -⟩
  · exact h
  · rw [hc] at hclosing
    cases hclosing

end Debts

/-! ### Pieces of frame handlers -/

section Pieces

variable {k l sid : ℕ} {a b : Conn}

theorem Lacks.recordEarlyClosed (h : Lacks k l sid a) (s : ℕ) :
    Lacks k l sid (a.recordEarlyClosed s) :=
  h.of_same (fun _ => tally_recordEarlyClosed (fun _ => rfl) a s)
    (fun _ => tally_recordEarlyClosed (fun _ => rfl) a s)
    (kept_recordEarlyClosed a s).lastStreamId.ge
    ((kept_recordEarlyClosed a s).connRecvWindow)
    ((kept_recordEarlyClosed a s).streamRecvWindow)
    (recvTotal_recordEarlyClosed a s) (streams_recordEarlyClosed a s)

theorem Lacks.head (h : Lacks k l sid a) {s : ℕ} {f : Stream → Stream} (hst : a.stream? s = some st)
    (hh : st.headersDone = false) (hc : b.core = a.core) (hs : b.streams = a.streams.modify s f)
    (hf : ∀ st : Stream, st.Headed (f st)) : Lacks k l sid b := by
  have hj : b.journal = a.journal := congrArg Core.journal hc
  have hso := h.sound.stream s st hst
  obtain ⟨hfr, hfw, hfb, hfa⟩ := hso.fresh hh
  have hbody : (f st).body = st.body := congrArg BodyView.body (hf st).bodySide
  have hdef : (f st).connDeferred = st.connDeferred :=
    congrArg BodyView.connDeferred (hf st).bodySide
  have hws : (f st).ws = st.ws := congrArg ResponseView.ws (hf st).response
  refine h.of_bodySide (h.sound.update (.of_streams hs) (congrArg Core.lastStreamId hc)
    (fun _ _ => by rw [hj]) (fun _ _ => by rw [hj]) hst ?_) hc hs (fun st => (hf st).bodySide)
    (fun st => (hf st).ended)
  rw [hj]
  refine ⟨hso.acked_le, fun _ => ?_, fun _ => ?_, fun hw => ?_, fun hw => ?_, fun hd => ?_⟩
  · rw [hdef]
    exact hso.plain hfr
  · rw [hdef, hbody, hfb, hso.plain hfr, hfa]
    rfl
  · exact (hf st).route hfr hw
  · rw [hws] at hw
    rw [hso.ws hw] at hfw
    cases hfw
  · rw [(hf st).done] at hd
    cases hd

theorem Lacks.openNew (h : Lacks k l sid a) {s : ℕ} (hs : a.lastStreamId < s) :
    Lacks k l sid (Conn.openStream { a with lastStreamId := s } s) := by
  have hstream := @stream_openStream { a with lastStreamId := s } s
  have hj : ∀ f : Event → ℕ, f (.opened s) = 0 → tally f (a.journal ++ [.opened s]) =
      tally f a.journal := fun f hf => (tally_note f a _).trans (by rw [hf, add_zero])
  have hnone : a.stream? s = none := by
    cases hst : a.stream? s with
    | none => rfl
    | some st => exact absurd (h.sound.opened s st hst) (not_le.mpr hs)
  obtain ⟨u, i, p, e⟩ := openStream_eq { a with lastStreamId := s } s
  rw [e] at hstream ⊢
  refine ⟨⟨fun s' st' hst' => ?_, fun s' st' hst' => ?_, fun s' hs' => ?_⟩,
    h.known.imp_right (fun hk => hk.trans hs.le), ?_, fun s' st' hst' => ?_⟩
  · rw [hj _ rfl, hj _ rfl]
    rcases hstream hst' with ⟨rfl, u, i, rfl⟩ | ⟨-, h'⟩
    · obtain ⟨h1, h2⟩ := h.sound.unused s' hs
      rw [h1, h2]
      exact ⟨le_rfl, fun _ => rfl, fun hd => (by cases hd), fun hw => (by cases hw),
        fun hw => (by cases hw), fun _ => ⟨rfl, rfl, rfl, rfl⟩⟩
    · exact h.sound.stream s' st' h'
  · rcases hstream hst' with ⟨rfl, -⟩ | ⟨-, h'⟩
    · exact le_rfl
    · exact (h.sound.opened s' st' h').trans hs.le
  · rw [hj _ rfl, hj _ rfl]
    exact h.sound.unused s' (hs.trans hs')
  · have ht := Table.total_insert_of_none Stream.connDeferred
      (Conn.newStream { a with lastStreamId := s } u i) (t := a.streams) hnone
    have hz : (Conn.newStream { a with lastStreamId := s } u i).connDeferred = 0 := rfl
    have hconn := h.conn
    unfold Conn.recvTotal at hconn ⊢
    rw [ht, hz, zero_add]
    exact hconn
  · rcases hstream hst' with ⟨rfl, u, i, rfl⟩ | ⟨-, h'⟩
    · have hl0 : (if s' = sid then l else 0) = 0 := by
        split_ifs with e
        · rcases h.known with hk | hk
          · exact hk
          · subst e
            exact absurd hs (not_lt.mpr hk)
        · rfl
      have ht : (Conn.newStream { a with lastStreamId := s' } u i).recvTotal + (0 : ℕ) =
          a.streamRecvWindow := by
        simp [Stream.recvTotal, Conn.newStream]
      rw [hl0]
      exact ⟨ht.le, fun _ => ht⟩
    · exact h.stream s' st' h'

theorem Lacks.moves (h : Lacks k l sid a) (hm : Moves a b) : Lacks k l sid b :=
  h.settles ⟨hm.kept, hm.steady⟩

theorem Lacks.preface (h : Lacks k l sid a) : Lacks k l sid a.finishPreface := by
  have h1 : Lacks k l sid { a with prefaceDone := true } := h.other rfl le_rfl rfl rfl rfl rfl rfl
  unfold Conn.finishPreface
  rcases sendOurSettings_cases { a with prefaceDone := true } with e | e
  · rw [e]
    exact h1.send _
  · rw [e]
    exact (h1.send _).send _

theorem Lacks.initialWindow (h : Lacks k l sid a) (value : ℕ) :
    Lacks k l sid (Conn.note { a with peerInitialWindow := value } (.initialWindow value)) := by
  have h1 : Lacks k l sid { a with peerInitialWindow := value } :=
    h.other rfl le_rfl rfl rfl rfl rfl rfl
  exact h1.note (fun _ => rfl) (fun _ => rfl)

theorem Lacks.connError (h : Lacks k l sid a) (err : ErrCode) :
    Lacks k l sid (a.connError err) := by
  unfold Conn.connError
  split_ifs
  · exact Lacks.other (h.send _) rfl le_rfl rfl rfl rfl rfl rfl
  · exact Lacks.other (h.send _) rfl le_rfl rfl rfl rfl rfl rfl

theorem Lacks.abandon {k' l' sid' : ℕ} (h : Lacks k' l' sid' a) (err : ErrCode) :
    Owing k l sid (a.connError err) := .inr ⟨rfl, k', l', sid', h.connError err⟩

/-- **The pieces of frame handlers that leave request bytes alone keep a debt as it is.** -/
theorem FrameMove.lacks (hm : FrameMove a b) (h : Lacks k l sid a) : Lacks k l sid b := by
  cases hm with
  | error err => exact h.connError err
  | note he => exact h.note (fun s => handedBy_inbound s he) (fun s => ackedBy_inbound s he)
  | settingsAck | pingAck => exact h.send _
  | preface hp => exact h.preface
  | other hc hb hs => exact h.of_core hc hs
  | update hc hb hs hf => exact h.update hc hs hf
  | head hst hh hc hb hs hf => exact h.head hst hh hc hs hf
  | openNew hl => exact h.openNew hl
  | refuse hl => exact h.other rfl hl.le rfl rfl rfl rfl rfl
  | @refuseEarly s hl =>
    have h1 : Lacks k l sid { a with lastStreamId := s } := h.other rfl hl.le rfl rfl rfl rfl rfl
    exact h1.recordEarlyClosed s
  | forget s hc hb hs =>
    exact h.other (congrArg Core.journal hc) (congrArg Core.lastStreamId hc).ge
      (congrArg Core.connRecvWindow hc) (congrArg Core.streamRecvWindow hc)
      (congrArg Core.connRecvRemaining hc) (congrArg Core.pendingConnWindow hc) hs
  | initialWindow H value hv =>
    have hmoves := (shiftWindows_moves _ _ _).1 b (applyInitialWindow_ok hv).2
    exact (h.initialWindow value).moves hmoves
  | initialWindowFailed H value hv =>
    rcases applyInitialWindow_error hv with rfl | ⟨c1, hm, rfl⟩
    · exact h.connError _
    · exact ((h.initialWindow value).moves hm).connError _
  | maxFrame m =>
    have h1 : Lacks k l sid { a with peerMaxFrame := m } := h.other rfl le_rfl rfl rfl rfl rfl rfl
    exact h1.note (fun _ => rfl) (fun _ => rfl)
  | connCredit inc hr =>
    have h1 : Lacks k l sid { a with connSendWindow := int32 (a.connSendWindow + inc) } :=
      h.other rfl le_rfl rfl rfl rfl rfl rfl
    exact h1.note (fun _ => rfl) (fun _ => rfl)
  | @streamCredit s st hs inc hr =>
    exact (h.note (fun _ => rfl) (fun _ => rfl)).moves (creditSend_moves a s inc)

theorem FrameMoves.lacks (hm : FrameMoves a b) (h : Lacks k l sid a) : Lacks k l sid b := by
  induction hm with
  | refl => exact h
  | tail _ hm ih =>
    rcases hm with hm | hm
    · exact hm.lacks ih
    · exact ih.settles (Moves.settles (.single hm))

theorem Path.lacks (hp : Path QuietAtom Settles a b) (h : Lacks k l sid a) : Lacks k l sid b := by
  refine hp.rel_pieces (Q := fun a b => Lacks k l sid a → Lacks k l sid b) (fun _ => id)
    (fun _ _ _ h1 h2 h => h2 (h1 h)) (fun a b hp h => ?_) (fun _ _ hs h => h.settles hs)
    (fun _ _ h => h.kept) h
  cases hp with
  | atom ha =>
    cases ha with
    | app ha => exact h.settles ha.strokes.moves.settles
    | frame hm => exact hm.moves.lacks h
  | finish ha => exact h.settles ha.strokes.moves.settles
  | fired c cb => exact h.settles (Moves.note _ rfl).settles
  | closeBegin ha => exact h.settles ha.strokes.moves.settles
  | wsDrop hw => exact h.settles (Moves.settles (.single (.dropWs hw)))

end Pieces

/-! ### Paying a debt back -/

section Payments

variable {k l n sid : ℕ} {c : Conn}

theorem Lacks.rename (h : Lacks k 0 sid c) (sid' : ℕ) : Lacks k 0 sid' c :=
  ⟨h.sound, .inl rfl, h.conn, fun s st hs => by simpa using h.stream s st hs⟩

/-- What is owed to a stream that is gone, or that its client has ended, is not owed any more. -/
theorem Lacks.ended (h : Lacks k l sid c)
    (he : ∀ st, c.stream? sid = some st → st.endStreamSeen = true) : Lacks k 0 sid c where
  sound := h.sound
  known := .inl rfl
  conn := h.conn
  stream s st hs := by
    have hst := h.stream s st hs
    by_cases hs' : s = sid
    · subst hs'
      rw [if_pos rfl] at hst
      refine ⟨?_, fun hne => ?_⟩
      · have := hst.le
        rw [if_pos rfl]
        push_cast
        omega
      · rw [he st hs] at hne
        cases hne
    · simpa [hs'] using hst

theorem Lacks.debitConn (h : Lacks k l sid c) (n : ℕ) : Lacks (k + n) l sid (c.debitConn n) := by
  refine ⟨⟨h.sound.stream, h.sound.opened, h.sound.unused⟩, h.known, ?_, h.stream⟩
  have hc := h.conn
  unfold Conn.recvTotal Conn.debitConn at *
  push_cast
  omega

theorem Lacks.debitStream (h : Lacks k l sid c) (hsid : sid ≤ c.lastStreamId) (n : ℕ) :
    Lacks k (l + n) sid (c.debitStream sid n) := by
  have hu := Updates.modify c sid fun st => { st with recvRemaining := st.recvRemaining - n }
  refine h.of_change (h.sound.of_same (fun _ => rfl) (fun _ => rfl) le_rfl (hu.forall_stream
    (fun st hs => ⟨st, hs, ⟨rfl, rfl, rfl, id⟩⟩) (fun s st _ hs => ⟨st, hs, .refl st⟩))) (.inr hsid)
    rfl rfl ?_ (hu.forall_stream (fun st hs => ⟨st, hs, ?_, id⟩) (fun s st hne hs => ?_))
  · rw [show (c.debitStream sid n).recvTotal = c.recvTotal from
      recvTotal_of_updates hu rfl rfl (fun _ _ => rfl)]
  · simp only [Stream.recvTotal, if_true]
    push_cast
    omega
  · exact ⟨st, hs, by simp [hne], id⟩

theorem Lacks.creditConn (h : Lacks (k + n) l sid c) : Lacks k l sid (c.creditConn n) := by
  refine h.of_change (h.sound.creditConn n) ?_ (kept_creditConn c n).connRecvWindow
    (kept_creditConn c n).streamRecvWindow ?_ fun s st hs => ?_
  · rw [(kept_creditConn c n).lastStreamId]
    exact h.known
  · rw [recvTotal_creditConn]
    push_cast
    omega
  · rw [stream_creditConn] at hs
    exact ⟨st, hs, rfl, id⟩

theorem Lacks.creditStream (h : Lacks k (l + n) sid c) :
    Lacks k l sid (c.creditStream sid n) := by
  have hkept := kept_creditStream c sid n
  refine h.of_change (h.sound.creditStream sid n) ?_ hkept.connRecvWindow hkept.streamRecvWindow
    (by rw [recvTotal_creditStream]) fun s st' hs' => ?_
  · rw [hkept.lastStreamId]
    exact h.known.imp_left (fun hk => by omega)
  · obtain ⟨st, hs, -, ht⟩ := stream_creditStream hs'
    obtain ⟨st1, hs1, hk⟩ := hkept.stream s st' hs'
    obtain rfl : st1 = st := Option.some.inj (hs1.symm.trans hs)
    refine ⟨st1, hs, ?_, (congrArg RequestView.endStreamSeen hk.request).trans⟩
    rw [ht]
    split_ifs
    · push_cast
      omega
    · simp

theorem Lacks.bufferPlain (h : Lacks k l sid c) (hst : c.stream? sid = some st)
    (hr : st.reqStreaming = false) (hd : st.headersDone = true) (data : Bytes) :
    Lacks k l sid (c.bufferBody sid data) := by
  have hu := Updates.modify c sid fun st => { st with body := st.body ++ data }
  have hso := h.sound.stream sid st hst
  refine h.of_change (h.sound.update hu rfl (fun _ _ => rfl) (fun _ _ => rfl) hst ⟨hso.acked_le,
    hso.plain, fun hr' => ?_, hso.tunnel, hso.ws, fun hd' => ?_⟩) h.known rfl rfl
    (congrArg (· + (k : ℤ)) (recvTotal_of_updates hu rfl rfl (fun _ _ => rfl)))
    (hu.forall_stream (fun st hs => ⟨st, hs, rfl, id⟩) (fun s st _ hs => ⟨st, hs, rfl, id⟩))
  · rw [show st.reqStreaming = true from hr'] at hr
    cases hr
  · rw [show st.headersDone = false from hd'] at hd
    cases hd

theorem Lacks.deferBody {data : Bytes} (h : Lacks (k + data.length) (l + data.length) sid c)
    (hst : c.stream? sid = some st) (hr : st.reqStreaming = true) :
    Lacks k l sid ((c.deferBody sid data.length).bufferBody sid data) := by
  have hu : Updates c ((c.deferBody sid data.length).bufferBody sid data) sid _ :=
    (Updates.modify c sid _).trans (.modify _ sid _)
  have hso := h.sound.stream sid st hst
  have hcredit := hso.streaming hr
  refine h.of_change (h.sound.update hu rfl (fun _ _ => rfl) (fun _ _ => rfl) hst ⟨hso.acked_le,
    fun hp => ?_, fun _ => ?_, hso.tunnel, hso.ws, fun hd => ?_⟩)
    (h.known.imp_left (fun hk => by omega)) rfl rfl ?_
    (hu.forall_stream (fun st hs => ⟨st, hs, ?_, id⟩) (fun s st hne hs => ⟨st, hs, by simp [hne], id⟩))
  · rw [show st.reqStreaming = false from hp] at hr
    cases hr
  · simp only [List.length_append, Conn.deferBody, Conn.bufferBody, Conn.modify]
    omega
  · rw [(hso.fresh hd).1] at hr
    cases hr
  · have ht := hu.total Stream.connDeferred hst
    simp only [Conn.recvTotal, Conn.deferBody, Conn.bufferBody, Conn.modify] at ht ⊢
    push_cast at ht ⊢
    omega
  · simp only [Stream.recvTotal, if_true]
    push_cast
    omega

end Payments

/-! ### The branches of a DATA frame -/

theorem recvTotal_sendReset (c : Conn) (sid : ℕ) (err : ErrCode) :
    (c.sendReset sid err).recvTotal = c.recvTotal := by
  unfold Conn.sendReset
  split_ifs <;> rfl

theorem unpadData_length {f : InFrame} {data : Bytes} (h : unpadData f = .ok data) :
    data.length ≤ f.header.length := by
  have hlen := f.length_eq
  unfold unpadData at h
  split_ifs at h
  · dsimp only at h
    split_ifs at h
    rw [← Except.ok.inj h]
    simp only [List.length_take, List.length_drop]
    omega
  · rw [← Except.ok.inj h]
    exact hlen.le

/-- The stream, while it is open, is a streamed request or is none, as `b` says. -/
def Conn.StreamedAt (c : Conn) (sid : ℕ) (b : Bool) : Prop :=
  ∀ st, c.stream? sid = some st → st.reqStreaming = b

section StreamedAt

variable {a c : Conn} {sid : ℕ} {b : Bool}

theorem Conn.streamedAt (hst : c.stream? sid = some st) (hr : st.reqStreaming = b) :
    c.StreamedAt sid b := by
  intro st' hs'
  obtain rfl : st' = st := Option.some.inj (hs'.symm.trans hst)
  exact hr

theorem Conn.StreamedAt.kept (hp : a.StreamedAt sid b) (h : Kept a c) : c.StreamedAt sid b := by
  intro st' hs'
  obtain ⟨st, hs, hk⟩ := h.stream sid st' hs'
  exact (congrArg RequestView.reqStreaming hk.request).trans (hp st hs)

theorem Conn.StreamedAt.modify (hp : a.StreamedAt sid b) {f : Stream → Stream}
    (hs : c.streams = a.streams.modify sid f)
    (hf : ∀ st : Stream, (f st).reqStreaming = st.reqStreaming) : c.StreamedAt sid b := by
  intro st' hs'
  rw [Conn.stream?, hs, Table.lookup_modify_self] at hs'
  obtain ⟨st, hst, rfl⟩ := Option.map_eq_some_iff.mp hs'
  exact (hf st).trans (hp st hst)

theorem Conn.StreamedAt.of_none (h : c.stream? sid = none) : c.StreamedAt sid b := by
  intro st hs
  rw [h] at hs
  cases hs

theorem Conn.StreamedAt.noteEndStream (hp : c.StreamedAt sid b) :
    (c.noteEndStream sid).StreamedAt sid b :=
  hp.modify (streams_noteEndStream c sid) (fun _ => rfl)

end StreamedAt

section Data

variable {H : Hooks} (hf : ∀ cb c, Settles c (H.fire cb c)) {n : ℕ} {f : InFrame}

include hf

theorem streamError_settles (sid : ℕ) (err : ErrCode) (c : Conn) :
    Settles c (streamError H sid err c) :=
  (streamError_path hf sid err c).settles

theorem streamError_none (sid : ℕ) (err : ErrCode) (c : Conn) :
    (streamError H sid err c).stream? sid = none := by
  exact teardownStream_none hf (fun _ _ h => h.kept) sid (c.sendReset sid err)

/-- A stream error right after bytes were put on the stream's deferred credit returns them. -/
theorem streamError_deferred {k l d : ℕ} {g : Stream → Stream}
    (h : Lacks (k + d) l sid c) (hst : c.stream? sid = some st)
    (hg : (g st).connDeferred = st.connDeferred + d) (err : ErrCode) :
    Lacks k 0 sid (streamError H sid err (c.modify sid g)) := by
  have hs1 : ((c.modify sid g).sendReset sid err).stream? sid = some (g st) :=
    ((Updates.modify c sid g).congr_right (Conn.streams_sendReset _ sid err)).self hst
  have hpath : Settles ((c.modify sid g).reset sid err)
      (streamError H sid err (c.modify sid g)) := by
    unfold streamError teardownStream
    rw [hs1]
    exact (fireTeardown_fires hf sid (g st) _).settles
  refine Lacks.settles ?_ hpath
  have hkept : Kept (c.modify sid g) ((c.modify sid g).reset sid err) :=
    (Strokes.reset _ sid err).moves.kept
  have hstream : ∀ s st', ((c.modify sid g).reset sid err).stream? s =
      some st' → s ≠ sid ∧ c.stream? s = some st' := by
    intro s st' hs
    rw [Conn.reset, stream_detachStream, Conn.stream?, Conn.streams_sendReset] at hs
    split at hs
    · cases hs
    · next hne =>
      rcases Conn.stream_of_modify hs with ⟨e, -⟩ | ⟨-, hs'⟩
      · exact absurd e hne
      · exact ⟨hne, hs'⟩
  have htally : ∀ f : Event → ℕ, (∀ s, f (.closedEarly s) = 0) → (∀ fr, f (.sent fr) = 0) →
      (∀ s, f (.removed s) = 0) →
      tally f ((c.modify sid g).reset sid err).journal = tally f c.journal := by
    intro f h1 h2 h3
    unfold Conn.reset
    rw [tally_detachStream h1 (fun _ _ => h2 _) h3]
    unfold Conn.sendReset
    split_ifs
    · rw [tally_send, h2, add_zero]
      rfl
    · rfl
  refine h.of_change (h.sound.of_same
    (fun s => htally _ (fun _ => rfl) (fun _ => rfl) (fun _ => rfl))
    (fun s => htally _ (fun _ => rfl) (fun _ => rfl) (fun _ => rfl)) hkept.lastStreamId.ge
    fun s st' hs => ⟨st', (hstream s st' hs).2, .refl st'⟩) (.inl rfl) hkept.connRecvWindow
    hkept.streamRecvWindow ?_ fun s st' hs => ?_
  · have ht := Table.total_modify Stream.connDeferred g hst
    unfold Conn.reset
    rw [recvTotal_detachStream, recvTotal_sendReset]
    simp only [Conn.recvTotal, Conn.modify]
    push_cast
    omega
  · obtain ⟨hne, hs'⟩ := hstream s st' hs
    exact ⟨st', hs', by simp [hne], id⟩

omit hf in
theorem replenish_plain (h : Lacks n n sid c) (hp : c.StreamedAt sid false) :
    Lacks 0 0 sid (c.replenish sid n 0) := by
  unfold Conn.replenish
  by_cases hn : n > 0
  · rw [if_pos hn]
    dsimp only
    rw [Nat.sub_zero]
    have h1 : Lacks 0 n sid (c.creditConn n) := Lacks.creditConn (by rw [Nat.zero_add]; exact h)
    split
    · next hnone =>
      refine h1.ended (fun st hs => ?_)
      rw [hnone] at hs
      cases hs
    · next st hs =>
      have hplain := hp.kept (kept_creditConn c n) st hs
      split_ifs with hcase
      · exact Lacks.creditStream (by rw [Nat.zero_add]; exact h1)
      · refine h1.ended (fun st' hs' => ?_)
        obtain rfl : st' = st := Option.some.inj (hs'.symm.trans hs)
        simpa [hplain] using hcase
  · rw [if_neg hn]
    obtain rfl : n = 0 := by omega
    exact h

omit hf in
theorem replenish_conn (h : Lacks n n sid c) : ∃ l, Lacks 0 l sid (c.replenish sid n 0) := by
  unfold Conn.replenish
  by_cases hn : n > 0
  · rw [if_pos hn]
    dsimp only
    rw [Nat.sub_zero]
    have h1 : Lacks 0 n sid (c.creditConn n) := Lacks.creditConn (by rw [Nat.zero_add]; exact h)
    split
    · exact ⟨n, h1⟩
    · split_ifs
      · exact ⟨0, Lacks.creditStream (by rw [Nat.zero_add]; exact h1)⟩
      · exact ⟨n, h1⟩
  · rw [if_neg hn]
    obtain rfl : n = 0 := by omega
    exact ⟨0, h⟩

omit hf in
theorem replenish_streaming {d : ℕ} (h : Lacks (n - d) 0 sid c) (hd : d ≤ n)
    (hp : c.StreamedAt sid true) : Lacks 0 0 sid (c.replenish sid n d) := by
  unfold Conn.replenish
  by_cases hn : n > 0
  · rw [if_pos hn]
    dsimp only
    have h1 : Lacks 0 0 sid (c.creditConn (n - d)) :=
      Lacks.creditConn (by rw [Nat.zero_add]; exact h)
    split
    · exact h1
    · next st hs =>
      rw [stream_creditConn] at hs
      rw [hp st hs]
      simpa using h1
  · rw [if_neg hn]
    have e : n - d = 0 := by omega
    rw [e] at h
    exact h

omit hf in
theorem closing_replenish (c : Conn) (sid n d : ℕ) : (c.replenish sid n d).closing = c.closing := by
  unfold Conn.replenish
  dsimp only
  split_ifs
  · split
    · exact (kept_creditConn _ _).closing
    · split_ifs
      · exact (kept_creditStream _ _ _).closing.trans (kept_creditConn _ _).closing
      · exact (kept_creditConn _ _).closing
  · rfl

theorem refuseClosed_owing (h : Lacks n n sid c) :
    Owing 0 0 sid ((refuseClosed H sid c).replenish sid n 0) := by
  have h1 : Lacks n n sid (refuseClosed H sid c) := (refuseClosed_path hf sid c).lacks h
  by_cases hclosing : (refuseClosed H sid c).closing = true
  · obtain ⟨l, hl⟩ := replenish_conn h1
    exact .inr ⟨(closing_replenish _ sid n 0).trans hclosing, 0, l, sid, hl⟩
  · refine .inl (replenish_plain h1 (.of_none ?_))
    unfold refuseClosed at hclosing ⊢
    dsimp only at hclosing ⊢
    split_ifs at hclosing ⊢ with hc
    · exact absurd hc hclosing
    · exact streamError_none hf sid _ _

theorem dataWebSocket_lacks (h : Lacks n n sid c) (hst : c.stream? sid = some st)
    (hw : st.ws.isSome = true) (f : InFrame) (data : Bytes) :
    Lacks 0 0 sid ((dataWebSocket H sid f data c).replenish sid n 0) := by
  have hset : Settles c (dataWebSocket H sid f data c) := by
    unfold dataWebSocket
    dsimp only
    split_ifs
    · exact Settles.trans _ _ _ (run_settles hf _ c) (run_settles hf _ _)
    · exact run_settles hf _ c
  have hso := h.sound.stream sid st hst
  exact replenish_plain (h.settles hset)
    ((Conn.streamedAt hst (hso.tunnel (hso.ws hw))).kept hset.kept)

omit hf in
theorem dataWsPending_lacks (h : Lacks n n sid c) (hst : c.stream? sid = some st)
    (hw : st.isWsConnect = true) (hd : st.headersDone = true) (f : InFrame) (data : Bytes) :
    Lacks 0 0 sid ((c.dataWsPending sid f data).replenish sid n 0) := by
  have hr : st.reqStreaming = false := (h.sound.stream sid st hst).tunnel hw
  have h1 := h.bufferPlain hst hr hd data
  have hp1 : (c.bufferBody sid data).StreamedAt sid false :=
    (Conn.streamedAt hst hr).modify rfl (fun _ => rfl)
  unfold Conn.dataWsPending
  split_ifs
  · exact replenish_plain ((noteEndStream_move _ sid).lacks h1) hp1.noteEndStream
  · exact replenish_plain h1 hp1

theorem h2DeliverBody_settles (last : Bool) (hp : c.StreamedAt sid true) :
    Settles c (h2DeliverBody H sid last c) where
  kept := h2DeliverBody_kept hf (fun _ _ h => h.kept) sid last c
  steady hs := h2DeliverBody_steady hf hs last (fun _ _ st hst => .inr (.inl (hp st hst)))

theorem dataStreaming_lacks {data : Bytes} (h : Lacks f.header.length f.header.length sid c)
    (hst : c.stream? sid = some st) (hr : st.reqStreaming = true)
    (hd : data.length ≤ f.header.length) : Lacks 0 0 sid
      ((dataStreaming H sid st f data c).replenish sid f.header.length data.length) := by
  have h1 : Lacks f.header.length data.length sid (if f.header.length > data.length then
      c.creditStream sid (f.header.length - data.length) else c) := by
    split_ifs with hgt
    · exact Lacks.creditStream (by rw [Nat.add_sub_cancel' hd]; exact h)
    · have e : f.header.length = data.length := by omega
      rw [e] at h ⊢
      exact h
  have hopen : ∃ st1, (if f.header.length > data.length then
      c.creditStream sid (f.header.length - data.length) else c).stream? sid = some st1 ∧
      st1.reqStreaming = true := by
    split_ifs
    · exact ⟨_, (updates_creditStream c sid _).self hst,
        (congrArg RequestKind.reqStreaming (st.recvTotal_credited _ _).1.kind).trans hr⟩
    · exact ⟨st, hst, hr⟩
  unfold dataStreaming
  dsimp only
  generalize (if f.header.length > data.length then
    c.creditStream sid (f.header.length - data.length) else c) = c1 at h1 hopen ⊢
  obtain ⟨st1, hst1, hr1⟩ := hopen
  obtain ⟨m, hm⟩ : ∃ m, f.header.length = m + data.length := ⟨_, (Nat.sub_add_cancel hd).symm⟩
  have hmd : f.header.length - data.length = m := by omega
  rw [hm] at h1
  have h3 : Lacks m 0 sid ((c1.deferBody sid data.length).bufferBody sid data) :=
    Lacks.deferBody (by rw [Nat.zero_add]; exact h1) hst1 hr1
  have hp3 : ((c1.deferBody sid data.length).bufferBody sid data).StreamedAt sid true :=
    (Conn.streamedAt hst1 hr1).modify (Table.modify_modify _ _ _ _) (fun _ => rfl)
  have hclose : ∀ c', Lacks m 0 sid c' → c'.StreamedAt sid true →
      Lacks 0 0 sid (c'.replenish sid f.header.length data.length) := by
    intro c' h' hp'
    exact replenish_streaming (by rw [hmd]; exact h') hd hp'
  split_ifs
  · refine hclose _ ?_ (.of_none (streamError_none hf sid _ _))
    exact streamError_deferred hf h1 hst1 rfl _
  · exact hclose _ (((noteEndStream_move _ sid).lacks h3).settles
      (streamError_settles hf sid _ _)) (.of_none (streamError_none hf sid _ _))
  · have hset := h2DeliverBody_settles hf true hp3.noteEndStream
    exact hclose _ (((noteEndStream_move _ sid).lacks h3).settles hset)
      (hp3.noteEndStream.kept hset.kept)
  · have hset := h2DeliverBody_settles hf false hp3
    exact hclose _ (h3.settles hset) (hp3.kept hset.kept)

theorem dataBuffered_lacks (h : Lacks n n sid c) (hst : c.stream? sid = some st)
    (hr : st.reqStreaming = false) (hd : st.headersDone = true) (f : InFrame) (data : Bytes) :
    Lacks 0 0 sid ((dataBuffered H sid st f data c).replenish sid n 0) := by
  have h1 : Lacks n n sid ((c.bufferBody sid data).countBuffered sid data.length) :=
    (countBuffered_move _ sid _).lacks (h.bufferPlain hst hr hd data)
  have hp1 : ((c.bufferBody sid data).countBuffered sid data.length).StreamedAt sid false :=
    (Conn.streamedAt hst hr).modify (Table.modify_modify _ _ _ _) (fun _ => rfl)
  unfold dataBuffered
  dsimp only
  generalize (c.bufferBody sid data).countBuffered sid data.length = c1 at h1 hp1 ⊢
  have h2 : Lacks n n sid ((c1.noteEndStream sid).releaseBuffered sid) :=
    (frameMoves_releaseBuffered _ sid).lacks ((noteEndStream_move c1 sid).lacks h1)
  have hp2 : ((c1.noteEndStream sid).releaseBuffered sid).StreamedAt sid false := by
    unfold Conn.releaseBuffered
    split
    · exact hp1.noteEndStream
    · exact hp1.noteEndStream.modify rfl (fun _ => rfl)
  generalize (c1.noteEndStream sid).releaseBuffered sid = c2 at h2 hp2 ⊢
  split_ifs
  · exact replenish_plain (h1.settles (streamError_settles hf sid _ c1))
      (hp1.kept (streamError_settles hf sid _ c1).kept)
  · exact replenish_plain (h2.settles (streamError_settles hf sid _ c2))
      (hp2.kept (streamError_settles hf sid _ c2).kept)
  · exact replenish_plain ((frameMoves_dispatch c2 sid).lacks h2)
      (hp2.modify (congrArg (Table.modify sid _) (Conn.streams_noteDispatch c2 sid)) (fun _ => rfl))
  · exact replenish_plain h2 hp2
  · exact replenish_plain h1 hp1

/-- **DATA on an open stream pays its debt back.** -/
theorem dataOnStream_lacks {data : Bytes} (h : Lacks f.header.length f.header.length sid c)
    (hst : c.stream? sid = some st) (hd : st.headersDone = true)
    (hlen : data.length ≤ f.header.length) :
    Lacks 0 0 sid ((dataOnStream H sid st f data c).1.replenish sid f.header.length
      (dataOnStream H sid st f data c).2) := by
  unfold dataOnStream
  split_ifs with hw hb hc hr
  · exact dataWebSocket_lacks hf h hst hw f data
  · exact replenish_plain (h.settles (streamError_settles hf sid _ c))
      (.of_none (streamError_none hf sid _ c))
  · exact dataWsPending_lacks h hst hc hd f data
  · exact dataStreaming_lacks hf h hst hr hlen
  · exact dataBuffered_lacks hf h hst (by simpa using hr) hd f data

theorem dataAdmitted_owing (h : Lacks f.header.length f.header.length sid c) :
    Owing 0 0 sid (dataAdmitted H sid f c) := by
  unfold dataAdmitted
  cases hst : c.stream? sid with
  | none =>
    dsimp only
    have h1 := (absorbAfterReset_move c sid f.header.length (f.header.has flagEndStream)).lacks h
    have hnone : (c.absorbAfterReset sid f.header.length
        (f.header.has flagEndStream)).1.stream? sid = none := by
      unfold Conn.absorbAfterReset
      split
      · exact hst
      · dsimp only
        split_ifs <;> exact hst
    split_ifs
    · exact .inl (replenish_plain h1 (.of_none hnone))
    · exact refuseClosed_owing hf h1
  | some st =>
    dsimp only
    split_ifs with hcase
    · exact refuseClosed_owing hf h
    · simp only [Bool.or_eq_true, Bool.not_eq_true', not_or, Bool.not_eq_false] at hcase
      cases hd : unpadData f with
      | error e => exact h.abandon e
      | ok data => exact .inl (dataOnStream_lacks hf h hst hcase.2 (unpadData_length hd))

theorem dataDebit_owing (h : Lacks 0 0 sid c) (hsid : sid ≤ c.lastStreamId)
    (f : InFrame) : Owing 0 0 sid (dataDebit H sid f c) := by
  unfold dataDebit
  by_cases hlen : f.header.length > 0
  · rw [if_pos hlen]
    dsimp only
    have h1 := h.debitConn f.header.length
    have h2 := h1.debitStream hsid f.header.length
    generalize (c.debitConn f.header.length).debitStream sid f.header.length = c2 at h2 ⊢
    split_ifs with hover hshort
    · exact h1.abandon _
    · cases hst : c2.stream? sid with
      | none =>
        rw [hst] at hshort
        cases hshort
      | some st => exact .inl (streamError_deferred hf h2 hst rfl _)
    · rw [Nat.zero_add] at h2
      exact dataAdmitted_owing hf h2
  · rw [if_neg hlen]
    have e : f.header.length = 0 := by omega
    exact dataAdmitted_owing hf (by rw [e]; exact h)

/-- **DATA frames conserve the windows.** -/
theorem handleData_owing (h : Lacks 0 0 0 c) (f : InFrame) : Owing 0 0 0 (handleData H f c) := by
  unfold handleData
  dsimp only
  split_ifs with h1 h2 h3
  · exact h.abandon _
  · exact h.abandon _
  · exact h.abandon _
  · rcases dataDebit_owing hf (h.rename f.header.streamId) (by omega) f with h4 | h4
    · exact .inl (h4.rename 0)
    · exact .inr h4

/-! ### The other frames -/

theorem finishTrailers_lacks (h : Lacks 0 0 0 c)
    (hst : c.stream? sid = some st) (es : Bool) (fields : Fields) :
    Lacks 0 0 0 (finishTrailers H sid st es fields c) := by
  have herr : Lacks 0 0 0 (streamError H sid .errProtocol c) :=
    h.settles (streamError_settles hf sid _ c)
  have h1 : Lacks 0 0 0 (c.addTrailers sid fields) := (frameMoves_addTrailers c sid fields).lacks h
  unfold finishTrailers
  split_ifs with h2 h3 hr h4
  · exact herr
  · exact herr
  · exact h1.settles (streamError_settles hf sid _ _)
  · refine h1.settles (h2DeliverBody_settles hf true (Conn.StreamedAt.noteEndStream ?_))
    exact (Conn.streamedAt hst (Bool.and_eq_true_iff.mp hr).1).modify rfl (fun _ => rfl)
  · rcases dispatchHead_cases H ((updates_addTrailers c sid fields).self hst) with
        ⟨c', hd, e⟩ | ⟨c', hd, e⟩
    · rw [e]
      exact hd.moves.lacks h1
    · rw [e]
      exact (hd.moves.lacks h1).settles (streamError_settles hf sid _ _)

theorem finishHeaders_lacks (h : Lacks 0 0 0 c) (sid : ℕ) (es : Bool) :
    Lacks 0 0 0 (finishHeaders H sid es c) := by
  unfold finishHeaders
  split
  · next d e hd =>
    have h1 : Lacks 0 0 0 { c with decoder := d } := h.of_core rfl rfl
    exact h1.connError _
  · next d fields hd =>
    dsimp only
    have h1 : Lacks 0 0 0 { c with decoder := d, headerBlock := [] } := h.of_core rfl rfl
    split
    · exact h1
    · next st hst =>
      split_ifs with hh
      · exact finishTrailers_lacks hf h1 hst es fields
      · exact (finishHead_path hf hst (by simpa using hh) es fields).lacks h1

theorem handleHeaders_lacks (h : Lacks 0 0 0 c) (f : InFrame) (hn : c.Announces f.header.streamId) :
    Lacks 0 0 0 (handleHeaders H f c) := by
  unfold handleHeaders
  by_cases hid : f.header.streamId = 0 ∨ f.header.streamId % 2 = 0
  · rw [if_pos hid]
    exact h.connError _
  · rw [if_neg hid]
    have hodd : f.header.streamId % 2 = 1 := by omega
    split
    · exact h.connError _
    · next frag selfDep hfrag =>
      have h1 : Lacks 0 0 0 { c with headerBlock := frag } := h.of_core rfl rfl
      have h2 := (classifyHeaders_path hf hodd selfDep
        (f.header.has flagEndStream) (c := { c with headerBlock := frag }) hn).lacks h1
      split
      · next c1 hc => rw [hc] at h2; exact h2
      · next c1 refuse hc =>
        rw [hc] at h2
        unfold headersComplete
        split
        · exact (answerRefusal_path hf _ _ _).lacks (finishHeaders_lacks hf h2 _ _)
        · exact h2.of_core rfl rfl

theorem handleContinuation_lacks (h : Lacks 0 0 0 c) (f : InFrame) :
    Lacks 0 0 0 (handleContinuation H f c) := by
  unfold handleContinuation
  split
  · exact h.connError _
  · have h1 : Lacks 0 0 0 (c.noteControlFrame 1) := (frameMoves_noteControlFrame c 1).lacks h
    generalize c.noteControlFrame 1 = c1 at h1
    dsimp only
    split
    · exact h1
    · split
      · exact h1.connError _
      · have h2 : Lacks 0 0 0 { c1 with headerBlock := c1.headerBlock ++ f.payload } :=
          h1.of_core rfl rfl
        split
        · refine (answerRefusal_path hf _ _ _).lacks (finishHeaders_lacks hf ?_ _ _)
          exact h2.of_core rfl rfl
        · exact h2

theorem handleFrame_owing (h : Lacks 0 0 0 c) (f : InFrame) (hl : c.lastFrame = some f) :
    Owing 0 0 0 (handleFrame H f c) := by
  have hk : ∀ a b, Settles a b → Kept a b := fun _ _ h => h.kept
  unfold handleFrame
  split
  · exact h.abandon _
  · split
    · exact .inl ((handlePriorityUpdate_path f c).lacks h)
    · split
      · exact .inl ((frameMoves_noteControlFrame c 1).lacks h)
      · exact handleData_owing hf h f
      · next ht => exact .inl (handleHeaders_lacks hf h f ⟨f, hl, ht, rfl⟩)
      · exact .inl (handleContinuation_lacks hf h f)
      · exact .inl ((handleSettings_path hf hk f c).lacks h)
      · exact .inl ((handlePing_path f c).lacks h)
      · exact .inl ((handleWindowUpdate_path hf hk f c).lacks h)
      · exact .inl ((handleRstStream_path hf f c).lacks h)
      · exact .inl ((handlePriority_path hf f c).lacks h)
      · exact .inl ((handleGoaway_path f c).lacks h)
      · exact h.abandon _

theorem feedFrame_owing (h : Lacks 0 0 0 c) (f : InFrame) (rest : Bytes) :
    Owing 0 0 0 (feedFrame H f rest c) := by
  have h1 : Lacks 0 0 0 { c with sawFirstFrame := true } := h.of_core rfl rfl
  have h2 : Lacks 0 0 0 { c with rbuf := rest, sawFirstFrame := true } := h.of_core rfl rfl
  unfold feedFrame
  split_ifs
  · exact h1.abandon _
  · exact handleFrame_owing hf (h2.note (fun _ => rfl) (fun _ => rfl)) f (lastFrame_received _ f)

theorem feedStep_owing {c' : Conn} (h : Owing 0 0 0 c) (hs : feedStep H c = some c') :
    Owing 0 0 0 c' := by
  have hread : ∀ rest {k l sid : ℕ}, Lacks k l sid c → Lacks k l sid { c with rbuf := rest } :=
    fun rest _ _ _ h => h.of_core rfl rfl
  have herror : ∀ err, Owing 0 0 0 (c.connError err) := by
    intro err
    rcases h with h | ⟨-, _, _, _, h⟩
    · exact h.abandon err
    · exact h.abandon err
  unfold feedStep at hs
  split_ifs at hs with h1 h2 h3 h4 h5
  · rw [← Option.some.inj hs]
    rcases h with h | ⟨hc, k, l, sid, h⟩
    · exact .inl (hread _ h).preface
    · exact .inr ⟨(closing_finishPreface _).trans hc, k, l, sid, (hread _ h).preface⟩
  · rw [← Option.some.inj hs]
    exact herror _
  · rw [← Option.some.inj hs]
    exact herror _
  · split at hs
    · cases hs
    · rw [← Option.some.inj hs]
      exact feedFrame_owing hf (h.lacks (by simpa using h4)) _ _

end Data

/-! ### Runs -/

theorem lacks_newH2Conn (cfg : Config) : Lacks 0 0 0 (newH2Conn cfg) where
  sound :=
    { stream := fun _ _ h => by cases h
      opened := fun _ _ h => by cases h
      unused := fun _ _ => ⟨rfl, rfl⟩ }
  known := .inl rfl
  conn := by simp [Conn.recvTotal, newH2Conn]
  stream := fun _ _ h => by cases h

theorem Reachable.owing (hW : W.Obeys Call.KeepsCredit)
    (h : Reachable (W.hooks n) Call.KeepsCredit cfg c) : Owing 0 0 0 c := by
  have hf := World.fire_settles hW n
  induction h with
  | start => exact .inl (lacks_newH2Conn cfg)
  | @step c i _ hi ih =>
    cases i with
    | bytes b =>
      rcases ih with ih | ⟨hc, k, l, sid, ih⟩
      · exact .inl (ih.of_core rfl rfl)
      · exact .inr ⟨hc, k, l, sid, ih.of_core rfl rfl⟩
    | feed =>
      unfold Http2.step
      cases hs : feedStep (W.hooks n) c with
      | none => exact ih
      | some c' => exact feedStep_owing hf ih hs
    | call k => exact ih.settles (Call.settles hf hi)

/-- **Receive-window conservation.**  In every run whose calls acknowledge no more than was
delivered and register no auto-acknowledging sink on a request that is not streamed and has
bytes buffered, wherever they are made from, and in every state between two events of a live
connection: what is left of the connection window, the credit owed and the credit deferred on
the open streams add up to the advertised window, and so do the accounts of every open stream
whose client may still send. -/
theorem recvWindow_conserved (hW : W.Obeys Call.KeepsCredit)
    (h : Reachable (W.hooks n) Call.KeepsCredit cfg c) (hc : c.closing = false) :
    c.connRecvRemaining + c.pendingConnWindow + (c.streams.total Stream.connDeferred : ℕ) =
        c.connRecvWindow ∧
      ∀ sid st, c.stream? sid = some st → st.endStreamSeen = false →
        st.recvRemaining + st.pendingWindow + st.connDeferred = c.streamRecvWindow := by
  have hl := (h.owing hW).lacks hc
  refine ⟨by simpa [Conn.recvTotal] using hl.conn, fun sid st hs he => ?_⟩
  simpa [Stream.recvTotal] using (hl.stream sid st hs).eq he

/-- A streamed upload whose sink acknowledges by hand. -/
def ackedUpload : List Input :=
  feedInputs [.headers 1 postBlock false true, .data 1 (ascii "abc") false] ++
    [.call (.onBody 1 0 true)]

theorem ackedUpload_reachable : Reachable ((idleWorld true).hooks 0) Call.KeepsCredit smallConfig
    (step ((idleWorld true).hooks 0) (runOn true ackedUpload) (.call (.ackBody 1 2))) := by
  refine Reachable.step _ (runOn_reachable true ackedUpload ?_)
    ⟨fun _ => by decide +kernel, trivial⟩
  intro k c hk
  simp only [ackedUpload, feedInputs, List.mem_append, List.mem_cons, List.mem_replicate,
    List.not_mem_nil, reduceCtorEq, and_false, or_false, false_or, Input.call.injEq] at hk
  subst hk
  exact ⟨trivial, fun _ _ => .inl rfl⟩

/-- Three bytes delivered, two of them acknowledged: the accounts add up. -/
theorem recvWindow_conserved_ackedUpload :
    let c := step ((idleWorld true).hooks 0) (runOn true ackedUpload) (.call (.ackBody 1 2))
    c.connRecvRemaining + c.pendingConnWindow + (c.streams.total Stream.connDeferred : ℕ) =
        c.connRecvWindow ∧
      ∀ sid st, c.stream? sid = some st → st.endStreamSeen = false →
        st.recvRemaining + st.pendingWindow + st.connDeferred = c.streamRecvWindow :=
  recvWindow_conserved (idleWorld_obeys true _) ackedUpload_reachable (by decide +kernel)

/-- A request that is buffered, then handed to an auto-acknowledging sink. -/
def bufferedUpload : List Input :=
  feedInputs [.headers 1 postBlock false true, .data 1 (ascii "a") true] ++
    [.call (.onBody 1 0 false)]

/-- Its byte was credited on receipt and is credited again on delivery: the connection window
the client is told exceeds the one advertised. -/
theorem recvWindow_overgranted : ∃ c,
    Reachable ((idleWorld false).hooks 0) Call.AcksDelivered smallConfig c ∧ c.closing = false ∧
      c.connRecvRemaining + c.pendingConnWindow + (c.streams.total Stream.connDeferred : ℕ) =
        c.connRecvWindow + 1 := by
  refine ⟨runOn false bufferedUpload, runOn_reachable false bufferedUpload ?_, by decide +kernel,
    by decide +kernel⟩
  intro k c hk
  simp only [bufferedUpload, feedInputs, List.mem_append, List.mem_cons, List.mem_replicate,
    List.not_mem_nil, reduceCtorEq, and_false, or_false, false_or, Input.call.injEq] at hk
  subst hk
  exact trivial

/-- **Credit is never over-granted.**  In every run whose calls acknowledge no more than was
delivered to a sink that acknowledges by hand, and register no auto-acknowledging sink on a request
that is not streamed and has bytes buffered, in every state between two events, closing or not:
what is left of the connection window, the credit owed and the credit deferred on the open streams
never exceed the advertised window, and what is left of a stream's window and the credit owed to it
never exceed the advertised one. -/
theorem recvCredit_never_exceeds (hW : W.Obeys Call.KeepsCredit)
    (h : Reachable (W.hooks n) Call.KeepsCredit cfg c) :
    c.connRecvRemaining + c.pendingConnWindow + (c.streams.total Stream.connDeferred : ℕ) ≤
        c.connRecvWindow ∧
      ∀ sid st, c.stream? sid = some st →
        st.recvRemaining + st.pendingWindow ≤ c.streamRecvWindow := by
  obtain ⟨k, l, sid, hl⟩ : ∃ k l sid, Lacks k l sid c := by
    rcases h.owing hW with h | ⟨-, h⟩
    · exact ⟨0, 0, 0, h⟩
    · exact h
  refine ⟨?_, fun s st hs => ?_⟩
  · have hconn := hl.conn
    unfold Conn.recvTotal at hconn
    omega
  · have hle := (hl.stream s st hs).le
    unfold Stream.recvTotal at hle
    omega

theorem recvCredit_never_exceeds_ackedUpload :
    let c := step ((idleWorld true).hooks 0) (runOn true ackedUpload) (.call (.ackBody 1 2))
    c.connRecvRemaining + c.pendingConnWindow + (c.streams.total Stream.connDeferred : ℕ) ≤
        c.connRecvWindow ∧
      ∀ sid st, c.stream? sid = some st →
        st.recvRemaining + st.pendingWindow ≤ c.streamRecvWindow :=
  recvCredit_never_exceeds (idleWorld_obeys true _) ackedUpload_reachable

/-- A streamed upload whose sink acknowledges by itself, and a call of `ackBody` for the bytes it
was handed. -/
def twiceAckedUpload : List Input :=
  feedInputs [.headers 1 postBlock false true, .data 1 (ascii "abc") false] ++
    [.call (.onBody 1 0 false), .call (.ackBody 1 3)]

/-- The bytes are credited on delivery and again on the call: both windows are over-granted. -/
theorem recvCredit_twiceAcked : ∃ c st,
    Reachable ((idleWorld true).hooks 0) anyCall smallConfig c ∧ c.stream? 1 = some st ∧
      st.bodyManualAck = false ∧
      c.connRecvRemaining + c.pendingConnWindow + (c.streams.total Stream.connDeferred : ℕ) =
        c.connRecvWindow + 3 ∧
      st.recvRemaining + st.pendingWindow = c.streamRecvWindow + 3 := by
  have hrun : ((runOn true twiceAckedUpload).stream? 1).map (fun st =>
      (st.bodyManualAck, st.recvRemaining + (st.pendingWindow : ℤ))) =
        some (false, ((runOn true twiceAckedUpload).streamRecvWindow : ℤ) + 3) := by
    decide +kernel
  obtain ⟨st, hst, he⟩ := Option.map_eq_some_iff.mp hrun
  obtain ⟨hauto, hsum⟩ := Prod.mk.inj he
  exact ⟨runOn true twiceAckedUpload, st, runOn_reachable true _ (fun _ _ _ => trivial), hst, hauto,
    by decide +kernel, hsum⟩

end Vortex.Http2
