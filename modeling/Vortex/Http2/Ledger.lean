import Vortex.Http2.ReadPaths
import Vortex.Http2.Journal

/-! # The accounts of a connection

What a connection accounts for over a whole run, apart from request bytes: the send windows, the
flood budgets, the stream ids announced and refused, the size of the peer's header table, and the
journal.  Seen from these accounts the pieces of a run consist of a few kinds of entries
(`Entry`); everything else they do is `Entry.other`.  An invariant of the accounts has to be
checked on the entries only.

DATA frames are entered in bursts: the frames cut in one go from a producer's buffer, with the one
note of the progress they make.  That a burst fits its windows as a whole is known while no window
has left its 32-bit range; `Conn.Ranged` says so, and every entry keeps it. -/

namespace Vortex.Http2

open Relation

variable {a b c : Conn} {ok : Call → Conn → Prop} {W : World} {n : ℕ}

/-! ### Entries -/

/-- The accounts kept on the connection. -/
structure Ledger where
  cfg : Config
  connSendWindow : ℤ
  peerMaxFrame : MaxFrame
  peerInitialWindow : ℤ
  lastStreamId : ℕ
  goingAway : Bool
  goawayLastId : ℕ
  drainNoticeSent : Bool
  rstStreamCount : ℕ
  controlFrameCount : ℕ
  dataSinceDecay : ℕ
  windowCredit : ℕ
  windowCreditBytes : ℕ
  encTableMax : ℕ
  pendingTableSizeUpdate : Option ℕ
  ready : List ℕ
  closing : Bool
  journal : List Event

def Conn.ledger (c : Conn) : Ledger where
  cfg := c.cfg
  connSendWindow := c.connSendWindow
  peerMaxFrame := c.peerMaxFrame
  peerInitialWindow := c.peerInitialWindow
  lastStreamId := c.lastStreamId
  goingAway := c.goingAway
  goawayLastId := c.goawayLastId
  drainNoticeSent := c.drainNoticeSent
  rstStreamCount := c.rstStreamCount
  controlFrameCount := c.controlFrameCount
  dataSinceDecay := c.dataSinceDecay
  windowCredit := c.windowCredit
  windowCreditBytes := c.windowCreditBytes
  encTableMax := c.encTableMax
  pendingTableSizeUpdate := c.pendingTableSizeUpdate
  ready := c.ready
  closing := c.closing
  journal := c.journal

/-- The number of bytes of a burst. -/
def burstSize (chunks : List Bytes) : ℕ := (chunks.map List.length).sum

/-- DATA frames are sent and their bytes taken off both send windows. -/
def Conn.sendData (c : Conn) (sid : ℕ) (chunks : List Bytes) (last : Bool) : Conn :=
  { (c.sendAll (chunks.map (fun x => .data sid x last))).modify sid (fun st => { st with
      sendWindow := int32 (st.sendWindow - burstSize chunks) }) with
    connSendWindow := int32 (c.connSendWindow - burstSize chunks) }

/-- DATA frames are sent, and their progress is noted. -/
def Conn.burst (c : Conn) (sid : ℕ) (chunks : List Bytes) (last : Bool) : Conn :=
  (c.sendData sid chunks last).noteDataProgress (burstSize chunks) chunks.length

/-- The burst fits the peer's frame size and, as a whole, both send windows. -/
structure Conn.Allows (c : Conn) (sid : ℕ) (st : Stream) (chunks : List Bytes) : Prop where
  stream : c.stream? sid = some st
  chunk : ∀ x ∈ chunks, x ≠ [] ∧ x.length ≤ (c.peerMaxFrame : ℕ)
  conn : (burstSize chunks : ℤ) ≤ c.connSendWindow
  window : (burstSize chunks : ℤ) ≤ st.sendWindow

/-- The new initial window is on record, before the open streams are adjusted to it. -/
def Conn.setInitial (c : Conn) (value : ℕ) : Conn :=
  Conn.note { c with peerInitialWindow := value } (.initialWindow value)

/-- The range of a window. -/
abbrev InRange (w : ℤ) : Prop := -2 ^ 31 ≤ w ∧ w < 2 ^ 31

/-- The entries that need not be taken apart. -/
inductive Basic : Conn → Conn → Prop
  | note (c : Conn) {e : Event} (he : e.isFree = true) : Basic c (c.note e)
  | bareEnd (c : Conn) (sid : ℕ) : Basic c (c.sendEnd sid)
  | block (c : Conn) (sid : ℕ) (fields : Bytes) (es : Bool) (hf : FieldBytes fields) :
      Basic c (c.emitBlock sid fields es)
  | charge (c : Conn) (n : ℕ) : Basic c (c.noteControlFrame n)
  | spend {c : Conn} (h : 0 < c.windowCredit) :
      Basic c (Conn.note { c with windowCredit := c.windowCredit - 1 } .creditSpent)
  | error (c : Conn) (err : ErrCode) : Basic c (c.connError err)
  | countReset (c : Conn) : Basic c c.countReset
  | openNew {c : Conn} {sid : ℕ} (h : c.lastStreamId < sid) (hodd : sid % 2 = 1)
      (hg : c.goingAway = false) (hn : c.Announces sid) :
      Basic c (Conn.openStream { c with lastStreamId := sid } sid)
  | refuse {c : Conn} {sid : ℕ} (h : c.lastStreamId < sid) (hn : c.Announces sid) :
      Basic c { c with lastStreamId := sid }
  | connCredit {c : Conn} (inc : ℕ) (h : c.connSendWindow + inc ≤ 0x7fffffff) :
      Basic c (Conn.note { c with connSendWindow := int32 (c.connSendWindow + inc) }
        (.connCredit inc))
  | streamCredit {c : Conn} {sid : ℕ} {st : Stream} (hs : c.stream? sid = some st) (inc : ℕ)
      (h : st.sendWindow + inc ≤ 0x7fffffff) :
      Basic c ((c.note (.streamCredit sid inc)).modify sid (fun st => { st with
        sendWindow := int32 (st.sendWindow + inc) }))
  | maxFrame (c : Conn) (m : MaxFrame) :
      Basic c (Conn.note { c with peerMaxFrame := m } (.maxFrame m))
  | tableSize (c : Conn) (value : ℕ) : Basic c (c.applyTableSize value)

/-- One entry in the accounts. -/
inductive Entry : Conn → Conn → Prop
  | basic {a b : Conn} (h : Basic a b) : Entry a b
  | other {a b : Conn} (hl : b.ledger = a.ledger) (hs : ∀ s st', b.stream? s = some st' →
      ∃ st, a.stream? s = some st ∧ st'.sendWindow = st.sendWindow) : Entry a b
  | burst {c : Conn} {sid : ℕ} {st : Stream} {chunks : List Bytes} (last : Bool)
      (h : c.Allows sid st chunks) : Entry c (c.burst sid chunks last)
  | goawayNotice (c : Conn) : Entry c c.h2GoawayNotice
  | goaway (c : Conn) (err : ErrCode) : Entry c (c.h2Goaway err)
  | dispatch {c : Conn} {sid : ℕ} {st : Stream} (hs : c.stream? sid = some st)
      (hd : st.dispatched = false) : Entry c (c.dispatch sid)
  | initialWindow {a b : Conn} {value : ℕ} (hv : value ≤ 0x7fffffff)
      (hl : b.ledger = (a.setInitial value).ledger) (hs : ∀ s st', b.stream? s = some st' →
        ∃ st, a.stream? s = some st ∧ InRange st'.sendWindow ∧
          st'.sendWindow = st.sendWindow + int32 (value - a.peerInitialWindow)) : Entry a b
  | initialWindowFailed {a b : Conn} {value : ℕ} (hv : value ≤ 0x7fffffff)
      (hl : b.ledger = ((a.setInitial value).connError .errFlowControl).ledger)
      (hs : ∀ s st', b.stream? s = some st' → ∃ st, a.stream? s = some st ∧
        (st'.sendWindow = st.sendWindow ∨ InRange st'.sendWindow)) : Entry a b

/-- Sequences of entries. -/
abbrev Entries : Conn → Conn → Prop := ReflTransGen Entry

theorem Entry.entries (h : Entry a b) : Entries a b := .single h

theorem Basic.entries (h : Basic a b) : Entries a b := .single (.basic h)

/-- No send window has left its range, and the connection's is not negative. -/
structure Conn.Ranged (c : Conn) : Prop where
  conn : 0 ≤ c.connSendWindow ∧ c.connSendWindow < 2 ^ 31
  initial : 0 ≤ c.peerInitialWindow ∧ c.peerInitialWindow < 2 ^ 31
  stream : ∀ s st, c.stream? s = some st → InRange st.sendWindow

namespace Entries

variable {a b c : Conn} {sid : ℕ} {f : Stream → Stream}

theorem trans (h1 : Entries a b) (h2 : Entries b c) : Entries a c := ReflTransGen.trans h1 h2

theorem of_streams (hl : b.ledger = a.ledger) (hs : b.streams = a.streams) : Entries a b :=
  .single (.other hl (fun s st h => ⟨st, by rw [← h]; simp only [Conn.stream?, hs], rfl⟩))

theorem of_updates (hl : b.ledger = a.ledger) (hu : Updates a b sid f)
    (hf : ∀ st, a.stream? sid = some st → (f st).sendWindow = st.sendWindow) : Entries a b := by
  refine .single (.other hl ?_)
  exact hu.forall_stream (P := fun s st' => ∃ st, a.stream? s = some st ∧
    st'.sendWindow = st.sendWindow) (fun st hs => ⟨st, hs, hf st hs⟩)
    (fun s st _ hs => ⟨st, hs, rfl⟩)

theorem modify (c : Conn) (sid : ℕ) (hf : ∀ st : Stream, (f st).sendWindow = st.sendWindow) :
    Entries c (c.modify sid f) :=
  of_updates rfl (.modify c sid f) (fun st _ => hf st)

theorem note (c : Conn) {e : Event} (he : e.isFree = true) : Entries c (c.note e) :=
  (Basic.note c he).entries

theorem send (c : Conn) {f : Frame} (he : (Event.sent f).isFree = true) : Entries c (c.send f) :=
  note c he

theorem of_gone (sid : ℕ) (hl : b.ledger = a.ledger)
    (hs : ∀ s, b.stream? s = if s = sid then none else a.stream? s) : Entries a b := by
  refine .single (.other hl (fun s st h => ?_))
  rw [hs s] at h
  split_ifs at h
  exact ⟨st, h, rfl⟩

end Entries

/-! ### Postings -/

/-- What an entry is made of, without the branches of the operations. -/
inductive Posting : Conn → Conn → Prop
  | basic {a b : Conn} (h : Basic a b) : Posting a b
  | other {a b : Conn} (hl : b.ledger = a.ledger) (hs : ∀ s st', b.stream? s = some st' →
      ∃ st, a.stream? s = some st ∧ (st'.sendWindow = st.sendWindow ∨ InRange st'.sendWindow)) :
      Posting a b
  | burst {c : Conn} {sid : ℕ} {st : Stream} {chunks : List Bytes} (last : Bool)
      (h : c.Allows sid st chunks) {k d w y : ℕ} (he : c.burst sid chunks last =
        { c.sendData sid chunks last with
          controlFrameCount := k, dataSinceDecay := d, windowCredit := w, windowCreditBytes := y }) :
      Posting c { c.sendData sid chunks last with
        controlFrameCount := k, dataSinceDecay := d, windowCredit := w, windowCreditBytes := y }
  | goawayNotice {c : Conn} (hg : c.goingAway = false) : Posting c
      (Conn.send { c with drainNoticeSent := true } (.goaway goawayMaxStreamId .errNoError))
  | goaway {c : Conn} (hg : c.goingAway = false) (err : ErrCode) : Posting c
      (Conn.send { c with goingAway := true, goawayLastId := c.lastStreamId }
        (.goaway c.lastStreamId err))
  | dispatch {c : Conn} {sid : ℕ} {st : Stream} (hs : c.stream? sid = some st) :
      Posting c { c.note (.dispatched sid st.body.length) with ready := c.ready ++ [sid] }
  | setInitial (c : Conn) {value : ℕ} (hv : value ≤ 0x7fffffff) : Posting c (c.setInitial value)

section Posting

variable {I : Conn → Prop} {a b c : Conn}

theorem noteDataProgress_eq (c : Conn) (n frames : ℕ) : ∃ k d w y, c.noteDataProgress n frames =
    { c with
      controlFrameCount := k, dataSinceDecay := d, windowCredit := w, windowCreditBytes := y } := by
  unfold Conn.noteDataProgress
  dsimp only
  split_ifs <;> exact ⟨_, _, _, _, rfl⟩

/-- A charge is noted, and the connection fails if it was too much. -/
theorem noteControlFrame_kept (he : ∀ c err, I c → I (c.connError err))
    (h : I (Conn.note { c with controlFrameCount := c.controlFrameCount + n } (.charged n))) :
    I (c.noteControlFrame n) := by
  unfold Conn.noteControlFrame
  dsimp only
  split_ifs
  · exact he _ _ h
  · exact h

theorem countReset_kept (he : ∀ c err, I c → I (c.connError err))
    (h : I { c with rstStreamCount := c.rstStreamCount + 1 }) : I c.countReset := by
  unfold Conn.countReset
  dsimp only
  split_ifs
  · exact he _ _ h
  · exact h

theorem Entry.kept (hI : ∀ a b, Posting a b → I a → I b) (h : Entry a b) (ha : I a) : I b := by
  cases h with
  | basic h => exact hI _ _ (.basic h) ha
  | other hl hs =>
    exact hI _ _ (.other hl fun s st' h => (hs s st' h).imp fun _ h => ⟨h.1, .inl h.2⟩) ha
  | @burst sid st chunks last h =>
    obtain ⟨k, d, w, y, e⟩ := noteDataProgress_eq (a.sendData sid chunks last) (burstSize chunks)
      chunks.length
    exact Eq.subst e.symm (hI _ _ (.burst last h e) ha)
  | goawayNotice =>
    unfold Conn.h2GoawayNotice
    split_ifs with hg
    · exact ha
    · exact hI _ _ (.goawayNotice (by simp_all)) ha
  | goaway err =>
    unfold Conn.h2Goaway
    split_ifs with hg
    · exact ha
    · exact hI _ _ (.goaway (by simpa using hg) err) ha
  | @dispatch sid st hs hd =>
    have e : a.noteDispatch sid = a.note (.dispatched sid st.body.length) := by
      unfold Conn.noteDispatch
      rw [hs]
    refine hI _ _ (.other ?_ fun s st' h => ?_) (hI _ _ (.dispatch hs) ha)
    · unfold Conn.dispatch
      rw [e]
      rfl
    · have hu : Updates (a.noteDispatch sid) (a.dispatch sid) sid
        (fun st => { st with dispatched := true }) := .of_streams rfl
      rw [e] at hu
      exact hu.forall_stream (P := fun s st' => ∃ st, a.stream? s = some st ∧
        (st'.sendWindow = st.sendWindow ∨ InRange st'.sendWindow))
        (fun st' h => ⟨st', h, .inl rfl⟩) (fun s st' _ h => ⟨st', h, .inl rfl⟩) s st' h
  | initialWindow hv hl hs =>
    exact hI _ _ (.other hl fun s st' h => (hs s st' h).imp fun _ h => ⟨h.1, .inr h.2.1⟩)
      (hI _ _ (.setInitial a hv) ha)
  | @initialWindowFailed _ value hv hl hs =>
    refine hI _ _ (.other hl fun s st' h => ?_)
      (hI _ _ (.basic (.error _ .errFlowControl)) (hI _ _ (.setInitial a hv) ha))
    rw [Conn.stream?, Conn.streams_connError]
    exact hs s st' h

end Posting

/-! ### Operations -/

section Operations

variable (c : Conn) (sid : ℕ)

theorem entries_recordEarlyClosed : Entries c (c.recordEarlyClosed sid) := by
  have hn : Entries c (c.note (.closedEarly sid)) := .note c rfl
  unfold Conn.recordEarlyClosed
  dsimp only
  split_ifs
  · exact .refl
  · exact hn.trans (Entries.of_streams rfl rfl)
  · exact hn.trans (Entries.of_streams rfl rfl)

theorem entries_creditConn (n : ℕ) : Entries c (c.creditConn n) := by
  unfold Conn.creditConn
  dsimp only
  split_ifs
  · exact .refl
  · exact (Entries.send c rfl).trans (Entries.of_streams rfl rfl)
  · exact .of_streams rfl rfl

theorem entries_creditStream (n : ℕ) : Entries c (c.creditStream sid n) := by
  unfold Conn.creditStream
  split
  · exact .refl
  · dsimp only
    split_ifs
    · exact .refl
    · exact (Entries.send c rfl).trans (Entries.modify _ sid (fun _ => rfl))
    · exact .modify _ sid (fun _ => rfl)

theorem entries_creditConnFor (n : ℕ) : Entries c (c.creditConnFor sid n) := by
  unfold Conn.creditConnFor
  split_ifs
  · exact .refl
  · refine ReflTransGen.trans ?_ (entries_creditConn _ n)
    exact Entries.modify c sid (fun _ => rfl)

theorem entries_detachStream : Entries c (c.detachStream sid) := by
  unfold Conn.detachStream
  cases hs : c.stream? sid with
  | none => exact .refl
  | some st =>
    have h1 : Entries c (if st.endStreamSeen then c else c.recordEarlyClosed sid) := by
      split_ifs
      · exact .refl
      · exact entries_recordEarlyClosed c sid
    refine (h1.trans (entries_creditConn _ st.connDeferred)).trans ?_
    dsimp only
    generalize (if st.endStreamSeen then c else c.recordEarlyClosed sid).creditConn
      st.connDeferred = d
    refine ReflTransGen.trans ?_ (Entries.note _ rfl)
    exact Entries.of_gone sid rfl (fun s => Table.lookup_erase_ite _ _ _)

theorem entries_syncSendState : Entries c (c.syncSendState sid) := by
  refine .of_updates ?_ (updates_syncSendState c sid) (fun _ _ => rfl)
  unfold Conn.syncSendState
  split <;> rfl

theorem entries_noteEndStream : Entries c (c.noteEndStream sid) := by
  refine .of_updates ?_ (updates_noteEndStream c sid) (fun _ _ => rfl)
  unfold Conn.noteEndStream
  split <;> rfl

theorem entries_releaseBuffered : Entries c (c.releaseBuffered sid) := by
  refine .of_updates ?_ (updates_releaseBuffered c sid) (fun _ _ => rfl)
  unfold Conn.releaseBuffered
  split <;> rfl

theorem entries_takeBody : Entries c (c.takeBody sid) := .modify c sid (fun _ => rfl)

theorem entries_storeSink (cb : ℕ) (manualAck : Bool) : Entries c (c.storeSink sid cb manualAck) :=
  (Entries.note c rfl).trans (Entries.modify _ sid (fun _ => rfl))

theorem entries_deliver (cb : ℕ) (st : Stream) (last : Bool) :
    Entries c (c.deliver sid cb st last) := by
  unfold Conn.deliver
  split_ifs
  · exact ((entries_takeBody c sid).trans (Entries.note _ rfl)).trans (Entries.note _ rfl)
  · exact (entries_takeBody c sid).trans (Entries.note _ rfl)

theorem entries_noteIdleWindowUpdate : Entries c c.noteIdleWindowUpdate := by
  unfold Conn.noteIdleWindowUpdate
  split_ifs with h
  · exact (Basic.spend h).entries
  · exact (Basic.charge c 1).entries

/-- An error closes the connection and announces the last id it answers for. -/
theorem ledger_connError (err : ErrCode) : (c.connError err).ledger = { c.ledger with
    goingAway := true
    goawayLastId := c.goawayLast
    closing := true
    journal := c.journal ++ [.sent (.goaway c.goawayLast err)] } := by
  unfold Conn.connError Conn.goawayLast
  cases hg : c.goingAway <;> simp [Conn.ledger, Conn.send, Conn.note, hg]

theorem ledger_connError_congr (h : b.ledger = a.ledger) (err : ErrCode) :
    (b.connError err).ledger = (a.connError err).ledger := by
  have hlast : b.goawayLast = a.goawayLast := by
    unfold Conn.goawayLast
    rw [show b.goingAway = a.goingAway from congrArg Ledger.goingAway h,
      show b.goawayLastId = a.goawayLastId from congrArg Ledger.goawayLastId h,
      show b.lastStreamId = a.lastStreamId from congrArg Ledger.lastStreamId h]
  rw [ledger_connError, ledger_connError, h, hlast,
    show b.journal = a.journal from congrArg Ledger.journal h]

/-- The open streams are adjusted to a new initial window, one by one, until one overflows. -/
theorem shiftWindows_streams (delta : ℤ) (l : List ℕ) (hl : l.Nodup) (c : Conn) :
    (∀ c', shiftWindows delta l c = .ok c' → c'.ledger = c.ledger ∧
      ∀ s st', c'.stream? s = some st' → ∃ st, c.stream? s = some st ∧
        (s ∉ l → st'.sendWindow = st.sendWindow) ∧
        (s ∈ l → InRange st'.sendWindow ∧ st'.sendWindow = st.sendWindow + delta)) ∧
      ∀ c', shiftWindows delta l c = .error c' →
        c'.ledger = (c.connError .errFlowControl).ledger ∧
        ∀ s st', c'.stream? s = some st' → ∃ st, c.stream? s = some st ∧
          (st'.sendWindow = st.sendWindow ∨ InRange st'.sendWindow) := by
  induction l generalizing c with
  | nil =>
    refine ⟨fun c' h => ?_, fun c' h => by cases h⟩
    rw [← Except.ok.inj h]
    exact ⟨rfl, fun s st hs => ⟨st, hs, fun _ => rfl, fun hm => by cases hm⟩⟩
  | cons sid rest ih =>
    obtain ⟨hsid, hrest⟩ := List.nodup_cons.mp hl
    unfold shiftWindows
    cases hs : c.stream? sid with
    | none =>
      refine ⟨fun c' h => ?_, fun c' h => (ih hrest c).2 c' h⟩
      obtain ⟨hv, hst⟩ := (ih hrest c).1 c' h
      refine ⟨hv, fun s st' h' => ?_⟩
      obtain ⟨st, hs', hout, hin⟩ := hst s st' h'
      refine ⟨st, hs', fun hm => hout (fun h => hm (List.mem_cons_of_mem _ h)), fun hm => ?_⟩
      rcases List.mem_cons.mp hm with rfl | hm
      · rw [hs] at hs'
        cases hs'
      · exact hin hm
    | some st =>
      dsimp only
      split_ifs with hn
      · refine ⟨fun c' h => (by cases h), fun c' h => ?_⟩
        rw [← Except.error.inj h]
        refine ⟨rfl, fun s st' h' => ⟨st', ?_, .inl rfl⟩⟩
        rwa [Conn.stream?, Conn.streams_connError] at h'
      · have hu := (Updates.modify c sid (fun st' => { st' with
          sendWindow := st.sendWindow + delta })).trans (updates_syncSendState _ sid)
        have hv : ((c.modify sid (fun st' => { st' with
            sendWindow := st.sendWindow + delta })).syncSendState sid).ledger = c.ledger := by
          unfold Conn.syncSendState
          split <;> rfl
        generalize (c.modify sid (fun st' => { st' with
          sendWindow := st.sendWindow + delta })).syncSendState sid = d at hu hv
        refine ⟨fun c' h => ?_, fun c' h => ?_⟩
        · obtain ⟨hv', hst⟩ := (ih hrest d).1 c' h
          refine ⟨hv'.trans hv, fun s st' h' => ?_⟩
          obtain ⟨st1, hs1, hout, hin⟩ := hst s st' h'
          rw [hu s] at hs1
          by_cases e : s = sid
          · subst e
            rw [if_pos rfl, hs] at hs1
            obtain rfl := Option.some.inj hs1
            have hw : st'.sendWindow = st.sendWindow + delta := hout hsid
            exact ⟨st, hs, fun hm => absurd List.mem_cons_self hm,
              fun _ => ⟨by omega, hw⟩⟩
          · rw [if_neg e] at hs1
            refine ⟨st1, hs1, fun hm => hout (fun h => hm (List.mem_cons_of_mem _ h)),
              fun hm => hin ?_⟩
            exact (List.mem_cons.mp hm).resolve_left e
        · obtain ⟨hv', hst⟩ := (ih hrest d).2 c' h
          refine ⟨hv'.trans (ledger_connError_congr hv _), fun s st' h' => ?_⟩
          obtain ⟨st1, hs1, hw⟩ := hst s st' h'
          rw [hu s] at hs1
          by_cases e : s = sid
          · subst e
            rw [if_pos rfl, hs] at hs1
            obtain rfl := Option.some.inj hs1
            refine ⟨st, hs, .inr (hw.elim (fun hw => ?_) id)⟩
            change st'.sendWindow = st.sendWindow + delta at hw
            omega
          · rw [if_neg e] at hs1
            exact ⟨st1, hs1, hw⟩

theorem entries_applyInitialWindow (H : Hooks) (value : ℕ) :
    Entries c (outcome id (applyInitialWindow H value c)) := by
  unfold applyInitialWindow
  split_ifs with hv
  · exact (Basic.error c _).entries
  · have hv' : value ≤ 0x7fffffff := by omega
    obtain ⟨hperm⟩ : Nonempty ((H.order (c.setInitial value)).1.Perm c.streams.keys) :=
      ⟨(H.order (c.setInitial value)).2⟩
    have hmem : ∀ s st, c.stream? s = some st → s ∈ (H.order (c.setInitial value)).1 := by
      intro s st hs
      rw [hperm.mem_iff, ← AList.mem_keys, ← AList.lookup_isSome]
      exact Option.isSome_of_eq_some hs
    obtain ⟨hok, herr⟩ := shiftWindows_streams (int32 (value - c.peerInitialWindow))
      (H.order (c.setInitial value)).1 (hperm.nodup_iff.mpr c.streams.keys_nodup)
      (c.setInitial value)
    change Entries c (outcome id (shiftWindows (int32 (value - c.peerInitialWindow))
      (H.order (c.setInitial value)).1 (c.setInitial value)))
    cases h : shiftWindows (int32 (value - c.peerInitialWindow))
      (H.order (c.setInitial value)).1 (c.setInitial value) with
    | error c' =>
      obtain ⟨hl, hs⟩ := herr c' h
      exact (Entry.initialWindowFailed hv' hl hs).entries
    | ok c' =>
      obtain ⟨hl, hs⟩ := hok c' h
      refine (Entry.initialWindow hv' hl (fun s st' hst' => ?_)).entries
      obtain ⟨st, hst, -, hin⟩ := hs s st' hst'
      exact ⟨st, hst, hin (hmem s st hst)⟩

theorem entries_applySetting (H : Hooks) (key value : ℕ) :
    Entries c (outcome id (applySetting H key value c)) := by
  unfold applySetting
  split_ifs with h1 h2 h3
  · exact entries_applyInitialWindow c H value
  · exact (Basic.maxFrame c ⟨value, h3⟩).entries
  · exact (Basic.error _ _).entries
  · exact (Basic.error _ _).entries
  · exact .refl
  · exact (Basic.tableSize c value).entries
  · exact .refl

theorem entries_applySettings (H : Hooks) (entries : List (ℕ × ℕ)) :
    Entries c (outcome id (applySettings H entries c)) :=
  rel_applySettings (fun _ => .refl) .trans (fun key value c => entries_applySetting c H key value)
    entries c

theorem entries_absorbAfterReset (n : ℕ) (es : Bool) :
    Entries c (c.absorbAfterReset sid n es).1 := by
  unfold Conn.absorbAfterReset
  split
  · exact .refl
  · dsimp only
    split_ifs <;> exact Entries.of_streams rfl rfl

theorem entries_dropWsStream : Entries c (c.dropWsStream sid) := by
  unfold Conn.dropWsStream
  split
  · exact .refl
  · refine ReflTransGen.trans ?_ (Entries.note _ rfl)
    exact Entries.of_gone sid rfl (fun s => Table.lookup_erase_ite _ _ _)

theorem entries_finishPreface : Entries c c.finishPreface := by
  have h1 : Entries c { c with prefaceDone := true } := .of_streams rfl rfl
  unfold Conn.finishPreface
  rcases sendOurSettings_cases { c with prefaceDone := true } with h | h <;> rw [h]
  · exact h1.trans (Entries.send _ rfl)
  · exact (h1.trans (Entries.send _ rfl)).trans (Entries.send _ rfl)

end Operations

/-! ### Bursts -/

section Bursts

variable {c : Conn} {sid : ℕ} {st : Stream} {chunks : List Bytes} {last : Bool}

theorem int32_int32_sub (x y : ℤ) : int32 (int32 x - y) = int32 (x - y) := Int.bmod_sub_bmod

@[simp] theorem burstSize_nil : burstSize [] = 0 := rfl

@[simp] theorem burstSize_cons (x : Bytes) (xs : List Bytes) :
    burstSize (x :: xs) = x.length + burstSize xs := rfl

theorem updates_sendData : Updates c (c.sendData sid chunks last) sid (fun st => { st with
    sendWindow := int32 (st.sendWindow - burstSize chunks) }) := Updates.of_streams rfl

theorem sendData_cons (x : Bytes) (xs : List Bytes) :
    (c.sendData sid [x] last).sendData sid xs last = c.sendData sid (x :: xs) last := by
  have hsub : ∀ w : ℤ, int32 (int32 (w - (x.length + 0 : ℕ)) - (burstSize xs : ℕ)) =
      int32 (w - (x.length + burstSize xs : ℕ)) := by
    intro w
    rw [int32_int32_sub]
    congr 1
    push_cast
    ring
  simp only [Conn.sendData, Conn.sendAll, Conn.modify, Table.modify_modify, burstSize_cons,
    burstSize_nil, hsub, List.map_cons, List.map_nil, List.append_assoc, List.cons_append,
    List.nil_append]

theorem stream_sendData (h : c.Allows sid st chunks) : (c.sendData sid chunks last).stream? sid =
      some { st with sendWindow := int32 (st.sendWindow - burstSize chunks) } := by
  rw [updates_sendData sid, if_pos rfl, h.stream]
  rfl

theorem Conn.Ranged.sub_conn (hr : c.Ranged) (h : c.Allows sid st chunks) :
    int32 (c.connSendWindow - burstSize chunks) = c.connSendWindow - burstSize chunks := by
  have h1 := hr.conn
  have h2 := h.conn
  exact int32_of_range (by omega) (by omega)

theorem Conn.Ranged.sub_stream (hr : c.Ranged) (h : c.Allows sid st chunks) :
    int32 (st.sendWindow - burstSize chunks) = st.sendWindow - burstSize chunks := by
  have h1 := hr.stream sid st h.stream
  have h2 := h.window
  exact int32_of_range (by omega) (by omega)

theorem Conn.Ranged.sendData (hr : c.Ranged) (h : c.Allows sid st chunks) :
    (c.sendData sid chunks last).Ranged where
  conn := by
    have h1 := hr.conn
    have h2 := h.conn
    change 0 ≤ int32 _ ∧ int32 _ < 2 ^ 31
    rw [hr.sub_conn h]
    omega
  initial := hr.initial
  stream := by
    refine updates_sendData.forall_stream (fun st' hs => ?_) (fun s st' _ hs => hr.stream s st' hs)
    obtain rfl := Option.some.inj (hs.symm.trans h.stream)
    have h1 := hr.stream sid st' hs
    have h2 := h.window
    dsimp only
    rw [hr.sub_stream h]
    omega

theorem Conn.Allows.cons {x : Bytes} {xs : List Bytes} {st' : Stream} (hr : c.Ranged)
    (h : c.Allows sid st [x]) (hs : (c.sendData sid [x] last).Allows sid st' xs) :
    c.Allows sid st (x :: xs) where
  stream := h.stream
  chunk := by
    intro y hy
    rcases List.mem_cons.mp hy with rfl | hy
    · exact h.chunk y (List.mem_singleton_self y)
    · exact hs.chunk y hy
  conn := by
    have h1 : (burstSize xs : ℤ) ≤ int32 _ := hs.conn
    rw [hr.sub_conn h] at h1
    simp only [burstSize_cons, burstSize_nil] at h1 ⊢
    omega
  window := by
    have h1 := hs.window
    obtain rfl := Option.some.inj ((stream_sendData h).symm.trans hs.stream)
    dsimp only at h1
    rw [hr.sub_stream h] at h1
    simp only [burstSize_cons, burstSize_nil] at h1 ⊢
    omega

/-- What flow control leaves of `data` is a burst of one frame. -/
theorem allows_take {data : Bytes} (hs : c.stream? sid = some st)
    (hsize : (n : ℤ) = c.chunkSize st data.length) (hpos : 0 < n) :
    c.Allows sid st [data.take n] ∧ (data.take n).length = n := by
  unfold Conn.chunkSize at hsize
  have hlen : (data.take n).length = n := by rw [List.length_take]; omega
  refine ⟨⟨hs, ?_, ?_, ?_⟩, hlen⟩
  · intro x hx
    obtain rfl := List.mem_singleton.mp hx
    refine ⟨fun e => ?_, by omega⟩
    rw [e] at hlen
    exact absurd hlen (by simp only [List.length_nil]; omega)
  · simp only [burstSize_cons, burstSize_nil, hlen]
    omega
  · simp only [burstSize_cons, burstSize_nil, hlen]
    omega

theorem DirectState.CanSend.allows {s : DirectState} (h : s.CanSend sid st n) :
    s.c.Allows sid st [s.rest.take n] ∧ (s.rest.take n).length = n :=
  allows_take h.stream h.size h.pos

theorem DirectState.CanSend.next_c {s : DirectState} (h : s.CanSend sid st n) :
    (s.next sid n).c = s.c.sendData sid [s.rest.take n] false := by
  simp only [Conn.sendData, burstSize_cons, burstSize_nil, h.allows.2]
  rfl

theorem burst_directLoop (sid : ℕ) (s : DirectState) (hr : s.c.Ranged) :
    (directLoop sid).run s = s ∨ ∃ st chunks, s.c.Allows sid st chunks ∧ chunks ≠ [] ∧
      ((directLoop sid).run s).c = s.c.sendData sid chunks false ∧
      ((directLoop sid).run s).off = s.off + burstSize chunks ∧
      ((directLoop sid).run s).frames = s.frames + chunks.length := by
  revert hr
  refine directLoop_induction sid (P := fun s r => s.c.Ranged → r = s ∨ ∃ st chunks,
    s.c.Allows sid st chunks ∧ chunks ≠ [] ∧ r.c = s.c.sendData sid chunks false ∧
    r.off = s.off + burstSize chunks ∧ r.frames = s.frames + chunks.length)
    (fun s _ => .inl rfl) (fun s r st n h ih hr => .inr ?_) s
  obtain ⟨ha, hlen⟩ := h.allows
  have hc := h.next_c
  have hr' : (s.next sid n).c.Ranged := by rw [hc]; exact hr.sendData ha
  rcases ih hr' with rfl | ⟨st', xs, ha', -, hcs, hoff, hframes⟩
  · refine ⟨st, [s.rest.take n], ha, by simp, hc, ?_, rfl⟩
    simp [DirectState.next, hlen]
  · rw [hc] at ha' hcs
    refine ⟨st, s.rest.take n :: xs, ha.cons hr ha', by simp, ?_, ?_, ?_⟩
    · rw [hcs, sendData_cons]
    · rw [hoff, burstSize_cons, hlen]
      simp only [DirectState.next]
      omega
    · rw [hframes, List.length_cons]
      simp only [DirectState.next]
      omega

theorem Conn.Allows.size_pos (h : c.Allows sid st chunks) (hne : chunks ≠ []) :
    0 < burstSize chunks := by
  obtain ⟨x, xs, rfl⟩ := List.exists_cons_of_ne_nil hne
  have hx := List.length_pos_iff.mpr (h.chunk x List.mem_cons_self).1
  rw [burstSize_cons]
  omega

theorem noteDataProgress_streams (s : Table ℕ Stream) (n frames : ℕ) :
    Conn.noteDataProgress { c with streams := s } n frames =
      { c.noteDataProgress n frames with streams := s } := by
  unfold Conn.noteDataProgress
  dsimp only
  split_ifs <;> rfl

theorem Conn.CanSend.allows (hs : c.stream? sid = some st) (h : c.CanSend st n last) :
    c.Allows sid st [st.unsent.take n] ∧ (st.unsent.take n).length = n := by
  refine allows_take hs ?_ h.pos
  rw [h.size]
  simp [Stream.unsent, Stream.backlog]

/-! ### Windows stay in their range -/

theorem Conn.Ranged.of_streams (hr : a.Ranged)
    (hw : b.connSendWindow = a.connSendWindow) (hi : b.peerInitialWindow = a.peerInitialWindow)
    (hs : b.streams = a.streams) : b.Ranged where
  conn := hw ▸ hr.conn
  initial := hi ▸ hr.initial
  stream := by
    unfold Conn.stream?
    rw [hs]
    exact hr.stream

theorem Conn.Ranged.connError (hr : c.Ranged) (err : ErrCode) : (c.connError err).Ranged := by
  refine hr.of_streams ?_ ?_ (Conn.streams_connError c err) <;>
  · unfold Conn.connError
    split_ifs <;> rfl

theorem Conn.Ranged.of_ledger (hr : a.Ranged) (hl : b.ledger = a.ledger)
    (hs : ∀ s st', b.stream? s = some st' → ∃ st, a.stream? s = some st ∧
      (st'.sendWindow = st.sendWindow ∨ InRange st'.sendWindow)) : b.Ranged where
  conn := by
    rw [show b.connSendWindow = a.connSendWindow from congrArg Ledger.connSendWindow hl]
    exact hr.conn
  initial := by
    rw [show b.peerInitialWindow = a.peerInitialWindow from congrArg Ledger.peerInitialWindow hl]
    exact hr.initial
  stream s st' hst' := by
    obtain ⟨st, hst, h | h⟩ := hs s st' hst'
    · rw [h]
      exact hr.stream s st hst
    · exact h

theorem Conn.Ranged.openStream (hr : c.Ranged) (sid : ℕ) : (c.openStream sid).Ranged := by
  have hstream := @stream_openStream c sid
  obtain ⟨u, i, p, e⟩ := openStream_eq c sid
  rw [e] at hstream ⊢
  refine ⟨hr.conn, hr.initial, fun s st hs => ?_⟩
  rcases hstream hs with ⟨-, u, i, rfl⟩ | ⟨-, hs⟩
  · have h := hr.initial
    change InRange c.peerInitialWindow
    omega
  · exact hr.stream s st hs

theorem Posting.ranged (h : Posting a b) (hr : a.Ranged) : b.Ranged := by
  cases h with
  | basic h =>
    cases h with
    | charge n =>
      exact noteControlFrame_kept (fun _ err h => h.connError err) (hr.of_streams rfl rfl rfl)
    | error err => exact hr.connError err
    | countReset => exact countReset_kept (fun _ err h => h.connError err) (hr.of_streams rfl rfl rfl)
    | openNew h hodd hg =>
      refine Conn.Ranged.openStream (Conn.Ranged.of_streams hr ?_ ?_ ?_) _ <;> rfl
    | connCredit inc h =>
      refine ⟨?_, hr.initial, hr.stream⟩
      have h1 := hr.conn
      change 0 ≤ int32 _ ∧ int32 _ < 2 ^ 31
      rw [int32_of_range (by omega) (by omega)]
      omega
    | @streamCredit sid st hs inc h =>
      refine ⟨hr.conn, hr.initial, ?_⟩
      refine (Updates.modify (a.note (.streamCredit sid inc)) sid (fun st => { st with
        sendWindow := int32 (st.sendWindow + inc) })).forall_stream (fun st' hs' => ?_)
        (fun s st' _ h => hr.stream s st' h)
      obtain rfl := Option.some.inj (hs.symm.trans hs')
      have h1 := hr.stream sid st hs
      dsimp only
      rw [int32_of_range (by omega) (by omega)]
      omega
    | tableSize value =>
      unfold Conn.applyTableSize
      dsimp only
      split_ifs <;> exact hr.of_streams rfl rfl rfl
    | _ => exact hr.of_streams rfl rfl rfl
  | other hl hs => exact hr.of_ledger hl hs
  | burst last h => exact (hr.sendData h).of_streams rfl rfl rfl
  | @setInitial value hv =>
    refine ⟨hr.conn, ?_, hr.stream⟩
    change 0 ≤ (value : ℤ) ∧ (value : ℤ) < 2 ^ 31
    omega
  | _ => exact hr.of_streams rfl rfl rfl

theorem Entry.ranged (h : Entry a b) (hr : a.Ranged) : b.Ranged :=
  h.kept (fun _ _ hp => hp.ranged) hr

theorem Entries.ranged (h : Entries a b) (hr : a.Ranged) : b.Ranged := by
  induction h with
  | refl => exact hr
  | tail _ h ih => exact h.ranged ih

theorem entries_h2WriteDirect (hr : c.Ranged) (sid : ℕ) (data : Bytes) :
    Entries c (c.h2WriteDirect sid data).1 := by
  unfold Conn.h2WriteDirect
  cases hs : c.stream? sid with
  | none => exact .refl
  | some st =>
    dsimp only
    by_cases hq : (st.ws.isSome || st.hasBacklog || c.h2NextUrgency.isSome) = true
    · rw [if_pos hq]
    · rw [if_neg hq]
      rcases burst_directLoop sid { c := c, rest := data } hr with
        h | ⟨st', chunks, ha, hne, hc, hoff, hframes⟩
      · rw [h, if_neg (lt_irrefl 0)]
      · have hpos : 0 + burstSize chunks > 0 := by
          have := ha.size_pos hne
          omega
        rw [hc, hoff, hframes, if_pos hpos, Nat.zero_add, Nat.zero_add]
        exact (Entry.burst false ha).entries.trans (entries_syncSendState _ sid)

theorem entries_sendChunk (hs : c.stream? sid = some st) (h : c.CanSend st n last) :
    Entries c (c.sendChunk sid st n last) := by
  obtain ⟨ha, hlen⟩ := h.allows hs
  have hsize : burstSize [st.unsent.take n] = n := by
    rw [burstSize_cons, burstSize_nil, hlen, Nat.add_zero]
  refine (Entry.burst last ha).entries.trans ?_
  let d : Conn := { c.send (.data sid (st.unsent.take n) last) with
    connSendWindow := int32 (c.connSendWindow - n) }
  have hburst : c.burst sid [st.unsent.take n] last = { d.noteDataProgress n 1 with
      streams := c.streams.modify sid (fun st => { st with
        sendWindow := int32 (st.sendWindow - n) }) } := by
    rw [← noteDataProgress_streams]
    unfold Conn.burst Conn.sendData
    rw [hsize]
    rfl
  have hchunk : c.sendChunk sid st n last = Conn.syncSendState (Conn.modify
      { d.noteDataProgress n 1 with streams := c.streams.modify sid (fun st => { st with
        pendingPos := st.pendingPos + n, sendWindow := int32 (st.sendWindow - n) }) } sid
      Stream.compactPendingBody) sid := by
    rw [← noteDataProgress_streams]
    rfl
  rw [hburst, hchunk]
  refine ReflTransGen.trans ?_ (entries_syncSendState _ sid)
  let f : Stream → Stream := fun st =>
    Stream.compactPendingBody { st with pendingPos := st.pendingPos + n }
  have hf : ∀ st : Stream, (f st).sendWindow = st.sendWindow :=
    fun st => Stream.sendWindow_of_bare (bare_compactPendingBody _).1
  refine Entries.of_updates rfl (Updates.of_streams ?_ : Updates _ _ sid f) (fun st _ => hf st)
  change Table.modify _ _ (Table.modify _ _ _) = Table.modify _ _ (Table.modify _ _ _)
  rw [Table.modify_modify, Table.modify_modify]

end Bursts

/-! ### The pieces of a run -/

variable {o : Option ℕ} {cfg : Config}

section Pieces

variable {a b c : Conn} {sid : ℕ}

theorem ledger_of_bare (h : b.bare = a.bare) : b.ledger = a.ledger := by
  have e := congrArg Conn.ledger h
  exact e

theorem Stroke.entries (h : Stroke a b) (hr : a.Ranged) : Entries a b := by
  cases h with
  | note ho hf => exact .note a hf
  | other hv hs => exact .of_streams (ledger_of_bare hv) hs
  | update hv hs hf =>
    exact .of_updates (ledger_of_bare hv) (.of_streams hs)
      (fun st _ => Stream.sendWindow_of_bare (hf st).1)
  | synced hf =>
    refine ReflTransGen.trans ?_ (entries_syncSendState _ _)
    exact Entries.modify a _ (fun st => Stream.sendWindow_of_bare (hf st))
  | block sid hf es => exact (Basic.block a sid _ es hf).entries
  | bareEnd sid => exact (Basic.bareEnd a sid).entries
  | chunk hs hn => exact entries_sendChunk hs hn
  | direct sid data => exact entries_h2WriteDirect hr sid data
  | setBackedUp sid =>
    refine .of_updates ?_ (updates_setBackedUp a sid) (fun _ _ => rfl)
    unfold Conn.setBackedUp
    split <;> rfl
  | clearBackedUp sid =>
    refine .of_updates ?_ (updates_clearBackedUp a sid) (fun _ _ => rfl)
    unfold Conn.clearBackedUp
    split <;> rfl
  | detach sid => exact entries_detachStream a sid
  | attachWs hs hw => exact .modify a _ (fun _ => rfl)
  | goawayNotice => exact (Entry.goawayNotice a).entries
  | goaway err => exact (Entry.goaway a err).entries

theorem Strokes.entries (h : Strokes a b) (hr : a.Ranged) : Entries a b := by
  induction h with
  | refl => exact .refl
  | tail _ h ih => exact ih.trans (h.entries (ih.ranged hr))

theorem Entries.strokes (h : Entries a b) (hr : a.Ranged) (hs : Strokes b c) : Entries a c :=
  h.trans (hs.entries (h.ranged hr))

theorem SinkAtom.entries (h : SinkAtom a b) : Entries a b := by
  cases h with
  | creditConn n => exact entries_creditConn a n
  | creditStream sid n => exact entries_creditStream a sid n
  | acked hs hr n =>
    exact ((Entries.note a rfl).trans (entries_creditStream _ _ n)).trans
      (entries_creditConnFor _ _ n)
  | deliver hs hcb hb => exact entries_deliver _ _ _ _ _

theorem CallAtom.entries (h : CallAtom ok o a b) (hr : a.Ranged) : Entries a b := by
  cases h with
  | app h | drain hk h => exact h.strokes.entries hr
  | sink h => exact h.entries
  | sinkSet hs hk => exact entries_storeSink _ _ _ _
  | sinkTold hs hk he => exact (entries_storeSink _ _ _ _).trans (entries_deliver _ _ _ _ _)

theorem RequestMove.entries (h : RequestMove a b) (hr : a.Ranged) : Entries a b := by
  cases h with
  | debit => exact .of_streams rfl rfl
  | record sid hf => exact .modify a sid fun st => congrArg ResponseView.sendWindow (hf st).1
  | count sid n => exact .of_updates rfl (.of_streams rfl) (fun _ _ => rfl)
  | ended => exact entries_noteEndStream _ _
  | release => exact entries_releaseBuffered _ _
  | dispatch hs hd => exact (Entry.dispatch hs hd).entries
  | note he => exact .note a he
  | reset => exact (Strokes.reset _ _ _).entries hr

theorem RequestMoves.entries (h : RequestMoves a b) (hr : a.Ranged) : Entries a b := by
  induction h with
  | refl => exact .refl
  | tail _ h ih => exact ih.trans (RequestMove.entries h (ih.ranged hr))

theorem FrameAtom.entries (h : FrameAtom o a b) (hr : a.Ranged) : Entries a b := by
  have hmoves : RequestMoves a b → Entries a b := fun h => h.entries hr
  cases h with
  | error c err => exact (Basic.error a err).entries
  | settings H entries h hn =>
    have h1 := entries_applySettings a H entries
    rw [h] at h1
    exact h1.trans (Entries.send _ rfl)
  | settingsWindow H entries h =>
    have h1 := entries_applySettings a H entries
    rw [h] at h1
    exact (h1.trans (Entries.send _ rfl)).strokes hr (strokes_enqueueBacklog _ _)
  | settingsFailed H entries h =>
    have h1 := entries_applySettings a H entries
    rw [h] at h1
    exact h1
  | pingAck c payload => exact .send _ rfl
  | charge c n => exact (Basic.charge a n).entries
  | idleUpdate c => exact entries_noteIdleWindowUpdate a
  | countReset c => exact (Basic.countReset a).entries
  | absorb c sid n es => exact entries_absorbAfterReset a sid n es
  | forgetReset | peerGone | bufferPriority => exact .of_streams rfl rfl
  | reprioritize c sid field => exact .modify _ _ (fun _ => rfl)
  | head H h es hd => exact hmoves (.trans (requestMoves_headed ..) hd.requestMoves)
  | headMismatch H h es hd =>
    exact hmoves (.tail (.trans (requestMoves_headed ..) hd.requestMoves) (.reset ..))
  | trailers hs hh hn fields hd =>
    exact hmoves (.trans (requestMoves_addTrailers ..) hd.requestMoves)
  | trailersMismatch hs hh fields hd =>
    exact hmoves (.tail (.trans (requestMoves_addTrailers ..) hd.requestMoves) (.reset ..))
  | openNew h hodd hg hn => exact (Basic.openNew h hodd hg hn).entries
  | refuse h hn => exact (Basic.refuse h hn).entries
  | refuseEarly h hn => exact (Basic.refuse h hn).entries.trans (entries_recordEarlyClosed _ _)
  | forgetBoth | forgetEarly => exact .of_streams rfl rfl
  | connCredit inc h => exact (Basic.connCredit inc h).entries
  | streamCredit hs inc h =>
    exact ((Basic.streamCredit hs inc h).entries.trans (entries_syncSendState _ _)).strokes hr
      (.h2Enqueue _ _)

theorem BlockAtom.entries (h : BlockAtom a b) : Entries a b := by
  cases h with
  | fragment | decoded => exact .of_streams rfl rfl
  | @failed d e h =>
    have h1 : Entries a { a with decoder := d } := .of_streams rfl rfl
    exact h1.trans (Basic.error _ _).entries
  | await | append | complete => exact .of_streams rfl rfl

theorem HandleAtom.entries (h : HandleAtom ok o a b) (hr : a.Ranged) : Entries a b := by
  cases h with
  | call h | frame h => exact h.entries hr
  | body h => exact h.requestMoves.entries hr
  | block h => exact h.entries

/-- **The pieces of calls and of frame handlers are entries in the accounts.** -/
theorem Piece.entries (h : Piece (HandleAtom ok) a b) (hr : a.Ranged) : Entries a b := by
  cases h with
  | atom h => exact h.entries hr
  | finish h | closeBegin h => exact h.strokes.entries hr
  | fired cb => exact .note _ rfl
  | wsDrop hw => exact entries_dropWsStream _ _

end Pieces

/-! ### Calls, frames and events -/

/-- The second state comes from the first by entries. -/
def Posts (a b : Conn) : Prop := a.Ranged → Entries a b

theorem Posts.refl (c : Conn) : Posts c c := fun _ => .refl

theorem Posts.trans (h1 : Posts a b) (h2 : Posts b c) : Posts a c :=
  fun hr => (h1 hr).trans (h2 ((h1 hr).ranged hr))

/-- What the code of the application does: the read side is kept, and the accounts get entries. -/
structure Behaves (a b : Conn) : Prop where
  kept : Kept a b
  posts : Posts a b

theorem Path.posts {ok : Call → Conn → Prop} (h : Path (HandleAtom ok) Behaves a b) : Posts a b :=
  h.rel_pieces Posts.refl (fun _ _ _ => Posts.trans) (fun _ _ h => h.entries) @Behaves.posts
    @Behaves.kept

/-- The frame `f` was taken off the receive buffer, and `rest` is left. -/
def Conn.arrived (c : Conn) (f : InFrame) (rest : Bytes) : Conn :=
  Conn.note { c with rbuf := rest, sawFirstFrame := true } (.received f)

section Events

variable {W : World} {ok : Call → Conn → Prop} (hW : W.Obeys ok) {c : Conn}

include hW

theorem World.fire_posts (n : ℕ) (cb : Callback) (c : Conn) :
    Behaves c ((W.hooks n).fire cb c) := by
  refine World.fire_rel hW (R := Behaves) (fun c => ⟨.refl c, .refl c⟩)
    (fun a b c h1 h2 => ⟨h1.1.trans h2.1, h1.2.trans h2.2⟩) ?_ n cb c
  intro H k c hf hok
  have hp := Call.run_path hf @Behaves.kept hok
  exact ⟨Path.kept_call @Behaves.kept hp, hp.ofCall.posts⟩

theorem call_entries (n : ℕ) {k : Call} (hk : ok k c) (hr : c.Ranged) :
    Entries c (k.run (W.hooks n) c) :=
  (Call.run_path (World.fire_posts hW n) @Behaves.kept hk).ofCall.posts hr

theorem handleFrame_entries (n : ℕ) {f : InFrame} (hc : c.Reading) (hl : c.lastFrame = some f)
    (hr : c.Ranged) : Entries c (handleFrame (W.hooks n) f c) := by
  have hp : Path (HandleAtom ok) Behaves c (handleFrame (W.hooks n) f c) :=
    handleFrame_path (World.fire_posts hW n) @Behaves.kept f hc hl
  exact hp.posts hr

end Events

theorem nextFrame_streamId {rbuf rest : Bytes} {f : InFrame} (h : nextFrame rbuf = some (f, rest)) :
    f.header.streamId < 2 ^ 31 := by
  unfold nextFrame at h
  dsimp only at h
  split_ifs at h
  obtain ⟨rfl, -⟩ := Prod.mk.inj (Option.some.inj h)
  exact Nat.mod_lt _ (by decide)

/-- A frame is read and handled, from the state `c` to the state `c'`. -/
structure Handles (H : Hooks) (f : InFrame) (rest : Bytes) (c c' : Conn) : Prop where
  next : nextFrame c.rbuf = some (f, rest)
  going : c.closing = false
  eq : c' = handleFrame H f (c.arrived f rest)

theorem step_cases (hW : W.Obeys ok) (n : ℕ) {i : Input} (hi : i.Permitted ok c) (hr : c.Ranged) :
    Entries c (step (W.hooks n) c i) ∨
      ∃ f rest, Handles (W.hooks n) f rest c (step (W.hooks n) c i) := by
  cases i with
  | bytes b => exact .inl (Entries.of_streams rfl rfl)
  | call k => exact .inl (call_entries hW n hi hr)
  | feed =>
    unfold step
    cases hs : feedStep (W.hooks n) c with
    | none => exact .inl .refl
    | some c' =>
      change Entries c c' ∨ ∃ f rest, Handles (W.hooks n) f rest c c'
      have hread : ∀ rest, Entries c { c with rbuf := rest } :=
        fun rest => .of_streams rfl rfl
      unfold feedStep at hs
      split_ifs at hs with h1 h2 h3 h4 h5
      · obtain rfl := Option.some.inj hs
        exact .inl ((hread _).trans (entries_finishPreface _))
      · obtain rfl := Option.some.inj hs
        exact .inl (Basic.error c _).entries
      · obtain rfl := Option.some.inj hs
        exact .inl (Basic.error c _).entries
      · split at hs
        · cases hs
        · next f rest hn =>
          obtain rfl := Option.some.inj hs
          have hc : c.closing = false := by simpa using h4
          unfold feedFrame
          split_ifs with h6
          · refine .inl (ReflTransGen.trans ?_ (Basic.error _ _).entries)
            exact Entries.of_streams rfl rfl
          · exact .inr ⟨f, rest, hn, hc, rfl⟩

/-! ### Accounts over whole runs -/

theorem ranged_newH2Conn (cfg : Config) : (newH2Conn cfg).Ranged where
  conn := by
    change (0 : ℤ) ≤ 65535 ∧ (65535 : ℤ) < 2 ^ 31
    decide
  initial := by
    change (0 : ℤ) ≤ 65535 ∧ (65535 : ℤ) < 2 ^ 31
    decide
  stream s st h := by cases h

theorem Conn.Ranged.arrived (hr : c.Ranged) (f : InFrame) (rest : Bytes) :
    (c.arrived f rest).Ranged := hr.of_streams rfl rfl rfl

theorem lastFrame_arrived (c : Conn) (f : InFrame) (rest : Bytes) :
    (c.arrived f rest).lastFrame = some f := lastFrame_received _ f

/-- A frame that is read and handled makes entries after its arrival. -/
theorem Handles.entries (hW : W.Obeys ok)
    {f : InFrame} {rest : Bytes} {c' : Conn} (h : Handles (W.hooks n) f rest c c')
    (hc : c.Reading) (hr : c.Ranged) : Entries (c.arrived f rest) c' := by
  rw [h.eq]
  exact handleFrame_entries hW n hc (lastFrame_arrived c f rest) (hr.arrived f rest)

theorem Reachable.ranged (hW : W.Obeys ok) (h : Reachable (W.hooks n) ok cfg c) : c.Ranged := by
  induction h with
  | start => exact ranged_newH2Conn cfg
  | @step c i hc hi ih =>
    rcases step_cases hW n hi ih with he | ⟨f, rest, hh⟩
    · exact he.ranged ih
    · exact (hh.entries hW (hc.reading hW) ih).ranged (ih.arrived f rest)

/-! ### Frames that announced streams -/

/-- The last id announced does not go back, and no frame arrives. -/
structure Follows (a b : Conn) : Prop where
  last : a.lastStreamId ≤ b.lastStreamId
  journal : ∃ evs, b.journal = a.journal ++ evs ∧ ∀ e ∈ evs, e.received? = none

namespace Follows

variable {a b c : Conn}

theorem refl (c : Conn) : Follows c c := ⟨le_refl _, [], (List.append_nil _).symm, by simp⟩

theorem trans (h1 : Follows a b) (h2 : Follows b c) : Follows a c where
  last := h1.last.trans h2.last
  journal := by
    obtain ⟨evs1, hj1, he1⟩ := h1.journal
    obtain ⟨evs2, hj2, he2⟩ := h2.journal
    refine ⟨evs1 ++ evs2, by rw [hj2, hj1, List.append_assoc], fun e he => ?_⟩
    exact (List.mem_append.mp he).elim (he1 e) (he2 e)

theorem of_append {evs : List Event} (hl : a.lastStreamId ≤ b.lastStreamId)
    (hj : b.journal = a.journal ++ evs) (he : ∀ e ∈ evs, e.received? = none) : Follows a b :=
  ⟨hl, evs, hj, he⟩

theorem of_snoc {e : Event} (hl : a.lastStreamId ≤ b.lastStreamId) (hj : b.journal = a.journal ++ [e])
    (he : e.received? = none) : Follows a b :=
  of_append hl hj (fun _ hm => List.mem_singleton.mp hm ▸ he)

theorem of_same (hl : a.lastStreamId ≤ b.lastStreamId) (hj : b.journal = a.journal) : Follows a b :=
  of_append hl (by rw [hj, List.append_nil]) (fun _ hm => by cases hm)

theorem of_sent {fs : List Frame} (hl : a.lastStreamId ≤ b.lastStreamId)
    (hj : b.journal = a.journal ++ fs.map .sent) : Follows a b :=
  of_append hl hj (fun _ he => by obtain ⟨f, -, rfl⟩ := List.mem_map.mp he; rfl)

theorem connError (c : Conn) (err : ErrCode) : Follows c (c.connError err) :=
  of_snoc (congrArg Ledger.lastStreamId (ledger_connError c err)).ge
    (congrArg Ledger.journal (ledger_connError c err)) rfl

theorem received_eq (h : Follows a b) : received b.journal = received a.journal := by
  obtain ⟨evs, hj, he⟩ := h.journal
  have : received evs = [] := List.filterMap_eq_nil_iff.mpr he
  rw [hj, received_append, this, List.append_nil]

end Follows

theorem received_of_isFree {e : Event} (h : e.isFree = true) : e.received? = none := by
  cases e <;> first | rfl | cases h

/-- What was fixed when the connection was set up stays, and a connection that is failing stays
so. -/
theorem Posting.follows (h : Posting a b) :
    Follows a b ∧ b.cfg = a.cfg ∧ (a.closing = true → b.closing = true) := by
  have herror : ∀ c err, Follows a c ∧ c.cfg = a.cfg ∧ (a.closing = true → c.closing = true) →
      Follows a (c.connError err) ∧ (c.connError err).cfg = a.cfg ∧
        (a.closing = true → (c.connError err).closing = true) := fun c err h =>
    have hl := ledger_connError c err
    ⟨h.1.trans (.connError c err), (congrArg Ledger.cfg hl).trans h.2.1,
      fun _ => congrArg Ledger.closing hl⟩
  cases h with
  | basic h =>
    cases h with
    | note he => exact ⟨.of_snoc (le_refl _) rfl (received_of_isFree he), rfl, id⟩
    | charge n => exact noteControlFrame_kept herror ⟨.of_snoc (le_refl _) rfl rfl, rfl, id⟩
    | error err => exact herror a err ⟨.refl a, rfl, id⟩
    | countReset => exact countReset_kept herror ⟨.of_same (le_refl _) rfl, rfl, id⟩
    | @openNew sid h hodd hg hn =>
      obtain ⟨u, i, p, e⟩ := openStream_eq { a with lastStreamId := sid } sid
      rw [e]
      exact ⟨.of_snoc h.le rfl rfl, rfl, id⟩
    | refuse h hn => exact ⟨.of_same h.le rfl, rfl, id⟩
    | block => exact ⟨.of_sent (le_refl _) rfl, rfl, id⟩
    | tableSize value =>
      unfold Conn.applyTableSize
      dsimp only
      split_ifs <;> exact ⟨.of_snoc (le_refl _) rfl rfl, rfl, id⟩
    | _ => exact ⟨.of_snoc (le_refl _) rfl rfl, rfl, id⟩
  | other hl hs =>
    exact ⟨.of_same (congrArg Ledger.lastStreamId hl).ge (congrArg Ledger.journal hl),
      congrArg Ledger.cfg hl, (congrArg Ledger.closing hl).trans⟩
  | burst => exact ⟨.of_sent (le_refl _) rfl, rfl, id⟩
  | _ => exact ⟨.of_snoc (le_refl _) rfl rfl, rfl, id⟩

theorem Entry.follows (h : Entry a b) : Follows a b :=
  h.kept (I := Follows a) (fun _ _ hp hf => hf.trans hp.follows.1) (.refl a)

theorem Entry.cfg_eq (h : Entry a b) : b.cfg = a.cfg :=
  h.kept (I := fun c => c.cfg = a.cfg) (fun _ _ hp hc => hp.follows.2.1.trans hc) rfl

theorem Entry.open_of_open (h : Entry a b) (hb : b.closing = false) : a.closing = false := by
  cases ha : a.closing with
  | false => rfl
  | true =>
    have := h.kept (I := fun c => c.closing = true) (fun _ _ hp => hp.follows.2.2) ha
    exact absurd hb (by simp [this])

theorem Entries.open_of_open (h : Entries a b) (hb : b.closing = false) : a.closing = false := by
  induction h with
  | refl => exact hb
  | tail _ h ih => exact ih (h.open_of_open hb)

theorem Entries.follows (h : Entries a b) : Follows a b := by
  induction h with
  | refl => exact .refl a
  | tail _ h ih => exact ih.trans h.follows

/-- Every stream that was announced by a HEADERS frame is behind the last id on record. -/
def Conn.CaughtUp (c : Conn) : Prop :=
  c.closing = false → ∀ f ∈ received c.journal, FrameType.ofCode f.header.typ = some .ftHeaders →
    f.header.streamId ≤ c.lastStreamId

theorem Conn.CaughtUp.entries (h : a.CaughtUp) (he : Entries a b) : b.CaughtUp := by
  intro hb f hf ht
  rw [he.follows.received_eq] at hf
  exact (h (he.open_of_open hb) f hf ht).trans he.follows.last

section CaughtUp

variable {W : World} {ok : Call → Conn → Prop} (hW : W.Obeys ok) {n : ℕ} {c : Conn}

/-- What a path of frame handlers does to the ids and to the frames on record. -/
theorem Path.follows (hr : a.Ranged) (h : Path (HandleAtom ok) Behaves a b) : Follows a b :=
  (h.posts hr).follows

include hW

/-- The stream of a HEADERS frame is on record once the frame has been classified. -/
theorem classifyHeaders_last (ho : c.Opened) (hr : c.Ranged) (sid : ℕ) (selfDep es : Bool) :
    match classifyHeaders (W.hooks n) sid selfDep es c with
    | .error c' => c'.closing = true
    | .ok (c', _) => sid ≤ c'.lastStreamId := by
  unfold classifyHeaders
  cases hs : c.stream? sid with
  | some st =>
    have hle : sid ≤ c.lastStreamId := ho sid (by rw [hs]; rfl)
    have hp : Path (HandleAtom ok) Behaves c (refuseClosed (W.hooks n) sid c) :=
      (refuseClosed_path (World.fire_posts hW n) sid c).runs
    have hf := Path.follows hr hp
    dsimp only
    split_ifs with h1 h2 h3
    · rfl
    · exact h3
    · exact hle.trans hf.last
    · exact hle
  | none =>
    split_ifs with hl
    · exact hl
    · exact hl
    · rfl
    · unfold Conn.admitStream
      dsimp only
      split
      · obtain ⟨u, i, p, e⟩ := openStream_eq { c with lastStreamId := sid } sid
        rw [e]
      · exact le_refl sid
      · dsimp only
        split_ifs
        · exact (kept_recordEarlyClosed { c with lastStreamId := sid } sid).lastStreamId.ge
        · exact le_refl sid

/-- The stream of a HEADERS frame is on record once the frame has been handled. -/
theorem handleFrame_last {f : InFrame} (ht : FrameType.ofCode f.header.typ = some .ftHeaders)
    (ho : c.Opened) (hr : c.Ranged) (hl : c.lastFrame = some f) :
    (handleFrame (W.hooks n) f c).closing = true ∨
      f.header.streamId ≤ (handleFrame (W.hooks n) f c).lastStreamId := by
  have hfire := World.fire_posts hW n
  unfold handleFrame
  split_ifs with h1 h2
  · exact .inl rfl
  · rw [h2] at ht
    cases ht
  · rw [ht]
    unfold handleHeaders
    dsimp only
    split
    · exact .inl rfl
    · next hid =>
      have hodd : f.header.streamId % 2 = 1 := by omega
      split
      · exact .inl rfl
      · next frag selfDep hfrag =>
        have ho' : Conn.Opened { c with headerBlock := frag } := ho
        have hr' : Conn.Ranged { c with headerBlock := frag } := hr.of_streams rfl rfl rfl
        have hn : Conn.Announces { c with headerBlock := frag } f.header.streamId :=
          ⟨f, hl, ht, rfl⟩
        have hcl := classifyHeaders_last hW (n := n) ho' hr' f.header.streamId selfDep
          (f.header.has flagEndStream)
        have hp : Path (HandleAtom ok) Behaves _ _ :=
          (classifyHeaders_path hfire hodd selfDep (f.header.has flagEndStream) hn).runs
        split
        · next c1 hc =>
          rw [hc] at hcl
          exact .inl hcl
        · next c1 refuse hc =>
          rw [hc] at hcl hp
          have hr1 : c1.Ranged := (hp.posts hr').ranged hr'
          have hrest : Path (HandleAtom ok) Behaves c1
              (headersComplete (W.hooks n) f.header.streamId f refuse c1) := by
            unfold headersComplete
            split
            · exact (finishHeaders_path hfire _ _ _
                (classifyHeaders_going hfire @Behaves.kept hc)).trans
                (answerRefusal_path hfire _ _ _).runs
            · exact .single (.block (.await _ _ _ _))
          exact .inr (hcl.trans (Path.follows hr1 hrest).last)

end CaughtUp

theorem Reachable.opened (hW : W.Obeys ok) {c : Conn} (h : Reachable (W.hooks n) ok cfg c) :
    c.Opened :=
  h.invariant hW (opened_newH2Conn cfg) (fun _ _ hp => hp.opened)

/-- Between the events of a run, every stream that was announced is on record. -/
theorem Reachable.caughtUp (hW : W.Obeys ok) (h : Reachable (W.hooks n) ok cfg c) : c.CaughtUp := by
  induction h with
  | start => exact fun _ f hf => by cases hf
  | @step c i hc hi ih =>
    have hr := hc.ranged hW
    rcases step_cases hW n hi hr with he | ⟨f, rest, hh⟩
    · exact ih.entries he
    · have he := hh.entries hW (hc.reading hW) hr
      intro hopen g hg hg'
      rw [he.follows.received_eq] at hg
      rcases List.mem_append.mp (received_append c.journal [.received f] ▸ hg) with hg | hg
      · exact (ih hh.going g hg hg').trans he.follows.last
      · obtain rfl : g = f := List.mem_singleton.mp hg
        have ho : (c.arrived g rest).Opened := hc.opened hW
        rcases handleFrame_last hW (n := n) hg' ho (hr.arrived g rest)
          (lastFrame_arrived c g rest) with h' | h'
        · rw [← hh.eq, hopen] at h'
          cases h'
        · rwa [← hh.eq] at h'

/-- **The rule for accounts.**  What a new connection has, every entry keeps and every frame that
arrives keeps holds in every state reached. -/
theorem Reachable.accounts (hW : W.Obeys ok) {I : Conn → Prop}
    (h0 : I (newH2Conn cfg)) (hI : ∀ a b, Entry a b → a.Ranged → I a → I b)
    (hrecv : ∀ c f rest, c.closing = false → f.header.streamId < 2 ^ 31 → c.CaughtUp → I c →
      I (c.arrived f rest)) (h : Reachable (W.hooks n) ok cfg c) : I c := by
  have hI' : ∀ a b, Entries a b → a.Ranged → I a → I b := by
    intro a b he hr ha
    have : b.Ranged ∧ I b := by
      induction he with
      | refl => exact ⟨hr, ha⟩
      | tail _ h ih => exact ⟨h.ranged ih.1, hI _ _ h ih.1 ih.2⟩
    exact this.2
  induction h with
  | start => exact h0
  | @step c i hc hi ih =>
    have hr := hc.ranged hW
    rcases step_cases hW n hi hr with he | ⟨f, rest, hh⟩
    · exact hI' _ _ he hr ih
    · refine hI' _ _ (hh.entries hW (hc.reading hW) hr) (hr.arrived f rest) ?_
      exact hrecv c f rest hh.going (nextFrame_streamId hh.next) (hc.caughtUp hW) ih

theorem Reachable.cfg_eq (hW : W.Obeys ok) (h : Reachable (W.hooks n) ok cfg c) : c.cfg = cfg :=
  h.accounts hW (I := fun c => c.cfg = cfg) rfl (fun _ _ he _ ha => he.cfg_eq.trans ha)
    (fun _ _ _ _ _ _ ha => ha)

end Vortex.Http2
