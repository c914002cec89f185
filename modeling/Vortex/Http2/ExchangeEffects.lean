import Vortex.Http2.Exchange
import Vortex.Http2.ReadPaths

/-! # What the codec's operations do to exchanges

`Stream.exchange` is the exchange a stream stands for.  The operations of the codec are brought to
four forms, once: `Still` operations touch no exchange, `Effect sid g evs` operations update one and
leave events, `Removal sid evs` operations take one out of the table and an `Opening` begins one.

Queued response bytes are a buffer and a read position in it; an exchange only sees the bytes
behind the position.  `Placed` says that the position lies within the buffer, which compaction and
appending rely on. -/

namespace Vortex.Http2

open Relation FieldRules

/-! ### Streams as exchanges -/

/-- The exchange a stream stands for. -/
def Stream.exchange (st : Stream) : Exchange where
  headersDone := st.headersDone
  isWsConnect := st.isWsConnect
  isHead := st.isHead
  reqStreaming := st.reqStreaming
  contentLength := st.contentLength
  bodyReceived := st.bodyReceived
  body := st.body
  endStreamSeen := st.endStreamSeen
  dispatched := st.dispatched
  onBodyCb := st.onBodyCb
  responded := st.responded
  respPhase := st.respPhase
  respDeclaredLen := st.respDeclaredLen
  respBodyWritten := st.respBodyWritten
  unsent := st.unsent
  pendingIsLast := st.pendingIsLast
  respTrailers := st.respTrailers
  isWs := st.ws.isSome
  onRespDrain := st.onRespDrain
  respBackedUp := st.respBackedUp

/-- The read position lies within the queued bytes. -/
def Stream.Placed (st : Stream) : Prop := st.pendingPos ≤ st.pendingBody.length

/-- The events about exchanges. -/
def exchangeEvents (journal : List Event) : List Event :=
  journal.filter (fun e => e.stream?.isSome)

namespace Conn

/-- The exchange of the stream `sid`, if it is open. -/
def exchange? (c : Conn) (sid : ℕ) : Option Exchange := (c.stream? sid).map Stream.exchange

def Placed (c : Conn) : Prop := ∀ sid st, c.stream? sid = some st → st.Placed

/-- The part of the journal that is about the stream `sid`. -/
def history (c : Conn) (sid : ℕ) : List Event :=
  c.journal.filter (fun e => e.stream? = some sid)

/-- Where the exchange of the stream `sid` stands. -/
def life (c : Conn) (sid : ℕ) : Exchange.Life :=
  match c.exchange? sid with
  | some x => .live x
  | none => if sid ≤ c.lastStreamId then .gone else .idle

end Conn

/-- What exchanges need to know of a connection besides its streams. -/
structure ExchangeFrame where
  log : List Event
  lastStreamId : ℕ
  closeInProgress : Bool

def Conn.exchangeFrame (c : Conn) : ExchangeFrame where
  log := exchangeEvents c.journal
  lastStreamId := c.lastStreamId
  closeInProgress := c.closeInProgress

theorem Stream.exchange_compactPendingBody (st : Stream) (h : st.Placed) :
    st.compactPendingBody.exchange = st.exchange ∧ st.compactPendingBody.Placed := by
  unfold Stream.compactPendingBody
  dsimp only
  split_ifs with h0 h1 h2
  · exact ⟨rfl, h⟩
  · have he : st.unsent = [] := by
      exact List.drop_eq_nil_of_le (by omega)
    refine ⟨?_, Nat.le_refl _⟩
    rw [Stream.exchange, Stream.exchange, he]
    rfl
  · exact ⟨rfl, h⟩
  · exact ⟨by simp [Stream.exchange, Stream.unsent], Nat.zero_le _⟩

theorem Stream.exchange_isWs {st : Stream} : st.exchange.isWs = false ↔ st.ws = none := by
  unfold Stream.exchange
  cases st.ws <;> simp

theorem Stream.length_unsent (st : Stream) : st.unsent.length = st.backlog := by
  simp [Stream.unsent, Stream.backlog]

theorem Stream.unsent_eq_nil {st : Stream} : st.unsent = [] ↔ st.backlog = 0 := by
  rw [← st.length_unsent, List.length_eq_zero_iff]

/-! ### Operations that touch no exchange -/

/-- No exchange is touched. -/
structure Still (a b : Conn) : Prop where
  exchange : ∀ s, b.exchange? s = a.exchange? s
  frame : b.exchangeFrame = a.exchangeFrame
  placed : a.Placed → b.Placed

namespace Still

variable {a b c : Conn} {sid : ℕ} {f : Stream → Stream}

theorem refl (c : Conn) : Still c c := ⟨fun _ => rfl, rfl, id⟩

theorem trans (h1 : Still a b) (h2 : Still b c) : Still a c :=
  ⟨fun s => (h2.exchange s).trans (h1.exchange s), h2.frame.trans h1.frame,
    fun h => h2.placed (h1.placed h)⟩

theorem of_streams (hs : b.streams = a.streams) (hv : b.exchangeFrame = a.exchangeFrame) :
    Still a b := by
  have e : ∀ s, b.stream? s = a.stream? s := fun s => by rw [Conn.stream?, hs, Conn.stream?]
  refine ⟨fun s => by rw [Conn.exchange?, e, Conn.exchange?], hv, fun h s st hst => ?_⟩
  rw [e] at hst
  exact h s st hst

/-- A stream was updated in fields its exchange does not see. -/
theorem of_updates (hu : Updates a b sid f) (hv : b.exchangeFrame = a.exchangeFrame)
    (hf : ∀ st : Stream, (f st).exchange = st.exchange)
    (hp : ∀ st : Stream, st.Placed → (f st).Placed) : Still a b := by
  refine ⟨fun s => ?_, hv, fun h => ?_⟩
  · unfold Conn.exchange?
    rw [hu s]
    split_ifs with e
    · rw [e, Option.map_map]
      exact congrArg (fun g => Option.map g (a.stream? sid)) (funext hf)
    · rfl
  · exact hu.forall_stream (fun st hst => hp st (h sid st hst)) (fun s st _ hst => h s st hst)

theorem modify (c : Conn) (sid : ℕ) (hf : ∀ st : Stream, (f st).exchange = st.exchange)
    (hp : ∀ st : Stream, st.Placed → (f st).Placed) : Still c (c.modify sid f) :=
  of_updates (.modify c sid f) rfl hf hp

/-- An event of no exchange. -/
theorem note (c : Conn) {e : Event} (he : e.stream? = none) : Still c (c.note e) := by
  refine of_streams rfl ?_
  simp [Conn.exchangeFrame, exchangeEvents, Conn.note, he]

theorem send (c : Conn) {f : Frame} (hf : (Event.sent f).stream? = none) : Still c (c.send f) :=
  note c hf

end Still

section Still

variable (c : Conn) (sid : ℕ)

theorem still_sendReset (err : ErrCode) : Still c (c.sendReset sid err) := by
  unfold Conn.sendReset
  split_ifs
  · exact .send c rfl
  · exact .refl c

theorem still_recordServerReset (w : ℤ) : Still c (c.recordServerReset sid w) := by
  unfold Conn.recordServerReset
  dsimp only
  split_ifs <;> exact .of_streams rfl rfl

theorem still_stopClient : Still c (c.stopClient sid) := by
  unfold Conn.stopClient
  cases c.stream? sid with
  | none => exact .refl c
  | some st =>
    dsimp only
    split_ifs
    · exact (Still.send c rfl).trans (still_recordServerReset _ sid _)
    · exact .refl c

theorem still_recordEarlyClosed : Still c (c.recordEarlyClosed sid) := by
  have hn : Still c (c.note (.closedEarly sid)) := .note c rfl
  unfold Conn.recordEarlyClosed
  dsimp only
  split_ifs
  · exact .refl c
  · exact hn.trans (.of_streams rfl rfl)
  · exact hn.trans (.of_streams rfl rfl)

theorem still_noteDataProgress (n frames : ℕ) : Still c (c.noteDataProgress n frames) := by
  unfold Conn.noteDataProgress
  dsimp only
  split_ifs <;> exact .of_streams rfl rfl

theorem still_syncSendState : Still c (c.syncSendState sid) := by
  refine .of_updates (updates_syncSendState c sid) ?_ (fun _ => rfl) (fun _ => id)
  unfold Conn.syncSendState
  split <;> rfl

theorem Stream.exchange_enqueued (st : Stream) : st.enqueued.exchange = st.exchange := by
  unfold Stream.enqueued
  split_ifs <;> rfl

theorem Stream.placed_enqueued {st : Stream} (h : st.Placed) : st.enqueued.Placed := by
  unfold Stream.enqueued
  split_ifs <;> exact h

theorem still_h2Enqueue : Still c (c.h2Enqueue sid) := by
  refine .of_updates (updates_h2Enqueue c sid) ?_ Stream.exchange_enqueued
    (fun _ => Stream.placed_enqueued)
  unfold Conn.h2Enqueue
  split
  · rfl
  · split_ifs <;> rfl

theorem still_endTurn : Still c (c.endTurn sid) := by
  unfold Conn.endTurn
  cases c.stream? sid with
  | none => exact .refl c
  | some st =>
    dsimp only
    split_ifs
    · exact .of_updates (.of_streams rfl) rfl (fun _ => rfl) (fun _ => id)
    · exact .refl c

theorem still_popTurn (u : Fin 8) : Still c (c.popTurn u sid) :=
  .of_updates (.of_streams rfl) rfl (fun _ => rfl) (fun _ => id)

theorem still_modifyWs (f : WsConn → WsConn) : Still c (c.modifyWs sid f) :=
  .modify c sid (fun st => by simp [Stream.exchange, Stream.unsent]) (fun _ => id)

theorem still_creditConn (n : ℕ) : Still c (c.creditConn n) := by
  have hs : Still c (c.send (.windowUpdate 0 (c.pendingConnWindow + n))) := .send c rfl
  unfold Conn.creditConn
  dsimp only
  split_ifs
  · exact .refl c
  · exact hs.trans (.of_streams rfl rfl)
  · exact .of_streams rfl rfl

theorem still_creditStream (n : ℕ) : Still c (c.creditStream sid n) := by
  unfold Conn.creditStream
  split
  · exact .refl c
  · dsimp only
    split_ifs
    · exact .refl c
    · exact (Still.send c rfl).trans (.modify _ sid (fun _ => rfl) (fun _ => id))
    · exact .modify c sid (fun _ => rfl) (fun _ => id)

theorem still_creditConnFor (n : ℕ) : Still c (c.creditConnFor sid n) := by
  unfold Conn.creditConnFor
  split_ifs
  · exact .refl c
  · refine Still.trans ?_ (still_creditConn _ n)
    exact .modify c sid (fun _ => rfl) (fun _ => id)

theorem still_connError (err : ErrCode) : Still c (c.connError err) := by
  unfold Conn.connError
  split_ifs
  · exact (Still.send c rfl).trans (.of_streams rfl rfl)
  · have h1 : Still c { c with goawayLastId := c.lastStreamId, goingAway := true } :=
      .of_streams rfl rfl
    exact (h1.trans (.send _ rfl)).trans (.of_streams rfl rfl)

theorem still_noteControlFrame (n : ℕ) : Still c (c.noteControlFrame n) := by
  have h1 : Still c (Conn.note { c with controlFrameCount := c.controlFrameCount + n }
      (.charged n)) :=
    Still.trans (b := { c with controlFrameCount := c.controlFrameCount + n }) (.of_streams rfl rfl)
      (.note _ rfl)
  unfold Conn.noteControlFrame
  dsimp only
  split_ifs
  · exact h1.trans (still_connError _ _)
  · exact h1

theorem still_noteIdleWindowUpdate : Still c c.noteIdleWindowUpdate := by
  unfold Conn.noteIdleWindowUpdate
  split_ifs
  · exact Still.trans (b := { c with windowCredit := c.windowCredit - 1 }) (.of_streams rfl rfl)
      (.note _ rfl)
  · exact still_noteControlFrame c 1

theorem still_countReset : Still c c.countReset := by
  have h1 : Still c { c with rstStreamCount := c.rstStreamCount + 1 } := .of_streams rfl rfl
  unfold Conn.countReset
  dsimp only
  split_ifs
  · exact h1.trans (still_connError _ _)
  · exact h1

theorem still_absorbAfterReset (n : ℕ) (es : Bool) : Still c (c.absorbAfterReset sid n es).1 := by
  unfold Conn.absorbAfterReset
  split
  · exact .refl c
  · dsimp only
    split_ifs <;> exact .of_streams rfl rfl

theorem still_h2GoawayNotice : Still c c.h2GoawayNotice := by
  unfold Conn.h2GoawayNotice
  split_ifs
  · exact .refl c
  · exact Still.trans (b := { c with drainNoticeSent := true }) (.of_streams rfl rfl) (.send _ rfl)

theorem still_h2Goaway (err : ErrCode) : Still c (c.h2Goaway err) := by
  unfold Conn.h2Goaway
  split_ifs
  · exact .refl c
  · exact Still.trans (b := { c with goingAway := true, goawayLastId := c.lastStreamId })
      (.of_streams rfl rfl) (.send _ rfl)

theorem still_finishPreface : Still c c.finishPreface := by
  have h1 : Still c (Conn.send { c with prefaceDone := true }
      (.settings (Conn.ourSettings { c with prefaceDone := true }))) :=
    Still.trans (b := { c with prefaceDone := true }) (.of_streams rfl rfl) (.send _ rfl)
  unfold Conn.finishPreface
  rcases sendOurSettings_cases { c with prefaceDone := true } with e | e <;> rw [e]
  · exact h1
  · exact h1.trans (.send _ rfl)

theorem still_releaseBuffered : Still c (c.releaseBuffered sid) := by
  refine .of_updates (updates_releaseBuffered c sid) ?_ (fun _ => rfl) (fun _ => id)
  unfold Conn.releaseBuffered
  split <;> rfl

theorem still_countBuffered (n : ℕ) : Still c (c.countBuffered sid n) :=
  .of_updates (.of_streams rfl) rfl (fun _ => rfl) (fun _ => id)

theorem still_shiftWindows (delta : ℤ) (l : List ℕ) :
    Still c (outcome id (shiftWindows delta l c)) := by
  induction l generalizing c with
  | nil => exact .refl c
  | cons sid rest ih =>
    unfold shiftWindows
    cases c.stream? sid with
    | none => exact ih c
    | some st =>
      dsimp only
      split
      · exact still_connError c _
      · refine Still.trans ?_ (ih _)
        refine Still.trans ?_ (still_syncSendState _ sid)
        exact .modify c sid (fun _ => rfl) (fun _ => id)

theorem still_applyInitialWindow (H : Hooks) (value : ℕ) :
    Still c (outcome id (applyInitialWindow H value c)) := by
  unfold applyInitialWindow
  split_ifs
  · exact still_connError c _
  · refine Still.trans ?_ (still_shiftWindows _ _ _)
    exact Still.trans (b := { c with peerInitialWindow := value }) (.of_streams rfl rfl)
      (.note _ rfl)

theorem still_applySetting (H : Hooks) (key value : ℕ) :
    Still c (outcome id (applySetting H key value c)) := by
  unfold applySetting
  split_ifs with h1 h2 h3
  · exact still_applyInitialWindow c H value
  · exact Still.trans (b := { c with peerMaxFrame := ⟨value, h3⟩ }) (.of_streams rfl rfl)
      (.note _ rfl)
  · exact still_connError c _
  · exact still_connError c _
  · exact .refl c
  · have hnote : Still c (c.note (.tableSize value)) := .note c rfl
    unfold Conn.applyTableSize
    dsimp only
    split_ifs
    · exact hnote.trans (.of_streams rfl rfl)
    · exact hnote
  · exact .refl c

theorem still_applySettings (H : Hooks) (entries : List (ℕ × ℕ)) :
    Still c (outcome id (applySettings H entries c)) :=
  rel_applySettings .refl .trans (fun key value c => still_applySetting c H key value) entries c

theorem still_enqueueBacklog (l : List ℕ) : Still c (enqueueBacklog l c) :=
  rel_enqueueBacklog .refl .trans still_h2Enqueue l c

end Still

/-! ### Operations on one exchange -/

/-- The exchange `sid` is updated by `g` and leaves the events `evs`. -/
structure Effect (sid : ℕ) (g : Exchange → Exchange) (evs : List Event) (a b : Conn) : Prop where
  exchange : ∀ s, b.exchange? s = if s = sid then (a.exchange? sid).map g else a.exchange? s
  frame : b.exchangeFrame = { a.exchangeFrame with log := a.exchangeFrame.log ++ evs }
  about : ∀ e ∈ evs, e.stream? = some sid
  placed : a.Placed → b.Placed

theorem Still.effect {a b : Conn} (h : Still a b) (sid : ℕ) : Effect sid id [] a b where
  exchange s := by
    rw [h.exchange s, Option.map_id_fun, id]
    split_ifs with e
    · rw [e]
    · rfl
  frame := by
    rw [h.frame, List.append_nil]
  about := by simp
  placed := h.placed

namespace Effect

variable {a b c : Conn} {sid : ℕ} {f : Stream → Stream} {g g' : Exchange → Exchange}
  {evs evs' : List Event}

theorem trans (h1 : Effect sid g evs a b) (h2 : Effect sid g' evs' b c) :
    Effect sid (g' ∘ g) (evs ++ evs') a c where
  exchange s := by
    rw [h2.exchange s, h1.exchange sid, h1.exchange s, if_pos rfl, Option.map_map]
    split_ifs <;> rfl
  frame := by
    rw [h2.frame, h1.frame, ← List.append_assoc]
  about e he := (List.mem_append.mp he).elim (h1.about e) (h2.about e)
  placed h := h2.placed (h1.placed h)

theorem still (h1 : Effect sid g evs a b) (h2 : Still b c) : Effect sid g evs a c := by
  have h := h1.trans (h2.effect sid)
  rwa [List.append_nil] at h

theorem of_still (h1 : Still a b) (h2 : Effect sid g evs b c) : Effect sid g evs a c :=
  (h1.effect sid).trans h2

theorem of_updates (hu : Updates a b sid f) (hv : b.exchangeFrame = a.exchangeFrame)
    (hf : ∀ st, a.stream? sid = some st → (f st).exchange = g st.exchange)
    (hp : ∀ st, a.stream? sid = some st → st.Placed → (f st).Placed) : Effect sid g [] a b where
  exchange s := by
    unfold Conn.exchange?
    rw [hu s]
    split_ifs
    · cases hs : a.stream? sid with
      | none => rfl
      | some st => exact congrArg some (hf st hs)
    · rfl
  frame := by
    rw [hv, List.append_nil]
  about := by simp
  placed h := hu.forall_stream (fun st hst => hp st hst (h sid st hst)) (fun s st _ hst => h s st hst)

/-- Fields of the stream are set that its queued bytes do not depend on. -/
theorem modify (c : Conn) (sid : ℕ) (hf : ∀ st : Stream, (f st).exchange = g st.exchange)
    (hp : ∀ st : Stream, st.Placed → (f st).Placed) : Effect sid g [] c (c.modify sid f) :=
  of_updates (.modify c sid f) rfl (fun st _ => hf st) (fun st _ => hp st)

theorem note (c : Conn) {e : Event} (he : e.stream? = some sid) : Effect sid id [e] c (c.note e) where
  exchange s := by
    rw [Option.map_id_fun, id]
    split_ifs with h
    · rw [h]
      rfl
    · rfl
  frame := by
    simp [Conn.exchangeFrame, exchangeEvents, Conn.note, he]
  about e' he' := by
    rw [List.mem_singleton.mp he', he]
  placed h := h

/-- An event, then an update. -/
theorem noted {e : Event} (he : e.stream? = some sid) (h : Effect sid g evs (a.note e) b) :
    Effect sid g (e :: evs) a b :=
  (note a he).trans h

/-- What an update does to the exchange that is there. -/
theorem const (h : Effect sid g evs a b) {x x' : Exchange} (hx : a.exchange? sid = some x)
    (e : g x = x') : Effect sid (fun _ => x') evs a b :=
  ⟨fun s => by rw [h.exchange s, hx, Option.map_some, Option.map_some, e], h.frame, h.about, h.placed⟩

end Effect

section Effects

variable (c : Conn) (sid : ℕ) {st : Stream}

theorem effect_emitBlock (fields : Bytes) (es : Bool) :
    ∃ evs, Block sid es evs ∧ Effect sid id evs c (c.emitBlock sid fields es) := by
  have hb : Block sid es ((headerFrames c.peerMaxFrame sid (c.tableSizeUpdate ++ fields) es).map
    .sent) := ⟨_, _, rfl⟩
  refine ⟨_, hb, ?_, ?_, hb.about, id⟩
  · intro s
    rw [Option.map_id_fun, id]
    split_ifs with h
    · rw [h]
      rfl
    · rfl
  · have hall : exchangeEvents ((headerFrames c.peerMaxFrame sid (c.tableSizeUpdate ++ fields)
        es).map .sent) = (headerFrames c.peerMaxFrame sid (c.tableSizeUpdate ++ fields) es).map
          .sent :=
      List.filter_eq_self.mpr (fun e he => by rw [hb.about e he]; rfl)
    unfold exchangeEvents at hall
    simp [Conn.exchangeFrame, exchangeEvents, Conn.emitBlock, Conn.sendAll, hall]

theorem effect_setBackedUp :
    Effect sid (fun x => { x with respBackedUp := true }) [] c (c.setBackedUp sid) := by
  refine .of_updates (updates_setBackedUp c sid) ?_ (fun _ _ => rfl) (fun _ _ => id)
  unfold Conn.setBackedUp
  split <;> rfl

theorem frame_clearBackedUp : (c.clearBackedUp sid).exchangeFrame = c.exchangeFrame := by
  unfold Conn.clearBackedUp
  split <;> rfl

theorem effect_takeDrain :
    Effect sid (fun x => { x with onRespDrain := none, respBackedUp := false }) [] c
      (c.takeDrain sid) :=
  .of_updates (updates_takeDrain c sid) (frame_clearBackedUp c sid) (fun _ _ => rfl) (fun _ _ => id)

theorem effect_beginFinish (trailers : Fields) :
    Effect sid (Exchange.finish trailers) [] c (c.beginFinish sid trailers) :=
  .of_updates (updates_beginFinish c sid trailers) (frame_clearBackedUp _ sid) (fun _ _ => rfl)
    (fun _ _ => id)

theorem effect_noteEndStream :
    Effect sid (fun x => { x with endStreamSeen := true }) [] c (c.noteEndStream sid) := by
  refine .of_updates (updates_noteEndStream c sid) ?_ (fun _ _ => rfl) (fun _ _ => id)
  unfold Conn.noteEndStream
  split <;> rfl

theorem effect_bufferBody (data : Bytes) :
    Effect sid (fun x => { x with body := x.body ++ data }) [] c (c.bufferBody sid data) :=
  .modify c sid (fun _ => rfl) (fun _ => id)

theorem effect_deferBody (n : ℕ) :
    Effect sid (fun x => { x with bodyReceived := x.bodyReceived + n }) [] c (c.deferBody sid n) :=
  .modify c sid (fun _ => rfl) (fun _ => id)

theorem effect_attachWs :
    Effect sid (fun x => { x with responded := true, isWs := true, body := [] }) [] c
      (c.attachWs sid) :=
  .modify c sid (fun _ => rfl) (fun _ => id)

theorem effect_storeSink (cb : ℕ) (manualAck : Bool) :
    Effect sid (fun x => { x with onBodyCb := some cb }) [.sinkSet sid cb] c
      (c.storeSink sid cb manualAck) :=
  .noted rfl (.modify _ sid (fun _ => rfl) (fun _ => id))

theorem effect_storeDrain (cb : ℕ) :
    Effect sid (fun x => { x with onRespDrain := some cb }) [.drainSet sid cb] c
      (c.storeDrain sid cb) :=
  .noted rfl (.modify _ sid (fun _ => rfl) (fun _ => id))

theorem effect_h2ArmDrain (hs : c.stream? sid = some st) :
    Effect sid (fun x => { x with respBackedUp := x.armed || x.respBackedUp }) [] c
      (h2ArmDrain sid c) := by
  have hx : c.exchange? sid = some st.exchange := by rw [Conn.exchange?, hs, Option.map_some]
  have harm : st.exchange.armed =
      (st.ws.isNone && (st.respPhase == .rpNone || st.respPhase == .rpStreaming)) := by
    unfold Exchange.armed Stream.exchange
    cases st.ws <;> rfl
  unfold h2ArmDrain
  rw [hs]
  dsimp only
  rw [← harm]
  have hg : ∀ (g : Exchange → Exchange) (evs : List Event) (b : Conn), Effect sid g evs c b →
      g st.exchange = { st.exchange with
        respBackedUp := st.exchange.armed || st.exchange.respBackedUp } →
      Effect sid (fun x => { x with respBackedUp := x.armed || x.respBackedUp }) evs c b := by
    intro g evs b h e
    refine ⟨fun s => ?_, h.frame, h.about, h.placed⟩
    rw [h.exchange s, hx, Option.map_some, Option.map_some, e]
  split_ifs with h
  · refine hg _ _ _ (effect_setBackedUp c sid) ?_
    rw [h]
    rfl
  · refine hg _ _ _ ((Still.refl c).effect sid) ?_
    rw [Bool.not_eq_true] at h
    rw [h]
    rfl

theorem effect_beginStreamed (st : Stream) (len : Declared) : Effect sid (fun x => { x with
      responded := true
      respPhase := if x.isHead then .rpHeadSent else .rpStreaming
      respDeclaredLen := len.length
      respBodyWritten := 0
      pendingIsLast := x.pendingIsLast || x.isHead }) [.answered sid len st.isHead] c
      (c.beginStreamed sid st len) :=
  .noted rfl (.modify _ sid (fun _ => rfl) (fun _ => id))

theorem effect_beginStreamed_body (hs : c.stream? sid = some st) (hh : st.isHead = false)
    (len : Declared) : Effect sid (fun x => { x with
      responded := true, respPhase := .rpStreaming, respDeclaredLen := len.length
      respBodyWritten := 0 }) [.answered sid len false] c (c.beginStreamed sid st len) := by
  unfold Conn.beginStreamed
  rw [hh]
  refine .noted rfl (.of_updates (.modify _ sid _) rfl (fun st' hs' => ?_) (fun _ _ => id))
  obtain rfl : st' = st := Option.some.inj (hs'.symm.trans hs)
  simp [Stream.exchange, Stream.unsent, hh]

theorem effect_beginBuffered (st : Stream) (head : ResponseHead) (body : Bytes) :
    Effect sid (fun x => { x with responded := true })
      [.answered sid (head.declared body) st.isHead] c (c.beginBuffered sid head body st) :=
  .noted rfl (.modify _ sid (fun _ => rfl) (fun _ => id))

theorem effect_queueBody (body : Bytes) :
    Effect sid (fun x => { x with unsent := body, pendingIsLast := true }) [.accepted sid body] c
      (c.queueBody sid body) := by
  refine Effect.still ?_ (still_syncSendState _ sid)
  exact .noted rfl (.modify _ sid (fun _ => rfl) (fun _ _ => Nat.zero_le _))

theorem effect_sendEnd : Effect sid id [.sent (.data sid [] true)] c (c.sendEnd sid) :=
  .note c rfl

theorem effect_dispatch (hs : c.stream? sid = some st) :
    Effect sid (fun x => { x with dispatched := true }) [.dispatched sid st.body.length] c
      (c.dispatch sid) := by
  have hn : c.noteDispatch sid = c.note (.dispatched sid st.body.length) := by
    unfold Conn.noteDispatch
    rw [hs]
  unfold Conn.dispatch
  rw [hn]
  exact .noted rfl (.of_updates (.of_streams rfl) rfl (fun _ _ => rfl) (fun _ _ => id))

/-! ### Response bytes -/

theorem Stream.unsent_append (h : st.Placed) (data : Bytes) :
    (st.pendingBody ++ data).drop st.pendingPos = st.unsent ++ data :=
  List.drop_append_of_le_length h

theorem Stream.placed_append (h : st.Placed) (data : Bytes) :
    st.pendingPos ≤ (st.pendingBody ++ data).length := by
  rw [List.length_append]
  exact h.trans (Nat.le_add_right _ _)

variable {c sid}

theorem effect_sendChunk (hs : c.stream? sid = some st) (hp : c.Placed) {n : ℕ}
    (hn : n ≤ st.backlog) (last : Bool) : Effect sid (fun x => { x with unsent := x.unsent.drop n })
      [.sent (.data sid (st.unsent.take n) last)] c (c.sendChunk sid st n last) := by
  have hst : ∀ st', c.stream? sid = some st' → st' = st :=
    fun st' hs' => Option.some.inj (hs'.symm.trans hs)
  have h1 : Effect sid (fun x => { x with unsent := x.unsent.drop n })
      [.sent (.data sid (st.unsent.take n) last)] c
      { (c.send (.data sid (st.unsent.take n) last)).modify sid (fun st => { st with
          pendingPos := st.pendingPos + n, sendWindow := int32 (st.sendWindow - n) }) with
        connSendWindow := int32 (c.connSendWindow - n) } := by
    refine .noted rfl (.of_updates (.of_streams rfl) rfl (fun st' _ => ?_) (fun st' hs' h => ?_))
    · simp [Stream.exchange, Stream.unsent, Nat.add_comm]
    · obtain rfl := hst st' hs'
      unfold Stream.backlog at hn
      unfold Stream.Placed at h ⊢
      dsimp only
      omega
  have h2 := h1.still (still_noteDataProgress _ n 1)
  have h3 : Effect sid id [] _ (Conn.modify _ sid Stream.compactPendingBody) :=
    .of_updates (.modify _ sid _) rfl
      (fun st' hs' => (st'.exchange_compactPendingBody (h2.placed hp sid st' hs')).1)
      (fun st' _ h => (st'.exchange_compactPendingBody h).2)
  exact (h2.trans h3).still (still_syncSendState _ sid)

theorem effect_directLoop (sid : ℕ) (s : DirectState) :
    ∃ chunks, chunks.flatten ++ ((directLoop sid).run s).rest = s.rest ∧
      ((directLoop sid).run s).off = s.off + chunks.flatten.length ∧
      Effect sid id (dataEvents sid chunks) s.c ((directLoop sid).run s).c := by
  refine directLoop_induction sid (P := fun s r => ∃ chunks : List Bytes,
    chunks.flatten ++ r.rest = s.rest ∧ r.off = s.off + chunks.flatten.length ∧
      Effect sid id (dataEvents sid chunks) s.c r.c) (fun s => ?_) (fun s r st n h ih => ?_) s
  · exact ⟨[], rfl, rfl, (Still.refl s.c).effect sid⟩
  · obtain ⟨chunks, hr, ho, he⟩ := ih
    have hn : n ≤ s.rest.length := by
      have := h.size
      unfold Conn.chunkSize at this
      omega
    refine ⟨s.rest.take n :: chunks, ?_, ?_, ?_⟩
    · rw [List.flatten_cons, List.append_assoc, hr]
      exact List.take_append_drop n s.rest
    · rw [ho, List.flatten_cons, List.length_append, List.length_take, Nat.min_eq_left hn,
        ← Nat.add_assoc]
      rfl
    · have h1 : Effect sid id [.sent (.data sid (s.rest.take n) false)] s.c (s.next sid n).c :=
        .noted rfl (.of_updates (.of_streams rfl) rfl (fun _ _ => rfl) (fun _ _ => id))
      exact h1.trans he

theorem effect_h2WriteDirect (hs : c.stream? sid = some st) (data : Bytes) :
    ∃ chunks, chunks.flatten = data.take (c.h2WriteDirect sid data).2 ∧
      (st.unsent ≠ [] → chunks = []) ∧
      Effect sid id (dataEvents sid chunks) c (c.h2WriteDirect sid data).1 := by
  unfold Conn.h2WriteDirect
  rw [hs]
  dsimp only
  by_cases hg : (st.ws.isSome || st.hasBacklog || c.h2NextUrgency.isSome) = true
  · rw [if_pos hg]
    exact ⟨[], rfl, fun _ => rfl, (Still.refl c).effect sid⟩
  · rw [if_neg hg]
    obtain ⟨chunks, hr, ho, he⟩ := effect_directLoop sid { c := c, rest := data }
    have hnil : st.unsent = [] := by
      rw [Stream.unsent_eq_nil]
      unfold Stream.hasBacklog at hg
      unfold Stream.backlog
      simp only [Bool.or_eq_true, decide_eq_true_eq, not_or] at hg
      omega
    have htake : chunks.flatten =
        data.take ((directLoop sid).run { c := c, rest := data }).off := by
      have hr' : chunks.flatten ++ ((directLoop sid).run { c := c, rest := data }).rest = data := hr
      have ht := congrArg (List.take chunks.flatten.length) hr'
      rw [List.take_left] at ht
      rw [ho, Nat.zero_add]
      exact ht
    split_ifs
    · exact ⟨chunks, htake, fun h => absurd hnil h,
        (he.still (still_noteDataProgress _ _ _)).still (still_syncSendState _ sid)⟩
    · exact ⟨chunks, htake, fun h => absurd hnil h, he⟩

theorem effect_acceptWrite (hs : c.stream? sid = some st) (hp : c.Placed) (data : Bytes) :
    ∃ chunks rest, chunks.flatten ++ rest = st.unsent ++ data ∧
      (st.unsent ≠ [] → chunks = []) ∧
      Effect sid (fun x => { x with respBodyWritten := x.respBodyWritten + data.length, unsent := rest })
        (.accepted sid data :: dataEvents sid chunks) c (c.acceptWrite sid data) := by
  have hx : c.exchange? sid = some st.exchange := by rw [Conn.exchange?, hs, Option.map_some]
  let c1 := (c.note (.accepted sid data)).modify sid (fun st =>
    Stream.compactPendingBody { st with respBodyWritten := st.respBodyWritten + data.length })
  let st1 := Stream.compactPendingBody { st with
    respBodyWritten := st.respBodyWritten + data.length }
  have hs1 : c1.stream? sid = some st1 := (Updates.modify (c.note _) sid _).self hs
  have hst1 : st1.exchange = { st.exchange with
      respBodyWritten := st.respBodyWritten + data.length } ∧ st1.Placed :=
    Stream.exchange_compactPendingBody { st with
      respBodyWritten := st.respBodyWritten + data.length } (hp sid st hs)
  have hu1 : st1.unsent = st.unsent := congrArg Exchange.unsent hst1.1
  have h1 : Effect sid (fun x => { x with respBodyWritten := x.respBodyWritten + data.length })
      [.accepted sid data] c c1 := by
    refine .noted rfl (.of_updates (.modify _ sid _) rfl (fun st' hs' => ?_) (fun st' _ h => ?_))
    · exact (Stream.exchange_compactPendingBody { st' with
        respBodyWritten := st'.respBodyWritten + data.length } (hp sid st' hs')).1
    · exact (Stream.exchange_compactPendingBody { st' with
        respBodyWritten := st'.respBodyWritten + data.length } h).2
  obtain ⟨chunks, hc, hq, h2⟩ := effect_h2WriteDirect hs1 data
  rw [hu1] at hq
  have h₁₂ := h1.trans h2
  have hcat : chunks.flatten ++ (st.unsent ++ data.drop (c1.h2WriteDirect sid data).2) =
      st.unsent ++ data := by
    by_cases hu : st.unsent = []
    · rw [hu, List.nil_append, List.nil_append, hc, List.take_append_drop]
    · have hnil := hq hu
      rw [hnil, List.flatten_nil] at hc ⊢
      have h' := List.take_append_drop (c1.h2WriteDirect sid data).2 data
      rw [← hc, List.nil_append] at h'
      rw [h', List.nil_append]
  refine ⟨chunks, st.unsent ++ data.drop (c1.h2WriteDirect sid data).2, hcat, hq, ?_⟩
  have hfin : ∀ b, Effect sid (fun x => { x with
      unsent := x.unsent ++ data.drop (c1.h2WriteDirect sid data).2 }) []
        (c1.h2WriteDirect sid data).1 b →
      Effect sid (fun x => { x with
        respBodyWritten := x.respBodyWritten + data.length
        unsent := st.unsent ++ data.drop (c1.h2WriteDirect sid data).2 })
        (.accepted sid data :: dataEvents sid chunks) c b := by
    intro b h
    have h' := h₁₂.trans h
    rw [List.append_nil] at h'
    refine ⟨fun s => ?_, h'.frame, h'.about, h'.placed⟩
    rw [h'.exchange s, hx]
    rfl
  unfold Conn.acceptWrite
  dsimp only
  split_ifs with hk
  · refine hfin _ (Effect.still ?_ (still_syncSendState _ sid))
    exact .of_updates (.modify _ sid _) rfl
      (fun st' hs' => by
        have hp' := h₁₂.placed hp sid st' hs'
        rw [Stream.exchange, Stream.exchange, Stream.unsent, Stream.unsent_append hp'])
      (fun st' _ h => Stream.placed_append h _)
  · refine hfin _ ?_
    have hd : data.drop (c1.h2WriteDirect sid data).2 = [] :=
      List.drop_eq_nil_of_le (Nat.le_of_not_lt hk)
    have e : (fun x : Exchange => { x with unsent := x.unsent ++ [] }) = id :=
      funext (fun x => by rw [List.append_nil]; rfl)
    rw [hd, e]
    exact (Still.refl _).effect sid

theorem effect_takeWsOutput (hp : c.Placed) {w : WsConn} (hw : 0 < w.outBuf.length) :
    Effect sid (fun x => { x with unsent := x.unsent ++ w.outBuf, pendingIsLast := false })
      [.accepted sid w.outBuf] c (c.takeWsOutput sid w) := by
  unfold Conn.takeWsOutput
  rw [if_pos hw]
  refine Effect.still (Effect.still ?_ (still_modifyWs _ sid _)) (still_syncSendState _ sid)
  refine .noted rfl (.of_updates (.modify _ sid _) rfl (fun st hs => ?_) (fun st _ h => ?_))
  · obtain ⟨he, hpl⟩ := st.exchange_compactPendingBody (hp sid st hs)
    have hu : st.compactPendingBody.unsent = st.unsent := congrArg Exchange.unsent he
    rw [Stream.exchange, Stream.unsent, Stream.unsent_append hpl, hu]
    simp only [Stream.exchange, Exchange.mk.injEq] at he ⊢
    tauto
  · exact Stream.placed_append (st.exchange_compactPendingBody h).2 _

end Effects

/-! ### Streams taken out and opened -/

/-- The exchange `sid` is taken out and leaves the events `evs`. -/
structure Removal (sid : ℕ) (evs : List Event) (a b : Conn) : Prop where
  exchange : ∀ s, b.exchange? s = if s = sid then none else a.exchange? s
  frame : b.exchangeFrame = { a.exchangeFrame with log := a.exchangeFrame.log ++ evs }
  about : ∀ e ∈ evs, e.stream? = some sid
  placed : a.Placed → b.Placed

/-- The exchange `sid` is begun. -/
structure Opening (sid : ℕ) (a b : Conn) : Prop where
  exchange : ∀ s, b.exchange? s = if s = sid then some {} else a.exchange? s
  frame : b.exchangeFrame = { a.exchangeFrame with
    log := a.exchangeFrame.log ++ [.opened sid], lastStreamId := sid }
  placed : a.Placed → b.Placed

section Removals

variable {a b c : Conn} {sid : ℕ} {g : Exchange → Exchange} {evs evs' : List Event} {st : Stream}

theorem Conn.exchange?_of_stream (hs : c.stream? sid = some st) :
    c.exchange? sid = some st.exchange := by
  rw [Conn.exchange?, hs, Option.map_some]

theorem Effect.stream (h : Effect sid g evs a b) (hs : a.stream? sid = some st) :
    ∃ st', b.stream? sid = some st' ∧ st'.exchange = g st.exchange := by
  have hx := h.exchange sid
  rw [if_pos rfl, Conn.exchange?_of_stream hs, Option.map_some] at hx
  exact Option.map_eq_some_iff.mp hx

theorem Effect.removal (h1 : Effect sid g evs a b) (h2 : Removal sid evs' b c) :
    Removal sid (evs ++ evs') a c where
  exchange s := by
    rw [h2.exchange s, h1.exchange s]
    split_ifs <;> rfl
  frame := by
    rw [h2.frame, h1.frame, ← List.append_assoc]
  about e he := (List.mem_append.mp he).elim (h1.about e) (h2.about e)
  placed h := h2.placed (h1.placed h)

theorem Still.removal (h1 : Still a b) (h2 : Removal sid evs b c) : Removal sid evs a c :=
  (h1.effect sid).removal h2

theorem Removal.erase (hs : b.streams = a.streams.erase sid)
    (hv : b.exchangeFrame = (a.note (.removed sid)).exchangeFrame) :
    Removal sid [.removed sid] a b where
  exchange s := by
    unfold Conn.exchange? Conn.stream?
    rw [hs, Table.lookup_erase_ite]
    split_ifs <;> rfl
  frame := hv.trans (Effect.note a rfl).frame
  about e he := by
    rw [List.mem_singleton.mp he]
    rfl
  placed h s st hst := by
    unfold Conn.stream? at hst
    rw [hs, Table.lookup_erase_ite] at hst
    split_ifs at hst
    exact h s st hst

theorem removal_detachStream (hs : c.stream? sid = some st) :
    Removal sid [.removed sid] c (c.detachStream sid) := by
  have h1 : Still c (if st.endStreamSeen then c else c.recordEarlyClosed sid) := by
    split_ifs
    · exact .refl c
    · exact still_recordEarlyClosed c sid
  unfold Conn.detachStream
  rw [hs]
  exact (h1.trans (still_creditConn _ _)).removal (.erase rfl rfl)

theorem removal_dropWsStream (hs : c.stream? sid = some st) :
    Removal sid [.removed sid] c (c.dropWsStream sid) := by
  unfold Conn.dropWsStream
  rw [hs]
  exact .erase rfl rfl

theorem removal_reset (hs : c.stream? sid = some st) (err : ErrCode) :
    Removal sid [.removed sid] c (c.reset sid err) := by
  have hs' : (c.sendReset sid err).stream? sid = some st := by
    unfold Conn.stream?
    rw [Conn.streams_sendReset]
    exact hs
  exact (still_sendReset c sid err).removal (removal_detachStream hs')

theorem removal_complete (hs : c.stream? sid = some st) :
    Removal sid [.removed sid] c (c.complete sid) := by
  have hs' : (c.stopClient sid).stream? sid = some st := by
    unfold Conn.stream?
    rw [Conn.streams_stopClient]
    exact hs
  exact (still_stopClient c sid).removal (removal_detachStream hs')

/-- What precedes the removal of a stream that is complete. -/
theorem Effect.complete (h : Effect sid g evs a b) (hs : a.stream? sid = some st) :
    Removal sid (evs ++ [.removed sid]) a (b.complete sid) := by
  obtain ⟨st', hs', -⟩ := h.stream hs
  exact h.removal (removal_complete hs')

/-- What precedes the removal of a stream that is reset. -/
theorem Effect.reset (h : Effect sid g evs a b) (hs : a.stream? sid = some st) (err : ErrCode) :
    Removal sid (evs ++ [.removed sid]) a (b.reset sid err) := by
  obtain ⟨st', hs', -⟩ := h.stream hs
  exact h.removal (removal_reset hs' err)

theorem opening_openStream (c : Conn) (sid : ℕ) :
    Opening sid c (Conn.openStream { c with lastStreamId := sid } sid) := by
  have hstream := @stream_openStream { c with lastStreamId := sid } sid
  obtain ⟨u, i, p, e⟩ := openStream_eq { c with lastStreamId := sid } sid
  rw [e] at hstream ⊢
  refine ⟨fun s => ?_, (Effect.note { c with lastStreamId := sid } rfl).frame, ?_⟩
  · unfold Conn.exchange? Conn.stream?
    rw [Table.lookup_insert_ite]
    split_ifs <;> rfl
  · intro h s st hst
    rcases hstream hst with ⟨-, u, i, rfl⟩ | ⟨-, hst'⟩
    · exact Nat.le_refl _
    · exact h s st hst'

end Removals

end Vortex.Http2
