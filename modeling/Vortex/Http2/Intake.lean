import Vortex.Http2.Run

/-! # What the frame loop alone looks at

The handlers of `http2/codec.nim` are given a frame that was already cut out of the receive
buffer: none of them looks at the buffer, or at the flag that the preface was read.  For every
function `g` a frame handler reaches, the theorem `g_blind` says that running it on a
connection with another buffer and flag gives the same connection with that buffer and flag.
`handleFrame_blind` is the one the frame loop needs.

Callbacks take part: `Hooks.Blind` asks of them what the theorems say of the codec. -/

namespace Vortex.Http2

/-- What only the frame loop looks at: the receive buffer, and whether the preface was read. -/
structure Intake where
  rbuf : Bytes
  prefaceDone : Bool

/-- The connection with another intake. -/
@[simps]
def Conn.withIntake (c : Conn) (x : Intake) : Conn :=
  { c with rbuf := x.rbuf, prefaceDone := x.prefaceDone }

/-- `g` does not look at the intake. -/
abbrev Blind (g : Conn → Conn) : Prop := ∀ c x, g (c.withIntake x) = (g c).withIntake x

theorem Blind.comp {g h : Conn → Conn} (hg : Blind g) (hh : Blind h) : Blind fun c => g (h c) := by
  intro c x
  rw [← hg, ← hh]

/-- A function that looks a stream up is blind if what it does in either case is. -/
theorem Blind.onStream {sid : ℕ} {g : Conn → Conn} {h : Stream → Conn → Conn} (hg : Blind g)
    (hh : ∀ st, Blind (h st)) :
    Blind fun c => match c.stream? sid with | none => g c | some st => h st c := by
  intro c x
  dsimp only
  rw [show (c.withIntake x).stream? sid = c.stream? sid from rfl]
  cases c.stream? sid with
  | none => exact hg c x
  | some st => exact hh st c x

namespace Conn

variable (sid : ℕ)

theorem withIntake_self (c : Conn) : c.withIntake ⟨c.rbuf, c.prefaceDone⟩ = c := rfl

@[simp] theorem ite_blind {p : Prop} [Decidable p] (a b : Conn) (x : Intake) :
    (if p then a.withIntake x else b.withIntake x) = (if p then a else b).withIntake x :=
  (apply_ite (fun c : Conn => c.withIntake x) p a b).symm

@[simp] theorem stream?_blind (c : Conn) (x : Intake) :
    (c.withIntake x).stream? sid = c.stream? sid := rfl

@[simp] theorem pendingOut_blind (c : Conn) (x : Intake) :
    (c.withIntake x).pendingOut = c.pendingOut := rfl

@[simp] theorem note_blind (e : Event) : Blind (note · e) := fun _ _ => rfl

@[simp] theorem send_blind (f : Frame) : Blind (send · f) := fun _ _ => rfl

@[simp] theorem modify_blind (f : Stream → Stream) : Blind (modify · sid f) := fun _ _ => rfl

@[simp] theorem connError_blind (err : ErrCode) : Blind (connError · err) := by
  intro c x
  unfold connError
  cases h : c.goingAway <;> simp [h] <;> rfl

@[simp] theorem recordEarlyClosed_blind : Blind (recordEarlyClosed · sid) := by
  intro c x
  unfold recordEarlyClosed
  simp only [withIntake_earlyClosed, note_blind, withIntake_earlyClosedQ]
  split_ifs <;> rfl

@[simp] theorem recordServerReset_blind (w : ℤ) : Blind (recordServerReset · sid w) := by
  intro c x
  unfold recordServerReset
  simp only [withIntake_serverReset, withIntake_serverResetQ]
  split_ifs <;> rfl

@[simp] theorem absorbAfterReset_blind (c : Conn) (x : Intake) (n : ℕ) (es : Bool) :
    (c.withIntake x).absorbAfterReset sid n es =
      ((c.absorbAfterReset sid n es).1.withIntake x, (c.absorbAfterReset sid n es).2) := by
  unfold absorbAfterReset
  simp only [withIntake_serverReset]
  cases c.serverReset.lookup sid with
  | none => rfl
  | some w =>
    dsimp only
    split_ifs <;> rfl

@[simp] theorem clearBackedUp_blind : Blind (clearBackedUp · sid) :=
  .onStream (fun _ _ => rfl) fun _ _ _ => rfl

@[simp] theorem syncSendState_blind : Blind (syncSendState · sid) :=
  .onStream (fun _ _ => rfl) fun _ _ _ => rfl

@[simp] theorem noteEndStream_blind : Blind (noteEndStream · sid) :=
  .onStream (fun _ _ => rfl) fun _ _ _ => rfl

@[simp] theorem creditStream_blind (n : ℕ) : Blind (creditStream · sid n) := by
  refine .onStream (fun _ _ => rfl) fun st c x => ?_
  simp only [withIntake_streamRecvWindow]
  split_ifs <;> rfl

@[simp] theorem creditConn_blind (n : ℕ) : Blind (creditConn · n) := by
  intro c x
  unfold creditConn
  simp only [withIntake_pendingConnWindow, withIntake_connRecvWindow]
  split_ifs <;> rfl

@[simp] theorem noteControlFrame_blind (n : ℕ) : Blind (noteControlFrame · n) := by
  intro c x
  unfold noteControlFrame
  rw [← ite_blind, ← connError_blind]
  rfl

@[simp] theorem noteControlProgress_blind : Blind noteControlProgress := by
  intro c x
  unfold noteControlProgress
  simp only [withIntake_cfg]
  split_ifs <;> rfl

@[simp] theorem noteDataProgress_blind (n frames : ℕ) : Blind (noteDataProgress · n frames) := by
  intro c x
  unfold noteDataProgress
  simp only [withIntake_cfg, withIntake_controlFrameCount]
  split_ifs <;> rfl

@[simp] theorem noteIdleWindowUpdate_blind : Blind noteIdleWindowUpdate := by
  intro c x
  unfold noteIdleWindowUpdate
  simp only [← ite_blind, ← noteControlFrame_blind]
  rfl

@[simp] theorem detachStream_blind : Blind (detachStream · sid) := by
  refine .onStream (fun _ _ => rfl) fun st c x => ?_
  simp only [recordEarlyClosed_blind, ite_blind, creditConn_blind]
  rfl

@[simp] theorem sendReset_blind (err : ErrCode) : Blind (sendReset · sid err) := by
  intro c x
  unfold sendReset
  rw [← ite_blind]
  rfl

@[simp] theorem stopClient_blind : Blind (stopClient · sid) := by
  refine .onStream (fun _ _ => rfl) fun st c x => ?_
  simp

@[simp] theorem emitTrailerBlock_blind (st : Stream) :
    Blind (emitTrailerBlock · sid st) := fun _ _ => rfl

@[simp] theorem h2Enqueue_blind : Blind (h2Enqueue · sid) := by
  refine .onStream (fun _ _ => rfl) fun st c x => ?_
  split_ifs <;> rfl

@[simp] theorem chunkSize_blind (c : Conn) (x : Intake) (st : Stream) (n : ℕ) :
    (c.withIntake x).chunkSize st n = c.chunkSize st n := rfl

@[simp] theorem sendChunk_blind (st : Stream) (chunk : ℕ) (last : Bool) :
    Blind (sendChunk · sid st chunk last) := by
  intro c x
  unfold sendChunk
  rw [← syncSendState_blind, ← modify_blind, ← noteDataProgress_blind]
  rfl

@[simp] theorem sendEnd_blind : Blind (sendEnd · sid) := fun _ _ => rfl

@[simp] theorem modifyWs_blind (f : WsConn → WsConn) : Blind (modifyWs · sid f) := fun _ _ => rfl

@[simp] theorem dropWsStream_blind : Blind (dropWsStream · sid) :=
  .onStream (fun _ _ => rfl) fun _ _ _ => rfl

@[simp] theorem takeDrain_blind : Blind (takeDrain · sid) :=
  (modify_blind sid _).comp (clearBackedUp_blind sid)

@[simp] theorem h2NextUrgency_blind (c : Conn) (x : Intake) :
    (c.withIntake x).h2NextUrgency = c.h2NextUrgency := rfl

@[simp] theorem requeue_blind (st : Stream) : Blind (requeue · sid st) := fun _ _ => rfl

@[simp] theorem h2Reprioritize_blind (field : Bytes) :
    Blind (h2Reprioritize · sid field) := fun _ _ => rfl

@[simp] theorem takeBody_blind : Blind (takeBody · sid) := fun _ _ => rfl

@[simp] theorem dispatch_blind : Blind (dispatch · sid) := by
  intro c x
  unfold dispatch noteDispatch
  simp only [stream?_blind]
  cases c.stream? sid <;> rfl

@[simp] theorem releaseBuffered_blind : Blind (releaseBuffered · sid) :=
  .onStream (fun _ _ => rfl) fun _ _ _ => rfl

@[simp] theorem addTrailers_blind (fields : Fields) : Blind (addTrailers · sid fields) :=
  (noteEndStream_blind sid).comp (modify_blind sid _)

@[simp] theorem acceptHead_blind (fields : Fields) (scan : HeadScan) (isWs isHead : Bool) :
    Blind (acceptHead · sid fields scan isWs isHead) := fun _ _ => rfl

@[simp] theorem noteHead_blind : Blind (noteHead · sid) :=
  .onStream (fun _ _ => rfl) fun _ _ _ => rfl

@[simp] theorem bufferBody_blind (data : Bytes) : Blind (bufferBody · sid data) := fun _ _ => rfl

@[simp] theorem deferBody_blind (n : ℕ) : Blind (deferBody · sid n) := fun _ _ => rfl

@[simp] theorem countBuffered_blind (n : ℕ) : Blind (countBuffered · sid n) := fun _ _ => rfl

@[simp] theorem dataWsPending_blind (f : InFrame) (data : Bytes) :
    Blind (dataWsPending · sid f data) := by
  intro c x
  unfold dataWsPending
  simp

@[simp] theorem replenish_blind (length deferred : ℕ) :
    Blind (replenish · sid length deferred) := by
  intro c x
  unfold replenish
  simp only [creditConn_blind, stream?_blind, ← ite_blind]
  congr 1
  cases (c.creditConn (length - deferred)).stream? sid with
  | none => rfl
  | some st => simp

@[simp] theorem debitConn_blind (n : ℕ) : Blind (debitConn · n) := fun _ _ => rfl

@[simp] theorem debitStream_blind (n : ℕ) : Blind (debitStream · sid n) := fun _ _ => rfl

@[simp] theorem openStream_blind : Blind (openStream · sid) := by
  intro c x
  unfold openStream
  rw [← noteControlProgress_blind]
  cases h : c.pendingPriority.lookup sid <;> simp only [note, withIntake_pendingPriority, h] <;> rfl

@[simp] theorem admitStream_blind (c : Conn) (x : Intake) (selfDep es : Bool) :
    (c.withIntake x).admitStream sid selfDep es =
      ((c.admitStream sid selfDep es).1.withIntake x, (c.admitStream sid selfDep es).2) := by
  have hc : ({ c.withIntake x with lastStreamId := sid } : Conn) =
      Conn.withIntake { c with lastStreamId := sid } x := rfl
  unfold admitStream
  rw [hc]
  simp only [withIntake_goingAway, withIntake_cfg, withIntake_activeStreams, openStream_blind,
    recordEarlyClosed_blind, ite_blind]
  split <;> rfl

@[simp] theorem applyTableSize_blind (value : ℕ) : Blind (applyTableSize · value) := by
  intro c x
  unfold applyTableSize
  dsimp only
  rw [← ite_blind]
  rfl

@[simp] theorem creditSend_blind (inc : ℕ) : Blind (creditSend · sid inc) :=
  (syncSendState_blind sid).comp ((modify_blind sid _).comp (note_blind _))

@[simp] theorem countReset_blind : Blind countReset := by
  intro c x
  unfold countReset
  rw [← ite_blind, ← connError_blind]
  rfl

end Conn

/-! ### Handlers without callbacks -/

/-- The same for a handler that may have returned. -/
def withIntakes (x : Intake) : Except Conn Conn → Except Conn Conn
  | .error c => .error (c.withIntake x)
  | .ok c => .ok (c.withIntake x)

section

open Conn

variable (c : Conn) (x : Intake)

@[simp] theorem shiftWindows_blind (delta : ℤ) : ∀ (l : List ℕ) (c : Conn),
    shiftWindows delta l (c.withIntake x) = withIntakes x (shiftWindows delta l c)
  | [], _ => rfl
  | sid :: rest, c => by
    unfold shiftWindows
    rw [stream?_blind]
    cases c.stream? sid with
    | none => exact shiftWindows_blind delta rest c
    | some st =>
      simp only [connError_blind, modify_blind, syncSendState_blind,
        shiftWindows_blind delta rest]
      split_ifs <;> rfl

@[simp] theorem enqueueBacklog_blind : ∀ (l : List ℕ) (c : Conn),
    enqueueBacklog l (c.withIntake x) = (enqueueBacklog l c).withIntake x
  | [], _ => rfl
  | sid :: rest, c => by
    unfold enqueueBacklog
    simp only [stream?_blind, h2Enqueue_blind, ite_blind, enqueueBacklog_blind rest]

@[simp] theorem handlePing_blind (f : InFrame) : Blind (handlePing f) := by
  intro c x
  unfold handlePing
  simp

@[simp] theorem handleGoaway_blind (f : InFrame) : Blind (handleGoaway f) := by
  intro c x
  unfold handleGoaway
  simp only [connError_blind, noteControlFrame_blind, ← ite_blind]
  rfl

@[simp] theorem handlePriorityUpdate_blind (f : InFrame) : Blind (handlePriorityUpdate f) := by
  intro c x
  unfold handlePriorityUpdate
  simp only [connError_blind, noteControlFrame_blind, withIntake_closing,
    stream?_blind, h2Reprioritize_blind, withIntake_lastStreamId,
    withIntake_pendingPriority, ← ite_blind]
  rfl

end

/-! ### The write side -/

/-- What the codec calls back into does not look at the receive buffer.  Callbacks that do nothing
are of this kind, and so is a WebSocket layer on the streams. -/
structure Hooks.Blind (H : Hooks) : Prop where
  fire : ∀ cb c x, H.fire cb (c.withIntake x) = (H.fire cb c).withIntake x
  streamRoute : ∀ c x sid, H.streamRoute (c.withIntake x) sid = H.streamRoute c sid
  order : ∀ c x, (H.order (c.withIntake x)).1 = (H.order c).1

section

open Conn

variable {H : Hooks} (hH : H.Blind) (sid : ℕ)
include hH

@[simp] theorem Hooks.Blind.run (cb : Callback) : Http2.Blind (H.run cb) := by
  intro c x
  unfold Hooks.run
  simp only [note_blind, hH.fire]

@[simp] theorem fireTeardown_blind (st : Stream) : Blind (fireTeardown H sid st) := by
  intro c x
  unfold fireTeardown
  simp only [hH.run, ite_blind]
  cases st.onBodyCb <;> cases st.onRespDrain <;> simp [hH]

@[simp] theorem teardownStream_blind : Blind (teardownStream H sid) :=
  .onStream (fun _ _ => rfl) fun st => (fireTeardown_blind hH sid st).comp (detachStream_blind sid)

@[simp] theorem streamError_blind (err : ErrCode) : Blind (streamError H sid err) :=
  (teardownStream_blind hH sid).comp (sendReset_blind sid err)

@[simp] theorem completeStream_blind : Blind (completeStream H sid) :=
  (teardownStream_blind hH sid).comp (stopClient_blind sid)

@[simp] theorem emitTrailers_blind : Blind (emitTrailers H sid) :=
  .onStream (fun _ _ => rfl) fun st =>
    (completeStream_blind hH sid).comp (emitTrailerBlock_blind sid st)

@[simp] theorem emitOneFrame_blind : Blind (emitOneFrame H sid) := by
  refine .onStream (fun _ _ => rfl) fun st c x => ?_
  dsimp only
  rw [chunkSize_blind]
  simp [hH]

@[simp] theorem h2WsFinalize_blind : Blind (h2WsFinalize H sid) :=
  (dropWsStream_blind sid).comp ((hH.run _).comp (sendEnd_blind sid))

@[simp] theorem h2WsAfterEmit_blind : Blind (h2WsAfterEmit H sid) := by
  refine .onStream (fun _ _ => rfl) fun st c x => ?_
  cases hw : st.ws with
  | none => simp
  | some w => simp [hH]

@[simp] theorem resumeList_blind : ∀ (l : List ℕ) (c : Conn),
    resumeList H l (c.withIntake x) = (resumeList H l c).withIntake x
  | [], _ => rfl
  | sid :: rest, c => by
    unfold resumeList
    rw [pendingOut_blind, stream?_blind, ← ite_blind]
    congr 1
    cases c.stream? sid with
    | none => exact resumeList_blind rest c
    | some st =>
      dsimp only
      cases st.respBackedUp <;> cases st.onRespDrain <;> dsimp only <;>
        simp [resumeList_blind rest, hH]

@[simp] theorem h2ResumeProducers_blind : Blind (h2ResumeProducers H) := by
  intro c x
  have hl : ∀ c : Conn, { resumeList H ((H.order (c.withIntake x)).1.filter
        (fun sid => ((c.withIntake x).stream? sid).any Stream.resumable)) (c.withIntake x) with
          resuming := false } =
      Conn.withIntake { resumeList H ((H.order c).1.filter
        (fun sid => (c.stream? sid).any Stream.resumable)) c with resuming := false } x := by
    intro c
    simp only [hH.order, stream?_blind, resumeList_blind hH]
    rfl
  unfold h2ResumeProducers
  simp only [withIntake_resuming, withIntake_backedUpProducers, pendingOut_blind,
    ← ite_blind]
  congr 3
  exact hl { c with resuming := true }

@[simp] theorem serveStream_blind : Blind (serveStream H sid) := by
  intro c x
  unfold serveStream
  rw [stream?_blind]
  cases c.stream? sid with
  | none => rfl
  | some st0 =>
    simp only [modify_blind, emitOneFrame_blind hH, stream?_blind]
    cases (emitOneFrame H sid (c.modify sid fun st => { st with inSendQ :=
  false })).stream? sid with
    | none => rfl
    | some st =>
      simp [hH]

@[simp] theorem scheduleLoop_blind : ∀ (n : ℕ) (c : Conn),
    scheduleLoop H n (c.withIntake x) = (scheduleLoop H n c).withIntake x
  | 0, _ => rfl
  | n + 1, c => by
    unfold scheduleLoop
    rw [pendingOut_blind, withIntake_connSendWindow, h2NextUrgency_blind, ← ite_blind]
    congr 1
    cases c.h2NextUrgency with
    | none => rfl
    | some u =>
      dsimp only
      rw [← scheduleLoop_blind n, ← serveStream_blind hH]
      rfl

@[simp] theorem h2Schedule_blind : Blind (h2Schedule H) := by
  intro c x
  unfold h2Schedule
  have hc : ({ c.withIntake x with scheduling := true } : Conn) =
      Conn.withIntake { c with scheduling := true } x := rfl
  rw [withIntake_scheduling, ← ite_blind, hc, scheduleLoop_blind hH,
    ← h2ResumeProducers_blind hH]
  rfl

/-! ### The read side -/

@[simp] theorem h2DeliverBody_blind (last : Bool) : Blind (h2DeliverBody H sid last) := by
  refine .onStream (fun _ _ => rfl) fun st c x => ?_
  cases st.onBodyCb with
  | none => rfl
  | some cb => simp [hH]

@[simp] theorem dispatchHead_blind : Blind (dispatchHead H sid) := by
  refine .onStream (fun _ _ => rfl) fun st c x => ?_
  simp [hH]

@[simp] theorem finishTrailers_blind (st : Stream) (es : Bool) (fields : Fields) :
    Blind (finishTrailers H sid st es fields) := by
  intro c x
  unfold finishTrailers
  simp [hH]

@[simp] theorem routeHead_blind (isWs : Bool) : Blind (routeHead H sid isWs) := by
  intro c x
  unfold routeHead
  simp [hH.streamRoute]

@[simp] theorem finishHead_blind (st : Stream) (es : Bool) (fields : Fields) :
    Blind (finishHead H sid st es fields) := by
  intro c x
  unfold finishHead
  dsimp only
  rw [← ite_blind, streamError_blind hH]
  congr 1
  cases HeadScan.fields
      { contentLength := st.contentLength, urgency := st.urgency, incremental := st.incremental }
      fields with
  | none => rfl
  | some scan =>
    simp [hH]

@[simp] theorem finishHeaders_blind (es : Bool) : Blind (finishHeaders H sid es) := by
  intro c x
  unfold finishHeaders
  rw [withIntake_decoder, withIntake_headerBlock]
  rcases decodeHeaderBlock c.decoder c.headerBlock with ⟨d, e | fields⟩
  · exact connError_blind _ { c with decoder := d } x
  · have hc : ({ c.withIntake x with decoder := d, headerBlock := [] } : Conn) =
        Conn.withIntake { c with decoder := d, headerBlock := [] } x := rfl
    dsimp only
    rw [hc, stream?_blind]
    cases Conn.stream? { c with decoder := d, headerBlock := [] } sid with
    | none => rfl
    | some st =>
      simp [hH]

@[simp] theorem dataStreaming_blind (st : Stream) (f : InFrame) (data : Bytes) :
    Blind (dataStreaming H sid st f data) := by
  intro c x
  unfold dataStreaming
  simp [hH]

@[simp] theorem dataBuffered_blind (st : Stream) (f : InFrame) (data : Bytes) :
    Blind (dataBuffered H sid st f data) := by
  intro c x
  unfold dataBuffered
  simp [hH]

@[simp] theorem dataWebSocket_blind (f : InFrame) (data : Bytes) :
    Blind (dataWebSocket H sid f data) := by
  intro c x
  unfold dataWebSocket
  simp [hH]

@[simp] theorem dataOnStream_blind (st : Stream) (f : InFrame) (data : Bytes) :
    dataOnStream H sid st f data (c.withIntake x) =
      ((dataOnStream H sid st f data c).1.withIntake x, (dataOnStream H sid st f data c).2) := by
  unfold dataOnStream
  simp only [withIntake_cfg, dataWebSocket_blind hH, streamError_blind hH,
    dataWsPending_blind, dataStreaming_blind hH, dataBuffered_blind hH]
  split_ifs <;> rfl

@[simp] theorem refuseClosed_blind : Blind (refuseClosed H sid) := by
  intro c x
  unfold refuseClosed
  simp [hH]

@[simp] theorem dataAdmitted_blind (f : InFrame) : Blind (dataAdmitted H sid f) := by
  refine .onStream (fun c x => by simp [hH]) fun st c x => ?_
  simp only [← ite_blind, refuseClosed_blind hH, replenish_blind]
  congr 1
  cases unpadData f with
  | error e => exact connError_blind e c x
  | ok data => simp only [dataOnStream_blind hH, replenish_blind]

@[simp] theorem dataDebit_blind (f : InFrame) : Blind (dataDebit H sid f) := by
  intro c x
  unfold dataDebit
  simp [hH]

@[simp] theorem handleData_blind (f : InFrame) : Blind (handleData H f) := by
  intro c x
  unfold handleData
  simp [hH]

@[simp] theorem classifyHeaders_blind (selfDep es : Bool) :
    classifyHeaders H sid selfDep es (c.withIntake x) =
      match classifyHeaders H sid selfDep es c with
      | .error c => .error (c.withIntake x)
      | .ok (c, refuse) => .ok (c.withIntake x, refuse) := by
  unfold classifyHeaders
  rw [stream?_blind]
  cases c.stream? sid with
  | some st =>
    simp only [connError_blind, refuseClosed_blind hH, withIntake_closing]
    split_ifs <;> rfl
  | none =>
    simp only [withIntake_lastStreamId, withIntake_serverReset, withIntake_earlyClosed,
      connError_blind, admitStream_blind]
    split_ifs <;> rfl

@[simp] theorem answerRefusal_blind (refuse : Refusal) : Blind (answerRefusal H sid refuse) := by
  intro c x
  cases refuse with
  | none | silent => rfl
  | reset err =>
    unfold answerRefusal
    simp [hH]

@[simp] theorem headersComplete_blind (f : InFrame) (refuse : Refusal) :
    Blind (headersComplete H sid f refuse) := by
  intro c x
  unfold headersComplete
  rw [finishHeaders_blind hH, answerRefusal_blind hH, ← ite_blind]
  rfl

@[simp] theorem handleHeaders_blind (f : InFrame) : Blind (handleHeaders H f) := by
  intro c x
  unfold handleHeaders
  simp only [← ite_blind, connError_blind]
  congr 1
  cases headersFragment f with
  | error e => rfl
  | ok r =>
    have hc : ({ c.withIntake x with headerBlock := r.1 } : Conn) =
        Conn.withIntake { c with headerBlock := r.1 } x := rfl
    dsimp only
    rw [hc, classifyHeaders_blind hH]
    cases classifyHeaders H f.header.streamId r.2 (f.header.has flagEndStream)
        { c with headerBlock := r.1 } with
    | error c' => rfl
    | ok r' => exact headersComplete_blind hH _ f r'.2 r'.1 x

@[simp] theorem continuationComplete_blind : Blind (continuationComplete H) := by
  intro c x
  unfold continuationComplete
  rw [← answerRefusal_blind hH, ← finishHeaders_blind hH]
  rfl

@[simp] theorem handleContinuation_blind (f : InFrame) : Blind (handleContinuation H f) := by
  intro c x
  unfold handleContinuation
  simp only [withIntake_contStream, connError_blind, noteControlFrame_blind,
    withIntake_closing, withIntake_headerBlock, withIntake_cfg, ← ite_blind,
    ← continuationComplete_blind hH]
  rfl

@[simp] theorem applyInitialWindow_blind (value : ℕ) :
    applyInitialWindow H value (c.withIntake x) = withIntakes x (applyInitialWindow H value c) := by
  have hl : ∀ (delta : ℤ) (c : Conn),
      shiftWindows delta (H.order (c.withIntake x)).1 (c.withIntake x) =
        withIntakes x (shiftWindows delta (H.order c).1 c) := by
    intro delta c
    rw [hH.order, shiftWindows_blind]
  unfold applyInitialWindow
  split_ifs
  · simp only [connError_blind]
    rfl
  · exact hl _ (Conn.note { c with peerInitialWindow := value } (.initialWindow value))

@[simp] theorem applySetting_blind (id value : ℕ) :
    applySetting H id value (c.withIntake x) = withIntakes x (applySetting H id value c) := by
  unfold applySetting
  simp only [applyInitialWindow_blind hH, connError_blind, applyTableSize_blind]
  split_ifs <;> rfl

@[simp] theorem applySettings_blind : ∀ (es : List (ℕ × ℕ)) (c : Conn),
    applySettings H es (c.withIntake x) = withIntakes x (applySettings H es c)
  | [], _ => rfl
  | e :: rest, c => by
    unfold applySettings
    rw [applySetting_blind hH]
    cases applySetting H e.1 e.2 c with
    | error c' => rfl
    | ok c' => exact applySettings_blind rest c'

@[simp] theorem handleSettings_blind (f : InFrame) : Blind (handleSettings H f) := by
  intro c x
  unfold handleSettings
  simp only [connError_blind, noteControlFrame_blind, withIntake_closing,
    applySettings_blind hH]
  simp only [← ite_blind]
  congr 4
  cases applySettings H (settingsEntries f.payload)
      (c.noteControlFrame (max 1 (f.header.length / 6))) with
  | error c' => rfl
  | ok c' =>
    have ho : (H.order ((c'.withIntake x).send .settingsAck)).1 = _ := hH.order (c'.send _) x
    simp [withIntakes, ho, hH]

@[simp] theorem windowUpdateConn_blind (inc : ℕ) : Blind (windowUpdateConn H inc) := by
  intro c x
  have hc : ∀ w : ℤ, Conn.note { c.withIntake x with connSendWindow := w } (.connCredit inc) =
      (Conn.note { c with connSendWindow := w } (.connCredit inc)).withIntake x := fun _ => rfl
  unfold windowUpdateConn
  dsimp only
  rw [hc]
  simp [hH]

@[simp] theorem windowUpdateIdle_blind (dribble : Bool) : Blind (windowUpdateIdle H dribble) := by
  intro c x
  unfold windowUpdateIdle
  simp [hH]

@[simp] theorem windowUpdateStream_blind (inc : ℕ) (st : Stream) :
    Blind (windowUpdateStream H sid inc st) := by
  intro c x
  unfold windowUpdateStream
  simp [hH]

@[simp] theorem windowUpdateZero_blind : Blind (windowUpdateZero H sid) := by
  intro c x
  unfold windowUpdateZero
  simp [hH]

@[simp] theorem handleWindowUpdate_blind (f : InFrame) : Blind (handleWindowUpdate H f) := by
  intro c x
  unfold handleWindowUpdate
  simp only [stream?_blind]
  cases c.stream? f.header.streamId <;>
    simp [hH]

@[simp] theorem handleRstStream_blind (f : InFrame) : Blind (handleRstStream H f) := by
  intro c x
  unfold handleRstStream
  simp only [connError_blind, withIntake_lastStreamId, stream?_blind,
    withIntake_serverReset, teardownStream_blind hH, countReset_blind, ← ite_blind]
  rfl

@[simp] theorem handlePriority_blind (f : InFrame) : Blind (handlePriority H f) := by
  intro c x
  unfold handlePriority
  simp [hH]

theorem handleFrame_blind (f : InFrame) : Blind (handleFrame H f) := by
  intro c x
  unfold handleFrame
  simp only [withIntake_contStream, connError_blind, handlePriorityUpdate_blind, ← ite_blind]
  congr 2
  cases FrameType.ofCode f.header.typ with
  | none => exact noteControlFrame_blind 1 c x
  | some t =>
    cases t with
    | ftData => exact handleData_blind hH f c x
    | ftHeaders => exact handleHeaders_blind hH f c x
    | ftContinuation => exact handleContinuation_blind hH f c x
    | ftSettings => exact handleSettings_blind hH f c x
    | ftPing => exact handlePing_blind f c x
    | ftWindowUpdate => exact handleWindowUpdate_blind hH f c x
    | ftRstStream => exact handleRstStream_blind hH f c x
    | ftPriority => exact handlePriority_blind hH f c x
    | ftGoaway => exact handleGoaway_blind f c x
    | ftPushPromise => rfl

end

end Vortex.Http2
