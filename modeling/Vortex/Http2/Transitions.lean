import Mathlib.Logic.Relation
import Vortex.Http2.Effects

/-! # What the write side can do to a connection

Every function of the codec is a sequence of indivisible pieces between which callbacks run.
This module names the pieces of the write side, with the conditions under which they happen.
`AppAtom none` are the pieces that leave the table's streams where they are and `AppAtom (some
sid)` those that end with the stream `sid` taken out of it; `FinishAtom` takes the end of a
response in, and `CloseBegin` starts the removal of a WebSocket stream.  An invariant of what is
sent then only has to be checked piece by piece.

Seen from the read side most pieces look alike.  `Moves` describes them by the few ways in
which they can touch what the peer sent: not at all, by dropping a stream, or by attaching a
WebSocket to one.  An invariant of what is received only has to be checked on those.

`Kept` is what no application call can touch: the read side of the connection and the request
side of its streams. -/

namespace Vortex.Http2

open Relation

/-! ### What no application call touches -/

/-- The request side of a stream, as the frames set it. -/
structure RequestView where
  headers : Fields
  trailers : Fields
  endStreamSeen : Bool
  dispatched : Bool
  isHead : Bool
  headersDone : Bool
  contentLength : ℤ
  reqStreaming : Bool
  isWsConnect : Bool
  bufferedCounted : ℕ

def Stream.request (st : Stream) : RequestView where
  headers := st.headers
  trailers := st.trailers
  endStreamSeen := st.endStreamSeen
  dispatched := st.dispatched
  isHead := st.isHead
  headersDone := st.headersDone
  contentLength := st.contentLength
  reqStreaming := st.reqStreaming
  isWsConnect := st.isWsConnect
  bufferedCounted := st.bufferedCounted

/-- The request bytes of a stream and their receive credit. -/
structure BodyView where
  body : Bytes
  recvRemaining : ℤ
  pendingWindow : ℕ
  connDeferred : ℕ
  onBodyCb : Option ℕ
  bodyManualAck : Bool

def Stream.bodySide (st : Stream) : BodyView where
  body := st.body
  recvRemaining := st.recvRemaining
  pendingWindow := st.pendingWindow
  connDeferred := st.connDeferred
  onBodyCb := st.onBodyCb
  bodyManualAck := st.bodyManualAck

/-- Is this an event of the read side? -/
def Event.isInbound : Event → Bool
  | .received _ | .connCredit _ | .streamCredit _ _ | .initialWindow _ | .maxFrame _ | .tableSize _
  | .opened _
  | .head _ _ _ | .dispatched _ _ | .charged _ | .creditSpent => true
  | _ => false

/-- Is this an event of the write side? -/
def Event.isOutbound : Event → Bool
  | .sent _ | .fired _ | .answered _ _ _ | .accepted _ _ | .aborted _ | .removed _
  | .drainSet _ _ => true
  | _ => false

theorem Event.not_inbound {e : Event} (h : e.isOutbound = true) : e.isInbound = false := by
  cases e <;> first | rfl | cases h

/-- The read side of a connection. -/
structure ReadSide where
  cfg : Config
  streamRecvWindow : ℕ
  connRecvWindow : ℕ
  decoder : HpackDecoder
  peerMaxFrame : MaxFrame
  peerInitialWindow : ℤ
  prefaceDone : Bool
  sawFirstFrame : Bool
  contStream : ℕ
  contEndStream : Bool
  contRefuse : Refusal
  headerBlock : Bytes
  lastStreamId : ℕ
  peerGoneAway : Bool
  rstStreamCount : ℕ
  encTableMax : ℕ
  pendingPriority : Table ℕ Bytes
  ready : List ℕ
  closing : Bool
  closeAfterFlush : Bool
  closeInProgress : Bool
  rbuf : Bytes
  inbound : List Event

def Conn.readSide (c : Conn) : ReadSide where
  cfg := c.cfg
  streamRecvWindow := c.streamRecvWindow
  connRecvWindow := c.connRecvWindow
  decoder := c.decoder
  peerMaxFrame := c.peerMaxFrame
  peerInitialWindow := c.peerInitialWindow
  prefaceDone := c.prefaceDone
  sawFirstFrame := c.sawFirstFrame
  contStream := c.contStream
  contEndStream := c.contEndStream
  contRefuse := c.contRefuse
  headerBlock := c.headerBlock
  lastStreamId := c.lastStreamId
  peerGoneAway := c.peerGoneAway
  rstStreamCount := c.rstStreamCount
  encTableMax := c.encTableMax
  pendingPriority := c.pendingPriority
  ready := c.ready
  closing := c.closing
  closeAfterFlush := c.closeAfterFlush
  closeInProgress := c.closeInProgress
  rbuf := c.rbuf
  inbound := c.journal.filter Event.isInbound

/-- A stream that stays open keeps its request side, and its WebSocket if it has one. -/
structure Stream.Kept (st st' : Stream) : Prop where
  request : st'.request = st.request
  ws : st.ws.isSome = true → st'.ws.isSome = true

theorem Stream.Kept.refl (st : Stream) : st.Kept st := ⟨rfl, id⟩

theorem Stream.Kept.trans {a b c : Stream} (h1 : a.Kept b) (h2 : b.Kept c) : a.Kept c :=
  ⟨h2.request.trans h1.request, fun h => h2.ws (h1.ws h)⟩

/-- Application calls keep the read side, open no stream, and keep the request side of the
streams that stay open. -/
structure Kept (c c' : Conn) : Prop where
  readSide : c'.readSide = c.readSide
  stream : ∀ sid st', c'.stream? sid = some st' → ∃ st, c.stream? sid = some st ∧ st.Kept st'

variable {a b c' : Conn} {f : Stream → Stream} {st st' : Stream}

namespace Kept

theorem refl (c : Conn) : Kept c c := ⟨rfl, fun _ st h => ⟨st, h, .refl st⟩⟩

variable {c : Conn} {sid : ℕ}

theorem trans (h1 : Kept a b) (h2 : Kept b c) : Kept a c where
  readSide := h2.readSide.trans h1.readSide
  stream sid st' h := by
    obtain ⟨st, hs, e⟩ := h2.stream sid st' h
    obtain ⟨st0, hs0, e0⟩ := h1.stream sid st hs
    exact ⟨st0, hs0, e0.trans e⟩

theorem of_modify (hr : c'.readSide = c.readSide) (hs : c'.streams = c.streams.modify sid f)
    (hf : ∀ st : Stream, st.Kept (f st)) : Kept c c' where
  readSide := hr
  stream s st' h := by
    rw [Conn.stream?, hs, Table.lookup_modify] at h
    split at h
    · next e =>
      subst e
      obtain ⟨st, hst, rfl⟩ := Option.map_eq_some_iff.mp h
      exact ⟨st, hst, hf st⟩
    · exact ⟨st', h, .refl st'⟩

theorem modify (c : Conn) (sid : ℕ) (hf : ∀ st : Stream, st.Kept (f st)) :
    Kept c (c.modify sid f) :=
  of_modify rfl rfl hf

theorem of_eq (hr : c'.readSide = c.readSide) (hs : c'.streams = c.streams) : Kept c c' where
  readSide := hr
  stream sid st' h := ⟨st', by rw [← h]; simp only [Conn.stream?, hs], .refl st'⟩

theorem erase (hr : c'.readSide = c.readSide) (hs : c'.streams = c.streams.erase sid) : Kept c c' where
  readSide := hr
  stream s st' h := by
    simp only [Conn.stream?, hs, Table.lookup_erase_ite] at h
    split at h
    · cases h
    · exact ⟨st', h, .refl st'⟩

theorem lastStreamId (h : Kept c c') : c'.lastStreamId = c.lastStreamId :=
  congrArg ReadSide.lastStreamId h.readSide

theorem closing (h : Kept c c') : c'.closing = c.closing :=
  congrArg ReadSide.closing h.readSide

theorem connRecvWindow (h : Kept c c') : c'.connRecvWindow = c.connRecvWindow :=
  congrArg ReadSide.connRecvWindow h.readSide

theorem streamRecvWindow (h : Kept c c') : c'.streamRecvWindow = c.streamRecvWindow :=
  congrArg ReadSide.streamRecvWindow h.readSide

theorem stream_none (h : Kept c c') (hn : c.stream? sid = none) : c'.stream? sid = none := by
  cases hs : c'.stream? sid with
  | none => rfl
  | some st' =>
    obtain ⟨st, h', -⟩ := h.stream sid st' hs
    rw [hn] at h'
    cases h'

theorem note (c : Conn) {e : Event} (he : e.isInbound = false) : Kept c (c.note e) :=
  .of_eq (by simp [Conn.readSide, Conn.note, he]) rfl

theorem send (c : Conn) (f : Frame) : Kept c (c.send f) := note c rfl

end Kept

/-! ### The pieces of the write side -/

/-- A stream taken out of the table after its response's final frame. -/
def Conn.complete (c : Conn) (sid : ℕ) : Conn := (c.stopClient sid).detachStream sid

/-- A stream taken out of the table by an error. -/
def Conn.reset (c : Conn) (sid : ℕ) (err : ErrCode) : Conn :=
  (c.sendReset sid err).detachStream sid

/-- A DATA frame of `n` bytes can be cut from the stream's backlog now; `last` is its
END_STREAM flag. -/
structure Conn.CanSend (c : Conn) (st : Stream) (n : ℕ) (last : Bool) : Prop where
  backlog : 0 < st.backlog
  size : (n : ℤ) = c.chunkSize st st.backlog
  pos : 0 < n
  last_eq : last = (st.ws.isNone && st.pendingIsLast && st.respTrailers.isEmpty &&
    decide (st.pendingPos + n = st.pendingBody.length))

/-- A buffered response is begun. -/
def Conn.beginBuffered (c : Conn) (sid : ℕ) (head : ResponseHead) (body : Bytes) (st : Stream) :
    Conn :=
  (c.note (.answered sid (head.declared body) st.isHead)).modify sid
    (fun st => { st with responded := true })

/-- A buffered response without DATA. -/
def ResponseHead.noBody (head : ResponseHead) (st : Stream) (body : Bytes) : Bool :=
  body.isEmpty || st.isHead || bodilessStatus head.code

/-- A WebSocket is attached to the stream. -/
def Conn.attachWs (c : Conn) (sid : ℕ) : Conn :=
  c.modify sid (fun st => { st with
    responded := true
    ws := some { inBuf := st.body, preAcceptFin := st.endStreamSeen }
    body := [] })

/-- The stream's entry at the head of a queue is removed. -/
def Conn.popQueue (c : Conn) (u : Fin 8) : Conn :=
  { c with sendQ := Function.update c.sendQ u (c.sendQ u).tail }

/-- The stream at the head of a queue gets its turn. -/
def Conn.popTurn (c : Conn) (u : Fin 8) (sid : ℕ) : Conn :=
  (c.popQueue u).modify sid (fun st => { st with inSendQ := false })

/-- It is the turn of the open stream `sid` in a scheduler pass. -/
structure Conn.Turn (c : Conn) (u : Fin 8) (sid : ℕ) (st : Stream) : Prop where
  head : ∃ rest, c.sendQ u = sid :: rest
  stream : c.stream? sid = some st
  window : 0 < c.connSendWindow
  room : c.pendingOut < respHighWater

/-- The stream as it is served. -/
def Stream.served (st : Stream) : Stream := { st with inSendQ := false }

/-- A served stream goes back on its queue if it can send more. -/
def Conn.endTurn (c : Conn) (sid : ℕ) : Conn :=
  match c.stream? sid with
  | none => c
  | some st => if st.sendable then c.requeue sid st else c

/-- The scheduler served a WebSocket stream: nothing went out, or a DATA frame. -/
inductive Conn.WsTurn (c : Conn) (u : Fin 8) (sid : ℕ) : Conn → Prop
  | nothing {st : Stream} (ht : c.Turn u sid st) (hw : st.ws.isSome = true) :
      WsTurn c u sid (c.popTurn u sid)
  | chunk {st : Stream} {n : ℕ} (ht : c.Turn u sid st) (hw : st.ws.isSome = true)
      (hn : (c.popTurn u sid).CanSend st.served n false) :
      WsTurn c u sid ((c.popTurn u sid).sendChunk sid st.served n false)

/-- Bookkeeping of the transport on a WebSocket. -/
structure WsConn.Marked (w w' : WsConn) : Prop where
  outBuf : w'.outBuf = w.outBuf
  wantClose : w'.wantClose = w.wantClose

/-- A declared length is the number of bytes written. -/
def Stream.LengthMet (st : Stream) : Prop :=
  0 ≤ st.respDeclaredLen → (st.respBodyWritten : ℤ) = st.respDeclaredLen

/-! ### What header blocks consist of -/

theorem fieldBytes_encodeExtraHeader (f : Bytes × Bytes) : FieldBytes (encodeExtraHeader f) := by
  unfold encodeExtraHeader
  split_ifs
  · exact .nil
  · exact .header _ _
  · exact .header _ _

theorem fieldBytes_encodeTrailerField (f : Bytes × Bytes) : FieldBytes (encodeTrailerField f) := by
  unfold encodeTrailerField
  dsimp only
  split_ifs
  all_goals first | exact .nil | exact .header _ _

theorem fieldBytes_encodeOptional (name val : Bytes) : FieldBytes (encodeOptional name val) := by
  unfold encodeOptional
  split_ifs
  · exact .nil
  · exact .header _ _

theorem fieldBytes_streamedBlock (head : ResponseHead) : FieldBytes head.streamedBlock := by
  refine .append (.append (.append (.append (.append (.status _) ?_) (.header _ _)) ?_) ?_) ?_
  · exact fieldBytes_encodeOptional _ _
  · exact fieldBytes_encodeOptional _ _
  · exact fieldBytes_encodeOptional _ _
  · exact .flatMap fieldBytes_encodeExtraHeader _

theorem fieldBytes_bufferedBlock (head : ResponseHead) (n : ℕ) :
    FieldBytes (head.bufferedBlock n) := by
  refine .append (.append (.append (.append (.append (.append (.append (.status _) ?_)
    (.header _ _)) ?_) ?_) ?_) ?_) ?_
  · exact fieldBytes_encodeOptional _ _
  · split_ifs
    · exact .nil
    · exact fieldBytes_encodeOptional _ _
  · split_ifs
    · exact .nil
    · exact .header _ _
  · exact fieldBytes_encodeOptional _ _
  · exact .flatMap fieldBytes_encodeExtraHeader _
  · exact .flatMap fieldBytes_encodeExtraHeader _

theorem fieldBytes_wsAcceptBlock (dateStr serverHeader proto ext : Bytes) :
    FieldBytes (wsAcceptBlock dateStr serverHeader proto ext) := by
  refine .append (.append (.append (.append (.status _) ?_) (.header _ _)) ?_) ?_
  · exact fieldBytes_encodeOptional _ _
  · exact fieldBytes_encodeOptional _ _
  · exact fieldBytes_encodeOptional _ _

/-! ### Pieces of responses -/

/-- The pieces that answer a request or emit what a response consists of.  The index is the
stream the piece takes out of the table, if it does. -/
inductive ResponseAtom : Option ℕ → Conn → Conn → Prop
  | informational {c : Conn} {sid : ℕ} {st : Stream} (hs : c.stream? sid = some st)
      (hr : st.responded = false) (fields : Bytes) (hf : FieldBytes fields) :
      ResponseAtom none c (c.emitBlock sid fields false)
  | sendHead {c : Conn} {sid : ℕ} {st : Stream} (hs : c.stream? sid = some st)
      (hr : st.responded = false) (hh : st.isHead = false) (len : Declared) (fields : Bytes)
      (hf : FieldBytes fields) :
      ResponseAtom none c ((c.beginStreamed sid st len).emitBlock sid fields false)
  | endHead {c : Conn} {sid : ℕ} {st : Stream} (hs : c.stream? sid = some st)
      (hr : st.responded = false) (hh : st.isHead = true) (len : Declared) (fields : Bytes)
      (hf : FieldBytes fields) :
      ResponseAtom (some sid) c
        (((c.beginStreamed sid st len).emitBlock sid fields true).complete sid)
  | write {c : Conn} {sid : ℕ} {st : Stream} (hs : c.stream? sid = some st)
      (hp : st.respPhase = .rpStreaming) (hh : st.isHead = false) (data : Bytes)
      (hd : 0 < data.length) : ResponseAtom none c ((c.acceptWrite sid data).h2Enqueue sid)
  | abort {c : Conn} {sid : ℕ} {st : Stream} (hs : c.stream? sid = some st)
      (hp : st.respPhase = .rpStreaming) :
      ResponseAtom (some sid) c ((c.beginAbort sid).reset sid .errInternal)
  | finishBare {c : Conn} {sid : ℕ} {st : Stream} (hs : c.stream? sid = some st)
      (hp : st.respPhase = .rpStreaming) (hh : st.isHead = false) (hl : st.LengthMet)
      (trailers : Fields) (hb : st.backlog = 0) :
      ResponseAtom (some sid) c (((c.beginFinish sid trailers).sendEnd sid).complete sid)
  | finishTrailers {c : Conn} {sid : ℕ} {st : Stream} (hs : c.stream? sid = some st)
      (hp : st.respPhase = .rpStreaming) (hh : st.isHead = false) (hl : st.LengthMet)
      (trailers : Fields) (hb : st.backlog = 0) (st' : Stream) :
      ResponseAtom (some sid) c
        (((c.beginFinish sid trailers).emitTrailerBlock sid st').complete sid)
  | respond {c : Conn} {sid : ℕ} {st : Stream} (hs : c.stream? sid = some st)
      (hr : st.responded = false) (head : ResponseHead) (body : Bytes)
      (hb : head.noBody st body = false) :
      ResponseAtom none c ((((c.beginBuffered sid head body st).emitBlock sid
        (head.bufferedBlock body.length) false).queueBody sid body).h2Enqueue sid)
  | endRespond {c : Conn} {sid : ℕ} {st : Stream} (hs : c.stream? sid = some st)
      (hr : st.responded = false) (head : ResponseHead) (body : Bytes)
      (hb : head.noBody st body = true) :
      ResponseAtom (some sid) c (((c.beginBuffered sid head body st).emitBlock sid
        (head.bufferedBlock body.length) true).complete sid)
  | chunk {c : Conn} {u : Fin 8} {sid n : ℕ} {st : Stream} (ht : c.Turn u sid st)
      (hw : st.ws = none) (hn : (c.popTurn u sid).CanSend st.served n false) :
      ResponseAtom none c (((c.popTurn u sid).sendChunk sid st.served n false).endTurn sid)
  | endChunk {c : Conn} {u : Fin 8} {sid n : ℕ} {st : Stream} (ht : c.Turn u sid st)
      (hn : (c.popTurn u sid).CanSend st.served n true) :
      ResponseAtom (some sid) c (((c.popTurn u sid).sendChunk sid st.served n true).complete sid)
  | endBare {c : Conn} {u : Fin 8} {sid : ℕ} {st : Stream} (ht : c.Turn u sid st)
      (hw : st.ws = none) (hl : st.pendingIsLast = true) (hb : st.backlog = 0) :
      ResponseAtom (some sid) c (((c.popTurn u sid).sendEnd sid).complete sid)
  | endTrailers {c : Conn} {u : Fin 8} {sid : ℕ} {st : Stream} (ht : c.Turn u sid st)
      (hw : st.ws = none) (hl : st.pendingIsLast = true) (hb : st.backlog = 0) :
      ResponseAtom (some sid) c (((c.popTurn u sid).emitTrailerBlock sid st.served).complete sid)
  | wsAccept {c : Conn} {sid : ℕ} {st : Stream} (hs : c.stream? sid = some st)
      (hw : st.isWsConnect = true) (hr : st.responded = false) (hn : st.ws = none)
      (fields : Bytes) (hf : FieldBytes fields) :
      ResponseAtom none c ((c.attachWs sid).emitBlock sid fields false)
  | wsOutput {c : Conn} {sid : ℕ} {st : Stream} {w : WsConn} (hs : c.stream? sid = some st)
      (hw : st.ws = some w) (data : Bytes) (close : Bool) :
      ResponseAtom none c (((wsStage sid data close c).takeWsOutput sid
        { w with outBuf := w.outBuf ++ data, wantClose := w.wantClose || close }).h2Enqueue sid)
  | wsFlush {c : Conn} {sid : ℕ} {st : Stream} {w : WsConn} (hs : c.stream? sid = some st)
      (hw : st.ws = some w) : ResponseAtom none c ((c.takeWsOutput sid w).h2Enqueue sid)
  | wsServed {c c' : Conn} {u : Fin 8} {sid : ℕ} (h : c.WsTurn u sid c') (f : WsConn → WsConn)
      (hf : ∀ w : WsConn, w.Marked (f w)) :
      ResponseAtom none c ((c'.modifyWs sid f).h2Enqueue sid)

/-- The pieces of the functions on the write side.  The index is the stream the piece takes out
of the table, if it does. -/
inductive AppAtom : Option ℕ → Conn → Conn → Prop
  | response {o : Option ℕ} {c c' : Conn} (h : ResponseAtom o c c') : AppAtom o c c'
  | reset {c : Conn} {sid : ℕ} {st : Stream} (hs : c.stream? sid = some st) (err : ErrCode) :
      AppAtom (some sid) c (c.reset sid err)
  | resetGone {c : Conn} {sid : ℕ} (hs : c.stream? sid = none) (err : ErrCode) :
      AppAtom none c (c.sendReset sid err)
  | detach {c : Conn} {sid : ℕ} {st : Stream} (hs : c.stream? sid = some st) :
      AppAtom (some sid) c (c.detachStream sid)
  | fed (c : Conn) (sid : ℕ) (data : Bytes) : AppAtom none c (c.note (.fired (.wsFeed sid data)))
  | peerClosed (c : Conn) (sid : ℕ) : AppAtom none c (c.note (.fired (.wsPeerClosed sid)))
  | wsDrained (c : Conn) (sid : ℕ) : AppAtom none c (c.note (.fired (.wsDrain sid)))
  | enqueue (c : Conn) (sid : ℕ) : AppAtom none c (c.h2Enqueue sid)
  | popStale {c : Conn} {u : Fin 8} {sid : ℕ} (hq : ∃ rest, c.sendQ u = sid :: rest)
      (hs : c.stream? sid = none) : AppAtom none c (c.popQueue u)
  | idle {c : Conn} {u : Fin 8} {sid : ℕ} {st : Stream} (ht : c.Turn u sid st)
      (hn : st.sendable = false) : AppAtom none c (c.popTurn u sid)
  | scheduling (c : Conn) (b : Bool) : AppAtom none c { c with scheduling := b }
  | resuming (c : Conn) (b : Bool) : AppAtom none c { c with resuming := b }
  | wsStage (c : Conn) (sid : ℕ) (data : Bytes) : AppAtom none c (wsStage sid data false c)
  | wsSetOnDrain (c : Conn) (sid : ℕ) : AppAtom none c (wsSetOnDrain sid c)
  | takeDrain {c : Conn} {sid cb : ℕ} {st : Stream} (hs : c.stream? sid = some st)
      (hb : st.respBackedUp = true) (hc : st.onRespDrain = some cb) :
      AppAtom none c ((c.takeDrain sid).note (.fired (.drain sid cb)))
  | setPriority (c : Conn) (sid urgency : ℕ) (incremental : Bool) :
      AppAtom none c (h2SetPriority sid urgency incremental c)
  | flushed (c : Conn) (n : ℕ) : AppAtom none c { c with flushed := n }
  | goawayNotice (c : Conn) : AppAtom none c c.h2GoawayNotice
  | goaway (c : Conn) (err : ErrCode) : AppAtom none c (c.h2Goaway err)

/-- The pieces that park a producer, each the whole of a call. -/
inductive DrainAtom : Call → Conn → Conn → Prop
  | mark {c : Conn} {sid : ℕ} {st : Stream} (hs : c.stream? sid = some st)
      (hp : st.respPhase = .rpStreaming) : DrainAtom (.writable sid) c (c.setBackedUp sid)
  | register {c : Conn} {sid : ℕ} {st : Stream} (hs : c.stream? sid = some st)
      (hr : (st.ws.isNone && st.responded && st.respPhase != .rpStreaming) = false) (cb : ℕ) :
      DrainAtom (.onDrain sid cb) c (h2ArmDrain sid (c.storeDrain sid cb))

/-- The end of a streamed response is taken in while bytes of it are queued, or on a response
that has no body. -/
inductive FinishAtom (sid : ℕ) : Conn → Conn → Prop
  | queue {c : Conn} {st : Stream} (hs : c.stream? sid = some st)
      (hp : st.respPhase = .rpStreaming) (hh : st.isHead = false) (hl : st.LengthMet)
      (trailers : Fields) (hb : 0 < st.backlog) :
      FinishAtom sid c ((c.beginFinish sid trailers).h2Enqueue sid)
  | head {c : Conn} {st : Stream} (hs : c.stream? sid = some st)
      (hp : st.respPhase = .rpStreaming) (hh : st.isHead = true) (trailers : Fields) :
      FinishAtom sid c (c.beginFinish sid trailers)

/-- The close of a WebSocket has been flushed: END_STREAM goes out and `onClose` is run. -/
inductive CloseBegin (sid : ℕ) : Conn → Conn → Prop
  | mk {c c' : Conn} {u : Fin 8} {st : Stream} {w : WsConn} (h : c.WsTurn u sid c')
      (hs : c'.stream? sid = some st) (hw : st.ws = some w) (hb : st.backlog = 0)
      (hc : w.wantClose = true) (f : WsConn → WsConn) (hf : ∀ w : WsConn, w.Marked (f w)) :
      CloseBegin sid c (((c'.modifyWs sid f).sendEnd sid).note (.fired (.wsClosed sid)))

/-! ### The pieces seen from the read side -/

/-- An update that leaves the request, its body and its credit alone, and keeps a WebSocket. -/
structure Stream.Quiet (st st' : Stream) : Prop where
  request : st'.request = st.request
  bodySide : st'.bodySide = st.bodySide
  ws : st.ws.isSome = true → st'.ws.isSome = true
  noWs : st.ws = none → st'.ws = none

theorem Stream.Quiet.kept (h : st.Quiet st') : st.Kept st' := ⟨h.request, h.ws⟩

/-- What a piece without effect on the read side leaves equal, streams apart. -/
structure QuietView where
  readSide : ReadSide
  connRecvRemaining : ℤ
  pendingConnWindow : ℕ
  earlyClosed : Finset ℕ
  earlyClosedQ : List ℕ
  journal : List Event

def Conn.quietView (c : Conn) : QuietView where
  readSide := c.readSide
  connRecvRemaining := c.connRecvRemaining
  pendingConnWindow := c.pendingConnWindow
  earlyClosed := c.earlyClosed
  earlyClosedQ := c.earlyClosedQ
  journal := c.journal

/-- The ways in which a piece of the write side can touch the read side. -/
inductive Move : Conn → Conn → Prop
  | note (c : Conn) {e : Event} (he : e.isOutbound = true) : Move c (c.note e)
  | other {c c' : Conn} (hv : c'.quietView = c.quietView) (hs : c'.streams = c.streams) : Move c c'
  | update {c c' : Conn} {sid : ℕ} {f : Stream → Stream} (hv : c'.quietView = c.quietView)
      (hs : c'.streams = c.streams.modify sid f) (hf : ∀ st : Stream, st.Quiet (f st)) : Move c c'
  | detach (c : Conn) (sid : ℕ) : Move c (c.detachStream sid)
  | attachWs {c : Conn} {sid : ℕ} {st : Stream} (hs : c.stream? sid = some st)
      (hw : st.isWsConnect = true) : Move c (c.attachWs sid)
  | dropWs {c : Conn} {sid : ℕ}
      (hw : ∀ st, c.stream? sid = some st → st.ws.isSome = true) : Move c (c.dropWsStream sid)

abbrev Moves : Conn → Conn → Prop := ReflTransGen Move

namespace Moves

theorem note (c : Conn) {e : Event} (he : e.isOutbound = true) : Moves c (c.note e) :=
  .single (.note c he)

theorem send (c : Conn) (f : Frame) : Moves c (c.send f) := note c rfl

theorem sendAll (c : Conn) (fs : List Frame) : Moves c (c.sendAll fs) := by
  induction fs generalizing c with
  | nil =>
    have e : c.sendAll [] = c := by simp [Conn.sendAll]
    rw [e]
  | cons f fs ih =>
    have e : c.sendAll (f :: fs) = (c.send f).sendAll fs := by
      simp [Conn.sendAll, Conn.send, Conn.note]
    rw [e]
    exact (send c f).trans (ih _)

theorem of_eq {c : Conn} (hv : c'.quietView = c.quietView) (hs : c'.streams = c.streams) :
    Moves c c' :=
  .single (.other hv hs)

theorem of_modify {c : Conn} {sid : ℕ} (hv : c'.quietView = c.quietView)
    (hs : c'.streams = c.streams.modify sid f) (hf : ∀ st : Stream, st.Quiet (f st)) : Moves c c' :=
  .single (.update hv hs hf)

theorem modify (c : Conn) (sid : ℕ) (hf : ∀ st : Stream, st.Quiet (f st)) :
    Moves c (c.modify sid f) :=
  of_modify rfl rfl hf

end Moves

/-! ### Strokes -/

/-- Events no account refers to. -/
def Event.isFree : Event → Bool
  | .sent (.data _ _ _) | .sent (.goaway _ _) | .sent (.headers _ _ _ _)
  | .sent (.continuation _ _ _) => false
  | .received _ | .connCredit _ | .streamCredit _ _ | .initialWindow _ | .maxFrame _ | .tableSize _
  | .opened _
  | .dispatched _ _ | .charged _ | .creditSpent => false
  | _ => true

/-- A stream without the progress of its response. -/
def Stream.bare (st : Stream) : Stream :=
  { st with
    respTrailers := [], responded := false, onRespDrain := none, respPhase := .rpNone
    respDeclaredLen := 0, respBodyWritten := 0, pendingBody := [], pendingPos := 0
    pendingIsLast := false, ws := st.ws.map (fun _ => {}), inSendQ := false
    urgency := Fin.last 7, incremental := false }

/-- A connection without its streams and the bookkeeping of the scheduler. -/
def Conn.bare (c : Conn) : Conn :=
  { c with
    streams := ∅, serverReset := ∅, serverResetQ := [], sendQ := fun _ => []
    scheduling := false, resuming := false, flushed := 0 }

/-- What the pieces of the write side are made of.  An update of the progress of a response
either leaves its backlog where it was or is followed by the update of the cached flags. -/
inductive Stroke : Conn → Conn → Prop
  | note (c : Conn) {e : Event} (ho : e.isOutbound = true) (hf : e.isFree = true) :
      Stroke c (c.note e)
  | other {c c' : Conn} (hv : c'.bare = c.bare) (hs : c'.streams = c.streams) : Stroke c c'
  | update {c c' : Conn} {sid : ℕ} {f : Stream → Stream} (hv : c'.bare = c.bare)
      (hs : c'.streams = c.streams.modify sid f)
      (hf : ∀ st, (f st).bare = st.bare ∧ (f st).hasBacklog = st.hasBacklog) : Stroke c c'
  | synced {c : Conn} {sid : ℕ} {f : Stream → Stream} (hf : ∀ st, (f st).bare = st.bare) :
      Stroke c ((c.modify sid f).syncSendState sid)
  | block (c : Conn) (sid : ℕ) {fields : Bytes} (hf : FieldBytes fields) (es : Bool) :
      Stroke c (c.emitBlock sid fields es)
  | bareEnd (c : Conn) (sid : ℕ) : Stroke c (c.sendEnd sid)
  | chunk {c : Conn} {sid n : ℕ} {st : Stream} {last : Bool} (hs : c.stream? sid = some st)
      (hn : c.CanSend st n last) : Stroke c (c.sendChunk sid st n last)
  | direct (c : Conn) (sid : ℕ) (data : Bytes) : Stroke c (c.h2WriteDirect sid data).1
  | setBackedUp (c : Conn) (sid : ℕ) : Stroke c (c.setBackedUp sid)
  | clearBackedUp (c : Conn) (sid : ℕ) : Stroke c (c.clearBackedUp sid)
  | detach (c : Conn) (sid : ℕ) : Stroke c (c.detachStream sid)
  | attachWs {c : Conn} {sid : ℕ} {st : Stream} (hs : c.stream? sid = some st)
      (hw : st.isWsConnect = true) : Stroke c (c.attachWs sid)
  | goawayNotice (c : Conn) : Stroke c c.h2GoawayNotice
  | goaway (c : Conn) (err : ErrCode) : Stroke c (c.h2Goaway err)

abbrev Strokes : Conn → Conn → Prop := ReflTransGen Stroke

theorem bare_compactPendingBody (st : Stream) : st.compactPendingBody.bare = st.bare ∧
    st.compactPendingBody.hasBacklog = st.hasBacklog := by
  unfold Stream.compactPendingBody
  dsimp only
  split_ifs with h1 h2 h3
  · exact ⟨rfl, rfl⟩
  · exact ⟨rfl, by simp only [Stream.hasBacklog, List.length_nil]; grind⟩
  · exact ⟨rfl, rfl⟩
  · exact ⟨rfl, by simp only [Stream.hasBacklog, List.length_drop]; grind⟩

theorem stream_popTurn {c : Conn} {u : Fin 8} {sid : ℕ} (hs : c.stream? sid = some st) :
    (c.popTurn u sid).stream? sid = some st.served := by
  have hu : Updates c (c.popTurn u sid) sid Stream.served := .of_streams rfl
  rw [hu sid, if_pos rfl, hs]
  rfl

namespace Strokes

theorem trans {c : Conn} (h1 : Strokes a b) (h2 : Strokes b c) : Strokes a c :=
  ReflTransGen.trans h1 h2

variable (c : Conn) (sid : ℕ)

theorem note {e : Event} (ho : e.isOutbound = true) (hf : e.isFree = true) : Strokes c (c.note e) :=
  .single (.note c ho hf)

theorem of_eq {c : Conn} (hv : c'.bare = c.bare) (hs : c'.streams = c.streams) : Strokes c c' :=
  .single (.other hv hs)

theorem of_modify {c : Conn} {sid : ℕ} (hv : c'.bare = c.bare)
    (hs : c'.streams = c.streams.modify sid f)
    (hf : ∀ st, (f st).bare = st.bare ∧ (f st).hasBacklog = st.hasBacklog) : Strokes c c' :=
  .single (.update hv hs hf)

theorem modify (hf : ∀ st, (f st).bare = st.bare ∧ (f st).hasBacklog = st.hasBacklog) :
    Strokes c (c.modify sid f) :=
  of_modify rfl rfl hf

theorem emitBlock {fields : Bytes} (hf : FieldBytes fields) (es : Bool) :
    Strokes c (c.emitBlock sid fields es) :=
  .single (.block c sid hf es)

theorem emitTrailerBlock (st : Stream) : Strokes c (c.emitTrailerBlock sid st) :=
  emitBlock c sid (.flatMap fieldBytes_encodeTrailerField _) true

theorem sendEnd : Strokes c (c.sendEnd sid) := .single (.bareEnd c sid)

theorem sendReset (err : ErrCode) : Strokes c (c.sendReset sid err) := by
  unfold Conn.sendReset
  split_ifs
  · exact note c rfl rfl
  · exact .refl

theorem stopClient : Strokes c (c.stopClient sid) := by
  unfold Conn.stopClient
  cases hs : c.stream? sid with
  | none => exact .refl
  | some st =>
    dsimp only
    split_ifs
    · refine (note c (e := .sent (.rstStream sid .errNoError)) rfl rfl).trans ?_
      unfold Conn.recordServerReset
      dsimp only
      split_ifs <;> exact of_eq rfl rfl
    · exact .refl

theorem complete : Strokes c (c.complete sid) := (stopClient c sid).tail (.detach _ sid)

theorem reset (err : ErrCode) : Strokes c (c.reset sid err) :=
  (sendReset c sid err).tail (.detach _ sid)

theorem beginStreamed (st : Stream) (len : Declared) : Strokes c (c.beginStreamed sid st len) :=
  (note c rfl rfl).trans (modify _ sid (fun _ => ⟨rfl, rfl⟩))

theorem beginBuffered (head : ResponseHead) (body : Bytes) (st : Stream) :
    Strokes c (c.beginBuffered sid head body st) :=
  (note c rfl rfl).trans (modify _ sid (fun _ => ⟨rfl, rfl⟩))

theorem beginAbort : Strokes c (c.beginAbort sid) :=
  (note c rfl rfl).trans (modify _ sid (fun _ => ⟨rfl, rfl⟩))

theorem beginFinish (trailers : Fields) : Strokes c (c.beginFinish sid trailers) := by
  refine ReflTransGen.tail ?_ (.clearBackedUp _ sid)
  exact modify c sid (fun _ => ⟨rfl, rfl⟩)

theorem h2Enqueue : Strokes c (c.h2Enqueue sid) := by
  unfold Conn.h2Enqueue
  cases hs : c.stream? sid with
  | none => exact .refl
  | some st =>
    dsimp only
    split_ifs
    · exact of_modify rfl rfl (fun _ => ⟨rfl, rfl⟩)
    · exact .refl

theorem popTurn (u : Fin 8) : Strokes c (c.popTurn u sid) :=
  of_modify rfl rfl (fun _ => ⟨rfl, rfl⟩)

theorem endTurn : Strokes c (c.endTurn sid) := by
  unfold Conn.endTurn
  cases hs : c.stream? sid with
  | none => exact .refl
  | some st =>
    dsimp only
    split_ifs
    · exact of_modify rfl rfl (fun _ => ⟨rfl, rfl⟩)
    · exact .refl

theorem modifyWs (f : WsConn → WsConn) : Strokes c (c.modifyWs sid f) :=
  modify c sid (fun st => ⟨by simp [Stream.bare, Function.comp_def], rfl⟩)

theorem queueBody (body : Bytes) : Strokes c (c.queueBody sid body) :=
  (note c rfl rfl).tail (.synced (fun _ => rfl))

theorem takeWsOutput (w : WsConn) : Strokes c (c.takeWsOutput sid w) := by
  unfold Conn.takeWsOutput Conn.modifyWs
  split_ifs
  · refine (note c (e := .accepted sid w.outBuf) rfl rfl).trans ?_
    simp only [Conn.modify, Table.modify_modify]
    refine .single (.synced (fun st => ?_))
    rw [← (bare_compactPendingBody st).1]
    simp [Stream.bare, Function.comp_def]
  · exact .refl

theorem acceptWrite (data : Bytes) : Strokes c (c.acceptWrite sid data) := by
  unfold Conn.acceptWrite
  dsimp only
  have h1 := (note c (e := .accepted sid data) rfl rfl).trans (modify _ sid (f := fun st =>
    Stream.compactPendingBody { st with respBodyWritten := st.respBodyWritten + data.length })
    (fun st => bare_compactPendingBody _))
  have h2 := h1.tail (.direct _ sid data)
  split_ifs
  · exact h2.tail (.synced (fun _ => rfl))
  · exact h2

end Strokes

section Strokes

variable {c : Conn} {sid : ℕ}

theorem strokes_servedChunk {u : Fin 8} {n : ℕ} {last : Bool} (ht : c.Turn u sid st)
    (hn : (c.popTurn u sid).CanSend st.served n last) :
    Strokes c ((c.popTurn u sid).sendChunk sid st.served n last) :=
  (Strokes.popTurn c sid u).tail (.chunk (stream_popTurn ht.stream) hn)

theorem Conn.WsTurn.strokes {u : Fin 8} (h : c.WsTurn u sid c') : Strokes c c' := by
  cases h with
  | nothing ht hw => exact .popTurn c sid u
  | chunk ht hw hn => exact strokes_servedChunk ht hn

theorem ResponseAtom.strokes {o : Option ℕ} (h : ResponseAtom o a b) : Strokes a b := by
  cases h with
  | informational hs hr fields hf => exact .emitBlock _ _ hf _
  | sendHead hs hr hh len fields hf =>
    exact (Strokes.beginStreamed _ _ _ _).trans (.emitBlock _ _ hf _)
  | endHead hs hr hh len fields hf =>
    exact ((Strokes.beginStreamed _ _ _ _).trans (.emitBlock _ _ hf _)).trans (.complete _ _)
  | write hs hp hh data hd => exact (Strokes.acceptWrite _ _ _).trans (.h2Enqueue _ _)
  | abort hs hp => exact (Strokes.beginAbort _ _).trans (.reset _ _ _)
  | finishBare hs hp hh hl trailers hb =>
    exact ((Strokes.beginFinish _ _ _).trans (.sendEnd _ _)).trans (.complete _ _)
  | finishTrailers hs hp hh hl trailers hb st' =>
    exact ((Strokes.beginFinish _ _ _).trans (.emitTrailerBlock _ _ _)).trans (.complete _ _)
  | respond hs hr head body hb =>
    exact (((Strokes.beginBuffered _ _ _ _ _).trans
      (.emitBlock _ _ (fieldBytes_bufferedBlock _ _) _)).trans
      (.queueBody _ _ _)).trans (.h2Enqueue _ _)
  | endRespond hs hr head body hb =>
    exact ((Strokes.beginBuffered _ _ _ _ _).trans
      (.emitBlock _ _ (fieldBytes_bufferedBlock _ _) _)).trans (.complete _ _)
  | chunk ht hw hn => exact (strokes_servedChunk ht hn).trans (.endTurn _ _)
  | endChunk ht hn => exact (strokes_servedChunk ht hn).trans (.complete _ _)
  | endBare ht hw hl hb =>
    exact ((Strokes.popTurn _ _ _).trans (.sendEnd _ _)).trans (.complete _ _)
  | endTrailers ht hw hl hb =>
    exact ((Strokes.popTurn _ _ _).trans (.emitTrailerBlock _ _ _)).trans (.complete _ _)
  | wsAccept hs hw hr hn fields hf =>
    exact Strokes.trans (.single (.attachWs hs hw)) (.emitBlock _ _ hf _)
  | wsOutput hs hw data close =>
    exact ((Strokes.modifyWs _ _ _).trans (.takeWsOutput _ _ _)).trans (.h2Enqueue _ _)
  | wsFlush hs hw => exact (Strokes.takeWsOutput _ _ _).trans (.h2Enqueue _ _)
  | wsServed h f hf => exact (h.strokes.trans (.modifyWs _ _ _)).trans (.h2Enqueue _ _)

/-- **The pieces of the write side are strokes.** -/
theorem AppAtom.strokes {o : Option ℕ} (h : AppAtom o a b) : Strokes a b := by
  cases h with
  | response h => exact h.strokes
  | reset hs err => exact .reset _ _ err
  | resetGone hs err => exact .sendReset _ _ err
  | detach hs => exact .single (.detach _ _)
  | fed | peerClosed | wsDrained => exact .note _ rfl rfl
  | enqueue c sid => exact .h2Enqueue _ sid
  | popStale hq hs => exact .of_eq rfl rfl
  | idle ht hn => exact .popTurn _ _ _
  | scheduling | resuming | flushed => exact .of_eq rfl rfl
  | wsStage c sid data | wsSetOnDrain c sid => exact .modifyWs _ sid _
  | @takeDrain _ sid cb st hs hb hc =>
    refine Strokes.trans ?_ (.note _ rfl rfl)
    exact .trans (.single (.clearBackedUp a sid)) (.modify _ sid (fun _ => ⟨rfl, rfl⟩))
  | setPriority c sid u i => exact .modify _ sid (fun _ => ⟨rfl, rfl⟩)
  | goawayNotice c => exact .single (.goawayNotice a)
  | goaway c err => exact .single (.goaway a err)

theorem DrainAtom.strokes {k : Call} (h : DrainAtom k a b) : Strokes a b := by
  cases h with
  | mark hs hp => exact .single (.setBackedUp _ _)
  | @register _ sid st hs hr cb =>
    have h1 : Strokes a (a.storeDrain sid cb) :=
      (Strokes.note a rfl rfl).trans (.modify _ sid (fun _ => ⟨rfl, rfl⟩))
    refine h1.trans ?_
    unfold h2ArmDrain
    split
    · exact .refl
    · split_ifs
      · exact .single (.setBackedUp _ _)
      · exact .refl

theorem FinishAtom.strokes (h : FinishAtom sid a b) : Strokes a b := by
  cases h with
  | queue hs hp hh hl trailers hb => exact (Strokes.beginFinish _ _ _).trans (.h2Enqueue _ _)
  | head hs hp hh trailers => exact .beginFinish _ _ _

theorem CloseBegin.strokes (h : CloseBegin sid a b) : Strokes a b := by
  cases h with
  | mk h hs hw hb hc f hf =>
    exact ((h.strokes.trans (.modifyWs _ _ _)).trans (.sendEnd _ _)).trans (.note _ rfl rfl)

end Strokes

/-! ### Strokes seen from the read side -/

theorem Stream.isSome_of_bare (h : st'.bare = st.bare) : st'.ws.isSome = st.ws.isSome := by
  simpa [Stream.bare] using congrArg (fun st => st.ws.isSome) h

theorem Stream.sendWindow_of_bare (h : st'.bare = st.bare) : st'.sendWindow = st.sendWindow := by
  have e := congrArg Stream.sendWindow h
  exact e

theorem Stream.Quiet.of_bare (h : st'.bare = st.bare) : st.Quiet st' := by
  have hw := Stream.isSome_of_bare h
  have hr := congrArg Stream.request h
  have hb := congrArg Stream.bodySide h
  exact ⟨hr, hb, hw.trans, fun h => by simpa [h] using hw⟩

theorem quietView_of_bare {c : Conn} (h : c'.bare = c.bare) : c'.quietView = c.quietView := by
  have e := congrArg Conn.quietView h
  exact e

section Moves

variable (c : Conn) (sid : ℕ)

theorem moves_noteDataProgress (n frames : ℕ) : Moves c (c.noteDataProgress n frames) := by
  unfold Conn.noteDataProgress
  dsimp only
  split_ifs <;> exact Moves.of_eq rfl rfl

theorem moves_syncSendState : Moves c (c.syncSendState sid) := by
  unfold Conn.syncSendState
  cases hs : c.stream? sid with
  | none => exact .refl
  | some st => exact Moves.of_modify rfl rfl (fun _ => ⟨rfl, rfl, id, id⟩)

theorem moves_sendChunk (st : Stream) (n : ℕ) (last : Bool) :
    Moves c (c.sendChunk sid st n last) := by
  refine ReflTransGen.trans ?_ (moves_syncSendState _ sid)
  refine ReflTransGen.trans ?_ (Moves.modify _ sid (fun st =>
    .of_bare (bare_compactPendingBody st).1))
  refine ReflTransGen.trans ?_ (moves_noteDataProgress _ _ _)
  exact (Moves.send c _).trans (Moves.of_modify rfl rfl (fun _ => ⟨rfl, rfl, id, id⟩))

theorem moves_directLoop (s : DirectState) : Moves s.c ((directLoop sid).run s).c := by
  refine directLoop_induction sid (P := fun s r => Moves s.c r.c) (fun _ => .refl) ?_ s
  intro s r st n _ ih
  refine ReflTransGen.trans ?_ ih
  exact (Moves.send s.c _).trans (Moves.of_modify rfl rfl (fun _ => ⟨rfl, rfl, id, id⟩))

theorem moves_h2WriteDirect (data : Bytes) : Moves c (c.h2WriteDirect sid data).1 := by
  unfold Conn.h2WriteDirect
  cases hs : c.stream? sid with
  | none => exact .refl
  | some st =>
    dsimp only
    have hloop := moves_directLoop sid { c := c, rest := data }
    split_ifs
    · exact .refl
    · exact (hloop.trans (moves_noteDataProgress _ _ _)).trans (moves_syncSendState _ sid)
    · exact hloop

theorem Stroke.moves (h : Stroke a b) : Moves a b := by
  cases h with
  | note ho hf => exact .note a ho
  | other hv hs => exact .of_eq (quietView_of_bare hv) hs
  | update hv hs hf =>
    exact .of_modify (quietView_of_bare hv) hs (fun st => .of_bare (hf st).1)
  | synced hf =>
    exact (Moves.modify a _ (fun st => .of_bare (hf st))).trans (moves_syncSendState _ _)
  | block sid hf es =>
    refine ReflTransGen.trans ?_ (Moves.sendAll _ _)
    exact Moves.of_eq rfl rfl
  | bareEnd sid => exact .send a _
  | chunk hs hn => exact moves_sendChunk _ _ _ _ _
  | direct sid data => exact moves_h2WriteDirect a sid data
  | setBackedUp sid =>
    unfold Conn.setBackedUp
    cases hs : a.stream? sid with
    | none => exact .refl
    | some st => exact Moves.of_modify rfl rfl (fun _ => ⟨rfl, rfl, id, id⟩)
  | clearBackedUp sid =>
    unfold Conn.clearBackedUp
    cases hs : a.stream? sid with
    | none => exact .refl
    | some st => exact Moves.of_modify rfl rfl (fun _ => ⟨rfl, rfl, id, id⟩)
  | detach sid => exact .single (.detach a sid)
  | attachWs hs hw => exact .single (.attachWs hs hw)
  | goawayNotice =>
    unfold Conn.h2GoawayNotice
    split_ifs
    · exact .refl
    · refine ReflTransGen.trans ?_ (Moves.send _ _)
      exact Moves.of_eq rfl rfl
  | goaway err =>
    unfold Conn.h2Goaway
    split_ifs
    · exact .refl
    · refine ReflTransGen.trans ?_ (Moves.send _ _)
      exact Moves.of_eq rfl rfl

/-- **Strokes seen from the read side.** -/
theorem Strokes.moves (h : Strokes a b) : Moves a b := by
  induction h with
  | refl => exact .refl
  | tail _ h ih => exact ih.trans h.moves

end Moves

/-! ### Moves keep the read side -/

theorem kept_recordEarlyClosed (c : Conn) (sid : ℕ) : Kept c (c.recordEarlyClosed sid) := by
  have hn : Kept c (c.note (.closedEarly sid)) := .note c rfl
  unfold Conn.recordEarlyClosed
  dsimp only
  split_ifs
  · exact .refl c
  · exact hn.trans (.of_eq rfl rfl)
  · exact hn.trans (.of_eq rfl rfl)

theorem kept_creditConn (c : Conn) (n : ℕ) : Kept c (c.creditConn n) := by
  unfold Conn.creditConn
  dsimp only
  split_ifs
  · exact .refl c
  · exact (Kept.send c _).trans (.of_eq rfl rfl)
  · exact .of_eq rfl rfl

theorem kept_detachStream (c : Conn) (sid : ℕ) : Kept c (c.detachStream sid) := by
  unfold Conn.detachStream
  cases hs : c.stream? sid with
  | none => exact .refl c
  | some st =>
    have h1 : Kept c (if st.endStreamSeen then c else c.recordEarlyClosed sid) := by
      split_ifs
      · exact .refl c
      · exact kept_recordEarlyClosed c sid
    exact (h1.trans (kept_creditConn _ _)).trans (.erase (Kept.note _ rfl).readSide rfl)

theorem Move.kept (h : Move a b) : Kept a b := by
  cases h with
  | note he => exact .note _ (Event.not_inbound he)
  | other hv hs => exact .of_eq (congrArg QuietView.readSide hv) hs
  | update hv hs hf =>
    exact .of_modify (congrArg QuietView.readSide hv) hs (fun st => (hf st).kept)
  | detach sid => exact kept_detachStream _ sid
  | attachWs hs hw => exact .modify _ _ (fun _ => ⟨rfl, fun _ => rfl⟩)
  | @dropWs sid hw =>
    unfold Conn.dropWsStream
    cases hs : a.stream? sid with
    | none => exact .refl a
    | some st => exact .erase (Kept.note _ rfl).readSide rfl

theorem Moves.kept (h : Moves a b) : Kept a b := by
  induction h with
  | refl => exact .refl a
  | tail _ hm ih => exact ih.trans hm.kept

end Vortex.Http2
