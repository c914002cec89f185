import Mathlib.Data.Finset.Basic
import Mathlib.Tactic.Common
import Vortex.Table
import Vortex.Http2.Frames
import Vortex.Http2.Hpack

/-! # The state of an HTTP/2 connection

`H2Stream` and `H2Conn` of `http2/codec.nim`, together with the fields of the owning
`Connection` the codec reads or writes (the write buffer, the closing state).  Fields that are
fixed when the connection is set up are grouped in `Config`.

Besides the source's own fields the connection carries a `journal`: the list, oldest first, of
what crossed its border.  Frames received and sent, callbacks stored and run, streams opened and
removed, charges made, and the points at which a window increment, a setting, a request head, a
response head or response bytes were taken in.  No function of the codec reads it, except that
the write buffer is the bytes of the frames sent and not yet flushed.  Properties of whole runs
are stated over it.

Machine integers: stream and connection send windows are `int32` and their arithmetic wraps
explicitly (`int32`); the other counters are `int` in the source, far from their limits, and
are `ℕ` or `ℤ` here. -/

namespace Vortex.Http2

/-! ### Numbers -/

/-- Two's complement wrap-around of 32-bit arithmetic. -/
def int32 (x : ℤ) : ℤ := x.bmod (2 ^ 32)

theorem int32_of_range {x : ℤ} (h1 : -2 ^ 31 ≤ x) (h2 : x < 2 ^ 31) : int32 x = x :=
  Int.bmod_eq_of_le (by omega) (by omega)

/-- A legal SETTINGS_MAX_FRAME_SIZE. -/
abbrev MaxFrame := { n : ℕ // 16384 ≤ n ∧ n ≤ 16777215 }

/-- How a counter of flagged streams moves when one flag goes from `old` to `new`. -/
def flagDelta (old new : Bool) : ℤ := if new = old then 0 else if new then 1 else -1

def ourMaxFrameSize : ℕ := defaultMaxFrameSize
def respHighWater : ℕ := 64 * 1024
def maxPendingPriority : ℕ := 128
def maxEarlyClosed : ℕ := 256
def windowCreditUnit : ℕ := 256
def windowCreditCap : ℕ := 4
def goawayMaxStreamId : ℕ := 0x7fffffff

/-! ### Streams -/

/-- The send state machine of a streamed response. -/
inductive RespPhase where
  | rpNone | rpHeadSent | rpStreaming | rpFinished | rpAborted
deriving DecidableEq, Repr

/-- What the HTTP/2 codec sees of a WebSocket attached to a stream. -/
structure WsConn where
  inBuf : Bytes := []
  outBuf : Bytes := []
  wantClose : Bool := false
  backedUp : Bool := false
  hasOnDrain : Bool := false
  preAcceptFin : Bool := false
  h2Pending : ℕ := 0
deriving DecidableEq, Repr

/-- One open stream.  Callbacks are named by numbers. -/
structure Stream where
  headers : Fields := []
  trailers : Fields := []
  respTrailers : Fields := []
  body : Bytes := []
  sendWindow : ℤ
  recvRemaining : ℤ
  endStreamSeen : Bool := false
  dispatched : Bool := false
  isHead : Bool := false
  headersDone : Bool := false
  /-- `-1` when the request declared none. -/
  contentLength : ℤ := -1
  bodyReceived : ℕ := 0
  responded : Bool := false
  reqStreaming : Bool := false
  onBodyCb : Option ℕ := none
  onRespDrain : Option ℕ := none
  respPhase : RespPhase := .rpNone
  /-- `-1` when the response declared none; the source's zero initialisation before that. -/
  respDeclaredLen : ℤ := 0
  respBodyWritten : ℕ := 0
  pendingBody : Bytes := []
  pendingPos : ℕ := 0
  pendingIsLast : Bool := false
  respBackedUp : Bool := false
  bodyManualAck : Bool := false
  isWsConnect : Bool := false
  ws : Option WsConn := none
  pendingWindow : ℕ := 0
  bufferedCounted : ℕ := 0
  connDeferred : ℕ := 0
  inSendQ : Bool := false
  hadBacklog : Bool := false
  wasWindowBlocked : Bool := false
  urgency : Fin 8 := 3
  incremental : Bool := false
deriving DecidableEq, Repr

namespace Stream

/-- Response bytes queued and not yet sent. -/
def unsent (st : Stream) : Bytes := st.pendingBody.drop st.pendingPos

/-- Their number. -/
def backlog (st : Stream) : ℕ := st.pendingBody.length - st.pendingPos

def hasBacklog (st : Stream) : Bool := st.pendingBody.length > st.pendingPos

end Stream

/-- How a request is handed over: when it is complete, on its headers to a streaming route, or on
its headers as a tunnel that may become a WebSocket. -/
inductive Route where
  | buffered | streaming | tunnel
deriving DecidableEq, Repr

def Stream.route (st : Stream) : Route :=
  if st.isWsConnect then .tunnel else if st.reqStreaming then .streaming else .buffered

/-! ### The journal -/

/-- A callback the codec runs: a body sink, a drain callback, or the WebSocket layer. -/
inductive Callback where
  | body (sid cb : ℕ) (data : Bytes) (last : Bool)
  | drain (sid cb : ℕ)
  | wsFeed (sid : ℕ) (data : Bytes)
  | wsPeerClosed (sid : ℕ)
  | wsClosed (sid : ℕ)
  | wsDrain (sid : ℕ)
deriving DecidableEq, Repr

/-- What a response head says about its body: the length handed over with it, `-1` for none, and
the fields of the handler. -/
structure Declared where
  length : ℤ
  fields : Fields
deriving DecidableEq, Repr

/-- An event at the border of the connection. -/
inductive Event where
  /-- A complete frame was taken from the receive buffer. -/
  | received (f : InFrame)
  /-- A frame was appended to the write buffer. -/
  | sent (f : Frame)
  /-- A callback was run. -/
  | fired (cb : Callback)
  /-- A connection WINDOW_UPDATE was accepted. -/
  | connCredit (n : ℕ)
  /-- A stream WINDOW_UPDATE was accepted. -/
  | streamCredit (sid n : ℕ)
  /-- SETTINGS_INITIAL_WINDOW_SIZE was applied. -/
  | initialWindow (n : ℕ)
  /-- SETTINGS_MAX_FRAME_SIZE was applied. -/
  | maxFrame (n : ℕ)
  /-- SETTINGS_HEADER_TABLE_SIZE was applied. -/
  | tableSize (n : ℕ)
  /-- A final response head was begun. -/
  | answered (sid : ℕ) (declared : Declared) (isHead : Bool)
  /-- Response bytes were taken in for the stream. -/
  | accepted (sid : ℕ) (data : Bytes)
  /-- A streamed response was aborted. -/
  | aborted (sid : ℕ)
  /-- Request bytes were handed to a sink that is to acknowledge them (`manualAck`). -/
  | handed (sid n : ℕ)
  /-- Request bytes were acknowledged. -/
  | acked (sid n : ℕ)
  /-- The stream was closed while its client could still send. -/
  | closedEarly (sid : ℕ)
  /-- A HEADERS frame opened the stream. -/
  | opened (sid : ℕ)
  /-- The request head was taken: its fields, and where it goes. -/
  | head (sid : ℕ) (fields : Fields) (route : Route)
  /-- The request was handed over for dispatch, with this many body bytes buffered. -/
  | dispatched (sid n : ℕ)
  /-- The stream left the table. -/
  | removed (sid : ℕ)
  /-- A body sink was stored on the stream. -/
  | sinkSet (sid cb : ℕ)
  /-- A drain callback was stored on the stream. -/
  | drainSet (sid cb : ℕ)
  /-- Overhead was charged to the control-frame budget. -/
  | charged (n : ℕ)
  /-- A window credit paid for a WINDOW_UPDATE. -/
  | creditSpent
deriving DecidableEq, Repr

/-! ### The connection -/

/-- What is fixed when the connection is set up. -/
structure Config where
  maxBody : ℕ
  maxHeaderList : ℕ
  maxConcurrentStreams : ℕ
  maxResetStreams : ℕ
  maxControlFrames : ℕ
  streamRecvWindow : ℕ := 1024 * 1024
  connRecvWindow : ℕ := 1024 * 1024
deriving DecidableEq, Repr

/-- Why the field block now being read will not open or continue a stream. -/
inductive Refusal where
  /-- It will: nothing is refused. -/
  | none
  /-- Drop it without a reply (the source's `refuseSilent`). -/
  | silent
  | reset (err : ErrCode)
deriving DecidableEq, Repr

structure Conn where
  cfg : Config
  /-- The two receive windows advertised, at least the HTTP/2 default. -/
  streamRecvWindow : ℕ
  connRecvWindow : ℕ
  streams : Table ℕ Stream := ∅
  decoder : HpackDecoder
  connSendWindow : ℤ := defaultInitialWindow
  peerMaxFrame : MaxFrame := ⟨16384, by decide⟩
  peerInitialWindow : ℤ := defaultInitialWindow
  prefaceDone : Bool := false
  sawFirstFrame : Bool := false
  /-- `0` when no CONTINUATION is awaited. -/
  contStream : ℕ := 0
  contEndStream : Bool := false
  contRefuse : Refusal := .none
  headerBlock : Bytes := []
  lastStreamId : ℕ := 0
  earlyClosed : Finset ℕ := ∅
  earlyClosedQ : List ℕ := []
  serverReset : Table ℕ ℤ := ∅
  serverResetQ : List ℕ := []
  goingAway : Bool := false
  goawayLastId : ℕ := 0
  drainNoticeSent : Bool := false
  peerGoneAway : Bool := false
  activeStreams : ℤ := 0
  rstStreamCount : ℕ := 0
  controlFrameCount : ℕ := 0
  dataSinceDecay : ℕ := 0
  windowCredit : ℕ := 0
  windowCreditBytes : ℕ := 0
  connRecvRemaining : ℤ
  pendingConnWindow : ℕ := 0
  encTableMax : ℕ := 4096
  pendingTableSizeUpdate : Option ℕ := none
  bufferedBytes : ℤ := 0
  sendQ : Fin 8 → List ℕ := fun _ => []
  scheduling : Bool := false
  resuming : Bool := false
  awaitingClientStreams : ℤ := 0
  backlogStreams : ℤ := 0
  windowBlockedStreams : ℤ := 0
  backedUpProducers : ℤ := 0
  pendingPriority : Table ℕ Bytes := ∅
  /-- Stream ids handed over for dispatch, oldest first. -/
  ready : List ℕ := []
  /-- `c.state == csClosing`. -/
  closing : Bool := false
  closeAfterFlush : Bool := false
  closeInProgress : Bool := false
  rbuf : Bytes := []
  /-- Bytes of the write buffer the socket has taken. -/
  flushed : ℕ := 0
  journal : List Event := []

def newH2Conn (cfg : Config) : Conn where
  cfg := cfg
  streamRecvWindow := max cfg.streamRecvWindow 65535
  connRecvWindow := max cfg.connRecvWindow 65535
  decoder := initHpackDecoder 4096 cfg.maxHeaderList
  connRecvRemaining := max cfg.connRecvWindow 65535

namespace Conn

/-- Append to the journal. -/
def note (c : Conn) (e : Event) : Conn := { c with journal := c.journal ++ [e] }

/-- Append a frame to the write buffer. -/
def send (c : Conn) (f : Frame) : Conn := c.note (.sent f)

def sendAll (c : Conn) (fs : List Frame) : Conn :=
  { c with journal := c.journal ++ fs.map .sent }

/-- The frames sent so far. -/
def sentFrames (journal : List Event) : List Frame :=
  journal.filterMap fun
    | .sent f => some f
    | _ => none

/-- `pendingOut`: bytes written and not yet taken by the socket. -/
def pendingOut (c : Conn) : ℕ :=
  ((sentFrames c.journal).map (fun f => f.bytes.length)).sum - c.flushed

/-- The stream `sid`, if it is open. -/
def stream? (c : Conn) (sid : ℕ) : Option Stream := c.streams.lookup sid

/-- Update the stream `sid`, if it is open. -/
def modify (c : Conn) (sid : ℕ) (f : Stream → Stream) : Conn :=
  { c with streams := c.streams.modify sid f }

theorem stream_of_modify {c : Conn} {sid s : ℕ} {f : Stream → Stream} {st' : Stream}
    (h : (c.modify sid f).stream? s = some st') :
    (s = sid ∧ ∃ st, c.stream? sid = some st ∧ f st = st') ∨
      (s ≠ sid ∧ c.stream? s = some st') := by
  unfold stream? modify at h
  rw [Table.lookup_modify] at h
  split at h
  · next e => exact .inl ⟨e, Option.map_eq_some_iff.mp h⟩
  · next e => exact .inr ⟨e, h⟩

theorem isSome_stream_modify (c : Conn) (sid s : ℕ) (f : Stream → Stream) :
    ((c.modify sid f).stream? s).isSome = (c.stream? s).isSome := by
  unfold stream? modify
  rw [Table.lookup_modify]
  split
  · next e => rw [e, Option.isSome_map]
  · rfl

/-! ### Errors and drain notices -/

def goawayLast (c : Conn) : ℕ := if c.goingAway then c.goawayLastId else c.lastStreamId

/-- Fail the connection: GOAWAY, then no further input. -/
def connError (c : Conn) (err : ErrCode) : Conn :=
  let c := if c.goingAway then c
    else { c with goawayLastId := c.lastStreamId, goingAway := true }
  { c.send (.goaway c.goawayLast err) with closeAfterFlush := true, closing := true }

/-- First step of a graceful drain. -/
def h2GoawayNotice (c : Conn) : Conn :=
  if c.goingAway || c.drainNoticeSent then c
  else Conn.send { c with drainNoticeSent := true } (.goaway goawayMaxStreamId .errNoError)

/-- The cutoff: refuse new streams from here on. -/
def h2Goaway (c : Conn) (err : ErrCode) : Conn :=
  if c.goingAway then c
  else Conn.send { c with goingAway := true, goawayLastId := c.lastStreamId }
    (.goaway c.lastStreamId err)

/-! ### Memories of closed streams -/

/-- Remember a stream closed while its client could still send, oldest entry out first. -/
def recordEarlyClosed (c : Conn) (sid : ℕ) : Conn :=
  if sid ∈ c.earlyClosed then c
  else
    let c := c.note (.closedEarly sid)
    let set := insert sid c.earlyClosed
    let q := c.earlyClosedQ ++ [sid]
    if q.length > maxEarlyClosed then
      { c with earlyClosed := set.erase (q.headD 0), earlyClosedQ := q.tail }
    else { c with earlyClosed := set, earlyClosedQ := q }

/-- Remember a stream reset after its complete response, with the window its client holds. -/
def recordServerReset (c : Conn) (sid : ℕ) (window : ℤ) : Conn :=
  if sid ∈ c.serverReset then c
  else
    let tab := c.serverReset.insert sid (max window 0)
    let q := c.serverResetQ ++ [sid]
    if q.length > maxEarlyClosed then
      { c with serverReset := tab.erase (q.headD 0), serverResetQ := q.tail }
    else { c with serverReset := tab, serverResetQ := q }

/-- Late DATA on a stream reset after its complete response: `true` drops it silently. -/
def absorbAfterReset (c : Conn) (sid length : ℕ) (endStream : Bool) : Conn × Bool :=
  match c.serverReset.lookup sid with
  | none => (c, false)
  | some w =>
      let left := w - length
      if left < 0 ∨ endStream then
        ({ c with serverReset := c.serverReset.erase sid }, decide (0 ≤ left))
      else ({ c with serverReset := c.serverReset.insert sid left }, decide (0 ≤ left))

/-! ### Counters of flagged streams -/

/-- Mark the stream's producer as parked. -/
def setBackedUp (c : Conn) (sid : ℕ) : Conn :=
  match c.stream? sid with
  | none => c
  | some st =>
      { c.modify sid (fun st => { st with respBackedUp := true }) with
        backedUpProducers := c.backedUpProducers + flagDelta st.respBackedUp true }

/-- Clear the parked flag. -/
def clearBackedUp (c : Conn) (sid : ℕ) : Conn :=
  match c.stream? sid with
  | none => c
  | some st =>
      { c.modify sid (fun st => { st with respBackedUp := false }) with
        backedUpProducers := c.backedUpProducers + flagDelta st.respBackedUp false }

/-- Bring the cached backlog flags, and the counters of them, up to date. -/
def syncSendState (c : Conn) (sid : ℕ) : Conn :=
  match c.stream? sid with
  | none => c
  | some st =>
      let backlog := st.hasBacklog
      let blocked := backlog && decide (st.sendWindow ≤ 0)
      { c.modify sid (fun st => { st with hadBacklog := backlog, wasWindowBlocked := blocked }) with
        backlogStreams := c.backlogStreams + flagDelta st.hadBacklog backlog
        windowBlockedStreams := c.windowBlockedStreams + flagDelta st.wasWindowBlocked blocked }

/-- The client half-closed the stream. -/
def noteEndStream (c : Conn) (sid : ℕ) : Conn :=
  match c.stream? sid with
  | none => c
  | some st =>
      { c.modify sid (fun st => { st with endStreamSeen := true }) with
        awaitingClientStreams := c.awaitingClientStreams - (if st.endStreamSeen then 0 else 1) }

/-- Take a stream that leaves the table out of the deadline counters. -/
def dropStreamCounters (c : Conn) (st : Stream) : Conn :=
  { c with
    awaitingClientStreams := c.awaitingClientStreams - (if st.endStreamSeen then 0 else 1)
    backlogStreams := c.backlogStreams - (if st.hadBacklog then 1 else 0)
    windowBlockedStreams := c.windowBlockedStreams - (if st.wasWindowBlocked then 1 else 0) }

/-! ### Receive-window credit -/

/-- Return `n` consumed bytes to a stream's window, batched at half the window. -/
def creditStream (c : Conn) (sid : ℕ) (n : ℕ) : Conn :=
  match c.stream? sid with
  | none => c
  | some st =>
      if n = 0 then c
      else
        let owed := st.pendingWindow + n
        if owed * 2 ≥ c.streamRecvWindow then
          (c.send (.windowUpdate sid owed)).modify sid
            (fun st => { st with recvRemaining := st.recvRemaining + owed, pendingWindow := 0 })
        else c.modify sid (fun st => { st with pendingWindow := owed })

/-- The same for the connection window. -/
def creditConn (c : Conn) (n : ℕ) : Conn :=
  if n = 0 then c
  else
    let owed := c.pendingConnWindow + n
    if owed * 2 ≥ c.connRecvWindow then
      { c.send (.windowUpdate 0 owed) with
        connRecvRemaining := c.connRecvRemaining + owed, pendingConnWindow := 0 }
    else { c with pendingConnWindow := owed }

/-- Connection credit that had been deferred on the stream. -/
def creditConnFor (c : Conn) (sid : ℕ) (n : ℕ) : Conn :=
  if n = 0 then c
  else
    (c.modify sid (fun st => { st with connDeferred := st.connDeferred - min n st.connDeferred })
      ).creditConn n

/-! ### Flood budgets -/

/-- Charge `n` units of overhead. -/
def noteControlFrame (c : Conn) (n : ℕ) : Conn :=
  let c := Conn.note { c with controlFrameCount := c.controlFrameCount + n } (.charged n)
  if c.cfg.maxControlFrames > 0 ∧ c.controlFrameCount > c.cfg.maxControlFrames then
    c.connError .errEnhanceYourCalm
  else c

/-- An accepted request forgives part of the budget. -/
def noteControlProgress (c : Conn) : Conn :=
  if c.cfg.maxControlFrames = 0 then c
  else
    { c with
      controlFrameCount := c.controlFrameCount - max 1 (c.cfg.maxControlFrames / 10) }

/-- The decay loop of `noteDataProgress`, on the bytes and the charge still to be decayed. -/
def decayLoop (forgive : ℕ) : Loop (ℕ × ℕ) (ℕ × ℕ) where
  step s := if s.1 ≥ respHighWater ∧ s.2 > 0 then .inl (s.1 - respHighWater, s.2 - forgive)
    else .inr s
  measure s := s.1
  decreases := by
    intro s s' h
    split at h
    · next hc =>
      rw [← Sum.inl.inj h]
      have hpos : 0 < respHighWater := Nat.mul_pos (by norm_num) (by norm_num)
      exact Nat.sub_lt (hpos.trans_le hc.1) hpos
    · cases h

/-- Outbound DATA earns window credit and decays the budget. -/
def noteDataProgress (c : Conn) (n frames : ℕ) : Conn :=
  if c.cfg.maxControlFrames = 0 ∨ n = 0 then c
  else
    let bytes := c.windowCreditBytes + n
    let earned := bytes / windowCreditUnit
    let c := { c with
      windowCreditBytes := bytes - earned * windowCreditUnit
      windowCredit := min (c.windowCredit + (earned + 2 * max frames 1))
        (windowCreditCap * c.cfg.maxControlFrames) }
    if c.controlFrameCount = 0 then { c with dataSinceDecay := 0 }
    else
      let r := (decayLoop (max 1 (c.cfg.maxControlFrames / 10))).run
        (c.dataSinceDecay + n, c.controlFrameCount)
      { c with dataSinceDecay := r.1, controlFrameCount := r.2 }

/-- A WINDOW_UPDATE that unblocked nothing. -/
def noteIdleWindowUpdate (c : Conn) : Conn :=
  if c.windowCredit > 0 then Conn.note { c with windowCredit := c.windowCredit - 1 } .creditSpent
  else c.noteControlFrame 1

end Conn

/-- A small increment that leaves a window small while bytes wait on it. -/
def isWindowDribble (inc : ℕ) (window : ℤ) (waiting : Bool) : Bool :=
  waiting && decide (inc < windowCreditUnit) && decide (window < windowCreditUnit)

end Vortex.Http2
