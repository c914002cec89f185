import Vortex.Http2.Sender

/-! # The read side of the HTTP/2 codec

Delivery of request bodies, validation and dispatch of request heads, the handlers of the
individual frame types and the frame loop of `http2/codec.nim`.

A handler that returns early in the source returns the connection as it is at that point.
`ready.add sid` appends to `Conn.ready`. -/

namespace Vortex.Http2

open FieldRules

/-! ### Request bodies -/

/-- Take the buffered bytes of a request out of the stream, for delivery; an auto-acknowledging
sink consumes them here. -/
def Conn.takeBody (c : Conn) (sid : ℕ) : Conn :=
  c.modify sid (fun st => { st with
    body := []
    connDeferred :=
      if st.bodyManualAck then st.connDeferred
      else st.connDeferred - min st.body.length st.connDeferred })

/-- Hand the buffered request bytes to the stream's sink, if it has one. -/
def h2DeliverBody (H : Hooks) (sid : ℕ) (last : Bool) (c : Conn) : Conn :=
  match c.stream? sid with
  | none => c
  | some st =>
      match st.onBodyCb with
      | none => c
      | some cb =>
          if st.body.length > 0 ∨ last then
            let c := c.takeBody sid
            let c := if st.bodyManualAck then c.note (.handed sid st.body.length) else c
            let c := H.run (.body sid cb st.body last) c
            if st.bodyManualAck then c
            else (c.creditStream sid st.body.length).creditConn st.body.length
          else c

/-- `req.ackBody`. -/
def h2AckBody (sid : ℕ) (n : ℤ) (c : Conn) : Conn :=
  match c.stream? sid with
  | none => c
  | some st =>
      if st.reqStreaming then
        ((c.note (.acked sid n.toNat)).creditStream sid n.toNat).creditConnFor sid n.toNat
      else c

/-- Store a body sink on the stream. -/
def Conn.storeSink (c : Conn) (sid cb : ℕ) (manualAck : Bool) : Conn :=
  (c.note (.sinkSet sid cb)).modify sid (fun st => { st with
    onBodyCb := some cb, bodyManualAck := manualAck })

/-- `req.onBody`: store the sink and flush what already arrived. -/
def h2SetOnBody (H : Hooks) (sid cb : ℕ) (manualAck : Bool) (c : Conn) : Conn :=
  match c.stream? sid with
  | none => c
  | some st =>
      h2DeliverBody H sid st.endStreamSeen (c.storeSink sid cb manualAck)

/-! ### Request heads and trailers -/

/-- What the header list of a request contributes besides the pseudo-headers. -/
structure HeadScan where
  listSize : ℕ := 0
  contentLength : ℤ
  urgency : Fin 8
  incremental : Bool
deriving DecidableEq, Repr

/-- The connection-specific request fields. -/
def isConnectionField (name : Bytes) : Bool :=
  [ascii "connection", ascii "proxy-connection", ascii "keep-alive", ascii "transfer-encoding",
    ascii "upgrade"].contains name

/-- One field of the head; `none` is a stream error. -/
def HeadScan.field (s : HeadScan) (f : Bytes × Bytes) : Option HeadScan :=
  let s := { s with listSize := s.listSize + fieldSize f }
  if f.1.head? = some colon then some s
  else if isConnectionField f.1 then none
  else if f.1 = ascii "te" then if f.2 ≠ ascii "trailers" then none else some s
  else if f.1 = ascii "priority" then
    let p := parsePriorityField f.2 (s.urgency, s.incremental)
    some { s with urgency := p.1, incremental := p.2 }
  else if f.1 = ascii "content-length" then
    match parseContentLength f.2 s.contentLength with
    | .clOk n => some { s with contentLength := n }
    | _ => none
  else some s

def HeadScan.fields : HeadScan → Fields → Option HeadScan
  | s, [] => some s
  | s, f :: rest =>
      match s.field f with
      | none => none
      | some s' => HeadScan.fields s' rest

/-- Note what is handed over. -/
def Conn.noteDispatch (c : Conn) (sid : ℕ) : Conn :=
  match c.stream? sid with
  | none => c
  | some st => c.note (.dispatched sid st.body.length)

/-- Hand the stream to the dispatcher. -/
def Conn.dispatch (c : Conn) (sid : ℕ) : Conn :=
  { (c.noteDispatch sid).modify sid (fun st => { st with dispatched := true }) with
    ready := c.ready ++ [sid] }

/-- Release the reservation of a buffered body. -/
def Conn.releaseBuffered (c : Conn) (sid : ℕ) : Conn :=
  match c.stream? sid with
  | none => c
  | some st =>
      { c.modify sid (fun st => { st with bufferedCounted := 0 }) with
        bufferedBytes := c.bufferedBytes - st.bufferedCounted }

/-- The dispatch decisions at the end of a head or a trailer section. -/
def dispatchHead (H : Hooks) (sid : ℕ) (c : Conn) : Conn :=
  match c.stream? sid with
  | none => c
  | some st =>
      if st.isWsConnect && !st.dispatched then c.dispatch sid
      else if st.reqStreaming && !st.dispatched then
        if st.endStreamSeen && decide (0 ≤ st.contentLength) &&
            decide ((st.bodyReceived : ℤ) ≠ st.contentLength) then
          streamError H sid .errProtocol c
        else c.dispatch sid
      else if st.endStreamSeen && !st.dispatched then
        let c := c.releaseBuffered sid
        if 0 ≤ st.contentLength ∧ (st.body.length : ℤ) ≠ st.contentLength then
          streamError H sid .errProtocol c
        else c.dispatch sid
      else c

/-- Store a trailer section and note the end of the request. -/
def Conn.addTrailers (c : Conn) (sid : ℕ) (fields : Fields) : Conn :=
  (c.modify sid (fun st => { st with trailers := st.trailers ++ fields })).noteEndStream sid

/-- A decoded field block on a stream whose head is complete: its trailer section. -/
def finishTrailers (H : Hooks) (sid : ℕ) (st : Stream) (endStream : Bool) (fields : Fields)
    (c : Conn) : Conn :=
  if !endStream then streamError H sid .errProtocol c
  else if !fields.all (fun f => validTrailerField f.1 f.2) then streamError H sid .errProtocol c
  else
    let c := c.addTrailers sid fields
    if st.reqStreaming && st.dispatched then
      if 0 ≤ st.contentLength ∧ (st.bodyReceived : ℤ) ≠ st.contentLength then
        streamError H sid .errProtocol c
      else h2DeliverBody H sid true c
    else dispatchHead H sid c

/-- Record an accepted request head on the stream. -/
def Conn.acceptHead (c : Conn) (sid : ℕ) (fields : Fields) (scan : HeadScan) (isWs isHead : Bool) :
    Conn :=
  c.modify sid (fun st => { st with
    headers := fields
    headersDone := true
    isHead := isHead
    isWsConnect := isWs
    contentLength := scan.contentLength
    urgency := scan.urgency
    incremental := scan.incremental })

/-- Ask the router whether the request is dispatched on its headers. -/
def routeHead (H : Hooks) (sid : ℕ) (isWs : Bool) (c : Conn) : Conn :=
  if !isWs && H.streamRoute c sid then c.modify sid (fun st => { st with reqStreaming := true })
  else c

/-- Note the head that was taken. -/
def Conn.noteHead (c : Conn) (sid : ℕ) : Conn :=
  match c.stream? sid with
  | none => c
  | some st => c.note (.head sid st.headers st.route)

/-- A decoded field block on a fresh stream: its request head. -/
def finishHead (H : Hooks) (sid : ℕ) (st : Stream) (endStream : Bool) (fields : Fields)
    (c : Conn) : Conn :=
  let k := classifyRequestHead fields
  if k.1 = .rhInvalid then streamError H sid .errProtocol c
  else
    match HeadScan.fields
      { contentLength := st.contentLength, urgency := st.urgency, incremental := st.incremental }
      fields with
    | none => streamError H sid .errProtocol c
    | some scan =>
        if scan.listSize > c.cfg.maxHeaderList then streamError H sid .errEnhanceYourCalm c
        else if scan.contentLength > c.cfg.maxBody then streamError H sid .errRefusedStream c
        else
          let isWs := k.1 == .rhWebSocket
          let c := c.acceptHead sid fields scan isWs (k.2.meth == some (ascii "HEAD"))
          let c := if endStream then c.noteEndStream sid else c
          dispatchHead H sid ((routeHead H sid isWs c).noteHead sid)

/-- Decode the accumulated field block and validate what it completes. -/
def finishHeaders (H : Hooks) (sid : ℕ) (endStream : Bool) (c : Conn) : Conn :=
  match decodeHeaderBlock c.decoder c.headerBlock with
  | (d, .error _) => Conn.connError { c with decoder := d } .errCompression
  | (d, .ok fields) =>
      let c := { c with decoder := d, headerBlock := [] }
      match c.stream? sid with
      | none => c
      | some st =>
          if st.headersDone then finishTrailers H sid st endStream fields c
          else finishHead H sid st endStream fields c

/-! ### DATA -/

/-- The data of a DATA frame without its padding. -/
def unpadData (f : InFrame) : Except ErrCode Bytes :=
  if f.header.has flagPadded then
    if f.header.length < 1 then .error .errFrameSize
    else
      let padLen := byteAt f.payload 0
      if padLen ≥ f.header.length then .error .errProtocol
      else .ok ((f.payload.drop 1).take (f.header.length - 1 - padLen))
  else .ok f.payload

/-- Append request bytes to the stream's buffer. -/
def Conn.bufferBody (c : Conn) (sid : ℕ) (data : Bytes) : Conn :=
  c.modify sid (fun st => { st with body := st.body ++ data })

/-- A streaming request's bytes: their connection credit is deferred to consumption. -/
def Conn.deferBody (c : Conn) (sid : ℕ) (n : ℕ) : Conn :=
  c.modify sid (fun st => { st with
    connDeferred := st.connDeferred + n, bodyReceived := st.bodyReceived + n })

/-- DATA for a streaming request. -/
def dataStreaming (H : Hooks) (sid : ℕ) (st : Stream) (f : InFrame) (data : Bytes) (c : Conn) :
    Conn :=
  let c := if f.header.length > data.length then c.creditStream sid (f.header.length - data.length)
    else c
  let c := c.deferBody sid data.length
  let received := st.bodyReceived + data.length
  if 0 ≤ st.contentLength ∧ (received : ℤ) > st.contentLength then streamError H sid .errProtocol c
  else
    let c := c.bufferBody sid data
    if f.header.has flagEndStream then
      let c := c.noteEndStream sid
      if 0 ≤ st.contentLength ∧ (received : ℤ) ≠ st.contentLength then
        streamError H sid .errProtocol c
      else h2DeliverBody H sid true c
    else h2DeliverBody H sid false c

/-- Account a buffered request's bytes against the per-connection cap. -/
def Conn.countBuffered (c : Conn) (sid : ℕ) (n : ℕ) : Conn :=
  { c.modify sid (fun st => { st with bufferedCounted := st.bufferedCounted + n }) with
    bufferedBytes := c.bufferedBytes + n }

/-- DATA for a buffered request. -/
def dataBuffered (H : Hooks) (sid : ℕ) (st : Stream) (f : InFrame) (data : Bytes) (c : Conn) :
    Conn :=
  let c := (c.bufferBody sid data).countBuffered sid data.length
  if c.bufferedBytes > (max c.connRecvWindow c.cfg.maxBody : ℕ) then
    streamError H sid .errRefusedStream c
  else if f.header.has flagEndStream then
    let c := (c.noteEndStream sid).releaseBuffered sid
    if 0 ≤ st.contentLength ∧ ((st.body ++ data).length : ℤ) ≠ st.contentLength then
      streamError H sid .errProtocol c
    else if !st.dispatched then c.dispatch sid
    else c
  else c

/-- DATA for an accepted WebSocket. -/
def dataWebSocket (H : Hooks) (sid : ℕ) (f : InFrame) (data : Bytes) (c : Conn) : Conn :=
  let c := H.run (.wsFeed sid data) c
  if f.header.has flagEndStream && (c.stream? sid).any (fun st => st.ws.isSome) then
    H.run (.wsPeerClosed sid) c
  else c

/-- DATA for an Extended CONNECT that is not accepted yet. -/
def Conn.dataWsPending (c : Conn) (sid : ℕ) (f : InFrame) (data : Bytes) : Conn :=
  let c := c.bufferBody sid data
  if f.header.has flagEndStream then c.noteEndStream sid else c

/-- DATA on an open stream: the connection, and the bytes whose connection credit is deferred. -/
def dataOnStream (H : Hooks) (sid : ℕ) (st : Stream) (f : InFrame) (data : Bytes) (c : Conn) :
    Conn × ℕ :=
  if st.ws.isSome then (dataWebSocket H sid f data c, 0)
  else if st.body.length + data.length > c.cfg.maxBody then
    (streamError H sid .errRefusedStream c, 0)
  else if st.isWsConnect then (c.dataWsPending sid f data, 0)
  else if st.reqStreaming then (dataStreaming H sid st f data c, data.length)
  else (dataBuffered H sid st f data c, 0)

/-- Return the credit of a DATA frame that is not deferred. -/
def Conn.replenish (c : Conn) (sid length deferred : ℕ) : Conn :=
  if length > 0 then
    let c := c.creditConn (length - deferred)
    match c.stream? sid with
    | none => c
    | some st => if !st.endStreamSeen && !st.reqStreaming then c.creditStream sid length else c
  else c

/-- A frame on a closed, half-closed or never-headered stream: overhead, and a reset. -/
def refuseClosed (H : Hooks) (sid : ℕ) (c : Conn) : Conn :=
  let c := c.noteControlFrame 1
  if c.closing then c else streamError H sid .errStreamClosed c

/-- A DATA frame whose bytes the windows allow. -/
def dataAdmitted (H : Hooks) (sid : ℕ) (f : InFrame) (c : Conn) : Conn :=
  match c.stream? sid with
  | none =>
      let r := c.absorbAfterReset sid f.header.length (f.header.has flagEndStream)
      (if r.2 then r.1 else refuseClosed H sid r.1).replenish sid f.header.length 0
  | some st =>
      if st.endStreamSeen || !st.headersDone then
        (refuseClosed H sid c).replenish sid f.header.length 0
      else
        match unpadData f with
        | .error e => c.connError e
        | .ok data =>
            let r := dataOnStream H sid st f data c
            r.1.replenish sid f.header.length r.2

/-- A DATA frame of `n` bytes uses up part of the connection's receive window. -/
def Conn.debitConn (c : Conn) (n : ℕ) : Conn :=
  { c with connRecvRemaining := c.connRecvRemaining - n }

/-- And of its stream's. -/
def Conn.debitStream (c : Conn) (sid n : ℕ) : Conn :=
  c.modify sid (fun st => { st with recvRemaining := st.recvRemaining - n })

/-- Debit both receive windows, then process the frame. -/
def dataDebit (H : Hooks) (sid : ℕ) (f : InFrame) (c : Conn) : Conn :=
  if f.header.length > 0 then
    let c := c.debitConn f.header.length
    if c.connRecvRemaining < 0 then c.connError .errFlowControl
    else
      let c := c.debitStream sid f.header.length
      if (c.stream? sid).any (fun st => decide (st.recvRemaining < 0)) then
        streamError H sid .errFlowControl
          (c.modify sid (fun st => { st with connDeferred := st.connDeferred + f.header.length }))
      else dataAdmitted H sid f c
  else dataAdmitted H sid f c

def handleData (H : Hooks) (f : InFrame) (c : Conn) : Conn :=
  let sid := f.header.streamId
  if sid = 0 then c.connError .errProtocol
  else if sid % 2 = 0 then c.connError .errProtocol
  else if sid > c.lastStreamId then c.connError .errProtocol
  else dataDebit H sid f c

/-! ### HEADERS and CONTINUATION -/

/-- The payload of a HEADERS frame without its padding. -/
def unpadHeaders (f : InFrame) : Except ErrCode Bytes :=
  if f.header.has flagPadded then
    if f.header.length < 1 then .error .errFrameSize
    else
      let padLen := byteAt f.payload 0
      if padLen > f.header.length - 1 then .error .errProtocol
      else .ok ((f.payload.drop 1).take (f.header.length - 1 - padLen))
  else .ok f.payload

/-- The field-block fragment of a HEADERS frame, and whether its priority names the stream
itself. -/
def headersFragment (f : InFrame) : Except ErrCode (Bytes × Bool) :=
  match unpadHeaders f with
  | .error e => .error e
  | .ok frag =>
      if f.header.has flagPriority then
        if frag.length < 5 then .error .errFrameSize
        else .ok (frag.drop 5, low31 (get32 frag 0) == f.header.streamId)
      else .ok (frag, false)

/-- Open a stream for an admitted HEADERS. -/
def Conn.openStream (c : Conn) (sid : ℕ) : Conn :=
  let c := Conn.note { c with
    streams := c.streams.insert sid
      { sendWindow := c.peerInitialWindow, recvRemaining := c.streamRecvWindow }
    activeStreams := c.activeStreams + 1
    awaitingClientStreams := c.awaitingClientStreams + 1 } (.opened sid)
  let c := match c.pendingPriority.lookup sid with
    | none => c
    | some field =>
        { c.h2Reprioritize sid field with pendingPriority := c.pendingPriority.erase sid }
  c.noteControlProgress

/-- A HEADERS frame on a new stream id: open the stream, or say why it is refused. -/
def Conn.admitStream (c : Conn) (sid : ℕ) (selfDep endStream : Bool) : Conn × Refusal :=
  let refuse : Refusal :=
    if selfDep then .reset .errProtocol
    else if c.goingAway then .reset .errRefusedStream
    else if 0 < c.cfg.maxConcurrentStreams ∧ (c.cfg.maxConcurrentStreams : ℤ) ≤ c.activeStreams
      then .reset .errRefusedStream
    else .none
  let c := { c with lastStreamId := sid }
  match refuse with
  | .none => (c.openStream sid, .none)
  | .silent => (c, .silent)
  | .reset err =>
      (if err ≠ .errProtocol ∧ endStream = false then c.recordEarlyClosed sid else c, .reset err)

/-- What a HEADERS frame means for its stream: `error` is a handler that returned. -/
def classifyHeaders (H : Hooks) (sid : ℕ) (selfDep endStream : Bool) (c : Conn) :
    Except Conn (Conn × Refusal) :=
  match c.stream? sid with
  | some st =>
      if !st.headersDone then .error (c.connError .errProtocol)
      else if st.endStreamSeen then
        let c := refuseClosed H sid c
        if c.closing then .error c else .ok (c, .none)
      else .ok (c, .none)
  | none =>
      if sid ≤ c.lastStreamId then
        if sid ∈ c.serverReset then
          .ok ({ c with
            serverReset := c.serverReset.erase sid, earlyClosed := c.earlyClosed.erase sid },
            .silent)
        else if sid ∈ c.earlyClosed then
          .ok ({ c with earlyClosed := c.earlyClosed.erase sid }, .reset .errStreamClosed)
        else .error (c.connError .errStreamClosed)
      else .ok (c.admitStream sid selfDep endStream)

/-- A refused block has been decoded: budget the refusal and reset the stream. -/
def answerRefusal (H : Hooks) (sid : ℕ) (refuse : Refusal) (c : Conn) : Conn :=
  match refuse with
  | .reset err =>
      if c.closing then c
      else
        let c := c.noteControlFrame 1
        if c.closing then c else streamError H sid err c
  | _ => c

/-- The end of `handleHeaders`: decode a complete block, or wait for CONTINUATION. -/
def headersComplete (H : Hooks) (sid : ℕ) (f : InFrame) (refuse : Refusal) (c : Conn) : Conn :=
  if f.header.has flagEndHeaders then
    answerRefusal H sid refuse (finishHeaders H sid (f.header.has flagEndStream) c)
  else
    { c with contStream := sid, contEndStream := f.header.has flagEndStream, contRefuse := refuse }

def handleHeaders (H : Hooks) (f : InFrame) (c : Conn) : Conn :=
  let sid := f.header.streamId
  if sid = 0 ∨ sid % 2 = 0 then c.connError .errProtocol
  else
    match headersFragment f with
    | .error e => c.connError e
    | .ok (frag, selfDep) =>
        match classifyHeaders H sid selfDep (f.header.has flagEndStream)
            { c with headerBlock := frag } with
        | .error c => c
        | .ok (c, refuse) => headersComplete H sid f refuse c

/-- The last fragment of a block arrived. -/
def continuationComplete (H : Hooks) (c : Conn) : Conn :=
  let sid := c.contStream
  let refuse := c.contRefuse
  answerRefusal H sid refuse
    (finishHeaders H sid c.contEndStream { c with contStream := 0, contRefuse := .none })

def handleContinuation (H : Hooks) (f : InFrame) (c : Conn) : Conn :=
  if c.contStream = 0 ∨ f.header.streamId ≠ c.contStream then c.connError .errProtocol
  else
    let c := c.noteControlFrame 1
    if c.closing then c
    else if c.headerBlock.length + f.header.length > c.cfg.maxHeaderList * 2 then
      c.connError .errEnhanceYourCalm
    else
      let c := { c with headerBlock := c.headerBlock ++ f.payload }
      if f.header.has flagEndHeaders then continuationComplete H c else c

/-! ### SETTINGS, PING, WINDOW_UPDATE and the rest -/

/-- The (identifier, value) entries of a SETTINGS payload. -/
def settingsEntries (payload : Bytes) : List (ℕ × ℕ) :=
  (List.range (payload.length / 6)).map (fun k => (get16 payload (6 * k), get32 payload (6 * k + 2)))

/-- Move every open stream's send window by `delta`; `error` is a handler that returned. -/
def shiftWindows (delta : ℤ) : List ℕ → Conn → Except Conn Conn
  | [], c => .ok c
  | sid :: rest, c =>
      match c.stream? sid with
      | none => shiftWindows delta rest c
      | some st =>
          let nw := st.sendWindow + delta
          if nw > 0x7fffffff ∨ nw < -0x80000000 then .error (c.connError .errFlowControl)
          else shiftWindows delta rest
            ((c.modify sid (fun st => { st with sendWindow := nw })).syncSendState sid)

/-- SETTINGS_INITIAL_WINDOW_SIZE. -/
def applyInitialWindow (H : Hooks) (value : ℕ) (c : Conn) : Except Conn Conn :=
  if value > 0x7fffffff then .error (c.connError .errFlowControl)
  else
    let delta := int32 (value - c.peerInitialWindow)
    let c := Conn.note { c with peerInitialWindow := value } (.initialWindow value)
    shiftWindows delta (H.order c).1 c

/-- SETTINGS_HEADER_TABLE_SIZE. -/
def Conn.applyTableSize (c : Conn) (value : ℕ) : Conn :=
  let c := c.note (.tableSize value)
  let newMax := min value 4096
  if newMax ≠ c.encTableMax then
    { c with encTableMax := newMax, pendingTableSizeUpdate := some newMax }
  else c

/-- One SETTINGS entry. -/
def applySetting (H : Hooks) (id value : ℕ) (c : Conn) : Except Conn Conn :=
  if id = setInitialWindowSize then applyInitialWindow H value c
  else if id = setMaxFrameSize then
    if h : 16384 ≤ value ∧ value ≤ 16777215 then
      .ok (Conn.note { c with peerMaxFrame := ⟨value, h⟩ } (.maxFrame value))
    else .error (c.connError .errProtocol)
  else if id = setEnablePush then
    if value > 1 then .error (c.connError .errProtocol) else .ok c
  else if id = setHeaderTableSize then .ok (c.applyTableSize value)
  else .ok c

/-- The entry loop of `handleSettings`. -/
def applySettings (H : Hooks) : List (ℕ × ℕ) → Conn → Except Conn Conn
  | [], c => .ok c
  | e :: rest, c =>
      match applySetting H e.1 e.2 c with
      | .error c => .error c
      | .ok c => applySettings H rest c

/-- Queue every stream with a backlog. -/
def enqueueBacklog : List ℕ → Conn → Conn
  | [], c => c
  | sid :: rest, c =>
      enqueueBacklog rest
        (if (c.stream? sid).any (fun st => decide (st.backlog > 0)) then c.h2Enqueue sid else c)

def handleSettings (H : Hooks) (f : InFrame) (c : Conn) : Conn :=
  if f.header.streamId ≠ 0 then c.connError .errProtocol
  else if f.header.has flagAck then
    if f.header.length ≠ 0 then c.connError .errFrameSize else c.noteControlFrame 1
  else if f.header.length % 6 ≠ 0 then c.connError .errFrameSize
  else
    let c := c.noteControlFrame (max 1 (f.header.length / 6))
    if c.closing then c
    else
      let entries := settingsEntries f.payload
      match applySettings H entries c with
      | .error c => c
      | .ok c =>
          let c := c.send .settingsAck
          if entries.any (fun e => e.1 == setInitialWindowSize) then
            h2Schedule H (enqueueBacklog (H.order c).1 c)
          else c

def handlePing (f : InFrame) (c : Conn) : Conn :=
  if f.header.streamId ≠ 0 then c.connError .errProtocol
  else if f.header.length ≠ 8 then c.connError .errFrameSize
  else
    let c := c.noteControlFrame 1
    if c.closing then c
    else if f.header.has flagAck then c
    else c.send (.pingAck f.payload)

/-- Credit for the connection send window. -/
def windowUpdateConn (H : Hooks) (inc : ℕ) (c : Conn) : Conn :=
  if c.connSendWindow + inc > 0x7fffffff then c.connError .errFlowControl
  else
    let wasBlocked := decide (c.connSendWindow ≤ 0)
    let c := Conn.note { c with connSendWindow := int32 (c.connSendWindow + inc) } (.connCredit inc)
    let dribble := isWindowDribble inc c.connSendWindow (decide (c.backlogStreams > 0))
    let c := if dribble then c.noteControlFrame 1 else c
    if dribble && c.closing then c
    else if c.h2NextUrgency.isSome || (wasBlocked && decide (c.connSendWindow > 0)) then
      h2Schedule H c
    else if !dribble then c.noteIdleWindowUpdate
    else c

/-- Add credit to a stream's send window. -/
def Conn.creditSend (c : Conn) (sid inc : ℕ) : Conn :=
  ((c.note (.streamCredit sid inc)).modify sid (fun st => { st with
    sendWindow := int32 (st.sendWindow + inc) })).syncSendState sid

/-- A stream update that made nothing sendable. -/
def windowUpdateIdle (H : Hooks) (dribble : Bool) (c : Conn) : Conn :=
  let c := if dribble then c else c.noteIdleWindowUpdate
  if !dribble && c.closing then c else h2ResumeProducers H c

/-- Credit for an open stream's send window. -/
def windowUpdateStream (H : Hooks) (sid inc : ℕ) (st : Stream) (c : Conn) : Conn :=
  if st.sendWindow + inc > 0x7fffffff then streamError H sid .errFlowControl c
  else
    let c := c.creditSend sid inc
    let dribble := isWindowDribble inc (int32 (st.sendWindow + inc)) st.hasBacklog
    let c := c.h2Enqueue sid
    let c := if dribble then c.noteControlFrame 1 else c
    if dribble && c.closing then c
    else if (c.stream? sid).any Stream.sendable then h2Schedule H c
    else windowUpdateIdle H dribble c

/-- A WINDOW_UPDATE without an increment. -/
def windowUpdateZero (H : Hooks) (sid : ℕ) (c : Conn) : Conn :=
  if sid = 0 ∨ sid > c.lastStreamId then c.connError .errProtocol
  else
    let c := c.noteControlFrame 1
    if c.closing then c else streamError H sid .errProtocol c

def handleWindowUpdate (H : Hooks) (f : InFrame) (c : Conn) : Conn :=
  let sid := f.header.streamId
  if f.header.length ≠ 4 then c.connError .errFrameSize
  else if sid ≠ 0 ∧ sid % 2 = 0 then c.connError .errProtocol
  else
    let inc := low31 (get32 f.payload 0)
    if inc = 0 then windowUpdateZero H sid c
    else if sid = 0 then windowUpdateConn H inc c
    else
      match c.stream? sid with
      | some st => windowUpdateStream H sid inc st c
      | none => if sid > c.lastStreamId then c.connError .errProtocol else c.noteIdleWindowUpdate

/-- Count a reset by the client. -/
def Conn.countReset (c : Conn) : Conn :=
  let c := { c with rstStreamCount := c.rstStreamCount + 1 }
  if c.cfg.maxResetStreams > 0 ∧ c.rstStreamCount > c.cfg.maxResetStreams then
    c.connError .errEnhanceYourCalm
  else c

def handleRstStream (H : Hooks) (f : InFrame) (c : Conn) : Conn :=
  let sid := f.header.streamId
  if sid = 0 then c.connError .errProtocol
  else if f.header.length ≠ 4 then c.connError .errFrameSize
  else if sid % 2 = 0 then c.connError .errProtocol
  else if sid > c.lastStreamId then c.connError .errProtocol
  else if (c.stream? sid).isNone && decide (sid ∈ c.serverReset) then
    { c with serverReset := c.serverReset.erase sid }
  else (teardownStream H sid c).countReset

def handlePriority (H : Hooks) (f : InFrame) (c : Conn) : Conn :=
  let sid := f.header.streamId
  if sid = 0 then c.connError .errProtocol
  else if f.header.length ≠ 5 then c.connError .errFrameSize
  else
    let c := c.noteControlFrame 1
    if c.closing then c
    else if low31 (get32 f.payload 0) = sid then
      if sid > c.lastStreamId then c.connError .errProtocol else streamError H sid .errProtocol c
    else c

def handleGoaway (f : InFrame) (c : Conn) : Conn :=
  if f.header.streamId ≠ 0 then c.connError .errProtocol
  else if f.header.length < 8 then c.connError .errFrameSize
  else { c.noteControlFrame 1 with peerGoneAway := true }

def handlePriorityUpdate (f : InFrame) (c : Conn) : Conn :=
  if f.header.streamId ≠ 0 then c.connError .errProtocol
  else if f.header.length < 4 then c.connError .errFrameSize
  else
    let c := c.noteControlFrame 1
    if c.closing then c
    else
      let psid := low31 (get32 f.payload 0)
      if psid = 0 ∨ psid % 2 = 0 then c.connError .errProtocol
      else
        let field := f.payload.drop 4
        if (c.stream? psid).isSome then c.h2Reprioritize psid field
        else if psid > c.lastStreamId ∧ c.pendingPriority.keys.length < maxPendingPriority then
          { c with pendingPriority := c.pendingPriority.insert psid field }
        else c

/-! ### The frame loop -/

def handleFrame (H : Hooks) (f : InFrame) (c : Conn) : Conn :=
  if c.contStream ≠ 0 ∧
      (f.header.typ ≠ FrameType.ftContinuation.code ∨ f.header.streamId ≠ c.contStream) then
    c.connError .errProtocol
  else if f.header.typ = ftPriorityUpdate then handlePriorityUpdate f c
  else
    match FrameType.ofCode f.header.typ with
    | none => c.noteControlFrame 1
    | some .ftData => handleData H f c
    | some .ftHeaders => handleHeaders H f c
    | some .ftContinuation => handleContinuation H f c
    | some .ftSettings => handleSettings H f c
    | some .ftPing => handlePing f c
    | some .ftWindowUpdate => handleWindowUpdate H f c
    | some .ftRstStream => handleRstStream H f c
    | some .ftPriority => handlePriority H f c
    | some .ftGoaway => handleGoaway f c
    | some .ftPushPromise => c.connError .errProtocol

/-- One frame of the loop of `h2Feed`, with `rest` behind it: first-frame rule, dispatch on the
type. -/
def feedFrame (H : Hooks) (f : InFrame) (rest : Bytes) (c : Conn) : Conn :=
  if !c.sawFirstFrame && f.header.typ != FrameType.ftSettings.code then
    Conn.connError { c with sawFirstFrame := true } .errProtocol
  else handleFrame H f (Conn.note { c with rbuf := rest, sawFirstFrame := true } (.received f))

/-- The SETTINGS the server opens with. -/
def Conn.ourSettings (c : Conn) : List (ℕ × ℕ) :=
  [(setHeaderTableSize, 4096), (setEnablePush, 0),
    (setMaxConcurrentStreams, c.cfg.maxConcurrentStreams), (setMaxFrameSize, ourMaxFrameSize),
    (setInitialWindowSize, c.streamRecvWindow), (setEnableConnectProtocol, 1),
    (setNoRfc7540Priorities, 1)]

def Conn.sendOurSettings (c : Conn) : Conn :=
  let c' := c.send (.settings c.ourSettings)
  let connGrow := c.connRecvWindow - 65535
  if connGrow > 0 then c'.send (.windowUpdate 0 connGrow) else c'

/-- The client preface was read. -/
def Conn.finishPreface (c : Conn) : Conn :=
  Conn.sendOurSettings { c with prefaceDone := true }

/-- The next frame in the receive buffer, with the bytes behind it; `none` while it is
incomplete.  A frame over the size limit is not waited for. -/
def nextFrame (rbuf : Bytes) : Option (InFrame × Bytes) :=
  if rbuf.length < frameHeaderLen then none
  else
    let fh := parseFrameHeader rbuf 0
    let tail := rbuf.drop frameHeaderLen
    if h : fh.length ≤ tail.length then
      some (⟨fh, tail.take fh.length, by simp [h]⟩, tail.drop fh.length)
    else none

/-- One iteration of `h2Feed`: the preface or one frame; `none` when it has to wait or stop.  The
preface is looked at whether or not the connection is closing. -/
def feedStep (H : Hooks) (c : Conn) : Option Conn :=
  if !c.prefaceDone then
    if c.rbuf.length < connectionPreface.length then none
    else if c.rbuf.take connectionPreface.length = connectionPreface then
      some (Conn.finishPreface { c with rbuf := c.rbuf.drop connectionPreface.length })
    else some (c.connError .errProtocol)
  else if c.closing then none
  else if frameHeaderLen ≤ c.rbuf.length ∧ (parseFrameHeader c.rbuf 0).length > ourMaxFrameSize then
    some (c.connError .errFrameSize)
  else
    match nextFrame c.rbuf with
    | none => none
    | some (f, rest) => some (feedFrame H f rest c)

/-- The loop of `h2Feed`; every iteration but the preface's reads a frame header, and a wrong
preface ends the call. -/
def feedLoop (H : Hooks) : ℕ → Conn → Conn
  | 0, c => c
  | n + 1, c =>
      match feedStep H c with
      | none => c
      | some c => if c.prefaceDone then feedLoop H n c else c

def h2Feed (H : Hooks) (c : Conn) : Conn := feedLoop H (c.rbuf.length + 1) c

end Vortex.Http2
