import Vortex.Http2.WritePaths
import Vortex.Http2.Journal

/-! # What a received frame can do to a connection

The pieces of the frame handlers, with the conditions under which they happen.  They come in three
kinds, told apart by what they touch:

* `FrameAtom`: accounts of the send windows, request heads and trailers, opening and refusing
  streams;
* `BodyAtom`: request bytes taken in (`SinkAtom`: handed over, with their receive credit);
* `BlockAtom`: the HPACK decoder and the field block being read, nothing else.

Seen from the accounts of the receive windows a `FrameAtom` is a sequence of `FrameMove`s, which
leave request bytes, their credit and the field block being read as they are.  `Conn.core` is
what frames account for on the connection as a whole. -/

namespace Vortex.Http2

open Relation FieldRules

/-! ### Views -/

/-- The response side of a stream. -/
structure ResponseView where
  respTrailers : Fields
  sendWindow : ℤ
  responded : Bool
  respPhase : RespPhase
  respDeclaredLen : ℤ
  respBodyWritten : ℕ
  pendingBody : Bytes
  pendingPos : ℕ
  pendingIsLast : Bool
  ws : Option WsConn

def Stream.response (st : Stream) : ResponseView where
  respTrailers := st.respTrailers
  sendWindow := st.sendWindow
  responded := st.responded
  respPhase := st.respPhase
  respDeclaredLen := st.respDeclaredLen
  respBodyWritten := st.respBodyWritten
  pendingBody := st.pendingBody
  pendingPos := st.pendingPos
  pendingIsLast := st.pendingIsLast
  ws := st.ws

/-- How the head of a request was taken. -/
structure RequestKind where
  headersDone : Bool
  reqStreaming : Bool
  isWsConnect : Bool
  isHead : Bool

def Stream.kind (st : Stream) : RequestKind where
  headersDone := st.headersDone
  reqStreaming := st.reqStreaming
  isWsConnect := st.isWsConnect
  isHead := st.isHead

/-- The accounts of the connection as a whole. -/
structure Core where
  cfg : Config
  streamRecvWindow : ℕ
  connRecvWindow : ℕ
  connRecvRemaining : ℤ
  pendingConnWindow : ℕ
  connSendWindow : ℤ
  peerMaxFrame : MaxFrame
  peerInitialWindow : ℤ
  prefaceDone : Bool
  lastStreamId : ℕ
  earlyClosed : Finset ℕ
  earlyClosedQ : List ℕ
  closing : Bool
  journal : List Event

def Conn.core (c : Conn) : Core where
  cfg := c.cfg
  streamRecvWindow := c.streamRecvWindow
  connRecvWindow := c.connRecvWindow
  connRecvRemaining := c.connRecvRemaining
  pendingConnWindow := c.pendingConnWindow
  connSendWindow := c.connSendWindow
  peerMaxFrame := c.peerMaxFrame
  peerInitialWindow := c.peerInitialWindow
  prefaceDone := c.prefaceDone
  lastStreamId := c.lastStreamId
  earlyClosed := c.earlyClosed
  earlyClosedQ := c.earlyClosedQ
  closing := c.closing
  journal := c.journal

/-- The field block being read, and the decoder it will go to. -/
structure BlockView where
  decoder : HpackDecoder
  contStream : ℕ
  contEndStream : Bool
  contRefuse : Refusal
  headerBlock : Bytes

def Conn.blockView (c : Conn) : BlockView where
  decoder := c.decoder
  contStream := c.contStream
  contEndStream := c.contEndStream
  contRefuse := c.contRefuse
  headerBlock := c.headerBlock

/-! ### Pieces -/

/-- A frame noted something about the request, and nothing about its bytes or its response. -/
structure Stream.Noted (st st' : Stream) : Prop where
  response : st'.response = st.response
  bodySide : st'.bodySide = st.bodySide
  kind : st'.kind = st.kind
  ended : st.endStreamSeen = true → st'.endStreamSeen = true

/-- The head of the request was taken. -/
structure Stream.Headed (st st' : Stream) : Prop where
  response : st'.response = st.response
  bodySide : st'.bodySide = st.bodySide
  done : st'.headersDone = true
  ended : st.endStreamSeen = true → st'.endStreamSeen = true
  route : st.reqStreaming = false → st'.isWsConnect = true → st'.reqStreaming = false

/-- What the frame handlers do beside moving request bytes, receive credit and field blocks. -/
inductive FrameMove : Conn → Conn → Prop
  | error (c : Conn) (err : ErrCode) : FrameMove c (c.connError err)
  | note (c : Conn) {e : Event} (he : e.isInbound = true) : FrameMove c (c.note e)
  | settingsAck (c : Conn) : FrameMove c (c.send .settingsAck)
  | pingAck (c : Conn) (payload : Bytes) : FrameMove c (c.send (.pingAck payload))
  | preface {c : Conn} (hp : c.prefaceDone = false) : FrameMove c c.finishPreface
  | other {c c' : Conn} (hc : c'.core = c.core) (hb : c'.blockView = c.blockView)
      (hs : c'.streams = c.streams) : FrameMove c c'
  | update {c c' : Conn} {sid : ℕ} {f : Stream → Stream} (hc : c'.core = c.core)
      (hb : c'.blockView = c.blockView) (hs : c'.streams = c.streams.modify sid f)
      (hf : ∀ st : Stream, st.Noted (f st)) : FrameMove c c'
  | head {c c' : Conn} {sid : ℕ} {st : Stream} {f : Stream → Stream} (hst : c.stream? sid = some st)
      (hh : st.headersDone = false) (hc : c'.core = c.core) (hb : c'.blockView = c.blockView)
      (hs : c'.streams = c.streams.modify sid f) (hf : ∀ st : Stream, st.Headed (f st)) :
      FrameMove c c'
  | openNew {c : Conn} {sid : ℕ} (h : c.lastStreamId < sid) :
      FrameMove c (Conn.openStream { c with lastStreamId := sid } sid)
  | refuse {c : Conn} {sid : ℕ} (h : c.lastStreamId < sid) :
      FrameMove c { c with lastStreamId := sid }
  | refuseEarly {c : Conn} {sid : ℕ} (h : c.lastStreamId < sid) :
      FrameMove c (Conn.recordEarlyClosed { c with lastStreamId := sid } sid)
  | forget {c c' : Conn} (sid : ℕ)
      (hc : c'.core = { c.core with earlyClosed := c.earlyClosed.erase sid })
      (hb : c'.blockView = c.blockView) (hs : c'.streams = c.streams) : FrameMove c c'
  | initialWindow {c c' : Conn} (H : Hooks) (value : ℕ)
      (h : applyInitialWindow H value c = .ok c') : FrameMove c c'
  | initialWindowFailed {c c' : Conn} (H : Hooks) (value : ℕ)
      (h : applyInitialWindow H value c = .error c') : FrameMove c c'
  | maxFrame (c : Conn) (m : MaxFrame) :
      FrameMove c (Conn.note { c with peerMaxFrame := m } (.maxFrame m))
  | connCredit {c : Conn} (inc : ℕ) (h : c.connSendWindow + inc ≤ 0x7fffffff) :
      FrameMove c (Conn.note { c with connSendWindow := int32 (c.connSendWindow + inc) }
        (.connCredit inc))
  | streamCredit {c : Conn} {sid : ℕ} {st : Stream} (hs : c.stream? sid = some st) (inc : ℕ)
      (h : st.sendWindow + inc ≤ 0x7fffffff) : FrameMove c (c.creditSend sid inc)

/-! ### Pieces of the frame handlers -/

/-- The field block of a request head was accepted. -/
structure HeadTaken (c : Conn) (sid : ℕ) (st : Stream) (fields : Fields) (scan : HeadScan) :
    Prop where
  stream : c.stream? sid = some st
  fresh : st.headersDone = false
  valid : (classifyRequestHead fields).1 ≠ .rhInvalid
  scanned : HeadScan.fields
    { contentLength := st.contentLength, urgency := st.urgency, incremental := st.incremental }
    fields = some scan
  size : scan.listSize ≤ c.cfg.maxHeaderList
  fits : scan.contentLength ≤ c.cfg.maxBody

/-- The head is recorded on the stream, and routed. -/
def headed (H : Hooks) (sid : ℕ) (fields : Fields) (scan : HeadScan) (es : Bool) (c : Conn) : Conn :=
  let k := classifyRequestHead fields
  let isWs := k.1 == .rhWebSocket
  let c := c.acceptHead sid fields scan isWs (k.2.meth == some (ascii "HEAD"))
  let c := if es then c.noteEndStream sid else c
  (routeHead H sid isWs c).noteHead sid

/-- What `dispatchHead` decides on a request that is in order. -/
inductive Decided (sid : ℕ) : Conn → Conn → Prop
  | tunnel {c : Conn} {st : Stream} (hs : c.stream? sid = some st) (hw : st.isWsConnect = true)
      (hd : st.dispatched = false) : Decided sid c (c.dispatch sid)
  | streamed {c : Conn} {st : Stream} (hs : c.stream? sid = some st) (hw : st.isWsConnect = false)
      (hr : st.reqStreaming = true) (hd : st.dispatched = false)
      (hl : st.endStreamSeen = true → 0 ≤ st.contentLength →
        (st.bodyReceived : ℤ) = st.contentLength) : Decided sid c (c.dispatch sid)
  | buffered {c : Conn} {st : Stream} (hs : c.stream? sid = some st) (hw : st.isWsConnect = false)
      (hr : st.reqStreaming = false) (hd : st.dispatched = false) (he : st.endStreamSeen = true)
      (hl : 0 ≤ st.contentLength → (st.body.length : ℤ) = st.contentLength) :
      Decided sid c ((c.releaseBuffered sid).dispatch sid)
  | wait {c : Conn} {st : Stream} (hs : c.stream? sid = some st)
      (h : st.dispatched = true ∨ st.isWsConnect = false ∧ st.reqStreaming = false ∧
        st.endStreamSeen = false) : Decided sid c c

/-- What is left of a request whose body misses its declared length, before it is reset. -/
inductive Mismatched (sid : ℕ) : Conn → Conn → Prop
  | streamed (c : Conn) : Mismatched sid c c
  | buffered (c : Conn) : Mismatched sid c (c.releaseBuffered sid)

/-- The frame being handled is a HEADERS frame on the stream. -/
def Conn.Announces (c : Conn) (sid : ℕ) : Prop :=
  ∃ f, c.lastFrame = some f ∧ FrameType.ofCode f.header.typ = some .ftHeaders ∧
    f.header.streamId = sid

/-- The pieces of the frame handlers that leave request bytes and field blocks alone.  The index
is the stream the piece takes out of the table, if it does. -/
inductive FrameAtom : Option ℕ → Conn → Conn → Prop
  | error (c : Conn) (err : ErrCode) : FrameAtom none c (c.connError err)
  | settings {c c' : Conn} (H : Hooks) (entries : List (ℕ × ℕ))
      (h : applySettings H entries c = .ok c')
      (hn : entries.any (fun e => e.1 == setInitialWindowSize) = false) :
      FrameAtom none c (c'.send .settingsAck)
  | settingsWindow {c c' : Conn} (H : Hooks) (entries : List (ℕ × ℕ))
      (h : applySettings H entries c = .ok c') :
      FrameAtom none c (enqueueBacklog (H.order (c'.send .settingsAck)).1 (c'.send .settingsAck))
  | settingsFailed {c c' : Conn} (H : Hooks) (entries : List (ℕ × ℕ))
      (h : applySettings H entries c = .error c') : FrameAtom none c c'
  | pingAck (c : Conn) (payload : Bytes) : FrameAtom none c (c.send (.pingAck payload))
  | charge (c : Conn) (n : ℕ) : FrameAtom none c (c.noteControlFrame n)
  | idleUpdate (c : Conn) : FrameAtom none c c.noteIdleWindowUpdate
  | countReset (c : Conn) : FrameAtom none c c.countReset
  | absorb (c : Conn) (sid n : ℕ) (es : Bool) : FrameAtom none c (c.absorbAfterReset sid n es).1
  | forgetReset (c : Conn) (sid : ℕ) :
      FrameAtom none c { c with serverReset := c.serverReset.erase sid }
  | peerGone (c : Conn) : FrameAtom none c { c with peerGoneAway := true }
  | bufferPriority (c : Conn) (psid : ℕ) (field : Bytes) :
      FrameAtom none c { c with pendingPriority := c.pendingPriority.insert psid field }
  | reprioritize (c : Conn) (sid : ℕ) (field : Bytes) :
      FrameAtom none c (c.h2Reprioritize sid field)
  | head {c c' : Conn} {sid : ℕ} {st : Stream} {fields : Fields} {scan : HeadScan} (H : Hooks)
      (h : HeadTaken c sid st fields scan) (es : Bool)
      (hd : Decided sid (headed H sid fields scan es c) c') : FrameAtom none c c'
  | headMismatch {c c' : Conn} {sid : ℕ} {st : Stream} {fields : Fields} {scan : HeadScan}
      (H : Hooks) (h : HeadTaken c sid st fields scan) (es : Bool)
      (hd : Mismatched sid (headed H sid fields scan es c) c') :
      FrameAtom (some sid) c (c'.reset sid .errProtocol)
  | trailers {c c' : Conn} {sid : ℕ} {st : Stream} (hs : c.stream? sid = some st)
      (hh : st.headersDone = true) (hn : (st.reqStreaming && st.dispatched) = false)
      (fields : Fields) (hd : Decided sid (c.addTrailers sid fields) c') : FrameAtom none c c'
  | trailersMismatch {c c' : Conn} {sid : ℕ} {st : Stream} (hs : c.stream? sid = some st)
      (hh : st.headersDone = true) (fields : Fields)
      (hd : Mismatched sid (c.addTrailers sid fields) c') :
      FrameAtom (some sid) c (c'.reset sid .errProtocol)
  | openNew {c : Conn} {sid : ℕ} (h : c.lastStreamId < sid) (hodd : sid % 2 = 1)
      (hg : c.goingAway = false) (hn : c.Announces sid) :
      FrameAtom none c (Conn.openStream { c with lastStreamId := sid } sid)
  | refuse {c : Conn} {sid : ℕ} (h : c.lastStreamId < sid) (hn : c.Announces sid) :
      FrameAtom none c { c with lastStreamId := sid }
  | refuseEarly {c : Conn} {sid : ℕ} (h : c.lastStreamId < sid) (hn : c.Announces sid) :
      FrameAtom none c (Conn.recordEarlyClosed { c with lastStreamId := sid } sid)
  | forgetBoth (c : Conn) (sid : ℕ) : FrameAtom none c { c with
      serverReset := c.serverReset.erase sid, earlyClosed := c.earlyClosed.erase sid }
  | forgetEarly (c : Conn) (sid : ℕ) :
      FrameAtom none c { c with earlyClosed := c.earlyClosed.erase sid }
  | connCredit {c : Conn} (inc : ℕ) (h : c.connSendWindow + inc ≤ 0x7fffffff) :
      FrameAtom none c (Conn.note { c with connSendWindow := int32 (c.connSendWindow + inc) }
        (.connCredit inc))
  | streamCredit {c : Conn} {sid : ℕ} {st : Stream} (hs : c.stream? sid = some st) (inc : ℕ)
      (h : st.sendWindow + inc ≤ 0x7fffffff) :
      FrameAtom none c ((c.creditSend sid inc).h2Enqueue sid)

/-- A DATA frame arrived for the open request `st`. -/
structure Receiving (c : Conn) (sid : ℕ) (st : Stream) : Prop where
  stream : c.stream? sid = some st
  done : st.headersDone = true
  going : st.endStreamSeen = false
  plain : st.ws = none

/-- The delivery of buffered request bytes to the sink `cb`, up to the callback itself. -/
def Conn.deliver (c : Conn) (sid cb : ℕ) (st : Stream) (last : Bool) : Conn :=
  Conn.note (if st.bodyManualAck then (c.takeBody sid).note (.handed sid st.body.length)
    else c.takeBody sid) (.fired (.body sid cb st.body last))

/-- The pieces that hand request bytes to their sink and return their credit. -/
inductive SinkAtom : Conn → Conn → Prop
  | creditConn (c : Conn) (n : ℕ) : SinkAtom c (c.creditConn n)
  | creditStream (c : Conn) (sid n : ℕ) : SinkAtom c (c.creditStream sid n)
  | acked {c : Conn} {sid : ℕ} {st : Stream} (hs : c.stream? sid = some st)
      (hr : st.reqStreaming = true) (n : ℕ) :
      SinkAtom c (((c.note (.acked sid n)).creditStream sid n).creditConnFor sid n)
  | deliver {c : Conn} {sid cb : ℕ} {st : Stream} (hs : c.stream? sid = some st)
      (hcb : st.onBodyCb = some cb) (hb : st.body ≠ []) : SinkAtom c (c.deliver sid cb st false)

/-- The body of a streaming request is complete. -/
inductive EndsBody (sid : ℕ) : Conn → Conn → Prop
  | data {c : Conn} {st : Stream} (hs : Receiving c sid st) (hr : st.reqStreaming = true)
      (data : Bytes)
      (hl : 0 ≤ st.contentLength → ((st.bodyReceived + data.length : ℕ) : ℤ) = st.contentLength) :
      EndsBody sid c (((c.deferBody sid data.length).bufferBody sid data).noteEndStream sid)
  | trailers {c : Conn} {st : Stream} (hs : c.stream? sid = some st) (hh : st.headersDone = true)
      (he : st.endStreamSeen = false) (hr : st.reqStreaming = true) (fields : Fields)
      (hl : 0 ≤ st.contentLength → (st.bodyReceived : ℤ) = st.contentLength) :
      EndsBody sid c (c.addTrailers sid fields)

/-- The pieces that take request bytes in.  The index is the stream the piece takes out of the
table, if it does. -/
inductive BodyAtom : Option ℕ → Conn → Conn → Prop
  | debitConn (c : Conn) (n : ℕ) : BodyAtom none c (c.debitConn n)
  | debitStream (c : Conn) (sid n : ℕ) : BodyAtom none c (c.debitStream sid n)
  | overrun {c : Conn} {sid : ℕ} {st : Stream} (hs : c.stream? sid = some st) (n : ℕ) :
      BodyAtom (some sid) c (Conn.reset (c.modify sid (fun st => { st with
        connDeferred := st.connDeferred + n })) sid .errFlowControl)
  | streamed {c : Conn} {sid : ℕ} {st : Stream} (hs : Receiving c sid st)
      (hr : st.reqStreaming = true) (data : Bytes)
      (hl : 0 ≤ st.contentLength → ((st.bodyReceived + data.length : ℕ) : ℤ) ≤ st.contentLength) :
      BodyAtom none c ((c.deferBody sid data.length).bufferBody sid data)
  | ended {c c' : Conn} {sid : ℕ} (h : EndsBody sid c c') : BodyAtom none c c'
  | told {c c' : Conn} {sid cb : ℕ} {st : Stream} (h : EndsBody sid c c')
      (hs : c'.stream? sid = some st) (hcb : st.onBodyCb = some cb) :
      BodyAtom none c (c'.deliver sid cb st true)
  | streamedExcess {c : Conn} {sid : ℕ} {st : Stream} (hs : Receiving c sid st)
      (hr : st.reqStreaming = true) (n : ℕ) :
      BodyAtom (some sid) c ((c.deferBody sid n).reset sid .errProtocol)
  | streamedShort {c : Conn} {sid : ℕ} {st : Stream} (hs : Receiving c sid st)
      (hr : st.reqStreaming = true) (data : Bytes) :
      BodyAtom (some sid) c ((((c.deferBody sid data.length).bufferBody sid data).noteEndStream
        sid).reset sid .errProtocol)
  | buffered {c : Conn} {sid : ℕ} {st : Stream} (hs : Receiving c sid st)
      (hr : st.reqStreaming = false) (hw : st.isWsConnect = false) (data : Bytes)
      (hb : c.bufferedBytes + data.length ≤ (max c.connRecvWindow c.cfg.maxBody : ℕ)) :
      BodyAtom none c ((c.bufferBody sid data).countBuffered sid data.length)
  | bufferedOverflow {c : Conn} {sid : ℕ} {st : Stream} (hs : Receiving c sid st)
      (hr : st.reqStreaming = false) (hw : st.isWsConnect = false) (data : Bytes) :
      BodyAtom (some sid) c
        (((c.bufferBody sid data).countBuffered sid data.length).reset sid .errRefusedStream)
  | bufferedEnd {c : Conn} {sid : ℕ} {st : Stream} (hs : Receiving c sid st)
      (hr : st.reqStreaming = false) (hw : st.isWsConnect = false) (hd : st.dispatched = false)
      (data : Bytes)
      (hb : c.bufferedBytes + data.length ≤ (max c.connRecvWindow c.cfg.maxBody : ℕ))
      (hl : 0 ≤ st.contentLength → ((st.body ++ data).length : ℤ) = st.contentLength) :
      BodyAtom none c (((((c.bufferBody sid data).countBuffered sid data.length).noteEndStream
        sid).releaseBuffered sid).dispatch sid)
  | bufferedLate {c : Conn} {sid : ℕ} {st : Stream} (hs : Receiving c sid st)
      (hr : st.reqStreaming = false) (hw : st.isWsConnect = false) (hd : st.dispatched = true)
      (data : Bytes)
      (hb : c.bufferedBytes + data.length ≤ (max c.connRecvWindow c.cfg.maxBody : ℕ)) :
      BodyAtom none c ((((c.bufferBody sid data).countBuffered sid data.length).noteEndStream
        sid).releaseBuffered sid)
  | bufferedShort {c : Conn} {sid : ℕ} {st : Stream} (hs : Receiving c sid st)
      (hr : st.reqStreaming = false) (hw : st.isWsConnect = false) (data : Bytes) :
      BodyAtom (some sid) c (Conn.reset ((((c.bufferBody sid data).countBuffered sid
        data.length).noteEndStream sid).releaseBuffered sid) sid .errProtocol)
  | tunnelData {c : Conn} {sid : ℕ} {st : Stream} (hs : Receiving c sid st)
      (hw : st.isWsConnect = true) (f : InFrame) (data : Bytes) :
      BodyAtom none c (c.dataWsPending sid f data)

/-- The pieces that move the field block being read. -/
inductive BlockAtom : Conn → Conn → Prop
  | fragment (c : Conn) (frag : Bytes) : BlockAtom c { c with headerBlock := frag }
  | decoded {c : Conn} {d : HpackDecoder} {fields : Fields}
      (h : decodeHeaderBlock c.decoder c.headerBlock = (d, .ok fields)) :
      BlockAtom c { c with decoder := d, headerBlock := [] }
  | failed {c : Conn} {d : HpackDecoder} {e : HpackError}
      (h : decodeHeaderBlock c.decoder c.headerBlock = (d, .error e)) :
      BlockAtom c (Conn.connError { c with decoder := d } .errCompression)
  | await (c : Conn) (sid : ℕ) (es : Bool) (refuse : Refusal) :
      BlockAtom c { c with contStream := sid, contEndStream := es, contRefuse := refuse }
  | append (c : Conn) (payload : Bytes) :
      BlockAtom c { c with headerBlock := c.headerBlock ++ payload }
  | complete (c : Conn) : BlockAtom c { c with contStream := 0, contRefuse := .none }

/-! ### The pieces of calls, frames and runs -/

/-- The pieces of application calls.  `ok` says which registrations are permitted. -/
inductive CallAtom (ok : Call → Conn → Prop) : Option ℕ → Conn → Conn → Prop
  | app {o : Option ℕ} {c c' : Conn} (h : AppAtom o c c') : CallAtom ok o c c'
  | drain {k : Call} {c c' : Conn} (hk : ok k c) (h : DrainAtom k c c') : CallAtom ok none c c'
  | sink {c c' : Conn} (h : SinkAtom c c') : CallAtom ok none c c'
  | sinkSet {c : Conn} {sid : ℕ} {st : Stream} (hs : c.stream? sid = some st) {cb : ℕ}
      {manualAck : Bool} (hk : ok (.onBody sid cb manualAck) c) :
      CallAtom ok none c (c.storeSink sid cb manualAck)
  | sinkTold {c : Conn} {sid : ℕ} {st : Stream} (hs : c.stream? sid = some st) {cb : ℕ}
      {manualAck : Bool} (hk : ok (.onBody sid cb manualAck) c) (he : st.endStreamSeen = true) :
      CallAtom ok none c ((c.storeSink sid cb manualAck).deliver sid cb
        { st with onBodyCb := some cb, bodyManualAck := manualAck } true)

/-- The pieces of a frame handler that leave request bytes and field blocks alone. -/
inductive QuietAtom : Option ℕ → Conn → Conn → Prop
  | app {o : Option ℕ} {c c' : Conn} (h : AppAtom o c c') : QuietAtom o c c'
  | frame {o : Option ℕ} {c c' : Conn} (h : FrameAtom o c c') : QuietAtom o c c'

/-- The pieces of a frame handler that leave field blocks alone. -/
inductive DataAtom (ok : Call → Conn → Prop) : Option ℕ → Conn → Conn → Prop
  | call {o : Option ℕ} {c c' : Conn} (h : CallAtom ok o c c') : DataAtom ok o c c'
  | frame {o : Option ℕ} {c c' : Conn} (h : FrameAtom o c c') : DataAtom ok o c c'
  | body {o : Option ℕ} {c c' : Conn} (h : BodyAtom o c c') : DataAtom ok o c c'

/-- The pieces of a frame handler. -/
inductive HandleAtom (ok : Call → Conn → Prop) : Option ℕ → Conn → Conn → Prop
  | call {o : Option ℕ} {c c' : Conn} (h : CallAtom ok o c c') : HandleAtom ok o c c'
  | frame {o : Option ℕ} {c c' : Conn} (h : FrameAtom o c c') : HandleAtom ok o c c'
  | body {o : Option ℕ} {c c' : Conn} (h : BodyAtom o c c') : HandleAtom ok o c c'
  | block {c c' : Conn} (h : BlockAtom c c') : HandleAtom ok none c c'

/-- The pieces of `h2Feed` around the frame handlers. -/
inductive FeedAtom : Conn → Conn → Prop
  | error (c : Conn) (err : ErrCode) : FeedAtom c (c.connError err)
  | received {c : Conn} (f : InFrame) (hc : c.closing = false) :
      FeedAtom c (Conn.note { c with sawFirstFrame := true } (.received f))
  | notFirst (c : Conn) : FeedAtom c (Conn.connError { c with sawFirstFrame := true } .errProtocol)
  | read (c : Conn) (rbuf : Bytes) : FeedAtom c { c with rbuf := rbuf }
  | preface {c : Conn} (hp : c.prefaceDone = false) (rbuf : Bytes) :
      FeedAtom c (Conn.finishPreface { c with rbuf := rbuf })

/-- The pieces of a run. -/
inductive RunAtom (ok : Call → Conn → Prop) : Option ℕ → Conn → Conn → Prop
  | call {o : Option ℕ} {c c' : Conn} (h : CallAtom ok o c c') : RunAtom ok o c c'
  | frame {o : Option ℕ} {c c' : Conn} (h : FrameAtom o c c') : RunAtom ok o c c'
  | body {o : Option ℕ} {c c' : Conn} (h : BodyAtom o c c') : RunAtom ok o c c'
  | block {c c' : Conn} (h : BlockAtom c c') : RunAtom ok none c c'
  | feed {c c' : Conn} (h : FeedAtom c c') : RunAtom ok none c c'

/-- The connection a handler returns, early (`error`) or not. -/
def outcome {α : Type} (f : α → Conn) : Except Conn α → Conn
  | .error c => c
  | .ok a => f a

section Settings

variable {R : Conn → Conn → Prop} (hrefl : ∀ c, R c c) (htrans : ∀ {a b c}, R a b → R b c → R a c)
include hrefl htrans

theorem rel_applySettings {H : Hooks}
    (h : ∀ key value c, R c (outcome id (applySetting H key value c)))
    (entries : List (ℕ × ℕ)) (c : Conn) : R c (outcome id (applySettings H entries c)) := by
  induction entries generalizing c with
  | nil => exact hrefl c
  | cons e rest ih =>
    have h1 := h e.1 e.2 c
    unfold applySettings
    cases hs : applySetting H e.1 e.2 c with
    | error c1 => rw [hs] at h1; exact h1
    | ok c1 => rw [hs] at h1; exact htrans h1 (ih c1)

theorem rel_enqueueBacklog (h : ∀ c sid, R c (c.h2Enqueue sid)) (l : List ℕ) (c : Conn) :
    R c (enqueueBacklog l c) := by
  induction l generalizing c with
  | nil => exact hrefl c
  | cons sid rest ih =>
    unfold enqueueBacklog
    split_ifs
    · exact htrans (h c sid) (ih _)
    · exact ih c

end Settings

/-! ### The preface -/

theorem sendOurSettings_cases (c : Conn) : c.sendOurSettings = c.send (.settings c.ourSettings) ∨
      c.sendOurSettings =
        (c.send (.settings c.ourSettings)).send (.windowUpdate 0 (c.connRecvWindow - 65535)) := by
  unfold Conn.sendOurSettings
  by_cases h : c.connRecvWindow - 65535 > 0
  · exact .inr (if_pos h)
  · exact .inl (if_neg h)

theorem closing_finishPreface (c : Conn) : c.finishPreface.closing = c.closing := by
  unfold Conn.finishPreface
  rcases sendOurSettings_cases { c with prefaceDone := true } with h | h <;> rw [h] <;> rfl

/-! ### Send windows -/

theorem shiftWindows_moves (delta : ℤ) (l : List ℕ) (c : Conn) :
    (∀ c', shiftWindows delta l c = .ok c' → Moves c c') ∧
      ∀ c', shiftWindows delta l c = .error c' →
        ∃ c1, Moves c c1 ∧ c' = c1.connError .errFlowControl := by
  induction l generalizing c with
  | nil =>
    refine ⟨fun c' h => ?_, fun c' h => ?_⟩
    · rw [← Except.ok.inj h]
    · cases h
  | cons sid rest ih =>
    unfold shiftWindows
    cases hs : c.stream? sid with
    | none => exact ih c
    | some st =>
      dsimp only
      split
      · refine ⟨fun c' h => ?_, fun c' h => ?_⟩
        · cases h
        · exact ⟨c, .refl, (Except.error.inj h).symm⟩
      · have h1 : Moves c ((c.modify sid (fun s => { s with
            sendWindow := st.sendWindow + delta })).syncSendState sid) := by
          refine ReflTransGen.trans ?_ (moves_syncSendState _ sid)
          exact Moves.modify c sid (fun _ => ⟨rfl, rfl, id, id⟩)
        obtain ⟨hok, herr⟩ := ih ((c.modify sid (fun s => { s with
          sendWindow := st.sendWindow + delta })).syncSendState sid)
        refine ⟨fun c' h => h1.trans (hok c' h), fun c' h => ?_⟩
        obtain ⟨c1, h2, e⟩ := herr c' h
        exact ⟨c1, h1.trans h2, e⟩

variable {H : Hooks} {c : Conn} {sid : ℕ}

theorem applyInitialWindow_ok {value : ℕ} {c' : Conn} (h : applyInitialWindow H value c = .ok c') :
    ¬ value > 0x7fffffff ∧
      shiftWindows (int32 (value - c.peerInitialWindow))
        (H.order (Conn.note { c with peerInitialWindow := value } (.initialWindow value))).1
        (Conn.note { c with peerInitialWindow := value } (.initialWindow value)) = .ok c' := by
  unfold applyInitialWindow at h
  by_cases hv : value > 0x7fffffff
  · rw [if_pos hv] at h
    cases h
  · rw [if_neg hv] at h
    exact ⟨hv, h⟩

theorem applyInitialWindow_error {value : ℕ} {c' : Conn}
    (h : applyInitialWindow H value c = .error c') : c' = c.connError .errFlowControl ∨
      ∃ c1, Moves (Conn.note { c with peerInitialWindow := value } (.initialWindow value)) c1 ∧
        c' = c1.connError .errFlowControl := by
  unfold applyInitialWindow at h
  by_cases hv : value > 0x7fffffff
  · rw [if_pos hv] at h
    exact .inl (Except.error.inj h).symm
  · rw [if_neg hv] at h
    exact .inr ((shiftWindows_moves _ _ _).2 c' h)

theorem creditSend_moves (c : Conn) (sid inc : ℕ) :
    Moves (c.note (.streamCredit sid inc)) (c.creditSend sid inc) := by
  refine ReflTransGen.trans ?_ (moves_syncSendState _ sid)
  exact Moves.modify _ sid (fun _ => ⟨rfl, rfl, id, id⟩)

/-- The stream a HEADERS frame opens, up to its priority. -/
def Conn.newStream (c : Conn) (urgency : Fin 8) (incremental : Bool) : Stream where
  sendWindow := c.peerInitialWindow
  recvRemaining := c.streamRecvWindow
  urgency := urgency
  incremental := incremental

/-- **What opening a stream does**, up to its priority. -/
theorem openStream_eq (c : Conn) (sid : ℕ) : ∃ urgency incremental pending, c.openStream sid =
    { c with
      streams := c.streams.insert sid (c.newStream urgency incremental)
      activeStreams := c.activeStreams + 1
      awaitingClientStreams := c.awaitingClientStreams + 1
      pendingPriority := pending
      controlFrameCount := c.noteControlProgress.controlFrameCount
      journal := c.journal ++ [.opened sid] } := by
  have hnote : ∀ d : Conn, d.noteControlProgress = { d with
      controlFrameCount := d.noteControlProgress.controlFrameCount } := by
    intro d
    unfold Conn.noteControlProgress
    split_ifs <;> rfl
  have hcount : ∀ d : Conn, d.cfg = c.cfg → d.controlFrameCount = c.controlFrameCount →
      d.noteControlProgress.controlFrameCount = c.noteControlProgress.controlFrameCount := by
    intro d h1 h2
    unfold Conn.noteControlProgress
    rw [h1, h2]
    split_ifs
    · exact h2
    · rfl
  unfold Conn.openStream
  rw [hnote, hcount _ (by split <;> rfl) (by split <;> rfl)]
  split
  · exact ⟨3, false, c.pendingPriority, rfl⟩
  · next field _ =>
    let p := parsePriorityField field (3, false)
    refine ⟨p.1, p.2, c.pendingPriority.erase sid, ?_⟩
    simp [Conn.h2Reprioritize, Conn.note, Conn.modify, Table.modify, Conn.newStream, p]

theorem stream_openStream {c : Conn} {sid s : ℕ} {st : Stream}
    (h : (c.openStream sid).stream? s = some st) :
    (s = sid ∧ ∃ urgency incremental, st = c.newStream urgency incremental) ∨
      (s ≠ sid ∧ c.stream? s = some st) := by
  obtain ⟨u, i, p, e⟩ := openStream_eq c sid
  rw [Conn.stream?, e, Table.lookup_insert_ite] at h
  split at h
  · next e => exact .inl ⟨e, u, i, (Option.some.inj h).symm⟩
  · next e => exact .inr ⟨e, h⟩

/-! ### Frames as moves -/

/-- Sequences of moves of the frame handlers and the write side. -/
abbrev FrameMoves : Conn → Conn → Prop := ReflTransGen (fun a b => FrameMove a b ∨ Move a b)

variable {a b : Conn}

theorem Moves.frameMoves (h : Moves a b) : FrameMoves a b :=
  ReflTransGen.mono (fun _ _ => .inr) _ _ h

theorem FrameMove.moves (h : FrameMove a b) : FrameMoves a b := .single (.inl h)

section FrameMoves

variable (c : Conn) (sid : ℕ)

theorem frameMoves_noteControlFrame (n : ℕ) : FrameMoves c (c.noteControlFrame n) := by
  have h1 : FrameMoves c { c with controlFrameCount := c.controlFrameCount + n } :=
    FrameMove.moves (.other rfl rfl rfl)
  have h2 := h1.trans (FrameMove.note _ (e := .charged n) rfl).moves
  unfold Conn.noteControlFrame
  dsimp only
  split_ifs
  · exact h2.trans (FrameMove.error _ _).moves
  · exact h2

theorem frameMoves_noteIdleWindowUpdate : FrameMoves c c.noteIdleWindowUpdate := by
  unfold Conn.noteIdleWindowUpdate
  split_ifs
  · have h1 : FrameMoves c { c with windowCredit := c.windowCredit - 1 } :=
      FrameMove.moves (.other rfl rfl rfl)
    exact h1.trans (FrameMove.note _ rfl).moves
  · exact frameMoves_noteControlFrame c 1

theorem frameMoves_countReset : FrameMoves c c.countReset := by
  have h1 : FrameMoves c { c with rstStreamCount := c.rstStreamCount + 1 } :=
    FrameMove.moves (.other rfl rfl rfl)
  unfold Conn.countReset
  dsimp only
  split_ifs
  · exact h1.trans (FrameMove.error _ _).moves
  · exact h1

theorem absorbAfterReset_move (n : ℕ) (es : Bool) :
    FrameMove c (c.absorbAfterReset sid n es).1 := by
  unfold Conn.absorbAfterReset
  split
  · exact .other rfl rfl rfl
  · dsimp only
    split_ifs <;> exact .other rfl rfl rfl

theorem frameMoves_dispatch : FrameMoves c (c.dispatch sid) := by
  have h1 : FrameMoves c (c.noteDispatch sid) := by
    unfold Conn.noteDispatch
    split
    · exact .refl
    · exact (FrameMove.note _ rfl).moves
  refine h1.trans (FrameMove.moves ?_)
  exact .update rfl rfl rfl (fun _ => ⟨rfl, rfl, rfl, id⟩)

theorem frameMoves_releaseBuffered : FrameMoves c (c.releaseBuffered sid) := by
  unfold Conn.releaseBuffered
  split
  · exact .refl
  · exact FrameMove.moves (.update rfl rfl rfl (fun _ => ⟨rfl, rfl, rfl, id⟩))

theorem streams_noteEndStream : (c.noteEndStream sid).streams =
      c.streams.modify sid (fun st => { st with endStreamSeen := true }) := by
  unfold Conn.noteEndStream
  split
  · next h => exact (Table.modify_of_none _ h).symm
  · rfl

theorem core_noteEndStream : (c.noteEndStream sid).core = c.core := by
  unfold Conn.noteEndStream
  split <;> rfl

theorem blockView_noteEndStream : (c.noteEndStream sid).blockView = c.blockView := by
  unfold Conn.noteEndStream
  split <;> rfl

theorem noteEndStream_move : FrameMove c (c.noteEndStream sid) :=
  .update (core_noteEndStream c sid) (blockView_noteEndStream c sid) (streams_noteEndStream c sid)
    (fun _ => ⟨rfl, rfl, rfl, fun _ => rfl⟩)

theorem countBuffered_move (n : ℕ) : FrameMove c (c.countBuffered sid n) :=
  .update rfl rfl rfl (fun _ => ⟨rfl, rfl, rfl, id⟩)

theorem frameMoves_addTrailers (fields : Fields) : FrameMoves c (c.addTrailers sid fields) := by
  have h1 : FrameMoves c (c.modify sid (fun st => { st with trailers := st.trailers ++ fields })) :=
    FrameMove.moves (.update rfl rfl rfl (fun _ => ⟨rfl, rfl, rfl, id⟩))
  exact h1.trans (noteEndStream_move _ sid).moves

end FrameMoves

theorem head_move {st : Stream} (hs : c.stream? sid = some st) (hh : st.headersDone = false)
    (fields : Fields) (scan : HeadScan) (isWs isHead es : Bool) : FrameMove c (routeHead H sid isWs
      (if es then (c.acceptHead sid fields scan isWs isHead).noteEndStream sid
        else c.acceptHead sid fields scan isWs isHead)) := by
  have hcases : ∀ c1 : Conn, routeHead H sid isWs c1 = c1 ∨ isWs = false ∧
      routeHead H sid isWs c1 = c1.modify sid (fun st => { st with reqStreaming := true }) := by
    intro c1
    unfold routeHead
    split_ifs with h
    · exact .inr ⟨by simpa using (Bool.and_eq_true_iff.mp h).1, rfl⟩
    · exact .inl rfl
  cases es with
  | false =>
    rcases hcases (c.acceptHead sid fields scan isWs isHead) with e | ⟨hw, e⟩
    · simp only [Bool.false_eq_true, if_false, e]
      exact .head hs hh rfl rfl rfl (fun _ => ⟨rfl, rfl, rfl, id, fun h _ => h⟩)
    · simp only [Bool.false_eq_true, if_false, e]
      refine .head hs hh rfl rfl (Table.modify_modify _ _ _ _)
        (fun _ => ⟨rfl, rfl, rfl, id, fun _ h => ?_⟩)
      rw [hw] at h
      cases h
  | true =>
    have hcore := core_noteEndStream (c.acceptHead sid fields scan isWs isHead) sid
    have hblock := blockView_noteEndStream (c.acceptHead sid fields scan isWs isHead) sid
    have hstreams : ((c.acceptHead sid fields scan isWs isHead).noteEndStream sid).streams = _ :=
      (streams_noteEndStream _ sid).trans (Table.modify_modify _ _ _ _)
    rcases hcases ((c.acceptHead sid fields scan isWs isHead).noteEndStream sid) with e | ⟨hw, e⟩
    · simp only [if_true, e]
      exact .head hs hh hcore hblock hstreams
        (fun _ => ⟨rfl, rfl, rfl, fun _ => rfl, fun h _ => h⟩)
    · simp only [if_true, e]
      refine .head hs hh hcore hblock
        ((congrArg (Table.modify sid _) hstreams).trans (Table.modify_modify _ _ _ _))
        (fun _ => ⟨rfl, rfl, rfl, fun _ => rfl, fun _ h => ?_⟩)
      rw [hw] at h
      cases h

theorem frameMoves_noteHead (c : Conn) (sid : ℕ) : FrameMoves c (c.noteHead sid) := by
  unfold Conn.noteHead
  split
  · exact .refl
  · exact (FrameMove.note _ rfl).moves

theorem frameMoves_headed (H : Hooks) {st : Stream} {fields : Fields} {scan : HeadScan}
    (h : HeadTaken c sid st fields scan) (es : Bool) :
    FrameMoves c (headed H sid fields scan es c) :=
  (head_move h.stream h.fresh fields scan _ _ es).moves.trans (frameMoves_noteHead _ sid)

theorem Decided.moves (h : Decided sid a b) : FrameMoves a b := by
  cases h with
  | tunnel | streamed => exact frameMoves_dispatch a sid
  | buffered hs hw hr hd he hl =>
    exact (frameMoves_releaseBuffered a sid).trans (frameMoves_dispatch _ sid)
  | wait hs h => exact .refl

theorem Mismatched.moves (h : Mismatched sid a b) : FrameMoves a b := by
  cases h with
  | streamed => exact .refl
  | buffered => exact frameMoves_releaseBuffered a sid

theorem frameMoves_applySetting (H : Hooks) (key value : ℕ) (c : Conn) :
    FrameMoves c (outcome id (applySetting H key value c)) := by
  unfold applySetting
  split_ifs with h1 h2 h3
  · cases h : applyInitialWindow H value c with
    | error c' => exact (FrameMove.initialWindowFailed H value h).moves
    | ok c' => exact (FrameMove.initialWindow H value h).moves
  · exact (FrameMove.maxFrame c ⟨value, h3⟩).moves
  · exact (FrameMove.error _ _).moves
  · exact (FrameMove.error _ _).moves
  · exact .refl
  · have hnote : FrameMoves c (c.note (.tableSize value)) := (FrameMove.note c rfl).moves
    unfold Conn.applyTableSize
    dsimp only
    split_ifs
    · exact hnote.trans (FrameMove.moves (.other rfl rfl rfl))
    · exact hnote
  · exact .refl

theorem frameMoves_applySettings (H : Hooks) (entries : List (ℕ × ℕ)) (c : Conn) :
    FrameMoves c (outcome id (applySettings H entries c)) :=
  rel_applySettings (fun _ => .refl) .trans (frameMoves_applySetting H) entries c

theorem strokes_enqueueBacklog (l : List ℕ) (c : Conn) : Strokes c (enqueueBacklog l c) :=
  rel_enqueueBacklog (fun _ => .refl) .trans Strokes.h2Enqueue l c

/-- **The pieces of the frame handlers, seen from the accounts of the receive windows.** -/
theorem FrameAtom.moves {o : Option ℕ} (h : FrameAtom o a b) : FrameMoves a b := by
  cases h with
  | error c err => exact (FrameMove.error _ err).moves
  | settings H entries h hn =>
    have h1 := frameMoves_applySettings H entries a
    rw [h] at h1
    exact h1.trans (FrameMove.settingsAck _).moves
  | settingsWindow H entries h =>
    have h1 := frameMoves_applySettings H entries a
    rw [h] at h1
    exact (h1.trans (FrameMove.settingsAck _).moves).trans (strokes_enqueueBacklog _ _).moves.frameMoves
  | settingsFailed H entries h =>
    have h1 := frameMoves_applySettings H entries a
    rw [h] at h1
    exact h1
  | pingAck c payload => exact (FrameMove.pingAck _ payload).moves
  | charge c n => exact frameMoves_noteControlFrame _ n
  | idleUpdate c => exact frameMoves_noteIdleWindowUpdate _
  | countReset c => exact frameMoves_countReset _
  | absorb c sid n es => exact (absorbAfterReset_move _ sid n es).moves
  | forgetReset | peerGone | bufferPriority => exact FrameMove.moves (.other rfl rfl rfl)
  | reprioritize c sid field =>
    exact FrameMove.moves (.update rfl rfl rfl (fun _ => ⟨rfl, rfl, rfl, id⟩))
  | head H h es hd => exact (frameMoves_headed H h es).trans hd.moves
  | headMismatch H h es hd =>
    exact ((frameMoves_headed H h es).trans hd.moves).trans (Strokes.reset _ _ _).moves.frameMoves
  | trailers hs hh hn fields hd => exact (frameMoves_addTrailers _ _ fields).trans hd.moves
  | trailersMismatch hs hh fields hd =>
    exact ((frameMoves_addTrailers _ _ fields).trans hd.moves).trans
      (Strokes.reset _ _ _).moves.frameMoves
  | openNew h hodd hg => exact (FrameMove.openNew h).moves
  | refuse h => exact (FrameMove.refuse h).moves
  | refuseEarly h => exact (FrameMove.refuseEarly h).moves
  | forgetBoth c sid | forgetEarly c sid => exact FrameMove.moves (.forget sid rfl rfl rfl)
  | connCredit inc h => exact (FrameMove.connCredit inc h).moves
  | streamCredit hs inc h =>
    exact (FrameMove.streamCredit hs inc h).moves.trans (Strokes.h2Enqueue _ _).moves.frameMoves

theorem FeedAtom.moves (h : FeedAtom a b) : FrameMoves a b := by
  cases h with
  | error err => exact (FrameMove.error _ err).moves
  | received f hc =>
    have h1 : FrameMoves a { a with sawFirstFrame := true } :=
      FrameMove.moves (.other rfl rfl rfl)
    exact h1.trans (FrameMove.note _ rfl).moves
  | notFirst =>
    have h1 : FrameMoves a { a with sawFirstFrame := true } :=
      FrameMove.moves (.other rfl rfl rfl)
    exact h1.trans (FrameMove.error _ _).moves
  | read rbuf => exact FrameMove.moves (.other rfl rfl rfl)
  | preface hp rbuf =>
    have h1 : FrameMoves a { a with rbuf := rbuf } := FrameMove.moves (.other rfl rfl rfl)
    exact h1.trans (FrameMove.preface (c := { a with rbuf := rbuf }) hp).moves

/-! ### What calls keep -/

theorem kept_creditStream (c : Conn) (sid n : ℕ) : Kept c (c.creditStream sid n) := by
  unfold Conn.creditStream
  split
  · exact .refl c
  · dsimp only
    split_ifs
    · exact .refl c
    · exact (Kept.send c _).trans (.modify _ sid (fun _ => ⟨rfl, id⟩))
    · exact .modify _ sid (fun _ => ⟨rfl, id⟩)

theorem kept_creditConnFor (c : Conn) (sid n : ℕ) : Kept c (c.creditConnFor sid n) := by
  unfold Conn.creditConnFor
  split_ifs
  · exact .refl c
  · refine Kept.trans ?_ (kept_creditConn _ n)
    exact .modify c sid (fun _ => ⟨rfl, id⟩)

theorem kept_deliver (c : Conn) (sid cb : ℕ) (st : Stream) (last : Bool) :
    Kept c (c.deliver sid cb st last) := by
  have h1 : Kept c (c.takeBody sid) := Kept.modify c sid (fun _ => ⟨rfl, id⟩)
  refine Kept.trans ?_ (.note _ rfl)
  split_ifs
  · exact h1.trans (.note _ rfl)
  · exact h1

theorem SinkAtom.kept (h : SinkAtom a b) : Kept a b := by
  cases h with
  | creditConn n => exact kept_creditConn _ n
  | creditStream sid n => exact kept_creditStream _ sid n
  | acked hs hr n =>
    exact ((Kept.note _ rfl).trans (kept_creditStream _ _ n)).trans (kept_creditConnFor _ _ n)
  | deliver hs hcb hb => exact kept_deliver _ _ _ _ _

theorem kept_storeSink (c : Conn) (sid cb : ℕ) (manualAck : Bool) :
    Kept c (c.storeSink sid cb manualAck) :=
  (Kept.note c (e := .sinkSet sid cb) rfl).trans (.modify _ _ (fun _ => ⟨rfl, id⟩))

/-- **The pieces of calls keep the read side.** -/
theorem Piece.kept {ok : Call → Conn → Prop} (h : Piece (CallAtom ok) a b) : Kept a b := by
  cases h with
  | atom h =>
    cases h with
    | app h | drain hk h => exact h.strokes.moves.kept
    | sink h => exact h.kept
    | sinkSet hs hk => exact kept_storeSink a _ _ _
    | sinkTold hs hk he => exact (kept_storeSink a _ _ _).trans (kept_deliver _ _ _ _ _)
  | finish h => exact h.strokes.moves.kept
  | fired c cb => exact .note _ rfl
  | closeBegin h => exact h.strokes.moves.kept
  | wsDrop hw => exact kept_dropWsStream _ _

/-! ### What leaves the field block alone -/

theorem Kept.blockView (h : Kept a b) : b.blockView = a.blockView :=
  congrArg (fun r : ReadSide => (⟨r.decoder, r.contStream, r.contEndStream, r.contRefuse,
    r.headerBlock⟩ : BlockView)) h.readSide

theorem blockView_connError (c : Conn) (err : ErrCode) :
    (c.connError err).blockView = c.blockView := by
  unfold Conn.connError
  split_ifs <;> rfl

theorem FrameMove.blockView (h : FrameMove a b) : b.blockView = a.blockView := by
  cases h with
  | error err => exact blockView_connError _ _
  | note | settingsAck | pingAck => rfl
  | preface hp =>
    unfold Conn.finishPreface
    rcases sendOurSettings_cases { a with prefaceDone := true } with e | e <;> rw [e] <;> rfl
  | other hc hb hs | update hc hb hs hf | head hst hh hc hb hs hf => exact hb
  | @openNew sid hl =>
    obtain ⟨u, i, p, e⟩ := openStream_eq { a with lastStreamId := sid } sid
    rw [e]
    rfl
  | refuse hl => rfl
  | @refuseEarly sid hl => exact (kept_recordEarlyClosed { a with lastStreamId := sid } sid).blockView
  | forget sid hc hb hs => exact hb
  | initialWindow H value h =>
    exact ((shiftWindows_moves _ _ _).1 _ (applyInitialWindow_ok h).2).kept.blockView
  | initialWindowFailed H value h =>
    rcases applyInitialWindow_error h with rfl | ⟨c1, hm, rfl⟩
    · exact blockView_connError _ _
    · exact (blockView_connError _ _).trans hm.kept.blockView
  | maxFrame | connCredit => rfl
  | streamCredit hs inc h => exact (creditSend_moves _ _ _).kept.blockView

theorem FrameMoves.blockView (h : FrameMoves a b) : b.blockView = a.blockView := by
  induction h with
  | refl => rfl
  | tail _ hm ih =>
    rcases hm with hm | hm
    · exact hm.blockView.trans ih
    · exact hm.kept.blockView.trans ih

theorem blockView_dispatch (c : Conn) (sid : ℕ) : (c.dispatch sid).blockView = c.blockView :=
  (frameMoves_dispatch c sid).blockView

theorem blockView_releaseBuffered (c : Conn) (sid : ℕ) :
    (c.releaseBuffered sid).blockView = c.blockView :=
  (frameMoves_releaseBuffered c sid).blockView

theorem blockView_reset (c : Conn) (sid : ℕ) (err : ErrCode) :
    (c.reset sid err).blockView = c.blockView :=
  (Strokes.reset c sid err).moves.kept.blockView

/-! ### The request side -/

/-- The operations on a request that the pieces of the frame handlers are made of. -/
inductive RequestMove : Conn → Conn → Prop
  | debit (c : Conn) (n : ℕ) : RequestMove c (c.debitConn n)
  | record (c : Conn) (sid : ℕ) {f : Stream → Stream}
      (hf : ∀ st : Stream, (f st).response = st.response ∧ (f st).inSendQ = st.inSendQ) :
      RequestMove c (c.modify sid f)
  | count (c : Conn) (sid n : ℕ) : RequestMove c (c.countBuffered sid n)
  | ended (c : Conn) (sid : ℕ) : RequestMove c (c.noteEndStream sid)
  | release (c : Conn) (sid : ℕ) : RequestMove c (c.releaseBuffered sid)
  | dispatch {c : Conn} {sid : ℕ} {st : Stream} (hs : c.stream? sid = some st)
      (hd : st.dispatched = false) : RequestMove c (c.dispatch sid)
  | note (c : Conn) {e : Event} (he : e.isFree = true) : RequestMove c (c.note e)
  | reset (c : Conn) (sid : ℕ) (err : ErrCode) : RequestMove c (c.reset sid err)

abbrev RequestMoves : Conn → Conn → Prop := ReflTransGen RequestMove

theorem requestMove_bufferBody (c : Conn) (sid : ℕ) (data : Bytes) :
    RequestMove c (c.bufferBody sid data) :=
  .record c sid fun _ => ⟨rfl, rfl⟩

theorem requestMove_deferBody (c : Conn) (sid n : ℕ) : RequestMove c (c.deferBody sid n) :=
  .record c sid fun _ => ⟨rfl, rfl⟩

theorem requestMoves_addTrailers (c : Conn) (sid : ℕ) (fields : Fields) :
    RequestMoves c (c.addTrailers sid fields) := by
  refine .tail (.single ?_) (.ended _ sid)
  exact .record c sid fun _ => ⟨rfl, rfl⟩

theorem requestMoves_headed (H : Hooks) (sid : ℕ) (fields : Fields) (scan : HeadScan) (es : Bool)
    (c : Conn) : RequestMoves c (headed H sid fields scan es c) := by
  have hroute : ∀ (c : Conn) isWs, RequestMoves c (routeHead H sid isWs c) := by
    intro c isWs
    unfold routeHead
    split_ifs
    · exact .single (.record c sid fun _ => ⟨rfl, rfl⟩)
    · exact .refl
  have hnote : ∀ c : Conn, RequestMoves c (c.noteHead sid) := by
    intro c
    unfold Conn.noteHead
    split
    · exact .refl
    · exact .single (.note c rfl)
  have haccept : ∀ isWs isHead, RequestMoves c (c.acceptHead sid fields scan isWs isHead) :=
    fun _ _ => .single (.record c sid fun _ => ⟨rfl, rfl⟩)
  cases es with
  | false => exact ((haccept _ _).trans (hroute _ _)).trans (hnote _)
  | true => exact (((haccept _ _).tail (.ended _ sid)).trans (hroute _ _)).trans (hnote _)

theorem Decided.requestMoves (h : Decided sid a b) : RequestMoves a b := by
  cases h with
  | tunnel hs hw hd | streamed hs hw hr hd hl => exact .single (.dispatch hs hd)
  | @buffered st hs hw hr hd he hl =>
    have hs' := updates_releaseBuffered a sid sid
    rw [if_pos rfl, hs] at hs'
    exact .tail (.single (.release a sid)) (.dispatch hs' hd)
  | wait hs h => exact .refl

theorem Mismatched.requestMoves (h : Mismatched sid a b) : RequestMoves a b := by
  cases h with
  | streamed => exact .refl
  | buffered => exact .single (.release _ _)

theorem requestMoves_buffered (c : Conn) (sid : ℕ) (data : Bytes) :
    RequestMoves c ((c.bufferBody sid data).countBuffered sid data.length) :=
  .tail (.single (requestMove_bufferBody c sid data)) (.count _ sid _)

theorem requestMoves_streamed (c : Conn) (sid : ℕ) (data : Bytes) :
    RequestMoves c ((c.deferBody sid data.length).bufferBody sid data) :=
  .tail (.single (requestMove_deferBody c sid _)) (requestMove_bufferBody _ sid data)

theorem requestMoves_deliver (c : Conn) (sid cb : ℕ) (st : Stream) (last : Bool) :
    RequestMoves c (c.deliver sid cb st last) := by
  have h1 : RequestMoves c (c.takeBody sid) := .single (.record c sid fun _ => ⟨rfl, rfl⟩)
  unfold Conn.deliver
  split_ifs
  · exact (h1.tail (.note _ rfl)).tail (.note _ rfl)
  · exact h1.tail (.note _ rfl)

theorem EndsBody.requestMoves (h : EndsBody sid a b) : RequestMoves a b := by
  cases h with
  | data hs hr data hl => exact (requestMoves_streamed a sid data).tail (.ended _ sid)
  | trailers hs hh he hr fields hl => exact requestMoves_addTrailers a sid fields

theorem updates_countBuffered (c : Conn) (sid : ℕ) (data : Bytes) :
    Updates c ((c.bufferBody sid data).countBuffered sid data.length) sid (fun st => { st with
      body := st.body ++ data, bufferedCounted := st.bufferedCounted + data.length }) :=
  .of_streams (Table.modify_modify _ _ _ _)

/-- **Taking request bytes in is a sequence of operations on the request.** -/
theorem BodyAtom.requestMoves {o : Option ℕ} (h : BodyAtom o a b) : RequestMoves a b := by
  have hbuffered : ∀ sid data, RequestMoves a ((((a.bufferBody sid data).countBuffered sid
      data.length).noteEndStream sid).releaseBuffered sid) := fun sid data =>
    ((requestMoves_buffered a sid data).tail (.ended _ sid)).tail (.release _ sid)
  cases h with
  | debitConn c n => exact .single (.debit a n)
  | debitStream c sid n => exact .single (.record a sid fun _ => ⟨rfl, rfl⟩)
  | overrun hs n =>
    refine .tail (.single ?_) (.reset _ _ _)
    exact .record a _ fun _ => ⟨rfl, rfl⟩
  | streamed hs hr data hl => exact requestMoves_streamed a _ data
  | ended h => exact h.requestMoves
  | told h hs hcb => exact h.requestMoves.trans (requestMoves_deliver _ _ _ _ _)
  | streamedExcess hs hr n => exact .tail (.single (requestMove_deferBody a _ n)) (.reset _ _ _)
  | streamedShort hs hr data =>
    exact ((requestMoves_streamed a _ data).tail (.ended _ _)).tail (.reset _ _ _)
  | buffered hs hr hw data hb => exact requestMoves_buffered a _ data
  | bufferedOverflow hs hr hw data => exact (requestMoves_buffered a _ data).tail (.reset _ _ _)
  | @bufferedEnd _ sid st hs hr hw hd data hb hl =>
    have hs' := ((updates_countBuffered a sid data).trans (updates_noteEndStream _ sid)).trans
      (updates_releaseBuffered _ sid) sid
    rw [if_pos rfl, hs.stream] at hs'
    exact (hbuffered sid data).tail (.dispatch hs' hd)
  | bufferedLate hs hr hw hd data hb => exact hbuffered _ data
  | bufferedShort hs hr hw data => exact (hbuffered _ data).tail (.reset _ _ _)
  | @tunnelData _ sid st hs hw f data =>
    have hbody := ReflTransGen.single (requestMove_bufferBody a sid data)
    unfold Conn.dataWsPending
    split_ifs
    · exact hbody.tail (.ended _ _)
    · exact hbody

theorem RequestMoves.blockView (h : RequestMoves a b) : b.blockView = a.blockView := by
  induction h with
  | refl => rfl
  | tail _ h ih =>
    refine Eq.trans ?_ ih
    cases h with
    | debit | record | count | note => rfl
    | ended => exact blockView_noteEndStream _ _
    | release => exact blockView_releaseBuffered _ _
    | dispatch => exact blockView_dispatch _ _
    | reset => exact blockView_reset _ _ _

/-- **Everything but the pieces of field blocks leaves the field block alone.** -/
theorem Piece.blockView {ok : Call → Conn → Prop} (h : Piece (DataAtom ok) a b) :
    b.blockView = a.blockView := by
  cases h with
  | atom h =>
    cases h with
    | call h => exact (Piece.kept (.atom h)).blockView
    | frame h => exact h.moves.blockView
    | body h => exact h.requestMoves.blockView
  | finish h => exact h.strokes.moves.kept.blockView
  | fired c cb => rfl
  | closeBegin h => exact h.strokes.moves.kept.blockView
  | wsDrop hw => exact (kept_dropWsStream _ _).blockView

end Vortex.Http2
