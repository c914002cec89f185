import Vortex.Http1.Parser

/-! # An HTTP/1 connection with a streaming route

A translation of the HTTP/1 part of `processInput`, `startStreamingDispatch` and `feedBody`
(`eventloop.nim`) and of `resetForNextRequest` (`connection.nim`).

* `rbuf` is the whole receive buffer and `rlen` the number of bytes in use: bytes beyond
  `rlen` are left over from earlier contents and can still be read through a slice that points
  at them, as `req.trailers` does.  `recv` and `moveMem` overwrite in place.
* The application is an `App`: its stream-route predicate, whether the handler registers a body
  sink when it is dispatched and whether it asked for manual acknowledgement.  The calls made
  to the sink are logged in `deliveries`.
* A request that is not answered when it is complete waits (`awaitingResponse`), and its
  buffer is compacted by `resetForNextRequest` when the response comes.

Deadlines, the interim `100 Continue` and the response bytes touch neither the parser nor the
receive buffer and are left out. -/

namespace Vortex

/-- Overwrite `buf` from `dst` on with `data`. -/
def writeAt (buf : Bytes) (dst : ℕ) (data : Bytes) : Bytes :=
  buf.take dst ++ data ++ buf.drop (dst + data.length)

/-- Copy `n` bytes inside `buf` from `src` to `dst`; the regions may overlap. -/
def moveMem (buf : Bytes) (dst src n : ℕ) : Bytes :=
  writeAt buf dst (slice buf src (src + n))

namespace Http1

inductive ConnState where
  | csFree | csActive | csClosing | csDraining
deriving DecidableEq, Repr

/-- What the application does with the requests of a connection. -/
structure App where
  /-- The stream-route predicate, on the parsed head. -/
  streamRoute : RequestParser → Bool
  /-- Does the dispatched handler register a body sink? -/
  registersSink : RequestParser → Bool
  /-- Is the sink registered with manual acknowledgement? -/
  manualAck : Bool
  /-- Has a buffered handler answered when it returns? -/
  answers : RequestParser → Bool

structure Connection where
  state : ConnState := .csActive
  rbuf : Bytes := []
  rlen : ℕ := 0
  parser : RequestParser := ({} : RequestParser).reset 0
  chunkBody : Bytes := []
  bodyFed : ℕ := 0
  bodyUnacked : ℕ := 0
  responded : Bool := false
  reqStreaming : Bool := false
  onBodyCb : Bool := false
  bodyManualAck : Bool := false
  awaitingResponse : Bool := false
  closeAfterFlush : Bool := false
  requestCount : ℕ := 0
  /-- The connection was handed to the HTTP/2 codec. -/
  h2 : Bool := false
  /-- The chunks given to the body sink so far, each with its `last` flag. -/
  deliveries : List (Bytes × Bool) := []

namespace Connection

/-- Bytes arrive behind the ones in use. -/
def recv (c : Connection) (r : Bytes) : Connection :=
  { c with rbuf := writeAt c.rbuf c.rlen r, rlen := c.rlen + r.length }

/-- Call the body sink. -/
def deliver (c : Connection) (chunk : Bytes) (last : Bool) : Connection :=
  { c with deliveries := c.deliveries ++ [(chunk, last)] }

/-- Count delivered bytes of a sink that acknowledges by hand. -/
def oweAck (c : Connection) (n : ℕ) : Connection :=
  if c.bodyManualAck then { c with bodyUnacked := c.bodyUnacked + n } else c

/-- Hand over the decoded bytes that arrived; the end of a chunked body is only known when
the parser completes. -/
def feedDecoded (c : Connection) (last : Bool) : Connection :=
  let avail := c.chunkBody.length - c.bodyFed
  if 0 < avail then
    { (c.deliver (slice c.chunkBody c.bodyFed c.chunkBody.length) last).oweAck avail with
      chunkBody := [], bodyFed := 0 }
  else if last then c.deliver [] true
  else c

/-- Drop the raw chunk framing behind the head, up to the parser's position. -/
def compactRaw (c : Connection) : Connection :=
  let headEnd := c.parser.bodyStart
  let tailLen := c.rlen - c.parser.pos
  { c with
    rbuf := if 0 < tailLen then moveMem c.rbuf headEnd c.parser.pos tailLen else c.rbuf
    rlen := headEnd + tailLen
    parser := { c.parser with pos := headEnd } }

/-- Hand over the `Content-Length` body bytes in the buffer and drop them from it. -/
def feedPlain (c : Connection) (last : Bool) : Connection :=
  let bodyStart := c.parser.bodyStart
  let avail := min (c.rlen - bodyStart) c.parser.bodyLen
  if avail = 0 then
    if last && c.parser.bodyLen == 0 then c.deliver [] true else c
  else
    let c := (c.deliver (slice c.rbuf bodyStart (bodyStart + avail))
      (avail == c.parser.bodyLen)).oweAck avail
    let tailLen := c.rlen - (bodyStart + avail)
    { c with
      rbuf := if 0 < tailLen then moveMem c.rbuf bodyStart (bodyStart + avail) tailLen
        else c.rbuf
      rlen := bodyStart + tailLen
      parser := { c.parser with bodyLen := c.parser.bodyLen - avail, pos := bodyStart } }

/-- Deliver the request-body bytes that arrived to the sink of a streaming handler. -/
def feedBody (c : Connection) (last : Bool) : Connection :=
  if !c.onBodyCb then c
  else if c.parser.chunked then
    let c := c.feedDecoded last
    if !last ∧ c.parser.bodyStart < c.parser.pos then c.compactRaw else c
  else c.feedPlain last

/-- Dispatch a streaming route's handler at headers-complete. -/
def startStreamingDispatch (app : App) (c : Connection) : Connection :=
  if !app.streamRoute c.parser then c
  else
    let c := { c with reqStreaming := true, bodyFed := 0, bodyUnacked := 0 }
    if app.registersSink c.parser then
      { c with onBodyCb := true, bodyManualAck := app.manualAck }
    else c

/-- Drop the consumed bytes and prepare for the next request. -/
def resetForNextRequest (c : Connection) : Connection :=
  let consumed := c.parser.pos
  { c with
    rbuf := if c.rlen ≤ consumed then c.rbuf else moveMem c.rbuf 0 consumed (c.rlen - consumed)
    rlen := if c.rlen ≤ consumed then 0 else c.rlen - consumed
    chunkBody := [], bodyFed := 0, bodyUnacked := 0, responded := false,
    reqStreaming := false, onBodyCb := false, bodyManualAck := false, awaitingResponse := false,
    parser := c.parser.reset 0 }

/-- The parser state a call of `parse` left. -/
def withParse (c : Connection) (s : ParseState) : Connection :=
  { c with parser := s.parser, chunkBody := s.chunkBody }

def respondError (c : Connection) : Connection :=
  { c with responded := true, closeAfterFlush := true, state := .csClosing }

end Connection

/-- The client connection preface of HTTP/2. -/
def connectionPreface : Bytes := ascii "PRI * HTTP/2.0\r\n\r\nSM\r\n\r\n"

/-- The settings `processInput` reads. -/
structure LoopSettings where
  limits : ParserLimits
  maxRequestsPerSocket : ℕ := 0
  /-- Cleartext, or HTTP/2 was negotiated: a connection preface may come. -/
  h2Possible : Bool := true

section process

variable (cfg : LoopSettings) (app : App) (c : Connection)

/-- The bytes in use look like the beginning of a connection preface. -/
def isPreface : Bool :=
  !c.parser.started && decide (0 < c.rlen) && cfg.h2Possible &&
    c.rbuf.take (min c.rlen connectionPreface.length) ==
      connectionPreface.take (min c.rlen connectionPreface.length)

/-- `prNeedMore`: dispatch a streaming route once the head is there and feed its sink. -/
def onNeedMore : Connection :=
  if c.parser.inBody then
    let c := if !c.reqStreaming && !c.responded then c.startStreamingDispatch app else c
    if c.reqStreaming then c.feedBody false else c
  else c

/-- Count the request; the last one a connection may carry is answered with a close. -/
def countRequest : Connection :=
  let c := { c with requestCount := c.requestCount + 1 }
  if 0 < cfg.maxRequestsPerSocket ∧ cfg.maxRequestsPerSocket ≤ c.requestCount then
    { c with parser := { c.parser with keepAlive := false } }
  else c

/-- `prComplete`, up to the point where the response is looked at. -/
def onComplete : Connection :=
  let c := countRequest cfg c
  let c := if !c.reqStreaming then c.startStreamingDispatch app else c
  if c.reqStreaming then c.feedBody true
  else { c with responded := app.answers c.parser }

/-- One round of the loop of `processInput`: another round (`.inl`) or the state it returns
in. -/
def processRound : Except Defect (Connection ⊕ Connection) :=
  match parse cfg.limits (c.rbuf.take c.rlen) ⟨c.parser, c.chunkBody⟩ with
  | .error d => .error d
  | .ok (res, s) =>
      let c := c.withParse s
      match res with
      | .prNeedMore => .ok (.inr (onNeedMore app c))
      | .prError => .ok (.inr c.respondError)
      | .prComplete =>
          let c := onComplete cfg app c
          if !c.responded then .ok (.inr { c with awaitingResponse := true })
          else if c.closeAfterFlush then .ok (.inr { c with state := .csClosing })
          else
            let c := c.resetForNextRequest
            if c.rlen = 0 then .ok (.inr c) else .ok (.inl c)

/-- At most `n` rounds.  A request takes at least one byte, so `rlen + 1` rounds are enough
for all the requests in the buffer. -/
def processRounds : ℕ → Connection → Except Defect Connection
  | 0, c => .ok c
  | n + 1, c =>
      match processRound cfg app c with
      | .error d => .error d
      | .ok (.inr c) => .ok c
      | .ok (.inl c) => processRounds n c

/-- Parse and dispatch what is in the receive buffer. -/
def processInput : Except Defect Connection :=
  if c.h2 ∨ c.awaitingResponse ∨ c.state = .csClosing then .ok c
  else if isPreface cfg c then
    if c.rlen < connectionPreface.length then .ok c else .ok { c with h2 := true }
  else processRounds cfg app (c.rlen + 1) c

/-- One read and its processing. -/
def handleRead (c : Connection) (r : Bytes) : Except Defect Connection :=
  processInput cfg app (c.recv r)

/-- The connection after a sequence of reads. -/
def handleReads : Connection → List Bytes → Except Defect Connection
  | c, [] => .ok c
  | c, r :: rs =>
      match handleRead cfg app c r with
      | .error d => .error d
      | .ok c => handleReads c rs

end process

/-- The trailer fields `req.trailers` yields, read from the receive buffer. -/
def Connection.trailers (c : Connection) : List (Bytes × Bytes) :=
  c.parser.trailers.map (fun h => (h.name c.rbuf, h.val c.rbuf))

end Http1

end Vortex
