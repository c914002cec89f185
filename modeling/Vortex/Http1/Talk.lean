import Vortex.System
import Vortex.Http1.Sinks
import Vortex.Http1.Delimiting

/-! # Requests and answers on an HTTP/1 connection

The life of an HTTP/1 connection with both of its sides: `processInput` and
`startStreamingDispatch` with what handlers do in them, the response API (`applyResponse`,
`sendHead`, `write`, `finish`, `abort`, `onBody`, `informational`), `resumeAfterRespond` from the
kick and from the outbox, `sweepTimeouts`, `flushOut`, the half-close at the end of `handleRead`, and graceful
shutdown (`markDrain`, `drainSweep`).

* The input is the `Connection` of the streaming development, with its parser and its buffer.
* `out` lists what was put in the write buffer, and `sent` counts how much of it the socket has
  taken.  Every entry names its request by `reqSerial`.  That a response is over is an entry too.
* A handler acts through handles of the present request.  Handles of earlier ones resolve to
  nothing (`liveConn`), and a message that names another serial is not applied.
* The parts of `handleRead`, `resumeAfterRespond` and the sweeps are actions of their own, so every
  order of the code is a run, and more. -/

namespace Vortex.Http1

/-- What is put in the write buffer. -/
inductive Out where
  /-- `100 Continue`. -/
  | interim (serial : ℕ)
  /-- The head of an informational response that a handler sends, such as `103 Early Hints`. -/
  | hint (serial : ℕ)
  /-- The head of a final response: does it announce that the connection is closed, and does a
  body follow that is written later? -/
  | head (serial : ℕ) (closes streamed : Bool)
  | piece (serial : ℕ)
  /-- The streamed response is finished. -/
  | finish (serial : ℕ)
  /-- The streamed response is given up. -/
  | cut (serial : ℕ)
deriving DecidableEq, Repr

/-- What a handler does with its request and response. -/
inductive Act where
  | respond
  | sendHead (contentLength : Option ℕ)
  | write (data : Bytes)
  | finish
  | abort
  | onBody (manualAck : Bool)
  | informational (code : ℕ)
  /-- The flush hook, which `res.send`, `res.write`, `onBody` and `informational` run. -/
  | flush (taken : ℕ)

/-- A dispatch: what the handler does before it returns, whether it raises, and what its body sink
does when it is called. -/
structure Script where
  acts : List Act := []
  raises : Bool := false
  sink : List Act := []

/-- A connection with its responses. -/
structure Talk where
  conn : Connection := {}
  respStreaming : Bool := false
  respFraming : RespFraming := .rfNone
  respContentLength : Option ℕ := none
  respBodyWritten : ℕ := 0
  sent100 : Bool := false
  peerHalfClosed : Bool := false
  reqSerial : ℕ := 0
  /-- The deadline is that of a deferred response. -/
  dkResponse : Bool := false
  /-- The handler of the present request was called. -/
  dispatched : Bool := false
  /-- The requests whose handlers were called. -/
  calls : List ℕ := []
  out : List Out := []
  sent : ℕ := 0
  /-- The write side of the socket is shut. -/
  shut : Bool := false

namespace Talk

/-! ### The response API -/

def put (s : Talk) (o : Out) : Talk := { s with out := s.out ++ [o] }

/-- Nothing is left to be sent. -/
def flushed (s : Talk) : Bool := s.out.length ≤ s.sent

def closeAfterFlush (s : Talk) (closes : Bool) : Talk :=
  { s with conn := { s.conn with closeAfterFlush := s.conn.closeAfterFlush || closes } }

def markResponded (s : Talk) : Talk := { s with conn := { s.conn with responded := true } }

def applyResponse (s : Talk) : Talk :=
  if s.conn.responded then s
  else
    let closes := !s.conn.parser.keepAlive
    (s.markResponded.put (.head s.reqSerial closes false)).closeAfterFlush closes

def sendHead (s : Talk) (contentLength : Option ℕ) : Talk :=
  if s.conn.responded then s
  else
    let p := s.conn.parser
    let s := s.markResponded
    if p.httpMethod = .HttpHead ∧ contentLength = none then
      let closes := !p.keepAlive || !decide (1 ≤ p.minor)
      (s.put (.head s.reqSerial closes false)).closeAfterFlush closes
    else if p.httpMethod = .HttpHead then
      { s with respStreaming := true, respFraming := .rfContentLength }.put
        (.head s.reqSerial (!p.keepAlive) true)
    else
      let chunked := contentLength.isNone && decide (1 ≤ p.minor)
      { s with
        respStreaming := true
        respFraming := if contentLength.isSome then .rfContentLength
          else if chunked then .rfChunked else .rfCloseDelimited
        respContentLength := contentLength
        respBodyWritten := 0 }.put
        (.head s.reqSerial (!p.keepAlive || !(chunked || contentLength.isSome)) true)

def write (s : Talk) (data : Bytes) : Talk :=
  if !s.respStreaming then s
  else if s.conn.parser.httpMethod = .HttpHead then s
  else if data = [] then s
  else { s with respBodyWritten := s.respBodyWritten + data.length }.put (.piece s.reqSerial)

def finish (s : Talk) : Talk :=
  if !s.respStreaming then s
  else
    let closes := (s.respContentLength.isSome && s.respContentLength != some s.respBodyWritten) ||
      !s.conn.parser.keepAlive || s.peerHalfClosed || s.respFraming == .rfCloseDelimited
    ({ s with respStreaming := false, respFraming := .rfNone, respContentLength := none }.put
      (.finish s.reqSerial)).closeAfterFlush closes

/-- Give a streamed response up. -/
def cut (s : Talk) : Talk :=
  { s with respStreaming := false }.put (.cut s.reqSerial)

def abort (s : Talk) : Talk :=
  if !s.respStreaming then s else s.cut.closeAfterFlush true

def sendContinue (s : Talk) : Talk :=
  if s.conn.parser.expectContinue && !s.sent100 && !s.conn.responded then
    { s with sent100 := true }.put (.interim s.reqSerial)
  else s

def onBody (s : Talk) (manualAck : Bool) : Talk :=
  sendContinue { s with conn := s.conn.onBody manualAck }

def informational (s : Talk) (code : ℕ) : Talk :=
  if code < 100 ∨ 199 < code then s
  else if s.conn.responded then s
  else s.put (.hint s.reqSerial)

/-- Half-close the socket. -/
def beginLingerClose (s : Talk) : Talk :=
  { s with conn := { s.conn with state := .csDraining }, shut := true }

/-- The socket takes some of what is pending; when it has taken all of it, a connection that is to
be closed is half-closed. -/
def flushOut (s : Talk) (taken : ℕ) : Talk :=
  let s := { s with sent := min (s.sent + taken) s.out.length }
  if s.flushed && s.conn.closeAfterFlush then s.beginLingerClose else s

/-- Write what is pending.  A send on a socket that is shut fails, and a failure closes the
connection later. -/
def flushHook (s : Talk) (taken : ℕ) : Talk :=
  if s.flushed || s.shut then s else s.flushOut taken

def act (s : Talk) : Act → Talk
  | .respond => s.applyResponse
  | .sendHead contentLength => s.sendHead contentLength
  | .write data => s.write data
  | .finish => s.finish
  | .abort => s.abort
  | .onBody manualAck => s.onBody manualAck
  | .informational code => s.informational code
  | .flush taken => s.flushHook taken

def acts (s : Talk) (as : List Act) : Talk := as.foldl act s

/-- What an act leaves alone: the request, its bytes and its place in the pipeline. -/
structure Acted (s s' : Talk) : Prop where
  parser : s'.conn.parser = s.conn.parser
  rbuf : s'.conn.rbuf = s.conn.rbuf
  rlen : s'.conn.rlen = s.conn.rlen
  chunkBody : s'.conn.chunkBody = s.conn.chunkBody
  awaitingResponse : s'.conn.awaitingResponse = s.conn.awaitingResponse
  reqStreaming : s'.conn.reqStreaming = s.conn.reqStreaming
  reqSerial : s'.reqSerial = s.reqSerial
  dispatched : s'.dispatched = s.dispatched
  calls : s'.calls = s.calls
  responded : s'.conn.responded = false → s.conn.responded = false
  closeAfterFlush : s.conn.closeAfterFlush = true → s'.conn.closeAfterFlush = true
  state : s'.conn.state = s.conn.state ∨
    s'.conn.state = .csDraining ∧ s'.conn.closeAfterFlush = true

theorem Acted.refl (s : Talk) : Acted s s :=
  ⟨rfl, rfl, rfl, rfl, rfl, rfl, rfl, rfl, rfl, id, id, .inl rfl⟩

theorem Acted.trans {s1 s2 s3 : Talk} (h : Acted s1 s2) (h' : Acted s2 s3) : Acted s1 s3 where
  parser := h'.parser.trans h.parser
  rbuf := h'.rbuf.trans h.rbuf
  rlen := h'.rlen.trans h.rlen
  chunkBody := h'.chunkBody.trans h.chunkBody
  awaitingResponse := h'.awaitingResponse.trans h.awaitingResponse
  reqStreaming := h'.reqStreaming.trans h.reqStreaming
  reqSerial := h'.reqSerial.trans h.reqSerial
  dispatched := h'.dispatched.trans h.dispatched
  calls := h'.calls.trans h.calls
  responded hr := h.responded (h'.responded hr)
  closeAfterFlush hc := h'.closeAfterFlush (h.closeAfterFlush hc)
  state := by
    rcases h'.state with h2 | h2
    · rw [h2]
      exact h.state.imp id fun h1 => ⟨h1.1, h'.closeAfterFlush h1.2⟩
    · exact .inr h2

theorem Acted.of_state {s s' : Talk} (hp : s'.conn.parser = s.conn.parser)
    (hb : s'.conn.rbuf = s.conn.rbuf) (hl : s'.conn.rlen = s.conn.rlen)
    (hk : s'.conn.chunkBody = s.conn.chunkBody)
    (hw : s'.conn.awaitingResponse = s.conn.awaitingResponse)
    (hq : s'.conn.reqStreaming = s.conn.reqStreaming) (hn : s'.reqSerial = s.reqSerial)
    (hd : s'.dispatched = s.dispatched) (hcs : s'.calls = s.calls)
    (hr : s'.conn.responded = false → s.conn.responded = false)
    (hc : s.conn.closeAfterFlush = true → s'.conn.closeAfterFlush = true)
    (hst : s'.conn.state = s.conn.state) : Acted s s' :=
  ⟨hp, hb, hl, hk, hw, hq, hn, hd, hcs, hr, hc, .inl hst⟩

/-- What an act comes to. -/
inductive Did (s : Talk) : Act → Talk → Prop
  | nothing {a : Act} : Did s a s
  | whole {a : Act} (closes : Bool) (hr : s.conn.responded = false) :
      Did s a ((s.markResponded.put (.head s.reqSerial closes false)).closeAfterFlush closes)
  | begun {a : Act} (closes : Bool) (framing : RespFraming) (len : Option ℕ) (n : ℕ)
      (hr : s.conn.responded = false)
      (hc : closes = true → s.conn.parser.keepAlive = false ∨ framing = .rfCloseDelimited) :
      Did s a ({ s.markResponded with
        respStreaming := true, respFraming := framing, respContentLength := len,
        respBodyWritten := n }.put (.head s.reqSerial closes true))
  | piece {a : Act} (n : ℕ) (hs : s.respStreaming = true) :
      Did s a ({ s with respBodyWritten := n }.put (.piece s.reqSerial))
  | finished {a : Act} (closes : Bool) (hs : s.respStreaming = true)
      (hc : s.conn.parser.keepAlive = false ∨ s.respFraming = .rfCloseDelimited → closes = true) :
      Did s a (({ s with
        respStreaming := false, respFraming := .rfNone, respContentLength := none }.put
          (.finish s.reqSerial)).closeAfterFlush closes)
  | aborted (hs : s.respStreaming = true) : Did s .abort (s.cut.closeAfterFlush true)
  | sink {a : Act} (manualAck : Bool) : Did s a { s with conn := s.conn.onBody manualAck }
  | continued {a : Act} (manualAck : Bool) (hr : s.conn.responded = false)
      (hs : s.sent100 = false) :
      Did s a ({ s with conn := s.conn.onBody manualAck, sent100 := true }.put
        (.interim s.reqSerial))
  | hinted {a : Act} (hr : s.conn.responded = false) : Did s a (s.put (.hint s.reqSerial))
  | sent (taken n : ℕ) (hs : s.shut = false) : Did s (.flush taken) { s with sent := n }
  | shut (taken n : ℕ) (hf : ({ s with sent := n } : Talk).flushed = true)
      (hc : s.conn.closeAfterFlush = true) :
      Did s (.flush taken) ({ s with sent := n } : Talk).beginLingerClose

theorem did_act (s : Talk) (a : Act) : Did s a (s.act a) := by
  cases a with
  | respond =>
    simp only [act, applyResponse]
    split_ifs with hr
    · exact .nothing
    · exact .whole _ (by simpa using hr)
  | sendHead contentLength =>
    simp only [act, sendHead]
    split
    · exact .nothing
    · next hr =>
      have hr' : s.conn.responded = false := by simpa using hr
      split_ifs with hh hm hl hk
      · exact .whole _ hr'
      · exact .begun _ _ _ _ hr' fun hc => .inl (by simpa using hc)
      · exact .begun _ _ _ _ hr' fun hc => .inl (by simpa [hl] using hc)
      · exact .begun _ _ _ _ hr' fun hc => .inl (by simpa [hk] using hc)
      · exact .begun _ _ _ _ hr' fun _ => .inr rfl
  | write data =>
    simp only [act, write]
    split_ifs with hs
    · exact .nothing
    · exact .nothing
    · exact .nothing
    · exact .piece _ (by simpa using hs)
  | finish =>
    simp only [act, finish]
    split_ifs with hs
    · exact .nothing
    · refine .finished _ (by simpa using hs) ?_
      rintro (hc | hc) <;> simp [hc]
  | abort =>
    simp only [act, abort]
    split_ifs with hs
    · exact .nothing
    · exact .aborted (by simpa using hs)
  | onBody manualAck =>
    simp only [act, onBody, sendContinue]
    split_ifs with hc
    · simp only [Bool.and_eq_true, Bool.not_eq_true'] at hc
      exact .continued manualAck hc.2 hc.1.2
    · exact .sink manualAck
  | informational code =>
    simp only [act, informational]
    split_ifs with hcode hr
    · exact .nothing
    · exact .nothing
    · exact .hinted (by simpa using hr)
  | flush taken =>
    simp only [act, flushHook, flushOut]
    split_ifs with h1 h2
    · exact .nothing
    · simp only [Bool.and_eq_true] at h2
      exact .shut taken _ h2.1 h2.2
    · simp only [Bool.or_eq_true, not_or] at h1
      exact .sent taken _ (by simpa using h1.2)

theorem Did.acted {s s' : Talk} {a : Act} (h : Did s a s') : Acted s s' := by
  have hor : ∀ b : Bool, s.conn.closeAfterFlush = true → (s.conn.closeAfterFlush || b) = true :=
    fun b h => by rw [h, Bool.true_or]
  cases h with
  | nothing => exact .refl s
  | whole => exact .of_state rfl rfl rfl rfl rfl rfl rfl rfl rfl nofun (hor _) rfl
  | begun => exact .of_state rfl rfl rfl rfl rfl rfl rfl rfl rfl nofun id rfl
  | finished | aborted => exact .of_state rfl rfl rfl rfl rfl rfl rfl rfl rfl id (hor _) rfl
  | piece | sink | continued | hinted | sent =>
    exact .of_state rfl rfl rfl rfl rfl rfl rfl rfl rfl id id rfl
  | shut taken n hf hc =>
    exact ⟨rfl, rfl, rfl, rfl, rfl, rfl, rfl, rfl, rfl, id, id, .inr ⟨rfl, hc⟩⟩

theorem acted_act (s : Talk) (a : Act) : Acted s (s.act a) := (did_act s a).acted

theorem acted_acts (s : Talk) (as : List Act) : Acted s (s.acts as) := by
  induction as generalizing s with
  | nil => exact .refl s
  | cons a as ih => exact (acted_act s a).trans (ih _)

/-! ### The loop -/

/-- An error response; it always announces the close. -/
def respondError (s : Talk) : Talk :=
  { s with conn := s.conn.respondError }.put (.head s.reqSerial true false)

def resetForNextRequest (s : Talk) : Talk :=
  { s with
    conn := s.conn.resetForNextRequest
    respStreaming := false
    respFraming := .rfNone
    respContentLength := none
    respBodyWritten := 0
    sent100 := false
    reqSerial := s.reqSerial + 1
    dispatched := false }

/-- The handler is called; `calls` remembers it. -/
def called (s : Talk) : Talk :=
  { s with dispatched := true, calls := s.calls ++ [s.reqSerial] }

def callHandler (s : Talk) (sc : Script) : Talk := s.called.acts sc.acts

/-- The request's body is streamed to its handler. -/
def streamed (s : Talk) : Talk :=
  { s with conn := { s.conn with reqStreaming := true, bodyFed := 0, bodyUnacked := 0 } }

/-- Dispatch a streaming route's handler at headers-complete. -/
def startStreamingDispatch (route : RequestParser → Bool) (s : Talk) (sc : Script) : Talk :=
  if !route s.conn.parser then s
  else
    let s := s.streamed.callHandler sc
    if sc.raises && !s.conn.responded then s.respondError else s

/-- The body bytes that arrived go to the sink. -/
def fed (s : Talk) (last : Bool) : Talk := { s with conn := s.conn.feedBody last }

/-- Feed the body sink, which acts if it is called. -/
def feedBody (s : Talk) (sc : Script) (last : Bool) : Talk :=
  let fed := s.fed last
  if fed.conn.deliveries.length = s.conn.deliveries.length then fed else fed.acts sc.sink

/-- The end of a round of `processInput` on a complete request. -/
def settle (s : Talk) : Talk :=
  if !s.conn.responded then
    { s with conn := { s.conn with awaitingResponse := true }, dkResponse := true }
  else if s.respStreaming then { s with conn := { s.conn with awaitingResponse := true } }
  else if s.conn.closeAfterFlush then { s with conn := { s.conn with state := .csClosing } }
  else s.resetForNextRequest

/-- `prNeedMore`. -/
def needMore (route : RequestParser → Bool) (s : Talk) (sc : Script) : Talk :=
  if s.conn.parser.inBody then
    let s : Talk := { s with dkResponse := false }
    let s := if !s.conn.reqStreaming && !s.conn.responded then s.startStreamingDispatch route sc
      else s
    if s.conn.reqStreaming then s.feedBody sc false else s.sendContinue
  else { s with dkResponse := s.dkResponse && decide (s.conn.rlen ≤ s.conn.parser.reqStart) }

/-- The buffered handler of a complete request. -/
def callBuffered (s : Talk) (sc : Script) : Talk :=
  let s := s.callHandler sc
  if sc.raises then
    if !s.conn.responded then s.respondError
    else if s.respStreaming then (s.cut.closeAfterFlush true).settle
    else s.settle
  else s.settle

def counted (cfg : LoopSettings) (s : Talk) : Talk := { s with conn := countRequest cfg s.conn }

/-- `prComplete`. -/
def complete (cfg : LoopSettings) (route : RequestParser → Bool) (s : Talk) (sc : Script) : Talk :=
  let s := counted cfg { s with dkResponse := false }
  let s := if !s.conn.reqStreaming then s.startStreamingDispatch route sc else s
  if s.conn.reqStreaming then (s.feedBody sc true).settle else s.callBuffered sc

/-- The loop of `processInput` may take a round. -/
def Takes (s : Talk) : Prop :=
  s.conn.h2 = false ∧ s.conn.awaitingResponse = false ∧ s.conn.state ≠ .csClosing ∧
    s.conn.state ≠ .csFree

instance (s : Talk) : Decidable s.Takes := inferInstanceAs (Decidable (_ ∧ _ ∧ _ ∧ _))

/-- The verdict of the parser on the bytes in use. -/
def verdict (cfg : LoopSettings) (s : Talk) : ParseOutcome :=
  parse cfg.limits (s.conn.rbuf.take s.conn.rlen) ⟨s.conn.parser, s.conn.chunkBody⟩

/-- The parser's state after a verdict. -/
def parsed (s : Talk) (st : ParseState) : Talk := { s with conn := s.conn.withParse st }

/-- What a round does after a verdict. -/
def judged (cfg : LoopSettings) (route : RequestParser → Bool) (s : Talk) (sc : Script)
    (res : ParseResult) (st : ParseState) : Talk :=
  let s := s.parsed st
  match res with
  | .prNeedMore => s.needMore route sc
  | .prError => s.respondError
  | .prComplete => s.complete cfg route sc

/-- Go on after a response that was produced outside the dispatch. -/
def resumeAfterRespond (s : Talk) : Talk :=
  if s.conn.closeAfterFlush then { s with conn := { s.conn with state := .csClosing } }
  else if s.respStreaming then
    let s := s.cut
    { s with conn := { s.conn with state := .csClosing } }
  else s.resetForNextRequest

def closeConn (s : Talk) : Talk := { s with conn := s.conn.closeConn, shut := true }

/-- The end of `handleRead` when the peer has shut its side. -/
def halfClosed (s : Talk) : Talk :=
  if s.peerHalfClosed && decide (s.conn.state = .csActive) && !s.respStreaming then
    if s.conn.awaitingResponse || !s.flushed then s.closeAfterFlush true else s.beginLingerClose
  else s

/-- Tell a connection that no worker holds to finish. -/
def markDrain (s : Talk) (taken : ℕ) : Talk :=
  if s.conn.state ≠ .csActive then s
  else if s.conn.awaitingResponse || !s.flushed then
    let s := { s with conn := { s.conn with parser := { s.conn.parser with keepAlive := false } } }
    (s.closeAfterFlush true).flushOut taken
  else s.closeConn

def drainSweep (s : Talk) : Talk :=
  if decide (s.conn.state = .csActive) && !s.conn.awaitingResponse && s.flushed then s.closeConn
  else s

/-! ### What a round keeps -/

/-- What the flags of a connection and the phase of its parser are, apart from the body bytes. -/
structure SameFlags (c c' : Connection) : Prop where
  state : c'.state = c.state
  closeAfterFlush : c'.closeAfterFlush = c.closeAfterFlush
  responded : c'.responded = c.responded
  awaitingResponse : c'.awaitingResponse = c.awaitingResponse
  phase : c'.parser.phase = c.parser.phase
  keepAlive : c.parser.keepAlive = false → c'.parser.keepAlive = false

theorem feedBody_sameFlags (c : Connection) (last : Bool) : SameFlags c (c.feedBody last) := by
  obtain ⟨_, _, _, _, _, _, _, _, h⟩ := c.feedBody_eq last
  rw [h]
  exact ⟨rfl, rfl, rfl, rfl, rfl, id⟩

theorem countRequest_sameFlags (cfg : LoopSettings) (c : Connection) :
    SameFlags c (countRequest cfg c) := by
  unfold countRequest
  dsimp only
  split_ifs
  · exact ⟨rfl, rfl, rfl, rfl, rfl, fun _ => rfl⟩
  · exact ⟨rfl, rfl, rfl, rfl, rfl, id⟩

/-- `I` is kept by all that a round does before it settles, if handlers only do what `ok` says. -/
structure Kept (ok : Act → Prop) (I : Talk → Prop) : Prop where
  act : ∀ s a, ok a → I s → I (s.act a)
  called : ∀ s, I s → I s.called
  streamed : ∀ s, I s → I s.streamed
  fed : ∀ s last, I s → I (s.fed last)
  sendContinue : ∀ s, I s → I s.sendContinue
  deadline : ∀ (s : Talk) (b : Bool), I s → I { s with dkResponse := b }
  error : ∀ s, s.conn.responded = false → I s → I s.respondError

namespace Kept

variable {cfg : LoopSettings} {ok : Act → Prop} {I J : Talk → Prop} {sc : Script} {s : Talk}
  (route : RequestParser → Bool)

theorem acts (h : Kept ok I) {as : List Act} (has : ∀ a ∈ as, ok a) (hs : I s) : I (s.acts as) := by
  induction as generalizing s with
  | nil => exact hs
  | cons a as ih =>
    exact ih (fun b hb => has b (List.mem_cons_of_mem _ hb))
      (h.act s a (has a List.mem_cons_self) hs)

theorem callHandler (h : Kept ok I) (hsc : ∀ a ∈ sc.acts, ok a) (hs : I s) : I (s.callHandler sc) :=
  h.acts hsc (h.called s hs)

theorem startStreamingDispatch (h : Kept ok I) (hsc : ∀ a ∈ sc.acts, ok a) (hs : I s) :
    I (s.startStreamingDispatch route sc) := by
  unfold Talk.startStreamingDispatch
  have hcall := h.callHandler hsc (h.streamed s hs)
  dsimp only
  split_ifs with hr he
  · exact hs
  · simp only [Bool.and_eq_true, Bool.not_eq_true'] at he
    exact h.error _ he.2 hcall
  · exact hcall

theorem feedBody (h : Kept ok I) (hsc : ∀ a ∈ sc.sink, ok a) (last : Bool) (hs : I s) :
    I (s.feedBody sc last) := by
  unfold Talk.feedBody
  dsimp only
  split_ifs
  · exact h.fed s last hs
  · exact h.acts hsc (h.fed s last hs)

theorem needMore (h : Kept ok I) (hsc : ∀ a ∈ sc.acts ++ sc.sink, ok a) (hs : I s) :
    I (s.needMore route sc) := by
  have hacts : ∀ a ∈ sc.acts, ok a := fun a ha => hsc a (List.mem_append_left _ ha)
  have hsink : ∀ a ∈ sc.sink, ok a := fun a ha => hsc a (List.mem_append_right _ ha)
  have hd := h.deadline s false hs
  have hstart := h.startStreamingDispatch route hacts hd
  unfold Talk.needMore
  dsimp only
  split_ifs
  · exact h.feedBody hsink false hstart
  · exact h.sendContinue _ hstart
  · exact h.feedBody hsink false hd
  · exact h.sendContinue _ hd
  · exact h.deadline s _ hs

theorem complete (h : Kept ok I) (hsc : ∀ a ∈ sc.acts ++ sc.sink, ok a)
    (hsettle : ∀ s, I s → J s.settle) (herror : ∀ s, s.conn.responded = false → I s → J s.respondError)
    (hcut : sc.raises = true → ∀ s, s.respStreaming = true → I s →
      J (s.cut.closeAfterFlush true).settle)
    (hc : I (counted cfg { s with dkResponse := false })) :
    J (s.complete cfg route sc) := by
  have hacts : ∀ a ∈ sc.acts, ok a := fun a ha => hsc a (List.mem_append_left _ ha)
  have hsink : ∀ a ∈ sc.sink, ok a := fun a ha => hsc a (List.mem_append_right _ ha)
  have hstart := h.startStreamingDispatch route hacts hc
  have hbuf : ∀ {s}, I s → J (s.callBuffered sc) := by
    intro s hs
    have hcall := h.callHandler hacts hs
    unfold Talk.callBuffered
    dsimp only
    split_ifs with hr he hst
    · exact herror _ (by simpa using he) hcall
    · exact hcut hr _ hst hcall
    · exact hsettle _ hcall
    · exact hsettle _ hcall
  unfold Talk.complete
  dsimp only
  split_ifs
  · exact hsettle _ (h.feedBody hsink true hstart)
  · exact hbuf hstart
  · exact hsettle _ (h.feedBody hsink true hc)
  · exact hbuf hc

end Kept

/-! ### Runs -/

inductive Action where
  | read (r : Bytes)
  /-- The peer shuts its side. -/
  | fin
  | round (sc : Script)
  /-- A handler acts outside the dispatch, on the loop. -/
  | act (a : Act)
  | kick
  /-- A worker's buffered answer from the outbox. -/
  | answer
  /-- A worker's file message. -/
  | file (as : List Act) (last : Bool)
  | timeout
  | flush (taken : ℕ)
  | halfClosed
  | markDrain (taken : ℕ)
  | drainSweep
  /-- The connection is closed on a failure. -/
  | close

def step (cfg : LoopSettings) (route : RequestParser → Bool) (s : Talk) : Action → Option Talk
  | .read r => if s.conn.state = .csActive then some { s with conn := s.conn.recv r } else none
  | .fin => some { s with peerHalfClosed := true }
  | .round sc =>
      if s.Takes then
        match s.verdict cfg with
        | .error _ => none
        | .ok (res, st) => some (s.judged cfg route sc res st)
      else none
  | .act a => if s.dispatched && decide (s.conn.state ≠ .csFree) then some (s.act a) else none
  | .kick =>
      if s.conn.state ≠ .csDraining ∧ s.conn.state ≠ .csFree ∧ s.conn.awaitingResponse ∧
          s.conn.responded then
        some s.resumeAfterRespond
      else none
  | .answer =>
      if s.dispatched ∧ s.conn.state ≠ .csFree then some s.applyResponse.resumeAfterRespond
      else none
  | .file as last =>
      if s.dispatched ∧ s.conn.state = .csActive then
        let s := s.acts as
        some (if last then s.resumeAfterRespond else s)
      else none
  | .timeout =>
      if s.conn.state ≠ .csFree ∧ s.dkResponse ∧ s.conn.responded = false then
        some s.respondError
      else none
  | .flush taken =>
      if s.conn.state ≠ .csFree ∧ s.shut = false then some (s.flushOut taken) else none
  | .halfClosed => some s.halfClosed
  | .markDrain taken => some (s.markDrain taken)
  | .drainSweep => some s.drainSweep
  | .close => some s.closeConn

/-- The runs of a connection, from its acceptance. -/
def system (cfg : LoopSettings) (route : RequestParser → Bool) : System Talk Action where
  init s := s = {}
  step := step cfg route

end Talk

end Vortex.Http1
