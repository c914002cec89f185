import Vortex.Http2.HeaderFrames
import Vortex.Http2.Run

/-! # One exchange

A connection carries many exchanges of a request and its response; this is the life of a single
one, with the connection around it left out.  An `Exchange` is what a stream knows of its request,
of its response and of the producer that writes it.  `Act` lists what can happen to an open
exchange and `End` how it can end, each with the events it leaves in the journal.

Callbacks that a step causes but that run after it are owed: a stream that is taken out of the
table owes the callbacks stored on it, a response that is finished while bytes of it are queued
owes its drain callback.  They are kept on a stack, and `Run` is the life of an exchange from
before it was opened, as its events and what is owed in the end.

Nothing here mentions windows, queues or other streams: what is proved of `Run` holds of every
stream of a connection, whatever the others do. -/

namespace Vortex.Http2

open FieldRules

/-! ### Exchanges -/

/-- A request, its response and its producer. -/
structure Exchange where
  headersDone : Bool := false
  isWsConnect : Bool := false
  isHead : Bool := false
  reqStreaming : Bool := false
  contentLength : ℤ := -1
  bodyReceived : ℕ := 0
  body : Bytes := []
  endStreamSeen : Bool := false
  dispatched : Bool := false
  onBodyCb : Option ℕ := none
  responded : Bool := false
  respPhase : RespPhase := .rpNone
  respDeclaredLen : ℤ := 0
  respBodyWritten : ℕ := 0
  /-- Response bytes taken in and not yet sent. -/
  unsent : Bytes := []
  pendingIsLast : Bool := false
  respTrailers : Fields := []
  isWs : Bool := false
  onRespDrain : Option ℕ := none
  respBackedUp : Bool := false

/-- The stream an event of an exchange is about. -/
def Event.stream? : Event → Option ℕ
  | .sent (.headers sid _ _ _) | .sent (.continuation sid _ _) | .sent (.data sid _ _) => some sid
  | .fired (.body sid _ _ _) | .fired (.drain sid _) => some sid
  | .answered sid _ _ | .accepted sid _ | .aborted sid => some sid
  | .opened sid | .head sid _ _ | .dispatched sid _ | .removed sid => some sid
  | .sinkSet sid _ | .drainSet sid _ => some sid
  | _ => none

/-- The events of a header block on the stream. -/
def Block (sid : ℕ) (endStream : Bool) (evs : List Event) : Prop :=
  ∃ (maxFrame : MaxFrame) (hb : Bytes), evs = (headerFrames maxFrame sid hb endStream).map .sent

variable {sid : ℕ} {es : Bool} {evs : List Event}

theorem Block.eq (h : Block sid es evs) :
    ∃ frag eh conts, evs = .sent (.headers sid frag es eh) :: conts ∧
      ∀ e ∈ conts, ∃ frag eh, e = .sent (.continuation sid frag eh) := by
  obtain ⟨m, hb, rfl⟩ := h
  obtain ⟨frag, eh, conts, hr, hc⟩ := headerFrames_eq m sid es hb
  refine ⟨frag, eh, conts.map .sent, by rw [hr]; rfl, ?_⟩
  intro e he
  obtain ⟨f, hf, rfl⟩ := List.mem_map.mp he
  obtain ⟨frag, eh, rfl⟩ := hc f hf
  exact ⟨frag, eh, rfl⟩

theorem Block.forall {P : Event → Prop} (h : Block sid es evs)
    (hh : ∀ frag eh, P (.sent (.headers sid frag es eh)))
    (hc : ∀ frag eh, P (.sent (.continuation sid frag eh))) : ∀ e ∈ evs, P e := by
  obtain ⟨frag, eh, conts, rfl, hconts⟩ := h.eq
  intro e he
  rcases List.mem_cons.mp he with rfl | he
  · exact hh frag eh
  · obtain ⟨frag, eh, rfl⟩ := hconts e he
    exact hc frag eh

theorem Block.about (h : Block sid es evs) : ∀ e ∈ evs, e.stream? = some sid :=
  h.forall (fun _ _ => rfl) (fun _ _ => rfl)

/-- DATA frames without END_STREAM. -/
def dataEvents (sid : ℕ) (chunks : List Bytes) : List Event :=
  chunks.map (fun p => .sent (.data sid p false))

namespace Exchange

/-- A declared length is the number of bytes written. -/
def LengthMet (x : Exchange) : Prop :=
  0 ≤ x.respDeclaredLen → (x.respBodyWritten : ℤ) = x.respDeclaredLen

/-- The response is over, or was never to be streamed: no drain callback is taken any more. -/
def ended (x : Exchange) : Bool := !x.isWs && x.responded && x.respPhase != .rpStreaming

/-- A drain callback on this response is marked for the resume scan. -/
def armed (x : Exchange) : Bool :=
  !x.isWs && (x.respPhase == .rpNone || x.respPhase == .rpStreaming)

/-- The end of the response is taken in. -/
def finish (trailers : Fields) (x : Exchange) : Exchange :=
  { x with
    respPhase := .rpFinished
    onRespDrain := none
    pendingIsLast := x.pendingIsLast || !x.isHead
    respTrailers := if !x.isHead && trailers.length > 0 then trailers else x.respTrailers
    respBackedUp := false }

/-- Where the request goes. -/
def route (x : Exchange) : Route :=
  if x.isWsConnect then .tunnel else if x.reqStreaming then .streaming else .buffered

/-- The head of the request is taken. -/
def headed (contentLength : ℤ) (isWs isHead es streaming : Bool) (x : Exchange) : Exchange :=
  { x with
    headersDone := true
    isHead := isHead
    isWsConnect := isWs
    contentLength := contentLength
    endStreamSeen := es || x.endStreamSeen
    reqStreaming := streaming || x.reqStreaming }

/-- The fields were accepted as a request head and declare the length `len`. -/
structure HeadFields (x : Exchange) (fields : Fields) (len : ℤ) : Prop where
  valid : (classifyRequestHead fields).1 ≠ .rhInvalid
  scanned : ∃ scan scan' : HeadScan, scan.contentLength = x.contentLength ∧
    HeadScan.fields scan fields = some scan' ∧ scan'.contentLength = len

/-! ### Steps -/

section Steps

variable (sid : ℕ)

/-- The decision to hand the request over. -/
inductive Decides : Exchange → List Event → Exchange → Prop
  | tunnel {x : Exchange} (hw : x.isWsConnect = true) (hd : x.dispatched = false) :
      Decides x [.dispatched sid x.body.length] { x with dispatched := true }
  | streamed {x : Exchange} (hw : x.isWsConnect = false) (hr : x.reqStreaming = true)
      (hd : x.dispatched = false) (hl : x.endStreamSeen = true → 0 ≤ x.contentLength →
        (x.bodyReceived : ℤ) = x.contentLength) :
      Decides x [.dispatched sid x.body.length] { x with dispatched := true }
  | buffered {x : Exchange} (hw : x.isWsConnect = false) (hr : x.reqStreaming = false)
      (hd : x.dispatched = false) (he : x.endStreamSeen = true)
      (hl : 0 ≤ x.contentLength → (x.body.length : ℤ) = x.contentLength) :
      Decides x [.dispatched sid x.body.length] { x with dispatched := true }
  | wait {x : Exchange} (h : x.dispatched = true ∨ x.isWsConnect = false ∧ x.reqStreaming = false ∧
        x.endStreamSeen = false) : Decides x [] x

/-- The body of a streaming request is complete: with a DATA frame, or with its trailers. -/
inductive EndsBody : Exchange → Exchange → Prop
  | data {x : Exchange} (hh : x.headersDone = true) (he : x.endStreamSeen = false)
      (hw : x.isWs = false) (hr : x.reqStreaming = true) (data : Bytes)
      (hl : 0 ≤ x.contentLength → ((x.bodyReceived + data.length : ℕ) : ℤ) = x.contentLength) :
      EndsBody x { x with
        bodyReceived := x.bodyReceived + data.length, body := x.body ++ data
        endStreamSeen := true }
  | trailers {x : Exchange} (hh : x.headersDone = true) (he : x.endStreamSeen = false)
      (hr : x.reqStreaming = true)
      (hl : 0 ≤ x.contentLength → (x.bodyReceived : ℤ) = x.contentLength) :
      EndsBody x { x with endStreamSeen := true }

/-- What can happen to an open exchange; `reg` says which registrations are permitted. -/
inductive Act (reg : Call → Exchange → Prop) : Exchange → List Event → Exchange → Prop
  | informational {x : Exchange} {evs : List Event} (hr : x.responded = false)
      (hb : Block sid false evs) : Act reg x evs x
  | sendHead {x : Exchange} {evs : List Event} (hr : x.responded = false) (hh : x.isHead = false)
      (len : Declared) (hb : Block sid false evs) : Act reg x (.answered sid len false :: evs)
        { x with
          responded := true, respPhase := .rpStreaming, respDeclaredLen := len.length
          respBodyWritten := 0 }
  | write {x : Exchange} {data rest : Bytes} {chunks : List Bytes} (hp : x.respPhase = .rpStreaming)
      (hh : x.isHead = false) (hd : data ≠ []) (hc : chunks.flatten ++ rest = x.unsent ++ data)
      (hq : x.unsent ≠ [] → chunks = []) :
      Act reg x (.accepted sid data :: dataEvents sid chunks)
        { x with respBodyWritten := x.respBodyWritten + data.length, unsent := rest }
  | respond {x : Exchange} {evs : List Event} {body : Bytes} (hr : x.responded = false)
      (hh : x.isHead = false) (hd : body ≠ []) (fields : Fields) (hb : Block sid false evs) :
      Act reg x (.answered sid ⟨body.length, fields⟩ false :: evs ++ [.accepted sid body])
        { x with responded := true, unsent := body, pendingIsLast := true }
  | chunk {x : Exchange} {p rest : Bytes} (hp : p ≠ []) (hc : p ++ rest = x.unsent)
      (hl : ¬ (x.isWs = false ∧ x.pendingIsLast = true ∧ x.respTrailers = [] ∧ rest = [])) :
      Act reg x [.sent (.data sid p false)] { x with unsent := rest }
  | wsAccept {x : Exchange} {evs : List Event} (hw : x.isWsConnect = true)
      (hr : x.responded = false) (hn : x.isWs = false) (hb : Block sid false evs) :
      Act reg x evs { x with responded := true, isWs := true, body := [] }
  | wsOutput {x : Exchange} (hw : x.isWs = true) (data : Bytes) :
      Act reg x [.accepted sid data]
        { x with unsent := x.unsent ++ data, pendingIsLast := false }
  | wsEnd {x : Exchange} (hw : x.isWs = true) (hb : x.unsent = []) :
      Act reg x [.sent (.data sid [] true)] x
  | takeDrain {x : Exchange} {cb : ℕ} (hb : x.respBackedUp = true) (hc : x.onRespDrain = some cb) :
      Act reg x [.fired (.drain sid cb)] { x with onRespDrain := none, respBackedUp := false }
  | mark {x : Exchange} (hp : x.respPhase = .rpStreaming) :
      Act reg x [] { x with respBackedUp := true }
  | register {x : Exchange} {cb : ℕ} (hk : reg (.onDrain sid cb) x) (hr : x.ended = false) :
      Act reg x [.drainSet sid cb]
        { x with onRespDrain := some cb, respBackedUp := x.armed || x.respBackedUp }
  | head {x x' : Exchange} {evs : List Event} {fields : Fields} {len : ℤ}
      (hh : x.headersDone = false) (hf : HeadFields x fields len)
      (isWs isHead es streaming : Bool) (hs : streaming = true → isWs = false)
      (hd : Decides sid (x.headed len isWs isHead es streaming) evs x') :
      Act reg x (.head sid fields (x.headed len isWs isHead es streaming).route :: evs) x'
  | trailers {x x' : Exchange} {evs : List Event} (hh : x.headersDone = true)
      (hn : (x.reqStreaming && x.dispatched) = false)
      (hd : Decides sid { x with endStreamSeen := true } evs x') : Act reg x evs x'
  | streamed {x : Exchange} (hh : x.headersDone = true) (he : x.endStreamSeen = false)
      (hw : x.isWs = false) (hr : x.reqStreaming = true) (data : Bytes)
      (hl : 0 ≤ x.contentLength → ((x.bodyReceived + data.length : ℕ) : ℤ) ≤ x.contentLength) :
      Act reg x [] { x with
        bodyReceived := x.bodyReceived + data.length, body := x.body ++ data }
  | bodyEnd {x x' : Exchange} (h : EndsBody x x') : Act reg x [] x'
  | told {x x' : Exchange} {cb : ℕ} (h : EndsBody x x') (hcb : x'.onBodyCb = some cb) :
      Act reg x [.fired (.body sid cb x'.body true)] { x' with body := [] }
  | buffered {x : Exchange} (hh : x.headersDone = true) (he : x.endStreamSeen = false)
      (hw : x.isWs = false) (hr : x.reqStreaming = false) (hc : x.isWsConnect = false)
      (data : Bytes) : Act reg x [] { x with body := x.body ++ data }
  | bufferedEnd {x : Exchange} (hh : x.headersDone = true) (he : x.endStreamSeen = false)
      (hw : x.isWs = false) (hr : x.reqStreaming = false) (hc : x.isWsConnect = false)
      (hd : x.dispatched = false) (data : Bytes)
      (hl : 0 ≤ x.contentLength → ((x.body ++ data).length : ℤ) = x.contentLength) :
      Act reg x [.dispatched sid (x.body ++ data).length]
        { x with body := x.body ++ data, endStreamSeen := true, dispatched := true }
  | bufferedLate {x : Exchange} (hh : x.headersDone = true) (he : x.endStreamSeen = false)
      (hw : x.isWs = false) (hr : x.reqStreaming = false) (hc : x.isWsConnect = false)
      (hd : x.dispatched = true) (data : Bytes) :
      Act reg x [] { x with body := x.body ++ data, endStreamSeen := true }
  | tunnelData {x : Exchange} (hh : x.headersDone = true) (he : x.endStreamSeen = false)
      (hw : x.isWs = false) (hc : x.isWsConnect = true) (data : Bytes) (es : Bool) :
      Act reg x [] { x with body := x.body ++ data, endStreamSeen := es || x.endStreamSeen }
  | sinkSet {x : Exchange} {cb : ℕ} {manualAck : Bool} (hk : reg (.onBody sid cb manualAck) x) :
      Act reg x [.sinkSet sid cb] { x with onBodyCb := some cb }
  | sinkTold {x : Exchange} {cb : ℕ} {manualAck : Bool} (hk : reg (.onBody sid cb manualAck) x)
      (he : x.endStreamSeen = true) :
      Act reg x [.sinkSet sid cb, .fired (.body sid cb x.body true)]
        { x with onBodyCb := some cb, body := [] }
  | deliver {x : Exchange} {cb : ℕ} (hcb : x.onBodyCb = some cb) (hb : x.body ≠ []) :
      Act reg x [.fired (.body sid cb x.body false)] { x with body := [] }

/-- The end of a streamed response is taken in and stays on the stream: bytes are queued, or the
response has no body. -/
inductive Finish : Exchange → Exchange → Prop
  | queue {x : Exchange} (hp : x.respPhase = .rpStreaming) (hh : x.isHead = false)
      (hl : x.LengthMet) (trailers : Fields) (hb : x.unsent ≠ []) : Finish x (x.finish trailers)
  | head {x : Exchange} (hp : x.respPhase = .rpStreaming) (hh : x.isHead = true)
      (trailers : Fields) : Finish x (x.finish trailers)

/-- What is sent last on a stream that is taken out of the table. -/
inductive End : Exchange → List Event → Prop
  | plain (x : Exchange) : End x []
  | head {x : Exchange} {fields : Fields} {len : ℤ} (hh : x.headersDone = false)
      (hf : HeadFields x fields len) (route : Route) : End x [.head sid fields route]
  | answer {x : Exchange} {evs : List Event} (hr : x.responded = false) (len : Declared)
      (hl : x.isHead = true ∨ len.length = -1 ∨ len.length = 0) (hb : Block sid true evs) :
      End x (.answered sid len x.isHead :: evs)
  | abort {x : Exchange} (hp : x.respPhase = .rpStreaming) : End x [.aborted sid]
  | finishBare {x : Exchange} (hp : x.respPhase = .rpStreaming) (hh : x.isHead = false)
      (hl : x.LengthMet) (hb : x.unsent = []) : End x [.sent (.data sid [] true)]
  | finishTrailers {x : Exchange} {evs : List Event} (hp : x.respPhase = .rpStreaming)
      (hh : x.isHead = false) (hl : x.LengthMet) (hb : x.unsent = []) (h : Block sid true evs) :
      End x evs
  | chunk {x : Exchange} (hw : x.isWs = false) (hl : x.pendingIsLast = true)
      (ht : x.respTrailers = []) (hb : x.unsent ≠ []) : End x [.sent (.data sid x.unsent true)]
  | bare {x : Exchange} (hw : x.isWs = false) (hl : x.pendingIsLast = true) (hb : x.unsent = []) :
      End x [.sent (.data sid [] true)]
  | trailers {x : Exchange} {evs : List Event} (hw : x.isWs = false) (hl : x.pendingIsLast = true)
      (hb : x.unsent = []) (h : Block sid true evs) : End x evs

/-- The callbacks of an exchange whose stream is taken out of the table, in their order. -/
def debts (x : Exchange) : List Callback :=
  (if x.isWs then [.wsClosed sid] else []) ++
    (x.onBodyCb.map (fun cb => Callback.body sid cb [] true)).toList ++
    (x.onRespDrain.map (fun cb => Callback.drain sid cb)).toList

/-- The drain callback of a response that is finished. -/
def drainDebt (x : Exchange) : List Callback :=
  (x.onRespDrain.map (fun cb => Callback.drain sid cb)).toList

end Steps

/-! ### Lives -/

/-- Where an exchange stands. -/
inductive Life where
  | idle
  | live (x : Exchange)
  | gone

/-- A life, and the callbacks owed on it, the next one first. -/
structure State where
  life : Life
  owed : List Callback

/-- The life of an exchange: what happened, and where it stands.  While the connection closes
(`cl`) a drain callback may be dropped instead of run, and a WebSocket is taken off its stream. -/
inductive Run (reg : Call → Exchange → Prop) (cl : Bool) (sid : ℕ) :
    State → List Event → State → Prop
  | refl (s : State) : Run reg cl sid s [] s
  | skip {s : State} {es : List Event} {ds : List Callback} (h : Run reg cl sid s es ⟨.idle, ds⟩) :
      Run reg cl sid s es ⟨.gone, ds⟩
  | opened {s : State} {es : List Event} {ds : List Callback} (h : Run reg cl sid s es ⟨.idle, ds⟩) :
      Run reg cl sid s (es ++ [.opened sid]) ⟨.live {}, ds⟩
  | act {s : State} {es evs : List Event} {ds : List Callback} {x x' : Exchange}
      (h : Run reg cl sid s es ⟨.live x, ds⟩) (ha : Act sid reg x evs x') :
      Run reg cl sid s (es ++ evs) ⟨.live x', ds⟩
  | finish {s : State} {es : List Event} {ds : List Callback} {x x' : Exchange}
      (h : Run reg cl sid s es ⟨.live x, ds⟩) (ha : Finish x x') :
      Run reg cl sid s es ⟨.live x', x.drainDebt sid ++ ds⟩
  | ended {s : State} {es evs : List Event} {ds : List Callback} {x : Exchange}
      (h : Run reg cl sid s es ⟨.live x, ds⟩) (ha : End sid x evs) :
      Run reg cl sid s (es ++ (evs ++ [.removed sid])) ⟨.gone, x.debts sid ++ ds⟩
  | dropped {s : State} {es : List Event} {ds : List Callback} {x : Exchange}
      (h : Run reg cl sid s es ⟨.live x, ds⟩) (hw : x.isWs = true) :
      Run reg cl sid s (es ++ [.removed sid]) ⟨.gone, ds⟩
  | fired {s : State} {es : List Event} {l : Life} {cb : Callback} {ds : List Callback}
      (h : Run reg cl sid s es ⟨l, cb :: ds⟩) :
      Run reg cl sid s (es ++ [Event.fired cb].filter (fun e => e.stream? = some sid)) ⟨l, ds⟩
  | forgotten {s : State} {es : List Event} {l : Life} {cb : ℕ} {ds : List Callback}
      (h : Run reg cl sid s es ⟨l, .drain sid cb :: ds⟩) (hc : cl = true) :
      Run reg cl sid s es ⟨l, ds⟩
  | wsTaken {s : State} {es : List Event} {ds : List Callback} {x : Exchange}
      (h : Run reg cl sid s es ⟨.live x, ds⟩) (hc : cl = true) :
      Run reg cl sid s es ⟨.live { x with isWs := false }, ds⟩

variable {reg : Call → Exchange → Prop} {cl : Bool} {sid : ℕ} {s t u : State} {es fs : List Event}

theorem Run.trans (h1 : Run reg cl sid s es t) (h2 : Run reg cl sid t fs u) :
    Run reg cl sid s (es ++ fs) u := by
  induction h2 with
  | refl => simpa using h1
  | skip _ ih => exact .skip ih
  | opened _ ih =>
    rw [← List.append_assoc]
    exact .opened ih
  | act _ ha ih =>
    rw [← List.append_assoc]
    exact .act ih ha
  | finish _ ha ih => exact .finish ih ha
  | ended _ ha ih =>
    rw [← List.append_assoc]
    exact .ended ih ha
  | dropped _ hw ih =>
    rw [← List.append_assoc]
    exact .dropped ih hw
  | fired _ ih =>
    rw [← List.append_assoc]
    exact .fired ih
  | forgotten _ hc ih => exact .forgotten ih hc
  | wsTaken _ hc ih => exact .wsTaken ih hc

end Exchange

end Vortex.Http2
