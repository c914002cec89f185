import Mathlib.Data.List.Perm.Lattice
import Mathlib.Data.List.Count
import Mathlib.Logic.Function.Basic
import Mathlib.Tactic.Common
import Vortex.System

/-! # Work handed to the worker pool

A loop hands work to the pool with `dispatchBlocking`, `dispatchNextRead`,
`dispatchBlockingResult` and `dispatchWsBlocking` (`request.nim`).  Each takes a pin on the carrier
of the request, a connection or an HTTP/3 slot, before the task is queued, so that the carrier is
not freed while the worker may still read it.  The worker's trampoline pushes the answer to the
loop's outbox, and exactly one of the messages of a task names the pin to release.
`processOutbox` (`eventloop.nim`) applies the messages in batches.  `closeConn` and `h3FreeSlot`
defer while a pin is held, and run the callbacks of the application when they do free.

Code of the application runs on the loop thread inside an operation: a completion callback,
a handler resumed by the release of a pin, the callbacks of a teardown.  What it does is an `Op`,
which may close a further connection and so run further callbacks.

The state keeps a few lists that the program does not have: the awaited calls with their carriers
at the call, the messages that were lost because the application of an earlier one raised, and
what became of the other messages. -/

namespace Vortex.Dispatch

/-! ### Pins -/

/-- Why an outstanding task pins a carrier. -/
inductive PinKind where
  | blocking | await | fileChunk | wsBlocking
deriving DecidableEq, Repr

/-- The counters of one carrier. -/
abbrev PinSet := PinKind → ℕ

namespace PinSet

def total (ps : PinSet) : ℕ := ps .blocking + ps .await + ps .fileChunk + ps .wsBlocking

def inc (ps : PinSet) (k : PinKind) : PinSet := Function.update ps k (ps k + 1)

def dec (ps : PinSet) (k : PinKind) : PinSet := Function.update ps k (ps k - 1)

theorem total_eq_zero {ps : PinSet} : ps.total = 0 ↔ ∀ k, ps k = 0 := by
  constructor
  · intro h k
    unfold total at h
    cases k <;> omega
  · intro h
    simp [total, h]

theorem dec_inc (ps : PinSet) (k : PinKind) : (ps.inc k).dec k = ps := by
  unfold inc dec
  simp

end PinSet

/-- A connection, by its descriptor, or an HTTP/3 slot, by its index. -/
inductive Endpoint where
  | conn (fd : ℕ)
  | slot (idx : ℕ)
deriving DecidableEq, Repr

def Endpoint.isConn : Endpoint → Bool
  | conn _ => true
  | slot _ => false

/-- What `Connection` and `H3SlotEntry` have in common. -/
structure Carrier where
  gen : ℕ := 0
  /-- The connection's state is not `csFree`; the slot's `conn` is not nil. -/
  live : Bool := false
  /-- `closeRequested` of a connection, `closeReq` of a slot. -/
  closing : Bool := false
  /-- The serial of the current request of an HTTP/1 connection. -/
  reqSerial : ℕ := 0
  pins : PinSet := fun _ => 0

/-- The words of a `Request`, a `Response` or a `WebSocket`. -/
structure Handle where
  dest : Endpoint
  gen : ℕ
  /-- 0 on HTTP/1. -/
  stream : ℕ := 0
  serial : ℕ := 0
deriving DecidableEq, Repr

/-- A pin of an occupant of a carrier. -/
structure Hold where
  dest : Endpoint
  gen : ℕ
  kind : PinKind
deriving DecidableEq, Repr

def Handle.hold (h : Handle) (k : PinKind) : Hold := ⟨h.dest, h.gen, k⟩

/-! ### Tasks and messages -/

/-- The work of a task, with the buffer of a file read and the box of an awaited call. -/
inductive Job where
  | blocking
  | fileChunk (buf : ℕ)
  | await (box : ℕ)
  | wsBlocking
deriving DecidableEq, Repr

structure Task where
  id : ℕ
  handle : Handle
  job : Job
deriving DecidableEq, Repr

/-- A `ws.blocking` task pins the connection on HTTP/1 and only its stream otherwise. -/
def wsPin (h : Handle) : Option PinKind :=
  if h.dest.isConn && h.stream == 0 then some .wsBlocking else none

/-- The pin a task holds. -/
def Task.pin (t : Task) : Option PinKind :=
  match t.job with
  | .blocking => some .blocking
  | .fileChunk _ => some .fileChunk
  | .await _ => some .await
  | .wsBlocking => wsPin t.handle

def Task.hold (t : Task) : Option Hold := t.pin.map t.handle.hold

def Task.box (t : Task) : Option ℕ :=
  match t.job with
  | .await b => some b
  | _ => none

/-- `Response.relKind` of a handle that answers a request. -/
inductive RelKind where
  | none | blocking | fileChunk
deriving DecidableEq, Repr

def RelKind.pin : RelKind → Option PinKind
  | none => Option.none
  | blocking => some .blocking
  | fileChunk => some .fileChunk

inductive OutMsgKind where
  | http (rel : RelKind)
  | ws
  | wsClose
  | wsDone
  | fileStart
  | fileChunk (buf : ℕ)
  | blockingDone (box : ℕ)
deriving DecidableEq, Repr

/-- A message of the outbox, without the payload. -/
structure OutMsg where
  kind : OutMsgKind
  handle : Handle
deriving DecidableEq, Repr

/-- `OutMsg.release`, as the trampolines stamp it. -/
def OutMsg.release (m : OutMsg) : Option PinKind :=
  match m.kind with
  | .http rel => rel.pin
  | .ws | .wsClose => none
  | .wsDone => wsPin m.handle
  | .fileStart => some .blocking
  | .fileChunk _ => some .fileChunk
  | .blockingDone _ => some .await

def OutMsg.hold (m : OutMsg) : Option Hold := m.release.map m.handle.hold

def OutMsg.box (m : OutMsg) : Option ℕ :=
  match m.kind with
  | .blockingDone b => some b
  | _ => none

def OutMsg.buffer (m : OutMsg) : Option ℕ :=
  match m.kind with
  | .fileChunk buf => some buf
  | _ => none

/-! ### What a worker does with a task -/

/-- The handle through which a body answers: the one it was given, another handle of the same
request, which releases nothing, or a handle of another request. -/
inductive Via where
  | own
  | twin
  | other (h : Handle)
deriving DecidableEq, Repr

/-- What the body of a task does. -/
inductive Body where
  /-- It answers through these handles, and then returns or raises. -/
  | answers (via : List Via) (raises : Bool)
  /-- It hands back a file head or a file chunk, and then returns or raises. -/
  | file (raises : Bool)
deriving DecidableEq, Repr

/-- The messages a task has pushed and `workerTaskAnswered`. -/
structure Latch where
  pushed : List OutMsg := []
  answered : Bool := false

/-- `sendRaw` off the loop: only the first answer to the task's own request is pushed. -/
def sendRaw (h : Handle) (rel : RelKind) : Via → Latch → Latch
  | .own, l =>
      if l.answered then l else ⟨l.pushed ++ [⟨.http rel, h⟩], true⟩
  | .twin, l =>
      if l.answered then l else ⟨l.pushed ++ [⟨.http .none, h⟩], true⟩
  | .other h', l => { l with pushed := l.pushed ++ [⟨.http .none, h'⟩] }

def sendAll (h : Handle) (rel : RelKind) (via : List Via) (l : Latch) : Latch :=
  via.foldl (fun l v => sendRaw h rel v l) l

/-- The body as `runWorkerBody` runs it; `file` is the message of a file answer. -/
def runBody (h : Handle) (rel : RelKind) (file : OutMsgKind) : Body → Latch
  | .answers via raises =>
      let l := sendAll h rel via {}
      if raises then sendRaw h rel .own l else l
  | .file raises =>
      let l : Latch := ⟨[⟨file, h⟩], true⟩
      if raises then sendRaw h rel .own l else l

/-- `runWorkerBody`: a body that answered nothing gets a default answer. -/
def runWorkerBody (h : Handle) (rel : RelKind) (file : OutMsgKind) (b : Body) : List OutMsg :=
  let l := runBody h rel file b
  (if l.answered then l else sendRaw h rel .own l).pushed

/-- The trampolines: what a task has pushed when it ends. -/
def trampoline (t : Task) (b : Body) : List OutMsg :=
  match t.job with
  | .blocking => runWorkerBody t.handle .blocking .fileStart b
  | .fileChunk buf => runWorkerBody t.handle .fileChunk (.fileChunk buf) b
  | .await box =>
      (match b with
        | .answers via _ => (sendAll t.handle .none via {}).pushed
        | .file _ => []) ++ [⟨.blockingDone box, t.handle⟩]
  | .wsBlocking =>
      (match b with
        | .answers via _ => via.map fun _ => ⟨.ws, t.handle⟩
        | .file _ => []) ++ [⟨.wsDone, t.handle⟩]

/-! ### The state of a loop -/

/-- The buffers of file reads: those on the free list and the next to be allocated. -/
structure ChunkPool where
  free : List ℕ := []
  next : ℕ := 0

def chunkPoolMaxFree : ℕ := 16

def ChunkPool.chunkTake (p : ChunkPool) : ℕ × ChunkPool :=
  match p.free with
  | buf :: rest => (buf, { p with free := rest })
  | [] => (p.next, { p with next := p.next + 1 })

def ChunkPool.chunkReturn (p : ChunkPool) (buf : ℕ) : ChunkPool :=
  if p.free.length < chunkPoolMaxFree then { p with free := buf :: p.free } else p

/-- What becomes of a message: it is written to its carrier, or dropped. -/
inductive Effect where
  | applied (m : OutMsg)
  | dropped (m : OutMsg)
deriving DecidableEq, Repr

/-- A call of `dispatchBlockingResult`: its box, the handle of its request, the carrier as it is at
the call, and whether there is a pool. -/
structure AwaitedCall where
  box : ℕ
  handle : Handle
  carrier : Carrier
  pool : Bool

/-- There is no pool, or the carrier is the one of the request and, if it is a connection, open and
still on that request. -/
def AwaitedCall.served (c : AwaitedCall) : Bool :=
  !c.pool || c.carrier.gen == c.handle.gen &&
    match c.handle.dest with
    | .slot _ => true
    | .conn _ => c.carrier.live && (c.handle.stream != 0 || c.carrier.reqSerial == c.handle.serial) &&
        !c.carrier.closing

structure State where
  carriers : Endpoint → Carrier := fun _ => {}
  /-- The tasks the pool has accepted and not finished. -/
  running : List Task := []
  nextTask : ℕ := 0
  outbox : List OutMsg := []
  pendingBlockingResults : ℕ := 0
  /-- The boxes held by a `GC_ref`. -/
  boxes : List ℕ := []
  nextBox : ℕ := 0
  chunkPool : ChunkPool := {}
  /-- A `doAssert` has failed. -/
  faulted : Bool := false
  /-- The boxes whose `onDone` has been invoked. -/
  done : List ℕ := []
  calls : List AwaitedCall := []
  /-- The messages of a batch behind one whose application raised. -/
  abandoned : List OutMsg := []
  /-- The messages whose own completion callback raised. -/
  halfApplied : List OutMsg := []
  log : List Effect := []

namespace State

def modify (e : Endpoint) (f : Carrier → Carrier) (s : State) : State :=
  { s with carriers := Function.update s.carriers e (f (s.carriers e)) }

/-- `acquirePin`. -/
def acquirePin (e : Endpoint) (k : PinKind) (s : State) : State :=
  s.modify e fun c => { c with pins := c.pins.inc k }

/-- `releasePin` of `connection.nim`; the assertion fails on a counter at zero. -/
def releasePin (e : Endpoint) (k : PinKind) (s : State) : State :=
  if 0 < (s.carriers e).pins k then s.modify e fun c => { c with pins := c.pins.dec k }
  else { s with faulted := true }

def push (ms : List OutMsg) (s : State) : State := { s with outbox := s.outbox ++ ms }

def enqueue (h : Handle) (job : Job) (s : State) : State :=
  { s with running := s.running ++ [⟨s.nextTask, h, job⟩], nextTask := s.nextTask + 1 }

def record (es : List Effect) (s : State) : State := { s with log := s.log ++ es }

def chunkReturn (buf : ℕ) (s : State) : State :=
  { s with chunkPool := s.chunkPool.chunkReturn buf }

/-- The awaited call that can be made through a handle now. -/
def awaitedCall (pool : Bool) (h : Handle) (s : State) : AwaitedCall :=
  ⟨s.nextBox, h, s.carriers h.dest, pool⟩

def noteCall (c : AwaitedCall) (s : State) : State := { s with calls := c :: s.calls }

/-- A new box, `GC_ref`, and one more pending result. -/
def newBox (s : State) : State :=
  { s with nextBox := s.nextBox + 1, boxes := s.nextBox :: s.boxes
           pendingBlockingResults := s.pendingBlockingResults + 1 }

/-- `onDone`. -/
def complete (b : ℕ) (s : State) : State := { s with done := b :: s.done }

/-- `GC_unref` and one pending result less. -/
def settle (b : ℕ) (s : State) : State :=
  { s with boxes := s.boxes.erase b, pendingBlockingResults := s.pendingBlockingResults - 1 }

end State

/-! ### Dispatching -/

/-- The connection a handle resolves to is still its own; `conn` of `connection.nim`. -/
def connAlive (h : Handle) (s : State) : Bool :=
  (s.carriers h.dest).gen == h.gen && (s.carriers h.dest).live

/-- `acquireDispatchPin`: the pin, or `none` if the carrier is gone.  A slot is only asked for its
generation. -/
def acquireDispatchPin (h : Handle) (k : PinKind) (s : State) : Option State :=
  match h.dest with
  | .slot _ =>
      if (s.carriers h.dest).gen == h.gen then some (s.acquirePin h.dest k) else none
  | .conn _ =>
      if connAlive h s && (h.stream != 0 || (s.carriers h.dest).reqSerial == h.serial) &&
          !(s.carriers h.dest).closing then
        some (s.acquirePin h.dest k)
      else none

/-- `undoPin`: the pool refused. -/
def undoPin (h : Handle) (k : PinKind) (s : State) : State :=
  match h.dest with
  | .slot _ => if (s.carriers h.dest).gen == h.gen then s.releasePin h.dest k else s
  | .conn _ => if connAlive h s then s.releasePin h.dest k else s

inductive Outcome where
  | dead | refused | accepted
deriving DecidableEq, Repr

/-- Take the pin and queue the task; `full` is the answer of `tryEnqueue`. -/
def tryDispatch (h : Handle) (k : PinKind) (job : Job) (full : Bool) (s : State) :
    Outcome × State :=
  match acquireDispatchPin h k s with
  | none => (.dead, s)
  | some s₁ => if full then (.refused, undoPin h k s₁) else (.accepted, s₁.enqueue h job)

inductive Call where
  /-- `dispatchBlocking`, and `dispatchBlockingData` for the first read of a file. -/
  | blocking
  /-- `dispatchNextRead`. -/
  | nextRead
  /-- `dispatchBlockingResult`. -/
  | await
  /-- `dispatchWsBlocking`; on HTTP/2 and HTTP/3 the stream's WebSocket may be gone. -/
  | wsBlocking (gone : Bool)
deriving DecidableEq, Repr

/-- A call of the dispatch API, with what the pool answers and, where there is no pool, what the
body does. -/
structure Request where
  handle : Handle
  call : Call
  full : Bool := false
  inline : Body := .answers [] false
deriving DecidableEq, Repr

/-- Without a pool a body runs on the loop thread, where only a file answer goes through the
outbox. -/
def inlineMessages (h : Handle) (file : OutMsgKind) : Body → List OutMsg
  | .answers _ _ => []
  | .file _ => [⟨file, h⟩]

def dispatchBlocking (pool : Bool) (r : Request) (s : State) : State :=
  if pool then (tryDispatch r.handle .blocking .blocking r.full s).2
  else s.push (inlineMessages r.handle .fileStart r.inline)

def dispatchNextRead (pool : Bool) (r : Request) (s : State) : State :=
  let buf := s.chunkPool.chunkTake.1
  let s₁ := { s with chunkPool := s.chunkPool.chunkTake.2 }
  if pool then
    match tryDispatch r.handle .fileChunk (.fileChunk buf) r.full s₁ with
    | (.accepted, s₂) => s₂
    | (_, s₂) => s₂.chunkReturn buf
  else s₁.push (inlineMessages r.handle (.fileChunk buf) r.inline)

def dispatchBlockingResult (pool : Bool) (r : Request) (s : State) : State :=
  let b := s.nextBox
  let s₁ := s.newBox
  if pool then
    match tryDispatch r.handle .await (.await b) r.full s₁ with
    | (.dead, s₂) => s₂.settle b
    | (.refused, s₂) => (s₂.complete b).settle b
    | (.accepted, s₂) => s₂
  else s₁.push [⟨.blockingDone b, r.handle⟩]

/-- `enqueue` never refuses, and only an HTTP/1 connection is pinned. -/
def dispatchWsBlocking (pool gone : Bool) (r : Request) (s : State) : State :=
  if pool then
    match wsPin r.handle with
    | some k =>
        if connAlive r.handle s && !(s.carriers r.handle.dest).closing then
          (s.acquirePin r.handle.dest k).enqueue r.handle .wsBlocking
        else s
    | none => if gone then s else s.enqueue r.handle .wsBlocking
  else s

/-- Handles are made for the occupants a carrier has had. -/
def minted (h : Handle) (s : State) : Bool :=
  decide (h.gen < (s.carriers h.dest).gen) ||
    (h.gen == (s.carriers h.dest).gen && (s.carriers h.dest).live)

def dispatch (pool : Bool) (r : Request) (s : State) : State :=
  if minted r.handle s then
    match r.call with
    | .blocking => dispatchBlocking pool r s
    | .nextRead => dispatchNextRead pool r s
    | .await => (dispatchBlockingResult pool r s).noteCall (s.awaitedCall pool r.handle)
    | .wsBlocking gone => dispatchWsBlocking pool gone r s
  else s

/-! ### Closing -/

/-- What code of the application does on the loop thread.  The operations in `close` are those of
the callbacks that the teardown runs. -/
inductive Op where
  | dispatch (r : Request)
  /-- The QUIC stack reports that the peer has closed the connection of a slot. -/
  | condemn (idx : ℕ)
  | close (e : Endpoint) (callbacks : List Op)

/-- The carrier is given free: its handles are stale from here on. -/
def Carrier.free (c : Carrier) : Carrier :=
  { c with gen := c.gen + 1, live := false, closing := false }

/-- The end of `closeConn`, with its assertion. -/
def freeConn (e : Endpoint) (s : State) : State :=
  if (s.carriers e).pins.total = 0 then s.modify e Carrier.free
  else { s with faulted := true }

mutual

/-- `closeConn` and `h3FreeSlot` are the cases of `close`. -/
def runOp (pool : Bool) : Op → State → State
  | .dispatch r, s => dispatch pool r s
  | .condemn idx, s => s.modify (.slot idx) fun c => { c with closing := true }
  | .close (.conn fd) callbacks, s =>
      if (s.carriers (.conn fd)).live then
        if 0 < (s.carriers (.conn fd)).pins.total then
          s.modify (.conn fd) fun c => { c with closing := true }
        else
          freeConn (.conn fd)
            (runOps pool callbacks (s.modify (.conn fd) fun c => { c with closing := true }))
      else s
  | .close (.slot idx) callbacks, s =>
      if 0 < (s.carriers (.slot idx)).pins.total then
        s.modify (.slot idx) fun c => { c with closing := true }
      else (runOps pool callbacks s).modify (.slot idx) Carrier.free

def runOps (pool : Bool) : List Op → State → State
  | [], s => s
  | o :: rest, s => runOps pool rest (runOp pool o s)

end

/-! ### The outbox -/

/-- Code of the application that runs inside an operation of the loop. -/
structure Script where
  ops : List Op := []
  raises : Bool := false

/-- The code that runs while a message is applied. -/
structure Turn where
  /-- The completion callback of an awaited call. -/
  onDone : Script := {}
  /-- A resumed handler, and the callbacks of the answer that is written. -/
  hook : Script := {}
  /-- The callbacks of a close that was deferred until now. -/
  teardown : List Op := []

/-- `staleConn` and `staleH3`. -/
def stale (m : OutMsg) (s : State) : Bool :=
  (s.carriers m.handle.dest).gen != m.handle.gen || !(s.carriers m.handle.dest).live

/-- Release the pin, unless there is no pool. -/
def unpin (pool : Bool) (h : Hold) (s : State) : State :=
  if pool then s.releasePin h.dest h.kind else s

/-- What follows the release of a pin: a deferred close, or the hook. -/
def afterRelease (pool : Bool) (e : Endpoint) (t : Turn) (s : State) : State × Bool :=
  if s.faulted then (s, true)
  else if (s.carriers e).closing then
    if e.isConn || (s.carriers e).pins.total = 0 then
      let s' := runOp pool (.close e t.teardown) s
      (s', s'.faulted)
    else (s, false)
  else
    let s' := runOps pool t.hook.ops s
    (s', s'.faulted || t.hook.raises)

/-- `applyOutboxConn` and `applyOutboxH3`. -/
def applyAnswer (pool : Bool) (m : OutMsg) (t : Turn) (s : State) : State × Bool :=
  if stale m s then (s.record [.dropped m], false)
  else
    match m.kind with
    | .ws | .wsClose =>
        let s' := runOps pool t.hook.ops (s.record [.applied m])
        (s', s'.faulted || t.hook.raises)
    | _ =>
        match m.hold with
        | none =>
            match m.kind with
            | .wsDone =>
                let s' := runOps pool t.hook.ops (s.record [.applied m])
                (s', s'.faulted || t.hook.raises)
            | _ => afterRelease pool m.handle.dest t (s.record [.applied m])
        | some h => afterRelease pool m.handle.dest t (unpin pool h (s.record [.applied m]))

/-- The carrier of a finished awaitable call is still there; a slot is asked for its generation
only. -/
def awaitStale (m : OutMsg) (s : State) : Bool :=
  if m.handle.dest.isConn then stale m s
  else (s.carriers m.handle.dest).gen != m.handle.gen

/-- `applyBlockingDone`. -/
def applyBlockingDone (pool : Bool) (m : OutMsg) (b : ℕ) (t : Turn) (s : State) :
    State × Bool :=
  let s₁ := runOps pool t.onDone.ops ((s.complete b).record [.applied m])
  if s₁.faulted || t.onDone.raises then
    ({ s₁ with halfApplied := m :: s₁.halfApplied }, true)
  else
    let s₂ := s₁.settle b
    if awaitStale m s₂ then (s₂, false)
    else afterRelease pool m.handle.dest t (unpin pool (m.handle.hold .await) s₂)

def applyMessage (pool : Bool) (m : OutMsg) (t : Turn) (s : State) : State × Bool :=
  match m.kind with
  | .blockingDone b => applyBlockingDone pool m b t s
  | _ => applyAnswer pool m t s

/-- The loop of `processOutbox`: one `try` around all messages, so that a raise ends it. -/
def applyBatch (pool : Bool) : List OutMsg → List Turn → State → State × Bool
  | [], _, s => (s, false)
  | m :: rest, ts, s =>
      match applyMessage pool m (ts.headD {}) s with
      | (s', true) => ({ s' with abandoned := rest ++ s'.abandoned }, true)
      | (s', false) => applyBatch pool rest ts.tail s'

/-- The buffers of the batch go back to the chunk pool. -/
def returnBuffers (batch : List OutMsg) (s : State) : State :=
  (batch.filterMap OutMsg.buffer).foldl (fun s buf => s.chunkReturn buf) s

/-- `processOutbox`; `turns` is what the code of the application does at each message. -/
def processOutbox (pool : Bool) (turns : List Turn) (s : State) : State :=
  match applyBatch pool s.outbox turns { s with outbox := [] } with
  | (s', true) => s'
  | (s', false) => returnBuffers s.outbox s'

/-! ### The system -/

inductive Action where
  /-- A connection is accepted, or the QUIC stack accepts one into a free slot. -/
  | accept (e : Endpoint)
  /-- The next request of a keep-alive connection. -/
  | request (fd : ℕ)
  /-- Code of the application, or a close, on the loop thread. -/
  | loop (o : Op)
  /-- A thread of the application answers or sends through a handle it kept. -/
  | send (h : Handle) (ws : Bool)
  /-- A worker ends a task. -/
  | finish (t : Task) (b : Body)
  /-- The loop is woken up and empties its outbox. -/
  | drain (turns : List Turn)

/-- The task ends: its messages are pushed. -/
def finishTask (t : Task) (b : Body) (s : State) : State :=
  { s with running := s.running.erase t, outbox := s.outbox ++ trampoline t b }

/-- `clear`, or the assignment of a free slot. -/
def acceptAt (e : Endpoint) (s : State) : Option State :=
  match e with
  | .conn _ =>
      if (s.carriers e).live then none
      else if (s.carriers e).pins.total = 0 then
        some (s.modify e fun c =>
          { c with live := true, closing := false, reqSerial := c.reqSerial + 1 })
      else some { s with faulted := true }
  | .slot _ =>
      if (s.carriers e).live = false ∧ (s.carriers e).pins.total = 0 then
        some (s.modify e fun c => { c with live := true })
      else none

def step (pool : Bool) (s : State) : Action → Option State
  | .accept e => acceptAt e s
  | .request fd =>
      if (s.carriers (.conn fd)).live then
        some (s.modify (.conn fd) fun c => { c with reqSerial := c.reqSerial + 1 })
      else none
  | .loop o => some (runOp pool o s)
  | .send h ws => some (s.push [⟨if ws then .ws else .http .none, h⟩])
  | .finish t b => if t ∈ s.running then some (finishTask t b s) else none
  | .drain turns => if s.outbox = [] then none else some (processOutbox pool turns s)

/-- A loop, its pool and the threads of the application. -/
def system (pool : Bool) : System State Action := ⟨(· = {}), step pool⟩

end Vortex.Dispatch
