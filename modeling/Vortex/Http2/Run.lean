import Vortex.Http2.Receiver

/-! # Runs of an HTTP/2 connection

An application reaches the codec through `Call`s: from a handler, from a worker's outbox, or
from inside a callback the codec runs.  A `World` says what the application does in each
callback, which requests go to streaming routes, and how the runtime iterates tables.  Calls
made from callbacks may run callbacks in turn; `World.hooks n` follows them to depth `n`, and
what is proved holds for every depth.

A run of the connection interleaves bytes arriving, iterations of the frame loop and
application calls in any order (`Input`, `step`).  `Reachable` collects the states between
them; `ok` restricts the calls the application makes, in whatever place. -/

namespace Vortex.Http2

/-- What an application, or the event loop on its behalf, can do to a connection. -/
inductive Call where
  /-- `res.send`. -/
  | respond (sid : ℕ) (head : ResponseHead) (body : Bytes)
  /-- `res.sendHead`, with the declared length or `-1`. -/
  | sendHead (sid : ℕ) (head : ResponseHead) (contentLength : ℤ)
  /-- `res.write`. -/
  | write (sid : ℕ) (data : Bytes)
  /-- `res.finish`. -/
  | finish (sid : ℕ) (trailers : Fields)
  /-- `res.abort`. -/
  | abort (sid : ℕ)
  /-- A 1xx response. -/
  | informational (sid code : ℕ) (headers : Fields)
  /-- `req.onBody`. -/
  | onBody (sid cb : ℕ) (manualAck : Bool)
  /-- `req.ackBody`. -/
  | ackBody (sid : ℕ) (n : ℤ)
  /-- `res.onDrain`. -/
  | onDrain (sid cb : ℕ)
  /-- The loop pass a drain registration is owed. -/
  | drainKick (sid : ℕ)
  /-- The verdict `res.write` gives after its flush. -/
  | writable (sid : ℕ)
  /-- `res.setPriority`. -/
  | setPriority (sid urgency : ℕ) (incremental : Bool)
  /-- `req.acceptWebSocket`, with what was negotiated. -/
  | wsAccept (sid : ℕ) (dateStr serverHeader proto ext : Bytes)
  /-- The WebSocket codec serialized frames. -/
  | wsStage (sid : ℕ) (data : Bytes)
  /-- `ws.send`, `ws.close` and the closing steps of the WebSocket codec: frames are serialized
  and pushed at once. -/
  | wsSend (sid : ℕ) (data : Bytes) (close : Bool)
  | wsSetOnDrain (sid : ℕ)
  | wsFlush (sid : ℕ)
  /-- The socket took `n` bytes of the write buffer. -/
  | flushed (n : ℕ)
  /-- The write buffer drained: refill it. -/
  | drainResume
  | goawayNotice
  | goaway (err : ErrCode)
deriving DecidableEq, Repr

/-- The effect of a call. -/
def Call.run (H : Hooks) : Call → Conn → Conn
  | .respond sid head body, c => h2Respond H sid head body c
  | .sendHead sid head len, c => h2SendHead H sid head len c
  | .write sid data, c => h2StreamWrite H sid data c
  | .finish sid trailers, c => h2StreamFinish H sid trailers c
  | .abort sid, c => h2StreamAbort H sid c
  | .informational sid code headers, c => h2SendInformational sid code headers c
  | .onBody sid cb manualAck, c => h2SetOnBody H sid cb manualAck c
  | .ackBody sid n, c => h2AckBody sid n c
  | .onDrain sid cb, c => Http2.onDrain sid cb c
  | .drainKick sid, c => h2DrainKick H sid c
  | .writable sid, c => (h2Writable sid c).1
  | .setPriority sid urgency incremental, c => h2SetPriority sid urgency incremental c
  | .wsAccept sid dateStr serverHeader proto ext, c =>
      h2WsAccept sid dateStr serverHeader proto ext c
  | .wsStage sid data, c => Http2.wsStage sid data false c
  | .wsSend sid data close, c => wsFlushH2 H sid (Http2.wsStage sid data close c)
  | .wsSetOnDrain sid, c => Http2.wsSetOnDrain sid c
  | .wsFlush sid, c => wsFlushH2 H sid c
  | .flushed n, c => { c with flushed := c.flushed + min n c.pendingOut }
  | .drainResume, c => h2Schedule H c
  | .goawayNotice, c => c.h2GoawayNotice
  | .goaway err, c => c.h2Goaway err

/-! ### Applications -/

/-- The application and the runtime around the codec. -/
structure World where
  /-- The calls made in a callback, each decided on the state it finds. -/
  react : Callback → Conn → List (Conn → Option Call)
  streamRoute : Conn → ℕ → Bool
  order : (c : Conn) → { l : List ℕ // l.Perm c.streams.keys }
  passFuel : ℕ

/-- Make the calls of a callback one after the other. -/
def perform (H : Hooks) (script : List (Conn → Option Call)) (c : Conn) : Conn :=
  script.foldl (fun c f => (f c).elim c (fun k => k.run H c)) c

/-- The hooks of a world in which callbacks nest to depth `n`. -/
def World.hooks (W : World) : ℕ → Hooks
  | 0 =>
      { fire := fun _ c => c, streamRoute := W.streamRoute, order := W.order,
        passFuel := W.passFuel }
  | n + 1 =>
      { fire := fun cb c => perform (W.hooks n) (W.react cb c) c, streamRoute := W.streamRoute,
        order := W.order, passFuel := W.passFuel }

/-- Every call made in a callback satisfies `ok` where it is made. -/
def World.Obeys (W : World) (ok : Call → Conn → Prop) : Prop :=
  ∀ cb c f, f ∈ W.react cb c → ∀ c' k, f c' = some k → ok k c'

variable {H : Hooks} {ok : Call → Conn → Prop} {cfg : Config}

theorem perform_rel {R : Conn → Conn → Prop} (hrefl : ∀ c, R c c)
    (htrans : ∀ a b c, R a b → R b c → R a c) {script : List (Conn → Option Call)}
    (h : ∀ f ∈ script, ∀ c k, f c = some k → R c (k.run H c)) (c : Conn) :
    R c (perform H script c) := by
  induction script generalizing c with
  | nil => exact hrefl c
  | cons f rest ih =>
    have hstep : R c ((f c).elim c (fun k => k.run H c)) := by
      cases hf : f c with
      | none => exact hrefl c
      | some k => exact h f List.mem_cons_self c k hf
    exact htrans _ _ _ hstep (ih (fun g hg => h g (List.mem_cons_of_mem f hg)) _)

theorem World.fire_rel {W : World} (hW : W.Obeys ok) {R : Conn → Conn → Prop} (hrefl : ∀ c, R c c)
    (htrans : ∀ a b c, R a b → R b c → R a c)
    (hcall : ∀ H k c, (∀ cb c, R c (Hooks.fire H cb c)) → ok k c → R c (k.run H c)) :
    ∀ n cb c, R c ((W.hooks n).fire cb c) := by
  intro n
  induction n with
  | zero => exact fun _ c => hrefl c
  | succ n ih =>
    intro cb c
    exact perform_rel hrefl htrans
      (fun f hf c' k hk => hcall _ k c' ih (hW cb c f hf c' k hk)) c

/-! ### Runs -/

/-- One event of a run. -/
inductive Input where
  /-- Bytes were read from the socket. -/
  | bytes (b : Bytes)
  /-- One iteration of the frame loop. -/
  | feed
  | call (k : Call)
deriving DecidableEq, Repr

def step (H : Hooks) (c : Conn) : Input → Conn
  | .bytes b => { c with rbuf := c.rbuf ++ b }
  | .feed => (feedStep H c).getD c
  | .call k => k.run H c

/-- A call event is permitted. -/
def Input.Permitted (ok : Call → Conn → Prop) (c : Conn) : Input → Prop
  | .call k => ok k c
  | _ => True

/-- The states between the events of the runs of a connection. -/
inductive Reachable (H : Hooks) (ok : Call → Conn → Prop) (cfg : Config) : Conn → Prop
  | start : Reachable H ok cfg (newH2Conn cfg)
  | step {c : Conn} (i : Input) : Reachable H ok cfg c → i.Permitted ok c →
      Reachable H ok cfg (step H c i)

/-- No restriction on the application's calls. -/
def anyCall : Call → Conn → Prop := fun _ _ => True

theorem Reachable.foldl :
    ∀ (is : List Input) {c : Conn}, Reachable H ok cfg c → (∀ k c, Input.call k ∈ is → ok k c) →
      Reachable H ok cfg (is.foldl (Http2.step H) c)
  | [], _, h, _ => h
  | i :: is, c, h, hok => by
    refine Reachable.foldl is (h.step i ?_)
      (fun k c hk => hok k c (List.mem_cons_of_mem i hk))
    cases i with
    | bytes | feed => exact trivial
    | call k => exact hok k c List.mem_cons_self

theorem Reachable.feedLoop :
    ∀ (n : ℕ) {c : Conn}, Reachable H ok cfg c → Reachable H ok cfg (feedLoop H n c)
  | 0, _, h => h
  | n + 1, c, h => by
    unfold Http2.feedLoop
    cases hs : feedStep H c with
    | none => exact h
    | some c' =>
      have hc : Http2.step H c .feed = c' := by simp [Http2.step, hs]
      have h' : Reachable H ok cfg c' := hc ▸ h.step .feed trivial
      dsimp only
      split_ifs
      · exact Reachable.feedLoop n h'
      · exact h'

theorem Reachable.h2Feed {c : Conn} (h : Reachable H ok cfg c) : Reachable H ok cfg (h2Feed H c) :=
  h.feedLoop _

/-! ### A small instance -/

/-- An application that makes no calls from callbacks; `streams` says whether its routes take
requests on their headers. -/
def idleWorld (streams : Bool) : World where
  react := fun _ _ => []
  streamRoute := fun _ _ => streams
  order := fun c => ⟨c.streams.keys, .refl _⟩
  passFuel := 8

theorem idleWorld_obeys (streams : Bool) (ok : Call → Conn → Prop) :
    (idleWorld streams).Obeys ok := by
  intro cb c f hf
  cases hf

def smallConfig : Config where
  maxBody := 100
  maxHeaderList := 1000
  maxConcurrentStreams := 10
  maxResetStreams := 0
  maxControlFrames := 0

/-- The field block of `POST /`, with authority `a`. -/
def postBlock : Bytes := [0x83, 0x87, 0x84, 0x41, 0x01, 0x61]

/-- A client that sends the preface, its SETTINGS and the given frames, which are then read. -/
def feedInputs (frames : List Frame) : List Input :=
  .bytes (connectionPreface ++ (Frame.settings []).bytes ++ frames.flatMap Frame.bytes) ::
    List.replicate (frames.length + 2) .feed

/-- The state after these events. -/
def runOn (streams : Bool) (is : List Input) : Conn :=
  is.foldl (step ((idleWorld streams).hooks 0)) (newH2Conn smallConfig)

theorem runOn_reachable (streams : Bool) (is : List Input) (hok : ∀ k c, Input.call k ∈ is → ok k c)
    : Reachable ((idleWorld streams).hooks 0) ok smallConfig (runOn streams is) :=
  Reachable.foldl is .start hok

theorem runOn_append_reachable {streams : Bool} {is : List Input}
    (h : Reachable ((idleWorld streams).hooks 0) ok smallConfig (runOn streams is)) {i : Input}
    (hi : i.Permitted ok (runOn streams is)) :
    Reachable ((idleWorld streams).hooks 0) ok smallConfig (runOn streams (is ++ [i])) := by
  unfold runOn
  rw [List.foldl_append]
  exact h.step i hi

/-- The field block of an Extended CONNECT for a WebSocket, with authority `a`. -/
def connectBlock : Bytes :=
  [0x42, 0x07] ++ ascii "CONNECT" ++ [0x87, 0x84, 0x41, 0x01, 0x61, 0x00, 0x09] ++
    ascii ":protocol" ++ [0x09] ++ ascii "websocket"

end Vortex.Http2
