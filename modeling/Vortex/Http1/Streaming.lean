import Vortex.Http1.Compaction
import Vortex.Http1.Connection

/-! # Streaming a request body

A streaming handler registers its body sink when the head is complete; from then on every
read is parsed, the new body bytes are given to the sink and what was consumed is dropped from
the receive buffer.  The development compares such a connection with a parser that keeps all
the bytes `B` received so far: `Open B v c` relates the connection `c` to the state `v` of that
parser while the request is incomplete, `Done B s intact c` describes the connection once it is
complete, and `handleReads_stage` goes from one read to the next.

* A chunked body: `v` is the lift of the compacted parser (`Origin.lift`), the delivered bytes
  are the decoded ones.
* A `Content-Length` body: the parser's `bodyLen` counts down by what was delivered.

`streaming_body_lossless` and `streaming_trailers_of_uncut` are read off the last stage. -/

namespace Vortex

variable {c : Connection} {buf : Bytes}

/-! ### Overwriting a buffer -/

theorem take_writeAt {dst : ℕ} (data : Bytes) (h : dst ≤ buf.length) :
    (writeAt buf dst data).take (dst + data.length) = buf.take dst ++ data := by
  unfold writeAt
  have e : (buf.take dst ++ data).length = dst + data.length := by simp [h]
  rw [List.take_append_of_le_length (by rw [e]), List.take_of_length_le (by rw [e])]

theorem take_head {hd w : Bytes} (h : buf.take (hd ++ w).length = hd ++ w) :
    buf.take hd.length = hd := by
  have := congrArg (List.take hd.length) h
  rwa [List.take_take, List.take_left, Nat.min_eq_left (by simp)] at this

theorem take_moveMem {hd x y : Bytes} (h : buf.take (hd ++ (x ++ y)).length = hd ++ (x ++ y)) :
    (if 0 < y.length then moveMem buf hd.length (hd.length + x.length) y.length else buf).take
      (hd ++ y).length = hd ++ y := by
  have hlen' : (hd ++ y).length = hd.length + y.length := List.length_append
  rw [hlen']
  have hlen : (hd ++ (x ++ y)).length ≤ buf.length := by
    have := congrArg List.length h
    rw [List.length_take] at this
    omega
  simp only [List.length_append] at hlen
  have hhd : buf.take hd.length = hd := take_head h
  split_ifs with hy
  · have hs : slice buf (hd.length + x.length) (hd.length + x.length + y.length) = y := by
      unfold slice
      have e : hd.length + x.length + y.length = (hd ++ (x ++ y)).length := by
        simp only [List.length_append]; omega
      rw [e, h, ← List.append_assoc, ← List.length_append, List.drop_left]
    unfold moveMem
    rw [hs, take_writeAt y (by omega), hhd]
  · have : y = [] := List.length_eq_zero_iff.1 (by omega)
    subst this
    simpa using hhd

namespace Http1

namespace Connection

/-- The bytes in use are `b`. -/
def Holds (c : Connection) (b : Bytes) : Prop := c.rlen = b.length ∧ c.rbuf.take b.length = b

variable {b : Bytes}

theorem recv_holds (h : c.Holds b) (r : Bytes) : (c.recv r).Holds (b ++ r) := by
  obtain ⟨hl, hb⟩ := h
  have hle : c.rlen ≤ c.rbuf.length := by
    have := congrArg List.length hb
    rw [List.length_take] at this
    omega
  refine ⟨by simp [recv, hl], ?_⟩
  have := take_writeAt r hle
  rw [hl, hb] at this
  rw [List.length_append]
  simpa [recv, hl] using this

theorem Holds.slice_eq (h : c.Holds b) {i j : ℕ} (hj : j ≤ b.length) :
    slice c.rbuf i j = slice b i j := by
  rw [← slice_take c.rbuf hj, h.2]

theorem Holds.recv_slice (h : c.Holds b) {i j : ℕ} (hj : j ≤ b.length) (r : Bytes) :
    slice (c.recv r).rbuf i j = slice c.rbuf i j := by
  rw [(recv_holds h r).slice_eq (by rw [List.length_append]; omega), slice_append_left _ hj,
    h.slice_eq hj]

/-! ### Feeding the sink -/

variable {c : Connection} {hd x y : Bytes}

/-- The call made for decoded bytes before the end of the body. -/
def pieces (data : Bytes) : List (Bytes × Bool) := if data = [] then [] else [(data, false)]

/-- The request is in the same state of dispatch and response. -/
structure SameRequest (c c' : Connection) : Prop where
  state : c'.state = c.state
  h2 : c'.h2 = c.h2
  responded : c'.responded = c.responded
  reqStreaming : c'.reqStreaming = c.reqStreaming
  onBodyCb : c'.onBodyCb = c.onBodyCb
  awaitingResponse : c'.awaitingResponse = c.awaitingResponse

theorem oweAck_eq (c : Connection) (n : ℕ) : c.oweAck n =
    { c with bodyUnacked := if c.bodyManualAck then c.bodyUnacked + n else c.bodyUnacked } := by
  unfold oweAck
  split_ifs <;> rfl

theorem feedBody_eq (c : Connection) (last : Bool) : ∃ b n pos len body fed m ds,
    c.feedBody last = { c with
      rbuf := b
      rlen := n
      parser := { c.parser with pos := pos, bodyLen := len }
      chunkBody := body
      bodyFed := fed
      bodyUnacked := m
      deliveries := ds } := by
  have hdec : ∃ body fed m ds, c.feedDecoded last = { c with
      chunkBody := body, bodyFed := fed, bodyUnacked := m, deliveries := ds } := by
    simp only [feedDecoded, oweAck_eq, deliver]
    split_ifs <;> exact ⟨_, _, _, _, rfl⟩
  obtain ⟨_, _, _, _, h⟩ := hdec
  simp only [feedBody, h, compactRaw, feedPlain, oweAck_eq, deliver]
  split_ifs <;> exact ⟨_, _, _, _, _, _, _, _, rfl⟩

/-- The calls made for the bytes `data`; the last call is made even if there are none. -/
def calls (last : Bool) (data : Bytes) : List (Bytes × Bool) :=
  if last then [(data, true)] else pieces data

theorem feedDecoded_eq (last : Bool) (hf : c.bodyFed = 0) : ∃ m, c.feedDecoded last = { c with
      chunkBody := []
      bodyUnacked := m
      deliveries := c.deliveries ++ calls last c.chunkBody } := by
  unfold feedDecoded calls pieces
  simp only [hf, Nat.sub_zero, List.length_pos_iff, slice_full, List.drop_zero]
  by_cases h : c.chunkBody = []
  · refine ⟨c.bodyUnacked, ?_⟩
    cases c
    cases last <;> simp_all [deliver]
  · refine ⟨(c.oweAck c.chunkBody.length).bodyUnacked, ?_⟩
    simp only [h, ne_eq, not_false_iff, if_true, if_false, oweAck_eq]
    cases last <;> simp [deliver, hf]

/-- Before the end of a chunked body: the decoded bytes are delivered and the raw bytes `x`
between the head and the parser's position are dropped. -/
theorem feedBody_chunked_more (hcb : c.onBodyCb = true) (hc : c.parser.chunked = true)
    (hf : c.bodyFed = 0) (hh : c.Holds (hd ++ (x ++ y))) (hs : c.parser.bodyStart = hd.length)
    (hp : c.parser.pos = hd.length + x.length) : ∃ b m, c.feedBody false = { c with
        rbuf := b
        rlen := (hd ++ y).length
        parser := { c.parser with pos := c.parser.bodyStart }
        chunkBody := []
        bodyUnacked := m
        deliveries := c.deliveries ++ pieces c.chunkBody } ∧
      b.take (hd ++ y).length = hd ++ y := by
  obtain ⟨m, hm⟩ := feedDecoded_eq false hf
  have hy : c.rlen - (hd.length + x.length) = y.length := by
    rw [hh.1, List.length_append, List.length_append]
    omega
  have hfeed : c.feedBody false = if c.parser.bodyStart < c.parser.pos then
      (c.feedDecoded false).compactRaw else c.feedDecoded false := by
    unfold feedBody
    simp [hcb, hc, hm]
  rw [hfeed, hm]
  split_ifs with hlt
  · refine ⟨_, m, ?_, take_moveMem hh.2⟩
    simp only [compactRaw, hs, hp, hy, List.length_append, calls, Bool.false_eq_true, if_false]
  · have hx0 : x = [] := List.length_eq_zero_iff.1 (by omega)
    subst hx0
    have hpos : c.parser.pos = c.parser.bodyStart := by rw [hp, hs]; rfl
    refine ⟨c.rbuf, m, ?_, hh.2⟩
    rw [← hpos, show (hd ++ y).length = c.rlen from hh.1.symm]
    rfl

theorem feedBody_chunked_last (hcb : c.onBodyCb = true) (hc : c.parser.chunked = true)
    (hf : c.bodyFed = 0) :
    ∃ m, c.feedBody true = { c with
      chunkBody := [], bodyUnacked := m, deliveries := c.deliveries ++ [(c.chunkBody, true)] } := by
  obtain ⟨m, hm⟩ := feedDecoded_eq true hf
  refine ⟨m, ?_⟩
  unfold feedBody
  simp [hcb, hc, hm, calls]

theorem feedBody_plain (last : Bool) (hcb : c.onBodyCb = true) (hc : c.parser.chunked = false)
    (hh : c.Holds (hd ++ (x ++ y))) (hs : c.parser.bodyStart = hd.length)
    (hmin : min (x ++ y).length c.parser.bodyLen = x.length)
    (hl : last = (x.length == c.parser.bodyLen))
    (hpos : x = [] → c.parser.pos = c.parser.bodyStart) : ∃ b m, c.feedBody last = { c with
        rbuf := b
        rlen := (hd ++ y).length
        parser := { c.parser with
          bodyLen := c.parser.bodyLen - x.length, pos := c.parser.bodyStart }
        bodyUnacked := m
        deliveries := c.deliveries ++ calls last x } ∧
      b.take (hd ++ y).length = hd ++ y := by
  have hav : min (c.rlen - hd.length) c.parser.bodyLen = x.length := by
    rw [hh.1, List.length_append, Nat.add_sub_cancel_left]
    exact hmin
  have hy : c.rlen - (hd.length + x.length) = y.length := by
    rw [hh.1, List.length_append, List.length_append]
    omega
  have hsl : slice c.rbuf hd.length (hd.length + x.length) = x := by
    rw [hh.slice_eq (by simp only [List.length_append]; omega)]
    simpa [slice] using slice_shift hd (x ++ y) 0 x.length
  by_cases hx : x = []
  · subst hx
    have hfeed : c.feedBody last = if last then c.deliver [] true else c := by
      have hl' : (c.parser.bodyLen == 0) = last := by rw [hl, BEq.comm]; rfl
      unfold feedBody feedPlain
      simp only [hcb, hc, hs, hav, hl', List.length_nil, Bool.not_true, Bool.false_eq_true,
        Bool.and_self, if_false, if_true]
    have hlen : (hd ++ y).length = c.rlen := hh.1.symm
    refine ⟨c.rbuf, c.bodyUnacked, ?_, hh.2⟩
    rw [hfeed, hlen, ← hpos rfl]
    cases c
    cases last <;> simp [deliver, calls, pieces]
  · refine ⟨_, (c.oweAck x.length).bodyUnacked, ?_, take_moveMem hh.2⟩
    have hx0 : x.length ≠ 0 := by simpa using hx
    have hcalls : calls last x = [(x, x.length == c.parser.bodyLen)] := by
      rw [← hl]
      cases last <;> simp [calls, pieces, hx]
    unfold feedBody feedPlain
    simp only [hcb, hc, hs, hav, hx0, hsl, hcalls, oweAck_eq, deliver, hy, List.length_append,
      Bool.not_true, Bool.false_eq_true, if_false]

end Connection

open Connection

/-! ### Stages of a streamed request -/

/-- The body of a request, from the state the parser completes it in. -/
def requestBody (bytes : Bytes) (s : ParseState) : Bytes :=
  if s.parser.chunked then s.chunkBody
  else slice bytes s.parser.bodyStart (s.parser.bodyStart + s.parser.bodyLen)

/-- What the sink got so far. -/
def Connection.fed (c : Connection) : Bytes := (c.deliveries.map Prod.fst).flatten

/-- No delivery so far was marked as the last. -/
def Connection.NoLast (c : Connection) : Prop := ∀ d ∈ c.deliveries, d.2 = false

/-- A connection that reads a request. -/
structure Connection.Reading (c : Connection) : Prop where
  state : c.state = .csActive
  h2 : c.h2 = false
  responded : c.responded = false
  awaitingResponse : c.awaitingResponse = false
  bodyFed : c.bodyFed = 0
  noLast : c.NoLast

theorem Connection.Reading.recv (h : c.Reading) (r : Bytes) : (c.recv r).Reading :=
  ⟨h.state, h.h2, h.responded, h.awaitingResponse, h.bodyFed, h.noLast⟩

theorem Connection.Reading.withParse (h : c.Reading) (s : ParseState) : (c.withParse s).Reading :=
  ⟨h.state, h.h2, h.responded, h.awaitingResponse, h.bodyFed, h.noLast⟩

/-- The handler runs and its sink is registered. -/
def Connection.Dispatched (c : Connection) : Prop := c.reqStreaming = true ∧ c.onBodyCb = true

/-- The request is incomplete: `B` was received, `v` is the parser that keeps all of it. -/
inductive Open (B : Bytes) : ParseState → Connection → Prop
  | head {v : ParseState} {c : Connection} :
      v.parser.phase = .ppReqLine ∨ v.parser.phase = .ppHeaders → c.parser = v.parser →
      c.chunkBody = v.chunkBody → c.Holds B → c.reqStreaming = false → c.deliveries = [] →
      Open B v c
  | chunked {c : Connection} (o : Origin) (hd w : Bytes) : B = hd ++ (o.gap ++ w) →
      c.Holds (hd ++ w) → c.parser.bodyStart = hd.length → c.parser.pos = hd.length →
      chunkPhase c.parser.phase = true → c.parser.phase ≠ .ppComplete →
      c.parser.chunked = true → c.chunkBody = [] →
      o.fed = c.fed → o.stale = c.parser.trailers.length → o.old.length = o.stale →
      c.Dispatched → Open B (o.lift ⟨c.parser, []⟩) c
  | plain {v : ParseState} {c : Connection} (hd : Bytes) : B = hd ++ c.fed → c.Holds hd →
      v.parser.phase = .ppBody → v.parser.bodyStart = hd.length →
      c.fed.length < v.parser.bodyLen →
      c.parser = { v.parser with bodyLen := v.parser.bodyLen - c.fed.length } →
      c.Dispatched → Open B v c

/-- The trailer fields of a request, from the state the parser completes it in. -/
def trailerFields (bytes : Bytes) (s : ParseState) : List (Bytes × Bytes) :=
  s.parser.trailers.map (fun h => (h.name bytes, h.val bytes))

/-- The request is complete and waits for its response: `s` is the parser that kept all the
bytes `B`, and `intact` says that no trailer was recorded before the last compaction. -/
structure Done (B : Bytes) (s : ParseState) (intact : Prop) (c : Connection) : Prop where
  awaiting : c.awaitingResponse = true
  deliveries : ∃ ds x, c.deliveries = ds ++ [(x, true)] ∧ (∀ d ∈ ds, d.2 = false) ∧
    (ds.map Prod.fst).flatten ++ x = requestBody B s
  headers : c.parser.headers = s.parser.headers
  window : ∃ hd w, c.Holds (hd ++ w) ∧ hd = B.take s.parser.bodyStart ∧
    s.parser.bodyStart ≤ B.length ∧ c.parser.pos ≤ (hd ++ w).length ∧
    s.parser.pos ≤ B.length ∧ (hd ++ w).drop c.parser.pos = B.drop s.parser.pos
  trailers : intact → c.trailers = trailerFields B s ∧
    ∀ h ∈ c.parser.trailers, h.Within 0 c.parser.pos

/-- The handler is dispatched and its sink registered. -/
def Connection.ready (c : Connection) (keepAlive : Bool) (count : ℕ) (manual : Bool) (owed : ℕ) :
    Connection :=
  { c with
    parser := { c.parser with keepAlive := keepAlive }
    requestCount := count
    reqStreaming := true
    onBodyCb := true
    bodyFed := 0
    bodyManualAck := manual
    bodyUnacked := owed }

theorem countRequest_counted (cfg : LoopSettings) (c : Connection) : ∃ k n, countRequest cfg c =
    { c with parser := { c.parser with keepAlive := k }, requestCount := n } := by
  unfold countRequest
  dsimp only
  split_ifs
  · exact ⟨_, _, rfl⟩
  · exact ⟨c.parser.keepAlive, _, rfl⟩

section dispatch

variable {cfg : LoopSettings} {app : App} {c : Connection}
  (happ : ∀ p, app.streamRoute p = true ∧ app.registersSink p = true)

include happ

theorem startStreamingDispatch_ready : c.startStreamingDispatch app =
    c.ready c.parser.keepAlive c.requestCount app.manualAck 0 := by
  unfold startStreamingDispatch
  simp [happ, ready]

theorem dispatched_ready (hf : c.bodyFed = 0) (hd : c.reqStreaming = false ∨ c.Dispatched) :
    ∃ m u, (if c.reqStreaming then c else c.startStreamingDispatch app) =
      c.ready c.parser.keepAlive c.requestCount m u := by
  rcases hd with h | ⟨h1, h2⟩
  · exact ⟨_, _, by rw [h]; exact startStreamingDispatch_ready happ⟩
  · refine ⟨c.bodyManualAck, c.bodyUnacked, ?_⟩
    cases c
    simp_all [ready]

theorem onNeedMore_ready (hr : c.Reading) (hb : c.parser.inBody = true)
    (hd : c.reqStreaming = false ∨ c.Dispatched) : ∃ m u,
      onNeedMore app c = (c.ready c.parser.keepAlive c.requestCount m u).feedBody false := by
  obtain ⟨m, u, e⟩ := dispatched_ready happ hr.bodyFed hd
  refine ⟨m, u, ?_⟩
  unfold onNeedMore
  simp only [hb, hr.responded, Bool.not_false, Bool.and_true, if_true]
  simp only [Bool.not_eq_true', ← Bool.not_eq_true, ite_not, e]
  rfl

variable (cfg) in
theorem onComplete_ready (hf : c.bodyFed = 0) (hd : c.reqStreaming = false ∨ c.Dispatched) :
    ∃ k n m u, onComplete cfg app c = (c.ready k n m u).feedBody true := by
  obtain ⟨k, n, hc⟩ := countRequest_counted cfg c
  unfold onComplete
  generalize countRequest cfg c = d at hc
  obtain ⟨m, u, e⟩ := dispatched_ready happ (c := d) (by rw [hc]; exact hf) (by rw [hc]; exact hd)
  refine ⟨k, n, m, u, ?_⟩
  simp only [Bool.not_eq_true', ← Bool.not_eq_true, ite_not, e]
  rw [hc]
  rfl

end dispatch

/-! ### Incomplete and complete requests -/

theorem flatten_pieces (ds : List (Bytes × Bool)) (data : Bytes) :
    ((ds ++ pieces data).map Prod.fst).flatten = (ds.map Prod.fst).flatten ++ data := by
  unfold pieces
  split_ifs with h
  · simp [h]
  · simp

theorem noLast_pieces {ds : List (Bytes × Bool)} (h : ∀ d ∈ ds, d.2 = false) (data : Bytes) :
    ∀ d ∈ ds ++ pieces data, d.2 = false := by
  intro d hm
  rcases List.mem_append.1 hm with hm | hm
  · exact h d hm
  · unfold pieces at hm
    split_ifs at hm
    · cases hm
    · rw [List.mem_singleton] at hm
      rw [hm]

theorem inBody_of_chunkPhase {p : RequestParser} (h : chunkPhase p.phase = true)
    (hne : p.phase ≠ .ppComplete) : p.inBody = true := by
  unfold RequestParser.inBody
  cases hp : p.phase <;> simp_all [chunkPhase]

/-- What the verdict `res` of a call means for the connection: the request stays open or is
done. -/
def Settles (cfg : LoopSettings) (app : App) (B : Bytes) (v : ParseState) (intact : Prop)
    (c : Connection) : ParseResult → Prop
  | .prNeedMore => Open B v (onNeedMore app c) ∧ (onNeedMore app c).Reading
  | .prComplete => (onComplete cfg app c).responded = false ∧
      Done B v intact { onComplete cfg app c with awaitingResponse := true }
  | .prError => False

theorem Settles.imp {cfg : LoopSettings} {app : App} {B : Bytes} {v : ParseState}
    {res : ParseResult} {p q : Prop} (hqp : q → p) (h : Settles cfg app B v p c res) :
    Settles cfg app B v q c res := by
  match res, h with
  | .prNeedMore, h => exact h
  | .prComplete, h => exact ⟨h.1, { h.2 with trailers := fun hq => h.2.trailers (hqp hq) }⟩

section settles

variable {cfg : LoopSettings} {app : App} {B : Bytes} {v : ParseState} {c : Connection}
  (happ : ∀ p, app.streamRoute p = true ∧ app.registersSink p = true) (hr : c.Reading)
  (hdisp : c.reqStreaming = false ∨ c.Dispatched)

include happ hr hdisp

section chunked

variable {o : Origin} {hd x y : Bytes} (hB : B = hd ++ (o.gap ++ (x ++ y)))
  (hh : c.Holds (hd ++ (x ++ y))) (hs : c.parser.bodyStart = hd.length)
  (hp : c.parser.pos = hd.length + x.length) (hc : c.parser.chunked = true)
  (hfed : o.fed = c.fed) (hold : o.old.length = o.stale)

include hB hh hs hp hc hfed hold

theorem chunked_more (hph : chunkPhase c.parser.phase = true) (hne : c.parser.phase ≠ .ppComplete)
    (hst : o.stale ≤ c.parser.trailers.length) :
    Open B (o.lift ⟨c.parser, c.chunkBody⟩) (onNeedMore app c) ∧
      (onNeedMore app c).Reading := by
  obtain ⟨m, u, e⟩ := onNeedMore_ready happ hr (inBody_of_chunkPhase hph hne) hdisp
  obtain ⟨b, u', hf, hb⟩ := feedBody_chunked_more
    (c := c.ready c.parser.keepAlive c.requestCount m u) rfl hc rfl hh hs hp
  rw [e, hf]
  let o' : Origin := {
    gap := o.gap ++ x
    fed := o.fed ++ c.chunkBody
    stale := c.parser.trailers.length
    old := (o.lift ⟨c.parser, c.chunkBody⟩).parser.trailers }
  have hlift : o.lift ⟨c.parser, c.chunkBody⟩ =
      o'.lift ⟨{ c.parser with pos := c.parser.bodyStart }, []⟩ := by
    simp only [Origin.lift, o', hs, hp, List.drop_length, List.map_nil, List.append_nil,
      List.length_append]
    congr 2
    omega
  rw [hlift]
  refine ⟨.chunked (c := { c.ready _ _ m u with
      rbuf := b, rlen := _, parser := _, chunkBody := [], bodyUnacked := u', deliveries := _ })
      o' hd y ?_ ⟨rfl, hb⟩ hs hs hph hne hc rfl ?_ rfl ?_ ⟨rfl, rfl⟩,
    ⟨hr.state, hr.h2, hr.responded, hr.awaitingResponse, rfl, noLast_pieces hr.noLast _⟩⟩
  · rw [hB]; simp [o', List.append_assoc]
  · exact (congrArg (· ++ c.chunkBody) hfed).trans (flatten_pieces _ _).symm
  · simp only [o', Origin.lift, List.length_append, List.length_map, List.length_drop, hold]
    omega

variable (cfg) in
theorem chunked_done
    (hts : ∀ h ∈ c.parser.trailers.drop o.stale, h.Within hd.length c.parser.pos) :
    Settles cfg app B (o.lift ⟨c.parser, c.chunkBody⟩) (o.stale = 0) c .prComplete := by
  obtain ⟨k, n, m, u, e⟩ := onComplete_ready cfg happ hr.bodyFed hdisp
  obtain ⟨u', hf⟩ := feedBody_chunked_last (c := c.ready k n m u) rfl hc rfl
  unfold Settles
  rw [e, hf]
  refine ⟨hr.responded, rfl, ⟨c.deliveries, c.chunkBody, rfl, hr.noLast, ?_⟩, rfl,
    ⟨hd, x ++ y, hh, ?_, ?_, ?_, ?_, ?_⟩, fun h0 => ?_⟩
  · simp only [requestBody, Origin.lift, hc, if_true, hfed]
    rfl
  · simp only [Origin.lift, hs, hB, List.take_left]
  · simp only [Origin.lift, hs, hB, List.length_append]
    omega
  · simp only [ready, hp, List.length_append]
    omega
  · simp only [Origin.lift, hp, hB, List.length_append]
    omega
  · have e1 : hd.length + x.length = (hd ++ x).length := by simp
    have e2 : hd.length + x.length + o.gap.length = (hd ++ (o.gap ++ x)).length := by
      simp only [List.length_append]; omega
    simp only [ready, Origin.lift, hp, hB]
    rw [e2, e1, ← List.append_assoc hd x y, List.drop_left,
      show hd ++ (o.gap ++ (x ++ y)) = (hd ++ (o.gap ++ x)) ++ y by simp, List.drop_left]
  · have hnil : o.old = [] := List.length_eq_zero_iff.1 (by rw [hold, h0])
    rw [h0, List.drop_zero] at hts
    have hin : c.parser.pos ≤ (hd ++ (x ++ y)).length := by
      rw [hp]; simp only [List.length_append]; omega
    refine ⟨?_, fun h hm => (hts h hm).mono (Nat.zero_le _) le_rfl⟩
    unfold trailerFields Connection.trailers
    simp only [ready, Origin.lift, hnil, h0, List.nil_append, List.drop_zero, List.map_map]
    refine List.map_congr_left fun h hm => ?_
    obtain ⟨w1, w2, w3, w4⟩ := hts h hm
    simp only [Function.comp, hB, name_shift w1, val_shift w3]
    unfold HeaderSlice.name HeaderSlice.val
    rw [hh.slice_eq (w2.trans hin), hh.slice_eq (w4.trans hin)]

end chunked

section plain

variable {hd z : Bytes} (hB : B = hd ++ (c.fed ++ z)) (hh : c.Holds (hd ++ z))
  (hs : v.parser.bodyStart = hd.length) (hc : v.parser.chunked = false)

include hB hh hs hc

theorem plain_more (hph : v.parser.phase = .ppBody) (hpos : v.parser.pos = hd.length)
    (hlen : c.fed.length + z.length < v.parser.bodyLen)
    (hpar : c.parser = { v.parser with bodyLen := v.parser.bodyLen - c.fed.length }) :
    Open B v (onNeedMore app c) ∧ (onNeedMore app c).Reading := by
  have hin : c.parser.inBody = true := by
    rw [hpar]
    unfold RequestParser.inBody
    simp [hph]
  obtain ⟨m, u, e⟩ := onNeedMore_ready happ hr hin hdisp
  have hbl : c.parser.bodyLen = v.parser.bodyLen - c.fed.length := by rw [hpar]
  have hbs : c.parser.bodyStart = hd.length := by rw [hpar]; exact hs
  have hlast : false = (z.length == c.parser.bodyLen) := by
    rw [eq_comm, beq_eq_false_iff_ne]
    omega
  obtain ⟨b, u', hf, hb⟩ := feedBody_plain false (x := z) (y := [])
    (c := c.ready c.parser.keepAlive c.requestCount m u) rfl
    (show c.parser.chunked = false by rw [hpar]; exact hc) (by rw [List.append_nil]; exact hh) hbs
    (show min _ c.parser.bodyLen = _ by rw [List.append_nil]; omega) hlast
    (fun _ => show c.parser.pos = c.parser.bodyStart by rw [hpar, hpos, hs])
  rw [e, hf]
  have hfd : ((c.deliveries ++ calls false z).map Prod.fst).flatten = c.fed ++ z :=
    flatten_pieces _ _
  refine ⟨.plain hd ?_ ⟨by simp, by simpa using hb⟩ hph hs ?_ ?_ ⟨rfl, rfl⟩,
    ⟨hr.state, hr.h2, hr.responded, hr.awaitingResponse, rfl, noLast_pieces hr.noLast _⟩⟩
  · exact hB.trans (congrArg (hd ++ ·) hfd.symm)
  · exact (congrArg List.length hfd).trans_lt (by rwa [List.length_append])
  · refine Eq.trans ?_ (congrArg (fun f : Bytes =>
      { v.parser with bodyLen := v.parser.bodyLen - f.length }) hfd.symm)
    simp only [ready, hpar, hs, ← hpos, List.length_append, Nat.sub_sub]

variable (cfg) in
theorem plain_done (hpos : v.parser.pos = hd.length + v.parser.bodyLen)
    (ht : v.parser.trailers = []) (hfed : c.fed = [] ∨ c.fed.length < v.parser.bodyLen)
    (hlen : v.parser.bodyLen ≤ c.fed.length + z.length)
    (hpar : c.parser = { v.parser with
      bodyLen := v.parser.bodyLen - c.fed.length
      pos := hd.length + (v.parser.bodyLen - c.fed.length) }) :
    Settles cfg app B v True c .prComplete := by
  obtain ⟨k, n, m, u, e⟩ := onComplete_ready cfg happ hr.bodyFed hdisp
  have hle : c.fed.length ≤ v.parser.bodyLen := by
    rcases hfed with h | h
    · simp [h]
    · omega
  have hxl : (z.take (v.parser.bodyLen - c.fed.length)).length = v.parser.bodyLen - c.fed.length := by
    rw [List.length_take]; omega
  have hbl : c.parser.bodyLen = v.parser.bodyLen - c.fed.length := by rw [hpar]
  have hbs : c.parser.bodyStart = hd.length := by rw [hpar]; exact hs
  obtain ⟨b, u', hf, hb⟩ := feedBody_plain true (c := c.ready k n m u)
    (x := z.take (v.parser.bodyLen - c.fed.length)) (y := z.drop (v.parser.bodyLen - c.fed.length)) rfl
    (show c.parser.chunked = false by rw [hpar]; exact hc)
    (by rw [List.take_append_drop]; exact hh) hbs
    (show min _ c.parser.bodyLen = _ by rw [hxl, List.take_append_drop]; omega)
    (show true = (_ == c.parser.bodyLen) by rw [hxl, hbl, beq_self_eq_true])
    (fun h0 => show c.parser.pos = c.parser.bodyStart by
      rw [h0] at hxl
      rw [hpar, ← hxl, hs]
      rfl)
  unfold Settles
  rw [e, hf]
  refine ⟨hr.responded, rfl, ⟨c.deliveries, _, rfl, hr.noLast, ?_⟩,
    show c.parser.headers = _ by rw [hpar], ⟨hd, _, ⟨rfl, hb⟩, ?_, ?_, ?_, ?_, ?_⟩, fun _ => ?_⟩
  · have hsl := slice_shift hd (c.fed ++ z) 0 v.parser.bodyLen
    rw [Nat.add_zero] at hsl
    unfold requestBody
    rw [hc, hs, hB, hsl]
    simp [slice, List.take_append, List.take_of_length_le hle]
    rfl
  · rw [hs, hB, List.take_left]
  · rw [hs, hB, List.length_append]; omega
  · exact hbs.trans_le (by simp)
  · rw [hpos, hB, List.length_append, List.length_append]; omega
  · refine (congrArg (List.drop · _) hbs).trans ?_
    rw [List.drop_left, hpos, hB, List.drop_length_add_append, List.drop_append,
      List.drop_of_length_le hle, List.nil_append]
  · have ht' : c.parser.trailers = [] := by rw [hpar]; exact ht
    simp [Connection.trailers, trailerFields, ready, ht, ht']

end plain

end settles

/-! ### One call of the parser -/

/-- Nothing removed, nothing delivered. -/
def Origin.none : Origin := ⟨[], [], 0, []⟩

theorem Origin.lift_none (s : ParseState) : Origin.none.lift s = s := by
  have hid : HeaderSlice.shift 0 = id := by funext h; rfl
  simp [Origin.lift, Origin.none, hid]

theorem take_rlen {b : Bytes} (h : c.Holds b) : c.rbuf.take c.rlen = b := by
  rw [h.1, h.2]

section body

variable {lim : ParserLimits} {b : Bytes} {s : ParseState}

theorem parse_body (hph : s.parser.phase = .ppBody) : parse lim b s =
    if b.length - s.parser.bodyStart < s.parser.bodyLen then .ok (.prNeedMore, s)
    else .ok (.prComplete, { s with parser := { s.parser with
      pos := s.parser.bodyStart + s.parser.bodyLen, phase := .ppComplete } }) := by
  refine (parseLoop lim b).run_done (s := s) ?_
  change parseStep lim b s = _
  unfold parseStep
  rw [hph]
  split_ifs with h
  · exact if_pos h
  · exact if_neg h

end body

section call

variable {cfg : LoopSettings} {app : App} {B : Bytes} {v v' : ParseState} {c : Connection}
  {res : ParseResult} (happ : ∀ p, app.streamRoute p = true ∧ app.registersSink p = true)

include happ

theorem head_settles (hr : c.Reading) (hns : c.reqStreaming = false) (hnd : c.deliveries = [])
    (hh : c.Holds B) (hf : Framed B v') (hag : PhaseAgrees B (.inr (.ok (res, v'))))
    (hres : res ≠ .prError) :
    Settles cfg app B v' (Origin.none.stale = 0) (c.withParse v') res := by
  have hfed : (c.withParse v').fed = [] := by simp [Connection.fed, Connection.withParse, hnd]
  have hr' := hr.withParse v'
  obtain ⟨hle, hfr⟩ := hf
  have hcut : v'.parser.bodyStart ≤ v'.parser.pos → ∃ hd x y, B = hd ++ (x ++ y) ∧
      v'.parser.bodyStart = hd.length ∧ v'.parser.pos = hd.length + x.length := by
    intro hb
    refine ⟨B.take v'.parser.bodyStart, slice B v'.parser.bodyStart v'.parser.pos,
      B.drop v'.parser.pos, ?_, ?_, ?_⟩
    · rw [← slice_full B v'.parser.pos, slice_split B hb hle, slice_full, List.take_append_drop]
    · rw [List.length_take]; omega
    · rw [List.length_take, length_slice]; omega
  cases res with
  | prError => exact absurd rfl hres
  | prNeedMore =>
    cases hp : v'.parser.phase with
    | ppReqLine | ppHeaders =>
      have e : onNeedMore app (c.withParse v') = c.withParse v' := by
        unfold onNeedMore
        simp [Connection.withParse, RequestParser.inBody, hp]
      simp only [Settles, e]
      exact ⟨.head (by simp [hp]) rfl rfl hh hns hnd, hr'⟩
    | ppBody =>
      rw [hp] at hfr
      obtain ⟨hd, x, y, rfl, hs, -⟩ := hcut hfr.2.1.le
      have hmore := hag.2.2 hp
      rw [hs, List.length_append, Nat.add_sub_cancel_left] at hmore
      refine plain_more happ hr' (.inl hns) (by rw [hfed]; rfl) hh hs hfr.2.2.1 hp
        (hfr.2.1 ▸ hs) ?_ ?_
      · rw [hfed]; simpa using hmore
      · rw [hfed]; rfl
    | ppChunkSize | ppChunkData | ppChunkCRLF | ppTrailers =>
      rw [hp] at hfr
      obtain ⟨hd, x, y, rfl, hs, hx⟩ := hcut hfr.2.1
      have := chunked_more happ (o := .none) hr' (.inl hns) rfl hh hs hx hfr.2.2.1 hfed.symm rfl
        (by simp [Connection.withParse, hp, chunkPhase]) (by simp [Connection.withParse, hp])
        (Nat.zero_le _)
      rwa [Origin.lift_none] at this
    | ppComplete => exact absurd hp hag.1
    | ppError => exact absurd hp hag.2.1
  | prComplete =>
    have hp : v'.parser.phase = .ppComplete := hag
    rw [hp] at hfr
    obtain ⟨_, hb, hplain, htr⟩ := hfr
    obtain ⟨hd, x, y, rfl, hs, hx⟩ := hcut hb
    cases hc : v'.parser.chunked with
    | true =>
      have := chunked_done cfg happ (o := .none) hr' (.inl hns) rfl hh hs hx hc hfed.symm rfl
        (hs ▸ htr)
      rwa [Origin.lift_none] at this
    | false =>
      obtain ⟨hpos, ht⟩ := hplain hc
      have hz := hle
      rw [hpos, hs, List.length_append] at hz
      have := plain_done cfg happ hr' (.inl hns) (by rw [hfed]) hh hs hc (hs ▸ hpos) ht
        (.inl hfed) (by rw [hfed, List.length_nil]; omega)
        (by rw [hfed, ← hs]; simp only [List.length_nil, Nat.sub_zero, ← hpos]; rfl)
      exact this.imp fun _ => trivial

theorem chunked_settles {o : Origin} {hd w : Bytes} {s' : ParseState} (hr : c.Reading)
    (hdisp : c.Dispatched) (hB : B = hd ++ (o.gap ++ w)) (hh : c.Holds (hd ++ w))
    (hs : c.parser.bodyStart = hd.length) (hp : c.parser.pos = hd.length)
    (hc : c.parser.chunked = true) (hfed : o.fed = c.fed)
    (hst : o.stale = c.parser.trailers.length) (hold : o.old.length = o.stale)
    (hfr : ChunkFrame ⟨c.parser, []⟩ s') (hle : (o.lift s').parser.pos ≤ B.length)
    (hag : PhaseAgrees B (.inr (.ok (res, o.lift s')))) (hres : res ≠ .prError) :
    Settles cfg app B (o.lift s') (c.parser.trailers = []) (c.withParse s') res := by
  have hr' := hr.withParse s'
  have hpos : hd.length ≤ s'.parser.pos := hp ▸ hfr.pos
  have hpos' : s'.parser.pos ≤ hd.length + w.length := by
    rw [hB] at hle
    simp only [Origin.lift, List.length_append] at hle
    omega
  have hw : w = w.take (s'.parser.pos - hd.length) ++ w.drop (s'.parser.pos - hd.length) :=
    (List.take_append_drop _ _).symm
  have hx : s'.parser.pos = hd.length + (w.take (s'.parser.pos - hd.length)).length := by
    rw [List.length_take]
    omega
  rw [hw] at hB hh
  obtain ⟨ts, ht, hts⟩ := hfr.trailers
  have hfed' : o.fed = (c.withParse s').fed := hfed
  have hbs : (c.withParse s').parser.bodyStart = hd.length := hfr.bodyStart.trans hs
  have hch : (c.withParse s').parser.chunked = true := hfr.chunked.trans hc
  cases res with
  | prError => exact absurd rfl hres
  | prNeedMore =>
    refine chunked_more happ hr' (.inr hdisp) hB hh hbs hx hch hfed' hold hfr.phase hag.1 ?_
    simp only [Connection.withParse, ht, hst, List.length_append]
    omega
  | prComplete =>
    have := chunked_done cfg happ hr' (.inr hdisp) hB hh hbs hx hch hfed' hold (by
      simp only [Connection.withParse, ht, hst, List.drop_left]
      exact fun h hm => (hts h hm).mono (by simp [hp]) le_rfl)
    exact this.imp fun hnil => by rw [hst, hnil]; rfl

theorem plain_settles {hd r : Bytes} (hr : c.Reading) (hdisp : c.Dispatched)
    (hB : B = hd ++ (c.fed ++ r)) (hh : c.Holds (hd ++ r)) (hph : v.parser.phase = .ppBody)
    (hf : Framed B v) (hs : v.parser.bodyStart = hd.length)
    (hlen : c.fed.length < v.parser.bodyLen)
    (hpar : c.parser = { v.parser with bodyLen := v.parser.bodyLen - c.fed.length })
    (h : parse cfg.limits B v = .ok (res, v')) :
    ∃ s', parse cfg.limits (hd ++ r) ⟨c.parser, c.chunkBody⟩ = .ok (res, s') ∧
      Settles cfg app B v' (c.parser.trailers = []) (c.withParse s') res := by
  have hfr := hf.2
  rw [hph] at hfr
  obtain ⟨_, hb, hc, _, ht⟩ := hfr
  have hph' : (ParseState.mk c.parser c.chunkBody).parser.phase = .ppBody := by
    rw [hpar]
    exact hph
  have hBl : B.length - v.parser.bodyStart = c.fed.length + r.length := by
    rw [hB, hs, List.length_append, List.length_append]
    omega
  have hbl : (hd ++ r).length - c.parser.bodyStart = r.length := by
    rw [hpar, List.length_append]
    simp only [hs]
    omega
  have hcl : c.parser.bodyLen = v.parser.bodyLen - c.fed.length := by rw [hpar]
  by_cases hmore : c.fed.length + r.length < v.parser.bodyLen
  · rw [parse_body hph, if_pos (by omega)] at h
    cases h
    exact ⟨_, (parse_body hph').trans (if_pos (by simp only; omega)), plain_more happ hr
      (.inr hdisp) hB hh hs hc hph (hb ▸ hs) hmore hpar⟩
  · rw [parse_body hph, if_neg (by omega)] at h
    cases h
    refine ⟨_, (parse_body hph').trans (if_neg (by simp only; omega)), ?_⟩
    have := plain_done cfg (B := B) (z := r)
      (v := { v with parser := { v.parser with
        pos := v.parser.bodyStart + v.parser.bodyLen, phase := .ppComplete } })
      (c := c.withParse ⟨{ c.parser with
        pos := c.parser.bodyStart + c.parser.bodyLen, phase := .ppComplete }, c.chunkBody⟩)
      happ (hr.withParse _) (.inr hdisp) hB hh hs hc (by simp only [hs]) ht (.inr hlen) (not_lt.1 hmore)
      (by simp only [Connection.withParse, hpar, hs]; rfl)
    exact this.imp fun _ => trivial

variable (cfg) in
theorem open_settles (hopen : Open B v c) (hr : c.Reading) (hf : Framed B v) (r : Bytes)
    (h : parse cfg.limits (B ++ r) v = .ok (res, v')) (hres : res ≠ .prError) :
    ∃ s', parse cfg.limits ((c.recv r).rbuf.take (c.recv r).rlen)
        ⟨(c.recv r).parser, (c.recv r).chunkBody⟩ = .ok (res, s') ∧
      Settles cfg app (B ++ r) v' (c.parser.trailers = []) ((c.recv r).withParse s') res := by
  have hr' := hr.recv r
  have hag := parse_phaseAgrees cfg.limits (B ++ r) v
  rw [h] at hag
  have hf' := parse_framed (hf.append r) h hres
  cases hopen with
  | head _ hpar hcb hh hns hnd =>
    have hh' := recv_holds hh r
    refine ⟨v', ?_, ?_⟩
    · rw [take_rlen hh', ← h]
      simp only [recv, hpar, hcb]
    · exact (head_settles happ hr' hns hnd hh' hf' hag hres).imp fun _ => rfl
  | chunked o hd w hB hh hs hp hph _ hc hcb hfed hst hold hdisp =>
    have hh' := recv_holds hh r
    rw [List.append_assoc] at hh'
    have hB' : B ++ r = hd ++ (o.gap ++ (w ++ r)) := by rw [hB]; simp
    rw [hB'] at h
    obtain ⟨s', hs', hv'⟩ := lift_parse hph (by simp only [hp]; exact le_rfl)
      (by simp only [hst]; exact le_rfl) h hres
    subst hv'
    have hfr := parse_chunkFrame hph hs' hres
    refine ⟨s', ?_, chunked_settles happ hr' hdisp hB' hh' hs hp hc hfed hst hold hfr hf'.1
      hag hres⟩
    rw [take_rlen hh', ← hs']
    simp only [recv, hcb]
  | plain hd hB hh hph hs hlen hpar hdisp =>
    have hh' := recv_holds hh r
    rw [take_rlen hh']
    have hB' : B ++ r = hd ++ ((c.recv r).fed ++ r) := by
      rw [show (c.recv r).fed = c.fed from rfl, ← List.append_assoc, ← hB]
    exact plain_settles happ hr' hdisp hB' hh' hph (hf.append r) hs hlen hpar h

end call

/-! ### One read -/

section read

variable {cfg : LoopSettings} {app : App} {B F : Bytes} {v sR : ParseState} {c : Connection}

/-- The parser that keeps all the bytes will complete the request on `F`, in state `sR`. -/
structure Live (lim : ParserLimits) (F : Bytes) (sR v : ParseState) : Prop where
  bounded : TrailersBounded lim F v
  complete : parse lim F v = .ok (.prComplete, sR)

theorem Live.parse {lim : ParserLimits} {a x : Bytes} (h : Live lim (a ++ x) sR v) :
    (∃ v', Http1.parse lim a v = .ok (.prNeedMore, v') ∧ Live lim (a ++ x) sR v') ∨
      Http1.parse lim a v = .ok (.prComplete, sR) := by
  have hres := parse_append lim a x v
  match hout : Http1.parse lim a v with
  | .ok (.prNeedMore, v') =>
    rw [hout] at hres
    exact .inl ⟨v', rfl, fun t ht hl => h.bounded t (hres.2 t hl.1 ht) hl,
      hres.1.symm.trans h.complete⟩
  | .ok (.prComplete, v') =>
    rw [hout] at hres
    have := h.complete.symm.trans hres
    cases this
    exact .inr rfl
  | .ok (.prError, v') =>
    rw [hout] at hres
    obtain ⟨t, ht⟩ := hres h.bounded
    have := h.complete.symm.trans ht
    cases this
  | .error d =>
    rw [hout] at hres
    have := h.complete.symm.trans hres
    cases this

theorem requestBody_append {T : Bytes} (hf : Framed B sR) (hph : sR.parser.phase = .ppComplete) :
    requestBody (B ++ T) sR = requestBody B sR := by
  have hfr := hf.2
  rw [hph] at hfr
  unfold requestBody
  split_ifs with hc
  · rfl
  · rw [slice_append_left]
    rw [← (hfr.2.2.1 (by simpa using hc)).1]
    exact hf.1

theorem trailerFields_append {T : Bytes} (hf : Framed B sR) (hph : sR.parser.phase = .ppComplete) :
    trailerFields (B ++ T) sR = trailerFields B sR := by
  have hfr := hf.2
  rw [hph] at hfr
  refine List.map_congr_left fun h hm => ?_
  obtain ⟨_, w2, _, w4⟩ := hfr.2.2.2 h hm
  rw [name_append (w2.trans hf.1), val_append (w4.trans hf.1)]

variable (cfg app) in
theorem handleRead_done {intact : Prop} (hd : Done B sR intact c) (hf : Framed B sR)
    (hph : sR.parser.phase = .ppComplete) (r : Bytes) :
    ∃ c', handleRead cfg app c r = .ok c' ∧ Done (B ++ r) sR intact c' := by
  obtain ⟨hd', w, hh, hhd, hle, hpos, hle', hdrop⟩ := hd.window
  have hh' := recv_holds hh r
  refine ⟨c.recv r, ?_, hd.awaiting, ?_, hd.headers, ?_, ?_⟩
  · unfold handleRead processInput
    rw [if_pos (by simp [recv, hd.awaiting])]
  · obtain ⟨ds, x, h1, h2, h3⟩ := hd.deliveries
    exact ⟨ds, x, h1, h2, h3.trans (requestBody_append hf hph).symm⟩
  · refine ⟨hd', w ++ r, by rw [← List.append_assoc]; exact hh', ?_, ?_, ?_, ?_, ?_⟩
    · rw [hhd, List.take_append_of_le_length hle]
    · rw [List.length_append]; omega
    · rw [← List.append_assoc, List.length_append]
      change c.parser.pos ≤ _
      omega
    · rw [List.length_append]; omega
    · change (hd' ++ (w ++ r)).drop c.parser.pos = _
      rw [← List.append_assoc, List.drop_append_of_le_length hpos, hdrop,
        List.drop_append_of_le_length hle']
  · intro hi
    obtain ⟨ht, hw⟩ := hd.trailers hi
    refine ⟨?_, hw⟩
    have e1 : (c.recv r).trailers = c.trailers := by
      refine List.map_congr_left fun h hm => ?_
      obtain ⟨_, w2, _, w4⟩ := hw h hm
      unfold HeaderSlice.name HeaderSlice.val
      rw [hh.recv_slice (w2.trans hpos), hh.recv_slice (w4.trans hpos)]
    rw [e1, ht, trailerFields_append hf hph]

variable (cfg app) in
theorem handleReads_done {intact : Prop} (hph : sR.parser.phase = .ppComplete) :
    ∀ (reads : List Bytes) {B : Bytes} {c : Connection}, Done B sR intact c → Framed B sR →
      ∃ c', handleReads cfg app c reads = .ok c' ∧ Done (B ++ reads.flatten) sR intact c'
  | [], B, c, hd, _ => ⟨c, rfl, by simpa using hd⟩
  | r :: rs, B, c, hd, hf => by
    obtain ⟨c₁, hc1, hd1⟩ := handleRead_done cfg app hd hf hph r
    obtain ⟨c', hc', hd'⟩ := handleReads_done hph rs hd1 (hf.append r)
    refine ⟨c', ?_, ?_⟩
    · unfold handleReads
      rw [hc1]
      exact hc'
    · rw [List.flatten_cons, ← List.append_assoc]
      exact hd'

theorem preface_rejected (lim : ParserLimits) (p : RequestParser) (y : Bytes) :
    Rejects lim (connectionPreface ++ y) (.fresh p) := by
  have hnl : findByte (connectionPreface ++ y) 0 (connectionPreface ++ y).length lf = some 15 :=
    findByte_append_of_some (by decide) (by simp [connectionPreface])
  have hcr : (connectionPreface ++ y).getD 14 0 = cr := by
    rw [getD_append_left (by decide)]
    decide
  have hline : slice (connectionPreface ++ y) 0 14 = ascii "PRI * HTTP/2.0" := by
    rw [slice_append_left _ (by decide)]
    decide
  have hstep : parseStep lim (connectionPreface ++ y) (.fresh p) =
      headStep lim (connectionPreface ++ y) (.fresh p) := rfl
  have hpos : (ParseState.fresh p).parser.pos = 0 := rfl
  have hph : (ParseState.fresh p).parser.phase = .ppReqLine := rfl
  unfold Rejects
  rw [hstep]
  unfold headStep
  simp only [hpos, hnl, hph, Nat.reduceSub, hcr, hline, ne_eq, not_true, or_false,
    OfNat.ofNat_ne_zero, if_false, if_true]
  split_ifs
  · exact ⟨_, rfl⟩
  · exact ⟨_, rfl⟩

theorem not_preface_of_complete {lim : ParserLimits} {p : RequestParser}
    (h : Http1.parse lim F (.fresh p) = .ok (.prComplete, sR)) :
    F.take (min F.length connectionPreface.length) ≠
      connectionPreface.take (min F.length connectionPreface.length) := by
  intro he
  have hF : F ++ connectionPreface.drop F.length =
      connectionPreface ++ F.drop connectionPreface.length := by
    rcases le_total F.length connectionPreface.length with hl | hl
    · rw [Nat.min_eq_left hl, List.take_length] at he
      rw [List.drop_of_length_le hl, List.append_nil]
      conv_lhs => rw [he, List.length_take, Nat.min_eq_left hl]
      exact List.take_append_drop _ _
    · rw [Nat.min_eq_right hl, List.take_length] at he
      rw [List.drop_of_length_le hl, List.append_nil]
      conv_lhs => rw [← List.take_append_drop connectionPreface.length F, he]
  have hres := parse_append lim F (connectionPreface.drop F.length) (.fresh p)
  rw [h, hF] at hres
  exact not_fails_of_parse hres (by simp) (.inl (preface_rejected lim p _))

theorem open_of_isPreface (hopen : Open B v c) {r : Bytes} (hp : isPreface cfg (c.recv r) = true) :
    Open (B ++ r) v (c.recv r) ∧ (c.recv r).rlen = (B ++ r).length ∧
      (B ++ r).take (min (B ++ r).length connectionPreface.length) =
        connectionPreface.take (min (B ++ r).length connectionPreface.length) := by
  unfold isPreface at hp
  simp only [Bool.and_eq_true, beq_iff_eq] at hp
  obtain ⟨⟨⟨hst, _⟩, _⟩, htake⟩ := hp
  have hph : c.parser.phase = .ppReqLine := by
    unfold RequestParser.started at hst
    cases hx : c.parser.phase <;> simp [recv, hx] at hst ⊢
  cases hopen with
  | head hv hpar hcb hh hns hnd =>
    have hh' := recv_holds hh r
    refine ⟨.head hv hpar hcb hh' hns hnd, hh'.1, ?_⟩
    rw [hh'.1] at htake
    have h := congrArg (List.take (min (B ++ r).length connectionPreface.length)) hh'.2
    rw [List.take_take, Nat.min_eq_left (Nat.min_le_left _ _), htake] at h
    exact h.symm
  | chunked o hd w _ _ _ _ hcp => rw [hph] at hcp; cases hcp
  | plain hd _ _ hb _ _ hpar => rw [hpar] at hph; rw [hb] at hph; cases hph

theorem processRounds_more {n : ℕ} {s' : ParseState}
    (h : Http1.parse cfg.limits (c.rbuf.take c.rlen) ⟨c.parser, c.chunkBody⟩ =
      .ok (.prNeedMore, s')) :
    processRounds cfg app (n + 1) c = .ok (onNeedMore app (c.withParse s')) := by
  unfold processRounds processRound
  simp only [h]

theorem processRounds_complete {n : ℕ} {s' : ParseState}
    (h : Http1.parse cfg.limits (c.rbuf.take c.rlen) ⟨c.parser, c.chunkBody⟩ =
      .ok (.prComplete, s'))
    (hresp : (onComplete cfg app (c.withParse s')).responded = false) :
    processRounds cfg app (n + 1) c =
      .ok { onComplete cfg app (c.withParse s') with awaitingResponse := true } := by
  unfold processRounds processRound
  simp only [h, hresp, Bool.not_false, if_true]

section open_

variable (happ : ∀ p, app.streamRoute p = true ∧ app.registersSink p = true)

include happ

variable (cfg) in
theorem handleRead_open {r x : Bytes} (hF : B ++ r ++ x = F) (hopen : Open B v c)
    (hr : c.Reading) (hf : Framed B v) (hlive : Live cfg.limits F sR v)
    (hpre : F.take (min F.length connectionPreface.length) ≠
      connectionPreface.take (min F.length connectionPreface.length)) :
    ∃ c', handleRead cfg app c r = .ok c' ∧
      ((∃ v', Open (B ++ r) v' c' ∧ c'.Reading ∧ Framed (B ++ r) v' ∧
          Live cfg.limits F sR v' ∧ B ++ r ≠ F) ∨
        Done (B ++ r) sR (c.parser.trailers = []) c' ∧ Framed (B ++ r) sR) := by
  subst hF
  have hstate : ¬ ((c.recv r).h2 = true ∨ (c.recv r).awaitingResponse = true ∨
      (c.recv r).state = .csClosing) := by
    simp [recv, hr.h2, hr.awaitingResponse, hr.state]
  unfold handleRead processInput
  rw [if_neg hstate]
  by_cases hp : isPreface cfg (c.recv r) = true
  · obtain ⟨hopen', hlen, htake⟩ := open_of_isPreface hopen hp
    have hx : ¬ connectionPreface.length ≤ (B ++ r).length := by
      intro hge
      refine hpre ?_
      rw [Nat.min_eq_right (by rw [List.length_append]; omega),
        List.take_append_of_le_length hge, ← Nat.min_eq_right hge]
      exact htake
    rw [if_pos hp, if_pos (by omega)]
    refine ⟨_, rfl, .inl ⟨v, hopen', hr.recv r, hf.append r, hlive, fun heq => hpre ?_⟩⟩
    rw [← heq]
    exact htake
  · rw [if_neg hp]
    rcases hlive.parse with ⟨v', hv', hlive'⟩ | hv'
    · obtain ⟨s', hs', hset⟩ := open_settles cfg happ hopen hr hf r hv' (by simp)
      rw [processRounds_more hs']
      refine ⟨_, rfl, .inl ⟨v', hset.1, hset.2, parse_framed (hf.append r) hv' (by simp), hlive',
        ?_⟩⟩
      intro heq
      have hc := hlive.complete
      rw [← heq, hv'] at hc
      cases hc
    · obtain ⟨s', hs', hset⟩ := open_settles cfg happ hopen hr hf r hv' (by simp)
      rw [processRounds_complete hs' hset.1]
      exact ⟨_, rfl, .inr ⟨hset.2, parse_framed (hf.append r) hv' (by simp)⟩⟩

variable (cfg) in
/-- **The run of a streamed request**: after any reads of a part of `F` the request is open or
done, and it is done once all of `F` was read. -/
theorem handleReads_stage {p : RequestParser}
    (hF : Http1.parse cfg.limits F (.fresh p) = .ok (.prComplete, sR)) (intact : Prop) :
    ∀ (reads : List Bytes) (B x : Bytes) (v : ParseState) (c : Connection),
      B ++ reads.flatten ++ x = F → Open B v c → c.Reading → Framed B v →
      Live cfg.limits F sR v → B ≠ F →
      (intact → ∀ n c', handleReads cfg app c (reads.take n) = .ok c' →
        c'.awaitingResponse = false → c'.parser.trailers = []) →
      ∃ c', handleReads cfg app c reads = .ok c' ∧
        ((∃ v', Open (B ++ reads.flatten) v' c' ∧ Framed (B ++ reads.flatten) v' ∧
            Live cfg.limits F sR v' ∧ B ++ reads.flatten ≠ F) ∨
          Done (B ++ reads.flatten) sR intact c')
  | [], B, x, v, c, hB, hopen, hr, hf, hlive, hne, _ => by
    refine ⟨c, rfl, .inl ⟨v, ?_, ?_, hlive, ?_⟩⟩
    · simpa using hopen
    · simpa using hf
    · simpa using hne
  | r :: rs, B, x, v, c, hB, hopen, hr, hf, hlive, hne, hK => by
    rw [List.flatten_cons, ← List.append_assoc] at hB ⊢
    obtain ⟨c₁, hc1, hst⟩ := handleRead_open cfg happ
      (r := r) (x := rs.flatten ++ x) (by rw [← hB]; simp) hopen hr hf hlive
      (not_preface_of_complete hF)
    have hnext : ∀ rs', handleReads cfg app c (r :: rs') = handleReads cfg app c₁ rs' := by
      intro rs'
      conv_lhs => unfold handleReads
      rw [hc1]
    rw [hnext]
    rcases hst with ⟨v', hopen', hr', hf', hlive', hne'⟩ | ⟨hdone, hf'⟩
    · refine handleReads_stage hF intact rs (B ++ r) x v' c₁ hB hopen' hr' hf' hlive' hne' ?_
      intro hi n c' hc' ha
      refine hK hi (n + 1) c' ?_ ha
      rw [List.take_succ_cons, hnext]
      exact hc'
    · have hdone' : Done (B ++ r) sR intact c₁ :=
        { hdone with trailers := fun hi => hdone.trailers (hK hi 0 c rfl hr.awaitingResponse) }
      have hag := parse_phaseAgrees cfg.limits F (.fresh p)
      rw [hF] at hag
      obtain ⟨c', hc', hd'⟩ := handleReads_done cfg app hag rs hdone' hf'
      exact ⟨c', hc', .inr hd'⟩

end open_

end read

/-! ### Whole requests -/

/-- A connection about to read a request; `buf` is what earlier requests left in its buffer. -/
def Connection.init (p : RequestParser) (buf : Bytes) : Connection :=
  { rbuf := buf, parser := p.reset 0 }

theorem init_open (p : RequestParser) (buf : Bytes) :
    Open [] (.fresh p) (Connection.init p buf) ∧ (Connection.init p buf).Reading :=
  ⟨.head (.inl rfl) rfl rfl ⟨rfl, rfl⟩ rfl rfl, rfl, rfl, rfl, rfl, rfl, by simp [Connection.NoLast,
    Connection.init]⟩

/-- `bytes` is one request: a call on it completes exactly at its end, and none of its trailer
lines is longer than the header limit. -/
structure Request (lim : ParserLimits) (p : RequestParser) (bytes : Bytes) (s : ParseState) :
    Prop where
  complete : parse lim bytes (.fresh p) = .ok (.prComplete, s)
  ends : s.parser.pos = bytes.length
  lines : ∀ t, (parseLoop lim bytes).Reaches (.fresh p) t → ¬ LongTrailerLine lim bytes t

section request

variable {lim : ParserLimits} {p : RequestParser} {R T : Bytes} {s sR t : ParseState} {B : Bytes}

theorem reaches_of_complete (h : parse lim R s = .ok (.prComplete, sR))
    (hr : (parseLoop lim (R ++ T)).Reaches s t) :
    (parseLoop lim R).Reaches s t ∧ parse lim R t = .ok (.prComplete, sR) := by
  induction hr with
  | refl s => exact ⟨.refl s, h⟩
  | @next s s' t hs _ ih =>
    have hstep : parseStep lim R s = .inl s' := by
      have hnf := not_fails_of_parse h (by simp)
      cases parseStep_append lim R T s with
      | same e _ => exact e.symm.trans hs
      | wait hw | partialChunk u hw =>
        have hrun := (parseLoop lim R).run_done (s := s) hw
        rw [show (parseLoop lim R).run s = _ from h] at hrun
        cases hrun
      | tooLong hrej => exact absurd (.inl hrej) hnf
    have hrun := (parseLoop lim R).run_next (s := s) hstep
    obtain ⟨h1, h2⟩ := ih (hrun.symm.trans h)
    exact ⟨.next hstep h1, h2⟩

theorem Request.live (h : Request lim p R sR) (T : Bytes) : Live lim (R ++ T) sR (.fresh p) := by
  have hres := parse_append lim R T (.fresh p)
  rw [h.complete] at hres
  refine ⟨fun t ht hlong => ?_, hres⟩
  obtain ⟨hr, hc⟩ := reaches_of_complete h.complete ht
  exfalso
  obtain ⟨hp, nl, hnl, hgt⟩ := hlong
  cases hf : findByte R t.parser.pos R.length lf with
  | some nl' =>
    have := findByte_append_of_some (b := T) hf (e := (R ++ T).length) (by simp)
    rw [hnl] at this
    cases this
    exact h.lines t hr ⟨hp, nl, hf, hgt⟩
  | none =>
    have hstep : parseStep lim R t = trailerStep lim R t := by unfold parseStep; rw [hp]
    have hnot : ∃ out, parseStep lim R t = .inr out ∧ out ≠ .ok (.prComplete, sR) := by
      rw [hstep]
      unfold trailerStep
      simp only [hf]
      split_ifs
      · exact ⟨_, rfl, by simp [RequestParser.fail]⟩
      · exact ⟨_, rfl, by simp⟩
    obtain ⟨out, ho, hne⟩ := hnot
    exact hne (((parseLoop lim R).run_done (s := t) ho).symm.trans hc)

theorem open_head {F : Bytes} {v : ParseState} (hopen : Open B v c) (hlive : Live lim F sR v)
    (hst : c.reqStreaming = true) :
    c.parser.headers = sR.parser.headers ∧ sR.parser.bodyStart ≤ B.length ∧
      c.rbuf.take sR.parser.bodyStart = B.take sR.parser.bodyStart := by
  cases hopen with
  | head _ _ _ _ hns => rw [hns] at hst; cases hst
  | chunked o hd w hB hh hs _ hph =>
    have hfr := parse_chunkFrame (s := o.lift ⟨c.parser, []⟩) hph hlive.complete (by simp)
    have hbs : sR.parser.bodyStart = hd.length := hfr.bodyStart.trans hs
    refine ⟨hfr.headers.symm, ?_, ?_⟩
    · rw [hbs, hB, List.length_append]; omega
    · rw [hbs, take_head hh.2, hB, List.take_left]
  | plain hd hB hh hph hs _ hpar =>
    have hsame : sR.parser.headers = v.parser.headers ∧
        sR.parser.bodyStart = v.parser.bodyStart := by
      have hc := hlive.complete
      by_cases hlt : F.length - v.parser.bodyStart < v.parser.bodyLen
      · rw [parse_body hph, if_pos hlt] at hc
        cases hc
      · rw [parse_body hph, if_neg hlt] at hc
        cases hc
        exact ⟨rfl, rfl⟩
    refine ⟨by rw [hpar, hsame.1], ?_, ?_⟩
    · rw [hsame.2, hs, hB, List.length_append]; omega
    · have hh' : c.Holds (hd ++ []) := by simpa using hh
      rw [hsame.2, hs, take_head hh'.2, hB, List.take_left]

theorem done_head {intact : Prop} (hd : Done B sR intact c) :
    c.parser.headers = sR.parser.headers ∧ sR.parser.bodyStart ≤ B.length ∧
      c.rbuf.take sR.parser.bodyStart = B.take sR.parser.bodyStart := by
  obtain ⟨hd', w, hh, hhd, hle, _⟩ := hd.window
  refine ⟨hd.headers, hle, ?_⟩
  have := take_head hh.2
  rw [hhd, List.length_take, Nat.min_eq_left hle] at this
  exact this

theorem done_reset {intact : Prop} (hd : Done B sR intact c) :
    c.resetForNextRequest.rbuf.take c.resetForNextRequest.rlen = B.drop sR.parser.pos := by
  obtain ⟨hd', w, hh, _, _, hpos, _, hdrop⟩ := hd.window
  rw [← hdrop]
  obtain ⟨hl, hb⟩ := hh
  unfold resetForNextRequest
  dsimp only
  split_ifs with hle
  · rw [List.take_zero, List.drop_of_length_le (by omega)]
  · have hsp : hd' ++ w = [] ++ ((hd' ++ w).take c.parser.pos ++ (hd' ++ w).drop c.parser.pos) := by
      simp
    rw [hsp] at hb
    have hmove := take_moveMem hb
    have e1 : ((hd' ++ w).take c.parser.pos).length = c.parser.pos := by
      rw [List.length_take]; omega
    have e2 : ((hd' ++ w).drop c.parser.pos).length = c.rlen - c.parser.pos := by
      rw [List.length_drop, hl]
    rw [List.nil_append, e1, e2, if_pos (by omega)] at hmove
    simpa using hmove

end request

section main

variable {cfg : LoopSettings} {app : App} {p : RequestParser} {R : Bytes} {sR : ParseState}

theorem Request.framed {lim : ParserLimits} (h : Request lim p R sR) :
    Framed R sR ∧ sR.parser.phase = .ppComplete := by
  have hag := parse_phaseAgrees lim R (.fresh p)
  rw [h.complete] at hag
  exact ⟨parse_framed (fresh_framed p R) h.complete (by simp), hag⟩

theorem Request.stage (happ : ∀ p, app.streamRoute p = true ∧ app.registersSink p = true)
    (h : Request cfg.limits p R sR) (buf T : Bytes) (intact : Prop) (reads : List Bytes)
    (x : Bytes) (hx : reads.flatten ++ x = R ++ T)
    (hK : intact → ∀ n c, handleReads cfg app (.init p buf) (reads.take n) = .ok c →
      c.awaitingResponse = false → c.parser.trailers = []) :
    ∃ c, handleReads cfg app (.init p buf) reads = .ok c ∧
      ((∃ v, Open reads.flatten v c ∧ Framed reads.flatten v ∧
          Live cfg.limits (R ++ T) sR v ∧ reads.flatten ≠ R ++ T) ∨
        Done reads.flatten sR intact c) := by
  obtain ⟨hopen, hread⟩ := init_open p buf
  have hne : ([] : Bytes) ≠ R ++ T := by
    intro hnil
    have hR : R = [] := (List.append_eq_nil_iff.1 hnil.symm).1
    have := not_preface_of_complete h.complete
    rw [hR] at this
    exact this rfl
  have hst := handleReads_stage cfg happ (h.live T).complete intact reads [] x (.fresh p)
    (.init p buf) hx hopen hread (fresh_framed p []) (h.live T) hne hK
  simpa using hst

/-- **Streaming loses nothing.**  Let `R` be a request, followed by any bytes `T`, and let a
streaming handler register its sink at headers-complete.  However the bytes are cut into reads,
the sink gets exactly the body, its last call and no other is marked `last`, the header slices
keep reading the bytes they were made from, and the reset leaves exactly `T`. -/
theorem streaming_body_lossless (cfg : LoopSettings) (app : App)
    (happ : ∀ p, app.streamRoute p = true ∧ app.registersSink p = true) (p : RequestParser)
    (R : Bytes) (sR : ParseState) (hR : Request cfg.limits p R sR) (buf T : Bytes)
    (reads : List Bytes) (hreads : reads.flatten = R ++ T) :
    (∃ c, handleReads cfg app (.init p buf) reads = .ok c ∧
      (∃ ds x, c.deliveries = ds ++ [(x, true)] ∧ (∀ d ∈ ds, d.2 = false) ∧
        (c.deliveries.map Prod.fst).flatten = requestBody R sR) ∧
      c.resetForNextRequest.rbuf.take c.resetForNextRequest.rlen = T) ∧
    ∀ n, ∃ c, handleReads cfg app (.init p buf) (reads.take n) = .ok c ∧
      (c.reqStreaming = true → c.parser.headers = sR.parser.headers ∧
        ∀ h ∈ c.parser.headers, h.name c.rbuf = h.name R ∧ h.val c.rbuf = h.val R) := by
  obtain ⟨hf, hph⟩ := hR.framed
  constructor
  · obtain ⟨c, hc, ⟨v, _, _, _, hne⟩ | hdone⟩ := hR.stage happ buf T False reads []
      (by rw [hreads, List.append_nil]) False.elim
    · exact absurd hreads hne
    · rw [hreads] at hdone
      obtain ⟨ds, x, h1, h2, h3⟩ := hdone.deliveries
      refine ⟨c, hc, ⟨ds, x, h1, h2, ?_⟩, ?_⟩
      · rw [h1, ← requestBody_append hf hph (T := T), ← h3]
        simp
      · rw [done_reset hdone, hR.ends, List.drop_left]
  · intro n
    have hx : (reads.take n).flatten ++ (reads.drop n).flatten = R ++ T := by
      rw [← List.flatten_append, List.take_append_drop, hreads]
    obtain ⟨c, hc, hst⟩ := hR.stage happ buf T False (reads.take n) _ hx False.elim
    refine ⟨c, hc, fun hstream => ?_⟩
    have hhead : c.parser.headers = sR.parser.headers ∧
        sR.parser.bodyStart ≤ (reads.take n).flatten.length ∧
        c.rbuf.take sR.parser.bodyStart = (reads.take n).flatten.take sR.parser.bodyStart := by
      rcases hst with ⟨v, hopen, _, hlive, _⟩ | hdone
      · exact open_head hopen hlive hstream
      · exact done_head hdone
    obtain ⟨h1, h2, h3⟩ := hhead
    have hfr := hf.2
    rw [hph] at hfr
    have hle : sR.parser.bodyStart ≤ R.length := hfr.2.1.trans hf.1
    have hsame : c.rbuf.take sR.parser.bodyStart = R.take sR.parser.bodyStart := by
      have := congrArg (List.take sR.parser.bodyStart) hx
      rw [List.take_append_of_le_length h2, List.take_append_of_le_length hle] at this
      rw [h3, this]
    refine ⟨h1, fun h hm => ?_⟩
    rw [h1] at hm
    obtain ⟨_, w2, _, w4⟩ := hfr.1 h hm
    unfold HeaderSlice.name HeaderSlice.val
    rw [← slice_take c.rbuf w2, ← slice_take c.rbuf w4, hsame, slice_take R w2, slice_take R w4]
    exact ⟨rfl, rfl⟩

/-- An application whose every route streams into a sink. -/
def sinkApp : App := ⟨fun _ => true, fun _ => true, false, fun _ => false⟩

theorem chunkedRequest_isRequest : ∃ s, Request ⟨8192, 100, 1024⟩ {} chunkedRequest s ∧
    requestBody chunkedRequest s = ascii "ab" ∧
    trailerFields chunkedRequest s = [(ascii "X", ascii "y")] := by
  obtain ⟨s, hs, hpos, hbody⟩ : ∃ s, parse ⟨8192, 100, 1024⟩ chunkedRequest (.fresh {}) =
      .ok (.prComplete, s) ∧ s.parser.pos = chunkedRequest.length ∧
      requestBody chunkedRequest s = ascii "ab" ∧
      trailerFields chunkedRequest s = [(ascii "X", ascii "y")] := by
    refine ⟨_, rfl, ?_, ?_, ?_⟩ <;> decide +kernel
  exact ⟨s, ⟨hs, hpos, fun t _ => not_longTrailerLine (by decide +kernel)⟩, hbody⟩

theorem streaming_body_lossless_chunkedRequest :
    ∃ s c, Request ⟨8192, 100, 1024⟩ {} chunkedRequest s ∧
      handleReads { limits := ⟨8192, 100, 1024⟩ } sinkApp (.init {} [])
        [chunkedRequest.take 56, chunkedRequest.drop 56] = .ok c ∧
      (c.deliveries.map Prod.fst).flatten = ascii "ab" := by
  obtain ⟨s, hR, hbody, _⟩ := chunkedRequest_isRequest
  obtain ⟨⟨c, hc, ⟨_, _, _, _, hb⟩, _⟩, _⟩ :=
    streaming_body_lossless { limits := ⟨8192, 100, 1024⟩ } sinkApp (fun _ => ⟨rfl, rfl⟩) {}
      chunkedRequest s hR [] [] [chunkedRequest.take 56, chunkedRequest.drop 56] (by simp)
  exact ⟨s, c, hR, hc, hb.trans hbody⟩

/-- The sink of a request with an over-long trailer line gets its last call when the request
arrives in one read, and never when the line feed of that line arrives in a second one. -/
theorem long_trailer_request_not_delivered :
    ParseOutcome.verdict (parse ⟨52, 100, 1024⟩ longTrailerRequest (.fresh {})) =
        .ok .prComplete ∧
      (handleReads { limits := ⟨52, 100, 1024⟩ } sinkApp (.init {} []) [longTrailerRequest]).map
        Connection.deliveries = .ok [([], true)] ∧
      (handleReads { limits := ⟨52, 100, 1024⟩ } sinkApp (.init {} [])
        [longTrailerRequest.take 108, longTrailerRequest.drop 108]).map
          Connection.deliveries = .ok [] := by
  refine ⟨?_, ?_, ?_⟩ <;> decide +kernel

/-- No read ends between a kept trailer line and the end of the trailer section: whenever a
read leaves the request incomplete, no trailer is recorded yet. -/
def TrailersUncut (cfg : LoopSettings) (app : App) (c₀ : Connection) (reads : List Bytes) : Prop :=
  ∀ n c, handleReads cfg app c₀ (reads.take n) = .ok c → c.awaitingResponse = false →
    c.parser.trailers = []

/-- **When `req.trailers` can be trusted.**  In every run whose reads do not cut the trailer
section behind a kept trailer line, the fields read through the trailer slices of the completed
request are its trailer fields. -/
theorem streaming_trailers_of_uncut (cfg : LoopSettings) (app : App)
    (happ : ∀ p, app.streamRoute p = true ∧ app.registersSink p = true) (p : RequestParser)
    (R : Bytes) (sR : ParseState) (hR : Request cfg.limits p R sR) (buf T : Bytes)
    (reads : List Bytes) (hreads : reads.flatten = R ++ T)
    (huncut : TrailersUncut cfg app (.init p buf) reads) :
    ∃ c, handleReads cfg app (.init p buf) reads = .ok c ∧ c.awaitingResponse = true ∧
      c.trailers = trailerFields R sR := by
  obtain ⟨hf, hph⟩ := hR.framed
  obtain ⟨c, hc, ⟨v, _, _, _, hne⟩ | hdone⟩ := hR.stage happ buf T True reads []
    (by rw [hreads, List.append_nil]) fun _ => huncut
  · exact absurd hreads hne
  · rw [hreads] at hdone
    refine ⟨c, hc, hdone.awaiting, ?_⟩
    rw [(hdone.trailers trivial).1, trailerFields_append hf hph]

/-- A request cut in its body and inside its trailer line. -/
def cutRequest : List Bytes :=
  [chunkedRequest.take 56, slice chunkedRequest 56 64, chunkedRequest.drop 64]

theorem streaming_trailers_of_uncut_cutRequest :
    ∃ s c, Request ⟨8192, 100, 1024⟩ {} chunkedRequest s ∧
      TrailersUncut { limits := ⟨8192, 100, 1024⟩ } sinkApp (.init {} []) cutRequest ∧
      handleReads { limits := ⟨8192, 100, 1024⟩ } sinkApp (.init {} []) cutRequest = .ok c ∧
      c.trailers = [(ascii "X", ascii "y")] := by
  obtain ⟨s, hR, _, ht⟩ := chunkedRequest_isRequest
  have huncut : TrailersUncut { limits := ⟨8192, 100, 1024⟩ } sinkApp (.init {} [])
      cutRequest := by
    have h : ∀ n ≤ 3, (handleReads { limits := ⟨8192, 100, 1024⟩ } sinkApp (.init {} [])
        (cutRequest.take n)).map (fun c => c.awaitingResponse || c.parser.trailers.isEmpty) =
          .ok true := by decide +kernel
    intro n c hc ha
    have hn := h (min n 3) (min_le_right n 3)
    rw [← show cutRequest.length = 3 from rfl, ← List.take_eq_take_min, hc] at hn
    simpa [Except.map, ha] using hn
  obtain ⟨c, hc, _, htr⟩ :=
    streaming_trailers_of_uncut { limits := ⟨8192, 100, 1024⟩ } sinkApp (fun _ => ⟨rfl, rfl⟩) {}
      chunkedRequest s hR [] [] cutRequest (by decide +kernel) huncut
  exact ⟨s, c, hR, huncut, hc, htr.trans ht⟩

/-- Cut before and behind the only trailer line, the trailer reads as the line end that was
written over it. -/
theorem streaming_trailer_overwritten :
    (handleReads { limits := ⟨8192, 100, 1024⟩ } sinkApp (.init {} []) [chunkedRequest]).map
        Connection.trailers = .ok [(ascii "X", ascii "y")] ∧
      (handleReads { limits := ⟨8192, 100, 1024⟩ } sinkApp (.init {} [])
        [slice chunkedRequest 0 62, slice chunkedRequest 62 67, chunkedRequest.drop 67]).map
          Connection.trailers = .ok [(ascii "\r", ascii "y")] := by
  constructor <;> decide +kernel

end main

end Http1

end Vortex
