import Vortex.Http1.Streaming

/-! # The end of a body on an HTTP/1 connection

A `Session` is a connection with the point at which its present body sink was registered.  Between
reads and rounds of `processInput` the application answers, registers sinks and resumes the
pipeline (`resumeAfterRespond`), and the loop closes the connection (`closeConn`), in any order.

The last delivery of a body leaves the sink registered until the request is answered and
`resetForNextRequest` clears it, and `closeConn` calls whatever sink is registered.  So a sink is
told the end once as long as no connection is closed on a sink that was told (`ClosesUntold`).

A response that the handler or the sink makes inside a round is an argument of the round: the feed
looks at neither of the fields it sets. -/

namespace Vortex.Http1

variable {c : Connection}

/-! ### Sessions -/

/-- What the application does to the response: is it begun, is it still being streamed, and is the
connection to be closed behind it. -/
structure Answer where
  responded : Bool := false
  respStreaming : Bool := false
  closes : Bool := false

namespace Connection

def answer (c : Connection) (a : Answer) : Connection :=
  { c with
    responded := c.responded || a.responded, closeAfterFlush := c.closeAfterFlush || a.closes }

/-- `req.onBody`. -/
def onBody (c : Connection) (manualAck : Bool) : Connection :=
  { c with onBodyCb := true, bodyManualAck := manualAck }

/-- What `processInput` does when the handler of a complete request has returned. -/
def settle (c : Connection) (a : Answer) : Connection :=
  if !c.responded then { c with awaitingResponse := true }
  else if a.respStreaming then { c with awaitingResponse := true }
  else if c.closeAfterFlush then { c with state := .csClosing }
  else c.resetForNextRequest

/-- Go on after a response that was produced outside the dispatch. -/
def resumeAfterRespond (c : Connection) (a : Answer) : Connection :=
  if c.closeAfterFlush then { c with state := .csClosing }
  else if a.respStreaming then { c with state := .csClosing }
  else c.resetForNextRequest

/-- Close the connection: a sink that is still registered is called with an empty last chunk. -/
def closeConn (c : Connection) : Connection :=
  let c := if c.onBodyCb then { c with onBodyCb := false }.deliver [] true else c
  { c with state := .csFree }

/-- The loop of `processInput` may take a round. -/
def Ready (c : Connection) : Prop :=
  c.h2 = false ∧ c.awaitingResponse = false ∧ c.state = .csActive

instance (c : Connection) : Decidable c.Ready := inferInstanceAs (Decidable (_ ∧ _ ∧ _))

end Connection

section Sessions

variable (cfg : LoopSettings) (app : App)

/-- One round of the loop of `processInput`, with the response made in it. -/
def answeredRound (a : Answer) (c : Connection) : Except Defect Connection :=
  match parse cfg.limits (c.rbuf.take c.rlen) ⟨c.parser, c.chunkBody⟩ with
  | .error d => .error d
  | .ok (res, s) =>
      let c := c.withParse s
      match res with
      | .prNeedMore => .ok ((onNeedMore app c).answer a)
      | .prError => .ok c.respondError
      | .prComplete => .ok (((onComplete cfg app c).answer a).settle a)

/-- A connection, and the number of sink calls when its sink was registered. -/
structure Session where
  conn : Connection := {}
  mark : ℕ := 0

/-- The calls to the sink that was registered last. -/
def Session.calls (s : Session) : List (Bytes × Bool) := s.conn.deliveries.drop s.mark

/-- The sink was told the end of its body. -/
def Session.told (s : Session) : Bool := s.calls.any (·.2)

/-- What happens to a connection. -/
inductive Happening where
  | read (r : Bytes)
  | round (a : Answer)
  | preface
  | answer (a : Answer)
  | onBody (manualAck : Bool)
  | resume (a : Answer)
  | close

/-- One happening; a round dispatches a request that is not dispatched yet, and with it its
sink. -/
def Session.step (s : Session) : Happening → Except Defect Session
  | .read r => .ok { s with conn := s.conn.recv r }
  | .round a =>
      if s.conn.Ready then
        match answeredRound cfg app a s.conn with
        | .error d => .error d
        | .ok c => .ok ⟨c, if s.conn.reqStreaming then s.mark else s.conn.deliveries.length⟩
      else .ok s
  | .preface => .ok { s with conn := { s.conn with h2 := true } }
  | .answer a => .ok { s with conn := s.conn.answer a }
  | .onBody manualAck => .ok ⟨s.conn.onBody manualAck, s.conn.deliveries.length⟩
  | .resume a => .ok { s with conn := s.conn.resumeAfterRespond a }
  | .close => .ok { s with conn := s.conn.closeConn }

/-- The sessions that happenings permitted by `ok` lead to. -/
inductive Session.Reachable (ok : Happening → Session → Prop) : Session → Prop
  | start : Reachable ok {}
  | next {s s' : Session} {e : Happening} (h : Reachable ok s) (hk : ok e s)
      (hs : s.step cfg app e = .ok s') : Reachable ok s'

end Sessions

/-- No connection is closed on a sink that was told the end of its body. -/
def ClosesUntold (e : Happening) (s : Session) : Prop :=
  e = .close → s.conn.onBodyCb = true → s.told = false

/-- Only the last call to a sink tells it the end. -/
def Session.ToldOnce (s : Session) : Prop :=
  ∀ before d after, s.calls = before ++ d :: after → ∀ d' ∈ before, d'.2 = false

/-! ### Rounds -/

section Rounds

variable (cfg : LoopSettings) (app : App) (c : Connection)

theorem processRound_answered :
    (processRound cfg app c).map (Sum.elim id id) = answeredRound cfg app {} c := by
  have hans : ∀ c : Connection, c.answer {} = c := by
    intro c
    cases c
    simp [Connection.answer]
  unfold processRound answeredRound
  cases hp : parse cfg.limits (c.rbuf.take c.rlen) ⟨c.parser, c.chunkBody⟩ with
  | error d => rfl
  | ok r =>
    obtain ⟨res, s⟩ := r
    cases res with
    | prNeedMore => exact congrArg Except.ok (hans _).symm
    | prError => rfl
    | prComplete =>
      simp only [hans, Connection.settle, Bool.false_eq_true, if_false]
      split_ifs <;> rfl

end Rounds

/-! ### Where the parser stands -/

/-- The parser's position in a buffer of `n` bytes, and the framing its phase stands for. -/
structure Placed (n : ℕ) (p : RequestParser) : Prop where
  pos : p.pos ≤ n
  plain : p.phase = .ppBody → p.bodyStart = p.pos
  chunked : p.inBody = true → p.phase ≠ .ppBody → p.chunked = true

section Placed

variable {lim : ParserLimits} {buf : Bytes} {s s' : ParseState} {n : ℕ} {p : RequestParser}

theorem Placed.of_out (hpos : p.pos ≤ n) (hin : p.inBody = false) : Placed n p where
  pos := hpos
  plain h := by
    unfold RequestParser.inBody at hin
    rw [h] at hin
    cases hin
  chunked h := absurd (h.symm.trans hin) (by decide)

theorem Placed.of_chunked (hpos : p.pos ≤ n) (hph : p.phase ≠ .ppBody) (hc : p.chunked = true) :
    Placed n p :=
  ⟨hpos, fun h => absurd h hph, fun _ _ => hc⟩

theorem Placed.mono {m : ℕ} (h : Placed n p) (hm : n ≤ m) : Placed m p :=
  ⟨h.pos.trans hm, h.plain, h.chunked⟩

theorem parseStep_placed (h : Placed buf.length s.parser) :
    Advances (fun s => Placed buf.length s.parser) (parseStep lim buf s) := by
  have hpos := h.pos
  have hi := parseStep_iteration lim buf s
  have hchunked : s.parser.inBody = true → s.parser.phase ≠ .ppBody → s.parser.chunked = true :=
    h.chunked
  generalize parseStep lim buf s = st at hi
  cases hi with
  | failed | lineFailed | raised | stuck => trivial
  | waits | ended => exact h
  | blank hf hp =>
    exact Placed.of_out (findByte_lt hf).2.2 (by simp [RequestParser.inBody, hp])
  | requestLine hf hp hr =>
    exact Placed.of_out (findByte_lt hf).2.2 (by simp [RequestParser.inBody, (parseReqLine_ok hr).1])
  | headerLine hf hp hr =>
    obtain ⟨hs, -, he, -⟩ := parseHeaderLine_ok hr
    exact Placed.of_out (findByte_lt hf).2.2 (by simp [RequestParser.inBody, he, hp])
  | chunkedBody hf hp hc => exact Placed.of_chunked (findByte_lt hf).2.2 (by simp) hc
  | plainBody hf => exact ⟨(findByte_lt hf).2.2, fun _ => rfl, fun _ hb => absurd rfl hb⟩
  | noBody hf | trailersEnd _ hf =>
    exact Placed.of_out (findByte_lt hf).2.2 (by simp [RequestParser.inBody])
  | body hp hl =>
    have hb := h.plain hp
    exact Placed.of_out (by simp only; omega) (by simp [RequestParser.inBody])
  | @size nl size _ hp hf =>
    refine Placed.of_chunked (findByte_lt hf).2.2 ?_ (hchunked (by simp [RequestParser.inBody, hp])
      (by simp [hp]))
    by_cases hs : size = 0 <;> simp [hs]
  | chunk hp | part hp | crlf hp =>
    refine Placed.of_chunked ?_ (by simp [ParseState.takeChunk, hp])
      (hchunked (by simp [RequestParser.inBody, hp]) (by simp [hp]))
    simp only [ParseState.takeChunk]
    omega
  | trailer hp hf =>
    exact Placed.of_chunked (findByte_lt hf).2.2 (by simp [hp])
      (hchunked (by simp [RequestParser.inBody, hp]) (by simp [hp]))

theorem parse_placed {r : ParseResult} (h : Placed buf.length s.parser)
    (hp : parse lim buf s = .ok (r, s')) (hr : r ≠ .prError) : Placed buf.length s'.parser :=
  parse_advances (fun _ => parseStep_placed) h hp hr

end Placed

/-! ### Feeding -/

namespace Connection

section Feeding

variable {c : Connection} {last : Bool}

/-- The parser and the bytes in use fit the buffer. -/
structure Fits (c : Connection) : Prop where
  rlen : c.rlen ≤ c.rbuf.length
  placed : Placed c.rlen c.parser

/-- What a feed does, with the calls it makes. -/
structure Feeds (c c' : Connection) (last : Bool) (ds : List (Bytes × Bool)) : Prop where
  deliveries : c'.deliveries = c.deliveries ++ ds
  one : ds.length ≤ 1
  registered : c.onBodyCb = false → ds = []
  more : last = false →
    (c.parser.chunked = false → c.rlen - c.parser.bodyStart < c.parser.bodyLen) →
      ∀ d ∈ ds, d.2 = false
  same : SameRequest c c'
  fits : c'.Fits

theorem length_moved {buf : Bytes} {dst src n : ℕ} (hd : dst ≤ src) (hs : src + n ≤ buf.length)
    (move : Prop) [Decidable move] :
    (if move then moveMem buf dst src n else buf).length = buf.length := by
  unfold moveMem writeAt
  split_ifs
  · rw [List.length_append, List.length_append, List.length_take, List.length_drop, length_slice]
    omega
  · rfl

theorem feedDecoded_feeds (h : c.Fits) (hcb : c.onBodyCb = true) (last : Bool) :
    ∃ ds, Feeds c (c.feedDecoded last) last ds ∧ (c.feedDecoded last).parser = c.parser ∧
      (c.feedDecoded last).rlen = c.rlen ∧ (c.feedDecoded last).rbuf = c.rbuf := by
  unfold feedDecoded
  dsimp only
  split_ifs with h0 h1
  · rw [oweAck_eq]
    refine ⟨[(slice c.chunkBody c.bodyFed c.chunkBody.length, last)], ⟨rfl, le_rfl, ?_, ?_,
      ⟨rfl, rfl, rfl, rfl, rfl, rfl⟩, ⟨h.rlen, h.placed⟩⟩, rfl, rfl, rfl⟩
    · exact fun hn => absurd (hcb.symm.trans hn) (by decide)
    · intro hl _ d hd
      rw [List.mem_singleton.mp hd]
      exact hl
  · refine ⟨[([], true)], ⟨rfl, le_rfl, ?_, ?_, ⟨rfl, rfl, rfl, rfl, rfl, rfl⟩,
      ⟨h.rlen, h.placed⟩⟩, rfl, rfl, rfl⟩
    · exact fun hn => absurd (hcb.symm.trans hn) (by decide)
    · exact fun hl => absurd (h1.symm.trans hl) (by decide)
  · exact ⟨[], ⟨by simp, by simp, fun _ => rfl, by simp, ⟨rfl, rfl, rfl, rfl, rfl, rfl⟩, h⟩, rfl,
      rfl, rfl⟩

theorem compactRaw_fits (h : c.Fits) (hlt : c.parser.bodyStart < c.parser.pos) :
    c.compactRaw.Fits := by
  have hpos := h.placed.pos
  have hlen := h.rlen
  refine ⟨?_, ⟨?_, fun _ => rfl, h.placed.chunked⟩⟩
  · have hle : c.parser.bodyStart + (c.rlen - c.parser.pos) ≤ c.rbuf.length := by omega
    exact hle.trans (length_moved hlt.le (by omega) _).ge
  · simp only [compactRaw]
    omega

theorem feedPlain_feeds (h : c.Fits) (hcb : c.onBodyCb = true) (hc : c.parser.chunked = false)
    (last : Bool) : ∃ ds, Feeds c (c.feedPlain last) last ds := by
  have hlen := h.rlen
  unfold feedPlain
  by_cases h0 : min (c.rlen - c.parser.bodyStart) c.parser.bodyLen = 0
  · rw [if_pos h0]
    split_ifs with h1
    · refine ⟨[([], true)], rfl, le_rfl, ?_, ?_, ⟨rfl, rfl, rfl, rfl, rfl, rfl⟩,
        ⟨h.rlen, h.placed⟩⟩
      · exact fun hn => absurd (hcb.symm.trans hn) (by decide)
      · intro hl
        simp [hl] at h1
    · exact ⟨[], by simp, by simp, fun _ => rfl, by simp, ⟨rfl, rfl, rfl, rfl, rfl, rfl⟩, h⟩
  · rw [if_neg h0]
    rw [oweAck_eq]
    refine ⟨[(_, _)], rfl, le_rfl, ?_, ?_, ⟨rfl, rfl, rfl, rfl, rfl, rfl⟩, ⟨?_, ?_⟩⟩
    · exact fun hn => absurd (hcb.symm.trans hn) (by decide)
    · intro hl hmore d hd
      rw [List.mem_singleton.mp hd]
      have := hmore hc
      simp only [beq_eq_false_iff_ne, ne_eq]
      omega
    · have hle : c.parser.bodyStart + (c.rlen - (c.parser.bodyStart +
          min (c.rlen - c.parser.bodyStart) c.parser.bodyLen)) ≤ c.rbuf.length := by omega
      have hsrc : c.parser.bodyStart + min (c.rlen - c.parser.bodyStart) c.parser.bodyLen +
          (c.rlen - (c.parser.bodyStart + min (c.rlen - c.parser.bodyStart) c.parser.bodyLen)) ≤
          c.rbuf.length := by omega
      exact hle.trans (length_moved (Nat.le_add_right _ _) hsrc _).ge
    · refine ⟨?_, fun _ => rfl, h.placed.chunked⟩
      simp only [deliver]
      omega

/-- **A feed calls the sink at most once.** -/
theorem feedBody_feeds (h : c.Fits) (last : Bool) : ∃ ds, Feeds c (c.feedBody last) last ds := by
  unfold feedBody
  cases hcb : c.onBodyCb with
  | false =>
    exact ⟨[], by simp, by simp, fun _ => rfl, by simp, ⟨rfl, rfl, rfl, rfl, rfl, rfl⟩, h⟩
  | true =>
    simp only [Bool.not_true, Bool.false_eq_true, if_false]
    cases hc : c.parser.chunked with
    | false => exact feedPlain_feeds h hcb hc last
    | true =>
      obtain ⟨ds, hf, hpar, hl, hb⟩ := feedDecoded_feeds h hcb last
      simp only [if_true]
      split_ifs with hlt
      · refine ⟨ds, hf.deliveries, hf.one, hf.registered, hf.more, ?_, ?_⟩
        · exact ⟨hf.same.state, hf.same.h2, hf.same.responded, hf.same.reqStreaming,
            hf.same.onBodyCb, hf.same.awaitingResponse⟩
        · exact compactRaw_fits hf.fits hlt.2
      · exact ⟨ds, hf⟩

end Feeding

end Connection

variable {c' : Connection} {ds : List (Bytes × Bool)} {ok : Happening → Session → Prop}

section Dispatch

open Connection

variable {c : Connection}

/-- What a dispatch and a feed do together: the sink of a request that was dispatched before is
still the same. -/
structure Dispatches (c c' : Connection) (ds : List (Bytes × Bool)) : Prop where
  deliveries : c'.deliveries = c.deliveries ++ ds
  one : ds.length ≤ 1
  registered : c.reqStreaming = true → c.onBodyCb = false → ds = [] ∧ c'.onBodyCb = false
  fits : c'.Fits
  state : c'.state = c.state

theorem Dispatches.none (hd : c'.deliveries = c.deliveries) (hf : c'.Fits) (hs : c'.state = c.state)
    (hcb : c.reqStreaming = true → c'.onBodyCb = c.onBodyCb) : Dispatches c c' [] :=
  ⟨by rw [hd, List.append_nil], by simp, fun h1 h2 => ⟨rfl, (hcb h1).trans h2⟩, hf, hs⟩

theorem Connection.Feeds.dispatches {c0 : Connection} {last : Bool} (h : Feeds c0 c' last ds)
    (hd : c0.deliveries = c.deliveries) (hs : c0.state = c.state)
    (hcb : c.reqStreaming = true → c0.onBodyCb = c.onBodyCb) : Dispatches c c' ds := by
  refine ⟨by rw [h.deliveries, hd], h.one, fun h1 h2 => ?_, h.fits, h.same.state.trans hs⟩
  have hoff : c0.onBodyCb = false := (hcb h1).trans h2
  exact ⟨h.registered hoff, h.same.onBodyCb.trans hoff⟩

theorem startStreamingDispatch_eq (app : App) (c : Connection) : ∃ r f u o m,
    c.startStreamingDispatch app = { c with
      reqStreaming := r, bodyFed := f, bodyUnacked := u, onBodyCb := o, bodyManualAck := m } := by
  unfold startStreamingDispatch
  dsimp only
  split_ifs <;> exact ⟨_, _, _, _, _, rfl⟩

theorem onNeedMore_dispatches (app : App) (h : c.Fits) (hmore : c.parser.inBody = true →
      c.parser.chunked = false → c.rlen - c.parser.bodyStart < c.parser.bodyLen) :
    ∃ ds, Dispatches c (onNeedMore app c) ds ∧ ∀ d ∈ ds, d.2 = false := by
  obtain ⟨r, f, u, o, m, e⟩ := startStreamingDispatch_eq app c
  unfold onNeedMore
  rw [e]
  dsimp only
  split_ifs with hin hnew
  · obtain ⟨ds, hf⟩ := @feedBody_feeds { c with
      reqStreaming := r, bodyFed := f, bodyUnacked := u, onBodyCb := o, bodyManualAck := m }
      ⟨h.rlen, h.placed⟩ false
    refine ⟨ds, hf.dispatches rfl rfl (fun hr => ?_), hf.more rfl (hmore hin)⟩
    simp [hr] at hnew
  · refine ⟨[], .none rfl ⟨h.rlen, h.placed⟩ rfl (fun hr => ?_), by simp⟩
    simp [hr] at hnew
  · obtain ⟨ds, hf⟩ := feedBody_feeds h false
    exact ⟨ds, hf.dispatches rfl rfl (fun _ => rfl), hf.more rfl (hmore hin)⟩
  · exact ⟨[], .none rfl h rfl (fun _ => rfl), by simp⟩
  · exact ⟨[], .none rfl h rfl (fun _ => rfl), by simp⟩

theorem onComplete_dispatches (cfg : LoopSettings) (app : App) (h : c.Fits) :
    ∃ ds, Dispatches c (onComplete cfg app c) ds := by
  obtain ⟨ka, k, hc⟩ := countRequest_counted cfg c
  unfold onComplete
  generalize countRequest cfg c = d at hc
  obtain ⟨r, f, u, o, m, e⟩ := startStreamingDispatch_eq app d
  have hfit : d.Fits := by
    rw [hc]
    exact ⟨h.rlen, ⟨h.placed.pos, h.placed.plain, h.placed.chunked⟩⟩
  have hsame : d.deliveries = c.deliveries ∧ d.state = c.state ∧ d.reqStreaming = c.reqStreaming ∧
      d.onBodyCb = c.onBodyCb := by
    rw [hc]
    exact ⟨rfl, rfl, rfl, rfl⟩
  obtain ⟨e1, e2, e3, e4⟩ := hsame
  dsimp only
  rw [e]
  split_ifs with hnew
  · obtain ⟨ds, hf⟩ := @feedBody_feeds { d with
      reqStreaming := r, bodyFed := f, bodyUnacked := u, onBodyCb := o, bodyManualAck := m }
      ⟨hfit.rlen, hfit.placed⟩ true
    refine ⟨ds, hf.dispatches e1 e2 (fun hr => ?_)⟩
    simp [e3, hr] at hnew
  · refine ⟨[], .none e1 ⟨hfit.rlen, hfit.placed⟩ e2 (fun hr => ?_)⟩
    simp [e3, hr] at hnew
  · obtain ⟨ds, hf⟩ := feedBody_feeds hfit true
    exact ⟨ds, hf.dispatches e1 e2 (fun _ => e4)⟩
  · exact ⟨[], .none e1 ⟨hfit.rlen, hfit.placed⟩ e2 (fun _ => e4)⟩

end Dispatch

/-! ### Sinks over runs -/

section Runs

variable {cfg : LoopSettings} {app : App} {s s' : Session}

open Connection

/-- What holds of a session. -/
structure Session.Sound (s : Session) : Prop where
  mark : s.mark ≤ s.conn.deliveries.length
  rlen : s.conn.rlen ≤ s.conn.rbuf.length
  placed : s.conn.state = .csActive → Placed s.conn.rlen s.conn.parser
  once : s.ToldOnce
  /-- A registered sink that was told the end belongs to a request that waits for its response,
  or to a connection on its way out. -/
  kept : s.conn.onBodyCb = true → s.told = true →
    s.conn.awaitingResponse = true ∨ s.conn.state ≠ .csActive

theorem told_eq_false : s.told = false ↔ ∀ d ∈ s.calls, d.2 = false := by
  simp [Session.told]

theorem toldOnce_of_calls {told : List (Bytes × Bool)} (hc : s.calls = told ++ ds)
    (h : ∀ d ∈ told, d.2 = false) (hone : ds.length ≤ 1) : s.ToldOnce := by
  intro before d after hs d' hd'
  rw [hc] at hs
  rcases List.append_eq_append_iff.mp hs with ⟨l, hl, hds⟩ | ⟨l, hl, hds⟩
  · have hnil : l = [] := by
      rw [hds, List.length_append, List.length_cons] at hone
      exact List.length_eq_zero_iff.mp (by omega)
    rw [hl, hnil, List.append_nil] at hd'
    exact h d' hd'
  · refine h d' ?_
    rw [hl]
    exact List.mem_append_left _ hd'

theorem calls_append (hc : c.deliveries = s.conn.deliveries ++ ds)
    (hm : s.mark ≤ s.conn.deliveries.length) : (Session.mk c s.mark).calls = s.calls ++ ds := by
  unfold Session.calls
  rw [hc, List.drop_append_of_le_length hm]

theorem Session.Sound.round (h : s.Sound) (hr : s.conn.Ready)
    (hd : c.deliveries = s.conn.deliveries ++ ds) (hone : ds.length ≤ 1)
    (hcb : s.conn.reqStreaming = true → s.conn.onBodyCb = false → ds = [] ∧ c.onBodyCb = false)
    (hrlen : c.rlen ≤ c.rbuf.length) (hpl : c.state = .csActive → Placed c.rlen c.parser)
    (hend : (∀ d ∈ ds, d.2 = false) ∨
      (c.onBodyCb = true → c.awaitingResponse = true ∨ c.state ≠ .csActive)) :
    (Session.mk c (if s.conn.reqStreaming then s.mark else s.conn.deliveries.length)).Sound := by
  generalize hm : (if s.conn.reqStreaming then s.mark else s.conn.deliveries.length) = mark
  have hmark : mark ≤ c.deliveries.length := by
    have := h.mark
    rw [hd, List.length_append]
    split_ifs at hm <;> omega
  -- the sink gets the calls of the round and was not told the end before, or it gets none
  have hnew : (∃ told, (Session.mk c mark).calls = told ++ ds ∧ ∀ d ∈ told, d.2 = false) ∨
      (Session.mk c mark).ToldOnce ∧ c.onBodyCb = false := by
    cases hs : s.conn.reqStreaming with
    | false =>
      rw [hs, if_neg Bool.false_ne_true] at hm
      subst hm
      refine .inl ⟨[], ?_, by simp⟩
      unfold Session.calls
      rw [hd, List.drop_left, List.nil_append]
    | true =>
      rw [hs, if_pos rfl] at hm
      subst hm
      have hcalls := calls_append hd h.mark
      cases hon : s.conn.onBodyCb with
      | false =>
        obtain ⟨rfl, hoff⟩ := hcb hs hon
        rw [List.append_nil] at hcalls
        exact .inr ⟨fun before d after he => h.once before d after (hcalls ▸ he), hoff⟩
      | true =>
        refine .inl ⟨_, hcalls, told_eq_false.mp ?_⟩
        by_contra ht
        rcases h.kept hon (by simpa using ht) with hw | hst
        · exact absurd (hw.symm.trans hr.2.1) (by decide)
        · exact hst hr.2.2
  rcases hnew with ⟨told, hcalls, hno⟩ | ⟨honce, hoff⟩
  · refine ⟨hmark, hrlen, hpl, toldOnce_of_calls hcalls hno hone, fun hc ht => ?_⟩
    refine hend.elim (fun hds => ?_) (· hc)
    obtain ⟨d, hm, hd⟩ := List.any_eq_true.mp ht
    rw [hcalls] at hm
    exact absurd (((List.mem_append.mp hm).elim (hno d) (hds d)).symm.trans hd) (by decide)
  · exact ⟨hmark, hrlen, hpl, honce, fun hc => absurd (hc.symm.trans hoff) (by decide)⟩

theorem settle_kept (a : Answer) (hc : (c.settle a).onBodyCb = true) :
    (c.settle a).awaitingResponse = true ∨ (c.settle a).state ≠ .csActive := by
  unfold settle at hc ⊢
  split_ifs at hc ⊢
  · exact .inl rfl
  · exact .inl rfl
  · exact .inr (by simp)
  · cases hc

theorem fits_reset (h : c.rlen ≤ c.rbuf.length) : c.resetForNextRequest.Fits := by
  refine ⟨?_, .of_out (Nat.zero_le _) rfl⟩
  have hle : (if c.rlen ≤ c.parser.pos then 0 else c.rlen - c.parser.pos) ≤ c.rbuf.length := by
    split_ifs <;> omega
  refine hle.trans (le_of_eq ?_)
  change _ = (if c.rlen ≤ c.parser.pos then c.rbuf else _).length
  split_ifs with hc
  · rfl
  · have := length_moved (show 0 ≤ c.parser.pos from Nat.zero_le _)
      (show c.parser.pos + (c.rlen - c.parser.pos) ≤ c.rbuf.length by omega) True
    rw [if_pos trivial] at this
    exact this.symm

theorem fits_settle (a : Answer) (h : c.Fits) : (c.settle a).Fits := by
  unfold settle
  split_ifs
  · exact ⟨h.rlen, h.placed⟩
  · exact ⟨h.rlen, h.placed⟩
  · exact ⟨h.rlen, h.placed⟩
  · exact fits_reset h.rlen

theorem deliveries_settle (c : Connection) (a : Answer) : (c.settle a).deliveries = c.deliveries ∧
      ((c.settle a).onBodyCb = true → c.onBodyCb = true) := by
  unfold settle
  split_ifs <;> first | exact ⟨rfl, id⟩ | exact ⟨rfl, fun h => by cases h⟩

/-- **A round calls the sink at most once, and not after it was told the end.** -/
theorem Session.Sound.answeredRound {a : Answer} (h : s.Sound)
    (hr : s.conn.Ready) (hc : answeredRound cfg app a s.conn = .ok c) :
    (Session.mk c (if s.conn.reqStreaming then s.mark else s.conn.deliveries.length)).Sound := by
  have hbuf : (s.conn.rbuf.take s.conn.rlen).length = s.conn.rlen := by
    rw [List.length_take]
    exact Nat.min_eq_left h.rlen
  have hpl := h.placed hr.2.2
  unfold Http1.answeredRound at hc
  cases hp : parse cfg.limits (s.conn.rbuf.take s.conn.rlen) ⟨s.conn.parser, s.conn.chunkBody⟩ with
  | error d =>
    rw [hp] at hc
    cases hc
  | ok r =>
    obtain ⟨res, st⟩ := r
    rw [hp] at hc
    have hfits : res ≠ .prError → (s.conn.withParse st).Fits := by
      intro hne
      have := parse_placed (by rw [hbuf]; exact hpl) hp hne
      rw [hbuf] at this
      exact ⟨h.rlen, this⟩
    cases res with
    | prNeedMore =>
      obtain rfl := Except.ok.inj hc
      have hagree := parse_phaseAgrees cfg.limits (s.conn.rbuf.take s.conn.rlen)
        ⟨s.conn.parser, s.conn.chunkBody⟩
      rw [hp] at hagree
      have hfit := hfits (by decide)
      obtain ⟨ds, hd, hno⟩ := onNeedMore_dispatches app hfit (fun hin hch => by
        have hph : st.parser.phase = .ppBody := by
          by_contra hne
          exact absurd ((hfit.placed.chunked hin hne).symm.trans hch) (by decide)
        have hlt := hagree.2.2 hph
        rwa [hbuf] at hlt)
      exact h.round hr hd.deliveries hd.one hd.registered hd.fits.rlen
        (fun _ => hd.fits.placed) (.inl hno)
    | prError =>
      obtain rfl := Except.ok.inj hc
      have hnone : (s.conn.withParse st).respondError.deliveries = s.conn.deliveries ++ [] := by
        simp [respondError, withParse]
      refine h.round hr hnone (by simp) (fun _ hoff => ⟨rfl, hoff⟩) h.rlen (fun hs => ?_)
        (.inl (by simp))
      cases hs
    | prComplete =>
      obtain rfl := Except.ok.inj hc
      obtain ⟨ds, hd⟩ := onComplete_dispatches cfg app (hfits (by decide))
      have hfit : ((onComplete cfg app (s.conn.withParse st)).answer a).Fits :=
        ⟨hd.fits.rlen, hd.fits.placed⟩
      obtain ⟨e1, e2⟩ := deliveries_settle ((onComplete cfg app (s.conn.withParse st)).answer a) a
      have hfit' := fits_settle a hfit
      refine h.round hr (e1.trans hd.deliveries) hd.one (fun h1 h2 => ?_) hfit'.rlen
        (fun _ => hfit'.placed) (.inr (settle_kept a))
      obtain ⟨hnil, hoff⟩ := hd.registered h1 h2
      refine ⟨hnil, ?_⟩
      by_contra hon
      exact absurd ((e2 (by simpa using hon)).symm.trans hoff) (by decide)

theorem Session.Sound.closeConn (h : s.Sound) (hk : ClosesUntold .close s) :
    (Session.mk s.conn.closeConn s.mark).Sound := by
  unfold Connection.closeConn
  cases hon : s.conn.onBodyCb with
  | false =>
    simp only [Bool.false_eq_true, if_false]
    exact ⟨h.mark, h.rlen, fun hs => (by cases hs), h.once,
      fun hc => absurd (hc.symm.trans hon) (by decide)⟩
  | true =>
    have hno := told_eq_false.mp (hk rfl hon)
    simp only [if_true]
    refine ⟨?_, h.rlen, fun hs => (by cases hs), ?_, fun hc => by cases hc⟩
    · change s.mark ≤ (s.conn.deliveries ++ [([], true)]).length
      rw [List.length_append]
      exact h.mark.trans (Nat.le_add_right _ _)
    · exact toldOnce_of_calls (calls_append rfl h.mark) hno le_rfl

/-- **Every happening keeps the sinks in order.** -/
theorem Session.Sound.step {e : Happening} (h : s.Sound) (hk : ClosesUntold e s)
    (hs : s.step cfg app e = .ok s') : s'.Sound := by
  cases e with
  | read r =>
    obtain rfl := Except.ok.inj hs
    refine ⟨h.mark, ?_, fun hst => (h.placed hst).mono (Nat.le_add_right _ _), h.once, h.kept⟩
    have := h.rlen
    simp only [recv, writeAt, List.length_append, List.length_take]
    omega
  | round a =>
    unfold Session.step at hs
    dsimp only at hs
    by_cases hr : s.conn.Ready
    · rw [if_pos hr] at hs
      cases hc : Http1.answeredRound cfg app a s.conn with
      | error d =>
        rw [hc] at hs
        cases hs
      | ok c =>
        rw [hc] at hs
        obtain rfl := Except.ok.inj hs
        exact h.answeredRound hr hc
    · rw [if_neg hr] at hs
      obtain rfl := Except.ok.inj hs
      exact h
  | preface | answer =>
    obtain rfl := Except.ok.inj hs
    exact ⟨h.mark, h.rlen, h.placed, h.once, h.kept⟩
  | onBody manualAck =>
    obtain rfl := Except.ok.inj hs
    have hnone : (Session.mk (s.conn.onBody manualAck) s.conn.deliveries.length).calls = [] := by
      simp [Session.calls, Connection.onBody]
    refine ⟨le_rfl, h.rlen, h.placed, fun before d after he => ?_, fun _ ht => ?_⟩
    · rw [hnone] at he
      simp at he
    · unfold Session.told at ht
      rw [hnone] at ht
      cases ht
  | resume a =>
    obtain rfl := Except.ok.inj hs
    unfold resumeAfterRespond
    split_ifs
    · exact ⟨h.mark, h.rlen, fun hst => (by cases hst), h.once, fun _ _ => .inr (by simp)⟩
    · exact ⟨h.mark, h.rlen, fun hst => (by cases hst), h.once, fun _ _ => .inr (by simp)⟩
    · have hf := fits_reset h.rlen
      exact ⟨h.mark, hf.rlen, fun _ => hf.placed, h.once, fun hc => by cases hc⟩
  | close =>
    obtain rfl := Except.ok.inj hs
    exact h.closeConn hk

/-- The session after a happening; a defect ends the process, so it is left where it is. -/
def Session.after (cfg : LoopSettings) (app : App) (s : Session) (e : Happening) : Session :=
  match s.step cfg app e with
  | .error _ => s
  | .ok s' => s'

theorem Session.Reachable.after {e : Happening} (h : Reachable cfg app ok s) (hk : ok e s) :
    Reachable cfg app ok (s.after cfg app e) := by
  unfold Session.after
  cases hs : s.step cfg app e with
  | error d => exact h
  | ok s' => exact h.next hk hs

theorem Session.Reachable.sound (h : Reachable cfg app ClosesUntold s) : s.Sound := by
  induction h with
  | start =>
    exact ⟨le_rfl, le_rfl, fun _ => .of_out le_rfl rfl, fun before d after he => by
      simp [Session.calls] at he, fun hc => by cases hc⟩
  | next _ hk hs ih => exact ih.step hk hs

/-! ### Reads -/

theorem onComplete_conn (cfg : LoopSettings) (app : App) (c : Connection) :
    (onComplete cfg app c).state = c.state ∧ (onComplete cfg app c).h2 = c.h2 := by
  obtain ⟨ka, k, hc⟩ := countRequest_counted cfg c
  unfold onComplete
  rw [hc]
  obtain ⟨r, f, u, o, m, e⟩ := startStreamingDispatch_eq app
    { c with parser := { c.parser with keepAlive := ka }, requestCount := k }
  have hf : ∀ c : Connection, (c.feedBody true).state = c.state ∧ (c.feedBody true).h2 = c.h2 := by
    intro c
    obtain ⟨_, _, _, _, _, _, _, _, h⟩ := c.feedBody_eq true
    rw [h]
    exact ⟨rfl, rfl⟩
  dsimp only
  rw [e]
  split_ifs <;> first | exact hf _ | exact ⟨rfl, rfl⟩

theorem processRound_ready (hr : c.Ready)
    (hp : processRound cfg app c = .ok (.inl c')) : c'.Ready := by
  unfold processRound at hp
  cases hparse : parse cfg.limits (c.rbuf.take c.rlen) ⟨c.parser, c.chunkBody⟩ with
  | error d =>
    rw [hparse] at hp
    cases hp
  | ok r =>
    obtain ⟨res, s⟩ := r
    rw [hparse] at hp
    cases res with
    | prNeedMore | prError => cases hp
    | prComplete =>
      dsimp only at hp
      obtain ⟨h1, h2⟩ := onComplete_conn cfg app (c.withParse s)
      split_ifs at hp
      · cases hp
      · cases hp
      · cases hp
      · obtain rfl := Sum.inl.inj (Except.ok.inj hp)
        exact ⟨h2.trans hr.1, rfl, h1.trans hr.2.2⟩

/-- Happenings one after the other. -/
def Session.run (cfg : LoopSettings) (app : App) (s : Session) (es : List Happening) :
    Except Defect Session :=
  es.foldlM (fun s e => s.step cfg app e) s

theorem Session.run_cons {e : Happening} {es : List Happening} (hs : s.step cfg app e = .ok s') :
    s.run cfg app (e :: es) = s'.run cfg app es := by
  simp only [Session.run, List.foldlM_cons, hs]
  rfl

theorem Session.Reachable.run {es : List Happening} (h : Reachable cfg app ok s)
    (hk : ∀ e ∈ es, ∀ s, ok e s) (hs : s.run cfg app es = .ok s') : Reachable cfg app ok s' := by
  induction es generalizing s with
  | nil =>
    obtain rfl := Except.ok.inj hs
    exact h
  | cons e es ih =>
    cases he : s.step cfg app e with
    | error d =>
      simp only [Session.run, List.foldlM_cons, he] at hs
      cases hs
    | ok s₁ =>
      rw [Session.run_cons he] at hs
      exact ih (h.next (hk e List.mem_cons_self s) he)
        (fun e' he' => hk e' (List.mem_cons_of_mem _ he')) hs

theorem processRounds_run {n : ℕ} (hr : s.conn.Ready)
    (hc : processRounds cfg app n s.conn = .ok c) :
    ∃ k s', s.run cfg app (List.replicate k (.round {})) = .ok s' ∧ s'.conn = c := by
  induction n generalizing s with
  | zero => exact ⟨0, s, rfl, Except.ok.inj hc⟩
  | succ n ih =>
    unfold processRounds at hc
    have hround := processRound_answered cfg app s.conn
    cases hp : processRound cfg app s.conn with
    | error d =>
      rw [hp] at hc
      cases hc
    | ok r =>
      rw [hp] at hc hround
      have hstep : s.step cfg app (.round {}) = .ok ⟨r.elim id id,
          if s.conn.reqStreaming then s.mark else s.conn.deliveries.length⟩ := by
        unfold Session.step
        dsimp only
        rw [if_pos hr, ← hround]
        rfl
      cases r with
      | inr c' => exact ⟨1, _, Session.run_cons hstep, Except.ok.inj hc⟩
      | inl c' =>
        obtain ⟨k, s', hrun, hconn⟩ := ih (s := ⟨c', _⟩) (processRound_ready hr hp) hc
        exact ⟨k + 1, s', (Session.run_cons hstep).trans hrun, hconn⟩

/-- **`handleRead` is a run of a session.** -/
theorem handleRead_run {r : Bytes} (hst : s.conn.state = .csActive)
    (hc : handleRead cfg app s.conn r = .ok c) :
    ∃ es s', (∀ e ∈ es, e = .round {} ∨ e = .preface) ∧
      s.run cfg app (.read r :: es) = .ok s' ∧ s'.conn = c := by
  unfold handleRead processInput at hc
  split_ifs at hc with hstop hpref hlen
  · exact ⟨[], _, nofun, rfl, Except.ok.inj hc⟩
  · exact ⟨[], _, nofun, rfl, Except.ok.inj hc⟩
  · exact ⟨[.preface], _, by simp, rfl, Except.ok.inj hc⟩
  · rw [not_or, not_or] at hstop
    obtain ⟨k, s', hrun, hconn⟩ := processRounds_run (s := ⟨s.conn.recv r, s.mark⟩)
      ⟨by simpa using hstop.1, by simpa using hstop.2.1, hst⟩ hc
    exact ⟨_, s', fun e he => .inl (List.eq_of_mem_replicate he), hrun, hconn⟩

/-- **A read keeps the sinks sound.**  Whatever a read brings, with as many pipelined requests as it
may hold, `handleRead` takes a session through rounds to one in which only the last call to the sink
that was registered last told it the end. -/
theorem handleRead_toldOnce {r : Bytes} (h : Session.Reachable cfg app ClosesUntold s)
    (hst : s.conn.state = .csActive) (hc : handleRead cfg app s.conn r = .ok c) :
    ∃ es s', (∀ e ∈ es, e = .round {} ∨ e = .preface) ∧
      s.run cfg app (.read r :: es) = .ok s' ∧ s'.conn = c ∧ s'.ToldOnce := by
  obtain ⟨es, s', hes, hrun, hconn⟩ := handleRead_run hst hc
  refine ⟨es, s', hes, hrun, hconn, (h.run (fun e he s hclose => ?_) hrun).sound.once⟩
  subst hclose
  rcases List.mem_cons.mp he with he | he
  · cases he
  · rcases hes _ he with he | he <;> cases he

theorem handleRead_toldOnce_chunkedRequest : ∃ es s', s'.conn.deliveries = [(ascii "ab", true)] ∧
    Session.run { limits := ⟨8192, 100, 1024⟩ } sinkApp {} (.read chunkedRequest :: es) = .ok s' ∧
      s'.ToldOnce := by
  have h : Session.Reachable { limits := ⟨8192, 100, 1024⟩ } sinkApp ClosesUntold {} := .start
  obtain ⟨es, s', -, hrun, hconn, honce⟩ := handleRead_toldOnce h rfl (r := chunkedRequest) rfl
  exact ⟨es, s', by rw [hconn]; decide +kernel, hrun, honce⟩

end Runs

end Vortex.Http1
