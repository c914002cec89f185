import Vortex.System
import Vortex.Http1.Sinks

/-! # The read-ahead debt of an upload

A streaming HTTP/1 request whose sink was registered with `manualAck`: `feedBody` counts what it
has handed to the sink in `bodyUnacked`, `req.ackBody` takes it back (`resumeBodyImpl`), and
`handleRead` stops reading from the socket while a megabyte is owed.

The sink runs inside `feedBody`, before the bytes it was given are counted, and may acknowledge
them there; an asynchronous reader that waits for its next chunk does.  The functions of
`Upload` are those of `Connection` with such a sink; `acks` are the acknowledgements it makes. -/

namespace Vortex.Http1

/-- Delivered bytes at which reading stops. -/
def streamBodyHighWater : ℕ := 1024 * 1024

/-- An acknowledgement below this lets reading go on. -/
def streamBodyLowWater : ℕ := streamBodyHighWater / 4

/-- A connection in a streaming request with such a sink. -/
structure Upload where
  conn : Connection
  bodyReadPaused : Bool := false
  /-- The bytes acknowledged so far. -/
  acked : ℕ := 0

namespace Upload

/-- The bytes handed to the sink so far. -/
def delivered (u : Upload) : ℕ := (u.conn.deliveries.map fun d => d.1.length).sum

/-- `req.ackBody`; the debt stops at zero. -/
def ackBody (u : Upload) (n : ℕ) : Upload :=
  let unacked := u.conn.bodyUnacked - n
  { conn := { u.conn with bodyUnacked := unacked }
    bodyReadPaused := u.bodyReadPaused && !decide (unacked < streamBodyLowWater)
    acked := u.acked + n }

/-- Call the sink, which acknowledges. -/
def deliver (u : Upload) (chunk : Bytes) (last : Bool) (acks : List ℕ) : Upload :=
  acks.foldl ackBody { u with conn := u.conn.deliver chunk last }

def feedDecoded (u : Upload) (last : Bool) (acks : List ℕ) : Upload :=
  let avail := u.conn.chunkBody.length - u.conn.bodyFed
  if 0 < avail then
    let u := u.deliver (slice u.conn.chunkBody u.conn.bodyFed u.conn.chunkBody.length) last acks
    { u with conn := { u.conn.oweAck avail with chunkBody := [], bodyFed := 0 } }
  else if last then u.deliver [] true acks
  else u

def feedPlain (u : Upload) (last : Bool) (acks : List ℕ) : Upload :=
  let bodyStart := u.conn.parser.bodyStart
  let avail := min (u.conn.rlen - bodyStart) u.conn.parser.bodyLen
  if avail = 0 then
    if last && u.conn.parser.bodyLen == 0 then u.deliver [] true acks else u
  else
    let u := u.deliver (slice u.conn.rbuf bodyStart (bodyStart + avail))
      (avail == u.conn.parser.bodyLen) acks
    let c := u.conn.oweAck avail
    let tailLen := c.rlen - (bodyStart + avail)
    { u with conn := { c with
      rbuf := if 0 < tailLen then moveMem c.rbuf bodyStart (bodyStart + avail) tailLen
        else c.rbuf
      rlen := bodyStart + tailLen
      parser := { c.parser with bodyLen := c.parser.bodyLen - avail, pos := bodyStart } } }

def feedBody (u : Upload) (last : Bool) (acks : List ℕ) : Upload :=
  if !u.conn.onBodyCb then u
  else if u.conn.parser.chunked then
    let u := u.feedDecoded last acks
    if !last ∧ u.conn.parser.bodyStart < u.conn.parser.pos then
      { u with conn := u.conn.compactRaw }
    else u
  else u.feedPlain last acks

/-- The receive loop takes bytes from the socket. -/
def reading (u : Upload) : Bool :=
  !(u.conn.bodyManualAck && decide (streamBodyHighWater ≤ u.conn.bodyUnacked))

/-- The end of `handleRead`. -/
def notePause (u : Upload) : Upload :=
  { u with bodyReadPaused := decide (u.conn.state = .csActive) && u.conn.reqStreaming &&
      u.conn.bodyManualAck && decide (streamBodyHighWater ≤ u.conn.bodyUnacked) }

/-- A round of `processInput` in the body of the request. -/
def round (cfg : LoopSettings) (u : Upload) (acks : List ℕ) : Except Defect Upload :=
  match parse cfg.limits (u.conn.rbuf.take u.conn.rlen) ⟨u.conn.parser, u.conn.chunkBody⟩ with
  | .error d => .error d
  | .ok (res, s) =>
      let u := { u with conn := u.conn.withParse s }
      match res with
      | .prNeedMore => .ok (if u.conn.parser.inBody then u.feedBody false acks else u)
      | .prError => .ok { u with conn := u.conn.respondError }
      | .prComplete =>
          let u := { u with conn := countRequest cfg u.conn }.feedBody true acks
          .ok { u with conn := { u.conn with awaitingResponse := true } }

inductive Action where
  | read (r : Bytes)
  /-- A round, in which the sink acknowledges. -/
  | round (acks : List ℕ)
  | notePause
  /-- An acknowledgement outside the sink. -/
  | ack (n : ℕ)

/-- Nothing is acknowledged that was not delivered. -/
def step (cfg : LoopSettings) (u : Upload) : Action → Option Upload
  | .read r => if u.reading then some { u with conn := u.conn.recv r } else none
  | .round acks =>
      if u.conn.Ready then
        match u.round cfg acks with
        | .error _ => none
        | .ok u' => if u'.acked ≤ u'.delivered then some u' else none
      else none
  | .notePause => some u.notePause
  | .ack n => if u.acked + n ≤ u.delivered then some (u.ackBody n) else none

/-- The handler was dispatched and has registered its sink. -/
structure Starts (u : Upload) : Prop where
  fits : u.conn.Fits
  sink : u.conn.onBodyCb = true
  manualAck : u.conn.bodyManualAck = true
  noDebt : u.conn.bodyUnacked = 0
  fresh : u.conn.deliveries = []
  unpaused : u.bodyReadPaused = false
  unacked : u.acked = 0

def system (cfg : LoopSettings) : System Upload Action := ⟨Starts, step cfg⟩

/-! ### A delivery -/

section

variable {u : Upload} {acks : List ℕ}

theorem foldl_ackBody (acks : List ℕ) (u : Upload) :
    (acks.foldl ackBody u).conn = { u.conn with bodyUnacked := u.conn.bodyUnacked - acks.sum } ∧
      (acks.foldl ackBody u).acked = u.acked + acks.sum := by
  induction acks generalizing u with
  | nil => exact ⟨rfl, rfl⟩
  | cons n rest ih =>
    obtain ⟨hc, ha⟩ := ih (u.ackBody n)
    rw [List.foldl_cons, hc, ha, List.sum_cons]
    refine ⟨?_, Nat.add_assoc _ _ _⟩
    simp only [ackBody, Nat.sub_sub]

/-- Reading is paused only while enough is owed. -/
def Owes (u : Upload) : Prop :=
  u.bodyReadPaused = true → streamBodyLowWater ≤ u.conn.bodyUnacked

theorem owes_ackBody (n : ℕ) (u : Upload) : (u.ackBody n).Owes := by
  intro h
  simp only [ackBody, Bool.and_eq_true, Bool.not_eq_true', decide_eq_false_iff_not, not_lt] at h
  exact h.2

theorem Owes.foldl_ackBody (h : u.Owes) (acks : List ℕ) : (acks.foldl ackBody u).Owes := by
  induction acks generalizing u with
  | nil => exact h
  | cons n rest ih => exact ih (owes_ackBody n u)

theorem conn_deliver (u : Upload) (chunk : Bytes) (last : Bool) (acks : List ℕ) (n : ℕ) : ∃ m,
    (u.deliver chunk last acks).conn.oweAck n =
      { (u.conn.deliver chunk last).oweAck n with bodyUnacked := m } := by
  rw [Connection.oweAck_eq, Connection.oweAck_eq, deliver, (foldl_ackBody acks _).1]
  exact ⟨_, rfl⟩

theorem conn_feedDecoded (u : Upload) (last : Bool) (acks : List ℕ) :
    ∃ m, (u.feedDecoded last acks).conn = { u.conn.feedDecoded last with bodyUnacked := m } := by
  unfold feedDecoded Connection.feedDecoded
  dsimp only
  split_ifs
  · obtain ⟨m, hm⟩ := conn_deliver u (slice u.conn.chunkBody u.conn.bodyFed
      u.conn.chunkBody.length) last acks (u.conn.chunkBody.length - u.conn.bodyFed)
    exact ⟨m, by rw [hm]⟩
  · exact ⟨_, (foldl_ackBody acks _).1⟩
  · exact ⟨_, rfl⟩

theorem conn_feedPlain (u : Upload) (last : Bool) (acks : List ℕ) :
    ∃ m, (u.feedPlain last acks).conn = { u.conn.feedPlain last with bodyUnacked := m } := by
  unfold feedPlain Connection.feedPlain
  dsimp only
  generalize min (u.conn.rlen - u.conn.parser.bodyStart) u.conn.parser.bodyLen = avail
  by_cases h0 : avail = 0
  · rw [if_pos h0, if_pos h0]
    split_ifs
    · exact ⟨_, (foldl_ackBody acks _).1⟩
    · exact ⟨_, rfl⟩
  · rw [if_neg h0, if_neg h0]
    obtain ⟨m, hm⟩ := conn_deliver u (slice u.conn.rbuf u.conn.parser.bodyStart
      (u.conn.parser.bodyStart + avail)) (avail == u.conn.parser.bodyLen) acks avail
    exact ⟨m, by rw [hm]⟩

theorem conn_feedBody (u : Upload) (last : Bool) (acks : List ℕ) :
    ∃ m, (u.feedBody last acks).conn = { u.conn.feedBody last with bodyUnacked := m } := by
  unfold feedBody Connection.feedBody
  cases u.conn.onBodyCb with
  | false => exact ⟨_, rfl⟩
  | true =>
    simp only [Bool.not_true, Bool.false_eq_true, if_false]
    cases u.conn.parser.chunked with
    | false => exact conn_feedPlain u last acks
    | true =>
      obtain ⟨m, hm⟩ := conn_feedDecoded u last acks
      simp only [if_true]
      have hp : (u.feedDecoded last acks).conn.parser = (u.conn.feedDecoded last).parser := by
        rw [hm]
      rw [hp]
      split_ifs
      · exact ⟨m, by rw [hm]; rfl⟩
      · exact ⟨m, hm⟩

/-! ### The debt -/

/-- The debt is what was delivered and not acknowledged. -/
def Exact (u : Upload) : Prop := u.conn.bodyUnacked + u.acked = u.delivered

theorem delivered_deliver (chunk : Bytes) (last : Bool) (acks : List ℕ) (u : Upload) :
    (u.deliver chunk last acks).delivered = u.delivered + chunk.length := by
  unfold delivered
  rw [deliver, (foldl_ackBody acks _).1]
  simp [Connection.deliver]

theorem Exact.deliver (h : u.Exact) (chunk : Bytes) (last : Bool) {acks : List ℕ}
    (hacks : acks.sum ≤ u.conn.bodyUnacked) :
    (u.deliver chunk last acks).conn.bodyUnacked + chunk.length +
      (u.deliver chunk last acks).acked = (u.deliver chunk last acks).delivered := by
  have hd := delivered_deliver chunk last acks u
  have hc : (u.deliver chunk last acks).conn.bodyUnacked = u.conn.bodyUnacked - acks.sum := by
    rw [Upload.deliver, (foldl_ackBody acks _).1]
    rfl
  have ha : (u.deliver chunk last acks).acked = u.acked + acks.sum := (foldl_ackBody acks _).2
  unfold Exact at h
  omega

theorem oweAck_unacked {c : Connection} (h : c.bodyManualAck = true) (n : ℕ) :
    (c.oweAck n).bodyUnacked = c.bodyUnacked + n ∧ (c.oweAck n).deliveries = c.deliveries := by
  simp [Connection.oweAck, h]

theorem manualAck_deliver (h : u.conn.bodyManualAck = true) (chunk : Bytes) (last : Bool)
    (acks : List ℕ) : (u.deliver chunk last acks).conn.bodyManualAck = true := by
  rw [Upload.deliver, (foldl_ackBody acks _).1]
  exact h

theorem owes_deliver (h : u.Owes) (chunk : Bytes) (last : Bool) (acks : List ℕ) :
    (u.deliver chunk last acks).Owes :=
  Owes.foldl_ackBody (u := { u with conn := u.conn.deliver chunk last }) h acks

/-- What is kept: exactness, and that reading is paused only while enough is owed. -/
structure Balanced (u : Upload) : Prop where
  exact : u.Exact
  owes : u.Owes

theorem Balanced.counted (h : u.Balanced) (hm : u.conn.bodyManualAck = true) {chunk : Bytes}
    {n : ℕ} (hn : chunk.length = n) (last : Bool) (hacks : acks.sum ≤ u.conn.bodyUnacked)
    {c : Connection}
    (hu : c.bodyUnacked = ((u.deliver chunk last acks).conn.oweAck n).bodyUnacked)
    (hd : c.deliveries = ((u.deliver chunk last acks).conn.oweAck n).deliveries) :
    ({ u.deliver chunk last acks with conn := c } : Upload).Balanced := by
  have he := h.exact.deliver chunk last hacks
  obtain ⟨hu', hd'⟩ := oweAck_unacked (manualAck_deliver hm chunk last acks) n
  refine ⟨?_, fun hp => ?_⟩
  · unfold Exact delivered
    rw [hu, hd, hu', hd', ← hn]
    exact he
  · rw [hu, hu']
    exact (owes_deliver h.owes chunk last acks hp).trans (Nat.le_add_right _ _)

theorem Balanced.feedDecoded (h : u.Balanced) (hm : u.conn.bodyManualAck = true) (last : Bool)
    (hacks : acks.sum ≤ u.conn.bodyUnacked) : (u.feedDecoded last acks).Balanced := by
  unfold Upload.feedDecoded
  dsimp only
  split_ifs with h0
  · exact h.counted hm (by rw [length_slice, Nat.min_self]) last hacks rfl rfl
  · exact ⟨by simpa [Exact] using h.exact.deliver [] true hacks, owes_deliver h.owes _ _ _⟩
  · exact h

theorem Balanced.feedPlain (h : u.Balanced) (hf : u.conn.rlen ≤ u.conn.rbuf.length)
    (hm : u.conn.bodyManualAck = true) (last : Bool) (hacks : acks.sum ≤ u.conn.bodyUnacked) :
    (u.feedPlain last acks).Balanced := by
  unfold Upload.feedPlain
  dsimp only
  generalize hav : min (u.conn.rlen - u.conn.parser.bodyStart) u.conn.parser.bodyLen = avail
  by_cases h0 : avail = 0
  · rw [if_pos h0]
    split_ifs
    · exact ⟨by simpa [Exact] using h.exact.deliver [] true hacks, owes_deliver h.owes _ _ _⟩
    · exact h
  · rw [if_neg h0]
    exact h.counted hm (by rw [length_slice]; omega) _ hacks rfl rfl

theorem Balanced.feedBody (h : u.Balanced) (hf : u.conn.rlen ≤ u.conn.rbuf.length)
    (hm : u.conn.bodyManualAck = true) (last : Bool) (hacks : acks.sum ≤ u.conn.bodyUnacked) :
    (u.feedBody last acks).Balanced := by
  unfold Upload.feedBody
  dsimp only
  split_ifs
  · exact h
  · have hd := h.feedDecoded hm last hacks
    exact ⟨hd.exact, hd.owes⟩
  · exact h.feedDecoded hm last hacks
  · exact h.feedPlain hf hm last hacks

end

/-! ### Runs -/

section

variable {cfg : LoopSettings} {u u' : Upload}

/-- What holds of an upload. -/
structure Sound (u : Upload) : Prop where
  balanced : u.Balanced
  manualAck : u.conn.bodyManualAck = true
  rlen : u.conn.rlen ≤ u.conn.rbuf.length
  placed : u.conn.state = .csActive → Placed u.conn.rlen u.conn.parser

/-- What the sink acknowledges while it is called was delivered before that call. -/
def Action.Covered (u : Upload) : Action → Prop
  | .round acks => acks.sum ≤ u.conn.bodyUnacked
  | _ => True

theorem Sound.feedBody (h : u.Sound) (hp : Placed u.conn.rlen u.conn.parser) (last : Bool)
    {acks : List ℕ} (hacks : acks.sum ≤ u.conn.bodyUnacked) : (u.feedBody last acks).Sound := by
  obtain ⟨m, hm⟩ := conn_feedBody u last acks
  obtain ⟨ds, hfeeds⟩ := Connection.feedBody_feeds ⟨h.rlen, hp⟩ last
  refine ⟨h.balanced.feedBody h.rlen h.manualAck last hacks, ?_, ?_, fun _ => ?_⟩
  · obtain ⟨_, _, _, _, _, _, _, _, h'⟩ := u.conn.feedBody_eq last
    rw [hm, h']
    exact h.manualAck
  · rw [hm]
    exact hfeeds.fits.rlen
  · rw [hm]
    exact hfeeds.fits.placed

theorem Sound.round (h : u.Sound) (hr : u.conn.Ready) {acks : List ℕ}
    (hacks : acks.sum ≤ u.conn.bodyUnacked) (hs : u.round cfg acks = .ok u') : u'.Sound := by
  have hbuf : (u.conn.rbuf.take u.conn.rlen).length = u.conn.rlen := by
    rw [List.length_take]
    exact Nat.min_eq_left h.rlen
  have hpl := h.placed hr.2.2
  unfold Upload.round at hs
  cases hp : parse cfg.limits (u.conn.rbuf.take u.conn.rlen)
      ⟨u.conn.parser, u.conn.chunkBody⟩ with
  | error d =>
    rw [hp] at hs
    cases hs
  | ok r =>
    obtain ⟨res, st⟩ := r
    rw [hp] at hs
    have hplaced : res ≠ .prError → Placed u.conn.rlen st.parser := by
      intro hne
      have := parse_placed (by rw [hbuf]; exact hpl) hp hne
      rwa [hbuf] at this
    have hparsed : res ≠ .prError → Sound { u with conn := u.conn.withParse st } := fun hne =>
      ⟨⟨h.balanced.exact, h.balanced.owes⟩, h.manualAck, h.rlen, fun _ => hplaced hne⟩
    cases res with
    | prNeedMore =>
      obtain rfl := Except.ok.inj hs
      split_ifs
      · exact (hparsed (by decide)).feedBody (hplaced (by decide)) false hacks
      · exact hparsed (by decide)
    | prError =>
      obtain rfl := Except.ok.inj hs
      exact ⟨⟨h.balanced.exact, h.balanced.owes⟩, h.manualAck, h.rlen, nofun⟩
    | prComplete =>
      obtain rfl := Except.ok.inj hs
      have h1 := hparsed (by decide)
      have hcount : Sound { u with conn := countRequest cfg (u.conn.withParse st) } ∧
          Placed u.conn.rlen (countRequest cfg (u.conn.withParse st)).parser ∧
          (countRequest cfg (u.conn.withParse st)).rlen = u.conn.rlen ∧
          (countRequest cfg (u.conn.withParse st)).bodyUnacked = u.conn.bodyUnacked := by
        obtain ⟨ka, k, hc⟩ := countRequest_counted cfg (u.conn.withParse st)
        have hpl' := hplaced (by decide)
        rw [hc]
        exact ⟨⟨⟨h1.balanced.exact, h1.balanced.owes⟩, h1.manualAck, h1.rlen, fun _ =>
          ⟨hpl'.pos, hpl'.plain, hpl'.chunked⟩⟩, ⟨hpl'.pos, hpl'.plain, hpl'.chunked⟩, rfl, rfl⟩
      obtain ⟨hs', hpl', hl, hu⟩ := hcount
      rw [← hl] at hpl'
      rw [← hu] at hacks
      have h2 := hs'.feedBody hpl' true hacks
      exact ⟨⟨h2.balanced.exact, h2.balanced.owes⟩, h2.manualAck, h2.rlen, h2.placed⟩

theorem Sound.ackBody (h : u.Sound) {n : ℕ} (hn : u.acked + n ≤ u.delivered) :
    (u.ackBody n).Sound := by
  refine ⟨⟨?_, owes_ackBody n u⟩, h.manualAck, h.rlen, h.placed⟩
  have he := h.balanced.exact
  unfold Exact delivered at he ⊢
  unfold delivered at hn
  simp only [Upload.ackBody]
  omega

theorem lowWater_le : streamBodyLowWater ≤ streamBodyHighWater := Nat.div_le_self _ _

theorem Sound.step {a : Action} (h : u.Sound) (ha : a.Covered u)
    (hs : step cfg u a = some u') : u'.Sound := by
  cases a with
  | read r =>
    simp only [Upload.step, Option.ite_none_right_eq_some, Option.some.injEq] at hs
    obtain ⟨-, rfl⟩ := hs
    refine ⟨⟨h.balanced.exact, h.balanced.owes⟩, h.manualAck, ?_, fun hst =>
      (h.placed hst).mono (Nat.le_add_right _ _)⟩
    have := h.rlen
    simp only [Connection.recv, writeAt, List.length_append, List.length_take]
    omega
  | round acks =>
    simp only [Upload.step, Option.ite_none_right_eq_some] at hs
    obtain ⟨hr, hs⟩ := hs
    cases hround : u.round cfg acks with
    | error d =>
      rw [hround] at hs
      cases hs
    | ok u1 =>
      rw [hround] at hs
      simp only [Option.ite_none_right_eq_some, Option.some.injEq] at hs
      obtain ⟨-, rfl⟩ := hs
      exact h.round hr ha hround
  | notePause =>
    cases hs
    refine ⟨⟨h.balanced.exact, fun hp => ?_⟩, h.manualAck, h.rlen, h.placed⟩
    simp only [Upload.notePause, Bool.and_eq_true, decide_eq_true_eq] at hp
    exact lowWater_le.trans hp.2
  | ack n =>
    simp only [Upload.step, Option.ite_none_right_eq_some, Option.some.injEq] at hs
    obtain ⟨hn, rfl⟩ := hs
    exact h.ackBody hn

/-- **The debt is exact** in every run in which the sink acknowledges, while it is called, only
what was delivered before; and a consumer that has acknowledged everything is never kept
waiting. -/
theorem readAhead_exact (h : ((system cfg).restrict fun u a => a.Covered u).Reachable u) :
    u.conn.bodyUnacked + u.acked = u.delivered ∧
      (u.acked = u.delivered → u.bodyReadPaused = false ∧ u.reading = true) := by
  have hs : u.Sound := by
    refine h.invariant (I := Sound) (fun u hu => ?_) fun u a u' ih hs => ?_
    · refine ⟨⟨?_, fun hp => ?_⟩, hu.manualAck, hu.fits.rlen, fun _ => hu.fits.placed⟩
      · simp [Exact, delivered, hu.noDebt, hu.unacked, hu.fresh]
      · rw [hu.unpaused] at hp
        cases hp
    · obtain ⟨ha, hs⟩ := System.step_restrict.mp hs
      exact ih.step ha hs
  refine ⟨hs.balanced.exact, fun hall => ?_⟩
  have hz : u.conn.bodyUnacked = 0 := by
    have := hs.balanced.exact
    unfold Exact at this
    omega
  refine ⟨?_, ?_⟩
  · by_contra hp
    have := hs.balanced.owes (by simpa using hp)
    rw [hz] at this
    exact absurd this (by decide)
  · simp [reading, hz, streamBodyHighWater]

end

/-! ### A sink that acknowledges what it is given -/

/-- The head of an upload of `n` bytes has been parsed, and the handler has registered its
sink. -/
def uploading (head : Bytes) (n : ℕ) : Upload where
  conn := {
    rbuf := head
    rlen := head.length
    parser := { ({} : RequestParser).reset 0 with
      phase := .ppBody, pos := head.length, bodyStart := head.length, bodyLen := n }
    reqStreaming := true
    onBodyCb := true
    bodyManualAck := true }

theorem starts_uploading (head : Bytes) (n : ℕ) : (uploading head n).Starts where
  fits := ⟨le_rfl, le_rfl, fun _ => rfl, fun _ h => absurd rfl h⟩
  sink := rfl
  manualAck := rfl
  noDebt := rfl
  fresh := rfl
  unpaused := rfl
  unacked := rfl

/-- Settings of the examples. -/
def uploadLimits : LoopSettings := { limits := ⟨8192, 100, 8 * 1024 * 1024⟩ }

/-- The sink first takes three bytes, and acknowledges two of them while it takes the others. -/
theorem readAhead_exact_lateAcks :
    ∃ u, ((system uploadLimits).restrict fun u a => a.Covered u).Reachable u ∧
      u.delivered = 5 ∧ u.conn.bodyUnacked + u.acked = u.delivered ∧
      (u.acked = u.delivered → u.bodyReadPaused = false ∧ u.reading = true) := by
  have h₀ : ((system uploadLimits).restrict fun u a => a.Covered u).Reachable
      (uploading [] 5) := .start (starts_uploading [] 5)
  have h₁ : ((system uploadLimits).restrict fun u a => a.Covered u).Reachable _ :=
    .next (.read (ascii "hel")) h₀ (System.step_restrict.mpr ⟨trivial, rfl⟩)
  have h₂ : ((system uploadLimits).restrict fun u a => a.Covered u).Reachable _ :=
    .next (.round []) h₁ (System.step_restrict.mpr ⟨Nat.zero_le _, rfl⟩)
  have h₃ : ((system uploadLimits).restrict fun u a => a.Covered u).Reachable _ :=
    .next (.read (ascii "lo")) h₂ (System.step_restrict.mpr ⟨trivial, rfl⟩)
  have h₄ : ((system uploadLimits).restrict fun u a => a.Covered u).Reachable _ :=
    .next (.round [2]) h₃ (System.step_restrict.mpr ⟨show 2 ≤ 3 by decide, rfl⟩)
  exact ⟨_, h₄, rfl, readAhead_exact h₄⟩

section

variable {head b : Bytes} {n : ℕ}

/-- The upload of `n` bytes, when the bytes `b` of it were read together with its head. -/
def received (head b : Bytes) (n : ℕ) : Upload :=
  { uploading head n with
    conn := { (uploading head n).conn with rbuf := head ++ b, rlen := head.length + b.length } }

theorem starts_received (head b : Bytes) (n : ℕ) : (received head b n).Starts where
  fits := ⟨by simp [received], Nat.le_add_right _ _, fun _ => rfl, fun _ h => absurd rfl h⟩
  sink := rfl
  manualAck := rfl
  noDebt := rfl
  fresh := rfl
  unpaused := rfl
  unacked := rfl

theorem parse_received (cfg : LoopSettings) (hn : b.length < n) :
    parse cfg.limits ((head ++ b).take (head.length + b.length))
        ⟨(received head b n).conn.parser, []⟩ =
      .ok (.prNeedMore, ⟨(received head b n).conn.parser, []⟩) := by
  refine Loop.run_done _ ?_
  simp only [parseLoop, parseStep, bodyStep, received, uploading]
  refine (if_pos ?_).trans rfl
  simpa using hn

theorem round_received (cfg : LoopSettings) (head : Bytes) (hb : 0 < b.length) (hn : b.length < n) :
    ∃ u, (received head b n).round cfg [b.length] = .ok u ∧ u.conn.deliveries = [(b, false)] ∧
      u.conn.bodyUnacked = b.length ∧ u.acked = b.length ∧ u.conn.bodyManualAck = true ∧
      u.conn.reqStreaming = true ∧ u.conn.state = .csActive := by
  have havail : min b.length n = b.length := min_eq_left hn.le
  have hlast : b.length ≠ n := hn.ne
  have hsome : b ≠ [] := List.length_pos_iff.mp hb
  have hbody : ((head ++ b).take (head.length + b.length)).drop head.length = b := by
    rw [← List.length_append, List.take_length, List.drop_left]
  have hround : (received head b n).round cfg [b.length] =
      .ok ((received head b n).feedPlain false [b.length]) := by
    unfold round
    rw [show parse cfg.limits ((received head b n).conn.rbuf.take (received head b n).conn.rlen)
        ⟨(received head b n).conn.parser, (received head b n).conn.chunkBody⟩ = _
      from parse_received cfg hn]
    rfl
  refine ⟨_, hround, ?_⟩
  simp [feedPlain, received, uploading, havail, hlast, hsome, deliver, ackBody, Connection.deliver,
    Connection.oweAck, slice, hbody]

/-- The bytes that came with the head fill the read-ahead, and the sink acknowledges all of them
while it is given them: reading stops, although nothing is owed. -/
theorem stalls_of_highWater_le (cfg : LoopSettings) (head : Bytes)
    (hb : streamBodyHighWater ≤ b.length) (hn : b.length < n) :
    ∃ u, (system cfg).Reachable u ∧ u.acked = u.delivered ∧ u.bodyReadPaused = true ∧
      u.reading = false := by
  have hpos : 0 < b.length := (show 0 < streamBodyHighWater by decide).trans_le hb
  obtain ⟨u, hround, hd, hdebt, hacked, hmanual, hstream, hstate⟩ :=
    round_received cfg head hpos hn
  have hdelivered : u.delivered = b.length := by simp [delivered, hd]
  have h0 : (system cfg).Reachable (received head b n) := .start (starts_received head b n)
  have h1 : (system cfg).Reachable u := by
    refine .next (.round [b.length]) h0 ?_
    change step cfg (received head b n) (.round [b.length]) = some u
    have hready : (received head b n).conn.Ready := ⟨rfl, rfl, rfl⟩
    simp only [step]
    rw [if_pos hready, hround]
    exact if_pos (by rw [hacked, hdelivered])
  refine ⟨u.notePause, .next .notePause h1 rfl, hacked.trans hdelivered.symm, ?_, ?_⟩
  · simp [notePause, hstate, hstream, hmanual, hdebt, hb]
  · simp [reading, notePause, hmanual, hdebt, hb]

end

/-- The sink of an upload of a mebibyte and one byte acknowledges the mebibyte while it is given it.
The handler has taken everything, and is never given the last byte. -/
theorem acknowledged_upload_stalls :
    ∃ u, (system uploadLimits).Reachable u ∧ u.acked = u.delivered ∧ u.bodyReadPaused = true ∧
      u.reading = false := by
  have hlen : (List.replicate streamBodyHighWater (0 : UInt8)).length = streamBodyHighWater :=
    List.length_replicate
  exact stalls_of_highWater_le uploadLimits
    (ascii "POST /u HTTP/1.1\r\nHost: a\r\nContent-Length: 1048577\r\n\r\n") hlen.ge
    (hlen.trans_lt (Nat.lt_succ_self _))

end Upload

end Vortex.Http1
