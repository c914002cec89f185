import Vortex.Http2.ExchangeEffects

/-! # A connection refines its exchanges

Every stream of a connection lives an `Exchange.Run`, whatever the other streams, the windows and
the scheduler do.  Each piece of a run is a step of one exchange (`Steps`), or ends one (`Ends`);
with the callbacks a piece causes, which are owed until they are run, whole runs follow:
`Reachable.exchange_run` gives the life of every stream of every reachable connection, as the
part of the journal that is about it and where it stands. -/

namespace Vortex.Http2

open Relation FieldRules

/-! ### Pieces as steps of exchanges -/

/-- A piece that takes no stream out of the table. -/
inductive Steps (reg : Call → Exchange → Prop) (a b : Conn) : Prop
  | still (h : Still a b)
  | act {sid : ℕ} {x x' : Exchange} {evs : List Event} (hx : a.exchange? sid = some x)
      (ha : Exchange.Act sid reg x evs x') (h : Effect sid (fun _ => x') evs a b)
  | refuse {sid : ℕ} (hl : a.lastStreamId < sid)
      (hv : b.exchangeFrame = { a.exchangeFrame with lastStreamId := sid })
      (hx : ∀ s, b.exchange? s = a.exchange? s) (hp : a.Placed → b.Placed)
  | opened {sid : ℕ} (hl : a.lastStreamId < sid) (h : Opening sid a b)

/-- A piece that takes the stream `sid` out of the table. -/
structure Ends (sid : ℕ) (a b : Conn) : Prop where
  ended : ∃ x evs, a.exchange? sid = some x ∧ Exchange.End sid x evs ∧
    Removal sid (evs ++ [.removed sid]) a b

/-- What calls are permitted to register, seen on the exchange. -/
structure Permits (ok : Call → Conn → Prop) (reg : Call → Exchange → Prop) : Prop where
  onDrain : ∀ {sid cb c st}, ok (.onDrain sid cb) c → c.stream? sid = some st →
    reg (.onDrain sid cb) st.exchange
  onBody : ∀ {sid cb manualAck c st}, ok (.onBody sid cb manualAck) c → c.stream? sid = some st →
    reg (.onBody sid cb manualAck) st.exchange

variable {n s : ℕ} {last : Bool} {x' : Exchange} {sid : ℕ} {c : Conn}

section Pieces

variable {reg : Call → Exchange → Prop} {ok : Call → Conn → Prop} {a b c : Conn} {sid : ℕ}
  {st : Stream} {g : Exchange → Exchange} {evs : List Event} {u : Fin 8}

theorem Effect.steps (h : Effect sid g evs a b) (hs : a.stream? sid = some st)
    (ha : Exchange.Act sid reg st.exchange evs (g st.exchange)) : Steps reg a b :=
  .act (Conn.exchange?_of_stream hs) ha (h.const (Conn.exchange?_of_stream hs) rfl)

theorem Removal.ends (h : Removal sid (evs ++ [.removed sid]) a b) (hs : a.stream? sid = some st)
    (he : Exchange.End sid st.exchange evs) : Ends sid a b :=
  ⟨_, _, Conn.exchange?_of_stream hs, he, h⟩

theorem Removal.plain (h : Removal sid [.removed sid] a b) (hs : a.stream? sid = some st) :
    Ends sid a b :=
  ⟨_, [], Conn.exchange?_of_stream hs, .plain _, h⟩

theorem Conn.Turn.served (h : a.Turn u sid st) : (a.popTurn u sid).stream? sid = some st.served :=
  (Updates.of_streams rfl : Updates a (a.popTurn u sid) sid _).self h.stream

theorem Conn.CanSend.le_backlog (h : c.CanSend st n last) : n ≤ st.backlog := by
  have := h.size
  unfold Conn.chunkSize at this
  omega

theorem Conn.CanSend.take_ne_nil (h : c.CanSend st n last) : st.unsent.take n ≠ [] := by
  intro he
  have hlen := congrArg List.length he
  rw [List.length_take, Stream.length_unsent, List.length_nil] at hlen
  have hb := h.backlog
  have hp := h.pos
  omega

/-- A chunk is the last one when it empties a backlog that ends the response. -/
theorem Conn.CanSend.last_iff (h : c.CanSend st n last) :
    last = true ↔ st.ws = none ∧ st.pendingIsLast = true ∧ st.respTrailers = [] ∧
      st.unsent.drop n = [] := by
  have hle := h.le_backlog
  have hb := h.backlog
  rw [h.last_eq, List.drop_eq_nil_iff, Stream.length_unsent]
  unfold Stream.backlog at hle hb ⊢
  simp only [Bool.and_eq_true, Option.isNone_iff_eq_none, List.isEmpty_iff, decide_eq_true_eq,
    and_assoc]
  refine and_congr_right fun _ => and_congr_right fun _ => and_congr_right fun _ => ?_
  omega

theorem effect_popTurn_sendChunk (ht : a.Turn u sid st) (hp : a.Placed)
    (hn : (a.popTurn u sid).CanSend st.served n last) :
    Effect sid (fun x => { x with unsent := x.unsent.drop n })
      [.sent (.data sid (st.unsent.take n) last)] a
      ((a.popTurn u sid).sendChunk sid st.served n last) :=
  .of_still (still_popTurn a sid u)
    (effect_sendChunk ht.served ((still_popTurn a sid u).placed hp) hn.le_backlog last)

theorem act_chunk (hn : c.CanSend st.served n false) :
    Exchange.Act sid reg st.exchange [.sent (.data sid (st.unsent.take n) false)]
      { st.exchange with unsent := st.exchange.unsent.drop n } := by
  refine .chunk hn.take_ne_nil (List.take_append_drop n _) ?_
  rintro ⟨hw, hl, ht, hb⟩
  have hlast := hn.last_iff.mpr ⟨Stream.exchange_isWs.mp hw, hl, ht, hb⟩
  cases hlast

/-- Serving a WebSocket stream sends a chunk, or nothing. -/
theorem Conn.WsTurn.steps (h : a.WsTurn u sid b) (hp : a.Placed) : Steps reg a b := by
  cases h with
  | nothing ht hw => exact .still (still_popTurn a sid u)
  | chunk ht hw hn => exact (effect_popTurn_sendChunk ht hp hn).steps ht.stream (act_chunk hn)

theorem Steps.still_right (h : Steps reg a b) (hs : Still b c) : Steps reg a c := by
  cases h with
  | still h => exact .still (h.trans hs)
  | act hx ha h => exact .act hx ha (h.still hs)
  | refuse hl hv hx hp =>
    exact .refuse hl (hs.frame.trans hv) (fun s => (hs.exchange s).trans (hx s))
      (fun h => hs.placed (hp h))
  | opened hl h =>
    exact .opened hl ⟨fun s => (hs.exchange s).trans (h.exchange s), hs.frame.trans h.frame,
      fun h' => hs.placed (h.placed h')⟩

theorem noBody_eq_false {head : ResponseHead} {body : Bytes} :
    head.noBody st body = false ↔ (body ≠ [] ∧ st.isHead = false) ∧
      bodilessStatus head.code = false := by
  unfold ResponseHead.noBody
  simp only [Bool.or_eq_false_iff, List.isEmpty_eq_false_iff]

theorem Still.wsOutput (h : Still a b) (hp : a.Placed) (hs : a.stream? sid = some st)
    (hw : st.ws.isSome = true) (w : WsConn) : Steps reg a (b.takeWsOutput sid w) := by
  by_cases hlen : 0 < w.outBuf.length
  · exact (Effect.of_still h (effect_takeWsOutput (h.placed hp) hlen)).steps hs
      (.wsOutput hw w.outBuf)
  · unfold Conn.takeWsOutput
    rw [if_neg hlen]
    exact .still h

/-- **The pieces of responses are steps of exchanges.** -/
theorem ResponseAtom.steps (h : ResponseAtom none a b) (hp : a.Placed) : Steps reg a b := by
  cases h with
  | @informational _ sid st hs hr fields =>
    obtain ⟨evs, hb, he⟩ := effect_emitBlock a sid fields false
    exact he.steps hs (.informational hr hb)
  | @sendHead _ sid st hs hr hh len fields =>
    obtain ⟨evs, hb, he⟩ := effect_emitBlock (a.beginStreamed sid st len) sid fields false
    exact ((effect_beginStreamed_body a sid hs hh len).trans he).steps hs (.sendHead hr hh len hb)
  | @write _ sid st hs hph hh data hd =>
    obtain ⟨chunks, rest, hc, hq, he⟩ := effect_acceptWrite hs hp data
    exact (he.still (still_h2Enqueue _ sid)).steps hs
      (.write hph hh (List.ne_nil_of_length_pos hd) hc hq)
  | @respond _ sid st hs hr head body hb =>
    obtain ⟨evs, hblk, he⟩ := effect_emitBlock (a.beginBuffered sid head body st) sid
      (head.bufferedBlock body.length) false
    obtain ⟨⟨hne, hh⟩, hcode⟩ := noBody_eq_false.mp hb
    have hdecl : head.declared body = ⟨body.length, (head.declared body).fields⟩ := by
      unfold ResponseHead.declared
      rw [hcode]
      rfl
    have h1 := ((effect_beginBuffered a sid st head body).trans he).trans
      (effect_queueBody _ sid body)
    rw [hdecl, hh] at h1
    exact (h1.still (still_h2Enqueue _ sid)).steps hs (.respond hr hh hne _ hblk)
  | @chunk _ u sid n st ht hw hn =>
    exact ((effect_popTurn_sendChunk ht hp hn).still (still_endTurn _ sid)).steps ht.stream
      (act_chunk hn)
  | @wsAccept _ sid st hs hw hr hn fields =>
    obtain ⟨evs, hb, he⟩ := effect_emitBlock (a.attachWs sid) sid fields false
    exact ((effect_attachWs a sid).trans he).steps hs
      (.wsAccept hw hr (Stream.exchange_isWs.mpr hn) hb)
  | @wsOutput _ sid st w hs hw data close =>
    have hst : Still a (wsStage sid data close a) := still_modifyWs a sid _
    exact (hst.wsOutput hp hs (by rw [hw]; rfl) _).still_right (still_h2Enqueue _ sid)
  | @wsFlush _ sid st w hs hw =>
    exact ((Still.refl a).wsOutput hp hs (by rw [hw]; rfl) w).still_right (still_h2Enqueue _ sid)
  | @wsServed _ c' u sid h f hf =>
    exact ((h.steps hp).still_right (still_modifyWs _ sid f)).still_right (still_h2Enqueue _ sid)

theorem ResponseAtom.ends (h : ResponseAtom (some sid) a b) (hp : a.Placed) : Ends sid a b := by
  cases h with
  | @endHead _ _ st hs hr hh len fields =>
    obtain ⟨evs, hb, he⟩ := effect_emitBlock (a.beginStreamed sid st len) sid fields true
    exact (((effect_beginStreamed a sid st len).trans he).complete hs).ends hs
      (.answer hr len (.inl hh) hb)
  | @abort _ _ st hs hph =>
    have h1 : Effect sid (fun x => { x with respPhase := .rpAborted, onRespDrain := none })
        [.aborted sid] a (a.beginAbort sid) :=
      .noted rfl (.modify _ sid (fun _ => rfl) (fun _ => id))
    exact (h1.reset hs _).ends hs (.abort hph)
  | @finishBare _ _ st hs hph hh hl trailers hb =>
    have h1 := (effect_beginFinish a sid trailers).trans (effect_sendEnd _ sid)
    exact (h1.complete hs).ends hs (.finishBare hph hh hl (Stream.unsent_eq_nil.mpr hb))
  | @finishTrailers _ _ st hs hph hh hl trailers hb st' =>
    obtain ⟨evs, hblk, he⟩ := effect_emitBlock (a.beginFinish sid trailers) sid
      (st'.respTrailers.flatMap encodeTrailerField) true
    exact (((effect_beginFinish a sid trailers).trans he).complete hs).ends hs
      (.finishTrailers hph hh hl (Stream.unsent_eq_nil.mpr hb) hblk)
  | @endRespond _ _ st hs hr head body hb =>
    obtain ⟨evs, hblk, he⟩ := effect_emitBlock (a.beginBuffered sid head body st) sid
      (head.bufferedBlock body.length) true
    have hlen : st.isHead = true ∨ (head.declared body).length = -1 ∨
        (head.declared body).length = 0 := by
      unfold ResponseHead.noBody at hb
      unfold ResponseHead.declared
      cases hc : bodilessStatus head.code with
      | true => exact .inr (.inl rfl)
      | false =>
        rw [hc, Bool.or_false, Bool.or_eq_true, List.isEmpty_iff] at hb
        rcases hb with rfl | hh
        · exact .inr (.inr rfl)
        · exact .inl hh
    exact (((effect_beginBuffered a sid st head body).trans he).complete hs).ends hs
      (.answer hr _ hlen hblk)
  | @endChunk _ u _ n st ht hn =>
    obtain ⟨hw, hl, htr, hd⟩ := hn.last_iff.mp rfl
    have htake : st.unsent.take n = st.unsent := by
      have h' := List.take_append_drop n st.unsent
      rwa [show st.unsent.drop n = [] from hd, List.append_nil] at h'
    have h1 := effect_popTurn_sendChunk ht hp hn
    rw [htake] at h1
    refine (h1.complete ht.stream).ends ht.stream
      (.chunk (Stream.exchange_isWs.mpr hw) hl htr ?_)
    exact fun h => Nat.ne_of_gt hn.backlog (Stream.unsent_eq_nil.mp h)
  | @endBare _ u _ st ht hw hl hb =>
    have h1 := Effect.of_still (still_popTurn a sid u) (effect_sendEnd _ sid)
    exact (h1.complete ht.stream).ends ht.stream
      (.bare (Stream.exchange_isWs.mpr hw) hl (Stream.unsent_eq_nil.mpr hb))
  | @endTrailers _ u _ st ht hw hl hb =>
    obtain ⟨evs, hblk, he⟩ := effect_emitBlock (a.popTurn u sid) sid
      (st.served.respTrailers.flatMap encodeTrailerField) true
    exact ((Effect.of_still (still_popTurn a sid u) he).complete ht.stream).ends ht.stream
      (.trailers (Stream.exchange_isWs.mpr hw) hl (Stream.unsent_eq_nil.mpr hb) hblk)

theorem AppAtom.steps (h : AppAtom none a b) (hp : a.Placed) : Steps reg a b := by
  cases h with
  | response h => exact h.steps hp
  | resetGone hs err => exact .still (still_sendReset _ _ err)
  | fed | peerClosed | wsDrained => exact .still (.note a rfl)
  | enqueue c sid => exact .still (still_h2Enqueue a sid)
  | popStale hq hs => exact .still (.of_streams rfl rfl)
  | idle ht hn => exact .still (still_popTurn _ _ _)
  | scheduling | resuming => exact .still (.of_streams rfl rfl)
  | wsStage c sid data | wsSetOnDrain c sid => exact .still (still_modifyWs _ sid _)
  | @takeDrain _ sid cb st hs hb hc =>
    exact ((effect_takeDrain a sid).trans (.note _ rfl)).steps hs (.takeDrain hb hc)
  | setPriority c sid u i => exact .still (.modify _ sid (fun _ => rfl) (fun _ => id))
  | flushed c n => exact .still (.of_streams rfl rfl)
  | goawayNotice c => exact .still (still_h2GoawayNotice a)
  | goaway c err => exact .still (still_h2Goaway a err)

theorem AppAtom.ends (h : AppAtom (some sid) a b) (hp : a.Placed) : Ends sid a b := by
  cases h with
  | response h => exact h.ends hp
  | reset hs err => exact (removal_reset hs err).plain hs
  | detach hs => exact (removal_detachStream hs).plain hs

/-! ### Pieces of the read side -/

/-- The head, recorded and routed, before it is noted. -/
def routed (H : Hooks) (sid : ℕ) (fields : Fields) (scan : HeadScan) (es : Bool) (c : Conn) : Conn :=
  routeHead H sid (headIsWs fields)
    (if es then (c.acceptHead sid fields scan (headIsWs fields) (headIsHead fields)).noteEndStream sid
      else c.acceptHead sid fields scan (headIsWs fields) (headIsHead fields))

theorem frame_routed (H : Hooks) (sid : ℕ) (fields : Fields) (scan : HeadScan) (es : Bool)
    (c : Conn) : (routed H sid fields scan es c).exchangeFrame = c.exchangeFrame := by
  have h1 : ∀ c : Conn, (c.noteEndStream sid).exchangeFrame = c.exchangeFrame := by
    intro c
    unfold Conn.noteEndStream
    split <;> rfl
  have h2 : ∀ (c : Conn) isWs, (routeHead H sid isWs c).exchangeFrame = c.exchangeFrame := by
    intro c isWs
    unfold routeHead
    split_ifs <;> rfl
  unfold routed
  rw [h2]
  split_ifs
  · exact h1 _
  · rfl

theorem effect_headed (H : Hooks) {fields : Fields} {scan : HeadScan}
    (hs : a.stream? sid = some st) (es : Bool) :
    ∃ isWs isHead streaming, (streaming = true → isWs = false) ∧
      Effect sid (Exchange.headed scan.contentLength isWs isHead es streaming)
        [.head sid fields (st.exchange.headed scan.contentLength isWs isHead es streaming).route] a
        (headed H sid fields scan es a) := by
  obtain ⟨streaming, hstr, hu⟩ := updates_headed H a sid fields scan es
  have hu' : Updates a (routed H sid fields scan es a) sid (Stream.headed fields scan
      (headIsWs fields) (headIsHead fields) es streaming) :=
    hu.congr_right (Conn.streams_noteHead (routed H sid fields scan es a) sid).symm
  have hn : headed H sid fields scan es a = (routed H sid fields scan es a).note (.head sid fields
      (st.headed fields scan (headIsWs fields) (headIsHead fields) es streaming).route) := by
    change (routed H sid fields scan es a).noteHead sid = _
    unfold Conn.noteHead
    rw [hu'.self hs]
    rfl
  refine ⟨headIsWs fields, headIsHead fields, streaming, hstr, ?_⟩
  rw [hn]
  have he : Effect sid (Exchange.headed scan.contentLength (headIsWs fields) (headIsHead fields) es
      streaming) [] a (routed H sid fields scan es a) :=
    .of_updates hu' (frame_routed H sid fields scan es a) (fun _ _ => rfl) (fun _ _ => id)
  exact he.trans (.note _ rfl)

theorem HeadTaken.headFields {fields : Fields} {scan : HeadScan} (h : HeadTaken a sid st fields scan) :
    st.exchange.HeadFields fields scan.contentLength :=
  ⟨h.valid, _, scan, rfl, h.scanned, rfl⟩

theorem Decided.decides (h : Decided sid a b) (hs : a.stream? sid = some st) :
    ∃ evs x', Exchange.Decides sid st.exchange evs x' ∧ Effect sid (fun _ => x') evs a b := by
  have hx := Conn.exchange?_of_stream hs
  cases h with
  | tunnel hs' hw hd =>
    cases hs.symm.trans hs'
    exact ⟨_, _, .tunnel hw hd, (effect_dispatch a sid hs).const hx rfl⟩
  | streamed hs' hw hr hd hl =>
    cases hs.symm.trans hs'
    exact ⟨_, _, .streamed hw hr hd hl, (effect_dispatch a sid hs).const hx rfl⟩
  | buffered hs' hw hr hd he hl =>
    cases hs.symm.trans hs'
    obtain ⟨st1, hs1, hx1⟩ := ((still_releaseBuffered a sid).effect sid).stream hs
    have hb : st1.body = st.body := congrArg Exchange.body hx1
    have h1 := Effect.of_still (still_releaseBuffered a sid) (effect_dispatch _ sid hs1)
    rw [hb] at h1
    exact ⟨_, _, .buffered hw hr hd he hl, h1.const hx rfl⟩
  | wait hs' hwait =>
    cases hs.symm.trans hs'
    exact ⟨_, _, .wait hwait, ((Still.refl a).effect sid).const hx rfl⟩

theorem Mismatched.still (h : Mismatched sid a b) : Still a b := by
  cases h with
  | streamed => exact .refl a
  | buffered => exact still_releaseBuffered a sid

theorem effect_addTrailers (c : Conn) (sid : ℕ) (fields : Fields) :
    Effect sid (fun x => { x with endStreamSeen := true }) [] c (c.addTrailers sid fields) :=
  Effect.of_still (b := c.modify sid (fun st => { st with trailers := st.trailers ++ fields }))
    (.modify c sid (fun _ => rfl) (fun _ => id)) (effect_noteEndStream _ sid)

/-- **The pieces of the frame handlers are steps of exchanges.** -/
theorem FrameAtom.steps (h : FrameAtom none a b) : Steps reg a b := by
  cases h with
  | error c err => exact .still (still_connError a err)
  | settings H entries h hn =>
    have h1 := still_applySettings a H entries
    rw [h] at h1
    exact .still (h1.trans (.send _ rfl))
  | settingsWindow H entries h =>
    have h1 := still_applySettings a H entries
    rw [h] at h1
    exact .still ((h1.trans (.send _ rfl)).trans (still_enqueueBacklog _ _))
  | settingsFailed H entries h =>
    have h1 := still_applySettings a H entries
    rw [h] at h1
    exact .still h1
  | pingAck c payload => exact .still (.send a rfl)
  | charge c n => exact .still (still_noteControlFrame a n)
  | idleUpdate c => exact .still (still_noteIdleWindowUpdate a)
  | countReset c => exact .still (still_countReset a)
  | absorb c sid n es => exact .still (still_absorbAfterReset a sid n es)
  | forgetReset | peerGone | bufferPriority => exact .still (.of_streams rfl rfl)
  | reprioritize c sid field => exact .still (.modify a sid (fun _ => rfl) (fun _ => id))
  | @head _ _ sid st fields scan H h es hd =>
    obtain ⟨isWs, isHead, streaming, hstr, he⟩ := effect_headed H h.stream es
    obtain ⟨st1, hs1, hx1⟩ := he.stream h.stream
    obtain ⟨evs, x', hdec, hd'⟩ := hd.decides hs1
    rw [hx1] at hdec
    exact (he.trans hd').steps h.stream (.head h.fresh h.headFields isWs isHead es streaming hstr hdec)
  | @trailers _ _ sid st hs hh hn fields hd =>
    have he := effect_addTrailers a sid fields
    obtain ⟨st1, hs1, hx1⟩ := he.stream hs
    obtain ⟨evs, x', hdec, hd'⟩ := hd.decides hs1
    rw [hx1] at hdec
    exact (he.trans hd').steps hs (.trailers hh hn hdec)
  | openNew h hodd hg => exact .opened h (opening_openStream a _)
  | refuse h => exact .refuse h rfl (fun _ => rfl) id
  | @refuseEarly _ sid h =>
    have h1 := still_recordEarlyClosed { a with lastStreamId := sid } sid
    exact .refuse h h1.frame h1.exchange h1.placed
  | forgetBoth | forgetEarly => exact .still (.of_streams rfl rfl)
  | connCredit inc h =>
    exact .still (Still.trans (b := { a with connSendWindow := int32 (a.connSendWindow + inc) })
      (.of_streams rfl rfl) (.note _ rfl))
  | @streamCredit _ sid st hs inc h =>
    have h1 : Still a (a.creditSend sid inc) := by
      refine Still.trans ?_ (still_syncSendState _ sid)
      exact (Still.note a (e := .streamCredit sid inc) rfl).trans
        (.modify _ sid (fun _ => rfl) (fun _ => id))
    exact .still (h1.trans (still_h2Enqueue _ sid))

theorem FrameAtom.ends (h : FrameAtom (some sid) a b) : Ends sid a b := by
  cases h with
  | @headMismatch _ _ _ st fields scan H h es hd =>
    obtain ⟨isWs, isHead, streaming, hstr, he⟩ := effect_headed H h.stream es
    exact ((he.still hd.still).reset h.stream _).ends h.stream (.head h.fresh h.headFields _)
  | @trailersMismatch _ _ _ st hs hh fields hd =>
    have he := effect_addTrailers a sid fields
    exact ((he.still hd.still).reset hs _).ends hs (.plain _)

theorem effect_deliver {cb : ℕ} :
    Effect sid (fun x => { x with body := [] }) [.fired (.body sid cb st.body last)] c
      (c.deliver sid cb st last) := by
  have h1 : Effect sid (fun x => { x with body := [] }) [] c (c.takeBody sid) :=
    .modify c sid (fun _ => rfl) (fun _ => id)
  unfold Conn.deliver
  split_ifs
  · exact (h1.still (.note _ rfl)).trans (.note _ rfl)
  · exact h1.trans (.note _ rfl)

theorem SinkAtom.steps (h : SinkAtom a b) : Steps reg a b := by
  cases h with
  | creditConn n => exact .still (still_creditConn a n)
  | creditStream sid n => exact .still (still_creditStream a sid n)
  | @acked sid st hs hr n =>
    have h1 : Still a (a.note (.acked sid n)) := .note a rfl
    exact .still ((h1.trans (still_creditStream _ sid n)).trans (still_creditConnFor _ sid n))
  | deliver hs hcb hb => exact effect_deliver.steps hs (.deliver hcb hb)

theorem effect_buffered (c : Conn) (sid : ℕ) (data : Bytes) (n : ℕ) :
    Effect sid (fun x => { x with body := x.body ++ data }) [] c
      ((c.bufferBody sid data).countBuffered sid n) :=
  (effect_bufferBody c sid data).still (still_countBuffered _ sid _)

theorem effect_bufferedEnd (c : Conn) (sid : ℕ) (data : Bytes) (n : ℕ) :
    Effect sid (fun x => { x with body := x.body ++ data, endStreamSeen := true }) [] c
      ((((c.bufferBody sid data).countBuffered sid n).noteEndStream sid).releaseBuffered sid) :=
  ((effect_buffered c sid data n).trans (effect_noteEndStream _ sid)).still (still_releaseBuffered _ sid)

theorem effect_streamed (c : Conn) (sid : ℕ) (data : Bytes) : Effect sid (fun x => { x with
      bodyReceived := x.bodyReceived + data.length, body := x.body ++ data }) [] c
      ((c.deferBody sid data.length).bufferBody sid data) :=
  (effect_deferBody c sid data.length).trans (effect_bufferBody _ sid data)

theorem Receiving.isWs (h : Receiving c sid st) : st.exchange.isWs = false :=
  Stream.exchange_isWs.mpr h.plain

theorem EndsBody.effect (h : EndsBody sid a b) : ∃ st x', a.stream? sid = some st ∧
    Exchange.EndsBody st.exchange x' ∧ Effect sid (fun _ => x') [] a b := by
  cases h with
  | data hs hr data hl =>
    exact ⟨_, _, hs.stream, .data hs.done hs.going hs.isWs hr data hl,
      ((effect_streamed a _ data).trans (effect_noteEndStream _ _)).const
        (Conn.exchange?_of_stream hs.stream) rfl⟩
  | trailers hs hh he hr fields hl =>
    exact ⟨_, _, hs, .trailers hh he hr hl,
      (effect_addTrailers a _ fields).const (Conn.exchange?_of_stream hs) rfl⟩

theorem BodyAtom.steps (h : BodyAtom none a b) : Steps reg a b := by
  cases h with
  | debitConn c n => exact .still (.of_streams rfl rfl)
  | debitStream c sid n => exact .still (.modify a sid (fun _ => rfl) (fun _ => id))
  | streamed hs hr data hl =>
    exact (effect_streamed a _ data).steps hs.stream
      (.streamed hs.done hs.going hs.isWs hr data hl)
  | ended h =>
    obtain ⟨st, x', hs, hend, he⟩ := h.effect
    exact he.steps hs (.bodyEnd hend)
  | told h hs' hcb =>
    obtain ⟨st, x', hs, hend, he⟩ := h.effect
    obtain ⟨st', hs1, rfl⟩ := he.stream hs
    obtain rfl := Option.some.inj (hs'.symm.trans hs1)
    exact (he.trans effect_deliver).steps hs (.told hend hcb)
  | buffered hs hr hw data hb =>
    exact (effect_buffered a _ data _).steps hs.stream
      (.buffered hs.done hs.going hs.isWs hr hw data)
  | @bufferedEnd _ sid st hs hr hw hd data hb hl =>
    have h1 := effect_bufferedEnd a sid data data.length
    obtain ⟨st1, hs1, hx1⟩ := h1.stream hs.stream
    have hbody : st1.body = st.body ++ data := congrArg Exchange.body hx1
    have h2 := h1.trans (effect_dispatch _ sid hs1)
    rw [hbody] at h2
    exact h2.steps hs.stream (.bufferedEnd hs.done hs.going hs.isWs hr hw hd data hl)
  | bufferedLate hs hr hw hd data hb =>
    exact (effect_bufferedEnd a _ data _).steps hs.stream
      (.bufferedLate hs.done hs.going hs.isWs hr hw hd data)
  | @tunnelData _ sid st hs hw f data =>
    have h1 := effect_bufferBody a sid data
    unfold Conn.dataWsPending
    split_ifs
    · exact (h1.trans (effect_noteEndStream _ sid)).steps hs.stream
        (.tunnelData hs.done hs.going hs.isWs hw data true)
    · exact h1.steps hs.stream (.tunnelData hs.done hs.going hs.isWs hw data false)

theorem BodyAtom.ends (h : BodyAtom (some sid) a b) : Ends sid a b := by
  cases h with
  | overrun hs n =>
    have h1 : Still a (a.modify sid (fun st => { st with
        connDeferred := st.connDeferred + n })) := .modify a sid (fun _ => rfl) (fun _ => id)
    exact ((h1.effect sid).reset hs _).ends hs (.plain _)
  | streamedExcess hs hr n =>
    exact ((effect_deferBody a sid n).reset hs.stream _).ends hs.stream (.plain _)
  | streamedShort hs hr data =>
    exact (((effect_streamed a _ data).trans (effect_noteEndStream _ sid)).reset hs.stream _).ends
      hs.stream (.plain _)
  | bufferedOverflow hs hr hw data =>
    exact ((effect_buffered a _ data _).reset hs.stream _).ends hs.stream (.plain _)
  | bufferedShort hs hr hw data =>
    exact ((effect_bufferedEnd a _ data _).reset hs.stream _).ends hs.stream (.plain _)

theorem BlockAtom.still (h : BlockAtom a b) : Still a b := by
  cases h with
  | fragment | decoded => exact .of_streams rfl rfl
  | @failed d e h =>
    exact Still.trans (b := { a with decoder := d }) (.of_streams rfl rfl) (still_connError _ _)
  | await | append | complete => exact .of_streams rfl rfl

theorem DrainAtom.steps (hreg : Permits ok reg) {k : Call} (hk : ok k a) (h : DrainAtom k a b) :
    Steps reg a b := by
  cases h with
  | mark hs hph => exact (effect_setBackedUp a _).steps hs (.mark hph)
  | @register _ sid st hs hr cb =>
    have h1 := effect_storeDrain a sid cb
    obtain ⟨st1, hs1, -⟩ := h1.stream hs
    have hended : st.exchange.ended = false := by
      unfold Exchange.ended Stream.exchange
      cases hw : st.ws with
      | none => simpa [hw] using hr
      | some w => rfl
    exact (h1.trans (effect_h2ArmDrain _ sid hs1)).steps hs (.register (hreg.onDrain hk hs) hended)

theorem CallAtom.steps (hreg : Permits ok reg) (h : CallAtom ok none a b) (hp : a.Placed) :
    Steps reg a b := by
  cases h with
  | app h => exact h.steps hp
  | drain hk h => exact h.steps hreg hk
  | sink h => exact h.steps
  | sinkSet hs hk => exact (effect_storeSink a _ _ _).steps hs (.sinkSet (hreg.onBody hk hs))
  | sinkTold hs hk he =>
    exact ((effect_storeSink a _ _ _).trans effect_deliver).steps hs
      (.sinkTold (hreg.onBody hk hs) he)

theorem FeedAtom.still (h : FeedAtom a b) : Still a b := by
  cases h with
  | error err => exact still_connError a err
  | received f hc =>
    exact Still.trans (b := { a with sawFirstFrame := true }) (.of_streams rfl rfl) (.note _ rfl)
  | notFirst =>
    exact Still.trans (b := { a with sawFirstFrame := true }) (.of_streams rfl rfl)
      (still_connError _ _)
  | read rbuf => exact .of_streams rfl rfl
  | preface hp rbuf =>
    exact Still.trans (b := { a with rbuf := rbuf }) (.of_streams rfl rfl) (still_finishPreface _)

theorem RunAtom.steps (hreg : Permits ok reg) (h : RunAtom ok none a b) (hp : a.Placed) :
    Steps reg a b := by
  cases h with
  | call h => exact h.steps hreg hp
  | frame h | body h => exact h.steps
  | block h | feed h => exact .still h.still

theorem RunAtom.ends (h : RunAtom ok (some sid) a b) (hp : a.Placed) : Ends sid a b := by
  cases h with
  | call h =>
    cases h with
    | app h => exact h.ends hp
  | frame h | body h => exact h.ends

theorem FinishAtom.stream (h : FinishAtom sid a b) : ∃ st, a.stream? sid = some st := by
  cases h with
  | queue hs hph hh hl trailers hb | head hs hph hh trailers => exact ⟨_, hs⟩

theorem FinishAtom.finish (h : FinishAtom sid a b) (hs : a.stream? sid = some st) :
    ∃ x', Exchange.Finish st.exchange x' ∧ Effect sid (fun _ => x') [] a b := by
  have hx := Conn.exchange?_of_stream hs
  cases h with
  | queue hs' hph hh hl trailers hb =>
    cases hs.symm.trans hs'
    refine ⟨_, .queue (x := st.exchange) hph hh hl trailers (fun h => ?_), Effect.const ?_ hx rfl⟩
    · exact Nat.ne_of_gt hb (Stream.unsent_eq_nil.mp h)
    · exact (effect_beginFinish a sid trailers).still (still_h2Enqueue _ sid)
  | head hs' hph hh trailers =>
    cases hs.symm.trans hs'
    exact ⟨_, .head hph hh trailers, (effect_beginFinish a sid trailers).const hx rfl⟩

/-- The close of a WebSocket: perhaps a chunk, then the end. -/
theorem CloseBegin.steps (h : CloseBegin sid a b) (hp : a.Placed) :
    ∃ c, Steps reg a c ∧ Steps reg c b := by
  cases h with
  | @mk c' u st w h hs hw hb hc f hf =>
    refine ⟨_, (h.steps hp).still_right (still_modifyWs _ sid f), ?_⟩
    have hs1 := stream_modifyWs hs f
    have h1 := (effect_sendEnd (c'.modifyWs sid f) sid).still
      (Still.note _ (e := .fired (.wsClosed sid)) rfl)
    refine h1.steps hs1 (.wsEnd ?_ (Stream.unsent_eq_nil.mpr hb))
    rw [hw]
    rfl

end Pieces

/-! ### Invariants of exchanges, piece by piece -/

/-- Every open exchange satisfies `I`. -/
def Conn.Holds (c : Conn) (I : Exchange → Prop) : Prop := ∀ sid x, c.exchange? sid = some x → I x

section Holds

variable {reg : Call → Exchange → Prop} {ok : Call → Conn → Prop} {a b : Conn} {sid : ℕ}
  {I : Exchange → Prop}

theorem Effect.holds {evs : List Event} (h : Effect sid (fun _ => x') evs a b) (hx' : I x')
    (ha : a.Holds I) : b.Holds I := by
  intro s x hx
  rw [h.exchange s] at hx
  split_ifs at hx
  · obtain ⟨x0, -, rfl⟩ := Option.map_eq_some_iff.mp hx
    exact hx'
  · exact ha s x hx

theorem Removal.holds {evs : List Event} (h : Removal sid evs a b) (ha : a.Holds I) :
    b.Holds I := by
  intro s x hx
  rw [h.exchange s] at hx
  split_ifs at hx
  exact ha s x hx

theorem Steps.holds (h : Steps reg a b) (h0 : I {})
    (hact : ∀ sid x evs x', Exchange.Act sid reg x evs x' → I x → I x') (ha : a.Holds I)
    (hp : a.Placed) : b.Holds I ∧ b.Placed := by
  cases h with
  | still h => exact ⟨fun s x hx => ha s x (by rw [← h.exchange s, hx]), h.placed hp⟩
  | act hx hstep h => exact ⟨h.holds (hact _ _ _ _ hstep (ha _ _ hx)) ha, h.placed hp⟩
  | refuse hl hv hx hp' => exact ⟨fun s x h => ha s x (by rw [← hx s, h]), hp' hp⟩
  | opened hl h =>
    refine ⟨fun s x hx => ?_, h.placed hp⟩
    rw [h.exchange s] at hx
    split_ifs at hx
    · rw [← Option.some.inj hx]
      exact h0
    · exact ha s x hx

/-- What every step of an exchange keeps, every piece of a run keeps on all open exchanges. -/
theorem Piece.holds (hreg : Permits ok reg) (h0 : I {})
    (hact : ∀ sid x evs x', Exchange.Act sid reg x evs x' → I x → I x')
    (hfin : ∀ x x', Exchange.Finish x x' → I x → I x') (h : Piece (RunAtom ok) a b)
    (hab : a.Holds I ∧ a.Placed) : b.Holds I ∧ b.Placed := by
  obtain ⟨ha, hp⟩ := hab
  cases h with
  | @atom o _ _ h =>
    cases o with
    | none => exact (h.steps hreg hp).holds h0 hact ha hp
    | some sid =>
      obtain ⟨x, evs, -, -, hrem⟩ := (h.ends hp).ended
      exact ⟨hrem.holds ha, hrem.placed hp⟩
  | @finish _ _ sid h =>
    obtain ⟨st, hs⟩ := h.stream
    obtain ⟨x', hf, he⟩ := h.finish hs
    exact ⟨he.holds (hfin _ _ hf (ha _ _ (Conn.exchange?_of_stream hs))) ha, he.placed hp⟩
  | fired c cb => exact ⟨ha, hp⟩
  | closeBegin h =>
    obtain ⟨c, h1, h2⟩ : ∃ c, Steps reg a c ∧ Steps reg c b := h.steps hp
    obtain ⟨hc, hpc⟩ := h1.holds h0 hact ha hp
    exact h2.holds h0 hact hc hpc
  | @wsDrop _ sid hw =>
    cases hs : a.stream? sid with
    | none =>
      unfold Conn.dropWsStream
      rw [hs]
      exact ⟨ha, hp⟩
    | some st =>
      have hrem := removal_dropWsStream hs
      exact ⟨hrem.holds ha, hrem.placed hp⟩

end Holds

/-! ### Histories and lives -/

theorem Conn.history_eq (c : Conn) (sid : ℕ) :
    c.history sid = c.exchangeFrame.log.filter (fun e => e.stream? = some sid) := by
  unfold Conn.history Conn.exchangeFrame exchangeEvents
  rw [List.filter_filter]
  refine List.filter_congr (fun e _ => ?_)
  cases e.stream? <;> simp

theorem Conn.history_append {a b : Conn} {evs : List Event}
    (h : b.exchangeFrame.log = a.exchangeFrame.log ++ evs) (sid : ℕ) :
    b.history sid = a.history sid ++ evs.filter (fun e => e.stream? = some sid) := by
  rw [Conn.history_eq, Conn.history_eq, h, List.filter_append]

theorem filter_about {evs : List Event} (h : ∀ e ∈ evs, e.stream? = some sid) :
    evs.filter (fun e => e.stream? = some s) = if s = sid then evs else [] := by
  split_ifs with hs
  · exact List.filter_eq_self.mpr (fun e he => by simp [h e he, hs])
  · refine List.filter_eq_nil_iff.mpr (fun e he => ?_)
    simpa [h e he] using fun h' => hs h'.symm

theorem Conn.life_of_some {x : Exchange} (h : c.exchange? sid = some x) : c.life sid = .live x := by
  unfold Conn.life
  rw [h]

theorem Conn.life_of_none (h : c.exchange? sid = none) :
    c.life sid = if sid ≤ c.lastStreamId then .gone else .idle := by
  unfold Conn.life
  rw [h]

theorem Conn.life_congr {a b : Conn} (hx : b.exchange? s = a.exchange? s)
    (hl : b.lastStreamId = a.lastStreamId) : b.life s = a.life s := by
  unfold Conn.life
  rw [hx, hl]

theorem Conn.Opened.exchange_none (h : c.Opened) (hs : c.lastStreamId < s) :
    c.exchange? s = none := by
  unfold Conn.exchange?
  cases hst : c.stream? s with
  | none => rfl
  | some st => exact absurd (h s (by rw [hst]; rfl)) (Nat.not_le_of_gt hs)

theorem Conn.opened_iff : c.Opened ↔ ∀ s, (c.exchange? s).isSome = true → s ≤ c.lastStreamId := by
  unfold Conn.Opened Conn.exchange?
  simp only [Option.isSome_map]

/-! ### Runs of a connection are runs of its exchanges -/

/-- What the refinement relies on: positions and ids are in order, and whether a close is under
way. -/
structure Conn.Sound (cl : Bool) (c : Conn) : Prop where
  placed : c.Placed
  opened : c.Opened
  going : c.closeInProgress = cl

/-- From `a` to `b` every exchange lives on, and the callbacks `owed` on it are run. -/
structure Pays (reg : Call → Exchange → Prop) (cl : Bool) (owed : ℕ → List Callback) (a b : Conn) : Prop where
  sound : b.Sound cl
  run : ∀ s ds, ∃ es, b.history s = a.history s ++ es ∧
    Exchange.Run reg cl s ⟨a.life s, owed s ++ ds⟩ es ⟨b.life s, ds⟩

/-- From `a` to `b` every exchange lives on, if `a` is in order. -/
def Lives (reg : Call → Exchange → Prop) (cl : Bool) (a b : Conn) : Prop :=
  a.Sound cl → Pays reg cl (fun _ => []) a b

/-- Callbacks owed on one stream. -/
def owedOn (sid : ℕ) (cbs : List Callback) (s : ℕ) : List Callback := if s = sid then cbs else []

section Runs

variable {reg : Call → Exchange → Prop} {cl : Bool} {ok : Call → Conn → Prop} {a b c d : Conn}
  {sid : ℕ} {st : Stream} {owed owed' : ℕ → List Callback} {evs : List Event}

theorem Pays.trans (h1 : Pays reg cl owed a b) (h2 : Pays reg cl owed' b c) :
    Pays reg cl (fun s => owed s ++ owed' s) a c where
  sound := h2.sound
  run s ds := by
    obtain ⟨es1, e1, r1⟩ := h1.run s (owed' s ++ ds)
    obtain ⟨es2, e2, r2⟩ := h2.run s ds
    refine ⟨es1 ++ es2, by rw [e2, e1, List.append_assoc], ?_⟩
    rw [List.append_assoc]
    exact r1.trans r2

theorem Pays.lives (h1 : Pays reg cl owed a b) (h2 : Lives reg cl b c) : Pays reg cl owed a c := by
  have h := h1.trans (h2 h1.sound)
  simp only [List.append_nil] at h
  exact h

theorem Lives.refl (c : Conn) : Lives reg cl c c :=
  fun h => ⟨h, fun _ _ => ⟨[], (List.append_nil _).symm, .refl _⟩⟩

theorem Lives.trans (h1 : Lives reg cl a b) (h2 : Lives reg cl b c) : Lives reg cl a c :=
  fun h => (h1 h).lives h2

/-- From `a` to `b` the exchange `s` runs on, with `ds` owed before and `ds'` after. -/
abbrev Runs (reg : Call → Exchange → Prop) (cl : Bool) (a b : Conn) (s : ℕ)
    (ds ds' : List Callback) : Prop :=
  ∃ es, b.history s = a.history s ++ es ∧
    Exchange.Run reg cl s ⟨a.life s, ds⟩ es ⟨b.life s, ds'⟩

theorem run_of_eq {ds : List Callback} (hh : b.history s = a.history s) (hl : b.life s = a.life s) :
    Runs reg cl a b s ds ds := by
  refine ⟨[], by rw [hh, List.append_nil], ?_⟩
  rw [hl]
  exact .refl _

theorem Conn.Sound.keep {log : List Event} (ha : a.Sound cl) (hp : a.Placed → b.Placed)
    (hframe : b.exchangeFrame = { a.exchangeFrame with log := log })
    (hx : ∀ s, (b.exchange? s).isSome = true → (a.exchange? s).isSome = true) : b.Sound cl := by
  refine ⟨hp ha.placed, Conn.opened_iff.mpr fun s hs => ?_,
    (congrArg ExchangeFrame.closeInProgress hframe).trans ha.going⟩
  rw [show b.lastStreamId = a.lastStreamId from congrArg ExchangeFrame.lastStreamId hframe]
  exact Conn.opened_iff.mp ha.opened s (hx s hs)

theorem Still.lives (h : Still a b) : Lives reg cl a b := by
  intro ha
  have hl : b.lastStreamId = a.lastStreamId := congrArg ExchangeFrame.lastStreamId h.frame
  refine ⟨ha.keep h.placed h.frame fun s hs => h.exchange s ▸ hs,
    fun s ds => run_of_eq ?_ (Conn.life_congr (h.exchange s) hl)⟩
  rw [Conn.history_eq, Conn.history_eq, h.frame]

theorem Effect.sound (h : Effect sid (fun _ => x') evs a b) (ha : a.Sound cl) : b.Sound cl := by
  refine ha.keep h.placed h.frame fun s hs => ?_
  rw [h.exchange s] at hs
  split_ifs at hs with e
  · rwa [Option.isSome_map, ← e] at hs
  · exact hs

/-- One exchange takes a step, the others stay; callbacks may become owed. -/
theorem run_of_frame
    (hframe : b.exchangeFrame = { a.exchangeFrame with log := a.exchangeFrame.log ++ evs })
    (habout : ∀ e ∈ evs, e.stream? = some sid)
    (hother : ∀ s, s ≠ sid → b.exchange? s = a.exchange? s) (cbs : List Callback)
    (hrun : ∀ ds, Exchange.Run reg cl sid ⟨a.life sid, ds⟩ evs ⟨b.life sid, cbs ++ ds⟩) (s : ℕ)
    (ds : List Callback) : Runs reg cl a b s ds (owedOn sid cbs s ++ ds) := by
  have hh := Conn.history_append (congrArg ExchangeFrame.log hframe) s
  rw [filter_about habout] at hh
  unfold owedOn
  split_ifs at hh ⊢ with e
  · subst e
    exact ⟨evs, hh, hrun ds⟩
  · rw [List.append_nil] at hh
    exact run_of_eq hh
      (Conn.life_congr (hother s e) (congrArg ExchangeFrame.lastStreamId hframe))

theorem Effect.run {x : Exchange} {evs : List Event} (h : Effect sid (fun _ => x') evs a b)
    (hx : a.exchange? sid = some x) (cbs : List Callback)
    (hrun : ∀ ds, Exchange.Run reg cl sid ⟨.live x, ds⟩ evs ⟨.live x', cbs ++ ds⟩) (s : ℕ)
    (ds : List Callback) : Runs reg cl a b s ds (owedOn sid cbs s ++ ds) := by
  have hxs := h.exchange sid
  rw [if_pos rfl, hx, Option.map_some] at hxs
  refine run_of_frame h.frame h.about (fun s hs => (h.exchange s).trans (if_neg hs)) cbs ?_ s ds
  rwa [Conn.life_of_some hx, Conn.life_of_some hxs]

theorem run_announce {ds : List Callback} (hh : b.history s = a.history s)
    (hx : b.exchange? s = a.exchange? s) (hl : a.lastStreamId ≤ b.lastStreamId) :
    Runs reg cl a b s ds ds := by
  refine ⟨[], by rw [hh, List.append_nil], ?_⟩
  cases h : a.exchange? s with
  | some x =>
    rw [Conn.life_of_some h, Conn.life_of_some (hx.trans h)]
    exact .refl _
  | none =>
    rw [Conn.life_of_none h, Conn.life_of_none (hx.trans h)]
    by_cases h1 : s ≤ a.lastStreamId
    · rw [if_pos h1, if_pos (h1.trans hl)]
      exact .refl _
    · rw [if_neg h1]
      split_ifs
      · exact .skip (.refl _)
      · exact .refl _

theorem Opening.pays (h : Opening sid a b) (hlt : a.lastStreamId < sid) (ha : a.Sound cl) :
    Pays reg cl (fun _ => []) a b := by
  have hl : b.lastStreamId = sid := congrArg ExchangeFrame.lastStreamId h.frame
  refine ⟨⟨h.placed ha.placed, ?_, ?_⟩, fun s ds => ?_⟩
  · rw [Conn.opened_iff]
    intro s hs
    rw [h.exchange s] at hs
    rw [hl]
    split_ifs at hs with e
    · exact e.le
    · exact (Conn.opened_iff.mp ha.opened s hs).trans hlt.le
  · exact (congrArg ExchangeFrame.closeInProgress h.frame).trans ha.going
  · have hh := Conn.history_append (congrArg ExchangeFrame.log h.frame) s
    have habout : ∀ e ∈ [Event.opened sid], e.stream? = some sid := by simp [Event.stream?]
    rw [filter_about habout] at hh
    have hxs := h.exchange s
    split_ifs at hh hxs with e
    · subst e
      have hidle : a.life s = .idle := by
        rw [Conn.life_of_none (ha.opened.exchange_none hlt), if_neg (Nat.not_le_of_gt hlt)]
      refine ⟨_, hh, ?_⟩
      rw [hidle, Conn.life_of_some hxs]
      exact .opened (.refl _)
    · rw [List.append_nil] at hh
      exact run_announce hh hxs (hl ▸ hlt.le)

theorem pays_of_run (hb : b.Sound cl)
    (h : ∀ s ds, Runs reg cl a b s ds (owedOn sid [] s ++ ds)) :
    Pays reg cl (fun _ => []) a b := by
  refine ⟨hb, fun s ds => ?_⟩
  obtain ⟨es, e, r⟩ := h s ds
  have hnil : owedOn sid [] s = [] := by
    unfold owedOn
    split_ifs <;> rfl
  rw [hnil] at r
  exact ⟨es, e, r⟩

theorem Steps.lives (h : Steps reg a b) : Lives reg cl a b := by
  intro ha
  cases h with
  | still h => exact h.lives ha
  | act hx hact h =>
    exact pays_of_run (h.sound ha) (h.run hx [] (fun ds => .act (.refl _) hact))
  | @refuse sid hl hv hx hp =>
    have hlast : b.lastStreamId = sid := congrArg ExchangeFrame.lastStreamId hv
    refine ⟨⟨hp ha.placed, ?_, ?_⟩, fun s ds => run_announce ?_ (hx s) (hlast ▸ hl.le)⟩
    · rw [Conn.opened_iff]
      intro s hs
      rw [hx s] at hs
      rw [hlast]
      exact (Conn.opened_iff.mp ha.opened s hs).trans hl.le
    · exact (congrArg ExchangeFrame.closeInProgress hv).trans ha.going
    · rw [Conn.history_eq, Conn.history_eq, hv]
  | opened hl h => exact h.pays hl ha

theorem Ran.pays (sid : ℕ) (cb : Option Callback) (hcb : ∀ k ∈ cb, (Event.fired k).stream? = none ∨
    (Event.fired k).stream? = some sid) (h : Ran (Lives reg cl) cb a b) (ha : a.Sound cl) :
    Pays reg cl (owedOn sid cb.toList) a b := by
  cases cb with
  | none =>
    rw [show b = a from h]
    refine ⟨ha, fun s ds => ?_⟩
    unfold owedOn
    split_ifs <;> exact run_of_eq rfl rfl
  | some k =>
    refine Pays.lives (b := a.note (.fired k)) ⟨⟨ha.placed, ha.opened, ha.going⟩, fun s ds => ?_⟩ h
    have hh : (a.note (.fired k)).history s =
        a.history s ++ [Event.fired k].filter (fun e => e.stream? = some s) := by
      unfold Conn.history Conn.note
      rw [List.filter_append]
    refine ⟨_, hh, ?_⟩
    unfold owedOn
    split_ifs with e
    · subst e
      exact .fired (.refl _)
    · have hnone : [Event.fired k].filter (fun e => e.stream? = some s) = [] := by
        refine List.filter_eq_nil_iff.mpr (fun e' he' => ?_)
        rw [List.mem_singleton.mp he']
        rcases hcb k rfl with h' | h'
        · simp [h']
        · simpa [h'] using fun h'' => e h''.symm
      rw [hnone]
      exact .refl _

theorem DrainRan.pays {cb : Option ℕ} (h : DrainRan (Lives reg cl) sid cb a b) (ha : a.Sound cl) :
    Pays reg cl (owedOn sid (cb.map (fun cb => Callback.drain sid cb)).toList) a b := by
  cases cb with
  | none => exact Ran.pays sid none (by simp) h ha
  | some k =>
    rcases h with ⟨hc, rfl⟩ | h
    · refine ⟨ha, fun s ds => ?_⟩
      unfold owedOn
      split_ifs with e
      · subst e
        exact ⟨[], (List.append_nil _).symm, .forgotten (.refl _) (ha.going.symm.trans hc)⟩
      · exact run_of_eq rfl rfl
    · exact Ran.pays sid (some (.drain sid k)) (by simp [Event.stream?]) h ha

theorem owedOn_append (cbs cbs' : List Callback) (s : ℕ) :
    owedOn sid cbs s ++ owedOn sid cbs' s = owedOn sid (cbs ++ cbs') s := by
  unfold owedOn
  split_ifs <;> rfl

/-- The callbacks of a stream that was taken out are run. -/
theorem Fires.pays (h : Fires (Lives reg cl) sid st a b) (ha : a.Sound cl) :
    Pays reg cl (owedOn sid (st.exchange.debts sid)) a b := by
  obtain ⟨c1, c2, h1, h2, h3⟩ := h
  have p1 := Ran.pays sid _ (by
    intro k hk
    split_ifs at hk
    · rw [← Option.mem_some.mp hk]
      exact .inl rfl
    · cases hk) h1 ha
  have p2 := Ran.pays sid _ (by
    intro k hk
    obtain ⟨cb, -, rfl⟩ := Option.map_eq_some_iff.mp hk
    exact .inr rfl) h2 p1.sound
  have p := (p1.trans p2).trans (h3.pays p2.sound)
  simp only [owedOn_append] at p
  have e : st.exchange.debts sid = (if st.ws.isSome then some (Callback.wsClosed sid) else
      none).toList ++ (st.onBodyCb.map (fun cb => Callback.body sid cb [] true)).toList ++
        (st.onRespDrain.map (fun cb => Callback.drain sid cb)).toList := by
    unfold Exchange.debts Stream.exchange
    split_ifs <;> rfl
  rw [e]
  exact p

theorem Removal.sound (h : Removal sid evs a b) (ha : a.Sound cl) : b.Sound cl := by
  refine ha.keep h.placed h.frame fun s hs => ?_
  rw [h.exchange s] at hs
  split_ifs at hs
  · cases hs
  · exact hs

/-- One exchange ends, the others stay; callbacks may become owed. -/
theorem Removal.run {x : Exchange} {evs : List Event} (h : Removal sid evs a b)
    (hx : a.exchange? sid = some x) (ha : a.Opened) (cbs : List Callback)
    (hrun : ∀ ds, Exchange.Run reg cl sid ⟨.live x, ds⟩ evs ⟨.gone, cbs ++ ds⟩) (s : ℕ)
    (ds : List Callback) : Runs reg cl a b s ds (owedOn sid cbs s ++ ds) := by
  have hxs := h.exchange sid
  rw [if_pos rfl] at hxs
  have hle : sid ≤ b.lastStreamId := by
    rw [show b.lastStreamId = a.lastStreamId from congrArg ExchangeFrame.lastStreamId h.frame]
    exact Conn.opened_iff.mp ha sid (by rw [hx]; rfl)
  refine run_of_frame h.frame h.about (fun s hs => (h.exchange s).trans (if_neg hs)) cbs ?_ s ds
  rwa [Conn.life_of_some hx, Conn.life_of_none hxs, if_pos hle]

theorem pays_of_owed {cbs : List Callback}
    (h1 : ∀ s ds, Runs reg cl a b s ds (owedOn sid cbs s ++ ds))
    (h2 : Pays reg cl (owedOn sid cbs) b c) : Pays reg cl (fun _ => []) a c where
  sound := h2.sound
  run s ds := by
    obtain ⟨es1, e1, r1⟩ := h1 s ds
    obtain ⟨es2, e2, r2⟩ := h2.run s ds
    exact ⟨es1 ++ es2, by rw [e2, e1, List.append_assoc], r1.trans r2⟩

theorem Ends.pays (h : Ends sid a b) (hs : a.stream? sid = some st)
    (hf : Fires (Lives reg cl) sid st b c) (ha : a.Sound cl) : Pays reg cl (fun _ => []) a c := by
  obtain ⟨x, evs, hx, hend, hrem⟩ := h.ended
  obtain rfl : st.exchange = x := Option.some.inj ((Conn.exchange?_of_stream hs).symm.trans hx)
  exact pays_of_owed (hrem.run hx ha.opened _ (fun ds => .ended (.refl _) hend))
    (hf.pays (hrem.sound ha))

theorem owed_lives {cbs : List Callback}
    (h1 : ∀ s ds, Runs reg cl a b s ds (owedOn sid cbs s ++ ds)) (hb : b.Sound cl)
    (h2 : Lives reg cl b c) (s : ℕ) (ds : List Callback) :
    Runs reg cl a c s ds (owedOn sid cbs s ++ ds) := by
  obtain ⟨es1, e1, r1⟩ := h1 s ds
  obtain ⟨es2, e2, r2⟩ := (h2 hb).run s (owedOn sid cbs s ++ ds)
  exact ⟨es1 ++ es2, by rw [e2, e1, List.append_assoc], r1.trans r2⟩

theorem FinishAtom.pays (h : FinishAtom sid a b) (hs : a.stream? sid = some st)
    (hq : Lives reg cl b c) (hd : DrainRan (Lives reg cl) sid st.onRespDrain c d) (ha : a.Sound cl) :
    Pays reg cl (fun _ => []) a d := by
  obtain ⟨x', hfin, he⟩ := h.finish hs
  have hb := he.sound ha
  have h1 := owed_lives (he.run (Conn.exchange?_of_stream hs) _
    (fun ds => .finish (.refl _) hfin)) hb hq
  exact pays_of_owed h1 (hd.pays (hq hb).sound)

theorem CloseBegin.pays (h : CloseBegin sid a b) (hq : Lives reg cl b c) (hk : Kept b c)
    (ha : a.Sound cl) : Pays reg cl (fun _ => []) a (c.dropWsStream sid) := by
  obtain ⟨b', h1, h2⟩ : ∃ b', Steps reg a b' ∧ Steps reg b' b := h.steps ha.placed
  have hc := ((h1.lives.trans h2.lives).trans hq) ha
  refine hc.lives ?_
  cases hs : c.stream? sid with
  | none =>
    unfold Conn.dropWsStream
    rw [hs]
    exact .refl c
  | some st =>
    intro hsound
    have hrem := removal_dropWsStream hs
    have hw : st.exchange.isWs = true := h.ws hk st hs
    exact pays_of_run (hrem.sound hsound) (hrem.run (Conn.exchange?_of_stream hs) hsound.opened []
      (fun ds => .dropped (.refl _) hw))

/-- **Every piece of a run, with its callbacks, is a run of each exchange.** -/
theorem lives_respects (hreg : Permits ok reg) : Respects (RunAtom ok) (Lives reg cl) where
  refl := Lives.refl
  trans _ _ _ := Lives.trans
  atom _ _ h ha := (h.steps hreg ha.placed).lives ha
  ended hs h hf ha := (h.ends ha.placed).pays hs hf ha
  owed hs h hq hd ha := h.pays hs hq hd ha
  closing h hq hk ha := h.pays hq hk ha

theorem sound_newH2Conn (cfg : Config) : (newH2Conn cfg).Sound false where
  placed sid st h := by cases h
  opened := opened_newH2Conn cfg
  going := rfl

/-- Every reachable connection is in order, and each of its streams lived a run. -/
theorem Reachable.exchange_run {W : World} (hW : W.Obeys ok) (hreg : Permits ok reg) {cfg : Config}
    (h : Reachable (W.hooks n) ok cfg c) :
    c.Sound false ∧ ∀ sid, Exchange.Run reg false sid ⟨.idle, []⟩ (c.history sid)
      ⟨c.life sid, []⟩ := by
  have hl := h.related hW (lives_respects hreg) (sound_newH2Conn cfg)
  refine ⟨hl.sound, fun sid => ?_⟩
  obtain ⟨es, he, hr⟩ := hl.run sid []
  have hstart : Exchange.Run reg false sid ⟨.idle, []⟩ [] ⟨(newH2Conn cfg).life sid, []⟩ := by
    rw [Conn.life_of_none rfl]
    split_ifs
    · exact .skip (.refl _)
    · exact .refl _
  rw [he]
  exact hstart.trans hr

end Runs

end Vortex.Http2
