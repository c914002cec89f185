import Vortex.Http1.Talk

/-! # One request, one response

What a client may read on an HTTP/1 connection is the language of a small automaton, `Dialogue`:
heads of final responses with rising serials, each with interim responses before it only, of which
at most one is `100 Continue`, no head while a response is open, and nothing behind a response that
announced the close.

Every path of `Talk` that writes a head looks at `responded` first, except the answer to a parse
error.  A chunked body that turns out to be malformed after its streaming handler has answered gets
a second head (`malformed_chunk_answered_twice`).  With that excluded, and with no one resuming a
connection whose response was left mid-stream a second time (`Orderly`), everything that is put in
the write buffer is a dialogue (`responses_in_order`). -/

namespace Vortex.Http1

/-- The responses written so far. -/
structure Dialogue where
  /-- Requests below this serial are answered, or passed over. -/
  answered : ℕ := 0
  /-- The response that is open, and whether its head announced the close. -/
  underway : Option (ℕ × Bool) := none
  /-- A response that announced the close is over. -/
  ended : Bool := false
  /-- No request from this serial on was told to go on. -/
  continued : ℕ := 0

namespace Dialogue

/-- The next thing written. -/
def take (d : Dialogue) : Out → Option Dialogue
  | .interim n =>
      if d.ended = false ∧ d.underway = none ∧ d.answered ≤ n ∧ d.continued ≤ n then
        some { d with continued := n + 1 }
      else none
  | .hint n => if d.ended = false ∧ d.underway = none ∧ d.answered ≤ n then some d else none
  | .head n closes streamed =>
      if d.ended = false ∧ d.underway = none ∧ d.answered ≤ n then
        some { d with
          answered := n + 1
          underway := if streamed then some (n, closes) else none
          ended := !streamed && closes }
      else none
  | .piece n => if d.underway.map Prod.fst = some n then some d else none
  | .finish n | .cut n =>
      match d.underway with
      | some (m, closes) => if m = n then some { d with underway := none, ended := closes } else none
      | none => none

/-- What was written, if it is a dialogue. -/
def of (out : List Out) : Option Dialogue := out.foldlM take {}

theorem of_append (out : List Out) (o : Out) :
    of (out ++ [o]) = (of out).bind (fun d => d.take o) := by
  simp [of, List.foldlM_append]

end Dialogue

/-! ### Behind the head -/

/-- The head of the request is parsed. -/
def RequestParser.Behind (p : RequestParser) : Prop :=
  p.phase ≠ .ppReqLine ∧ p.phase ≠ .ppHeaders

section Behind

variable {lim : ParserLimits} {buf : Bytes} {s s' : ParseState}

theorem parseStep_behind (hb : s.parser.Behind) :
    Advances (fun t => t.parser.Behind ∧ t.parser.keepAlive = s.parser.keepAlive)
      (parseStep lim buf s) := by
  have hi := parseStep_iteration lim buf s
  generalize parseStep lim buf s = st at hi
  cases hi with
  | failed | lineFailed | raised | stuck => trivial
  | waits | ended | part | trailer => exact ⟨hb, rfl⟩
  | blank _ hp | requestLine _ hp => exact absurd hp hb.1
  | headerLine _ hp | chunkedBody _ hp | plainBody _ hp | noBody _ hp => exact absurd hp hb.2
  | body | chunk | crlf | trailersEnd => exact ⟨by simp [RequestParser.Behind], rfl⟩
  | @size nl size =>
    refine ⟨?_, rfl⟩
    by_cases h : size = 0 <;> simp [RequestParser.Behind, h]

theorem parse_behind {r : ParseResult} (hb : s.parser.Behind)
    (h : parse lim buf s = .ok (r, s')) (hr : r ≠ .prError) :
    s'.parser.Behind ∧ s'.parser.keepAlive = s.parser.keepAlive :=
  parse_advances (P := fun t => t.parser.Behind ∧ t.parser.keepAlive = s.parser.keepAlive)
    (fun _ hu => (parseStep_behind hu.1).imp fun _ h' => ⟨h'.1, h'.2.trans hu.2⟩)
    ⟨hb, rfl⟩ h hr

end Behind

namespace Talk

/-! ### A connection and its dialogue -/

/-- The connection starts no further request. -/
def Over (s : Talk) : Prop :=
  s.conn.closeAfterFlush = true ∨ s.conn.state = .csClosing ∨ s.conn.state = .csFree

/-- What was written is the dialogue `d`, and the flags say where it stands. -/
structure Follows (s : Talk) (d : Dialogue) : Prop where
  written : Dialogue.of s.out = some d
  bound : d.answered ≤ s.reqSerial + 1
  unanswered : s.conn.responded = false → d.answered ≤ s.reqSerial ∧ d.ended = false ∧
    s.respStreaming = false
  closed : s.respStreaming = false → d.underway = none
  opened : s.respStreaming = true → d.ended = false ∧ s.conn.parser.Behind ∧
    ∃ closes, d.underway = some (s.reqSerial, closes) ∧
      (closes = true → s.conn.parser.keepAlive = false ∨ s.respFraming = .rfCloseDelimited)
  past : d.ended = true → s.Over
  head : s.conn.responded = true → ∃ closes streamed, .head s.reqSerial closes streamed ∈ s.out
  continued : d.continued ≤ s.reqSerial + if s.sent100 then 1 else 0

/-- What was written is a dialogue, and whoever may still answer was called behind the head. -/
structure Sound (s : Talk) : Prop where
  follows : ∃ d, s.Follows d
  behind : s.dispatched = true → s.conn.responded = false → s.conn.parser.Behind

/-- Inside a round, once the head is parsed. -/
structure InRound (s : Talk) : Prop where
  follows : ∃ d, s.Follows d
  behind : s.conn.parser.Behind
  running : s.conn.state = .csClosing ∨ s.conn.state = .csFree → s.conn.closeAfterFlush = true

variable {s : Talk} {d : Dialogue} {s' : Talk}

theorem Follows.of_eq (h : s.Follows d) (hout : s'.out = s.out)
    (hser : s'.reqSerial = s.reqSerial) (hres : s'.conn.responded = s.conn.responded)
    (hstr : s'.respStreaming = s.respStreaming) (hfr : s'.respFraming = s.respFraming)
    (hsent : s'.sent100 = s.sent100)
    (hkeep : s.respStreaming = true → s.conn.parser.Behind → s'.conn.parser.Behind ∧
      (s.conn.parser.keepAlive = false → s'.conn.parser.keepAlive = false))
    (hover : s.Over → s'.Over) : s'.Follows d where
  written := hout ▸ h.written
  bound := hser ▸ h.bound
  unanswered hr := by
    rw [hser, hstr]
    exact h.unanswered (hres ▸ hr)
  closed hs := h.closed (hstr ▸ hs)
  opened hs := by
    rw [hstr] at hs
    obtain ⟨he, hb, closes, hu, hc⟩ := h.opened hs
    obtain ⟨hb', hk⟩ := hkeep hs hb
    refine ⟨he, hb', closes, by rw [hser, hu], fun h' => ?_⟩
    rw [hfr]
    exact (hc h').imp hk id
  past he := hover (h.past he)
  head hr := by
    rw [hser, hout]
    exact h.head (hres ▸ hr)
  continued := by
    rw [hser, hsent]
    exact h.continued

theorem Follows.whole {closes : Bool} (h : s.Follows d) (hr : s.conn.responded = false)
    (hout : s'.out = s.out ++ [.head s.reqSerial closes false])
    (hser : s'.reqSerial = s.reqSerial) (hres : s'.conn.responded = true)
    (hstr : s'.respStreaming = false) (hsent : s'.sent100 = s.sent100)
    (hover : closes = true → s'.Over) : ∃ d', s'.Follows d' := by
  obtain ⟨ha, he, hs⟩ := h.unanswered hr
  refine ⟨⟨s.reqSerial + 1, none, closes, d.continued⟩, ?_, ?_, ?_, fun _ => rfl, ?_, hover,
    fun _ => ?_, by rw [hser, hsent]; exact h.continued⟩
  · rw [hout, Dialogue.of_append, h.written]
    simp [Dialogue.take, he, h.closed hs, ha]
  · rw [hser]
  · intro h'
    rw [hres] at h'
    cases h'
  · intro h'
    rw [hstr] at h'
    cases h'
  · exact ⟨closes, false, by simp [hout, hser]⟩

theorem Follows.begin {closes : Bool} (h : s.Follows d) (hr : s.conn.responded = false)
    (hout : s'.out = s.out ++ [.head s.reqSerial closes true]) (hser : s'.reqSerial = s.reqSerial)
    (hres : s'.conn.responded = true) (hstr : s'.respStreaming = true)
    (hsent : s'.sent100 = s.sent100) (hb : s'.conn.parser.Behind)
    (hc : closes = true → s'.conn.parser.keepAlive = false ∨ s'.respFraming = .rfCloseDelimited) :
    ∃ d', s'.Follows d' := by
  obtain ⟨ha, he, hs⟩ := h.unanswered hr
  refine ⟨⟨s.reqSerial + 1, some (s.reqSerial, closes), false, d.continued⟩, ?_, ?_, ?_, ?_, ?_,
    nofun, fun _ => ?_, by rw [hser, hsent]; exact h.continued⟩
  · rw [hout, Dialogue.of_append, h.written]
    simp [Dialogue.take, he, h.closed hs, ha]
  · rw [hser]
  · intro h'
    rw [hres] at h'
    cases h'
  · intro h'
    rw [hstr] at h'
    cases h'
  · exact fun _ => ⟨rfl, hb, closes, by rw [hser], hc⟩
  · exact ⟨closes, true, by simp [hout, hser]⟩

theorem Follows.end {o : Out} (h : s.Follows d) (hs : s.respStreaming = true)
    (ho : o = .finish s.reqSerial ∨ o = .cut s.reqSerial) (hout : s'.out = s.out ++ [o])
    (hser : s'.reqSerial = s.reqSerial) (hres : s'.conn.responded = s.conn.responded)
    (hstr : s'.respStreaming = false) (hsent : s'.sent100 = s.sent100)
    (hover : s.conn.parser.keepAlive = false ∨ s.respFraming = .rfCloseDelimited → s'.Over) :
    ∃ d', s'.Follows d' := by
  obtain ⟨he, -, closes, hu, hc⟩ := h.opened hs
  refine ⟨{ d with underway := none, ended := closes }, ?_, ?_, ?_, fun _ => rfl, ?_, ?_, ?_,
    by rw [hser, hsent]; exact h.continued⟩
  · rw [hout, Dialogue.of_append, h.written]
    rcases ho with rfl | rfl <;> simp [Dialogue.take, hu]
  · rw [hser]
    exact h.bound
  · intro h'
    rw [hres] at h'
    have := (h.unanswered h').2.2
    rw [hs] at this
    cases this
  · intro h'
    rw [hstr] at h'
    cases h'
  · exact fun h' => hover (hc h')
  · intro hr
    obtain ⟨closes, streamed, hm⟩ := h.head (hres ▸ hr)
    exact ⟨closes, streamed, by simp [hout, hser, hm]⟩

theorem Follows.said {o : Out} {n : ℕ} (h : s.Follows d)
    (ho : d.take o = some { d with continued := n }) (hout : s'.out = s.out ++ [o])
    (hser : s'.reqSerial = s.reqSerial) (hconn : s'.conn = s.conn)
    (hstr : s'.respStreaming = s.respStreaming) (hfr : s'.respFraming = s.respFraming)
    (hn : n ≤ s'.reqSerial + if s'.sent100 then 1 else 0) :
    s'.Follows { d with continued := n } := by
  refine ⟨?_, hser ▸ h.bound, ?_, ?_, ?_, ?_, ?_, hn⟩
  · rw [hout, Dialogue.of_append, h.written]
    exact ho
  · rw [hconn, hser, hstr]
    exact h.unanswered
  · rw [hstr]
    exact h.closed
  · rw [hconn, hser, hstr, hfr]
    exact h.opened
  · unfold Over
    rw [hconn]
    exact h.past
  · rw [hconn, hser]
    intro hr
    obtain ⟨closes, streamed, hm⟩ := h.head hr
    exact ⟨closes, streamed, by simp [hout, hm]⟩

/-! ### What handlers do -/

theorem Follows.interim (h : s.Follows d) (hr : s.conn.responded = false)
    (hsent : s.sent100 = false) : ∃ d',
      ({ s with sent100 := true }.put (.interim s.reqSerial)).Follows d' := by
  obtain ⟨ha, he, hs⟩ := h.unanswered hr
  have hc := h.continued
  rw [hsent] at hc
  exact ⟨_, h.said (n := s.reqSerial + 1) (by simpa [Dialogue.take, he, h.closed hs, ha] using hc)
    rfl rfl rfl rfl rfl le_rfl⟩

theorem Follows.cut (h : s.Follows d) (hs : s.respStreaming = true) :
    ∃ d', (s.cut.closeAfterFlush true).Follows d' :=
  h.end hs (.inr rfl) rfl rfl rfl rfl rfl fun _ => .inl (by simp [closeAfterFlush])

theorem Follows.did {a : Act} (h : s.Follows d) (hd : Did s a s')
    (hb : s.conn.responded = false → s.conn.parser.Behind) : ∃ d', s'.Follows d' := by
  cases hd with
  | nothing => exact ⟨d, h⟩
  | whole closes hr =>
    refine h.whole hr rfl rfl rfl (h.unanswered hr).2.2 rfl fun hc => .inl ?_
    simp only [closeAfterFlush, hc, Bool.or_true]
  | begun closes framing len n hr hc => exact h.begin hr rfl rfl rfl rfl rfl (hb hr) hc
  | piece n hs =>
    obtain ⟨-, -, closes, hu, -⟩ := h.opened hs
    have ho : d.take (.piece s.reqSerial) = some d := by simp [Dialogue.take, hu]
    exact ⟨d, h.said (n := d.continued) ho rfl rfl rfl rfl rfl h.continued⟩
  | finished closes hs hc =>
    exact h.end hs (.inl rfl) rfl rfl rfl rfl rfl fun h' =>
      .inl (by simp [closeAfterFlush, hc h'])
  | aborted hs => exact h.cut hs
  | sink manualAck =>
    exact ⟨d, h.of_eq rfl rfl rfl rfl rfl rfl (fun _ hb => ⟨hb, id⟩) id⟩
  | continued manualAck hr hs =>
    have h' : ({ s with conn := s.conn.onBody manualAck } : Talk).Follows d :=
      h.of_eq rfl rfl rfl rfl rfl rfl (fun _ hb => ⟨hb, id⟩) id
    exact h'.interim hr hs
  | hinted hr =>
    obtain ⟨ha, he, hs⟩ := h.unanswered hr
    have ho : d.take (.hint s.reqSerial) = some d := by
      simp [Dialogue.take, he, h.closed hs, ha]
    exact ⟨d, h.said (n := d.continued) ho rfl rfl rfl rfl rfl h.continued⟩
  | sent => exact ⟨d, h.of_eq rfl rfl rfl rfl rfl rfl (fun _ hb => ⟨hb, id⟩) id⟩
  | shut taken n hf hc =>
    exact ⟨d, h.of_eq rfl rfl rfl rfl rfl rfl (fun _ hb => ⟨hb, id⟩) fun _ => .inl hc⟩

/-! ### Rounds -/

theorem InRound.of_acted (h : s.InRound) (hf : ∃ d, s'.Follows d) (ha : Acted s s') : s'.InRound where
  follows := hf
  behind := ha.parser ▸ h.behind
  running hst := by
    rcases ha.state with hs | hs
    · rw [hs] at hst
      exact ha.closeAfterFlush (h.running hst)
    · exact hs.2

theorem InRound.of_conn {conn : Connection} (h : s.InRound) (hc : SameFlags s.conn conn) :
    ({ s with conn := conn } : Talk).InRound := by
  obtain ⟨⟨d, hd⟩, hb, hrun⟩ := h
  have hb' : conn.parser.Behind := by
    unfold RequestParser.Behind
    rw [hc.phase]
    exact hb
  refine ⟨⟨d, hd.of_eq rfl rfl hc.responded rfl rfl rfl (fun _ _ => ⟨hb', hc.keepAlive⟩) ?_⟩, hb', ?_⟩
  · intro ho
    simpa only [Over, hc.state, hc.closeAfterFlush] using ho
  · intro hs
    simp only [hc.state, hc.closeAfterFlush] at hs ⊢
    exact hrun hs

theorem Follows.respondError (h : s.Follows d) (hr : s.conn.responded = false) :
    ∃ d', s.respondError.Follows d' :=
  h.whole hr rfl rfl rfl (h.unanswered hr).2.2 rfl fun _ => .inl rfl

theorem inRound_kept : Kept (fun _ => True) InRound where
  act s a _ h := by
    obtain ⟨d, hd⟩ := h.follows
    exact h.of_acted (hd.did (did_act s a) fun _ => h.behind) (acted_act s a)
  called s h := by
    obtain ⟨⟨d, hd⟩, hb, hrun⟩ := h
    exact ⟨⟨d, hd.of_eq rfl rfl rfl rfl rfl rfl (fun _ hb => ⟨hb, id⟩) id⟩, hb, hrun⟩
  streamed s h := h.of_conn ⟨rfl, rfl, rfl, rfl, rfl, id⟩
  fed s last h := h.of_conn (feedBody_sameFlags s.conn last)
  sendContinue s h := by
    obtain ⟨d, hd⟩ := h.follows
    unfold Talk.sendContinue
    split_ifs with hc
    · simp only [Bool.and_eq_true, Bool.not_eq_true'] at hc
      exact h.of_acted (hd.interim hc.2 hc.1.2)
        (.of_state rfl rfl rfl rfl rfl rfl rfl rfl rfl id id rfl)
    · exact h
  deadline s b h := by
    obtain ⟨⟨d, hd⟩, hb, hrun⟩ := h
    exact ⟨⟨d, hd.of_eq rfl rfl rfl rfl rfl rfl (fun _ hb => ⟨hb, id⟩) id⟩, hb, hrun⟩
  error s hr h := by
    obtain ⟨d, hd⟩ := h.follows
    exact ⟨hd.respondError hr, h.behind, fun _ => rfl⟩

theorem Follows.reset (h : s.Follows d) (hs : s.respStreaming = false) (ho : ¬ s.Over) :
    s.resetForNextRequest.Follows d where
  written := h.written
  bound := h.bound.trans (Nat.le_succ _)
  unanswered _ := ⟨h.bound, by simpa using mt h.past ho, rfl⟩
  closed _ := h.closed hs
  opened h' := nomatch h'
  past h' := absurd (h.past h') ho
  head h' := nomatch h'
  continued := by
    have hle := h.continued
    change d.continued ≤ s.reqSerial + 1
    split_ifs at hle <;> omega

theorem InRound.settle (h : s.InRound) : s.settle.Sound := by
  obtain ⟨⟨d, hd⟩, hb, hrun⟩ := h
  unfold Talk.settle
  split_ifs with hr hs hc
  · exact ⟨⟨d, hd.of_eq rfl rfl rfl rfl rfl rfl (fun _ hb => ⟨hb, id⟩) id⟩, fun _ _ => hb⟩
  · exact ⟨⟨d, hd.of_eq rfl rfl rfl rfl rfl rfl (fun _ hb => ⟨hb, id⟩) id⟩, fun _ _ => hb⟩
  · exact ⟨⟨d, hd.of_eq rfl rfl rfl rfl rfl rfl (fun _ hb => ⟨hb, id⟩) fun _ => .inl hc⟩, fun _ _ => hb⟩
  · refine ⟨⟨d, hd.reset (by simpa using hs) fun ho => hc ?_⟩, nofun⟩
    rcases ho with ho | ho
    · exact ho
    · exact hrun ho

theorem InRound.sound (h : s.InRound) : s.Sound := ⟨h.follows, fun _ _ => h.behind⟩

section Steps

variable {cfg : LoopSettings} {route : RequestParser → Bool} {sc : Script} {res : ParseResult}
  {st : ParseState}

theorem Sound.parsed (h : s.Sound) (hv : s.verdict cfg = .ok (res, st)) (hres : res ≠ .prError) :
    (s.parsed st).Sound := by
  obtain ⟨⟨d, hd⟩, hb⟩ := h
  have hstep : s.conn.parser.Behind → st.parser.Behind ∧
      st.parser.keepAlive = s.conn.parser.keepAlive := fun hb => parse_behind (by exact hb) hv hres
  refine ⟨⟨d, hd.of_eq rfl rfl rfl rfl rfl rfl ?_ id⟩, fun hd hr => (hstep (hb hd hr)).1⟩
  exact fun _ hb => ⟨(hstep hb).1, fun hk => (hstep hb).2.trans hk⟩

theorem Sound.inRound (h : s.Sound) (ht : s.Takes) (hb : s.conn.parser.Behind) : s.InRound :=
  ⟨h.follows, hb, fun hs => absurd hs (not_or.mpr ht.2.2)⟩

theorem Sound.judged (h : s.Sound) (ht : s.Takes) (hv : s.verdict cfg = .ok (res, st))
    (hok : res = .prError → s.conn.responded = false) : (s.judged cfg route sc res st).Sound := by
  have hkept := inRound_kept
  have hphase := parse_phaseAgrees cfg.limits (s.conn.rbuf.take s.conn.rlen)
    ⟨s.conn.parser, s.conn.chunkBody⟩
  rw [show parse _ _ _ = Except.ok (res, st) from hv] at hphase
  cases res with
  | prNeedMore =>
    have hp := h.parsed hv (by decide)
    by_cases hin : st.parser.inBody = true
    · have hb : st.parser.Behind := by
        constructor <;> intro hph <;> simp [RequestParser.inBody, hph] at hin
      exact (hkept.needMore route (fun _ _ => trivial) (hp.inRound ht hb)).sound
    · obtain ⟨⟨d, hd⟩, hb⟩ := hp
      simp only [Talk.judged, Talk.needMore]
      rw [if_neg (by exact hin)]
      exact ⟨⟨d, hd.of_eq rfl rfl rfl rfl rfl rfl (fun _ hb => ⟨hb, id⟩) id⟩, hb⟩
  | prError =>
    obtain ⟨d, hd⟩ := h.follows
    have hr := hok rfl
    have hd' : (s.parsed st).Follows d := by
      refine hd.of_eq rfl rfl rfl rfl rfl rfl (fun hs => ?_) id
      rw [(hd.unanswered hr).2.2] at hs
      cases hs
    exact ⟨hd'.respondError hr, fun _ h' => by cases h'⟩
  | prComplete =>
    have hp := h.parsed hv (by decide)
    have hph : st.parser.phase = .ppComplete := hphase
    have hb : st.parser.Behind := by
      constructor <;> rw [hph] <;> decide
    have hcount := (hkept.deadline _ false (hp.inRound ht hb)).of_conn
      (countRequest_sameFlags cfg (s.parsed st).conn)
    refine hkept.complete route (fun _ _ => trivial) (fun s h => h.settle) ?_ ?_ hcount
    · exact fun s hr h => (hkept.error s hr h).sound
    · intro _ s hs h
      obtain ⟨d, hd⟩ := h.follows
      refine InRound.settle ⟨hd.cut hs, h.behind, fun _ => ?_⟩
      simp [closeAfterFlush]

theorem Sound.act (h : s.Sound) (hd : s.dispatched = true) (a : Act) : (s.act a).Sound := by
  obtain ⟨d, hf⟩ := h.follows
  have ha := acted_act s a
  refine ⟨hf.did (did_act s a) (h.behind hd), fun _ hr => ?_⟩
  rw [ha.parser]
  exact h.behind hd (ha.responded hr)

theorem Sound.acts (h : s.Sound) (hd : s.dispatched = true) (as : List Act) :
    (s.acts as).Sound := by
  induction as generalizing s with
  | nil => exact h
  | cons a as ih => exact ih (h.act hd a) ((acted_act s a).dispatched.trans hd)

theorem Sound.resumeAfterRespond (h : s.Sound)
    (hok : s.conn.state = .csClosing ∨ s.conn.state = .csFree → s.conn.closeAfterFlush = true) :
    s.resumeAfterRespond.Sound := by
  obtain ⟨⟨d, hd⟩, hb⟩ := h
  unfold Talk.resumeAfterRespond
  split_ifs with hc hs
  · exact ⟨⟨d, hd.of_eq rfl rfl rfl rfl rfl rfl (fun _ hb => ⟨hb, id⟩) fun _ => .inl hc⟩, hb⟩
  · refine ⟨hd.end hs (.inr rfl) rfl rfl rfl rfl rfl fun _ => .inr (.inl rfl), hb⟩
  · refine ⟨⟨d, hd.reset (by simpa using hs) fun ho => hc ?_⟩, nofun⟩
    exact ho.elim id hok

theorem Sound.of_state (h : s.Sound) (hout : s'.out = s.out) (hser : s'.reqSerial = s.reqSerial)
    (hres : s'.conn.responded = s.conn.responded) (hstr : s'.respStreaming = s.respStreaming)
    (hfr : s'.respFraming = s.respFraming) (hsent : s'.sent100 = s.sent100)
    (hdis : s'.dispatched = s.dispatched) (hph : s'.conn.parser.phase = s.conn.parser.phase)
    (hka : s.conn.parser.keepAlive = false → s'.conn.parser.keepAlive = false)
    (hover : s.Over → s'.Over) : s'.Sound := by
  obtain ⟨⟨d, hd⟩, hb⟩ := h
  have hbeh : s.conn.parser.Behind → s'.conn.parser.Behind := by
    unfold RequestParser.Behind
    rw [hph]
    exact id
  refine ⟨⟨d, hd.of_eq hout hser hres hstr hfr hsent (fun _ hb => ⟨hbeh hb, hka⟩) hover⟩, ?_⟩
  rw [hdis, hres]
  exact fun h1 h2 => hbeh (hb h1 h2)

theorem Sound.closeConn (h : s.Sound) : s.closeConn.Sound := by
  refine h.of_state rfl rfl ?_ rfl rfl rfl rfl ?_ ?_ fun _ => .inr (.inr rfl)
  all_goals
    simp only [Talk.closeConn, Connection.closeConn, Connection.deliver]
    split_ifs <;> simp

theorem Sound.flushOut (h : s.Sound) (taken : ℕ) : (s.flushOut taken).Sound := by
  unfold Talk.flushOut
  dsimp only
  split_ifs with hc
  · simp only [Bool.and_eq_true] at hc
    exact h.of_state rfl rfl rfl rfl rfl rfl rfl rfl id fun _ => .inl hc.2
  · exact h.of_state rfl rfl rfl rfl rfl rfl rfl rfl id id

theorem Over.closeAfterFlush (closes : Bool) (h : s.Over) : (s.closeAfterFlush closes).Over :=
  h.imp (fun hc => by simp [Talk.closeAfterFlush, hc]) id

theorem Sound.halfClosed (h : s.Sound) : s.halfClosed.Sound := by
  unfold Talk.halfClosed
  split_ifs with hp hw
  · exact h.of_state rfl rfl rfl rfl rfl rfl rfl rfl id fun ho => ho.closeAfterFlush true
  · simp only [Bool.and_eq_true, decide_eq_true_eq] at hp
    refine h.of_state rfl rfl rfl rfl rfl rfl rfl rfl id fun ho => .inl ?_
    rcases ho with ho | ho | ho
    · exact ho
    · rw [hp.1.2] at ho
      cases ho
    · rw [hp.1.2] at ho
      cases ho
  · exact h

theorem Sound.markDrain (h : s.Sound) (taken : ℕ) : (s.markDrain taken).Sound := by
  unfold Talk.markDrain
  split_ifs
  · exact h
  · refine Sound.flushOut ?_ taken
    exact h.of_state rfl rfl rfl rfl rfl rfl rfl rfl (fun _ => rfl) fun ho => ho.closeAfterFlush true
  · exact h.closeConn

end Steps

/-! ### Runs -/

/-- A parse error comes before the request is answered, and a response that was left mid-stream is
not resumed again. -/
def Orderly (cfg : LoopSettings) (s : Talk) (a : Action) : Prop :=
  match a with
  | .round _ => ∀ st, s.verdict cfg = .ok (.prError, st) → s.conn.responded = false
  | .kick | .answer => s.conn.state = .csClosing → s.conn.closeAfterFlush = true
  | _ => True

variable {cfg : LoopSettings} {route : RequestParser → Bool}

theorem Sound.step {s' : Talk} {a : Action} (h : s.Sound) (hok : Orderly cfg s a)
    (hs : s.step cfg route a = some s') : s'.Sound := by
  cases a with
  | read r =>
    simp only [Talk.step] at hs
    split_ifs at hs
    cases hs
    exact h.of_state rfl rfl rfl rfl rfl rfl rfl rfl id id
  | fin =>
    cases hs
    exact h.of_state rfl rfl rfl rfl rfl rfl rfl rfl id id
  | round sc =>
    simp only [Talk.step] at hs
    split_ifs at hs with ht
    cases hv : s.verdict cfg with
    | error d =>
      rw [hv] at hs
      cases hs
    | ok r =>
      obtain ⟨res, st⟩ := r
      rw [hv] at hs
      cases hs
      exact h.judged ht hv fun he => hok st (by rw [hv, he])
  | act a =>
    simp only [Talk.step] at hs
    split_ifs at hs with hd
    cases hs
    simp only [Bool.and_eq_true] at hd
    exact h.act hd.1 a
  | kick =>
    simp only [Talk.step] at hs
    split_ifs at hs with hk
    cases hs
    exact h.resumeAfterRespond fun hst => hst.elim hok fun hf => absurd hf hk.2.1
  | answer =>
    simp only [Talk.step] at hs
    split_ifs at hs with hd
    cases hs
    have ha := acted_act s .respond
    refine (h.act hd.1 .respond).resumeAfterRespond fun hst => ?_
    rcases ha.state with hs | hs
    · rw [hs] at hst
      exact ha.closeAfterFlush (hst.elim hok fun hf => absurd hf hd.2)
    · exact hs.2
  | file as last =>
    simp only [Talk.step] at hs
    split_ifs at hs with hd hl
    · cases hs
      have ha := acted_acts s as
      refine (h.acts hd.1 as).resumeAfterRespond fun hst => ?_
      rcases ha.state with hs | hs
      · rw [hs, hd.2] at hst
        simp at hst
      · exact hs.2
    · cases hs
      exact h.acts hd.1 as
  | timeout =>
    simp only [Talk.step] at hs
    split_ifs at hs with ht
    cases hs
    obtain ⟨d, hd⟩ := h.follows
    exact ⟨hd.respondError ht.2.2, fun _ h' => nomatch h'⟩
  | flush taken =>
    simp only [Talk.step] at hs
    split_ifs at hs
    cases hs
    exact h.flushOut taken
  | halfClosed =>
    cases hs
    exact h.halfClosed
  | markDrain taken =>
    cases hs
    exact h.markDrain taken
  | drainSweep =>
    cases hs
    unfold Talk.drainSweep
    split_ifs
    · exact h.closeConn
    · exact h
  | close =>
    cases hs
    exact h.closeConn

theorem sound_start : ({} : Talk).Sound :=
  ⟨⟨{}, rfl, Nat.zero_le _, fun _ => ⟨Nat.zero_le _, rfl, rfl⟩, fun _ => rfl, nofun, nofun,
    nofun, le_rfl⟩, nofun⟩

/-- **In every orderly run the write buffer gets one final head per answered request, in the order
of the requests, no head while a response is open and nothing behind an announced close.** -/
theorem responses_in_order (cfg : LoopSettings) (route : RequestParser → Bool)
    (h : ((system cfg route).restrict (Orderly cfg)).Reachable s) :
    (∃ d, Dialogue.of s.out = some d) ∧
      (s.conn.responded = true →
        ∃ closes streamed, .head s.reqSerial closes streamed ∈ s.out) := by
  have hsound : s.Sound := h.invariant (fun s hs => by cases hs; exact sound_start)
    fun s a s' ih hs => by
      obtain ⟨hok, hs⟩ := System.step_restrict.mp hs
      exact ih.step hok hs
  obtain ⟨d, hd⟩ := hsound.follows
  exact ⟨⟨d, hd.written⟩, hd.head⟩

/-- The orderly runs of a connection with buffered routes. -/
noncomputable def bufferedRuns : System Talk Action :=
  (system ⟨⟨1000, 100, 1000⟩, 0, true⟩ fun _ => false).restrict (Orderly ⟨⟨1000, 100, 1000⟩, 0, true⟩)

set_option maxRecDepth 4000 in
/-- A client that waits for `100 Continue` sends its body with a second request behind it.  The first
is answered outside the dispatch, the second in it. -/
theorem responses_in_order_pipelined : ∃ s, bufferedRuns.Reachable s ∧
    s.out = [.interim 0, .head 0 false false, .head 1 false false] ∧
      ∃ d, Dialogue.of s.out = some d := by
  have h₁ : bufferedRuns.Reachable _ := .next (.read (ascii
    "POST / HTTP/1.1\r\nHost: a\r\nExpect: 100-continue\r\nContent-Length: 1\r\n\r\n"))
    (.start rfl) (System.step_restrict.mpr ⟨trivial, rfl⟩)
  have h₂ : bufferedRuns.Reachable _ :=
    .next (.round {}) h₁ (System.step_restrict.mpr ⟨fun _ _ => rfl, rfl⟩)
  have h₃ : bufferedRuns.Reachable _ := .next (.read (ascii "xGET / HTTP/1.1\r\nHost: a\r\n\r\n"))
    h₂ (System.step_restrict.mpr ⟨trivial, rfl⟩)
  have h₄ : bufferedRuns.Reachable _ :=
    .next (.round {}) h₃ (System.step_restrict.mpr ⟨fun _ _ => rfl, rfl⟩)
  have h₅ : bufferedRuns.Reachable _ :=
    .next (.act .respond) h₄ (System.step_restrict.mpr ⟨trivial, rfl⟩)
  have h₆ : bufferedRuns.Reachable _ :=
    .next .kick h₅ (System.step_restrict.mpr ⟨nofun, rfl⟩)
  have h₇ : bufferedRuns.Reachable _ :=
    .next (.round { acts := [.respond] }) h₆ (System.step_restrict.mpr ⟨fun _ _ => rfl, rfl⟩)
  exact ⟨_, h₇, by decide, (responses_in_order _ _ h₇).1⟩

/-- A streaming handler answers at headers-complete, and then the chunked body turns out to be
malformed: the parse error is answered with a second head. -/
theorem malformed_chunk_answered_twice :
    ∃ s, (system ⟨⟨1000, 100, 1000⟩, 0, true⟩ fun _ => true).Reachable s ∧
      s.out = [.head 0 false false, .head 0 true false] ∧ Dialogue.of s.out = none := by
  have hrun : (([.read (ascii
        "POST /u HTTP/1.1\r\nHost: a\r\nTransfer-Encoding: chunked\r\n\r\n"),
      .round { acts := [.respond] }, .flush 1, .read (ascii "zz\r\n"), .round {}] :
        List Action).foldlM (step ⟨⟨1000, 100, 1000⟩, 0, true⟩ fun _ => true) {}).map Talk.out =
      some [.head 0 false false, .head 0 true false] := by
    decide
  obtain ⟨s, hs, hout⟩ := Option.map_eq_some_iff.mp hrun
  refine ⟨s, System.Reachable.foldlM (.start rfl) hs, hout, ?_⟩
  rw [hout]
  rfl

end Talk

end Vortex.Http1
