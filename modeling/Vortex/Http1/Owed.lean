import Vortex.Http1.Talk

/-! # A response that is owed

A connection whose handler was called owes a response until that response is finished.  Its write
side is shut by a flush that empties the write buffer of a connection that is to be closed, by the
half-close at the end of `handleRead`, and by the two steps of a graceful shutdown.

`closeAfterFlush` is set early by the last two, before the answer exists, and `markDrain` flushes
right away: an answer that is deferred on the loop finds its socket shut
(`drain_shuts_deferred_response`).  Where nobody fails (`Unfailing`), and shutdown and flushes keep
away from a connection that is told to close while it owes a response (`Undisturbed`), the write
side is shut only when every response is complete and handed over (`shut_after_responses`). -/

namespace Vortex.Http1

namespace Talk

/-- The handler was called and its response is not over. -/
def Owes (s : Talk) : Prop :=
  s.dispatched = true ∧ (s.conn.responded = false ∨ s.respStreaming = true)

/-- The whole response to a request was written. -/
def Answered (out : List Out) (serial : ℕ) : Prop :=
  (∃ closes, .head serial closes false ∈ out) ∨
    (∃ closes, .head serial closes true ∈ out) ∧ .finish serial ∈ out

theorem Answered.mono {out out' : List Out} {n : ℕ} (h : Answered out n) (hs : out ⊆ out') :
    Answered out' n :=
  h.imp (fun ⟨closes, hm⟩ => ⟨closes, hs hm⟩) fun ⟨⟨closes, hm⟩, hf⟩ => ⟨⟨closes, hs hm⟩, hs hf⟩

/-! ### What is written of each response -/

/-- Every request whose handler was called is answered or the present one, and the flags say how
much of the present response is written. -/
structure Books (s : Talk) : Prop where
  calls : ∀ n ∈ s.calls, Answered s.out n ∧ n < s.reqSerial ∨ n = s.reqSerial ∧ s.dispatched = true
  whole : s.conn.responded = true → s.respStreaming = false → Answered s.out s.reqSerial
  begun : s.respStreaming = true → s.conn.responded = true ∧
    ∃ closes, .head s.reqSerial closes true ∈ s.out

variable {s s' : Talk} {a : Act}

theorem Books.unanswered (h : s.Books) (hr : s.conn.responded = false) :
    s.respStreaming = false := by
  cases hs : s.respStreaming with
  | false => rfl
  | true =>
    have := (h.begun hs).1
    rw [hr] at this
    cases this

theorem Books.put (h : s.Books) (hout : s.out ⊆ s'.out) (hser : s'.reqSerial = s.reqSerial)
    (hdis : s'.dispatched = s.dispatched) (hcalls : s'.calls = s.calls)
    (hwhole : s'.conn.responded = true → s'.respStreaming = false → Answered s'.out s.reqSerial)
    (hbegun : s'.respStreaming = true → s'.conn.responded = true ∧
      ∃ closes, .head s.reqSerial closes true ∈ s'.out) : s'.Books where
  calls n hn := by
    rw [hser, hdis]
    exact (h.calls n (hcalls ▸ hn)).imp_left fun h' => ⟨h'.1.mono hout, h'.2⟩
  whole := by
    rw [hser]
    exact hwhole
  begun := by
    rw [hser]
    exact hbegun

theorem Books.same (h : s.Books) (hout : s.out ⊆ s'.out) (hser : s'.reqSerial = s.reqSerial)
    (hdis : s'.dispatched = s.dispatched) (hcalls : s'.calls = s.calls)
    (hres : s'.conn.responded = s.conn.responded) (hstr : s'.respStreaming = s.respStreaming) :
    s'.Books := by
  refine h.put hout hser hdis hcalls ?_ ?_
  · rw [hres, hstr]
    exact fun hr hs => (h.whole hr hs).mono hout
  · rw [hres, hstr]
    intro hs
    obtain ⟨hr, closes, hm⟩ := h.begun hs
    exact ⟨hr, closes, hout hm⟩

theorem Books.answer (h : s.Books) {closes : Bool}
    (hout : s'.out = s.out ++ [.head s.reqSerial closes false]) (hser : s'.reqSerial = s.reqSerial)
    (hdis : s'.dispatched = s.dispatched) (hcalls : s'.calls = s.calls)
    (hstr : s'.respStreaming = false) : s'.Books := by
  refine h.put (by simp [hout]) hser hdis hcalls (fun _ _ => .inl ⟨closes, by simp [hout]⟩) ?_
  rw [hstr]
  exact nofun

theorem Books.did (h : s.Books) (hd : Did s a s') (ha : a ≠ .abort) : s'.Books := by
  cases hd with
  | nothing => exact h
  | whole closes hr => exact h.answer rfl rfl rfl rfl (h.unanswered hr)
  | begun closes =>
    refine h.put (List.subset_append_left _ _) rfl rfl rfl nofun fun _ => ⟨rfl, closes, ?_⟩
    exact List.mem_append_right _ (List.mem_singleton_self _)
  | finished closes hs =>
    obtain ⟨-, closes, hm⟩ := h.begun hs
    refine h.put (List.subset_append_left _ _) rfl rfl rfl (fun _ _ => .inr ?_) nofun
    exact ⟨⟨closes, List.mem_append_left _ hm⟩, List.mem_append_right _ (by simp)⟩
  | aborted => exact absurd rfl ha
  | piece | continued | hinted => exact h.same (List.subset_append_left _ _) rfl rfl rfl rfl rfl
  | sink | sent | shut => exact h.same (List.Subset.refl _) rfl rfl rfl rfl rfl

theorem Books.reset (h : s.Books) (hr : s.conn.responded = true) (hs : s.respStreaming = false) :
    s.resetForNextRequest.Books where
  calls n hn := by
    rcases h.calls n hn with h' | ⟨rfl, -⟩
    · exact .inl ⟨h'.1, h'.2.trans (Nat.lt_succ_self _)⟩
    · exact .inl ⟨h.whole hr hs, Nat.lt_succ_self _⟩
  whole h' := nomatch h'
  begun h' := nomatch h'

/-! ### When the socket may be shut -/

/-- A connection that is to be closed owes nothing, or it waits (`w`), and one that is shut has
sent everything. -/
structure Safe (w : Prop) (s : Talk) : Prop where
  books : s.Books
  closing : s.conn.closeAfterFlush = true →
    s.conn.responded = true ∧ s.respStreaming = false ∨ w
  shut : s.shut = true → s.flushed = true ∧ s.conn.state ≠ .csActive ∧
    s.conn.responded = true ∧ s.respStreaming = false

/-- The same between the steps of the loop. -/
structure Paid (s : Talk) : Prop where
  books : s.Books
  closing : s.conn.closeAfterFlush = true → s.Owes → s.conn.awaitingResponse = true
  shut : s.shut = true → s.flushed = true ∧ s.conn.state ≠ .csActive ∧ ¬ s.Owes

variable {w : Prop}

theorem not_owes (hr : s.conn.responded = true) (hs : s.respStreaming = false) : ¬ s.Owes := by
  rintro ⟨-, h | h⟩
  · rw [hr] at h
    cases h
  · rw [hs] at h
    cases h

theorem over_of_not_owes (hd : s.dispatched = true) (h : ¬ s.Owes) :
    s.conn.responded = true ∧ s.respStreaming = false := by
  constructor
  · by_contra hr
    exact h ⟨hd, .inl (by simpa using hr)⟩
  · by_contra hs
    exact h ⟨hd, .inr (by simpa using hs)⟩

theorem Paid.safe (h : s.Paid) (hd : s.dispatched = true) :
    s.Safe (s.conn.closeAfterFlush = true ∧ s.Owes) where
  books := h.books
  closing hc := by
    by_cases ho : s.Owes
    · exact .inr ⟨hc, ho⟩
    · exact .inl (over_of_not_owes hd ho)
  shut hs :=
    let ⟨hf, hst, ho⟩ := h.shut hs
    ⟨hf, hst, over_of_not_owes hd ho⟩

theorem Safe.paid (h : s.Safe w) (hw : w → s.conn.awaitingResponse = true) : s.Paid where
  books := h.books
  closing hc ho := (h.closing hc).elim (fun h' => absurd ho (not_owes h'.1 h'.2)) hw
  shut hs :=
    let ⟨hf, hst, hr, hr'⟩ := h.shut hs
    ⟨hf, hst, not_owes hr hr'⟩

theorem Did.silent (hd : Did s a s') (hr : s.conn.responded = true) (hs : s.respStreaming = false) :
    s'.out = s.out ∧ s'.conn.responded = true ∧ s'.respStreaming = false := by
  cases hd with
  | nothing | sink | sent | shut => exact ⟨rfl, hr, hs⟩
  | whole _ h | begun _ _ _ _ h | continued _ h | hinted h =>
    rw [hr] at h
    cases h
  | piece _ h | finished _ h | aborted h =>
    rw [hs] at h
    cases h

theorem Did.closing (hd : Did s a s') (hb : s.Books) (ha : a ≠ .abort)
    (hc : s.conn.closeAfterFlush = false) (hc' : s'.conn.closeAfterFlush = true) :
    s'.conn.responded = true ∧ s'.respStreaming = false := by
  cases hd with
  | whole closes hr => exact ⟨rfl, hb.unanswered hr⟩
  | finished closes hs => exact ⟨(hb.begun hs).1, rfl⟩
  | aborted => exact absurd rfl ha
  | nothing | begun | piece | sink | continued | hinted | sent | shut =>
    exact nomatch hc.symm.trans hc'

theorem Did.shuts (hd : Did s a s') (h : s'.shut = true) :
    s.shut = true ∧ s'.sent = s.sent ∨ (∃ taken, a = .flush taken) ∧ s'.flushed = true ∧
      s'.conn.state = .csDraining ∧ s.conn.closeAfterFlush = true := by
  cases hd with
  | sent taken n hs => exact nomatch hs.symm.trans h
  | shut taken n hf hc => exact .inr ⟨⟨taken, rfl⟩, hf, rfl, hc⟩
  | nothing | whole | begun | piece | finished | aborted | sink | continued | hinted =>
    exact .inl ⟨h, rfl⟩

theorem Safe.did (h : s.Safe w) (hd : Did s a s') (ha : a ≠ .abort)
    (hw : w → ∀ taken, a ≠ .flush taken) : s'.Safe w where
  books := h.books.did hd ha
  closing hc' := by
    cases hc : s.conn.closeAfterFlush with
    | false => exact .inl (hd.closing h.books ha hc hc')
    | true => exact (h.closing hc).imp_left fun hr => (hd.silent hr.1 hr.2).2
  shut hsh := by
    rcases hd.shuts hsh with ⟨hs, hsent⟩ | ⟨⟨taken, rfl⟩, hf, hst, hc⟩
    · obtain ⟨hf, hst, hr, hr'⟩ := h.shut hs
      obtain ⟨ho, hover⟩ := hd.silent hr hr'
      refine ⟨?_, ?_, hover⟩
      · unfold flushed
        rw [ho, hsent]
        exact hf
      · rcases hd.acted.state with hs' | hs'
        · rwa [hs']
        · rw [hs'.1]
          decide
    · rcases h.closing hc with hr | hw'
      · exact ⟨hf, by rw [hst]; decide, (hd.silent hr.1 hr.2).2⟩
      · exact absurd rfl (hw hw' taken)

theorem Safe.acts (h : s.Safe w) {as : List Act} (ha : .abort ∉ as)
    (hw : w → ∀ taken, .flush taken ∉ as) : (s.acts as).Safe w := by
  induction as generalizing s with
  | nil => exact h
  | cons a as ih =>
    refine ih (h.did (did_act s a) (fun he => ha (he ▸ List.mem_cons_self)) ?_)
      (fun hm => ha (List.mem_cons_of_mem _ hm))
      fun hw' taken hm => hw hw' taken (List.mem_cons_of_mem _ hm)
    exact fun hw' taken he => hw hw' taken (he ▸ List.mem_cons_self)

theorem Safe.of_conn {conn : Connection} {dkResponse : Bool} (h : s.Safe w)
    (hc : SameFlags s.conn conn) :
    ({ s with conn := conn, dkResponse := dkResponse } : Talk).Safe w where
  books := h.books.same (List.Subset.refl _) rfl rfl rfl hc.responded rfl
  closing hcl := by
    rw [show conn.responded = _ from hc.responded]
    exact h.closing (hc.closeAfterFlush ▸ hcl)
  shut hs := by
    obtain ⟨hf, hst, hr⟩ := h.shut hs
    refine ⟨hf, ?_, ?_⟩
    · rwa [show conn.state = _ from hc.state]
    · rwa [show conn.responded = _ from hc.responded]

theorem SameFlags.refl (c : Connection) : SameFlags c c := ⟨rfl, rfl, rfl, rfl, rfl, id⟩

theorem Safe.respondError (h : s.Safe w) (hr : s.conn.responded = false) :
    s.respondError.Safe w := by
  have hs := h.books.unanswered hr
  refine ⟨h.books.answer rfl rfl rfl rfl hs, fun _ => .inl ⟨rfl, hs⟩, fun hsh => ?_⟩
  obtain ⟨-, -, hr', -⟩ := h.shut hsh
  rw [hr] at hr'
  cases hr'

theorem safe_kept : Kept (· ≠ .abort) (Safe False) where
  act s a ha h := h.did (did_act s a) ha nofun
  called s h := by
    refine ⟨⟨fun n hn => ?_, h.books.whole, h.books.begun⟩, h.closing, h.shut⟩
    rcases List.mem_append.mp hn with hn | hn
    · exact (h.books.calls n hn).imp_right fun h' => ⟨h'.1, rfl⟩
    · rw [List.mem_singleton] at hn
      exact .inr ⟨hn, rfl⟩
  streamed s h := h.of_conn ⟨rfl, rfl, rfl, rfl, rfl, id⟩
  fed s last h := h.of_conn (feedBody_sameFlags s.conn last)
  sendContinue s h := by
    unfold Talk.sendContinue
    split_ifs with hc
    · simp only [Bool.and_eq_true, Bool.not_eq_true'] at hc
      refine ⟨h.books.same (List.subset_append_left _ _) rfl rfl rfl rfl rfl, h.closing, ?_⟩
      intro hsh
      obtain ⟨-, -, hr, -⟩ := h.shut hsh
      rw [hc.2] at hr
      cases hr
    · exact h
  deadline s b h := h.of_conn (.refl _)
  error s hr h := h.respondError hr

theorem Books.paid_reset (h : s.Books) (hr : s.conn.responded = true)
    (hs : s.respStreaming = false) (hsh : s.shut = true → s.flushed = true ∧
      s.conn.state ≠ .csActive) : s.resetForNextRequest.Paid where
  books := h.reset hr hs
  closing _ ho := nomatch ho.1
  shut h' := ⟨(hsh h').1, (hsh h').2, fun ho => nomatch ho.1⟩

theorem Safe.settle (h : s.Safe False) : s.settle.Paid := by
  have hb : ∀ conn dk, conn.responded = s.conn.responded →
      ({ s with conn := conn, dkResponse := dk } : Talk).Books :=
    fun conn _ hr => h.books.same (List.Subset.refl _) rfl rfl rfl hr rfl
  have hshut : s.shut = true → s.flushed = true ∧ s.conn.state ≠ .csActive :=
    fun hs => ⟨(h.shut hs).1, (h.shut hs).2.1⟩
  unfold Talk.settle
  split_ifs with hr hs hc
  · refine ⟨hb _ _ rfl, fun _ _ => rfl, fun hsh => ?_⟩
    rw [(h.shut hsh).2.2.1] at hr
    cases hr
  · refine ⟨hb _ _ rfl, fun _ _ => rfl, fun hsh => ?_⟩
    rw [(h.shut hsh).2.2.2] at hs
    cases hs
  · have hover := (h.closing hc).resolve_right id
    refine ⟨hb _ _ rfl, fun _ ho => absurd ho (not_owes hover.1 hover.2), fun hsh => ?_⟩
    exact ⟨(hshut hsh).1, by simp, not_owes hover.1 hover.2⟩
  · exact h.books.paid_reset (by simpa using hr) (by simpa using hs) hshut

theorem Paid.resumeAfterRespond (h : s.Paid) (hr : s.conn.responded = true)
    (hs : s.respStreaming = false) : s.resumeAfterRespond.Paid := by
  have hshut : s.shut = true → s.flushed = true ∧ s.conn.state ≠ .csActive :=
    fun hs => ⟨(h.shut hs).1, (h.shut hs).2.1⟩
  unfold Talk.resumeAfterRespond
  split_ifs with hc
  · refine ⟨h.books.same (List.Subset.refl _) rfl rfl rfl rfl rfl, h.closing, fun hsh => ?_⟩
    exact ⟨(hshut hsh).1, by simp, not_owes hr hs⟩
  · rw [hs] at *
    contradiction
  · exact h.books.paid_reset hr hs hshut

/-! ### Runs -/

/-- Nobody fails: handlers do not raise and finish the responses they begin, the peer sends whole
requests, no deadline passes, and a connection is only closed once it is shut. -/
def Unfailing (cfg : LoopSettings) (s : Talk) : Action → Prop
  | .round sc => sc.raises = false ∧ .abort ∉ sc.acts ++ sc.sink ∧
      ∀ st, s.verdict cfg ≠ .ok (.prError, st)
  | .act a => a ≠ .abort
  | .kick | .answer => s.respStreaming = false
  | .file as last => .abort ∉ as ∧
      (last = true → (s.acts as).conn.responded = true ∧ (s.acts as).respStreaming = false)
  | .halfClosed => s.Owes → s.conn.awaitingResponse = true
  | .timeout => False
  | .close => s.shut = true
  | _ => True

/-- The steps of a graceful shutdown pass over a connection that owes a response; none is flushed
while it owes one and is told to close already, and no handler is called on it then. -/
def Undisturbed (s : Talk) : Action → Prop
  | .round _ => s.conn.state = .csActive ∧ (s.conn.closeAfterFlush = true → s.dispatched = true)
  | .act (.flush _) => s.conn.closeAfterFlush = true → ¬ s.Owes
  | .file as _ => s.conn.closeAfterFlush = true → s.Owes → ∀ taken, .flush taken ∉ as
  | .flush _ => s.conn.closeAfterFlush = true → ¬ s.Owes
  | .markDrain _ | .drainSweep => ¬ s.Owes
  | _ => True

section Steps

variable {cfg : LoopSettings} {route : RequestParser → Bool}

theorem Paid.of_eq (h : s.Paid) (hout : s'.out = s.out) (hser : s'.reqSerial = s.reqSerial)
    (hdis : s'.dispatched = s.dispatched) (hcalls : s'.calls = s.calls)
    (hres : s'.conn.responded = s.conn.responded) (hstr : s'.respStreaming = s.respStreaming)
    (hclosing : s'.conn.closeAfterFlush = true → s.Owes → s'.conn.awaitingResponse = true)
    (hshut : s'.shut = true → s'.flushed = true ∧ s'.conn.state ≠ .csActive ∧ ¬ s.Owes) :
    s'.Paid := by
  have howes : s'.Owes ↔ s.Owes := by
    unfold Owes
    rw [hdis, hres, hstr]
  refine ⟨h.books.same (by rw [hout]; exact List.Subset.refl _) hser hdis hcalls hres hstr, ?_, ?_⟩
  · rw [howes]
    exact hclosing
  · rw [howes]
    exact hshut

theorem Paid.flushOut (h : s.Paid) (hsh : s.shut = false)
    (hok : s.conn.closeAfterFlush = true → ¬ s.Owes) (taken : ℕ) : (s.flushOut taken).Paid := by
  unfold Talk.flushOut
  dsimp only
  split_ifs with hf
  · simp only [Bool.and_eq_true] at hf
    refine h.of_eq rfl rfl rfl rfl rfl rfl h.closing fun _ => ?_
    exact ⟨hf.1, by simp [beginLingerClose], hok hf.2⟩
  · refine h.of_eq rfl rfl rfl rfl rfl rfl h.closing fun h' => ?_
    rw [show s.shut = true from h'] at hsh
    cases hsh

theorem Paid.closeConn (h : s.Paid) (hf : s.flushed = true) (ho : ¬ s.Owes) : s.closeConn.Paid := by
  have hres : s.closeConn.conn.responded = s.conn.responded := by
    simp only [Talk.closeConn, Connection.closeConn, Connection.deliver]
    split_ifs <;> rfl
  exact h.of_eq rfl rfl rfl rfl hres rfl (fun _ h' => absurd h' ho)
    fun _ => ⟨hf, by simp [Talk.closeConn, Connection.closeConn], ho⟩

theorem Paid.halfClosed (h : s.Paid) (hok : s.Owes → s.conn.awaitingResponse = true) :
    s.halfClosed.Paid := by
  unfold Talk.halfClosed
  split_ifs with hp hw
  · exact h.of_eq rfl rfl rfl rfl rfl rfl (fun _ ho => hok ho) h.shut
  · simp only [Bool.or_eq_true, Bool.not_eq_true', not_or] at hw
    have hf : s.flushed = true := by simpa using hw.2
    exact h.of_eq rfl rfl rfl rfl rfl rfl (fun _ ho => absurd (hok ho) hw.1)
      fun _ => ⟨hf, by simp [beginLingerClose], fun ho => hw.1 (hok ho)⟩
  · exact h

theorem Paid.markDrain (h : s.Paid) (ho : ¬ s.Owes) (taken : ℕ) : (s.markDrain taken).Paid := by
  unfold Talk.markDrain
  split_ifs with hst hw
  · exact h
  · have hsh : s.shut = false := by
      by_contra h'
      exact (h.shut (by simpa using h')).2.1 (by simpa using hst)
    refine Paid.flushOut ?_ (by exact hsh) (fun _ => by exact ho) taken
    exact h.of_eq rfl rfl rfl rfl rfl rfl (fun _ ho' => absurd ho' ho) h.shut
  · simp only [Bool.or_eq_true, Bool.not_eq_true', not_or] at hw
    exact h.closeConn (by simpa using hw.2) ho

theorem Paid.judged {sc : Script} {res : ParseResult} {st : ParseState} (h : s.Paid)
    (ht : s.Takes) (hst : s.conn.state = .csActive)
    (hcl : s.conn.closeAfterFlush = true → s.dispatched = true) (hraises : sc.raises = false)
    (hacts : .abort ∉ sc.acts ++ sc.sink) (hres : res ≠ .prError) :
    (s.judged cfg route sc res st).Paid := by
  have hsafe : (s.parsed st).Safe False := by
    refine ⟨h.books.same (List.Subset.refl _) rfl rfl rfl rfl rfl, fun hc => .inl ?_, ?_⟩
    · refine over_of_not_owes (s := s) (hcl hc) fun ho => ?_
      have := h.closing hc ho
      rw [ht.2.1] at this
      cases this
    · exact fun hsh => absurd hst (h.shut hsh).2.1
  have hkept := safe_kept
  have hok : ∀ a ∈ sc.acts ++ sc.sink, a ≠ .abort := fun a ha he => hacts (he ▸ ha)
  cases res with
  | prNeedMore => exact (hkept.needMore route hok hsafe).paid False.elim
  | prError => exact absurd rfl hres
  | prComplete =>
    refine hkept.complete route hok (fun s h => h.settle) ?_ ?_
      (hsafe.of_conn (countRequest_sameFlags cfg (s.parsed st).conn))
    · exact fun s hr h => (h.respondError hr).paid False.elim
    · intro hr
      rw [hraises] at hr
      cases hr

theorem Paid.acts (h : s.Paid) (hd : s.dispatched = true) {as : List Act} (ha : .abort ∉ as)
    (hfl : s.conn.closeAfterFlush = true → s.Owes → ∀ taken, .flush taken ∉ as) :
    (s.acts as).Paid := by
  refine ((h.safe hd).acts ha fun hw => hfl hw.1 hw.2).paid fun hw => ?_
  rw [(acted_acts s as).awaitingResponse]
  exact h.closing hw.1 hw.2

theorem Paid.step {a : Action} (h : s.Paid) (hun : Unfailing cfg s a) (hdi : Undisturbed s a)
    (hs : s.step cfg route a = some s') : s'.Paid := by
  cases a with
  | read r =>
    simp only [Talk.step] at hs
    split_ifs at hs
    cases hs
    exact h.of_eq rfl rfl rfl rfl rfl rfl h.closing h.shut
  | fin =>
    cases hs
    exact h.of_eq rfl rfl rfl rfl rfl rfl h.closing h.shut
  | round sc =>
    obtain ⟨hraises, hacts, herr⟩ := hun
    simp only [Talk.step] at hs
    split_ifs at hs with ht
    cases hv : s.verdict cfg with
    | error d =>
      rw [hv] at hs
      cases hs
    | ok r =>
      obtain ⟨res, st⟩ := r
      rw [hv] at hs
      cases hs
      exact h.judged ht hdi.1 hdi.2 hraises hacts fun he => herr st (by rw [hv, he])
  | act a =>
    simp only [Talk.step] at hs
    split_ifs at hs with hd
    cases hs
    simp only [Bool.and_eq_true] at hd
    have hab : Act.abort ∉ [a] := by simpa using Ne.symm hun
    refine h.acts hd.1 hab fun hc ho taken hm => ?_
    rw [List.mem_singleton] at hm
    subst hm
    exact hdi hc ho
  | kick =>
    simp only [Talk.step] at hs
    split_ifs at hs with hk
    cases hs
    exact h.resumeAfterRespond hk.2.2.2 hun
  | answer =>
    simp only [Talk.step] at hs
    split_ifs at hs with hd
    cases hs
    have ha : (s.acts [.respond]).Paid := h.acts hd.1 (by simp) (by simp)
    refine Paid.resumeAfterRespond ha ?_ ?_
    · show s.applyResponse.conn.responded = true
      unfold applyResponse
      split_ifs with hr
      · exact hr
      · rfl
    · show s.applyResponse.respStreaming = false
      unfold applyResponse
      split_ifs
      · exact hun
      · exact hun
  | file as last =>
    simp only [Talk.step] at hs
    split_ifs at hs with hd hl
    · cases hs
      obtain ⟨hr, hstr⟩ := hun.2 hl
      exact (h.acts hd.1 hun.1 hdi).resumeAfterRespond hr hstr
    · cases hs
      exact h.acts hd.1 hun.1 hdi
  | timeout => exact hun.elim
  | flush taken =>
    simp only [Talk.step] at hs
    split_ifs at hs with hg
    cases hs
    exact h.flushOut hg.2 hdi taken
  | halfClosed =>
    cases hs
    exact h.halfClosed hun
  | markDrain taken =>
    cases hs
    exact h.markDrain hdi taken
  | drainSweep =>
    cases hs
    unfold Talk.drainSweep
    split_ifs with hc
    · simp only [Bool.and_eq_true] at hc
      exact h.closeConn hc.2 hdi
    · exact h
  | close =>
    cases hs
    obtain ⟨hf, -, ho⟩ := h.shut hun
    exact h.closeConn hf ho

end Steps

theorem paid_start : ({} : Talk).Paid :=
  ⟨⟨nofun, nofun, nofun⟩, nofun, nofun⟩

/-- **Where nobody fails and nothing disturbs an owed response, the write side of the socket is
only shut when the response to every dispatched request is complete and handed to the socket.** -/
theorem shut_after_responses (cfg : LoopSettings) (route : RequestParser → Bool)
    (h : ((system cfg route).restrict fun s a => Unfailing cfg s a ∧ Undisturbed s a).Reachable s)
    (hs : s.shut = true) : (∀ n ∈ s.calls, Answered s.out n) ∧ s.flushed = true := by
  have hpaid : s.Paid := h.invariant (fun s hs => by cases hs; exact paid_start)
    fun s a s' ih hs => by
      obtain ⟨hok, hs⟩ := System.step_restrict.mp hs
      exact ih.step hok.1 hok.2 hs
  obtain ⟨hf, -, ho⟩ := hpaid.shut hs
  refine ⟨fun n hn => ?_, hf⟩
  rcases hpaid.books.calls n hn with h' | ⟨rfl, hd⟩
  · exact h'.1
  · obtain ⟨hr, hstr⟩ := over_of_not_owes hd ho
    exact hpaid.books.whole hr hstr

/-- The undisturbed runs of a connection with buffered routes. -/
noncomputable def undisturbedRuns : System Talk Action :=
  (system ⟨⟨1000, 100, 1000⟩, 0, true⟩ fun _ => false).restrict fun s a =>
    Unfailing ⟨⟨1000, 100, 1000⟩, 0, true⟩ s a ∧ Undisturbed s a

set_option maxRecDepth 4000 in
/-- Two requests in one read, the second of which asks for the close.  The first is answered in the
dispatch, the second later, and the flush of its response shuts the socket. -/
theorem shut_after_responses_pipelined : ∃ s, undisturbedRuns.Reachable s ∧
    s.shut = true ∧ s.calls = [0, 1] ∧ Answered s.out 0 ∧ Answered s.out 1 := by
  have h₁ : undisturbedRuns.Reachable _ := .next (.read (ascii
    "GET / HTTP/1.1\r\nHost: a\r\n\r\nGET / HTTP/1.1\r\nHost: a\r\nConnection: close\r\n\r\n"))
    (.start rfl) (System.step_restrict.mpr ⟨⟨trivial, trivial⟩, rfl⟩)
  have h₂ : undisturbedRuns.Reachable _ := .next (.round { acts := [.respond] }) h₁
    (System.step_restrict.mpr ⟨⟨⟨rfl, by simp, fun _ => nofun⟩, rfl, nofun⟩, rfl⟩)
  have h₃ : undisturbedRuns.Reachable _ := .next (.round {}) h₂
    (System.step_restrict.mpr ⟨⟨⟨rfl, by simp, fun _ => nofun⟩, rfl, nofun⟩, rfl⟩)
  have h₄ : undisturbedRuns.Reachable _ := .next (.flush 1) h₃
    (System.step_restrict.mpr ⟨⟨trivial, nofun⟩, rfl⟩)
  have h₅ : undisturbedRuns.Reachable _ := .next (.act .respond) h₄
    (System.step_restrict.mpr ⟨⟨by simp [Unfailing], trivial⟩, rfl⟩)
  have h₆ : undisturbedRuns.Reachable _ := .next .kick h₅
    (System.step_restrict.mpr ⟨⟨rfl, trivial⟩, rfl⟩)
  have h₇ : undisturbedRuns.Reachable _ := .next (.flush 1) h₆
    (System.step_restrict.mpr ⟨⟨trivial, fun _ => not_owes rfl rfl⟩, rfl⟩)
  have h := (shut_after_responses _ _ h₇ (by decide)).1
  exact ⟨_, h₇, by decide, by decide, h 0 (by decide), h 1 (by decide)⟩

/-- A handler defers its answer, and a graceful shutdown begins: `markDrain` sets
`closeAfterFlush` and flushes an empty buffer, which shuts the socket before the answer. -/
theorem drain_shuts_deferred_response :
    ∃ s, (system ⟨⟨1000, 100, 1000⟩, 0, true⟩ fun _ => false).Reachable s ∧
      s.shut = true ∧ s.calls = [0] ∧ s.out = [] ∧ ¬ Answered s.out 0 := by
  have hrun : (([.read (ascii "GET / HTTP/1.1\r\nHost: a\r\n\r\n"), .round {},
      .markDrain 0] : List Action).foldlM
        (step ⟨⟨1000, 100, 1000⟩, 0, true⟩ fun _ => false) {}).map
          (fun s => (s.shut, s.calls, s.out)) = some (true, [0], []) := by
    decide
  obtain ⟨s, hs, heq⟩ := Option.map_eq_some_iff.mp hrun
  simp only [Prod.mk.injEq] at heq
  obtain ⟨hsh, hcalls, hout⟩ := heq
  refine ⟨s, System.Reachable.foldlM (.start rfl) hs, hsh, hcalls, hout, ?_⟩
  rw [hout]
  rintro (⟨closes, h⟩ | ⟨⟨closes, h⟩, -⟩)
  · cases h
  · cases h

end Talk

end Vortex.Http1
