import Vortex.Http1.Sinks
import Vortex.Http2.BodyLength

/-! # The end of a body is told to its sink

A body sink is told the end of its body by an ordinary delivery (`h2DeliverBody`), when it is
registered on a body that is complete already, when its stream is taken out of the table
(`teardownStream`) and when the connection is closed (`h2NotifyClosed`).  `toldEnd` says whether
the sink registered last on a stream was told, and `ToldOnce` that no call followed.

An ordinary delivery does not take the sink off its stream, so that the other two call it again.
`Run.hears` is what does hold: a sink that was told is called again only because its stream is
taken out or its connection closed afterwards. -/

namespace Vortex.Http2

/-! ### What a sink was told -/

/-- Was the sink of the stream told the end, after this event? -/
def toldStep (sid : ℕ) (told : Bool) : Event → Bool
  | .sinkSet s _ => if s = sid then false else told
  | .fired (.body s _ _ last) => if s = sid then told || last else told
  | _ => told

/-- Was the sink that was registered last on the stream told the end? -/
def toldEnd (sid : ℕ) (j : List Event) : Bool := j.foldl (toldStep sid) false

/-- A sink that was told the end is not called. -/
def CallsOpen (sid : ℕ) (before : List Event) (e : Event) : Prop :=
  ∀ cb data last, e = .fired (.body sid cb data last) → toldEnd sid before = false

/-- No stream is taken out of the table once its sink was told the end. -/
def RemovedOpen (sid : ℕ) (before : List Event) (e : Event) : Prop :=
  e = .removed sid → toldEnd sid before = false

/-- Every sink is told the end of its body at most once, and not called again. -/
def ToldOnce (j : List Event) : Prop := ∀ sid, Each (CallsOpen sid) j

/-- Every stream that is taken out of the table has a sink that was not told the end, or none. -/
def RemovedUntold (j : List Event) : Prop := ∀ sid, Each (RemovedOpen sid) j

/-- A registration of a sink or a call to it. -/
def Event.toSink : Event → Bool
  | .sinkSet _ _ | .fired (.body _ _ _ _) => true
  | _ => false

section Told

variable {sid : ℕ} {es evs : List Event} {e : Event}

theorem toldEnd_snoc : toldEnd sid (es ++ [e]) = toldStep sid (toldEnd sid es) e := by
  simp [toldEnd]

theorem toldStep_of_quiet (h : e.toSink = false) (told : Bool) : toldStep sid told e = told := by
  cases e with
  | fired cb =>
    cases cb with
    | body => cases h
    | _ => rfl
  | sinkSet => cases h
  | _ => rfl

theorem toldEnd_append (h : ∀ e ∈ evs, e.toSink = false) :
    toldEnd sid (es ++ evs) = toldEnd sid es := by
  induction evs generalizing es with
  | nil => rw [List.append_nil]
  | cons e evs ih =>
    have hes : toldEnd sid (es ++ [e]) = toldEnd sid es :=
      toldEnd_snoc.trans (toldStep_of_quiet (h e List.mem_cons_self) _)
    have hrest := @ih (es ++ [e]) (fun e he => h e (List.mem_cons_of_mem _ he))
    rw [← hes, ← hrest, List.append_assoc]
    rfl

theorem callsOpen_quiet (h : e.toSink = false) (before : List Event) : CallsOpen sid before e := by
  rintro cb data last rfl
  cases h

theorem toldEnd_about (j : List Event) :
    toldEnd sid (j.filter (fun e => e.stream? = some sid)) = toldEnd sid j := by
  induction j using List.reverseRecOn with
  | nil => rfl
  | append_singleton j e ih =>
    rw [List.filter_append, toldEnd_snoc, ← ih]
    by_cases he : e.stream? = some sid
    · rw [List.filter_cons_of_pos (by simpa using he), List.filter_nil, toldEnd_snoc]
    · rw [List.filter_cons_of_neg (by simpa using he), List.filter_nil, List.append_nil]
      cases e with
      | fired cb =>
        cases cb with
        | body s cb data last =>
          have hne : s ≠ sid := fun h => he (congrArg some h)
          rw [toldStep, if_neg hne]
        | _ => rfl
      | sinkSet s cb =>
        have hne : s ≠ sid := fun h => he (congrArg some h)
        rw [toldStep, if_neg hne]
      | _ => rfl

theorem each_callsOpen_about {j : List Event}
    (h : Each (CallsOpen sid) (j.filter (fun e => e.stream? = some sid))) :
    Each (CallsOpen sid) j := by
  intro before e after hj cb data last he
  have := h.of_filter hj (by rw [he]; simp [Event.stream?]) cb data last he
  rwa [toldEnd_about] at this

theorem each_removedOpen_about {j : List Event} (h : Each (RemovedOpen sid) j) :
    Each (RemovedOpen sid) (j.filter (fun e => e.stream? = some sid)) :=
  h.filter (fun before e he hr => by
    rw [toldEnd_about]
    exact he hr)

end Told

/-! ### Runs -/

namespace Exchange

section Runs

variable {cl : Bool} {sid : ℕ} {x x' : Exchange} {es evs : List Event} {ds : List Callback}

/-- Is this a call to the sink of the stream? -/
def isSinkCall (sid : ℕ) : Callback → Bool
  | .body s _ _ _ => s == sid
  | _ => false

/-- What the sink of an open exchange was told. -/
structure Listens (cl : Bool) (sid : ℕ) (x : Exchange) (owed : List Callback)
    (es : List Event) : Prop where
  /-- No call is owed to a sink that is still registered, and none at all before the close. -/
  owed : owed.countP (isSinkCall sid) ≠ 0 → cl = true ∧ x.onBodyCb = none
  /-- A registered sink that was told the end has the whole body. -/
  told : toldEnd sid es = true → x.onBodyCb ≠ none → x.endStreamSeen = true ∧ x.body = []

/-- What the sink of an exchange was told. -/
structure Hears (cl : Bool) (sid : ℕ) (s : State) (es : List Event) : Prop where
  once : Each (CallsOpen sid) es
  owed : s.owed.countP (isSinkCall sid) = 0 ∨
    s.owed.countP (isSinkCall sid) = 1 ∧ toldEnd sid es = false
  idle : s.life = .idle → s.owed.countP (isSinkCall sid) = 0
  live : ∀ x, s.life = .live x → Listens cl sid x s.owed es

theorem block_toSink {fin : Bool} (h : Block sid fin evs) : ∀ e ∈ evs, e.toSink = false :=
  h.forall (fun _ _ => rfl) (fun _ _ => rfl)

theorem dataEvents_toSink (chunks : List Bytes) : ∀ e ∈ dataEvents sid chunks, e.toSink = false :=
  List.forall_mem_map.mpr fun _ _ => rfl

theorem Listens.quiet (h : Listens cl sid x ds es) (he : ∀ e ∈ evs, e.toSink = false)
    (hcb : x'.onBodyCb = x.onBodyCb)
    (hk : x.endStreamSeen = true → x.body = [] → x'.endStreamSeen = true ∧ x'.body = []) :
    Listens cl sid x' ds (es ++ evs) where
  owed ho := ⟨(h.owed ho).1, hcb.trans (h.owed ho).2⟩
  told ht hs := by
    rw [toldEnd_append he] at ht
    obtain ⟨h1, h2⟩ := h.told ht (hcb ▸ hs)
    exact hk h1 h2

theorem Listens.open (h : Listens cl sid x ds es) (he : x.endStreamSeen = false)
    (hcb : x'.onBodyCb = x.onBodyCb) : Listens cl sid x' ds es where
  owed ho := ⟨(h.owed ho).1, hcb.trans (h.owed ho).2⟩
  told ht hs := absurd ((h.told ht (hcb ▸ hs)).1.symm.trans he) (by decide)

theorem Listens.untold (h : Listens cl sid x ds es) (hs : x.onBodyCb ≠ none)
    (hn : ¬ (x.endStreamSeen = true ∧ x.body = [])) : toldEnd sid es = false := by
  by_contra ht
  exact hn (h.told (by simpa using ht) hs)

theorem Decides.quiet (hd : Decides sid x evs x') : (∀ e ∈ evs, e.toSink = false) ∧
    x'.onBodyCb = x.onBodyCb ∧ x'.endStreamSeen = x.endStreamSeen ∧ x'.body = x.body := by
  cases hd with
  | wait => exact ⟨by simp, rfl, rfl, rfl⟩
  | _ => exact ⟨by simp [Event.toSink], rfl, rfl, rfl⟩

theorem EndsBody.sink (h : EndsBody x x') :
    x.endStreamSeen = false ∧ x'.onBodyCb = x.onBodyCb ∧ x'.endStreamSeen = true := by
  cases h with
  | data hh he | trailers hh he => exact ⟨he, rfl, rfl⟩

theorem callsOpen_sinkSet (cb : ℕ) (before : List Event) :
    CallsOpen sid before (.sinkSet sid cb) := by
  intro cb' data last he
  cases he

/-- **A step calls the sink only before it is told the end.** -/
theorem Act.listens {reg : Call → Exchange → Prop} (ha : Act sid reg x evs x')
    (hset : cl = true → ∀ cb, .sinkSet sid cb ∉ evs) (h : Listens cl sid x ds es)
    (hone : Each (CallsOpen sid) es) :
    Each (CallsOpen sid) (es ++ evs) ∧ Listens cl sid x' ds (es ++ evs) ∧
      (ds.countP (isSinkCall sid) ≠ 0 → toldEnd sid (es ++ evs) = toldEnd sid es) := by
  have hquiet : (∀ e ∈ evs, e.toSink = false) → x'.onBodyCb = x.onBodyCb →
      (x.endStreamSeen = true → x.body = [] → x'.endStreamSeen = true ∧ x'.body = []) →
      Each (CallsOpen sid) (es ++ evs) ∧ Listens cl sid x' ds (es ++ evs) ∧
        (ds.countP (isSinkCall sid) ≠ 0 → toldEnd sid (es ++ evs) = toldEnd sid es) :=
    fun he hcb hk => ⟨hone.append_of (fun e hm => callsOpen_quiet (he e hm)),
      h.quiet he hcb hk, fun _ => toldEnd_append he⟩
  have hno : cl = true → (∃ cb, .sinkSet sid cb ∈ evs) → False :=
    fun hc ⟨cb, hm⟩ => hset hc cb hm
  cases ha with
  | informational hr hb => exact hquiet (block_toSink hb) rfl (fun a b => ⟨a, b⟩)
  | sendHead hr hh len hb =>
    exact hquiet (List.forall_mem_cons.mpr ⟨rfl, block_toSink hb⟩) rfl (fun a b => ⟨a, b⟩)
  | write hp hh hd hc hq =>
    exact hquiet (List.forall_mem_cons.mpr ⟨rfl, dataEvents_toSink _⟩) rfl (fun a b => ⟨a, b⟩)
  | respond hr hh hd fields hb =>
    exact hquiet (List.forall_mem_append.mpr ⟨List.forall_mem_cons.mpr ⟨rfl, block_toSink hb⟩,
      List.forall_mem_singleton.mpr rfl⟩) rfl (fun a b => ⟨a, b⟩)
  | wsAccept hw hr hn hb => exact hquiet (block_toSink hb) rfl (fun a _ => ⟨a, rfl⟩)
  | head hh hf isWs isHead fin streaming hs hd =>
    obtain ⟨d1, d2, d3, d4⟩ := hd.quiet
    refine hquiet (List.forall_mem_cons.mpr ⟨rfl, d1⟩) d2 (fun a b => ⟨?_, d4.trans b⟩)
    rw [d3]
    simp [headed, a]
  | trailers hh hn hd =>
    obtain ⟨d1, d2, d3, d4⟩ := hd.quiet
    exact hquiet d1 d2 (fun _ b => ⟨d3, d4.trans b⟩)
  | bodyEnd hend =>
    obtain ⟨e1, e2, -⟩ := hend.sink
    rw [List.append_nil]
    exact ⟨hone, h.open e1 e2, fun _ => rfl⟩
  | @told x1 cb hend hcb =>
    obtain ⟨e1, e2, e3⟩ := hend.sink
    have hs : x.onBodyCb ≠ none := by
      rw [← e2, hcb]
      simp
    have hunt := h.untold hs (fun hn => absurd (hn.1.symm.trans e1) (by decide))
    refine ⟨each_snoc.mpr ⟨hone, fun _ _ _ _ => hunt⟩, ⟨fun ho => ?_, fun _ _ => ⟨e3, rfl⟩⟩,
      fun ho => ?_⟩
    · exact absurd (h.owed ho).2 hs
    · exact absurd (h.owed ho).2 hs
  | @deliver cb hcb hb =>
    have hs : x.onBodyCb ≠ none := by simp [hcb]
    have hunt := h.untold hs (fun hn => hb hn.2)
    have hstill : toldEnd sid (es ++ [.fired (.body sid cb x.body false)]) = false := by
      rw [toldEnd_snoc, hunt]
      simp [toldStep]
    refine ⟨each_snoc.mpr ⟨hone, fun _ _ _ _ => hunt⟩, ⟨h.owed, fun ht => ?_⟩, fun _ => ?_⟩
    · exact absurd (ht.symm.trans hstill) (by decide)
    · exact hstill.trans hunt.symm
  | @sinkSet cb manualAck hk =>
    refine ⟨each_snoc.mpr ⟨hone, callsOpen_sinkSet cb es⟩, ⟨fun ho => ?_, fun ht => ?_⟩,
      fun ho => ?_⟩
    · exact (hno (h.owed ho).1 ⟨cb, by simp⟩).elim
    · rw [toldEnd_snoc] at ht
      simp [toldStep] at ht
    · exact (hno (h.owed ho).1 ⟨cb, by simp⟩).elim
  | @sinkTold cb manualAck hk he =>
    refine ⟨?_, ⟨fun ho => ?_, fun _ _ => ⟨he, rfl⟩⟩, fun ho => ?_⟩
    · rw [show es ++ [Event.sinkSet sid cb, .fired (.body sid cb x.body true)] =
        (es ++ [.sinkSet sid cb]) ++ [.fired (.body sid cb x.body true)] by simp]
      refine each_snoc.mpr ⟨each_snoc.mpr ⟨hone, callsOpen_sinkSet cb es⟩, fun _ _ _ _ => ?_⟩
      rw [toldEnd_snoc]
      simp [toldStep]
    · exact (hno (h.owed ho).1 ⟨cb, by simp⟩).elim
    · exact (hno (h.owed ho).1 ⟨cb, by simp⟩).elim
  | streamed hh he hw hr data hl | buffered hh he hw hr hc data =>
    rw [List.append_nil]
    exact ⟨hone, h.open he rfl, fun _ => rfl⟩
  | bufferedEnd hh he hw hr hc hd data hl =>
    exact hquiet (by simp [Event.toSink]) rfl (fun a => absurd (a.symm.trans he) (by decide))
  | bufferedLate hh he hw hr hc hd data | tunnelData hh he hw hc data fin =>
    rw [List.append_nil]
    exact ⟨hone, h.open he rfl, fun _ => rfl⟩
  | _ => exact hquiet (by simp [Event.toSink]) rfl (fun a b => ⟨a, b⟩)

theorem countP_drainDebt (x : Exchange) : (x.drainDebt sid).countP (isSinkCall sid) = 0 := by
  unfold drainDebt
  cases x.onRespDrain <;> rfl

theorem countP_debts (x : Exchange) :
    (x.debts sid).countP (isSinkCall sid) = if x.onBodyCb.isSome then 1 else 0 := by
  unfold debts
  cases x.isWs <;> cases x.onBodyCb <;> cases x.onRespDrain <;> simp [isSinkCall]

theorem End.toSink (he : End sid x evs) : ∀ e ∈ evs, e.toSink = false := by
  cases he with
  | answer hr len hl hb => exact List.forall_mem_cons.mpr ⟨rfl, block_toSink hb⟩
  | finishTrailers hp hh hl hb hblk | trailers hw hl hb hblk => exact block_toSink hblk
  | _ => simp [Event.toSink]

theorem Finish.sink (h : Finish x x') : x'.onBodyCb = x.onBodyCb ∧
    x'.endStreamSeen = x.endStreamSeen ∧ x'.body = x.body := by
  cases h with
  | queue | head => exact ⟨rfl, rfl, rfl⟩

theorem Hears.keepOwed {l : Life} {ds' : List Callback} (h : Hears cl sid ⟨l, ds⟩ es)
    (hd : ds'.countP (isSinkCall sid) = ds.countP (isSinkCall sid)) : Hears cl sid ⟨l, ds'⟩ es where
  once := h.once
  owed := by
    rw [show (State.mk l ds').owed = ds' from rfl, hd]
    exact h.owed
  idle hl := hd.trans (h.idle hl)
  live y hy := by
    obtain ⟨h1, h2⟩ := h.live y hy
    refine ⟨fun ho => h1 ?_, h2⟩
    rw [← show ds'.countP (isSinkCall sid) = ds.countP (isSinkCall sid) from hd]
    exact ho

theorem Hears.fired {l : Life} {cb : Callback} (h : Hears cl sid ⟨l, cb :: ds⟩ es)
    (hcb : isSinkCall sid cb = true → ∃ k data last, evs = [.fired (.body sid k data last)])
    (hq : isSinkCall sid cb = false → ∀ e ∈ evs, e.toSink = false) :
    Hears cl sid ⟨l, ds⟩ (es ++ evs) := by
  cases hc : isSinkCall sid cb with
  | false =>
    have hcount : (cb :: ds).countP (isSinkCall sid) = ds.countP (isSinkCall sid) :=
      List.countP_cons_of_neg (by simp [hc])
    have h' : Hears cl sid ⟨l, ds⟩ es := h.keepOwed hcount.symm
    refine ⟨h'.once.append_of (fun e hm => callsOpen_quiet (hq hc e hm)), ?_, h'.idle,
      fun y hy => ?_⟩
    · rw [toldEnd_append (hq hc)]
      exact h'.owed
    · exact (h'.live y hy).quiet (hq hc) rfl (fun a b => ⟨a, b⟩)
  | true =>
    have hcount : (cb :: ds).countP (isSinkCall sid) = ds.countP (isSinkCall sid) + 1 :=
      List.countP_cons_of_pos hc
    obtain ⟨k, data, last, rfl⟩ := hcb hc
    have howed : ds.countP (isSinkCall sid) = 0 ∧ toldEnd sid es = false := by
      rcases h.owed with h1 | ⟨h1, h2⟩
      · exact absurd (hcount.symm.trans h1) (by simp)
      · exact ⟨Nat.succ.inj (hcount.symm.trans h1), h2⟩
    refine ⟨each_snoc.mpr ⟨h.once, fun _ _ _ _ => howed.2⟩, .inl howed.1, fun _ => howed.1,
      fun y hy => ⟨fun ho => absurd howed.1 ho, fun _ hs => ?_⟩⟩
    have hpos : (cb :: ds).countP (isSinkCall sid) ≠ 0 := by
      rw [hcount]
      simp
    exact absurd ((h.live y hy).owed hpos).2 hs

theorem Run.hears {reg : Call → Exchange → Prop} {s t : State} {es0 : List Event}
    (h : Run reg cl sid s es t) (h0 : Hears cl sid s es0)
    (hset : cl = true → ∀ cb, .sinkSet sid cb ∉ es)
    (hrem : Each (RemovedOpen sid) (es0 ++ es)) :
    Hears cl sid t (es0 ++ es) := by
  induction h with
  | refl =>
    rw [List.append_nil]
    exact h0
  | skip _ ih =>
    have ih := ih hset hrem
    exact ⟨ih.once, ih.owed, fun h => (by cases h), fun x h => by cases h⟩
  | opened _ ih =>
    rw [← List.append_assoc] at hrem ⊢
    have ih := ih (fun hc cb hm => hset hc cb (List.mem_append_left _ hm)) hrem.left
    refine ⟨each_snoc.mpr ⟨ih.once, callsOpen_quiet rfl _⟩, .inl (ih.idle rfl),
      fun h => (by cases h), fun x h => ⟨fun ho => absurd (ih.idle rfl) ho, fun _ hs => ?_⟩⟩
    rw [← Life.live.inj h] at hs
    exact absurd rfl hs
  | act _ ha ih =>
    rw [← List.append_assoc] at hrem ⊢
    have ih := ih (fun hc cb hm => hset hc cb (List.mem_append_left _ hm)) hrem.left
    obtain ⟨h1, h2, h3⟩ := ha.listens (fun hc cb hm => hset hc cb (List.mem_append_right _ hm))
      (ih.live _ rfl) ih.once
    refine ⟨h1, ?_, fun h => (by cases h), fun y h => ?_⟩
    · rcases ih.owed with ho | ⟨ho, ht⟩
      · exact .inl ho
      · refine .inr ⟨ho, (h3 ?_).trans ht⟩
        rw [show _ = 1 from ho]
        decide
    · rw [← Life.live.inj h]
      exact h2
  | finish _ ha ih =>
    have ih := ih hset hrem
    obtain ⟨f1, f2, f3⟩ := ha.sink
    refine Hears.keepOwed ⟨ih.once, ih.owed, fun h => (by cases h), fun y h => ?_⟩ ?_
    · rw [← Life.live.inj h]
      have := (ih.live _ rfl).quiet (List.forall_mem_nil _) f1
        (fun a b => ⟨f2.trans a, f3.trans b⟩)
      rwa [List.append_nil] at this
    · rw [List.countP_append, countP_drainDebt, Nat.zero_add]
  | @ended es evs ds x _ ha ih =>
    rw [← List.append_assoc, ← List.append_assoc] at hrem ⊢
    have ih := ih (fun hc cb hm => hset hc cb (List.mem_append_left _ hm)) hrem.left.left
    obtain ⟨hrest, hlast⟩ := each_snoc.mp hrem
    have hunt := hlast rfl
    refine ⟨each_snoc.mpr ⟨ih.once.append_of (fun e hm => callsOpen_quiet (ha.toSink e hm)),
      callsOpen_quiet rfl _⟩, ?_, fun h => (by cases h), fun y h => by cases h⟩
    rw [toldEnd_snoc, toldStep_of_quiet rfl, hunt]
    change (x.debts sid ++ ds).countP (isSinkCall sid) = 0 ∨ (x.debts sid ++ ds).countP (isSinkCall sid) = 1 ∧ _
    rw [List.countP_append, countP_debts]
    have hl := ih.live _ rfl
    cases hcb : x.onBodyCb with
    | none =>
      rcases ih.owed with ho | ⟨ho, -⟩
      · exact .inl (by simpa using ho)
      · exact .inr ⟨by simpa using ho, rfl⟩
    | some k =>
      have hz : ds.countP (isSinkCall sid) = 0 := by
        by_contra ho
        exact absurd ((hl.owed ho).2.symm.trans hcb) (by simp)
      exact .inr ⟨by simp [hz], rfl⟩
  | dropped _ hw ih =>
    rw [← List.append_assoc] at hrem ⊢
    have ih := ih (fun hc cb hm => hset hc cb (List.mem_append_left _ hm)) hrem.left
    refine ⟨each_snoc.mpr ⟨ih.once, callsOpen_quiet rfl _⟩, ?_, fun h => (by cases h),
      fun y h => by cases h⟩
    rw [toldEnd_snoc, toldStep_of_quiet rfl]
    exact ih.owed
  | @fired es l cb ds _ ih =>
    rw [← List.append_assoc] at hrem ⊢
    have ih := ih (fun hc cb hm => hset hc cb (List.mem_append_left _ hm)) hrem.left
    refine ih.fired (fun hc => ?_) (fun hc e he => ?_)
    · cases cb with
      | body s k data last =>
        rw [beq_iff_eq.mp hc]
        exact ⟨k, data, last, List.filter_cons_of_pos (by simp [Event.stream?])⟩
      | _ => cases hc
    · obtain ⟨he, hsid⟩ := List.mem_filter.mp he
      rw [List.mem_singleton.mp he] at hsid ⊢
      cases cb with
      | body s k data last =>
        have hsid' : s = sid := by simpa [Event.stream?] using hsid
        exact absurd (beq_iff_eq.mpr hsid') (by simpa [isSinkCall] using hc)
      | _ => rfl
  | forgotten _ hc ih =>
    have ih := ih hset hrem
    exact ih.keepOwed (List.countP_cons_of_neg (by simp [isSinkCall])).symm
  | wsTaken _ hc ih =>
    have ih := ih hset hrem
    refine ⟨ih.once, ih.owed, fun h => (by cases h), fun y h => ?_⟩
    rw [← Life.live.inj h]
    obtain ⟨h1, h2⟩ := ih.live _ rfl
    exact ⟨h1, h2⟩

end Runs

end Exchange

/-! ### Sinks over runs -/

theorem hears_idle (cl : Bool) (sid : ℕ) : Exchange.Hears cl sid ⟨.idle, []⟩ [] :=
  ⟨each_nil, .inl rfl, fun _ => rfl, fun _ h => by cases h⟩

theorem Exchange.Hears.parted {sid : ℕ} {l : Exchange.Life} {es : List Event}
    (h : Exchange.Hears false sid ⟨l, []⟩ es)
    (hc : ∀ x, l = .live x → x.onBodyCb ≠ none → toldEnd sid es = false) :
    Exchange.Hears true sid ⟨l.parted, l.farewells sid⟩ es := by
  cases l with
  | idle | gone => exact ⟨h.once, .inl rfl, fun _ => rfl, fun _ h => by cases h⟩
  | live x =>
    refine ⟨h.once, ?_, fun h => (by cases h), fun y hy => ?_⟩
    · simp only [Exchange.Life.farewells]
      cases hcb : x.onBodyCb with
      | none =>
        refine .inl ?_
        cases x.onRespDrain <;> rfl
      | some k =>
        refine .inr ⟨?_, hc x rfl (by simp [hcb])⟩
        cases x.onRespDrain <;> simp [Exchange.isSinkCall]
    · rw [← Exchange.Life.live.inj hy]
      exact ⟨fun _ => ⟨rfl, rfl⟩, fun _ hs => absurd rfl hs⟩

/-- No sink that is registered was told the end. -/
def Conn.SinksUntold (c : Conn) : Prop :=
  ∀ sid st, c.stream? sid = some st → st.onBodyCb.isSome = true → toldEnd sid c.journal = false

section Run

variable {W : World} {n : ℕ} {cfg : Config} {c : Conn}

theorem Reachable.hears (h : Reachable (W.hooks n) anyCall cfg c) (hr : RemovedUntold c.journal)
    (sid : ℕ) : Exchange.Hears false sid ⟨c.life sid, []⟩ (c.history sid) := by
  have hrun := (h.exchange_run (obeys_anyCall W) (permits_anyReg anyCall)).2 sid
  have := hrun.hears (hears_idle false sid) (fun hc => by cases hc)
    (each_removedOpen_about (hr sid))
  exact this

theorem Reachable.hears_closing (h : Reachable (W.hooks n) anyCall cfg c) {rest : List Event}
    (hj : (closeConn (W.hooks n) c).journal = c.journal ++ rest)
    (hr : RemovedUntold (c.journal ++ rest)) (hc : c.SinksUntold)
    (hno : ∀ sid cb, .sinkSet sid cb ∉ rest) : ToldOnce (c.journal ++ rest) := by
  intro sid
  obtain ⟨es, he, hrun⟩ := h.closing_run (obeys_anyCall W) (permits_anyReg anyCall) sid
  have hes : es = rest.filter (fun e => e.stream? = some sid) := by
    unfold Conn.history at he
    rw [hj, List.filter_append] at he
    exact (List.append_cancel_left he).symm
  have hopen := h.hears (fun sid => (hr sid).left) sid
  have hpart := hopen.parted (fun x hx hcb => ?_)
  · refine each_callsOpen_about ?_
    rw [List.filter_append]
    have hclosed := hrun.hears hpart (fun _ cb hm => ?_) ?_
    · rw [hes] at hclosed
      exact hclosed.once
    · rw [hes] at hm
      exact hno sid cb (List.mem_of_mem_filter hm)
    · have := each_removedOpen_about (hr sid)
      rw [List.filter_append] at this
      rw [hes]
      exact this
  · cases hs : c.stream? sid with
    | none =>
      have hx' : c.exchange? sid = none := by rw [Conn.exchange?, hs, Option.map_none]
      rw [Conn.life_of_none hx'] at hx
      split_ifs at hx
    | some st =>
      have hx' : c.exchange? sid = some st.exchange := by
        rw [Conn.exchange?, hs, Option.map_some]
      rw [Conn.life_of_some hx'] at hx
      rw [← Exchange.Life.live.inj hx] at hcb
      exact (toldEnd_about _).trans (hc sid st hs (Option.isSome_iff_ne_none.mpr hcb))

theorem Reachable.toldOnce (h : Reachable (W.hooks n) anyCall cfg c)
    (hr : RemovedUntold c.journal) : ToldOnce c.journal :=
  fun sid => each_callsOpen_about (h.hears hr sid).once

end Run

/-- **The end of a body is told once.**  On an HTTP/2 connection on which no stream is taken out of
the table once its sink was told the end, no sink is called after it was told.  This stays so when
the connection is closed, if no sink that was told is registered then and the callbacks of the close
register no other.  On an HTTP/1 connection it holds as long as the connection is not closed on a
sink that was told. -/
theorem end_of_body_told_once {W : World} {n : ℕ} {cfg : Config} {c : Conn}
    (h : Reachable (W.hooks n) anyCall cfg c) (hr : RemovedUntold c.journal)
    {settings : Http1.LoopSettings} {app : Http1.App} {s : Http1.Session}
    (h₁ : s.Reachable settings app Http1.ClosesUntold) :
    ToldOnce c.journal ∧
    (∀ rest, (closeConn (W.hooks n) c).journal = c.journal ++ rest →
      RemovedUntold (c.journal ++ rest) → c.SinksUntold → (∀ sid cb, .sinkSet sid cb ∉ rest) →
        ToldOnce (c.journal ++ rest)) ∧
    s.ToldOnce :=
  ⟨h.toldOnce hr, fun _ hj hr' hc hno => h.hears_closing hj hr' hc hno, h₁.sound.once⟩

/-- A part of an upload, after which the connection is closed. -/
def cutUpload : List Input :=
  begunUpload ++ [.bytes (Frame.data 1 [1, 2] false).bytes, .feed]

/-- The head of an HTTP/1 upload of three bytes. -/
def uploadRequest : Bytes := ascii "POST / HTTP/1.1\r\nHost: a\r\nContent-Length: 3\r\n\r\n"

/-- An HTTP/1 connection on which these bytes were read and processed. -/
def uploadSession (bytes : Bytes) : Http1.Session :=
  (Http1.Session.after { limits := ⟨8192, 100, 1024⟩ } Http1.sinkApp
    (Http1.Session.after { limits := ⟨8192, 100, 1024⟩ } Http1.sinkApp {} (.read bytes))
    (.round {}))

/-- The same, closed. -/
def closedSession (bytes : Bytes) : Http1.Session :=
  Http1.Session.after { limits := ⟨8192, 100, 1024⟩ } Http1.sinkApp (uploadSession bytes) .close

theorem closedSession_reachable {ok : Http1.Happening → Http1.Session → Prop} (bytes : Bytes)
    (hok : ∀ e s, e ≠ .close → ok e s) (hclose : ok .close (uploadSession bytes)) :
    (closedSession bytes).Reachable { limits := ⟨8192, 100, 1024⟩ } Http1.sinkApp ok :=
  ((Http1.Session.Reachable.start.after (hok _ _ (by simp))).after (hok _ _ (by simp))).after hclose

theorem removedUntold_of_none {j : List Event}
    (h : (j.all fun | .removed _ => false | _ => true) = true) : RemovedUntold j := by
  rintro sid before e after rfl rfl
  simp at h

theorem toldEnd_of_none {j : List Event}
    (h : (j.all fun | .fired (.body _ _ _ true) => false | _ => true) = true) (sid : ℕ) :
    toldEnd sid j = false := by
  induction j using List.reverseRecOn with
  | nil => rfl
  | append_singleton j e ih =>
    rw [List.all_append, Bool.and_eq_true] at h
    rw [toldEnd_snoc, ih h.1]
    cases e with
    | fired cb =>
      cases cb with
      | body s cb data last =>
        cases last with
        | true => simp at h
        | false => simp [toldStep]
      | _ => rfl
    | sinkSet s cb => simp [toldStep]
    | _ => rfl

/-- Both sinks get what arrived, and the end when the connection is closed. -/
theorem end_of_body_told_once_cut : let c := runOn true cutUpload
    let s := closedSession (uploadRequest ++ [1, 2])
    (closeConn ((idleWorld true).hooks 0) c).journal =
      c.journal ++ [.fired (.body 1 7 [] true)] ∧
    c.SinksUntold ∧ ToldOnce (c.journal ++ [.fired (.body 1 7 [] true)]) ∧
    s.calls = [([1, 2], false), ([], true)] ∧ s.ToldOnce := by
  intro c s
  have hj : (closeConn ((idleWorld true).hooks 0) c).journal =
      c.journal ++ [.fired (.body 1 7 [] true)] := by decide +kernel
  have hc : c.SinksUntold := fun sid _ _ _ => toldEnd_of_none (by decide +kernel) sid
  obtain ⟨-, hclose, hs⟩ := end_of_body_told_once
    (runOn_reachable true cutUpload (fun _ _ _ => trivial))
    (removedUntold_of_none (by decide +kernel))
    (closedSession_reachable (uploadRequest ++ [1, 2]) (fun e s hne he => absurd he hne)
      (fun _ _ => by decide +kernel))
  refine ⟨hj, hc, hclose _ hj (removedUntold_of_none (by decide +kernel)) hc (by simp), ?_, hs⟩
  decide +kernel

/-- Uploads that are complete: the sink is told the end once more by the response on an HTTP/2
connection, and by the close of an HTTP/1 connection. -/
theorem completeUpload_told_twice :
    let c := runOn true (wholeUpload ++ [.call (.respond 1 { code := 200 } [])])
    let s := closedSession (uploadRequest ++ [1, 2, 3])
    Reachable ((idleWorld true).hooks 0) anyCall smallConfig c ∧
    c.journal.filter Event.toSink =
      [.sinkSet 1 7, .fired (.body 1 7 [1, 2, 3] true), .fired (.body 1 7 [] true)] ∧
    ¬ ToldOnce c.journal ∧
    s.Reachable { limits := ⟨8192, 100, 1024⟩ } Http1.sinkApp (fun _ _ => True) ∧
    s.calls = [([1, 2, 3], true), ([], true)] ∧ ¬ s.ToldOnce := by
  intro c s
  have hcalls : s.calls = [([1, 2, 3], true), ([], true)] := by decide +kernel
  refine ⟨runOn_reachable true _ (fun _ _ _ => trivial), by decide +kernel, fun h => ?_,
    closedSession_reachable _ (fun _ _ _ => trivial) trivial, hcalls, fun h => ?_⟩
  · have hsplit : c.journal = c.journal.take 15 ++
        .fired (.body 1 7 [] true) :: c.journal.drop (16) := by decide +kernel
    exact absurd (h 1 _ _ _ hsplit 7 [] true rfl) (by decide +kernel)
  · exact absurd (h [([1, 2, 3], true)] ([], true) [] hcalls ([1, 2, 3], true) (by simp)) (by simp)

end Vortex.Http2
