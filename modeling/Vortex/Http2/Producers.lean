import Vortex.Http2.Counters
import Vortex.Http2.Refinement

/-! # Parked producers

A producer that finds its response full registers a drain callback with `onDrain` and stops.  The
mark `respBackedUp`, the connection's count of marks and the callback itself are kept in step over
the whole life of an exchange (`Exchange.Producer`), and the callbacks stored and run on a stream
alternate: `drainLedger` reads the journal as such a ledger, with what is still pending.

All of this holds as long as drain callbacks are registered on responses only.  A stream that is
accepted as a WebSocket and then closed is dropped without its mark being cleared or its callback
being run (`dropWsStream`), so a registration made before `acceptWebSocket`, or on the WebSocket's
stream, is lost. -/

namespace Vortex.Http2

/-! ### The ledger of drain callbacks -/

/-- Does the event belong in the ledger? -/
def Event.isDrain : Event → Bool
  | .drainSet _ _ | .fired (.drain _ _) => true
  | _ => false

/-- One entry: a registration replaces what is pending, running a callback settles it.  `none` is
a callback that was run and was not pending. -/
def drainStep (sid : ℕ) (pending : Option ℕ) : Event → Option (Option ℕ)
  | .drainSet s cb => if s = sid then some (some cb) else some pending
  | .fired (.drain s cb) =>
      if s = sid then if pending = some cb then some none else none else some pending
  | _ => some pending

/-- The ledger of the stream `sid`: the callback that is pending after these events. -/
def drainLedger (sid : ℕ) (pending : Option ℕ) (es : List Event) : Option (Option ℕ) :=
  es.foldlM (drainStep sid) pending

/-- The drain callbacks run on the stream. -/
def drainsRun (sid : ℕ) (es : List Event) : List ℕ :=
  es.filterMap fun
    | .fired (.drain s cb) => if s = sid then some cb else none
    | _ => none

variable {es : List Event} {c : Conn} {cfg : Config} (p : Option ℕ) {W : World} {n : ℕ}

section Ledger

variable {sid : ℕ}

@[simp] theorem drainLedger_nil : drainLedger sid p [] = some p := rfl

@[simp] theorem drainLedger_cons (e : Event) (es : List Event) :
    drainLedger sid p (e :: es) = (drainStep sid p e).bind (fun q => drainLedger sid q es) := rfl

theorem drainLedger_append (es fs : List Event) :
    drainLedger sid p (es ++ fs) = (drainLedger sid p es).bind (fun q => drainLedger sid q fs) :=
  List.foldlM_append

theorem drainStep_of_quiet {e : Event} (h : e.isDrain = false ∨ e.stream? ≠ some sid) :
    drainStep sid p e = some p := by
  unfold drainStep
  split
  · next s cb =>
    rcases h with h | h
    · cases h
    · exact if_neg (fun e => h (congrArg some e))
  · next s cb =>
    rcases h with h | h
    · cases h
    · exact if_neg (fun e => h (congrArg some e))
  · rfl

theorem drainLedger_of_quiet (h : ∀ e ∈ es, e.isDrain = false) : drainLedger sid p es = some p := by
  induction es with
  | nil => rfl
  | cons e es ih =>
    rw [drainLedger_cons, drainStep_of_quiet p (.inl (h e List.mem_cons_self))]
    exact ih (fun e he => h e (List.mem_cons_of_mem _ he))

theorem drainLedger_filter (es : List Event) :
    drainLedger sid p (es.filter (fun e => e.stream? = some sid)) = drainLedger sid p es := by
  induction es generalizing p with
  | nil => rfl
  | cons e es ih =>
    by_cases he : e.stream? = some sid
    · rw [List.filter_cons_of_pos (by simpa using he), drainLedger_cons, drainLedger_cons]
      exact congrArg _ (funext ih)
    · rw [List.filter_cons_of_neg (by simpa using he), drainLedger_cons,
        drainStep_of_quiet p (.inr he)]
      exact ih p

theorem drainsRun_cons (e : Event) (es : List Event) :
    drainsRun sid (e :: es) = drainsRun sid [e] ++ drainsRun sid es := by
  unfold drainsRun
  rw [← List.filterMap_append]
  rfl

theorem drainsRun_of_quiet {e : Event} (h : e.isDrain = false ∨ e.stream? ≠ some sid) :
    drainsRun sid [e] = [] := by
  unfold drainsRun
  rw [List.filterMap_cons_none, List.filterMap_nil]
  split
  · next s cb =>
    rcases h with h | h
    · cases h
    · exact if_neg (fun e => h (congrArg some e))
  · rfl

theorem drainsRun_of_ledger (hno : ∀ cb, Event.drainSet sid cb ∉ es) :
    ∀ {p q : Option ℕ}, drainLedger sid p es = some q → p.toList = drainsRun sid es ++ q.toList := by
  induction es with
  | nil =>
    intro p q h
    rw [← Option.some.inj h]
    rfl
  | cons e es ih =>
    intro p q h
    have ih' := @ih (fun cb hcb => hno cb (List.mem_cons_of_mem _ hcb))
    rw [drainsRun_cons]
    by_cases hq : e.isDrain = false ∨ e.stream? ≠ some sid
    · rw [drainLedger_cons, drainStep_of_quiet p hq] at h
      rw [drainsRun_of_quiet hq]
      exact ih' h
    · obtain ⟨h1, h2⟩ := not_or.mp hq
      rw [Bool.not_eq_false] at h1
      rw [not_not] at h2
      cases e with
      | drainSet s cb =>
        obtain rfl : s = sid := Option.some.inj h2
        exact absurd List.mem_cons_self (hno cb)
      | fired k =>
        cases k with
        | drain s cb =>
          obtain rfl : s = sid := Option.some.inj h2
          rw [drainLedger_cons, drainStep, if_pos rfl] at h
          split_ifs at h with hp
          · have hrest := ih' (p := none) h
            rw [hp]
            have hone : drainsRun s [.fired (.drain s cb)] = [cb] := by
              simp [drainsRun]
            rw [hone, List.append_assoc, ← hrest]
            rfl
          · cases h
        | _ => cases h1
      | _ => cases h1

end Ledger

/-! ### Marks and callbacks of an exchange -/

/-- Registrations on responses only: the stream is no WebSocket and will not become one. -/
def Exchange.Untunnelled (x : Exchange) : Prop :=
  x.isWs = false ∧ (x.responded = true ∨ x.headersDone = true ∧ x.isWsConnect = false)

/-- The same, as a condition on the call. -/
def drainsOnResponses : Call → Conn → Prop
  | .onDrain sid _, c => ∀ st, c.stream? sid = some st → st.ws = none ∧
      (st.responded = true ∨ st.headersDone = true ∧ st.isWsConnect = false)
  | _, _ => True

def untunnelled : Call → Exchange → Prop
  | .onDrain _ _, x => x.Untunnelled
  | _, _ => True

theorem permits_drainsOnResponses : Permits drainsOnResponses untunnelled where
  onDrain h hs := ⟨Stream.exchange_isWs.mpr (h _ hs).1, (h _ hs).2⟩
  onBody _ _ := trivial

namespace Exchange

/-- A WebSocket, and a stream that may become one, is not marked and holds no callback; a response
that is open and holds one is marked. -/
structure Producer (x : Exchange) : Prop where
  unanswered : x.responded = false → x.respPhase = .rpNone
  ws : x.isWs = true → x.responded = true ∧ x.respPhase = .rpNone ∧ x.respBackedUp = false ∧
    x.onRespDrain = none
  tunnel : x.responded = false → x.headersDone = false ∨ x.isWsConnect = true →
    x.respBackedUp = false ∧ x.onRespDrain = none
  armed : x.armed = true → x.onRespDrain.isSome = true → x.respBackedUp = true

theorem Producer.streaming {x : Exchange} (h : x.Producer) (hp : x.respPhase = .rpStreaming) :
    x.isWs = false ∧ x.responded = true := by
  constructor
  · by_contra hw
    have := (h.ws (by simpa using hw)).2.1
    rw [hp] at this
    cases this
  · by_contra hr
    have := h.unanswered (by simpa using hr)
    rw [hp] at this
    cases this

theorem producer_new : Producer {} where
  unanswered _ := rfl
  ws h := by cases h
  tunnel _ _ := ⟨rfl, rfl⟩
  armed _ h := by cases h

variable {sid : ℕ} {x x' : Exchange} {evs : List Event}

theorem Decides.producer (h : Decides sid x evs x') (hx : x.Producer) : x'.Producer := by
  cases h with
  | wait => exact hx
  | _ => exact ⟨hx.unanswered, hx.ws, hx.tunnel, hx.armed⟩

theorem Producer.headed (hx : x.Producer) (hh : x.headersDone = false) (len : ℤ)
    (isWs isHead es streaming : Bool) : (x.headed len isWs isHead es streaming).Producer :=
  ⟨hx.unanswered, hx.ws, fun hr _ => hx.tunnel hr (.inl hh), hx.armed⟩

theorem Act.producer (h : Act sid untunnelled x evs x') (hx : x.Producer) : x'.Producer := by
  cases h with
  | informational => exact hx
  | sendHead hr hh len hb =>
    have hphase := hx.unanswered hr
    have hnw : x.isWs = false := by
      by_contra hw
      have := (hx.ws (by simpa using hw)).1
      rw [hr] at this
      cases this
    refine ⟨fun h => (by cases h), fun h => ?_, fun h => (by cases h), fun _ hc => hx.armed ?_ hc⟩
    · exact absurd (hnw.symm.trans h) (by decide)
    · simp [Exchange.armed, hnw, hphase]
  | respond hr hh hd fields hb =>
    have hphase := hx.unanswered hr
    exact ⟨fun h => (by cases h), fun h => ⟨rfl, hphase, (hx.ws h).2.2⟩, fun h => (by cases h),
      hx.armed⟩
  | wsAccept hw hr hn hb =>
    have hphase := hx.unanswered hr
    have hfree := hx.tunnel hr (.inr hw)
    refine ⟨fun h => (by cases h), fun _ => ⟨rfl, hphase, hfree⟩, fun h => (by cases h), fun _ hc => ?_⟩
    rw [show x.onRespDrain = none from hfree.2] at hc
    cases hc
  | takeDrain hb hc =>
    exact ⟨hx.unanswered, fun h => ⟨(hx.ws h).1, (hx.ws h).2.1, rfl, rfl⟩, fun _ _ => ⟨rfl, rfl⟩,
      fun _ h => by cases h⟩
  | mark hp =>
    obtain ⟨hw, hr⟩ := hx.streaming hp
    refine ⟨hx.unanswered, fun h => ?_, fun h => ?_, fun _ _ => rfl⟩
    · exact absurd (hw.symm.trans h) (by decide)
    · exact absurd (hr.symm.trans h) (by decide)
  | register hk hr =>
    obtain ⟨hw, hopen⟩ := hk
    refine ⟨hx.unanswered, fun h => absurd (hw.symm.trans h) (by decide), fun h hor => ?_,
      fun ha _ => ?_⟩
    · rcases hopen with hopen | ⟨h1, h2⟩
      · exact absurd (hopen.symm.trans h) (by decide)
      · rcases hor with hor | hor
        · exact absurd (h1.symm.trans hor) (by decide)
        · exact absurd (h2.symm.trans hor) (by decide)
    · have ha' : x.armed = true := ha
      rw [ha']
      rfl
  | head hh hf isWs isHead es streaming hs hd => exact hd.producer (hx.headed hh _ _ _ _ _)
  | trailers hh hn hd => exact hd.producer ⟨hx.unanswered, hx.ws, hx.tunnel, hx.armed⟩
  | bodyEnd he | told he hcb => cases he <;> exact ⟨hx.unanswered, hx.ws, hx.tunnel, hx.armed⟩
  | _ => exact ⟨hx.unanswered, hx.ws, hx.tunnel, hx.armed⟩

theorem Finish.producer (h : Finish x x') (hx : x.Producer) : x'.Producer := by
  have key : ∀ trailers, x.respPhase = .rpStreaming → (x.finish trailers).Producer := by
    intro trailers hp
    obtain ⟨hw, hr⟩ := hx.streaming hp
    exact ⟨fun h => absurd (hr.symm.trans h) (by decide),
      fun h => absurd (hw.symm.trans h) (by decide), fun _ _ => ⟨rfl, rfl⟩, fun _ h => by cases h⟩
  cases h with
  | queue hp hh hl trailers hb | head hp hh trailers => exact key trailers hp

/-! ### The ledger of an exchange -/

/-- What a step does to the ledger: it runs the pending callback, stores one on an open response,
or does neither. -/
inductive Entry (sid : ℕ) (x x' : Exchange) : List Event → Prop
  | run {cb : ℕ} (hc : x.onRespDrain = some cb) (hc' : x'.onRespDrain = none)
      (he : x'.ended = x.ended) : Entry sid x x' [.fired (.drain sid cb)]
  | store {cb : ℕ} (hc' : x'.onRespDrain = some cb) (he : x.ended = false) :
      Entry sid x x' [.drainSet sid cb]
  | quiet {evs : List Event} (hq : ∀ e ∈ evs, e.isDrain = false)
      (hc : x'.onRespDrain = x.onRespDrain) (he : x.ended = true → x'.ended = true) :
      Entry sid x x' evs

theorem block_quiet {es : Bool} (h : Block sid es evs) : ∀ e ∈ evs, e.isDrain = false :=
  h.forall (fun _ _ => rfl) (fun _ _ => rfl)

theorem dataEvents_quiet (chunks : List Bytes) : ∀ e ∈ dataEvents sid chunks, e.isDrain = false :=
  List.forall_mem_map.mpr fun _ _ => rfl

theorem Decides.entry (h : Decides sid x evs x') : (∀ e ∈ evs, e.isDrain = false) ∧
    x'.onRespDrain = x.onRespDrain ∧ x'.ended = x.ended := by
  cases h with
  | wait => exact ⟨by simp, rfl, rfl⟩
  | _ => exact ⟨by simp [Event.isDrain], rfl, rfl⟩

theorem ended_of_responded (hr : x.responded = false) : x.ended = false := by
  simp [Exchange.ended, hr]

theorem Act.entry {reg : Call → Exchange → Prop} (h : Act sid reg x evs x') :
    Entry sid x x' evs := by
  cases h with
  | takeDrain hb hc => exact .run hc rfl rfl
  | register hk hr => exact .store rfl hr
  | informational hr hb => exact .quiet (block_quiet hb) rfl id
  | sendHead hr hh len hb =>
    refine .quiet (List.forall_mem_cons.mpr ⟨rfl, block_quiet hb⟩) rfl (fun h => ?_)
    rw [ended_of_responded hr] at h
    cases h
  | write hp hh hd hc hq => exact .quiet (List.forall_mem_cons.mpr ⟨rfl, dataEvents_quiet _⟩) rfl id
  | respond hr hh hd fields hb =>
    refine .quiet (List.forall_mem_cons.mpr ⟨rfl, List.forall_mem_append.mpr
      ⟨block_quiet hb, List.forall_mem_singleton.mpr rfl⟩⟩) rfl (fun h => ?_)
    rw [ended_of_responded hr] at h
    cases h
  | wsAccept hw hr hn hb =>
    refine .quiet (block_quiet hb) rfl (fun h => ?_)
    rw [ended_of_responded hr] at h
    cases h
  | head hh hf isWs isHead es streaming hs hd =>
    obtain ⟨h1, h2, h3⟩ := hd.entry
    exact .quiet (List.forall_mem_cons.mpr ⟨rfl, h1⟩) h2 (fun h => h3.trans h)
  | trailers hh hn hd =>
    obtain ⟨h1, h2, h3⟩ := hd.entry
    exact .quiet h1 h2 (fun h => h3.trans h)
  | bodyEnd he => cases he <;> exact .quiet (by simp) rfl id
  | told he hcb => cases he <;> exact .quiet (by simp [Event.isDrain]) rfl id
  | _ => exact .quiet (by simp [Event.isDrain]) rfl id

/-- The drain callbacks among those owed. -/
def owedDrains (owed : List Callback) : List ℕ :=
  owed.filterMap fun
    | .drain _ cb => some cb
    | _ => none

/-- The drain callback held by the exchange. -/
def Life.held : Life → List ℕ
  | .live x => x.onRespDrain.toList
  | _ => []

theorem owedDrains_append (ds ds' : List Callback) :
    owedDrains (ds ++ ds') = owedDrains ds ++ owedDrains ds' :=
  List.filterMap_append

theorem owedDrains_drainDebt (x : Exchange) :
    owedDrains (x.drainDebt sid) = x.onRespDrain.toList := by
  unfold drainDebt owedDrains
  cases x.onRespDrain <;> rfl

theorem owedDrains_debts (x : Exchange) : owedDrains (x.debts sid) = x.onRespDrain.toList := by
  unfold debts owedDrains
  cases x.onRespDrain <;> cases x.onBodyCb <;> cases x.isWs <;> rfl

/-- A callback owed on the stream. -/
def Own (sid : ℕ) (cb : Callback) : Prop := ∀ s k, cb = .drain s k → s = sid

theorem own_drainDebt (x : Exchange) : ∀ cb ∈ x.drainDebt sid, Own sid cb := by
  intro cb hcb s k e
  unfold drainDebt at hcb
  cases h : x.onRespDrain with
  | none => simp [h] at hcb
  | some k' =>
    simp only [h, Option.map_some, Option.toList_some, List.mem_singleton] at hcb
    rw [hcb] at e
    exact (Callback.drain.inj e).1.symm

theorem own_debts (x : Exchange) : ∀ cb ∈ x.debts sid, Own sid cb := by
  intro cb hcb
  rcases List.mem_append.mp hcb with hcb | hcb
  · intro s k e
    rcases List.mem_append.mp hcb with hcb | hcb
    · split_ifs at hcb
      · rw [List.mem_singleton.mp hcb] at e
        cases e
      · cases hcb
    · obtain ⟨k', -, rfl⟩ := Option.map_eq_some_iff.mp (Option.mem_toList.mp hcb)
      cases e
  · exact own_drainDebt x cb hcb

/-- What holds along a run: the pending callback is the one held or the one owed; a callback is
owed only on a response that has ended. -/
structure Ledger (sid : ℕ) (s : State) (es : List Event) : Prop where
  producer : ∀ x, s.life = .live x → x.Producer
  closed : owedDrains s.owed ≠ [] → s.life = .gone ∨ ∃ x, s.life = .live x ∧ x.ended = true
  own : ∀ cb ∈ s.owed, Own sid cb
  settled : ∃ p, drainLedger sid none es = some p ∧ p.toList = s.life.held ++ owedDrains s.owed

theorem Entry.settled {p : Option ℕ} {ds : List ℕ} (h : Entry sid x x' evs)
    (hp : p.toList = x.onRespDrain.toList ++ ds) (hd : ds ≠ [] → x.ended = true) :
    ∃ q, drainLedger sid p evs = some q ∧ q.toList = x'.onRespDrain.toList ++ ds := by
  have hlen : p.toList.length ≤ 1 := by cases p <;> simp
  cases h with
  | @run cb hc hc' he =>
    rw [hc] at hp
    have hds : ds = [] := by
      rw [hp] at hlen
      simpa using hlen
    rw [hds] at hp
    have hp' : p = some cb := by
      cases p with
      | none => cases hp
      | some k => exact congrArg some (List.cons.inj hp).1
    refine ⟨none, ?_, ?_⟩
    · simp [drainStep, hp']
    · rw [hc', hds]
      rfl
  | @store cb hc' he =>
    have hds : ds = [] := by
      by_contra hne
      rw [he] at hd
      cases hd hne
    refine ⟨some cb, ?_, ?_⟩
    · simp [drainStep]
    · rw [hc', hds]
      rfl
  | quiet hq hc he => exact ⟨p, drainLedger_of_quiet p hq, by rw [hp, hc]⟩

theorem Entry.ended (h : Entry sid x x' evs) {ds : List ℕ} (hne : ds ≠ [])
    (hd : ds ≠ [] → x.ended = true) : x'.ended = true := by
  cases h with
  | run hc hc' he => exact he.trans (hd hne)
  | store hc' he =>
    rw [he] at hd
    cases hd hne
  | quiet hq hc he => exact he (hd hne)

theorem Ledger.live_closed {ds : List Callback} (h : Ledger sid ⟨.live x, ds⟩ es)
    (hd : owedDrains ds ≠ []) : x.ended = true := by
  rcases h.closed hd with h' | ⟨y, h', he⟩
  · cases h'
  · obtain rfl : x = y := Life.live.inj h'
    exact he

theorem Ledger.idle_owed {ds : List Callback} (h : Ledger sid ⟨.idle, ds⟩ es) :
    owedDrains ds = [] := by
  by_contra hd
  rcases h.closed hd with h' | ⟨y, h', -⟩ <;> cases h'

theorem settled_append {l : List ℕ} (hq : ∀ e ∈ evs, e.isDrain = false)
    (h : ∃ p, drainLedger sid none es = some p ∧ p.toList = l) :
    ∃ p, drainLedger sid none (es ++ evs) = some p ∧ p.toList = l := by
  obtain ⟨p, hp, hl⟩ := h
  refine ⟨p, ?_, hl⟩
  rw [drainLedger_append, hp]
  exact drainLedger_of_quiet p hq

theorem End.quiet (h : End sid x evs) : ∀ e ∈ evs, e.isDrain = false := by
  cases h with
  | answer hr len hl hb => exact List.forall_mem_cons.mpr ⟨rfl, block_quiet hb⟩
  | finishTrailers hp hh hl hb h | trailers hw hl hb h => exact block_quiet h
  | _ => simp [Event.isDrain]

/-- **The ledger of an exchange is in order along its whole life.** -/
theorem Run.ledger {t : State} (h : Run untunnelled false sid ⟨.idle, []⟩ es t) :
    Ledger sid t es := by
  induction h with
  | refl =>
    exact ⟨fun x h => (by cases h), fun h => absurd rfl h, by simp, none, rfl, rfl⟩
  | skip _ hl =>
    exact ⟨fun x h => (by cases h), fun _ => .inl rfl, hl.own, hl.settled⟩
  | opened _ hl =>
    refine ⟨fun x h => ?_, fun hd => absurd hl.idle_owed hd, hl.own, ?_⟩
    · rw [← Life.live.inj h]
      exact producer_new
    · exact settled_append (by simp [Event.isDrain]) hl.settled
  | act _ ha hl =>
    have hentry := ha.entry
    obtain ⟨p, hp, hlist⟩ := hl.settled
    obtain ⟨q, hq, hqlist⟩ := hentry.settled hlist hl.live_closed
    refine ⟨fun x h => ?_, fun hd => ?_, hl.own, q, ?_, hqlist⟩
    · rw [← Life.live.inj h]
      exact ha.producer (hl.producer _ rfl)
    · exact .inr ⟨_, rfl, hentry.ended hd hl.live_closed⟩
    · rw [drainLedger_append, hp]
      exact hq
  | @finish _ ds x x' _ ha hl =>
    obtain ⟨p, hp, hlist⟩ := hl.settled
    have hx := hl.producer _ rfl
    obtain ⟨hended, hheld⟩ : x'.ended = true ∧ x'.onRespDrain = none := by
      cases ha with
      | queue hph hh hlen trailers hb | head hph hh trailers =>
        obtain ⟨hw, hr⟩ := hx.streaming hph
        exact ⟨by simp [Exchange.ended, Exchange.finish, hw, hr], rfl⟩
    refine ⟨fun y h => ?_, fun _ => .inr ⟨_, rfl, hended⟩, ?_, p, hp, ?_⟩
    · rw [← Life.live.inj h]
      exact ha.producer hx
    · intro cb hcb
      exact (List.mem_append.mp hcb).elim (own_drainDebt x cb) (hl.own cb)
    · rw [hlist, Life.held, Life.held, hheld, owedDrains_append, owedDrains_drainDebt]
      rfl
  | @ended _ evs ds x _ ha hl =>
    refine ⟨fun y h => (by cases h), fun _ => .inl rfl, ?_, ?_⟩
    · intro cb hcb
      exact (List.mem_append.mp hcb).elim (own_debts x cb) (hl.own cb)
    · rw [owedDrains_append, owedDrains_debts]
      exact settled_append (List.forall_mem_append.mpr
        ⟨ha.quiet, List.forall_mem_singleton.mpr rfl⟩) hl.settled
  | @dropped _ ds x _ hw hl =>
    refine ⟨fun y h => (by cases h), fun _ => .inl rfl, hl.own, ?_⟩
    have hq : ∀ e ∈ [Event.removed sid], e.isDrain = false := by simp [Event.isDrain]
    have h1 := settled_append hq hl.settled
    have hheld : (Life.live x).held = [] := by
      rw [Life.held, ((hl.producer x rfl).ws hw).2.2.2]
      rfl
    rw [hheld] at h1
    exact h1
  | @fired es l cb ds _ hl =>
    obtain ⟨p, hp, hlist⟩ := hl.settled
    refine ⟨hl.producer, fun hd => hl.closed ?_, fun k hk => hl.own k (List.mem_cons_of_mem _ hk), ?_⟩
    · rw [show cb :: ds = [cb] ++ ds from rfl, owedDrains_append]
      exact List.append_ne_nil_of_right_ne_nil _ hd
    · rw [drainLedger_append, hp, Option.bind_some, drainLedger_filter]
      cases cb with
      | drain s k =>
        obtain rfl : s = sid := hl.own (.drain s k) List.mem_cons_self s k rfl
        have hlen : p.toList.length ≤ 1 := by cases p <;> simp
        have hlist' : p.toList = l.held ++ k :: owedDrains ds := hlist
        have hnil : l.held = [] ∧ owedDrains ds = [] := by
          rw [hlist', List.length_append, List.length_cons] at hlen
          exact ⟨List.length_eq_zero_iff.mp (by omega), List.length_eq_zero_iff.mp (by omega)⟩
        rw [hnil.1, hnil.2] at hlist' ⊢
        have hp' : p = some k := by
          cases p with
          | none => cases hlist'
          | some k' => exact congrArg some (List.cons.inj hlist').1
        exact ⟨none, by simp [drainStep, hp'], rfl⟩
      | _ => exact ⟨p, rfl, hlist⟩
  | forgotten _ hc | wsTaken _ hc => cases hc

end Exchange

/-! ### Parked producers over runs -/

/-- The marks are counted, and open exchanges are in order. -/
structure Conn.Parked (c : Conn) : Prop where
  accounted : Accounted c
  producers : c.Holds Exchange.Producer
  placed : c.Placed
  drift : Gauge.parked.drift c = 0

theorem Conn.Holds.ws_unmarked (h : c.Holds Exchange.Producer) {sid : ℕ} {st : Stream}
    (hs : c.stream? sid = some st) (hw : st.ws.isSome = true) : st.respBackedUp = false :=
  ((h sid _ (Conn.exchange?_of_stream hs)).ws hw).2.2.1

theorem Reachable.parked (hW : W.Obeys drainsOnResponses)
    (h : Reachable (W.hooks n) drainsOnResponses cfg c) : c.Parked := by
  refine h.invariant_opened hW ⟨accounted_newH2Conn cfg, fun _ _ h => (by cases h),
    (sound_newH2Conn cfg).placed, rfl⟩ (fun a b hp ho ha => ?_)
  have hb := hp.holds permits_drainsOnResponses Exchange.producer_new
    (fun _ _ _ _ h hx => h.producer hx) (fun _ _ h hx => h.producer hx) ⟨ha.producers, ha.placed⟩
  refine ⟨hp.accounted ho ha.accounted, hb.1, hb.2, ?_⟩
  rw [hp.parked_drift ho ha.accounted.tidy (fun _ _ hs hw => ha.producers.ws_unmarked hs hw)]
  exact ha.drift

theorem Reachable.drainLedger (hW : W.Obeys drainsOnResponses)
    (h : Reachable (W.hooks n) drainsOnResponses cfg c) (sid : ℕ) :
    ∃ p, drainLedger sid none c.journal = some p ∧
      p.toList = ((c.stream? sid).bind Stream.onRespDrain).toList := by
  obtain ⟨-, hrun⟩ := h.exchange_run hW permits_drainsOnResponses
  obtain ⟨p, hp, hlist⟩ := ((hrun sid).ledger).settled
  refine ⟨p, ?_, ?_⟩
  · rw [← hp]
    exact (drainLedger_filter none c.journal).symm
  · rw [hlist]
    unfold Conn.life Conn.exchange?
    cases c.stream? sid with
    | none => by_cases hl : sid ≤ c.lastStreamId <;> simp [hl, Exchange.Life.held, Exchange.owedDrains]
    | some st => exact List.append_nil _

/-- **Parked producers are counted and never stranded**, as long as drain callbacks are registered
on responses only.  In every state between two events of a run the count is the number of marks,
an open response that holds a callback is marked, and of the callbacks stored on a stream each is
run at most once before the next is stored, exactly once by the time the stream is gone. -/
theorem producers_never_stranded (hW : W.Obeys drainsOnResponses)
    (h : Reachable (W.hooks n) drainsOnResponses cfg c) :
    c.backedUpProducers = c.streams.count (fun st => st.respBackedUp) ∧
      (∀ sid st, c.stream? sid = some st → st.ws = none →
        st.respPhase = .rpNone ∨ st.respPhase = .rpStreaming → st.onRespDrain.isSome = true →
          st.respBackedUp = true) ∧
      ∀ sid cb before since after,
        c.journal = before ++ .drainSet sid cb :: (since ++ after) →
        (∀ cb', Event.drainSet sid cb' ∉ since) →
        (drainsRun sid since = [] ∨ drainsRun sid since = [cb]) ∧
          (after = [] → c.stream? sid = none → drainsRun sid since = [cb]) := by
  have hpark := h.parked hW
  refine ⟨?_, fun sid st hs hw hph hc => ?_, fun sid cb before since after hj hno => ?_⟩
  · exact (Int.sub_eq_zero.mp hpark.drift).trans (Table.total_toInt _ _)
  · refine (hpark.producers sid _ (Conn.exchange?_of_stream hs)).armed ?_ hc
    unfold Exchange.armed Stream.exchange
    rcases hph with hph | hph <;> simp [hw, hph]
  · obtain ⟨p, hp, hlist⟩ := h.drainLedger hW sid
    rw [hj, drainLedger_append] at hp
    obtain ⟨p₀, -, hp⟩ := Option.bind_eq_some_iff.mp hp
    rw [drainLedger_cons, drainStep, if_pos rfl, Option.bind_some, drainLedger_append] at hp
    obtain ⟨p₁, hp₁, hp⟩ := Option.bind_eq_some_iff.mp hp
    have hrun : [cb] = drainsRun sid since ++ p₁.toList := drainsRun_of_ledger hno hp₁
    constructor
    · cases p₁ with
      | none => exact .inr (by simpa using hrun.symm)
      | some k =>
        left
        have := congrArg List.length hrun
        simp only [List.length_append, Option.toList_some, List.length_singleton] at this
        exact List.length_eq_zero_iff.mp (by omega)
    · intro hafter hnone
      rw [hafter] at hp
      obtain rfl : p₁ = p := Option.some.inj hp
      rw [hnone] at hlist
      rw [hlist] at hrun
      simpa using hrun.symm

/-- A request that is answered with a streamed response. -/
def begunAnswer : List Input :=
  feedInputs [.headers 1 postBlock true true] ++ [.call (.sendHead 1 { code := 200 } (-1))]

/-- A producer waits on the response, which is then finished. -/
def finishedWait : List Input := begunAnswer ++ [.call (.onDrain 1 7)] ++ [.call (.finish 1 [])]

theorem finishedWait_reachable :
    Reachable ((idleWorld false).hooks 0) drainsOnResponses smallConfig (runOn false finishedWait) := by
  have h1 : Reachable ((idleWorld false).hooks 0) drainsOnResponses smallConfig
      (runOn false begunAnswer) := by
    refine runOn_reachable false begunAnswer (fun k c hk => ?_)
    simp only [begunAnswer, feedInputs, List.mem_append, List.mem_cons, List.mem_replicate,
      List.not_mem_nil, or_false, reduceCtorEq, and_false, false_or, Input.call.injEq] at hk
    rw [hk]
    exact trivial
  refine runOn_append_reachable (runOn_append_reachable h1 ?_) trivial
  intro st hst
  have h2 : ((runOn false begunAnswer).stream? 1).all (fun st => st.ws.isNone && st.responded) =
      true := by decide +kernel
  rw [hst] at h2
  have h3 := Bool.and_eq_true_iff.mp h2
  exact ⟨Option.isNone_iff_eq_none.mp h3.1, .inl h3.2⟩

/-- The finish runs the waiting callback, once. -/
theorem producers_never_stranded_finishedWait : let c := runOn false finishedWait
    c.journal.filter Event.isDrain = [.drainSet 1 7, .fired (.drain 1 7)] ∧
    c.backedUpProducers = c.streams.count (fun st => st.respBackedUp) ∧
      (∀ sid st, c.stream? sid = some st → st.ws = none →
        st.respPhase = .rpNone ∨ st.respPhase = .rpStreaming → st.onRespDrain.isSome = true →
          st.respBackedUp = true) ∧
      ∀ sid cb before since after,
        c.journal = before ++ .drainSet sid cb :: (since ++ after) →
        (∀ cb', Event.drainSet sid cb' ∉ since) →
        (drainsRun sid since = [] ∨ drainsRun sid since = [cb]) ∧
          (after = [] → c.stream? sid = none → drainsRun sid since = [cb]) :=
  ⟨by decide +kernel, producers_never_stranded (idleWorld_obeys false _) finishedWait_reachable⟩

/-- An Extended CONNECT on which a producer waits, and which is then accepted as a WebSocket and
closed. -/
def closedTunnel : List Input :=
  feedInputs [.headers 1 connectBlock false true] ++
    [.call (.onDrain 1 7), .call (.wsAccept 1 [] [] [] []), .call (.wsSend 1 [0x88, 0] true)]

/-- The stream is gone, its producer is still counted, and its callback was never run. -/
theorem closedTunnel_strands : let c := runOn false closedTunnel
    Reachable ((idleWorld false).hooks 0) anyCall smallConfig c ∧ c.stream? 1 = none ∧
      c.backedUpProducers = 1 ∧ c.streams.count (fun st => st.respBackedUp) = 0 ∧
      c.journal.filter Event.isDrain = [.drainSet 1 7] :=
  ⟨runOn_reachable false closedTunnel (fun _ _ _ => trivial), by decide +kernel⟩

end Vortex.Http2
