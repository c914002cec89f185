import Vortex.Http2.BodyLength
import Vortex.Http2.Ledger

/-! # Admission of requests

A request is handed over by appending its stream to `ready`.  Over every run this happens at most
once for a stream, after its head was accepted, and only for a stream that a HEADERS frame opened
whose id was higher than that of every HEADERS frame before it, whether its stream was opened or
refused.

The ids announced in GOAWAY frames never rise, in whatever order drain notices, cutoffs and
connection errors come; and no request is handed over whose stream lies above an id announced
before.

What concerns one stream is read off its exchange (`Exchange.Run`); what concerns the ids and the
frames of the connection is an account (`Entry`). -/

namespace Vortex.Http2

open FieldRules

/-! ### The journal -/

/-- The streams handed over, in their order. -/
def dispatchedIds (j : List Event) : List ℕ :=
  j.filterMap (fun e => match e with | .dispatched sid _ => some sid | _ => none)

/-- The ids announced in GOAWAY frames, in their order. -/
def goawayIds (j : List Event) : List ℕ :=
  j.filterMap (fun e => match e with | .sent (.goaway last _) => some last | _ => none)

/-- The frame is a HEADERS frame. -/
def InFrame.isHeaders (f : InFrame) : Prop := FrameType.ofCode f.header.typ = some .ftHeaders

/-- The stream was opened by the frame that arrived last, a HEADERS frame with an id above those of
all HEADERS frames before it. -/
def OpenedByHeaders (before : List Event) (sid : ℕ) : Prop :=
  ∃ frames f, received before = frames ++ [f] ∧ f.isHeaders ∧ f.header.streamId = sid ∧
    ∀ g ∈ frames, g.isHeaders → g.header.streamId < sid

/-- The head of the request on the stream was accepted. -/
def HeadAccepted (before : List Event) (sid : ℕ) : Prop :=
  ∃ fields route, .head sid fields route ∈ before ∧ (classifyRequestHead fields).1 ≠ .rhInvalid

/-- What has happened before a stream is handed over. -/
def Admitted (before : List Event) : Event → Prop
  | .dispatched sid _ => sid ∉ dispatchedIds before ∧ sid % 2 = 1 ∧ HeadAccepted before sid ∧
      (∃ start rest, before = start ++ .opened sid :: rest ∧ OpenedByHeaders start sid) ∧
      ∀ last ∈ goawayIds before, sid ≤ last
  | _ => True

theorem HeadAccepted.append {es : List Event} {sid : ℕ} (h : HeadAccepted es sid)
    (evs : List Event) : HeadAccepted (es ++ evs) sid := by
  obtain ⟨fields, route, hm, hv⟩ := h
  exact ⟨fields, route, List.mem_append_left _ hm, hv⟩

/-! ### One exchange -/

/-- The event hands a request over. -/
def Event.isDispatch : Event → Bool
  | .dispatched _ _ => true
  | _ => false

namespace Exchange

variable {sid : ℕ} {x x' : Exchange} {es evs : List Event} {reg : Call → Exchange → Prop}

/-- What an exchange has been through when it is handed over. -/
def HandedOver (sid : ℕ) (before : List Event) : Event → Prop
  | .dispatched _ _ => (∀ n, .dispatched sid n ∉ before) ∧ .opened sid ∈ before ∧
      HeadAccepted before sid
  | _ => True

/-- What an open exchange has been through. -/
structure Admits (sid : ℕ) (x : Exchange) (es : List Event) : Prop where
  opened : .opened sid ∈ es
  headed : x.headersDone = true → HeadAccepted es sid
  fresh : x.dispatched = false → ∀ n, .dispatched sid n ∉ es
  each : Each (HandedOver sid) es

theorem handedOver_of_quiet {e : Event} (h : e.isDispatch = false) (before : List Event) :
    HandedOver sid before e := by
  cases e <;> trivial

theorem Admits.quiet (h : Admits sid x es) (hh : x'.headersDone = x.headersDone)
    (hd : x'.dispatched = x.dispatched) (hq : ∀ e ∈ evs, e.isDispatch = false) :
    Admits sid x' (es ++ evs) where
  opened := List.mem_append_left _ h.opened
  headed hx := HeadAccepted.append (h.headed (hh ▸ hx)) evs
  fresh hx n hm := by
    rcases List.mem_append.mp hm with hm | hm
    · exact h.fresh (hd ▸ hx) n hm
    · exact absurd (hq _ hm) (by simp [Event.isDispatch])
  each := h.each.append_of (fun e he before => handedOver_of_quiet (hq e he) before)

theorem Admits.same (h : Admits sid x es) (hh : x'.headersDone = x.headersDone)
    (hd : x'.dispatched = x.dispatched) : Admits sid x' es := by
  rw [← List.append_nil es]
  exact h.quiet hh hd (by simp)

theorem Admits.dispatch (h : Admits sid x es) (hh : x.headersDone = true)
    (hd : x.dispatched = false) (n : ℕ) (hx : x'.dispatched = true) :
    Admits sid x' (es ++ [.dispatched sid n]) where
  opened := List.mem_append_left _ h.opened
  headed _ := HeadAccepted.append (h.headed hh) _
  fresh he := by
    rw [hx] at he
    cases he
  each := each_snoc.mpr ⟨h.each, h.fresh hd, h.opened, h.headed hh⟩

theorem Decides.admits (hd : Decides sid x evs x') (h : Admits sid x es)
    (hh : x.headersDone = true) : Admits sid x' (es ++ evs) := by
  cases hd with
  | tunnel hw hd | streamed hw hr hd hl | buffered hw hr hd he hl => exact h.dispatch hh hd _ rfl
  | wait hd =>
    rw [List.append_nil]
    exact h

theorem block_noDispatch {es' : Bool} (h : Block sid es' evs) :
    ∀ e ∈ evs, e.isDispatch = false := by
  obtain ⟨m, hb, rfl⟩ := h
  intro e he
  obtain ⟨f, -, rfl⟩ := List.mem_map.mp he
  rfl

theorem Act.admits (ha : Act sid reg x evs x') (h : Admits sid x es) :
    Admits sid x' (es ++ evs) := by
  cases ha with
  | informational hr hb => exact h.quiet rfl rfl (block_noDispatch hb)
  | sendHead hr hh len hb =>
    exact h.quiet rfl rfl (List.forall_mem_cons.mpr ⟨rfl, block_noDispatch hb⟩)
  | write hp hh hd hc hq =>
    exact h.quiet rfl rfl
      (List.forall_mem_cons.mpr ⟨rfl, List.forall_mem_map.mpr fun _ _ => rfl⟩)
  | respond hr hh hd fields hb =>
    exact h.quiet rfl rfl (List.forall_mem_append.mpr
      ⟨List.forall_mem_cons.mpr ⟨rfl, block_noDispatch hb⟩, List.forall_mem_singleton.mpr rfl⟩)
  | wsAccept hw hr hn hb => exact h.quiet rfl rfl (block_noDispatch hb)
  | @head _ _ fields len hh hf isWs isHead es' streaming hs hd =>
    have h1 : Admits sid (x.headed len isWs isHead es' streaming)
        (es ++ [.head sid fields (x.headed len isWs isHead es' streaming).route]) :=
      { opened := List.mem_append_left _ h.opened
        headed := fun _ => ⟨fields, _, List.mem_append_right _ (List.mem_singleton_self _), hf.valid⟩
        fresh := fun hx n hm => by
          rcases List.mem_append.mp hm with hm | hm
          · exact h.fresh hx n hm
          · simp at hm
        each := each_snoc.mpr ⟨h.each, trivial⟩ }
    have h2 := hd.admits h1 rfl
    rw [List.append_assoc] at h2
    exact h2
  | trailers hh hn hd =>
    exact hd.admits (h.same rfl rfl) hh
  | bufferedEnd hh he hw hr hc hd data hl => exact h.dispatch hh hd _ rfl
  | bodyEnd hb => cases hb <;> exact h.quiet rfl rfl (by simp)
  | told hb hcb => cases hb <;> exact h.quiet rfl rfl (by simp [Event.isDispatch])
  | _ => exact h.quiet rfl rfl (by simp [Event.isDispatch])

theorem Finish.admits (hf : Finish x x') (h : Admits sid x es) : Admits sid x' es := by
  cases hf <;> exact h.same rfl rfl

theorem End.noDispatch (he : End sid x evs) : ∀ e ∈ evs, e.isDispatch = false := by
  cases he with
  | answer hr len hl hb => exact List.forall_mem_cons.mpr ⟨rfl, block_noDispatch hb⟩
  | finishTrailers hp hh hl hb hblk | trailers hw hl hb hblk => exact block_noDispatch hblk
  | _ => simp [Event.isDispatch]

/-- What holds along a run. -/
structure Enters (sid : ℕ) (s : State) (es : List Event) : Prop where
  idle : s.life = .idle → es = [] ∧ s.owed = []
  live : ∀ x, s.life = .live x → Admits sid x es
  each : Each (HandedOver sid) es

theorem fired_noDispatch {cb : Callback} :
    ∀ e ∈ [Event.fired cb].filter (fun e => e.stream? = some sid), e.isDispatch = false := by
  intro e hm
  rw [List.mem_singleton.mp (List.mem_of_mem_filter hm)]
  rfl

theorem each_quiet (h : Each (HandedOver sid) es) (hq : ∀ e ∈ evs, e.isDispatch = false) :
    Each (HandedOver sid) (es ++ evs) :=
  h.append_of (fun e he before => handedOver_of_quiet (hq e he) before)

theorem Run.enters {t : State} (h : Run reg false sid ⟨.idle, []⟩ es t) : Enters sid t es := by
  induction h with
  | refl => exact ⟨fun _ => ⟨rfl, rfl⟩, fun x h => (by cases h), each_nil⟩
  | skip _ ih => exact ⟨fun h => (by cases h), fun x h => (by cases h), ih.each⟩
  | opened _ ih =>
    rw [(ih.idle rfl).1]
    refine ⟨fun h => (by cases h), fun x h => ?_, each_snoc.mpr ⟨each_nil, trivial⟩⟩
    rw [← Life.live.inj h]
    exact ⟨by simp, fun h => (by cases h), by simp, each_snoc.mpr ⟨each_nil, trivial⟩⟩
  | act _ ha ih | finish _ ha ih =>
    have h' := ha.admits (ih.live _ rfl)
    refine ⟨fun h => (by cases h), fun y h => ?_, h'.each⟩
    rw [← Life.live.inj h]
    exact h'
  | ended _ ha ih =>
    exact ⟨fun h => (by cases h), fun x h => (by cases h), each_quiet ih.each
      (List.forall_mem_append.mpr ⟨ha.noDispatch, List.forall_mem_singleton.mpr rfl⟩)⟩
  | dropped _ hw ih =>
    exact ⟨fun h => (by cases h), fun x h => (by cases h),
      each_quiet ih.each (by simp [Event.isDispatch])⟩
  | @fired es l cb ds _ ih =>
    refine ⟨fun h => absurd (ih.idle h).2 (by simp), fun x h => ?_,
      each_quiet ih.each fired_noDispatch⟩
    exact (ih.live x h).quiet rfl rfl fired_noDispatch
  | forgotten _ hc ih | wsTaken _ hc ih => cases hc

end Exchange

/-! ### The connection -/

/-- What precedes the opening of a stream, and its ids when it is handed over. -/
def InOrder (before : List Event) : Event → Prop
  | .opened sid => OpenedByHeaders before sid
  | .dispatched sid _ => sid % 2 = 1 ∧ ∀ last ∈ goawayIds before, sid ≤ last
  | _ => True

/-- The ids on record are in order. -/
structure Conn.Orderly (c : Conn) : Prop where
  bound : c.lastStreamId < 2 ^ 31
  ids : ∀ f ∈ received c.journal, f.header.streamId < 2 ^ 31
  handled : ∀ frames f, received c.journal = frames ++ [f] →
    ∀ g ∈ frames, g.isHeaders → g.header.streamId ≤ c.lastStreamId
  notice : c.goingAway = false → ∀ last ∈ goawayIds c.journal, last = goawayMaxStreamId
  cutoff : c.goingAway = true → ∀ last ∈ goawayIds c.journal, c.goawayLastId ≤ last
  sorted : (goawayIds c.journal).Pairwise (fun a b => b ≤ a)
  stream : ∀ s, (c.stream? s).isSome = true → s % 2 = 1 ∧ s ≤ c.lastStreamId ∧
    (c.goingAway = true → s ≤ c.goawayLastId)
  ready : c.ready = dispatchedIds c.journal
  each : Each InOrder c.journal

/-- Events that say nothing about ids. -/
def Event.isIdle : Event → Bool
  | .received _ | .sent (.goaway _ _) | .opened _ | .dispatched _ _ => false
  | _ => true

/-- The record of ids, the journal apart. -/
structure IdView where
  lastStreamId : ℕ
  goingAway : Bool
  goawayLastId : ℕ
  ready : List ℕ

def Conn.idView (c : Conn) : IdView where
  lastStreamId := c.lastStreamId
  goingAway := c.goingAway
  goawayLastId := c.goawayLastId
  ready := c.ready

/-- A step that leaves the ids on record alone. -/
structure IdsStay (a b : Conn) : Prop where
  view : b.idView = a.idView
  stream : ∀ s, (b.stream? s).isSome = true → (a.stream? s).isSome = true
  journal : ∃ evs, b.journal = a.journal ++ evs ∧ ∀ e ∈ evs, e.isIdle = true

section Idle

variable {j evs : List Event}

theorem received_idle (h : ∀ e ∈ evs, e.isIdle = true) : received (j ++ evs) = received j := by
  have : received evs = [] := by
    refine List.filterMap_eq_nil_iff.mpr (fun e he => ?_)
    have := h e he
    cases e <;> first | rfl | cases this
  rw [received_append, this, List.append_nil]

theorem goawayIds_append (j k : List Event) : goawayIds (j ++ k) = goawayIds j ++ goawayIds k :=
  List.filterMap_append

theorem dispatchedIds_append (j k : List Event) :
    dispatchedIds (j ++ k) = dispatchedIds j ++ dispatchedIds k := List.filterMap_append

theorem goawayIds_idle (h : ∀ e ∈ evs, e.isIdle = true) : goawayIds (j ++ evs) = goawayIds j := by
  have : goawayIds evs = [] := by
    refine List.filterMap_eq_nil_iff.mpr (fun e he => ?_)
    have := h e he
    cases e with
    | sent f => cases f <;> first | rfl | cases this
    | _ => rfl
  rw [goawayIds_append, this, List.append_nil]

theorem dispatchedIds_idle (h : ∀ e ∈ evs, e.isIdle = true) :
    dispatchedIds (j ++ evs) = dispatchedIds j := by
  have : dispatchedIds evs = [] := by
    refine List.filterMap_eq_nil_iff.mpr (fun e he => ?_)
    have := h e he
    cases e <;> first | rfl | cases this
  rw [dispatchedIds_append, this, List.append_nil]

theorem inOrder_idle {e : Event} (h : e.isIdle = true) (before : List Event) :
    InOrder before e := by
  cases e <;> trivial

end Idle

section Orderly

variable {a b c : Conn} {sid : ℕ}

theorem IdsStay.of_streams (hv : b.idView = a.idView) (hs : b.streams = a.streams)
    {evs : List Event} (hj : b.journal = a.journal ++ evs) (he : ∀ e ∈ evs, e.isIdle = true) :
    IdsStay a b :=
  ⟨hv, fun s h => by rwa [Conn.stream?, hs] at h, evs, hj, he⟩

theorem IdsStay.of_snoc {e : Event} (hv : b.idView = a.idView) (hs : b.streams = a.streams)
    (hj : b.journal = a.journal ++ [e]) (he : e.isIdle = true) : IdsStay a b :=
  .of_streams hv hs hj (fun _ hm => List.mem_singleton.mp hm ▸ he)

theorem IdsStay.of_same (hv : b.idView = a.idView) (hs : b.streams = a.streams)
    (hj : b.journal = a.journal) : IdsStay a b :=
  .of_streams hv hs (hj.trans (List.append_nil _).symm) (fun _ hm => by cases hm)

theorem Conn.Orderly.stay (h : a.Orderly) (hs : IdsStay a b) : b.Orderly := by
  obtain ⟨evs, hj, he⟩ := hs.journal
  have hv := hs.view
  simp only [Conn.idView, IdView.mk.injEq] at hv
  obtain ⟨hlast, hgoing, hcut, hready⟩ := hv
  refine ⟨?_, ?_, ?_, ?_, ?_, ?_, fun s hst => ?_, ?_, ?_⟩
  · rw [hlast]
    exact h.bound
  · rw [hj, received_idle he]
    exact h.ids
  · rw [hj, received_idle he, hlast]
    exact h.handled
  · rw [hj, goawayIds_idle he, hgoing]
    exact h.notice
  · rw [hj, goawayIds_idle he, hgoing, hcut]
    exact h.cutoff
  · rw [hj, goawayIds_idle he]
    exact h.sorted
  · rw [hlast, hgoing, hcut]
    exact h.stream s (hs.stream s hst)
  · rw [hj, dispatchedIds_idle he, hready]
    exact h.ready
  · rw [hj]
    exact h.each.append_of (fun e hm => inOrder_idle (he e hm))

theorem Conn.Orderly.goaway {err : ErrCode} (h : a.Orderly) (hlast : b.lastStreamId = a.lastStreamId)
    (hgoing : b.goingAway = true) (hcut : b.goawayLastId = a.goawayLast) (hready : b.ready = a.ready)
    (hs : b.streams = a.streams)
    (hj : b.journal = a.journal ++ [.sent (.goaway a.goawayLast err)]) : b.Orderly := by
  have hle : ∀ last ∈ goawayIds a.journal, a.goawayLast ≤ last := by
    intro last hm
    unfold Conn.goawayLast
    split_ifs with hg
    · exact h.cutoff hg last hm
    · rw [h.notice (by simpa using hg) last hm]
      have := h.bound
      unfold goawayMaxStreamId
      omega
  have hids : goawayIds b.journal = goawayIds a.journal ++ [a.goawayLast] := by
    rw [hj, goawayIds_append]
    rfl
  have hrecv : received b.journal = received a.journal := by
    rw [hj, received_append]
    exact List.append_nil _
  refine ⟨hlast ▸ h.bound, hrecv ▸ h.ids, ?_, fun hg => ?_, fun _ last hm => ?_, ?_,
    fun s hst => ?_, ?_, ?_⟩
  · rw [hrecv, hlast]
    exact h.handled
  · rw [hgoing] at hg
    cases hg
  · rw [hcut]
    rw [hids] at hm
    rcases List.mem_append.mp hm with hm | hm
    · exact hle last hm
    · rw [List.mem_singleton.mp hm]
  · rw [hids]
    refine List.pairwise_append.mpr ⟨h.sorted, List.pairwise_singleton _ _, fun x hx y hy => ?_⟩
    rw [List.mem_singleton.mp hy]
    exact hle x hx
  · rw [Conn.stream?, hs] at hst
    obtain ⟨hodd, hl, hg⟩ := h.stream s hst
    refine ⟨hodd, hlast ▸ hl, fun _ => ?_⟩
    rw [hcut]
    unfold Conn.goawayLast
    split_ifs with hgo
    · exact hg hgo
    · exact hl
  · rw [hj, dispatchedIds_append, hready, h.ready]
    exact (List.append_nil _).symm
  · rw [hj]
    exact each_snoc.mpr ⟨h.each, trivial⟩

theorem Conn.Orderly.connError (h : c.Orderly) (err : ErrCode) : (c.connError err).Orderly := by
  have hl := ledger_connError c err
  exact h.goaway (congrArg Ledger.lastStreamId hl) (congrArg Ledger.goingAway hl)
    (congrArg Ledger.goawayLastId hl) (congrArg Ledger.ready hl) (Conn.streams_connError c err)
    (congrArg Ledger.journal hl)

theorem Conn.Orderly.notice_sent (h : c.Orderly) (hgoing : c.goingAway = false) : Conn.Orderly
    (Conn.send { c with drainNoticeSent := true } (.goaway goawayMaxStreamId .errNoError)) := by
  have hrecv : received (c.journal ++ [.sent (.goaway goawayMaxStreamId .errNoError)]) =
      received c.journal := by
    rw [received_append]
    exact List.append_nil _
  have hids : goawayIds (c.journal ++ [.sent (.goaway goawayMaxStreamId .errNoError)]) =
      goawayIds c.journal ++ [goawayMaxStreamId] := by
    rw [goawayIds_append]
    rfl
  refine ⟨h.bound, hrecv ▸ h.ids, hrecv ▸ h.handled, fun _ last hm => ?_, fun hg => ?_,
    ?_, h.stream, ?_, each_snoc.mpr ⟨h.each, trivial⟩⟩
  · rcases List.mem_append.mp (hids ▸ hm) with hm | hm
    · exact h.notice hgoing last hm
    · exact List.mem_singleton.mp hm
  · rw [show c.goingAway = true from hg] at hgoing
    cases hgoing
  · refine hids.symm ▸ List.pairwise_append.mpr
      ⟨h.sorted, List.pairwise_singleton _ _, fun x hx y hy => ?_⟩
    rw [List.mem_singleton.mp hy, h.notice hgoing x hx]
  · change c.ready = dispatchedIds (c.journal ++ _)
    rw [dispatchedIds_append, h.ready]
    exact (List.append_nil _).symm

theorem Conn.Orderly.h2Goaway (h : c.Orderly) (hg : c.goingAway = false) (err : ErrCode) :
    Conn.Orderly (Conn.send { c with goingAway := true, goawayLastId := c.lastStreamId }
      (.goaway c.lastStreamId err)) := by
  have hlast : c.goawayLast = c.lastStreamId := by
    unfold Conn.goawayLast
    rw [hg]
    rfl
  exact h.goaway rfl rfl hlast.symm rfl rfl (by rw [hlast]; rfl)

theorem Conn.Orderly.announces (h : c.Orderly) (hn : c.Announces sid) :
    sid < 2 ^ 31 ∧ ∃ frames f, received c.journal = frames ++ [f] ∧ f.isHeaders ∧
      f.header.streamId = sid := by
  obtain ⟨f, hl, ht, rfl⟩ := hn
  have hj := List.dropLast_append_getLast? f hl
  refine ⟨h.ids f ?_, (received c.journal).dropLast, f, hj.symm, ht, rfl⟩
  exact List.mem_of_getLast? hl

theorem Conn.Orderly.refuse (h : c.Orderly) (hlt : c.lastStreamId < sid) (hn : c.Announces sid) :
    Conn.Orderly { c with lastStreamId := sid } where
  bound := (h.announces hn).1
  ids := h.ids
  handled frames f hj g hg hh := (h.handled frames f hj g hg hh).trans hlt.le
  notice := h.notice
  cutoff := h.cutoff
  sorted := h.sorted
  stream s hs := by
    obtain ⟨hodd, hl, hg⟩ := h.stream s hs
    exact ⟨hodd, hl.trans hlt.le, hg⟩
  ready := h.ready
  each := h.each

theorem Conn.Orderly.openNew (h : c.Orderly) (hlt : c.lastStreamId < sid) (hodd : sid % 2 = 1)
    (hg : c.goingAway = false) (hn : c.Announces sid) :
    (Conn.openStream { c with lastStreamId := sid } sid).Orderly := by
  obtain ⟨hbound, frames, f, hj, hh, hid⟩ := h.announces hn
  have hstream := @stream_openStream { c with lastStreamId := sid } sid
  obtain ⟨u, i, p, e⟩ := openStream_eq { c with lastStreamId := sid } sid
  rw [e] at hstream ⊢
  have hrecv : received (c.journal ++ [.opened sid]) = received c.journal := by
    rw [received_append]
    exact List.append_nil _
  have hids : goawayIds (c.journal ++ [.opened sid]) = goawayIds c.journal := by
    rw [goawayIds_append]
    exact List.append_nil _
  refine ⟨hbound, ?_, ?_, ?_, ?_, ?_, fun s hs => ?_, ?_, ?_⟩
  · rw [hrecv]
    exact h.ids
  · rw [hrecv]
    exact fun frames f hj g hg hh => (h.handled frames f hj g hg hh).trans hlt.le
  · rw [hids]
    exact h.notice
  · rw [hids]
    exact h.cutoff
  · rw [hids]
    exact h.sorted
  · dsimp only
    rw [hg]
    obtain ⟨st, hst⟩ := Option.isSome_iff_exists.mp hs
    rcases hstream hst with ⟨rfl, -⟩ | ⟨-, hst⟩
    · exact ⟨hodd, le_refl _, fun h => by cases h⟩
    · obtain ⟨hodd', hl, -⟩ := h.stream s (Option.isSome_of_eq_some hst)
      exact ⟨hodd', hl.trans hlt.le, fun h => by cases h⟩
  · rw [dispatchedIds_append, show c.ready = _ from h.ready]
    exact (List.append_nil _).symm
  · refine each_snoc.mpr ⟨h.each, frames, f, hj, hh, hid, fun g hg hg' => ?_⟩
    exact (h.handled frames f hj g hg hg').trans_lt hlt

theorem Conn.Orderly.dispatch {st : Stream} (h : c.Orderly) (hs : c.stream? sid = some st)
    (n : ℕ) : Conn.Orderly { c.note (.dispatched sid n) with ready := c.ready ++ [sid] } := by
  obtain ⟨hodd, hl, hg⟩ := h.stream sid (Option.isSome_of_eq_some hs)
  have hrecv : received (c.journal ++ [.dispatched sid n]) = received c.journal := by
    rw [received_append]
    exact List.append_nil _
  have hids : goawayIds (c.journal ++ [.dispatched sid n]) = goawayIds c.journal := by
    rw [goawayIds_append]
    exact List.append_nil _
  refine ⟨h.bound, hrecv ▸ h.ids, hrecv ▸ h.handled, hids ▸ h.notice, hids ▸ h.cutoff,
    hids ▸ h.sorted, h.stream, ?_, each_snoc.mpr ⟨h.each, hodd, fun last hm => ?_⟩⟩
  · change c.ready ++ [sid] = dispatchedIds (c.journal ++ [.dispatched sid n])
    rw [dispatchedIds_append, h.ready]
    rfl
  · cases hgo : c.goingAway with
    | true => exact (hg hgo).trans (h.cutoff hgo last hm)
    | false =>
      rw [h.notice hgo last hm]
      have := h.bound
      unfold goawayMaxStreamId
      omega

theorem Conn.Orderly.arrived (h : c.Orderly) {f : InFrame} (rest : Bytes) (hc : c.closing = false)
    (hid : f.header.streamId < 2 ^ 31) (hup : c.CaughtUp) : (c.arrived f rest).Orderly := by
  have hrecv : received (c.arrived f rest).journal = received c.journal ++ [f] := by
    change received (c.journal ++ [.received f]) = _
    rw [received_append]
    rfl
  have hids : goawayIds (c.arrived f rest).journal = goawayIds c.journal := by
    change goawayIds (c.journal ++ [.received f]) = _
    rw [goawayIds_append]
    exact List.append_nil _
  refine ⟨h.bound, fun g hg => ?_, fun frames g hj k hk hh => ?_, hids ▸ h.notice, hids ▸ h.cutoff,
    hids ▸ h.sorted, h.stream, ?_, each_snoc.mpr ⟨h.each, trivial⟩⟩
  · rw [hrecv] at hg
    rcases List.mem_append.mp hg with hg | hg
    · exact h.ids g hg
    · rw [List.mem_singleton.mp hg]
      exact hid
  · rw [hrecv] at hj
    obtain ⟨rfl, -⟩ := List.append_inj' hj rfl
    exact hup hc k hk hh
  · change c.ready = dispatchedIds (c.journal ++ [.received f])
    rw [dispatchedIds_append, h.ready]
    exact (List.append_nil _).symm

theorem IdsStay.sendData (c : Conn) (sid : ℕ) (chunks : List Bytes) (last : Bool) :
    IdsStay c (c.sendData sid chunks last) where
  view := rfl
  stream s h := by
    rw [← Conn.isSome_stream_modify c sid s (fun st => { st with
      sendWindow := int32 (st.sendWindow - burstSize chunks) })]
    exact h
  journal := by
    refine ⟨_, rfl, fun e he => ?_⟩
    obtain ⟨f, hf, rfl⟩ := List.mem_map.mp he
    obtain ⟨x, -, rfl⟩ := List.mem_map.mp hf
    rfl

theorem IdsStay.emitBlock (c : Conn) (sid : ℕ) (fields : Bytes) (es : Bool) :
    IdsStay c (c.emitBlock sid fields es) := by
  refine .of_streams rfl rfl rfl ?_
  exact Block.forall ⟨_, _, rfl⟩ (fun _ _ => rfl) (fun _ _ => rfl)

theorem isIdle_of_isFree {e : Event} (h : e.isFree = true) : e.isIdle = true := by
  cases e with
  | sent f => cases f <;> first | rfl | cases h
  | _ => first | rfl | cases h

theorem IdsStay.of_ledger (hl : b.ledger = a.ledger)
    (hs : ∀ s st', b.stream? s = some st' → (a.stream? s).isSome = true) : IdsStay a b where
  view := by
    simp only [Conn.idView, IdView.mk.injEq]
    exact ⟨congrArg Ledger.lastStreamId hl, congrArg Ledger.goingAway hl,
      congrArg Ledger.goawayLastId hl, congrArg Ledger.ready hl⟩
  stream s h := by
    obtain ⟨st', hst'⟩ := Option.isSome_iff_exists.mp h
    exact hs s st' hst'
  journal := by
    refine ⟨[], ?_, fun e he => by cases he⟩
    rw [List.append_nil]
    exact congrArg Ledger.journal hl

theorem Conn.Orderly.posting (h : Posting a b) (ha : a.Orderly) : b.Orderly := by
  have herror : ∀ (c : Conn) err, c.Orderly → (c.connError err).Orderly :=
    fun _ err h => h.connError err
  cases h with
  | basic h =>
    cases h with
    | note he => exact ha.stay (.of_snoc rfl rfl rfl (isIdle_of_isFree he))
    | block sid fields es => exact ha.stay (.emitBlock a sid fields es)
    | charge n => exact noteControlFrame_kept herror (ha.stay (.of_snoc rfl rfl rfl rfl))
    | error err => exact ha.connError err
    | countReset => exact countReset_kept herror (ha.stay (.of_same rfl rfl rfl))
    | openNew h hodd hg hn => exact ha.openNew h hodd hg hn
    | refuse h hn => exact ha.refuse h hn
    | streamCredit hs inc h =>
      refine ha.stay ⟨rfl, fun s h => ?_, _, rfl, fun e he => List.mem_singleton.mp he ▸ rfl⟩
      rwa [Conn.isSome_stream_modify] at h
    | tableSize value =>
      unfold Conn.applyTableSize
      dsimp only
      split_ifs <;> exact ha.stay (.of_snoc rfl rfl rfl rfl)
    | bareEnd | spend | connCredit | maxFrame =>
      exact ha.stay (.of_snoc rfl rfl rfl rfl)
  | other hl hs =>
    refine ha.stay (.of_ledger hl (fun s st' h => ?_))
    obtain ⟨st, hst, -⟩ := hs s st' h
    exact Option.isSome_of_eq_some hst
  | burst last h => exact (ha.stay (.sendData a _ _ last)).stay (.of_same rfl rfl rfl)
  | goawayNotice hg => exact ha.notice_sent hg
  | goaway hg err => exact ha.h2Goaway hg err
  | dispatch hs => exact ha.dispatch hs _
  | setInitial => exact ha.stay (.of_snoc rfl rfl rfl rfl)

end Orderly

variable {W : World} {cfg : Config} {n : ℕ} {c : Conn}

theorem Reachable.orderly {ok : Call → Conn → Prop} (hW : W.Obeys ok)
    (h : Reachable (W.hooks n) ok cfg c) : c.Orderly := by
  refine h.accounts hW ?_ (fun _ _ he _ => he.kept fun _ _ => .posting) (fun c f rest hc hid hup ha =>
    ha.arrived rest hc hid hup)
  refine ⟨Nat.two_pow_pos 31, fun f hf => (by cases hf), fun frames f hj => ?_,
    fun _ last hm => (by cases hm), fun _ last hm => (by cases hm), List.Pairwise.nil,
    fun s hs => (by cases hs), rfl, each_nil⟩
  exact absurd hj (by simp [received, newH2Conn])

/-! ### Whole runs -/

theorem mem_dispatchedIds {j : List Event} {sid : ℕ} :
    sid ∈ dispatchedIds j ↔ ∃ n, .dispatched sid n ∈ j := by
  constructor
  · intro h
    obtain ⟨e, he, hs⟩ := List.mem_filterMap.mp h
    cases e with
    | dispatched s n =>
      obtain rfl : s = sid := Option.some.inj hs
      exact ⟨n, he⟩
    | _ => cases hs
  · rintro ⟨n, h⟩
    exact List.mem_filterMap.mpr ⟨_, h, rfl⟩

theorem Reachable.admitted (h : Reachable (W.hooks n) anyCall cfg c) : Each Admitted c.journal := by
  have ho := h.orderly (obeys_anyCall W)
  obtain ⟨-, hrun⟩ := h.exchange_run (obeys_anyCall W) (permits_anyReg anyCall)
  intro before e after hj
  cases e with
  | dispatched sid k =>
    obtain ⟨hodd, hlast⟩ := ho.each before _ after hj
    obtain ⟨hfresh, hopen, hhead⟩ := (hrun sid).enters.each.of_filter hj
      (by simp [Event.stream?])
    refine ⟨fun hm => ?_, hodd, ?_, ?_, hlast⟩
    · obtain ⟨m, hm⟩ := mem_dispatchedIds.mp hm
      exact hfresh m (List.mem_filter.mpr ⟨hm, by simp [Event.stream?]⟩)
    · obtain ⟨fields, route, hm, hv⟩ := hhead
      exact ⟨fields, route, List.mem_of_mem_filter hm, hv⟩
    · obtain ⟨start, rest, rfl⟩ := List.append_of_mem (List.mem_of_mem_filter hopen)
      exact ⟨start, rest, rfl, ho.each start _ _ (hj.trans (List.append_assoc _ _ _))⟩
  | _ => trivial

theorem dispatchedIds_nodup {j : List Event} (h : Each Admitted j) : (dispatchedIds j).Nodup := by
  induction j using List.reverseRecOn with
  | nil => exact List.nodup_nil
  | append_singleton j e ih =>
    obtain ⟨hj, he⟩ := each_snoc.mp h
    rw [dispatchedIds_append]
    refine List.nodup_append.mpr ⟨ih hj, ?_, fun s hs t ht => ?_⟩
    · cases e <;> first | exact List.nodup_nil | exact List.nodup_singleton _
    · cases e with
      | dispatched s' n =>
        obtain rfl : t = s' := List.mem_singleton.mp ht
        exact fun h => he.1 (h ▸ hs)
      | _ => cases ht

/-- **Admission of requests.**  In every reachable state, `ready` holds the streams handed over, in
their order and none twice.  A stream was handed over with an odd id, opened by a HEADERS frame
whose id was above that of every HEADERS frame before it, after its head was accepted, and with an
id no higher than any announced in a GOAWAY frame before.  The ids announced in GOAWAY frames never
rise. -/
theorem requests_are_admitted_in_order (h : Reachable (W.hooks n) anyCall cfg c) :
    c.ready = dispatchedIds c.journal ∧ c.ready.Nodup ∧ Each Admitted c.journal ∧
      (goawayIds c.journal).Pairwise (fun a b => b ≤ a) := by
  have ho := h.orderly (obeys_anyCall W)
  have ha := h.admitted
  exact ⟨ho.ready, ho.ready ▸ dispatchedIds_nodup ha, ha, ho.sorted⟩

/-- A request, a drain notice, a second request, the cutoff, a request that comes too late, and a
connection error. -/
def drainedRun : List Input :=
  feedInputs [.headers 1 postBlock true true] ++ [.call .goawayNotice] ++
    [.bytes (Frame.headers 3 postBlock true true).bytes, .feed, .call (.goaway .errNoError),
      .bytes (Frame.headers 5 postBlock true true).bytes, .feed,
      .bytes (Frame.windowUpdate 0 0).bytes, .feed]

theorem requests_are_admitted_in_order_drainedRun : let c := runOn false drainedRun
    (c.ready = [1, 3] ∧ goawayIds c.journal = [goawayMaxStreamId, 3, 3]) ∧
      c.ready = dispatchedIds c.journal ∧ c.ready.Nodup ∧ Each Admitted c.journal ∧
      (goawayIds c.journal).Pairwise (fun a b => b ≤ a) :=
  ⟨by decide +kernel, requests_are_admitted_in_order
    (runOn_reachable false drainedRun (fun _ _ _ => trivial))⟩

end Vortex.Http2
