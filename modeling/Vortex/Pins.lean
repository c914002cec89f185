import Vortex.Dispatch

/-! # The pins of the carriers

`State.pledged` lists the pins of the tasks that run and of the messages that have not been applied,
those that a raise has lost included.  `Pinned q L s` relates a list of such pins to the counters of
the carriers.  The counters are never below the list; on the carriers of `q` they are exactly the
list, and every pin of the list is one of the occupant that is there now.

`closeConn` refuses new pins before it runs the callbacks of a teardown, but `h3FreeSlot` does not,
and `Op.Quiet` says what the callbacks of an HTTP/3 teardown have to leave alone.  A task has to
answer through the handle it was given (`Task.Releases`): another handle of the request releases
nothing, and the pin is left behind (`Task.leaves`). -/

namespace Vortex.Dispatch

/-! ### Pins held and counters -/

/-- The pins of the tasks that run and of the messages that have not been applied.  Without a pool
no task takes a pin. -/
def State.pledged (pool : Bool) (s : State) : List Hold :=
  if pool then
    s.running.filterMap Task.hold ++
      (s.outbox ++ s.abandoned ++ s.halfApplied).filterMap OutMsg.hold
  else []

structure Pinned (q : Endpoint → Prop) (L : List Hold) (s : State) : Prop where
  noFault : s.faulted = false
  covered : ∀ e k, L.count ⟨e, (s.carriers e).gen, k⟩ ≤ (s.carriers e).pins k
  past : ∀ h ∈ L, h.gen ≤ (s.carriers h.dest).gen
  idle : ∀ fd, (s.carriers (.conn fd)).live = false → (s.carriers (.conn fd)).pins.total = 0
  exact : ∀ e, q e → ∀ k, (s.carriers e).pins k = L.count ⟨e, (s.carriers e).gen, k⟩
  held : ∀ h ∈ L, q h.dest →
    (s.carriers h.dest).gen = h.gen ∧ (s.carriers h.dest).live = true

/-- The counters agree with the pins that are held and those of `B`. -/
def Agrees (pool : Bool) (q : Endpoint → Prop) (B : List Hold) (s : State) : Prop :=
  Pinned q (B ++ s.pledged pool) s

variable {e : Endpoint} {x : Hold} {fd : ℕ} {rel : RelKind} {m : OutMsg} {t : Turn} {s : State}
  {h : Handle} {l : Latch} {b : Body} {pool : Bool} {file : OutMsgKind}

section

variable {q : Endpoint → Prop} {L L' : List Hold} {s s' : State}

theorem Pinned.perm (h : Pinned q L s) (hp : L.Perm L') : Pinned q L' s where
  noFault := h.noFault
  covered e k := by
    rw [← hp.count_eq]
    exact h.covered e k
  past x hx := h.past x (hp.mem_iff.mpr hx)
  idle := h.idle
  exact e he k := by
    rw [← hp.count_eq]
    exact h.exact e he k
  held x hx := h.held x (hp.mem_iff.mpr hx)

theorem Pinned.congr (h : Pinned q L s) (hc : s'.carriers = s.carriers)
    (hf : s'.faulted = s.faulted) : Pinned q L s' where
  noFault := hf.trans h.noFault
  covered := hc ▸ h.covered
  past := hc ▸ h.past
  idle := hc ▸ h.idle
  exact := hc ▸ h.exact
  held := hc ▸ h.held

@[simp]
theorem State.carriers_modify_self (e : Endpoint) (f : Carrier → Carrier) (s : State) :
    (s.modify e f).carriers e = f (s.carriers e) := by
  simp [State.modify]

theorem State.carriers_modify_ne {e' : Endpoint} (h : e' ≠ e) (f : Carrier → Carrier) (s : State) :
    (s.modify e f).carriers e' = s.carriers e' := by
  simp [State.modify, h]

theorem pins_modify (e e' : Endpoint) (f : Carrier → Carrier) (s : State)
    (h : ∀ c, (f c).pins = c.pins) : ((s.modify e f).carriers e').pins = (s.carriers e').pins := by
  by_cases he : e' = e
  · subst he
    rw [State.carriers_modify_self, h]
  · rw [State.carriers_modify_ne he]

theorem pins_freeConn (e e' : Endpoint) (s : State) :
    ((freeConn e s).carriers e').pins = (s.carriers e').pins := by
  unfold freeConn
  split_ifs
  · exact pins_modify _ _ _ _ fun _ => rfl
  · rfl

theorem Pinned.adjust (h : Pinned q L s) (hf : s'.faulted = s.faulted)
    (hg : ∀ e, (s'.carriers e).gen = (s.carriers e).gen)
    (hl : ∀ e, (s.carriers e).live = true → (s'.carriers e).live = true)
    (hp : ∀ e k, (s'.carriers e).pins k + L.count ⟨e, (s.carriers e).gen, k⟩ =
      (s.carriers e).pins k + L'.count ⟨e, (s.carriers e).gen, k⟩)
    (hm : ∀ y ∈ L', y ∈ L ∨ (s.carriers y.dest).gen = y.gen ∧ (s.carriers y.dest).live = true) :
    Pinned q L' s' where
  noFault := hf.trans h.noFault
  covered e k := by
    have h1 := h.covered e k
    have h2 := hp e k
    rw [hg]
    omega
  past y hy := by
    rw [hg]
    exact (hm y hy).elim (h.past y) fun h' => h'.1.ge
  idle fd hfd := by
    have hfd' : (s.carriers (.conn fd)).live = false := by
      by_contra hne
      rw [hl _ (by simpa using hne)] at hfd
      cases hfd
    refine PinSet.total_eq_zero.mpr fun k => ?_
    have h1 := PinSet.total_eq_zero.mp (h.idle fd hfd') k
    have h2 := h.covered (.conn fd) k
    have h3 := hp (.conn fd) k
    have h4 : L'.count ⟨.conn fd, (s.carriers (.conn fd)).gen, k⟩ = 0 := by
      refine List.count_eq_zero_of_not_mem fun hy => ?_
      rcases hm _ hy with hy | hy
      · have := List.count_pos_iff.mpr hy
        omega
      · rw [hfd'] at hy
        cases hy.2
    omega
  exact e he k := by
    have h1 := h.exact e he k
    have h2 := hp e k
    rw [hg]
    omega
  held y hy hq := by
    rw [hg]
    rcases hm y hy with hy | hy
    · exact ⟨(h.held y hy hq).1, hl _ (h.held y hy hq).2⟩
    · exact ⟨hy.1, hl _ hy.2⟩

theorem Pinned.modify (h : Pinned q L s) {f : Carrier → Carrier}
    (hgen : (f (s.carriers e)).gen = (s.carriers e).gen)
    (hlive : (s.carriers e).live = true → (f (s.carriers e)).live = true)
    (hpins : (f (s.carriers e)).pins = (s.carriers e).pins) : Pinned q L (s.modify e f) := by
  have hc : ∀ e', ((s.modify e f).carriers e').gen = (s.carriers e').gen ∧
      ((s.carriers e').live = true → ((s.modify e f).carriers e').live = true) ∧
      ((s.modify e f).carriers e').pins = (s.carriers e').pins := by
    intro e'
    by_cases he : e' = e
    · subst he
      rw [State.carriers_modify_self]
      exact ⟨hgen, hlive, hpins⟩
    · rw [State.carriers_modify_ne he]
      exact ⟨rfl, id, rfl⟩
  exact h.adjust rfl (fun e => (hc e).1) (fun e => (hc e).2.1) (fun e k => by rw [(hc e).2.2])
    fun _ => .inl

theorem pins_withPin (hgen : (s.carriers x.dest).gen = x.gen) (n : ℕ) (e : Endpoint) (k : PinKind) :
    let s' := s.modify x.dest fun c => { c with pins := Function.update c.pins x.kind n }
    (s'.carriers e).gen = (s.carriers e).gen ∧ (s'.carriers e).live = (s.carriers e).live ∧
      (s'.carriers e).pins k =
        if (⟨e, (s.carriers e).gen, k⟩ : Hold) = x then n else (s.carriers e).pins k := by
  obtain ⟨d, g, κ⟩ := x
  by_cases he : e = d
  · subst he
    simp_all [Function.update_apply]
  · simp [State.carriers_modify_ne he, he]

theorem Pinned.acquirePin (h : Pinned q L s) (hgen : (s.carriers x.dest).gen = x.gen)
    (hlive : (s.carriers x.dest).live = true) : Pinned q (x :: L) (s.acquirePin x.dest x.kind) := by
  have hc := pins_withPin hgen ((s.carriers x.dest).pins x.kind + 1)
  refine h.adjust rfl (fun e => (hc e .blocking).1) (fun e => (hc e .blocking).2.1.trans)
    (fun e k => ?_) fun y hy => ?_
  · refine (congrArg (· + _) (hc e k).2.2).trans ?_
    by_cases hx : (⟨e, (s.carriers e).gen, k⟩ : Hold) = x
    · subst hx
      simp only [if_true, List.count_cons_self]
      omega
    · rw [if_neg hx, List.count_cons_of_ne (Ne.symm hx)]
  · rcases List.mem_cons.mp hy with rfl | hy
    · exact .inr ⟨hgen, hlive⟩
    · exact .inl hy

theorem Pinned.releasePin (h : Pinned q (x :: L) s) (hgen : (s.carriers x.dest).gen = x.gen) :
    Pinned q L (s.releasePin x.dest x.kind) := by
  have hpos : 0 < (s.carriers x.dest).pins x.kind := by
    have := h.covered x.dest x.kind
    rw [hgen, List.count_cons_self] at this
    omega
  have hc := pins_withPin hgen ((s.carriers x.dest).pins x.kind - 1)
  simp only [State.releasePin, if_pos hpos]
  refine h.adjust rfl (fun e => (hc e .blocking).1) (fun e => (hc e .blocking).2.1.trans)
    (fun e k => ?_) fun y hy => .inl (List.mem_cons_of_mem _ hy)
  refine (congrArg (· + _) (hc e k).2.2).trans ?_
  by_cases hx : (⟨e, (s.carriers e).gen, k⟩ : Hold) = x
  · subst hx
    simp only [if_true, List.count_cons_self] at hpos ⊢
    omega
  · rw [if_neg hx, List.count_cons_of_ne (Ne.symm hx)]

theorem Pinned.notMem_of_total (h : Pinned q L s) (he : q e) (hz : (s.carriers e).pins.total = 0)
    (hx : x ∈ L) : x.dest ≠ e := by
  rintro rfl
  have hcount := h.exact x.dest he x.kind
  rw [PinSet.total_eq_zero.mp hz, (h.held x hx he).1] at hcount
  exact List.count_pos_iff.mpr hx |>.ne hcount

theorem Pinned.drop (h : Pinned q (x :: L) s) (hx : ¬ q x.dest) : Pinned q L s where
  noFault := h.noFault
  covered e k := (List.count_le_count_cons).trans (h.covered e k)
  past y hy := h.past y (List.mem_cons_of_mem _ hy)
  idle := h.idle
  exact e he k := by
    rw [h.exact e he k, List.count_cons_of_ne]
    rintro rfl
    exact hx he
  held y hy := h.held y (List.mem_cons_of_mem _ hy)

theorem Pinned.free (h : Pinned q L s) (hz : e.isConn = true ∨ q e → (s.carriers e).pins.total = 0)
    : Pinned q L (s.modify e Carrier.free) := by
  have hle : ∀ e', (s.carriers e').gen ≤ ((s.modify e Carrier.free).carriers e').gen := by
    intro e'
    by_cases he : e' = e
    · subst he
      simp [Carrier.free]
    · rw [State.carriers_modify_ne he]
  refine ⟨h.noFault, fun e' k => ?_, fun x hx => (h.past x hx).trans (hle _), fun fd hfd => ?_,
    fun e' he' k => ?_, fun x hx hq => ?_⟩
  · by_cases he : e' = e
    · subst he
      have hnone : (⟨e', (s.carriers e').gen + 1, k⟩ : Hold) ∉ L := by
        intro hm
        have hle' : (s.carriers e').gen + 1 ≤ (s.carriers e').gen := h.past _ hm
        omega
      simp [Carrier.free, List.count_eq_zero_of_not_mem hnone]
    · rw [State.carriers_modify_ne he]
      exact h.covered e' k
  · by_cases he : Endpoint.conn fd = e
    · subst he
      simpa [Carrier.free] using hz (.inl rfl)
    · rw [State.carriers_modify_ne he] at hfd ⊢
      exact h.idle fd hfd
  · by_cases he : e' = e
    · subst he
      have hz' := hz (.inr he')
      have hnone : ∀ g, (⟨e', g, k⟩ : Hold) ∉ L := fun g hm =>
        h.notMem_of_total he' hz' hm rfl
      simp [Carrier.free, List.count_eq_zero_of_not_mem (hnone _), PinSet.total_eq_zero.mp hz' k]
    · rw [State.carriers_modify_ne he]
      exact h.exact e' he' k
  · have hne : x.dest ≠ e := by
      rintro rfl
      exact h.notMem_of_total hq (hz (.inr hq)) hx rfl
    rw [State.carriers_modify_ne hne]
    exact h.held x hx hq

end

/-! ### Dispatching -/

theorem State.modify_modify (e : Endpoint) (f g : Carrier → Carrier) (s : State) :
    (s.modify e f).modify e g = s.modify e (g ∘ f) := by
  simp [State.modify]

theorem State.modify_of_eq {f : Carrier → Carrier} (h : f (s.carriers e) = s.carriers e) :
    s.modify e f = s := by
  simp [State.modify, h]

theorem State.releasePin_acquirePin (e : Endpoint) (k : PinKind) (s : State) :
    (s.acquirePin e k).releasePin e k = s := by
  have hpos : 0 < ((s.acquirePin e k).carriers e).pins k := by
    simp [State.acquirePin, PinSet.inc]
  simp only [State.releasePin, if_pos hpos]
  simp only [State.acquirePin, State.modify_modify]
  exact State.modify_of_eq (by simp [PinSet.dec_inc])

theorem acquireDispatchPin_eq_some {k : PinKind} {s1 : State} (hm : minted h s = true)
    (hs : acquireDispatchPin h k s = some s1) :
    s1 = s.acquirePin h.dest k ∧ (s.carriers h.dest).gen = h.gen ∧
      (s.carriers h.dest).live = true ∧
      (h.dest.isConn = true → (s.carriers h.dest).closing = false) := by
  cases hd : h.dest with
  | slot idx =>
    simp only [acquireDispatchPin, hd, Option.ite_none_right_eq_some, beq_iff_eq,
      Option.some.injEq] at hs
    refine ⟨hs.2.symm, hs.1, ?_, nofun⟩
    simp only [minted, hd, hs.1, lt_irrefl, decide_false, beq_self_eq_true, Bool.true_and,
      Bool.false_or] at hm
    exact hm
  | conn fd =>
    simp only [acquireDispatchPin, hd, connAlive, Option.ite_none_right_eq_some, beq_iff_eq,
      Option.some.injEq, Bool.and_eq_true, Bool.not_eq_true'] at hs
    exact ⟨hs.2.symm, hs.1.1.1.1, hs.1.1.1.2, fun _ => hs.1.2⟩

theorem undoPin_acquirePin (k : PinKind) (hgen : (s.carriers h.dest).gen = h.gen)
    (hlive : (s.carriers h.dest).live = true) : undoPin h k (s.acquirePin h.dest k) = s := by
  have hg : ((s.acquirePin h.dest k).carriers h.dest).gen = h.gen := by
    simpa [State.acquirePin] using hgen
  have hl : ((s.acquirePin h.dest k).carriers h.dest).live = true := by
    simpa [State.acquirePin] using hlive
  have hr := State.releasePin_acquirePin h.dest k s
  cases hd : h.dest <;> simp_all [undoPin, connAlive]

/-- The carrier of a handle is its own, and takes pins. -/
structure Takes (h : Handle) (s : State) : Prop where
  gen : (s.carriers h.dest).gen = h.gen
  live : (s.carriers h.dest).live = true
  closing : h.dest.isConn = true → (s.carriers h.dest).closing = false

theorem isSome_acquireDispatchPin (h : Handle) (k : PinKind) (s : State) :
    (acquireDispatchPin h k s).isSome = (s.awaitedCall true h).served := by
  cases hd : h.dest with
  | slot idx =>
    simp only [acquireDispatchPin, State.awaitedCall, AwaitedCall.served, hd]
    split_ifs with hg <;> simp [hg]
  | conn fd =>
    simp only [acquireDispatchPin, connAlive, State.awaitedCall, AwaitedCall.served, hd]
    split_ifs with hg
    · simpa [Bool.and_assoc] using hg
    · simpa [Bool.and_assoc] using hg

theorem tryDispatch_cases (k : PinKind) (job : Job) (full : Bool) (hm : minted h s = true) :
    tryDispatch h k job full s = (.dead, s) ∧ (s.awaitedCall true h).served = false ∨
      (s.awaitedCall true h).served = true ∧ (tryDispatch h k job full s = (.refused, s) ∨
        tryDispatch h k job full s = (.accepted, (s.acquirePin h.dest k).enqueue h job) ∧
          Takes h s) := by
  rw [← isSome_acquireDispatchPin h k]
  cases ha : acquireDispatchPin h k s with
  | none =>
    left
    simp only [tryDispatch, ha, Option.isSome_none, and_self]
  | some s1 =>
    right
    obtain ⟨rfl, hgen, hlive, hclosing⟩ := acquireDispatchPin_eq_some hm ha
    refine ⟨rfl, ?_⟩
    cases full with
    | true =>
      left
      simp only [tryDispatch, ha, if_true, undoPin_acquirePin k hgen hlive]
    | false =>
      right
      refine ⟨?_, hgen, hlive, hclosing⟩
      simp only [tryDispatch, ha, Bool.false_eq_true, if_false]

theorem box_inlineMessages (h : Handle) (hfile : OutMsg.box ⟨file, h⟩ = none) (b : Body) :
    (inlineMessages h file b).filterMap OutMsg.box = [] := by
  cases b with
  | answers via raises => rfl
  | file raises => simp [inlineMessages, hfile]

/-- **The exits of a dispatch.**  A buffer may be taken, and given back unless it travels. -/
inductive Exit (pool : Bool) (r : Request) (s : State) : State → Prop
  | kept (p : ChunkPool) : Exit pool r s { s with chunkPool := p }
  | inline (p : ChunkPool) {ms : List OutMsg} (hp : pool = false)
      (hb : ms.filterMap OutMsg.box = []) : Exit pool r s ({ s with chunkPool := p }.push ms)
  | launch (p : ChunkPool) {k : PinKind} {job : Job} (hp : pool = true)
      (hpin : Task.pin ⟨s.nextTask, r.handle, job⟩ = some k)
      (hbox : Task.box ⟨s.nextTask, r.handle, job⟩ = none) (hl : Takes r.handle s) :
      Exit pool r s (({ s with chunkPool := p }.acquirePin r.handle.dest k).enqueue r.handle job)
  | stream (hp : pool = true) (hw : wsPin r.handle = none) :
      Exit pool r s (s.enqueue r.handle .wsBlocking)
  | dead (hc : (s.awaitedCall pool r.handle).served = false) :
      Exit pool r s ((s.newBox.settle s.nextBox).noteCall (s.awaitedCall pool r.handle))
  | refused (hc : (s.awaitedCall pool r.handle).served = true) : Exit pool r s
      (((s.newBox.complete s.nextBox).settle s.nextBox).noteCall (s.awaitedCall pool r.handle))
  | await (hp : pool = true) (hl : Takes r.handle s)
      (hc : (s.awaitedCall pool r.handle).served = true) : Exit pool r s
      (((s.newBox.acquirePin r.handle.dest .await).enqueue r.handle (.await s.nextBox)).noteCall
        (s.awaitedCall pool r.handle))
  | awaitInline (hp : pool = false) (hc : (s.awaitedCall pool r.handle).served = true) : Exit pool r s
      ((s.newBox.push [⟨.blockingDone s.nextBox, r.handle⟩]).noteCall (s.awaitedCall pool r.handle))

theorem dispatch_exit (pool : Bool) (r : Request) (s : State) :
    Exit pool r s (dispatch pool r s) := by
  unfold dispatch
  split_ifs with hm
  swap
  · exact .kept s.chunkPool
  cases hc : r.call with
  | blocking =>
    cases pool with
    | false => exact .inline s.chunkPool rfl (box_inlineMessages _ rfl _)
    | true =>
      simp only [dispatchBlocking, if_true]
      rcases tryDispatch_cases .blocking .blocking r.full hm with ⟨he, -⟩ | ⟨-, he | ⟨he, hl⟩⟩
      all_goals rw [he]
      · exact .kept s.chunkPool
      · exact .kept s.chunkPool
      · exact .launch s.chunkPool rfl rfl rfl hl
  | nextRead =>
    cases pool with
    | false => exact .inline _ rfl (box_inlineMessages _ rfl _)
    | true =>
      have hm' : minted r.handle { s with chunkPool := s.chunkPool.chunkTake.2 } = true := hm
      simp only [dispatchNextRead, if_true]
      rcases tryDispatch_cases .fileChunk (.fileChunk s.chunkPool.chunkTake.1) r.full hm'
        with ⟨he, -⟩ | ⟨-, he | ⟨he, hl⟩⟩
      all_goals rw [he]
      · exact .kept _
      · exact .kept _
      · exact .launch _ rfl rfl rfl ⟨hl.gen, hl.live, hl.closing⟩
  | await =>
    cases pool with
    | false => exact .awaitInline rfl rfl
    | true =>
      have hm' : minted r.handle s.newBox = true := hm
      simp only [dispatchBlockingResult, if_true]
      rcases tryDispatch_cases .await (.await s.nextBox) r.full hm'
        with ⟨he, hc⟩ | ⟨hc, he | ⟨he, hl⟩⟩
      all_goals rw [he]
      · exact .dead hc
      · exact .refused hc
      · exact .await rfl ⟨hl.gen, hl.live, hl.closing⟩ hc
  | wsBlocking gone =>
    cases pool with
    | false => exact .kept s.chunkPool
    | true =>
      simp only [dispatchWsBlocking, if_true]
      cases hw : wsPin r.handle with
      | none =>
        dsimp only
        split_ifs
        · exact .kept s.chunkPool
        · exact .stream rfl hw
      | some k =>
        dsimp only
        split_ifs with ha
        · simp only [connAlive, Bool.and_eq_true, beq_iff_eq, Bool.not_eq_true'] at ha
          exact .launch s.chunkPool rfl hw rfl ⟨ha.1.1, ha.1.2, fun _ => ha.2⟩
        · exact .kept s.chunkPool

section

variable {q : Endpoint → Prop} {B : List Hold} {s : State}

theorem pledged_enqueue (h : Handle) (job : Job) (s : State) : ((s.enqueue h job).pledged true).Perm
      ((Task.hold ⟨s.nextTask, h, job⟩).toList ++ s.pledged true) := by
  simp only [State.pledged, State.enqueue, if_true, List.filterMap_append, List.append_assoc]
  have hone : List.filterMap Task.hold [⟨s.nextTask, h, job⟩] =
      (Task.hold ⟨s.nextTask, h, job⟩).toList := by
    cases hh : Task.hold ⟨s.nextTask, h, job⟩ <;> simp [hh]
  rw [hone]
  exact List.perm_append_comm_assoc _ _ _

theorem pledged_push (pool : Bool) (ms : List OutMsg) (s : State) : ((s.push ms).pledged pool).Perm
      ((if pool then ms.filterMap OutMsg.hold else []) ++ s.pledged pool) := by
  cases pool with
  | false => exact .refl _
  | true =>
    simp only [State.pledged, State.push, if_true, List.filterMap_append, List.append_assoc]
    exact (List.Perm.append_left _ (List.perm_append_comm_assoc _ _ _)).trans
      (List.perm_append_comm_assoc _ _ _)

theorem Agrees.launch (h : Agrees true q B s) {hd : Handle} {k : PinKind} {job : Job}
    (hpin : Task.pin ⟨s.nextTask, hd, job⟩ = some k) (hgen : (s.carriers hd.dest).gen = hd.gen)
    (hlive : (s.carriers hd.dest).live = true) :
    Agrees true q B ((s.acquirePin hd.dest k).enqueue hd job) := by
  have hx := h.acquirePin (x := hd.hold k) hgen hlive
  refine (hx.perm ?_).congr rfl rfl
  have hp := pledged_enqueue hd job (s.acquirePin hd.dest k)
  have hhold : (Task.hold ⟨(s.acquirePin hd.dest k).nextTask, hd, job⟩).toList = [hd.hold k] := by
    have : Task.hold ⟨s.nextTask, hd, job⟩ = some (hd.hold k) := by
      rw [Task.hold, hpin]
      rfl
    exact congrArg Option.toList this
  rw [hhold] at hp
  exact (List.perm_middle.symm.trans (List.Perm.append_left B hp.symm))

theorem Agrees.push (h : Agrees pool q B s) {ms : List OutMsg}
    (hms : pool = true → ms.filterMap OutMsg.hold = []) :
    Agrees pool q B (s.push ms) := by
  refine (h.perm (List.Perm.append_left B ?_)).congr rfl rfl
  refine List.Perm.trans ?_ (pledged_push pool ms s).symm
  cases pool with
  | false => exact .refl _
  | true => simp [hms rfl]

theorem Agrees.dispatch (h : Agrees pool q B s) (r : Request) :
    Agrees pool q B (dispatch pool r s) := by
  have hx := dispatch_exit pool r s
  generalize Dispatch.dispatch pool r s = s' at hx ⊢
  cases hx with
  | kept p => exact h.congr rfl rfl
  | inline p hp hb =>
    have h1 : Agrees pool q B { s with chunkPool := p } := h.congr rfl rfl
    exact h1.push (fun ht => absurd (ht.symm.trans hp) (by decide))
  | launch p hp hpin hbox hl =>
    subst hp
    have h1 : Agrees true q B { s with chunkPool := p } := h.congr rfl rfl
    exact h1.launch hpin hl.gen hl.live
  | stream hp hw =>
    subst hp
    refine (h.perm (List.Perm.append_left B ?_)).congr rfl rfl
    refine List.Perm.trans ?_ (pledged_enqueue r.handle .wsBlocking s).symm
    simp [Task.hold, Task.pin, hw]
  | dead | refused => exact h.congr rfl rfl
  | await hp hl hc =>
    subst hp
    have h1 : Agrees true q B s.newBox := h.congr rfl rfl
    exact Pinned.congr (h1.launch rfl hl.gen hl.live) rfl rfl
  | awaitInline hp hc =>
    have h1 : Agrees pool q B s.newBox := h.congr rfl rfl
    exact Pinned.congr (h1.push (fun ht => absurd (ht.symm.trans hp) (by decide))) rfl rfl

end

/-! ### Operations of the application -/

mutual

/-- The carriers for which the code dispatches work. -/
def Op.targets : Op → List Endpoint
  | .dispatch r => [r.handle.dest]
  | .condemn _ => []
  | .close _ callbacks => Op.targetsAll callbacks

def Op.targetsAll : List Op → List Endpoint
  | [] => []
  | o :: rest => o.targets ++ Op.targetsAll rest

end

mutual

/-- The callbacks of the teardown of an HTTP/3 slot of `q` do not dispatch work for it. -/
def Op.Quiet (q : Endpoint → Prop) : Op → Prop
  | .dispatch _ => True
  | .condemn _ => True
  | .close (.conn _) callbacks => Op.QuietAll q callbacks
  | .close (.slot idx) callbacks =>
      (q (.slot idx) → .slot idx ∉ Op.targetsAll callbacks) ∧ Op.QuietAll q callbacks

def Op.QuietAll (q : Endpoint → Prop) : List Op → Prop
  | [] => True
  | o :: rest => o.Quiet q ∧ Op.QuietAll q rest

end

theorem carriers_dispatch (pool : Bool) (r : Request) (s : State) :
    (dispatch pool r s).carriers = s.carriers ∨
      ∃ k, (dispatch pool r s).carriers = (s.acquirePin r.handle.dest k).carriers ∧
        (s.carriers r.handle.dest).live = true ∧
        (r.handle.dest.isConn = true → (s.carriers r.handle.dest).closing = false) := by
  have hx := dispatch_exit pool r s
  generalize dispatch pool r s = s' at hx ⊢
  cases hx with
  | launch p hp hpin hbox hl => exact .inr ⟨_, rfl, hl.live, hl.closing⟩
  | await hp hl hc => exact .inr ⟨_, rfl, hl.live, hl.closing⟩
  | _ => exact .inl rfl

section

variable {pool : Bool} {s : State}

section

variable {I : State → Prop} {P : Endpoint → Prop}

mutual

theorem runOp_induction (hdisp : ∀ r s, P r.handle.dest → I s → I (dispatch pool r s))
    (hclose : ∀ e s, I s → I (s.modify e fun c => { c with closing := true }))
    (hfree : ∀ e s, I s → I (s.modify e Carrier.free))
    (hfault : ∀ s, I s → I { s with faulted := true }) :
    ∀ (o : Op) (s : State), (∀ e ∈ o.targets, P e) → I s → I (runOp pool o s)
  | .dispatch r, s, ho, h => by
    rw [runOp]
    exact hdisp r s (ho _ List.mem_cons_self) h
  | .condemn idx, s, _, h => by
    rw [runOp]
    exact hclose _ s h
  | .close (.conn fd) callbacks, s, ho, h => by
    rw [runOp]
    split_ifs
    · exact hclose _ s h
    · have h' := runOps_induction hdisp hclose hfree hfault callbacks _ ho (hclose (.conn fd) s h)
      unfold freeConn
      split_ifs
      · exact hfree _ _ h'
      · exact hfault _ h'
    · exact h
  | .close (.slot idx) callbacks, s, ho, h => by
    rw [runOp]
    split_ifs
    · exact hclose _ s h
    · exact hfree _ _ (runOps_induction hdisp hclose hfree hfault callbacks s ho h)

theorem runOps_induction (hdisp : ∀ r s, P r.handle.dest → I s → I (dispatch pool r s))
    (hclose : ∀ e s, I s → I (s.modify e fun c => { c with closing := true }))
    (hfree : ∀ e s, I s → I (s.modify e Carrier.free))
    (hfault : ∀ s, I s → I { s with faulted := true }) :
    ∀ (os : List Op) (s : State), (∀ e ∈ Op.targetsAll os, P e) → I s → I (runOps pool os s)
  | [], _, _, h => h
  | o :: rest, s, ho, h => by
    rw [runOps]
    exact runOps_induction hdisp hclose hfree hfault rest _
      (fun e he => ho e (List.mem_append_right _ he))
      (runOp_induction hdisp hclose hfree hfault o s
        (fun e he => ho e (List.mem_append_left _ he)) h)

end

end

theorem pins_runOps {os : List Op} (ho : e ∉ Op.targetsAll os) (s : State) :
    ((runOps pool os s).carriers e).pins = (s.carriers e).pins := by
  refine runOps_induction (I := fun s' => (s'.carriers e).pins = (s.carriers e).pins)
    (P := (· ≠ e)) (fun r s' hne h => ?_) (fun _ _ => Eq.trans (pins_modify _ _ _ _ fun _ => rfl))
    (fun _ _ => Eq.trans (pins_modify _ _ _ _ fun _ => rfl)) (fun _ => id) os s
    (fun e' h' he => ho (he ▸ h')) rfl
  rcases carriers_dispatch pool r s' with hc | ⟨k, hc, -⟩
  · rw [hc, h]
  · rw [hc, State.acquirePin, State.carriers_modify_ne hne.symm, h]

/-- A connection that can take no pin any more. -/
def Shut (fd : ℕ) (s : State) : Prop :=
  (s.carriers (.conn fd)).pins.total = 0 ∧
    ((s.carriers (.conn fd)).closing = true ∨ (s.carriers (.conn fd)).live = false)

theorem Shut.congr {s' : State} (h : Shut fd s)
    (hc : s'.carriers (.conn fd) = s.carriers (.conn fd)) : Shut fd s' := by
  unfold Shut
  rw [hc]
  exact h

theorem Shut.modify (h : Shut fd s) (e : Endpoint) {f : Carrier → Carrier}
    (hpins : ∀ c, (f c).pins = c.pins) (hf : ∀ c, (f c).closing = true ∨ (f c).live = false) :
    Shut fd (s.modify e f) := by
  by_cases he : Endpoint.conn fd = e
  · subst he
    unfold Shut
    rw [State.carriers_modify_self, hpins]
    exact ⟨h.1, hf _⟩
  · exact h.congr (State.carriers_modify_ne he _ _)

theorem Shut.runOps (h : Shut fd s) (os : List Op) : Shut fd (runOps pool os s) := by
  refine runOps_induction (P := fun _ => True) (fun r s _ h => ?_)
    (fun e _ h => h.modify e (fun _ => rfl) fun _ => .inl rfl)
    (fun e _ h => h.modify e (fun _ => rfl) fun _ => .inr rfl) (fun _ h => h.congr rfl) os s
    (fun _ _ => trivial) h
  rcases carriers_dispatch pool r s with hc | ⟨k, hc, hlive, hclosing⟩
  · exact h.congr (by rw [hc])
  · have hne : Endpoint.conn fd ≠ r.handle.dest := by
      intro heq
      rw [← heq] at hlive hclosing
      rcases h.2 with h' | h'
      · rw [hclosing rfl] at h'
        cases h'
      · rw [hlive] at h'
        cases h'
    exact h.congr (by rw [hc, State.acquirePin, State.carriers_modify_ne hne])

variable {q : Endpoint → Prop} {B : List Hold}

theorem Agrees.closing (h : Agrees pool q B s) (e : Endpoint) :
    Agrees pool q B (s.modify e fun c => { c with closing := true }) :=
  Pinned.modify h rfl id rfl

mutual

/-- **What the application does on the loop thread** keeps the counters and the list together. -/
theorem Agrees.runOp : ∀ (o : Op) (s : State), o.Quiet q → Agrees pool q B s →
      Agrees pool q B (runOp pool o s)
  | .dispatch r, s, _, h => by
    rw [Dispatch.runOp]
    exact h.dispatch r
  | .condemn idx, s, _, h => by
    rw [Dispatch.runOp]
    exact h.closing _
  | .close (.conn fd) callbacks, s, hq, h => by
    rw [Dispatch.runOp]
    split_ifs with hlive hpins
    · exact h.closing _
    · have hshut : Shut fd (s.modify (.conn fd) fun c => { c with closing := true }) := by
        refine ⟨?_, .inl ?_⟩
        · rw [State.carriers_modify_self]
          exact Nat.eq_zero_of_not_pos hpins
        · rw [State.carriers_modify_self]
      have h' := Agrees.runOps callbacks _ hq (h.closing (.conn fd))
      have hz : ((Dispatch.runOps pool callbacks
          (s.modify (.conn fd) fun c => { c with closing := true })).carriers
            (.conn fd)).pins.total = 0 := (hshut.runOps callbacks).1
      rw [freeConn, if_pos hz]
      exact Pinned.free h' fun _ => hz
    · exact h
  | .close (.slot idx) callbacks, s, hq, h => by
    rw [Dispatch.runOp]
    split_ifs with hpins
    · exact h.closing _
    · refine Pinned.free (Agrees.runOps callbacks s hq.2 h) fun hor => ?_
      have hqs : q (.slot idx) := hor.resolve_left nofun
      rw [pins_runOps (hq.1 hqs) s]
      exact Nat.eq_zero_of_not_pos hpins

theorem Agrees.runOps :
    ∀ (os : List Op) (s : State), Op.QuietAll q os → Agrees pool q B s →
      Agrees pool q B (runOps pool os s)
  | [], _, _, h => h
  | o :: rest, s, hq, h => by
    rw [Dispatch.runOps]
    exact Agrees.runOps rest _ hq.2 (Agrees.runOp o s hq.1 h)

end

end

/-! ### Workers -/

/-- An answer to the request of the task. -/
def Via.answers : Via → Bool
  | .own | .twin => true
  | .other _ => false

/-- The answer of a synchronous task is the one that releases its pin. -/
def Job.sync : Job → Bool
  | .blocking | .fileChunk _ => true
  | _ => false

/-- The body of a synchronous task answers first through the handle it was given. -/
def Task.Releases (t : Task) (b : Body) : Prop :=
  t.job.sync = true → ∀ via raises, b = .answers via raises → via.find? Via.answers ≠ some .twin

/-- What a task has pushed names no pin, or its own once and then it has answered. -/
def Latch.Good (h : Handle) (rel : RelKind) (l : Latch) : Prop :=
  l.pushed.filterMap OutMsg.hold = [] ∨
    l.answered = true ∧ l.pushed.filterMap OutMsg.hold = (rel.pin.map h.hold).toList

theorem Latch.Good.sendRaw (hl : l.Good h rel) (v : Via) : (sendRaw h rel v l).Good h rel := by
  have hnone : ∀ h' : Handle, OutMsg.hold ⟨.http .none, h'⟩ = none := fun _ => rfl
  have hown : OutMsg.hold ⟨.http rel, h⟩ = rel.pin.map h.hold := rfl
  cases v with
  | other h' =>
    simp only [Latch.Good, Dispatch.sendRaw, List.filterMap_append, List.filterMap_cons, hnone,
      List.filterMap_nil, List.append_nil]
    exact hl
  | own =>
    simp only [Dispatch.sendRaw]
    split_ifs with ha
    · exact hl
    · have hl' := hl.resolve_right fun h' => ha h'.1
      refine .inr ⟨rfl, ?_⟩
      rw [List.filterMap_append, hl', List.nil_append]
      cases hp : rel.pin.map h.hold <;> simp [hown, hp]
  | twin =>
    simp only [Dispatch.sendRaw]
    split_ifs with ha
    · exact hl
    · have hl' := hl.resolve_right fun h' => ha h'.1
      refine .inl ?_
      rw [List.filterMap_append, hl']
      simp [hnone]

theorem Latch.Good.sendAll (h : Handle) (rel : RelKind) (via : List Via) :
    (sendAll h rel via {}).Good h rel :=
  List.foldlRecOn (motive := Latch.Good h rel) via _ (.inl rfl) fun _ hl v _ => hl.sendRaw v

theorem runWorkerBody_induction {P : Latch → Prop} (hown : ∀ l, P l → P (sendRaw h rel .own l))
    (hfile : P ⟨[⟨file, h⟩], true⟩)
    (hsend : ∀ via raises, b = .answers via raises → P (sendAll h rel via {})) :
    ∃ l, P l ∧ l.answered = true ∧ runWorkerBody h rel file b = l.pushed := by
  have hbody : P (runBody h rel file b) := by
    cases b with
    | answers via raises =>
      simp only [runBody]
      split_ifs
      · exact hown _ (hsend via raises rfl)
      · exact hsend via raises rfl
    | file raises =>
      simp only [runBody]
      split_ifs
      · exact hown _ hfile
      · exact hfile
  unfold runWorkerBody
  dsimp only
  split_ifs with ha
  · exact ⟨_, hbody, ha, rfl⟩
  · exact ⟨_, hown _ hbody, by simp [sendRaw, ha], rfl⟩

theorem hold_runWorkerBody (hfile : OutMsg.hold ⟨file, h⟩ = rel.pin.map h.hold) (b : Body) :
    (runWorkerBody h rel file b).filterMap OutMsg.hold = [] ∨
      (runWorkerBody h rel file b).filterMap OutMsg.hold = (rel.pin.map h.hold).toList := by
  have hone : Latch.Good h rel ⟨[⟨file, h⟩], true⟩ := by
    refine .inr ⟨rfl, ?_⟩
    cases hp : rel.pin.map h.hold <;> simp [hfile, hp]
  obtain ⟨l, hl, -, he⟩ := runWorkerBody_induction (b := b) (fun _ hl => hl.sendRaw .own) hone
    fun via _ _ => .sendAll h rel via
  rw [he]
  exact hl.imp_right fun h' => h'.2

theorem hold_trampoline_async {t : Task} (ht : t.job.sync = false) :
    (trampoline t b).filterMap OutMsg.hold = t.hold.toList := by
  obtain ⟨n, h, job⟩ := t
  cases job with
  | blocking | fileChunk => cases ht
  | await box =>
    cases b with
    | answers via raises =>
      have hl : (sendAll h .none via {}).pushed.filterMap OutMsg.hold = [] :=
        (Latch.Good.sendAll h .none via).elim id fun h' => h'.2
      simp only [trampoline, List.filterMap_append, hl]
      rfl
    | file raises => rfl
  | wsBlocking =>
    have hdone : List.filterMap OutMsg.hold [⟨.wsDone, h⟩] =
        (Task.hold ⟨n, h, .wsBlocking⟩).toList := by
      have heq : OutMsg.hold ⟨.wsDone, h⟩ = Task.hold ⟨n, h, .wsBlocking⟩ := rfl
      cases hp : Task.hold ⟨n, h, .wsBlocking⟩ <;> simp [heq, hp]
    cases b with
    | answers via raises =>
      have hws : (via.map fun _ => (⟨.ws, h⟩ : OutMsg)).filterMap OutMsg.hold = [] := by
        induction via with
        | nil => rfl
        | cons v rest ih => exact ih
      simp only [trampoline, List.filterMap_append, hws, List.nil_append]
      exact hdone
    | file raises => exact hdone

/-- **A task names the pin it holds, and at most once.** -/
theorem hold_trampoline (t : Task) (b : Body) : (trampoline t b).filterMap OutMsg.hold = [] ∨
      (trampoline t b).filterMap OutMsg.hold = t.hold.toList := by
  obtain ⟨n, h, job⟩ := t
  cases job with
  | blocking | fileChunk => exact hold_runWorkerBody rfl b
  | await | wsBlocking => exact .inr (hold_trampoline_async rfl)

/-- What a task has pushed names its pin if it has answered, and no pin before. -/
def Latch.Owned (h : Handle) (rel : RelKind) (l : Latch) : Prop :=
  l.pushed.filterMap OutMsg.hold = if l.answered then (rel.pin.map h.hold).toList else []

theorem Latch.Owned.own (hl : l.Owned h rel) :
    (sendRaw h rel .own l).Owned h rel ∧ (sendRaw h rel .own l).answered = true := by
  have hown : OutMsg.hold ⟨.http rel, h⟩ = rel.pin.map h.hold := rfl
  unfold Latch.Owned at hl ⊢
  cases ha : l.answered with
  | true => simpa [sendRaw, ha] using hl
  | false =>
    rw [ha] at hl
    cases hp : rel.pin.map h.hold <;> simp [sendRaw, ha, hl, hown, hp]

theorem Latch.Owned.sendAll (hl : l.Owned h rel) {via : List Via}
    (hv : l.answered = false → via.find? Via.answers ≠ some .twin) :
    (sendAll h rel via l).Owned h rel := by
  induction via generalizing l with
  | nil => exact hl
  | cons v rest ih =>
    cases v with
    | own => exact ih hl.own.1 fun h' => absurd (hl.own.2.symm.trans h') (by decide)
    | twin =>
      have ha : l.answered = true := by
        by_contra ha
        exact hv (by simpa using ha) (by simp [Via.answers])
      have hkeep : Dispatch.sendRaw h rel .twin l = l := if_pos ha
      change (Dispatch.sendAll h rel rest (Dispatch.sendRaw h rel .twin l)).Owned h rel
      rw [hkeep]
      exact ih hl fun h' => absurd (ha.symm.trans h') (by decide)
    | other h' =>
      have hnone : OutMsg.hold ⟨.http .none, h'⟩ = none := rfl
      refine ih ?_ fun ha => by simpa [Via.answers] using hv ha
      unfold Latch.Owned at hl ⊢
      simp only [Dispatch.sendRaw, List.filterMap_append, List.filterMap_cons, hnone,
        List.filterMap_nil, List.append_nil]
      exact hl

theorem hold_runWorkerBody_of_releases (hfile : OutMsg.hold ⟨file, h⟩ = rel.pin.map h.hold)
    (hb : ∀ via raises, b = .answers via raises → via.find? Via.answers ≠ some .twin) :
    (runWorkerBody h rel file b).filterMap OutMsg.hold = (rel.pin.map h.hold).toList := by
  have hone : Latch.Owned h rel ⟨[⟨file, h⟩], true⟩ := by
    cases hp : rel.pin.map h.hold <;> simp [Latch.Owned, hfile, hp]
  obtain ⟨l, hl, ha, he⟩ := runWorkerBody_induction (b := b) (fun _ hl => hl.own.1) hone
    fun via raises hv => Latch.Owned.sendAll (l := {}) rfl fun _ => hb via raises hv
  rw [he]
  exact hl.trans (if_pos ha)

theorem hold_trampoline_of_releases {t : Task} (hb : t.Releases b) :
    (trampoline t b).filterMap OutMsg.hold = t.hold.toList := by
  obtain ⟨n, h, job⟩ := t
  cases job with
  | blocking | fileChunk => exact hold_runWorkerBody_of_releases rfl (hb rfl)
  | await | wsBlocking => exact hold_trampoline_async rfl

section

variable {pool : Bool} {q : Endpoint → Prop} {B : List Hold} {s : State}

/-- The pin that a task leaves behind. -/
def Task.leaves (pool : Bool) (t : Task) (b : Body) : List Hold :=
  if pool = false ∨ (trampoline t b).filterMap OutMsg.hold = t.hold.toList then []
  else t.hold.toList

theorem Task.Releases.leaves_eq {t : Task} (hb : t.Releases b) : t.leaves pool b = [] :=
  if_pos (.inr (hold_trampoline_of_releases hb))

theorem Agrees.finishTask (h : Agrees pool q B s) {t : Task} (ht : t ∈ s.running) (b : Body) :
    Agrees pool q (t.leaves pool b ++ B) (finishTask t b s) := by
  cases pool with
  | false => exact h.congr rfl rfl
  | true =>
    have hrun : (s.running.filterMap Task.hold).Perm
        (t.hold.toList ++ (s.running.erase t).filterMap Task.hold) := by
      refine ((List.perm_cons_erase ht).filterMap Task.hold).trans (.of_eq ?_)
      cases hh : t.hold <;> simp [hh]
    have hp : (B ++ s.pledged true).Perm (t.hold.toList ++ (B ++
        ((s.running.erase t).filterMap Task.hold ++
          (s.outbox ++ s.abandoned ++ s.halfApplied).filterMap OutMsg.hold))) := by
      refine List.Perm.trans (List.Perm.append_left B (hrun.append_right _)) ?_
      rw [List.append_assoc]
      exact List.perm_append_comm_assoc _ _ _
    have h' := Pinned.perm h hp
    simp only [Agrees, State.pledged, Dispatch.finishTask, if_true, List.filterMap_append,
      List.append_assoc] at h' ⊢
    unfold Task.leaves
    simp only [Bool.true_eq_false, false_or]
    split_ifs with heq
    · rw [heq]
      refine (h'.perm ?_).congr rfl rfl
      refine (List.perm_append_comm_assoc _ _ _).trans (List.Perm.append_left _ ?_)
      refine (List.perm_append_comm_assoc _ _ _).trans (List.Perm.append_left _ ?_)
      exact List.perm_append_comm_assoc _ _ _
    · rw [(hold_trampoline t b).resolve_right heq]
      exact h'.congr rfl rfl

/-! ### The outbox -/

/-- The pins that messages still name. -/
def heldBy (pool : Bool) (ms : List OutMsg) : List Hold :=
  if pool then ms.filterMap OutMsg.hold else []

theorem heldBy_cons (pool : Bool) (m : OutMsg) (ms : List OutMsg) :
    heldBy pool (m :: ms) = heldBy pool [m] ++ heldBy pool ms := by
  cases pool with
  | false => rfl
  | true => cases hm : m.hold <;> simp [heldBy, hm]

/-- What the callbacks at a message leave alone. -/
def Turn.Quiet (q : Endpoint → Prop) (m : OutMsg) (t : Turn) : Prop :=
  Op.QuietAll q t.onDone.ops ∧ Op.QuietAll q t.hook.ops ∧
    (Op.close m.handle.dest t.teardown).Quiet q

theorem Pinned.dropStale (h : Pinned q (heldBy pool [m] ++ (B ++ s.pledged pool)) s)
    (hs : q m.handle.dest → ¬ ((s.carriers m.handle.dest).gen = m.handle.gen ∧
      (s.carriers m.handle.dest).live = true)) : Agrees pool q B s := by
  cases pool with
  | false => exact h
  | true =>
    cases hm : m.release with
    | none => simpa [heldBy, OutMsg.hold, hm, Agrees] using h
    | some k =>
      have h' : Pinned q (m.handle.hold k :: (B ++ s.pledged true)) s := by
        simpa [heldBy, OutMsg.hold, hm] using h
      exact h'.drop fun hq => hs hq (h'.held _ List.mem_cons_self hq)

theorem Pinned.unpin (h : Pinned q ((if pool then [x] else []) ++ (B ++ s.pledged pool)) s)
    (hgen : (s.carriers x.dest).gen = x.gen) :
    Agrees pool q B (unpin pool x s) := by
  cases pool with
  | false => exact h
  | true =>
    have hr : Pinned q (B ++ s.pledged true) (s.releasePin x.dest x.kind) :=
      Pinned.releasePin h hgen
    have hh : (s.releasePin x.dest x.kind).pledged true = s.pledged true := by
      unfold State.releasePin
      split_ifs <;> rfl
    rw [← hh] at hr
    exact hr.congr rfl rfl

theorem Agrees.afterRelease (h : Agrees pool q B s) (hhook : Op.QuietAll q t.hook.ops)
    (hclose : (Op.close e t.teardown).Quiet q) :
    Agrees pool q B (afterRelease pool e t s).1 := by
  unfold Dispatch.afterRelease
  rw [if_neg (by simp [h.noFault])]
  split_ifs
  · exact h.runOp _ s hclose
  · exact h
  · exact h.runOps _ s hhook

theorem Pinned.applyAnswer (h : Pinned q (heldBy pool [m] ++ (B ++ s.pledged pool)) s)
    (ht : t.Quiet q m) :
    Agrees pool q B (applyAnswer pool m t s).1 := by
  unfold Dispatch.applyAnswer
  split_ifs with hs
  · have hgone : ¬ ((s.carriers m.handle.dest).gen = m.handle.gen ∧
        (s.carriers m.handle.dest).live = true) := by
      rintro ⟨hg, hl⟩
      simp [stale, hg, hl] at hs
    exact (h.dropStale fun _ => hgone).congr rfl rfl
  · have hgen : (s.carriers m.handle.dest).gen = m.handle.gen := by
      simp only [stale, Bool.or_eq_true, bne_iff_ne, not_or, not_not] at hs
      exact hs.1
    have hfree : m.hold = none → Agrees pool q B (s.record [.applied m]) := by
      intro hm
      have : heldBy pool [m] = [] := by cases pool <;> simp [heldBy, hm]
      rw [this] at h
      exact Pinned.congr h rfl rfl
    have hcases : m.hold = none ∨ ∃ k, m.hold = some (m.handle.hold k) := by
      cases hr : m.release with
      | none => exact .inl (by simp [OutMsg.hold, hr])
      | some k => exact .inr ⟨k, by simp [OutMsg.hold, hr]⟩
    have happly : ∀ k, m.hold = some (m.handle.hold k) →
        Agrees pool q B (Dispatch.afterRelease pool m.handle.dest t
          (Dispatch.unpin pool (m.handle.hold k) (s.record [.applied m]))).1 := by
      intro k hk
      refine Agrees.afterRelease (Pinned.unpin ?_ hgen) ht.2.1 ht.2.2
      have : heldBy pool [m] = if pool then [m.handle.hold k] else [] := by
        simp [heldBy, hk]
      rw [this] at h
      exact Pinned.congr h rfl rfl
    split
    · exact (hfree (by simp_all [OutMsg.hold, OutMsg.release])).runOps _ _ ht.2.1
    · exact (hfree (by simp_all [OutMsg.hold, OutMsg.release])).runOps _ _ ht.2.1
    · rcases hcases with hm | ⟨k, hm⟩
      · rw [hm]
        dsimp only
        split
        · exact (hfree hm).runOps _ _ ht.2.1
        · exact (hfree hm).afterRelease ht.2.1 ht.2.2
      · rw [hm]
        exact happly k hm

theorem awaitStale_false (h : awaitStale m s = false) :
    (s.carriers m.handle.dest).gen = m.handle.gen := by
  unfold awaitStale at h
  split_ifs at h
  · simp only [stale, Bool.or_eq_false_iff, bne_eq_false_iff_eq] at h
    exact h.1
  · simpa using h

theorem awaitStale_true (h : awaitStale m s = true) :
    ¬ ((s.carriers m.handle.dest).gen = m.handle.gen ∧
      (s.carriers m.handle.dest).live = true) := by
  rintro ⟨hg, hl⟩
  unfold awaitStale at h
  split_ifs at h <;> simp [stale, hg, hl] at h

theorem Pinned.applyBlockingDone {b : ℕ} (hm : m.kind = .blockingDone b)
    (h : Pinned q (heldBy pool [m] ++ (B ++ s.pledged pool)) s) (ht : t.Quiet q m) :
    Agrees pool q B (applyBlockingDone pool m b t s).1 := by
  have hhold : m.hold = some (m.handle.hold .await) := by
    simp [OutMsg.hold, OutMsg.release, hm]
  have h0 : Agrees pool q (heldBy pool [m] ++ B)
      ((s.complete b).record [.applied m]) := by
    unfold Agrees
    rw [List.append_assoc]
    exact h.congr rfl rfl
  have h1 := h0.runOps t.onDone.ops _ ht.1
  unfold Dispatch.applyBlockingDone
  dsimp only
  generalize Dispatch.runOps pool t.onDone.ops
    ((s.complete b).record [.applied m]) = s1 at h1 ⊢
  rw [Agrees, List.append_assoc] at h1
  split_ifs with hraise hst
  · refine (h1.perm ?_).congr rfl rfl
    cases pool with
    | false => exact .refl _
    | true =>
      simp only [heldBy, State.pledged, if_true, List.filterMap_append, List.filterMap_cons, hhold,
        List.filterMap_nil, List.append_assoc, List.singleton_append]
      simp only [← List.append_assoc]
      exact List.perm_middle.symm
  · exact Pinned.dropStale (m := m) (s := s1.settle b) (h1.congr rfl rfl) fun _ =>
      awaitStale_true hst
  · have h2 : Pinned q ((if pool then [m.handle.hold .await] else []) ++
        (B ++ (s1.settle b).pledged pool)) (s1.settle b) := by
      have : heldBy pool [m] = if pool then [m.handle.hold .await] else [] := by
        simp [heldBy, hhold]
      rw [this] at h1
      exact h1.congr rfl rfl
    exact (h2.unpin (awaitStale_false (by simpa using hst))).afterRelease ht.2.1 ht.2.2

theorem Pinned.applyMessage (h : Pinned q (heldBy pool [m] ++ (B ++ s.pledged pool)) s)
    (ht : t.Quiet q m) :
    Agrees pool q B (applyMessage pool m t s).1 := by
  unfold Dispatch.applyMessage
  split
  · rename_i b hm
    exact h.applyBlockingDone hm ht
  · exact h.applyAnswer ht

/-- The callbacks at the messages of a batch. -/
def QuietBatch (q : Endpoint → Prop) : List OutMsg → List Turn → Prop
  | [], _ => True
  | m :: rest, ts => (ts.headD {}).Quiet q m ∧ QuietBatch q rest ts.tail

theorem Pinned.applyBatch {ms : List OutMsg} {ts : List Turn}
    (h : Pinned q (heldBy pool ms ++ (B ++ s.pledged pool)) s) (ht : QuietBatch q ms ts) :
    Agrees pool q B (applyBatch pool ms ts s).1 := by
  induction ms generalizing s ts with
  | nil =>
    have : heldBy pool [] = [] := by cases pool <;> rfl
    rw [this] at h
    exact h
  | cons m rest ih =>
    rw [heldBy_cons, List.append_assoc, ← List.append_assoc (heldBy pool rest)] at h
    have h' := h.applyMessage ht.1
    rw [Agrees, List.append_assoc] at h'
    simp only [Dispatch.applyBatch]
    split
    · rename_i s' he
      rw [he] at h'
      refine (h'.perm ?_).congr rfl rfl
      cases pool with
      | false => exact .refl _
      | true =>
        simp only [heldBy, State.pledged, if_true, List.filterMap_append, List.append_assoc]
        refine (List.perm_append_comm_assoc _ _ _).trans (List.Perm.append_left _ ?_)
        refine (List.perm_append_comm_assoc _ _ _).trans (List.Perm.append_left _ ?_)
        exact List.perm_append_comm_assoc _ _ _
    · rename_i s' he
      rw [he] at h'
      exact ih h' ht.2

theorem carriers_returnBuffers (pool : Bool) (ms : List OutMsg) (s : State) :
    (returnBuffers ms s).carriers = s.carriers ∧ (returnBuffers ms s).faulted = s.faulted ∧
      (returnBuffers ms s).pledged pool = s.pledged pool := by
  unfold returnBuffers
  induction ms.filterMap OutMsg.buffer generalizing s with
  | nil => exact ⟨rfl, rfl, rfl⟩
  | cons buf rest ih => exact ih (s.chunkReturn buf)

theorem Agrees.takeOutbox (h : Agrees pool q B s) :
    Pinned q (heldBy pool s.outbox ++ (B ++ ({ s with outbox := [] } : State).pledged pool))
      { s with outbox := [] } := by
  refine (Pinned.perm h ?_).congr rfl rfl
  cases pool with
  | false => exact .refl _
  | true =>
    simp only [heldBy, State.pledged, if_true, List.filterMap_append, List.append_assoc,
      List.nil_append]
    refine List.Perm.trans (List.Perm.append_left B (List.perm_append_comm_assoc _ _ _)) ?_
    exact List.perm_append_comm_assoc _ _ _

theorem Agrees.processOutbox {ts : List Turn} (h : Agrees pool q B s)
    (ht : QuietBatch q s.outbox ts) : Agrees pool q B (processOutbox pool ts s) := by
  have h' := h.takeOutbox.applyBatch ht
  unfold Dispatch.processOutbox
  split
  · rename_i s' he
    rw [he] at h'
    exact h'
  · rename_i s' he
    rw [he] at h'
    obtain ⟨hc, hf, hh⟩ := carriers_returnBuffers pool s.outbox s'
    rw [Agrees, ← hh] at h'
    exact h'.congr hc hf

end

/-! ### The counters in every run -/

/-- What the callbacks of an action leave alone. -/
def Action.Quiet (q : Endpoint → Prop) (s : State) : Action → Prop
  | .loop o => o.Quiet q
  | .drain turns => QuietBatch q s.outbox turns
  | _ => True

/-- A task that ends has named its pin. -/
def Action.Releases : Action → Prop
  | .finish t b => t.Releases b
  | _ => True

def Action.leaves (pool : Bool) : Action → List Hold
  | .finish t b => t.leaves pool b
  | _ => []

theorem Action.Releases.leaves_eq {a : Action} (ha : a.Releases) : a.leaves pool = [] := by
  cases a with
  | finish t b => exact Task.Releases.leaves_eq ha
  | _ => rfl

theorem acceptAt_eq {s' : State} (hs : acceptAt e s = some s') :
    (∃ f, s' = s.modify e f) ∨ s' = { s with faulted := true } := by
  cases e with
  | conn fd =>
    simp only [acceptAt] at hs
    split_ifs at hs
    · exact .inl ⟨_, (Option.some.inj hs).symm⟩
    · exact .inr (Option.some.inj hs).symm
  | slot idx =>
    simp only [acceptAt, Option.ite_none_right_eq_some, Option.some.injEq] at hs
    exact .inl ⟨_, hs.2.symm⟩

theorem Pinned.accept {q : Endpoint → Prop} {L : List Hold} {s s' : State} (h : Pinned q L s)
    (hs : acceptAt e s = some s') : Pinned q L s' := by
  cases e with
  | conn fd =>
    simp only [acceptAt] at hs
    split_ifs at hs with hlive hz
    · cases hs
      exact h.modify rfl (fun _ => rfl) rfl
    · exact absurd (h.idle fd (by simpa using hlive)) hz
  | slot idx =>
    simp only [acceptAt, Option.ite_none_right_eq_some, Option.some.injEq] at hs
    obtain ⟨-, rfl⟩ := hs
    exact h.modify rfl (fun _ => rfl) rfl

theorem Agrees.step {q : Endpoint → Prop} {pool : Bool} {B : List Hold} {s s' : State} {a : Action}
    (h : Agrees pool q B s) (ha : a.Quiet q s) (hs : step pool s a = some s') :
    Agrees pool q (a.leaves pool ++ B) s' := by
  cases a with
  | accept e =>
    have h' := Pinned.accept h hs
    have hh : s'.pledged pool = s.pledged pool := by
      rcases acceptAt_eq hs with ⟨f, rfl⟩ | rfl <;> rfl
    rw [Agrees, hh]
    exact h'
  | request fd =>
    simp only [Dispatch.step, Option.ite_none_right_eq_some, Option.some.injEq] at hs
    obtain ⟨-, rfl⟩ := hs
    exact Pinned.modify h rfl id rfl
  | loop o =>
    cases hs
    exact Agrees.runOp o s ha h
  | send hd ws =>
    cases hs
    refine Agrees.push h fun _ => ?_
    cases ws <;> rfl
  | finish t b =>
    simp only [Dispatch.step, Option.ite_none_right_eq_some, Option.some.injEq] at hs
    obtain ⟨ht, rfl⟩ := hs
    exact h.finishTask ht b
  | drain turns =>
    simp only [Dispatch.step, Option.ite_none_left_eq_some, Option.some.injEq] at hs
    obtain ⟨-, rfl⟩ := hs
    exact h.processOutbox ha

theorem Agrees.start (q : Endpoint → Prop) (pool : Bool) : Agrees pool q [] {} := by
  have hnil : ({} : State).pledged pool = [] := by cases pool <;> rfl
  rw [Agrees, hnil]
  exact ⟨rfl, fun _ _ => Nat.zero_le _, nofun, fun _ _ => rfl, fun _ _ _ => rfl, nofun⟩

/-- **The counters in every run** whose callbacks are quiet and whose tasks release. -/
theorem agrees_of_quiet {q : Endpoint → Prop} {ok : State → Action → Prop}
    (hok : ∀ s a, ok s a → a.Quiet q s ∧ a.Releases) (h : ((system pool).restrict ok).Reachable s) :
    Agrees pool q [] s := by
  refine h.invariant (I := Agrees pool q []) (fun s hs => ?_) fun s a s' ih hs => ?_
  · cases hs
    exact .start q pool
  · obtain ⟨ha, hs⟩ := System.step_restrict.mp hs
    have h' := ih.step (hok s a ha).1 hs
    rwa [(hok s a ha).2.leaves_eq] at h'

section

variable {q : Endpoint → Prop}

mutual

theorem Op.quiet_conns (hq : ∀ idx, ¬ q (.slot idx)) : ∀ o : Op, o.Quiet q
  | .dispatch _ => trivial
  | .condemn _ => trivial
  | .close (.conn _) callbacks => Op.quietAll_conns hq callbacks
  | .close (.slot idx) callbacks =>
      ⟨fun h => absurd h (hq idx), Op.quietAll_conns hq callbacks⟩

theorem Op.quietAll_conns (hq : ∀ idx, ¬ q (.slot idx)) : ∀ os : List Op, Op.QuietAll q os
  | [] => trivial
  | o :: rest => ⟨Op.quiet_conns hq o, Op.quietAll_conns hq rest⟩

end

theorem quietBatch_conns (hq : ∀ idx, ¬ q (.slot idx)) (ms : List OutMsg) (ts : List Turn) :
    QuietBatch q ms ts := by
  induction ms generalizing ts with
  | nil => exact trivial
  | cons m rest ih =>
    exact ⟨⟨Op.quietAll_conns hq _, Op.quietAll_conns hq _, Op.quiet_conns hq _⟩, ih _⟩

end

/-- **The counters in every run** whose callbacks are quiet: they are the pins of the list and those
that tasks have left behind. -/
theorem exists_agrees {q : Endpoint → Prop}
    (h : ((system pool).restrict fun s a => a.Quiet q s).Reachable s) : ∃ B, Agrees pool q B s := by
  refine h.invariant (I := fun s => ∃ B, Agrees pool q B s) (fun s hs => ?_) ?_
  · cases hs
    exact ⟨[], .start q pool⟩
  · rintro s a s' ⟨B, ih⟩ hs
    obtain ⟨ha, hs⟩ := System.step_restrict.mp hs
    exact ⟨_, ih.step ha hs⟩

theorem reachable_quiet_conns (h : (system pool).Reachable s) :
    ((system pool).restrict fun s a => a.Quiet (fun e => e.isConn = true) s).Reachable s := by
  have hq : ∀ idx, ¬ (Endpoint.slot idx).isConn = true := fun _ h => by cases h
  refine h.invariant (fun _ h0 => .start h0) fun s a s' ih hs => .next a ih ?_
  refine System.step_restrict.mpr ⟨?_, hs⟩
  cases a with
  | loop o => exact Op.quiet_conns hq o
  | drain turns => exact quietBatch_conns hq _ _
  | _ => exact trivial

end Vortex.Dispatch
