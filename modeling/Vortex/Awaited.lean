import Vortex.Pins

/-! # Awaited calls

A call of `dispatchBlockingResult` makes a box, which `Settled` follows: it is referenced and
counted in `pendingBlockingResults` from the call on, travels with the task and with the message
of its completion, and is given back when `applyBlockingDone` has run its callback.  The box of a
call whose carrier was there (`AwaitedCall.served`) is done or on its way.

A box that is on its way gets done in a fair run in which no callback raises. -/

namespace Vortex.Dispatch

/-! ### What the operations of the application leave alone -/

/-- The updates of which the dispatch functions consist keep a property. -/
structure Stable (I : State → Prop) : Prop where
  modify : ∀ e f s, I s → I (s.modify e f)
  fault : ∀ s, I s → I { s with faulted := true }
  enqueue : ∀ h job s, I s → I (s.enqueue h job)
  push : ∀ ms s, I s → I (s.push ms)
  chunks : ∀ p s, I s → I { s with chunkPool := p }
  newBox : ∀ s, I s → I s.newBox
  complete : ∀ b s, I s → I (s.complete b)
  settle : ∀ b s, I s → I (s.settle b)
  noteCall : ∀ c s, I s → I (s.noteCall c)

section

variable {I : State → Prop} {pool : Bool} {s : State}

theorem Stable.releasePin (hI : Stable I) (h : I s) (e : Endpoint) (k : PinKind) :
    I (s.releasePin e k) := by
  unfold State.releasePin
  split_ifs
  · exact hI.modify _ _ _ h
  · exact hI.fault _ h

theorem Stable.dispatch (hI : Stable I) (h : I s) (r : Request) : I (dispatch pool r s) := by
  have hx := dispatch_exit pool r s
  generalize Dispatch.dispatch pool r s = s' at hx ⊢
  cases hx with
  | kept p => exact hI.chunks p s h
  | inline p hp hb => exact hI.push _ _ (hI.chunks p s h)
  | launch p hp hpin hbox hl => exact hI.enqueue _ _ _ (hI.modify _ _ _ (hI.chunks p s h))
  | stream hp hw => exact hI.enqueue _ _ _ h
  | dead hc => exact hI.noteCall _ _ (hI.settle _ _ (hI.newBox s h))
  | refused hc => exact hI.noteCall _ _ (hI.settle _ _ (hI.complete _ _ (hI.newBox s h)))
  | await hp hl hc =>
    exact hI.noteCall _ _ (hI.enqueue _ _ _ (hI.modify _ _ _ (hI.newBox s h)))
  | awaitInline hp hc => exact hI.noteCall _ _ (hI.push _ _ (hI.newBox s h))

/-- What the code of the application on the loop thread keeps, and the release of a pin. -/
structure Lasting (pool : Bool) (I : State → Prop) : Prop where
  runOps : ∀ os s, I s → I (runOps pool os s)
  unpin : ∀ x s, I s → I (unpin pool x s)

theorem Lasting.runOp (hI : Lasting pool I) (o : Op) (h : I s) : I (runOp pool o s) := by
  have h' := hI.runOps [o] s h
  rwa [Dispatch.runOps, Dispatch.runOps] at h'

theorem Lasting.afterRelease (hI : Lasting pool I) (e : Endpoint) (t : Turn) (h : I s) :
    I (afterRelease pool e t s).1 := by
  unfold Dispatch.afterRelease
  split_ifs
  · exact h
  · exact hI.runOp _ h
  · exact h
  · exact hI.runOps _ _ h

theorem Lasting.applyAnswer (hI : Lasting pool I) {m : OutMsg} (t : Turn)
    (h : I (s.record [if stale m s then .dropped m else .applied m])) :
    I (applyAnswer pool m t s).1 := by
  unfold Dispatch.applyAnswer
  split_ifs at h ⊢
  · exact h
  · split
    · exact hI.runOps _ _ h
    · exact hI.runOps _ _ h
    · split
      · split
        · exact hI.runOps _ _ h
        · exact hI.afterRelease _ _ h
      · exact hI.afterRelease _ _ (hI.unpin _ _ h)

theorem Stable.lasting (hI : Stable I) : Lasting pool I where
  runOps os s := runOps_induction (P := fun _ => True) (fun r _ _ h => hI.dispatch h r)
    (fun _ _ => hI.modify _ _ _) (fun _ _ => hI.modify _ _ _) hI.fault os s fun _ _ => trivial
  unpin x s h := by
    unfold Dispatch.unpin
    split_ifs
    · exact hI.releasePin h _ _
    · exact h

end

/-! ### The boxes -/

/-- The boxes that are on their way. -/
def State.awaiting (s : State) : List ℕ :=
  s.running.filterMap Task.box ++ (s.outbox ++ s.abandoned).filterMap OutMsg.box

/-- The boxes whose own callback raised. -/
def State.stuck (s : State) : List ℕ := s.halfApplied.filterMap OutMsg.box

/-- The boxes of the calls that are served. -/
def State.servedBoxes (s : State) : List ℕ :=
  (s.calls.filter AwaitedCall.served).map AwaitedCall.box

/-- Where the boxes are.  Those of `A` are in the messages that `processOutbox` has still to
apply, those of `C` in the one it is about to settle. -/
structure Settled (A C : List ℕ) (s : State) : Prop where
  made : (s.done ++ (A ++ s.awaiting)).Perm s.servedBoxes
  fresh : s.calls.map AwaitedCall.box = (List.range s.nextBox).reverse
  held : s.boxes.Perm (C ++ (A ++ s.awaiting) ++ s.stuck)
  counted : s.pendingBlockingResults = s.boxes.length
  called : ∀ b ∈ C ++ s.stuck, b ∈ s.done

section

variable {pool : Bool} {A C : List ℕ} {s s' w : State} {c : AwaitedCall}

theorem Settled.other (h : Settled A C s) (hw : w.awaiting.Perm s.awaiting)
    (hmade : w.done = s.done ∧ w.calls = s.calls) (hstuck : w.stuck = s.stuck)
    (hheld : w.boxes = s.boxes ∧ w.nextBox = s.nextBox ∧
      w.pendingBlockingResults = s.pendingBlockingResults) : Settled A C w where
  made := by
    rw [hmade.1, State.servedBoxes, hmade.2]
    exact (List.Perm.append_left _ (List.Perm.append_left A hw)).trans h.made
  fresh := by
    rw [hmade.2, hheld.2.1]
    exact h.fresh
  held := by
    rw [hheld.1, hstuck]
    exact h.held.trans
      (List.Perm.append_right _ (List.Perm.append_left C (List.Perm.append_left A hw.symm)))
  counted := by
    rw [hheld.2.2, hheld.1]
    exact h.counted
  called := by
    rw [hmade.1, hstuck]
    exact h.called

/-- What `Settled` looks at. -/
def State.boxView (s : State) :=
  (s.awaiting, s.done, s.calls, s.stuck, s.boxes, s.nextBox, s.pendingBlockingResults)

theorem Settled.congr (h : Settled A C s) (hv : s'.boxView = s.boxView) : Settled A C s' := by
  simp only [State.boxView, Prod.mk.injEq] at hv
  obtain ⟨hway, hdone, hcalls, hstuck, hheld⟩ := hv
  exact h.other (.of_eq hway) ⟨hdone, hcalls⟩ hstuck hheld

theorem awaiting_enqueue (h : Handle) (job : Job) (s : State) : (s.enqueue h job).awaiting.Perm
      ((Task.box ⟨s.nextTask, h, job⟩).toList ++ s.awaiting) := by
  have hone : List.filterMap Task.box [⟨s.nextTask, h, job⟩] =
      (Task.box ⟨s.nextTask, h, job⟩).toList := by
    cases hh : Task.box ⟨s.nextTask, h, job⟩ <;> simp [hh]
  simp only [State.awaiting, State.enqueue, List.filterMap_append, List.append_assoc, hone]
  exact List.perm_append_comm_assoc _ _ _

theorem awaiting_push (ms : List OutMsg) (s : State) :
    (s.push ms).awaiting.Perm (ms.filterMap OutMsg.box ++ s.awaiting) := by
  simp only [State.awaiting, State.push, List.filterMap_append, List.append_assoc]
  exact (List.Perm.append_left _ (List.perm_append_comm_assoc _ _ _)).trans
    (List.perm_append_comm_assoc _ _ _)

variable {b : ℕ} {m : OutMsg} {ts : List Turn}

theorem servedBoxes_cons (hw : w.calls = c :: s.calls) :
    w.servedBoxes = (if c.served then [c.box] else []) ++ s.servedBoxes := by
  rw [State.servedBoxes, hw, List.filter_cons]
  split_ifs <;> rfl

theorem Settled.fresh_cons (h : Settled A C s) (hw : w.calls = c :: s.calls)
    (hc : c.box = s.nextBox) (hn : w.nextBox = s.nextBox + 1) :
    w.calls.map AwaitedCall.box = (List.range w.nextBox).reverse := by
  rw [hw, hn, List.map_cons, h.fresh, hc, List.range_succ, List.reverse_append]
  rfl

theorem Settled.send (h : Settled A C s) (hb : c.box = s.nextBox) (hc : c.served = true)
    (hw : w.awaiting.Perm (s.nextBox :: s.awaiting))
    (hmade : w.done = s.done ∧ w.calls = c :: s.calls) (hstuck : w.stuck = s.stuck)
    (hheld : w.boxes = s.nextBox :: s.boxes ∧ w.nextBox = s.nextBox + 1 ∧
      w.pendingBlockingResults = s.pendingBlockingResults + 1) : Settled A C w where
  made := by
    rw [hmade.1, servedBoxes_cons hmade.2, if_pos hc, hb]
    refine (List.Perm.append_left _ (List.Perm.append_left A hw)).trans ?_
    refine (List.Perm.append_left _ List.perm_middle).trans ?_
    exact List.perm_middle.trans (List.Perm.cons _ h.made)
  fresh := h.fresh_cons hmade.2 hb hheld.2.1
  held := by
    rw [hheld.1, hstuck]
    refine (List.Perm.cons s.nextBox h.held).trans ?_
    refine List.Perm.trans ?_
      (List.Perm.append_right _ (List.Perm.append_left C (List.Perm.append_left A hw.symm)))
    simp only [List.append_assoc]
    rw [← List.append_assoc C, ← List.append_assoc C]
    exact List.perm_middle.symm
  counted := by
    rw [hheld.2.2, hheld.1, h.counted, List.length_cons]
  called := by
    rw [hmade.1, hstuck]
    exact h.called

theorem Settled.giveBack (h : Settled A C s) (hb : c.box = s.nextBox)
    (hw : w.done = (if c.served then [s.nextBox] else []) ++ s.done ∧ w.calls = c :: s.calls)
    (hway : w.awaiting = s.awaiting ∧ w.stuck = s.stuck)
    (hheld : w.boxes = s.boxes ∧ w.nextBox = s.nextBox + 1 ∧
      w.pendingBlockingResults = s.pendingBlockingResults) : Settled A C w where
  made := by
    rw [hw.1, hway.1, servedBoxes_cons hw.2, hb, List.append_assoc]
    exact List.Perm.append_left _ h.made
  fresh := h.fresh_cons hw.2 hb hheld.2.1
  held := by
    rw [hheld.1, hway.1, hway.2]
    exact h.held
  counted := by
    rw [hheld.2.2, hheld.1]
    exact h.counted
  called b hb' := by
    rw [hway.2] at hb'
    rw [hw.1]
    exact List.mem_append_right _ (h.called b hb')

theorem Settled.enqueue (h : Settled A C s) {hd : Handle} {job : Job}
    (hjob : Task.box ⟨s.nextTask, hd, job⟩ = none) : Settled A C (s.enqueue hd job) := by
  refine h.other ?_ ⟨rfl, rfl⟩ rfl ⟨rfl, rfl, rfl⟩
  refine (awaiting_enqueue hd job s).trans (.of_eq ?_)
  rw [hjob]
  rfl

theorem Settled.push (h : Settled A C s) {ms : List OutMsg}
    (hms : ms.filterMap OutMsg.box = []) : Settled A C (s.push ms) := by
  refine h.other ?_ ⟨rfl, rfl⟩ rfl ⟨rfl, rfl, rfl⟩
  refine (awaiting_push ms s).trans (.of_eq ?_)
  rw [hms]
  rfl

theorem settle_newBox (s : State) :
    s.newBox.settle s.nextBox = { s with nextBox := s.nextBox + 1 } := by
  simp [State.newBox, State.settle]

theorem Settled.dispatch (h : Settled A C s) (r : Request) : Settled A C (dispatch pool r s) := by
  have hx := dispatch_exit pool r s
  generalize Dispatch.dispatch pool r s = s' at hx ⊢
  cases hx with
  | kept p => exact h.congr rfl
  | inline p hp hb =>
    have h1 : Settled A C { s with chunkPool := p } := h.congr rfl
    exact h1.push hb
  | @launch p k job hp hpin hbox hl =>
    have h1 : Settled A C ({ s with chunkPool := p }.acquirePin r.handle.dest k) :=
      h.congr rfl
    exact h1.enqueue hbox
  | stream hp hw => exact h.enqueue rfl
  | dead hc =>
    rw [settle_newBox]
    exact h.giveBack (c := s.awaitedCall pool r.handle) rfl ⟨by rw [hc]; rfl, rfl⟩ ⟨rfl, rfl⟩
      ⟨rfl, rfl, rfl⟩
  | refused hc =>
    rw [show (s.newBox.complete s.nextBox).settle s.nextBox =
      (s.newBox.settle s.nextBox).complete s.nextBox from rfl, settle_newBox]
    exact h.giveBack (c := s.awaitedCall pool r.handle) rfl ⟨by rw [hc]; rfl, rfl⟩ ⟨rfl, rfl⟩
      ⟨rfl, rfl, rfl⟩
  | await hp hl hc =>
    exact h.send rfl hc (awaiting_enqueue r.handle (.await s.nextBox)
      (s.newBox.acquirePin r.handle.dest .await)) ⟨rfl, rfl⟩ rfl ⟨rfl, rfl, rfl⟩
  | awaitInline hp hc =>
    exact h.send rfl hc (awaiting_push [⟨.blockingDone s.nextBox, r.handle⟩] s.newBox)
      ⟨rfl, rfl⟩ rfl ⟨rfl, rfl, rfl⟩

/-! ### Messages and tasks -/

theorem settled_lasting : Lasting pool (Settled A C) where
  runOps os s := runOps_induction (P := fun _ => True) (fun r _ _ h => h.dispatch r)
    (fun _ _ h => h.congr rfl) (fun _ _ h => h.congr rfl) (fun _ h => h.congr rfl) os s
    fun _ _ => trivial
  unpin x s h := by
    unfold Dispatch.unpin State.releasePin
    split_ifs
    · exact h.congr rfl
    · exact h.congr rfl
    · exact h

theorem Settled.record (h : Settled A C s) (es : List Effect) : Settled A C (s.record es) :=
  h.congr rfl

theorem Settled.complete (h : Settled (b :: A) C s) : Settled A (b :: C) (s.complete b) where
  made := by
    refine List.Perm.trans ?_ h.made
    simp only [State.complete, List.cons_append]
    exact List.perm_middle.symm
  held := by
    refine h.held.trans (List.Perm.append_right _ ?_)
    simp only [List.cons_append]
    exact List.perm_middle
  fresh := h.fresh
  counted := h.counted
  called b' hb := by
    rcases List.mem_cons.mp hb with rfl | hb
    · exact List.mem_cons_self
    · exact List.mem_cons_of_mem _ (h.called b' hb)

theorem Settled.settle (h : Settled A (b :: C) s) : Settled A C (s.settle b) := by
  have hb : b ∈ s.boxes := h.held.mem_iff.mpr (by simp)
  refine ⟨h.made, h.fresh, ?_, ?_, fun b' hb' => h.called b' (List.mem_cons_of_mem _ hb')⟩
  · have := h.held.erase b
    simp only [List.cons_append, List.erase_cons_head] at this
    exact this
  · change s.pendingBlockingResults - 1 = (s.boxes.erase b).length
    rw [List.length_erase_of_mem hb, h.counted]

theorem Settled.applyBlockingDone (h : Settled (b :: A) [] s) (hm : m.box = some b) (t : Turn) :
    Settled A [] (applyBlockingDone pool m b t s).1 := by
  have h1 : Settled A [b] (Dispatch.runOps pool t.onDone.ops
      ((s.complete b).record [.applied m])) :=
    settled_lasting.runOps _ _ (h.complete.record [.applied m])
  unfold Dispatch.applyBlockingDone
  dsimp only
  split_ifs
  · refine ⟨h1.made, h1.fresh, ?_, h1.counted, fun b' hb' => h1.called b' ?_⟩
    swap
    · simpa [State.stuck, hm] using hb'
    refine h1.held.trans ?_
    simp only [State.stuck, List.filterMap_cons, hm, List.nil_append, List.cons_append]
    exact List.perm_middle.symm
  · exact h1.settle
  · exact settled_lasting.afterRelease _ _ (settled_lasting.unpin _ _ h1.settle)

theorem Settled.applyMessage (h : Settled (m.box.toList ++ A) [] s) (t : Turn) :
    Settled A [] (applyMessage pool m t s).1 := by
  cases hk : m.kind with
  | blockingDone b =>
    have hm : m.box = some b := by simp [OutMsg.box, hk]
    rw [hm] at h
    simp only [Dispatch.applyMessage, hk]
    exact h.applyBlockingDone hm t
  | _ =>
    have hm : m.box = none := by simp [OutMsg.box, hk]
    rw [hm] at h
    simp only [Dispatch.applyMessage, hk]
    exact settled_lasting.applyAnswer t (Settled.record h _)

theorem box_cons (m : OutMsg) (ms : List OutMsg) :
    (m :: ms).filterMap OutMsg.box = m.box.toList ++ ms.filterMap OutMsg.box := by
  cases hm : m.box <;> simp [hm]

theorem Settled.applyBatch {ms : List OutMsg} (h : Settled (ms.filterMap OutMsg.box) [] s)
    (ts : List Turn) : Settled [] [] (applyBatch pool ms ts s).1 := by
  induction ms generalizing s ts with
  | nil => exact h
  | cons m rest ih =>
    rw [box_cons] at h
    have h' : Settled (rest.filterMap OutMsg.box) []
        (Dispatch.applyMessage pool m (ts.headD {}) s).1 := h.applyMessage (ts.headD {})
    simp only [Dispatch.applyBatch]
    split
    · rename_i s' he
      rw [he] at h'
      have hway : (rest.filterMap OutMsg.box ++ s'.awaiting).Perm
          ({ s' with abandoned := rest ++ s'.abandoned } : State).awaiting := by
        simp only [State.awaiting, List.filterMap_append]
        refine (List.perm_append_comm_assoc _ _ _).trans (List.Perm.append_left _ ?_)
        exact List.perm_append_comm_assoc _ _ _
      exact ⟨(List.Perm.append_left _ hway.symm).trans h'.made, h'.fresh,
        h'.held.trans (List.Perm.append_right _ hway), h'.counted, h'.called⟩
    · rename_i s' he
      rw [he] at h'
      exact ih h' ts.tail

theorem Settled.returnBuffers (h : Settled A C s) (ms : List OutMsg) :
    Settled A C (returnBuffers ms s) := by
  unfold Dispatch.returnBuffers
  induction ms.filterMap OutMsg.buffer generalizing s with
  | nil => exact h
  | cons buf rest ih => exact ih (h.congr rfl)

theorem Settled.takeOutbox (h : Settled [] [] s) :
    Settled (s.outbox.filterMap OutMsg.box) [] { s with outbox := [] } := by
  have hway : (s.outbox.filterMap OutMsg.box ++ ({ s with outbox := [] } : State).awaiting).Perm
      s.awaiting := by
    simp only [State.awaiting, List.filterMap_append, List.nil_append]
    exact List.perm_append_comm_assoc _ _ _
  exact ⟨(List.Perm.append_left _ hway).trans h.made, h.fresh,
    h.held.trans (List.Perm.append_right _ hway.symm), h.counted, h.called⟩

theorem Settled.processOutbox (h : Settled [] [] s) (ts : List Turn) :
    Settled [] [] (processOutbox pool ts s) := by
  have h' : Settled [] [] (Dispatch.applyBatch pool s.outbox ts { s with outbox := [] }).1 :=
    h.takeOutbox.applyBatch ts
  unfold Dispatch.processOutbox
  split
  · rename_i s' he
    rw [he] at h'
    exact h'
  · rename_i s' he
    rw [he] at h'
    exact h'.returnBuffers _

theorem box_sendRaw {l : Latch} (hl : l.pushed.filterMap OutMsg.box = []) (h : Handle)
    (rel : RelKind) (v : Via) : (sendRaw h rel v l).pushed.filterMap OutMsg.box = [] := by
  have hhttp : ∀ (rel : RelKind) (h' : Handle), OutMsg.box ⟨.http rel, h'⟩ = none :=
    fun _ _ => rfl
  cases v with
  | other h' => simp [sendRaw, hl, hhttp]
  | own | twin =>
    simp only [sendRaw]
    split_ifs <;> simp [hl, hhttp]

theorem box_sendAll (h : Handle) (rel : RelKind) (via : List Via) :
    (sendAll h rel via {}).pushed.filterMap OutMsg.box = [] :=
  List.foldlRecOn (motive := fun l : Latch => l.pushed.filterMap OutMsg.box = []) via _ rfl
    fun _ hl v _ => box_sendRaw hl h rel v

theorem box_runWorkerBody {h : Handle} {file : OutMsgKind} (hfile : OutMsg.box ⟨file, h⟩ = none)
    (rel : RelKind) (b : Body) : (runWorkerBody h rel file b).filterMap OutMsg.box = [] := by
  have hone : [(⟨file, h⟩ : OutMsg)].filterMap OutMsg.box = [] := by simp [hfile]
  obtain ⟨l, hl, -, he⟩ := runWorkerBody_induction (b := b)
    (P := fun l => l.pushed.filterMap OutMsg.box = []) (fun _ hl => box_sendRaw hl h rel .own) hone
    fun via _ _ => box_sendAll h rel via
  rw [he]
  exact hl

theorem box_trampoline (t : Task) (b : Body) :
    (trampoline t b).filterMap OutMsg.box = t.box.toList := by
  obtain ⟨n, h, job⟩ := t
  cases job with
  | blocking | fileChunk => exact box_runWorkerBody rfl _ _
  | await box =>
    cases b with
    | answers via raises =>
      simp only [trampoline, List.filterMap_append, box_sendAll h .none via]
      rfl
    | file raises => rfl
  | wsBlocking =>
    cases b with
    | answers via raises =>
      simp only [trampoline, List.filterMap_append, List.filterMap_map]
      simp [Function.comp_def, OutMsg.box, Task.box]
    | file raises => rfl

theorem Settled.finishTask (h : Settled A C s) {t : Task} (ht : t ∈ s.running) (b : Body) :
    Settled A C (finishTask t b s) := by
  refine h.other ?_ ⟨rfl, rfl⟩ rfl ⟨rfl, rfl, rfl⟩
  have hrun : (s.running.filterMap Task.box).Perm
      (t.box.toList ++ (s.running.erase t).filterMap Task.box) := by
    refine ((List.perm_cons_erase ht).filterMap Task.box).trans (.of_eq ?_)
    cases hh : t.box <;> simp [hh]
  simp only [State.awaiting, Dispatch.finishTask, List.filterMap_append, box_trampoline,
    List.append_assoc]
  refine List.Perm.trans ?_ (hrun.append_right _).symm
  rw [List.append_assoc]
  exact (List.Perm.append_left _ (List.perm_append_comm_assoc _ _ _)).trans
    (List.perm_append_comm_assoc _ _ _)

theorem Settled.step {a : Action} (h : Settled [] [] s) (hs : step pool s a = some s') :
    Settled [] [] s' := by
  cases a with
  | accept e =>
    rcases acceptAt_eq hs with ⟨f, rfl⟩ | rfl
    · exact h.congr rfl
    · exact h.congr rfl
  | request fd =>
    simp only [Dispatch.step, Option.ite_none_right_eq_some, Option.some.injEq] at hs
    obtain ⟨-, rfl⟩ := hs
    exact h.congr rfl
  | loop o =>
    cases hs
    exact settled_lasting.runOp o h
  | send hd ws =>
    cases hs
    refine h.push ?_
    cases ws <;> rfl
  | finish t b =>
    simp only [Dispatch.step, Option.ite_none_right_eq_some, Option.some.injEq] at hs
    obtain ⟨ht, rfl⟩ := hs
    exact h.finishTask ht b
  | drain turns =>
    simp only [Dispatch.step, Option.ite_none_left_eq_some, Option.some.injEq] at hs
    obtain ⟨-, rfl⟩ := hs
    exact h.processOutbox turns

end

variable {s : State}

/-- **The box of every served call is done or on its way**, and the pending results are the boxes
that are held. -/
theorem settled_of_reachable {pool : Bool} (h : (system pool).Reachable s) : Settled [] [] s := by
  refine h.invariant (I := Settled [] []) (fun s hs => ?_) fun s a s' ih hs => ih.step hs
  cases hs
  exact ⟨.refl _, rfl, .refl _, rfl, nofun⟩

theorem Settled.count_le (h : Settled [] [] s) (b : ℕ) :
    s.done.count b + s.awaiting.count b ≤ 1 := by
  have hnodup : s.servedBoxes.Nodup := by
    refine List.Nodup.sublist (List.Sublist.map _ List.filter_sublist) ?_
    rw [h.fresh, List.nodup_reverse]
    exact List.nodup_range
  rw [← List.count_append]
  refine le_trans (le_of_eq (h.made.count_eq b)) ?_
  exact List.nodup_iff_count_le_one.mp hnodup b

theorem Settled.not_mem_done (h : Settled [] [] s) {b : ℕ} (hb : b ∈ s.awaiting) : b ∉ s.done := by
  intro hd
  have := h.count_le b
  have := List.count_pos_iff.mpr hb
  have := List.count_pos_iff.mpr hd
  omega

/-! ### Nothing is lost while no callback raises -/

/-- Tasks and messages are only added, and callbacks are only run. -/
structure Grown (s s' : State) : Prop where
  running : s.running <+: s'.running
  outbox : s.outbox <+: s'.outbox
  done : s.done <:+ s'.done
  abandoned : s'.abandoned = s.abandoned
  halfApplied : s'.halfApplied = s.halfApplied

theorem Grown.kept {s' : State} (hr : s'.running = s.running) (ho : s'.outbox = s.outbox)
    (hd : s'.done = s.done) (ha : s'.abandoned = s.abandoned)
    (hh : s'.halfApplied = s.halfApplied) : Grown s s' :=
  ⟨hr ▸ List.prefix_rfl, ho ▸ List.prefix_rfl, hd ▸ List.suffix_rfl, ha, hh⟩

theorem Grown.refl (s : State) : Grown s s := .kept rfl rfl rfl rfl rfl

theorem Grown.trans {s' s'' : State} (h : Grown s s') (h' : Grown s' s'') : Grown s s'' :=
  ⟨h.running.trans h'.running, h.outbox.trans h'.outbox, h.done.trans h'.done,
    h'.abandoned.trans h.abandoned, h'.halfApplied.trans h.halfApplied⟩

theorem stable_grown (s0 : State) : Stable (Grown s0) where
  modify _ _ _ h := h.trans (.kept rfl rfl rfl rfl rfl)
  fault _ h := h.trans (.kept rfl rfl rfl rfl rfl)
  enqueue _ _ _ h := h.trans ⟨List.prefix_append _ _, List.prefix_rfl, List.suffix_rfl, rfl, rfl⟩
  push _ _ h := h.trans ⟨List.prefix_rfl, List.prefix_append _ _, List.suffix_rfl, rfl, rfl⟩
  chunks _ _ h := h.trans (.kept rfl rfl rfl rfl rfl)
  newBox _ h := h.trans (.kept rfl rfl rfl rfl rfl)
  complete _ _ h := h.trans ⟨List.prefix_rfl, List.prefix_rfl, List.suffix_cons _ _, rfl, rfl⟩
  settle _ _ h := h.trans (.kept rfl rfl rfl rfl rfl)
  noteCall _ _ h := h.trans (.kept rfl rfl rfl rfl rfl)

section

variable {pool : Bool} {s : State} {t : Turn}

theorem grown_lasting (s0 : State) : Lasting pool (Grown s0) := (stable_grown s0).lasting

theorem Grown.record (es : List Effect) (s : State) : Grown s (s.record es) :=
  .kept rfl rfl rfl rfl rfl

theorem Grown.applyBlockingDone (h : (applyBlockingDone pool m b t s).2 = false) :
    Grown (s.complete b) (applyBlockingDone pool m b t s).1 := by
  have h1 : Grown (s.complete b) (Dispatch.runOps pool t.onDone.ops
      ((s.complete b).record [.applied m])) :=
    (grown_lasting _).runOps _ _ (.record _ _)
  unfold Dispatch.applyBlockingDone at h ⊢
  dsimp only at h ⊢
  generalize Dispatch.runOps pool t.onDone.ops
    ((s.complete b).record [.applied m]) = s1 at h h1 ⊢
  have h2 : Grown (s.complete b) (s1.settle b) := (stable_grown _).settle b s1 h1
  split_ifs at h ⊢
  · exact h2
  · exact (grown_lasting _).afterRelease _ _ ((grown_lasting _).unpin _ _ h2)

theorem Grown.applyMessage (h : (applyMessage pool m t s).2 = false) :
    Grown s (applyMessage pool m t s).1 ∧
      ∀ b, m.box = some b → b ∈ (applyMessage pool m t s).1.done := by
  cases hk : m.kind with
  | blockingDone b =>
    simp only [Dispatch.applyMessage, hk] at h ⊢
    have hg := Grown.applyBlockingDone h
    refine ⟨((stable_grown s).complete b s (.refl s)).trans hg, fun b' hb => ?_⟩
    have : b = b' := by simpa [OutMsg.box, hk] using hb
    subst this
    exact hg.done.subset List.mem_cons_self
  | _ =>
    simp only [Dispatch.applyMessage, hk]
    exact ⟨(grown_lasting s).applyAnswer _ (.record _ s), fun b hb => by
      simp [OutMsg.box, hk] at hb⟩

theorem Grown.returnBuffers (ms : List OutMsg) (s : State) : Grown s (returnBuffers ms s) := by
  unfold Dispatch.returnBuffers
  generalize ms.filterMap OutMsg.buffer = bufs
  induction bufs generalizing s with
  | nil => exact .refl s
  | cons buf rest ih =>
    have h : Grown s (s.chunkReturn buf) := .kept rfl rfl rfl rfl rfl
    exact h.trans (ih _)

theorem Grown.applyBatch {ms : List OutMsg} (h : (applyBatch pool ms ts s).2 = false) :
    Grown s (applyBatch pool ms ts s).1 ∧
      ∀ b ∈ ms.filterMap OutMsg.box, b ∈ (applyBatch pool ms ts s).1.done := by
  induction ms generalizing s ts with
  | nil => exact ⟨.refl s, nofun⟩
  | cons m rest ih =>
    simp only [Dispatch.applyBatch] at h ⊢
    split at h
    · cases h
    · rename_i s' he
      have hcalm : (Dispatch.applyMessage pool m (ts.headD {}) s).2 = false := by rw [he]
      obtain ⟨hg, hdone⟩ := Grown.applyMessage hcalm
      rw [he] at hg hdone
      obtain ⟨hg', hdone'⟩ := ih h
      refine ⟨hg.trans hg', fun b hb => ?_⟩
      rw [box_cons, List.mem_append, Option.mem_toList] at hb
      rcases hb with hb | hb
      · exact hg'.done.subset (hdone b hb)
      · exact hdone' b hb

/-- The code at a message returns normally. -/
def Turn.Calm (t : Turn) : Prop := t.onDone.raises = false ∧ t.hook.raises = false

theorem afterRelease_raised {e : Endpoint} (h : (afterRelease pool e t s).2 = true) :
    (afterRelease pool e t s).1.faulted = true ∨ t.hook.raises = true := by
  unfold afterRelease at h ⊢
  split_ifs at h ⊢ with h1
  · exact .inl h1
  · exact .inl h
  · exact (Bool.or_eq_true _ _).mp h

theorem applyAnswer_raised (h : (applyAnswer pool m t s).2 = true) :
    (applyAnswer pool m t s).1.faulted = true ∨ t.hook.raises = true := by
  unfold applyAnswer at h ⊢
  split_ifs at h ⊢
  split at h
  · exact (Bool.or_eq_true _ _).mp h
  · exact (Bool.or_eq_true _ _).mp h
  · split at h
    · split at h
      · exact (Bool.or_eq_true _ _).mp h
      · exact afterRelease_raised h
    · exact afterRelease_raised h

theorem applyMessage_raised (h : (applyMessage pool m t s).2 = true) (ht : t.Calm) :
    (applyMessage pool m t s).1.faulted = true := by
  unfold applyMessage at h ⊢
  split at h
  · unfold applyBlockingDone at h ⊢
    dsimp only at h ⊢
    split_ifs at h ⊢ with h1
    · simpa [ht.1] using h1
    · exact (afterRelease_raised h).resolve_right (by simp [ht.2])
  · exact (applyAnswer_raised h).resolve_right (by simp [ht.2])

theorem applyBatch_calm {q : Endpoint → Prop} {B : List Hold} {ms : List OutMsg}
    (h : Pinned q (heldBy pool ms ++ (B ++ s.pledged pool)) s) (hq : QuietBatch q ms ts)
    (ht : ∀ t ∈ ts, t.Calm) : (applyBatch pool ms ts s).2 = false := by
  induction ms generalizing s ts with
  | nil => rfl
  | cons m rest ih =>
    have hcalm : (ts.headD {}).Calm := by
      cases ts with
      | nil => exact ⟨rfl, rfl⟩
      | cons t ts => exact ht t List.mem_cons_self
    rw [heldBy_cons, List.append_assoc, ← List.append_assoc (heldBy pool rest)] at h
    have h' := h.applyMessage hq.1
    rw [Agrees, List.append_assoc] at h'
    simp only [applyBatch]
    split
    · rename_i s' he
      have hraise : (applyMessage pool m (ts.headD {}) s).2 = true := by rw [he]
      have hf := applyMessage_raised hraise hcalm
      rw [h'.noFault] at hf
      cases hf
    · rename_i s' he
      rw [he] at h'
      exact ih h' hq.2 fun t h => ht t (List.mem_of_mem_tail h)

theorem batch_not_raised (h : (system pool).Reachable s) (ht : ∀ t ∈ ts, t.Calm) :
    (applyBatch pool s.outbox ts { s with outbox := [] }).2 = false := by
  obtain ⟨B, hB⟩ := exists_agrees (reachable_quiet_conns h)
  exact applyBatch_calm hB.takeOutbox (quietBatch_conns (fun _ h => by cases h) _ _) ht

/-- **A batch in which no callback raises** is applied to its end. -/
theorem processOutbox_calm (h : (system pool).Reachable s) (ht : ∀ t ∈ ts, t.Calm) :
    Grown { s with outbox := [] } (processOutbox pool ts s) ∧
      ∀ b ∈ s.outbox.filterMap OutMsg.box, b ∈ (processOutbox pool ts s).done := by
  have hraise := batch_not_raised h ht
  obtain ⟨hg, hdone⟩ := Grown.applyBatch hraise
  unfold processOutbox
  split
  · rename_i s' he
    rw [he] at hraise
    cases hraise
  · rename_i s' he
    rw [he] at hg hdone
    have hb := Grown.returnBuffers s.outbox s'
    exact ⟨hg.trans hb, fun b hm => hb.done.subset (hdone b hm)⟩

end

/-! ### Fair runs -/

inductive Thread where
  | loop
  | worker (t : Task)
deriving DecidableEq

/-- Whose turn an action is; connections and the application come and go as they like. -/
def thread : Action → Option Thread
  | .finish t _ => some (.worker t)
  | .drain _ => some .loop
  | _ => none

/-- No callback raises while the outbox is emptied. -/
def Action.Calm : Action → Prop
  | .drain turns => ∀ t ∈ turns, t.Calm
  | _ => True

section

variable {pool : Bool} {s s' : State} {a : Action}

/-- What an action does to the tasks, the messages and the boxes that are done. -/
structure Advanced (a : Action) (s s' : State) : Prop where
  running : ∀ t ∈ s.running, t ∈ s'.running ∨
    ∃ b, a = .finish t b ∧ s'.outbox = s.outbox ++ trampoline t b
  outbox : s.outbox <+: s'.outbox ∨
    ∃ turns, a = .drain turns ∧ ∀ b ∈ s.outbox.filterMap OutMsg.box, b ∈ s'.done
  done : s.done <:+ s'.done
  abandoned : s'.abandoned = s.abandoned
  halfApplied : s'.halfApplied = s.halfApplied

theorem Grown.advanced (h : Grown s s') : Advanced a s s' :=
  ⟨fun _ ht => .inl (h.running.subset ht), .inl h.outbox, h.done, h.abandoned, h.halfApplied⟩

theorem step_advanced (hr : (system pool).Reachable s) (ha : a.Calm)
    (hs : step pool s a = some s') : Advanced a s s' := by
  cases a with
  | accept e =>
    rcases acceptAt_eq hs with ⟨f, rfl⟩ | rfl
    · exact Grown.advanced (.kept rfl rfl rfl rfl rfl)
    · exact Grown.advanced (.kept rfl rfl rfl rfl rfl)
  | request fd =>
    simp only [step, Option.ite_none_right_eq_some, Option.some.injEq] at hs
    obtain ⟨-, rfl⟩ := hs
    exact Grown.advanced (.kept rfl rfl rfl rfl rfl)
  | loop o =>
    cases hs
    exact ((grown_lasting s).runOp o (.refl s)).advanced
  | send hd ws =>
    cases hs
    exact ((stable_grown s).push _ s (.refl s)).advanced
  | finish t b =>
    simp only [step, Option.ite_none_right_eq_some, Option.some.injEq] at hs
    obtain ⟨ht, rfl⟩ := hs
    refine ⟨fun t' ht' => ?_, .inl (List.prefix_append _ _), List.suffix_rfl, rfl, rfl⟩
    by_cases heq : t' = t
    · subst heq
      exact .inr ⟨b, rfl, rfl⟩
    · exact .inl ((List.mem_erase_of_ne heq).mpr ht')
  | drain turns =>
    simp only [step, Option.ite_none_left_eq_some, Option.some.injEq] at hs
    obtain ⟨-, rfl⟩ := hs
    obtain ⟨hg, hdone⟩ := processOutbox_calm hr ha
    exact ⟨fun t ht => .inl (hg.running.subset ht), .inr ⟨turns, rfl, hdone⟩, hg.done,
      hg.abandoned, hg.halfApplied⟩

end

section

variable {pool : Bool} {r : (system pool).Run} {t : ℕ}

theorem nothing_lost (hcalm : ∀ t a, r.action t = some a → a.Calm) (t : ℕ) :
    (r.state t).abandoned = [] ∧ (r.state t).halfApplied = [] := by
  refine r.stays (I := fun s => s.abandoned = [] ∧ s.halfApplied = []) t.zero_le ?_
    fun v a ha ih => ?_
  · have h0 : r.state 0 = {} := r.start
    rw [h0]
    exact ⟨rfl, rfl⟩
  · have h := step_advanced (r.reachable v) (hcalm v a ha) (r.moves v a ha)
    exact ⟨h.abandoned.trans ih.1, h.halfApplied.trans ih.2⟩

theorem done_mono (hcalm : ∀ t a, r.action t = some a → a.Calm) {u : ℕ} (h : t ≤ u) :
    (r.state t).done <:+ (r.state u).done :=
  r.stays (I := fun s => (r.state t).done <:+ s.done) h List.suffix_rfl fun v a ha ih =>
    ih.trans (step_advanced (r.reachable v) (hcalm v a ha) (r.moves v a ha)).done

theorem queued_of_running (hf : r.Fair thread) (hcalm : ∀ t a, r.action t = some a → a.Calm)
    {task : Task} (hb : task.box = some b) (h : task ∈ (r.state t).running) :
    ∃ u, t ≤ u ∧ b ∈ (r.state u).outbox.filterMap OutMsg.box := by
  refine System.Run.leadsTo (Q := fun s : State => b ∈ s.outbox.filterMap OutMsg.box) hf
    (P := fun s => task ∈ s.running) (A := Action.Calm) (fun _ => 0) (fun _ => .worker task)
    (fun s _ hs => ?_) (fun s a s' hr hs ha hstep => ?_) (fun u a _ => hcalm u a) h
  · refine ⟨.finish task (.answers [] false), rfl, ?_⟩
    simp only [system, step, if_pos hs, Option.isSome_some]
  · rcases (step_advanced hr ha hstep).running task hs with h' | ⟨body, rfl, ho⟩
    · by_cases hw : thread a = some (.worker task)
      · left
        cases a with
        | finish t' body =>
          cases hw
          simp only [system, step, if_pos hs, Option.some.injEq] at hstep
          subst hstep
          simp [finishTask, List.filterMap_append, box_trampoline, hb]
        | _ => cases hw
      · exact .inr ⟨h', .inr ⟨rfl, rfl, hw⟩⟩
    · left
      rw [ho, List.filterMap_append, box_trampoline, hb]
      simp

theorem done_of_queued (hf : r.Fair thread) (hcalm : ∀ t a, r.action t = some a → a.Calm)
    (h : b ∈ (r.state t).outbox.filterMap OutMsg.box) : ∃ u, t ≤ u ∧ b ∈ (r.state u).done := by
  refine System.Run.leadsTo (Q := fun s : State => b ∈ s.done) hf
    (P := fun s => b ∈ s.outbox.filterMap OutMsg.box) (A := Action.Calm) (fun _ => 0)
    (fun _ => .loop) (fun s _ hs => ?_) (fun s a s' hr hs ha hstep => ?_)
    (fun u a _ => hcalm u a) h
  · refine ⟨.drain [], rfl, ?_⟩
    have hne : s.outbox ≠ [] := by
      intro hnil
      rw [hnil] at hs
      cases hs
    simp only [system, step, if_neg hne, Option.isSome_some]
  · rcases (step_advanced hr ha hstep).outbox with h' | ⟨turns, rfl, hdone⟩
    · by_cases hw : thread a = some .loop
      · cases a with
        | drain turns =>
          simp only [system, step, Option.ite_none_left_eq_some, Option.some.injEq] at hstep
          obtain ⟨-, rfl⟩ := hstep
          exact .inl ((processOutbox_calm hr ha).2 b hs)
        | _ => cases hw
      · exact .inr ⟨(h'.filterMap _).subset hs, .inr ⟨rfl, rfl, hw⟩⟩
    · exact .inl (hdone b hs)

/-- **Awaited calls complete.**  In a fair run in which no callback raises, every call that found
its carrier there, or no pool, gets its callback exactly once; from then on its box is given back,
and the pending results are those of other calls. -/
theorem awaited_calls_complete (hf : r.Fair thread) (hcalm : ∀ t a, r.action t = some a → a.Calm)
    {c : AwaitedCall} (hc : c ∈ (r.state t).calls) (hserved : c.served = true) :
    ∃ u, t ≤ u ∧ ∀ v, u ≤ v → (r.state v).done.count c.box = 1 ∧ c.box ∉ (r.state v).boxes ∧
      (r.state v).pendingBlockingResults = (r.state v).boxes.length := by
  have hmem : c.box ∈ (r.state t).done ∨ c.box ∈ (r.state t).awaiting := by
    have hs := settled_of_reachable (r.reachable t)
    have hbox : c.box ∈ (r.state t).servedBoxes :=
      List.mem_map_of_mem (List.mem_filter.mpr ⟨hc, hserved⟩)
    exact List.mem_append.mp (hs.made.mem_iff.mpr hbox)
  have hdone : ∃ u, t ≤ u ∧ c.box ∈ (r.state u).done := by
    rcases hmem with h | h
    · exact ⟨t, le_rfl, h⟩
    · rw [State.awaiting, (nothing_lost hcalm t).1, List.append_nil, List.mem_append] at h
      rcases h with h | h
      · obtain ⟨task, htask, hbox⟩ := List.mem_filterMap.mp h
        obtain ⟨u, hu, hq⟩ := queued_of_running hf hcalm hbox htask
        obtain ⟨v, hv, hd⟩ := done_of_queued hf hcalm hq
        exact ⟨v, hu.trans hv, hd⟩
      · exact done_of_queued hf hcalm h
  obtain ⟨u, hu, hd⟩ := hdone
  refine ⟨u, hu, fun v hv => ?_⟩
  have hs := settled_of_reachable (r.reachable v)
  have hcount := hs.count_le c.box
  have hpos : 0 < (r.state v).done.count c.box :=
    List.count_pos_iff.mpr ((done_mono hcalm hv).subset hd)
  refine ⟨by omega, fun hbox => ?_, hs.counted⟩
  refine hs.not_mem_done ?_ ((done_mono hcalm hv).subset hd)
  simpa [State.stuck, (nothing_lost hcalm v).2] using hs.held.mem_iff.mp hbox

end

theorem not_enabled {pool : Bool} (hr : s.running = []) (ho : s.outbox = []) (k : Thread) :
    ¬ (system pool).Enabled thread k s := by
  rintro ⟨a, hk, ha⟩
  cases a with
  | finish t b => simp [system, step, hr] at ha
  | drain turns => simp [system, step, ho] at ha
  | _ => cases hk

/-- The first request on the first connection. -/
def connHandle : Handle := { dest := .conn 0, gen := 0, serial := 1 }

/-- A call on a live connection; its body raises. -/
def awaitLive : List Action :=
  [.accept (.conn 0), .loop (.dispatch { handle := connHandle, call := .await }),
    .finish ⟨0, connHandle, .await 0⟩ (.answers [] true), .drain []]

theorem execute_awaitLive : ∃ s, (system true).execute awaitLive {} = some s ∧
    s.running = [] ∧ s.outbox = [] :=
  ⟨_, rfl, rfl, rfl⟩

def awaitLiveRun : (system true).Run :=
  .ofActions awaitLive rfl (by
    obtain ⟨s, h, -⟩ := execute_awaitLive
    rw [h]
    rfl)

theorem awaited_calls_complete_awaitLive :
    ∃ u, 2 ≤ u ∧ ∀ v, u ≤ v → (awaitLiveRun.state v).done.count 0 = 1 ∧
      0 ∉ (awaitLiveRun.state v).boxes ∧ (awaitLiveRun.state v).pendingBlockingResults =
        (awaitLiveRun.state v).boxes.length := by
  obtain ⟨s, h, hr, ho⟩ := execute_awaitLive
  refine awaited_calls_complete (r := awaitLiveRun) (System.Run.fair_ofActions rfl h
    (not_enabled hr ho)) (c := ⟨0, connHandle, ((awaitLiveRun.state 1).carriers (.conn 0)), true⟩)
    (fun t a ha => ?_) List.mem_cons_self rfl
  have hmem : a ∈ awaitLive := List.mem_of_getElem? ha
  simp only [awaitLive, List.mem_cons, List.not_mem_nil, or_false] at hmem
  rcases hmem with rfl | rfl | rfl | rfl
  · trivial
  · trivial
  · trivial
  · exact nofun

/-! ### A call whose carrier is gone -/

/-- The connection is closed, and the handler calls through the handle it kept. -/
def awaitDead : List Action :=
  [.accept (.conn 0), .loop (.close (.conn 0) []),
    .loop (.dispatch { handle := connHandle, call := .await })]

theorem execute_awaitDead : ∃ s, (system true).execute awaitDead {} = some s ∧
    s.running = [] ∧ s.outbox = [] ∧ s.done = [] ∧ s.calls.map AwaitedCall.box = [0] :=
  ⟨_, rfl, rfl, rfl, rfl, rfl⟩

def awaitDeadRun : (system true).Run :=
  .ofActions awaitDead rfl (by
    obtain ⟨s, h, -⟩ := execute_awaitDead
    rw [h]
    rfl)

/-- An awaited call on a connection that is gone never gets its callback, although every thread
goes on and no code raises. -/
theorem awaited_call_forgotten :
    awaitDeadRun.Fair thread ∧ (∀ t a, awaitDeadRun.action t = some a → a.Calm) ∧
      (awaitDeadRun.state 3).calls.map AwaitedCall.box = [0] ∧
      ∀ v, 0 ∉ (awaitDeadRun.state v).done := by
  obtain ⟨s, h, hr, ho, hd, hn⟩ := execute_awaitDead
  have hcalm : ∀ t a, awaitDeadRun.action t = some a → a.Calm := by
    intro t a ha
    have hmem : a ∈ awaitDead := List.mem_of_getElem? ha
    simp only [awaitDead, List.mem_cons, List.not_mem_nil, or_false] at hmem
    rcases hmem with rfl | rfl | rfl <;> trivial
  have hend : ∀ v, 3 ≤ v → awaitDeadRun.state v = s := by
    intro v hv
    have htake : awaitDead.take v = awaitDead := List.take_of_length_le hv
    simp only [awaitDeadRun, System.Run.ofActions, htake, h, Option.get_some]
  refine ⟨System.Run.fair_ofActions rfl h (not_enabled hr ho), hcalm, ?_, fun v hv => ?_⟩
  · rw [hend 3 le_rfl, hn]
  · have hlast := (done_mono hcalm (le_max_left v 3)).subset hv
    rw [hend _ (le_max_right v 3), hd] at hlast
    cases hlast

end Vortex.Dispatch
