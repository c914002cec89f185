import Vortex.Awaited

/-! # Batches and runs in which no callback raises

`processOutbox` applies the messages of a batch one after the other.  When no callback raises, each
of them is written to its carrier or dropped because that is gone, the pins they name are released,
the completions run their callbacks and give their boxes back, and the buffers go back to the chunk
pool.  One `try` around the loop does not give more.

In a run of such batches the counters of a carrier are the pins of its tasks that run and of the
messages that wait, if the teardown of a slot dispatches no work for it and the tasks answer through
the handles they were given. -/

namespace Vortex.Dispatch

variable {pool : Bool} {s : State}

/-! ### What becomes of a message -/

/-- The carrier of an answer is gone; a completion is applied in any case. -/
def goneAt (m : OutMsg) (s : State) : Bool :=
  match m.kind with
  | .blockingDone _ => false
  | _ => stale m s

/-- The same for the messages of a batch, each at the moment it is applied. -/
def goneAll (pool : Bool) : List OutMsg → List Turn → State → List Bool
  | [], _, _ => []
  | m :: rest, ts, s =>
      goneAt m s :: goneAll pool rest ts.tail (applyMessage pool m (ts.headD {}) s).1

def fate (m : OutMsg) (gone : Bool) : Effect := if gone then .dropped m else .applied m

theorem stable_log (l : List Effect) : Stable fun s => s.log = l where
  modify _ _ _ h := h
  fault _ h := h
  enqueue _ _ _ h := h
  push _ _ h := h
  chunks _ _ h := h
  newBox _ h := h
  complete _ _ h := h
  settle _ _ h := h
  noteCall _ _ h := h

theorem log_lasting (l : List Effect) : Lasting pool fun s => s.log = l := (stable_log l).lasting

theorem log_applyBlockingDone (m : OutMsg) (b : ℕ) (t : Turn) (s : State) :
    (applyBlockingDone pool m b t s).1.log = s.log ++ [.applied m] := by
  have hl : (runOps pool t.onDone.ops ((s.complete b).record [.applied m])).log =
      s.log ++ [.applied m] := (log_lasting _).runOps _ _ rfl
  unfold applyBlockingDone
  dsimp only
  split_ifs
  · exact hl
  · exact hl
  · exact (log_lasting _).afterRelease _ _ ((log_lasting _).unpin _ _ hl)

theorem log_applyMessage (m : OutMsg) (t : Turn) (s : State) :
    (applyMessage pool m t s).1.log = s.log ++ [fate m (goneAt m s)] := by
  cases hk : m.kind with
  | blockingDone b =>
    simp only [applyMessage, hk, goneAt]
    exact log_applyBlockingDone m b t s
  | _ =>
    simp only [applyMessage, hk, goneAt]
    exact (log_lasting _).applyAnswer t rfl

theorem log_applyBatch {ms : List OutMsg} {ts : List Turn}
    (hraise : (applyBatch pool ms ts s).2 = false) : (applyBatch pool ms ts s).1.log =
      s.log ++ List.zipWith fate ms (goneAll pool ms ts s) := by
  induction ms generalizing s ts with
  | nil => simp [applyBatch, goneAll]
  | cons m rest ih =>
    have hl : (applyMessage pool m (ts.headD {}) s).1.log = _ := log_applyMessage m _ s
    simp only [applyBatch, goneAll, List.zipWith_cons_cons] at hraise ⊢
    split at hraise
    · cases hraise
    · rename_i s' he
      rw [he] at hl ⊢
      rw [ih hraise, hl, List.append_assoc]
      rfl

theorem free_returnBuffers (ms : List OutMsg) (s : State) :
    (returnBuffers ms s).chunkPool = { s.chunkPool with
      free := ((ms.filterMap OutMsg.buffer).take
        (chunkPoolMaxFree - s.chunkPool.free.length)).reverse ++ s.chunkPool.free } := by
  unfold returnBuffers
  generalize ms.filterMap OutMsg.buffer = bufs
  induction bufs generalizing s with
  | nil => simp
  | cons buf rest ih =>
    rw [List.foldl_cons, ih]
    by_cases hroom : s.chunkPool.free.length < chunkPoolMaxFree
    · have hsucc : chunkPoolMaxFree - s.chunkPool.free.length =
          chunkPoolMaxFree - (s.chunkPool.free.length + 1) + 1 := by omega
      simp [State.chunkReturn, ChunkPool.chunkReturn, hroom, hsucc]
    · have hfull : chunkPoolMaxFree - s.chunkPool.free.length = 0 := by omega
      simp [State.chunkReturn, ChunkPool.chunkReturn, hroom, hfull]

theorem log_returnBuffers (ms : List OutMsg) (s : State) : (returnBuffers ms s).log = s.log := by
  unfold returnBuffers
  induction ms.filterMap OutMsg.buffer generalizing s with
  | nil => rfl
  | cons buf rest ih => exact ih _

/-! ### The pins of a batch -/

/-- The pins of the tasks that run and of the messages that wait. -/
def State.holds (pool : Bool) (s : State) : List Hold :=
  if pool then s.running.filterMap Task.hold ++ s.outbox.filterMap OutMsg.hold else []

theorem pledged_eq (pool : Bool) (s : State) : s.pledged pool =
    s.holds pool ++ ({ s with running := [], outbox := [] } : State).pledged pool := by
  cases pool with
  | false => rfl
  | true => simp [State.pledged, State.holds]

theorem pins_between {q : Endpoint → Prop} {B : List Hold} {s' : State} (h : Agrees pool q B s)
    (h' : Agrees pool q B s') (ha : s'.abandoned = s.abandoned)
    (hh : s'.halfApplied = s.halfApplied) {e : Endpoint} (he : q e) (k : PinKind) :
    (s'.carriers e).pins k + (s.holds pool).count ⟨e, (s.carriers e).gen, k⟩ =
      (s.carriers e).pins k + (s'.holds pool).count ⟨e, (s'.carriers e).gen, k⟩ := by
  have hlost : ({ s' with running := [], outbox := [] } : State).pledged pool =
      ({ s with running := [], outbox := [] } : State).pledged pool := by
    simp only [State.pledged, ha, hh]
  obtain ⟨L, hL, hL'⟩ : ∃ L, (B ++ s.pledged pool).Perm (L ++ s.holds pool) ∧
      (B ++ s'.pledged pool).Perm (L ++ s'.holds pool) := by
    refine ⟨B ++ ({ s with running := [], outbox := [] } : State).pledged pool, ?_, ?_⟩
    · rw [pledged_eq, List.append_assoc]
      exact List.Perm.append_left _ List.perm_append_comm
    · rw [pledged_eq pool s', hlost, List.append_assoc]
      exact List.Perm.append_left _ List.perm_append_comm
  have h1 : Pinned q (L ++ s.holds pool) s := Pinned.perm h hL
  have h2 : Pinned q (L ++ s'.holds pool) s' := Pinned.perm h' hL'
  have hsame : L.count ⟨e, (s.carriers e).gen, k⟩ = L.count ⟨e, (s'.carriers e).gen, k⟩ := by
    by_cases hgen : (s'.carriers e).gen = (s.carriers e).gen
    · rw [hgen]
    · -- a pin of `L` would have kept the carrier from being given free
      rw [List.count_eq_zero_of_not_mem, List.count_eq_zero_of_not_mem]
      · exact fun hm => hgen (h1.held _ (List.mem_append_left _ hm) he).1.symm
      · exact fun hm => hgen (h2.held _ (List.mem_append_left _ hm) he).1
  have hpins := h1.exact e he k
  have hpins' := h2.exact e he k
  rw [List.count_append] at hpins hpins'
  omega

/-- **The messages of a batch are isolated from each other when no callback raises.**  Each is
applied or dropped once; the counters of the carriers of `q` fall by the pins that the messages name
and grow by those of new tasks; every completion has run its callback and given its box back; every
buffer is returned.  `q` may hold all connections, and the slots whose teardowns have dispatched no
work for them. -/
theorem processOutbox_effects {q : Endpoint → Prop} {turns : List Turn}
    (h : ((system pool).restrict fun s a => a.Quiet q s).Reachable s)
    (hq : QuietBatch q s.outbox turns) (ht : ∀ t ∈ turns, t.Calm) :
    let s' := processOutbox pool turns s
    let p := (applyBatch pool s.outbox turns { s with outbox := [] }).1.chunkPool
    s'.log = s.log ++
        List.zipWith fate s.outbox (goneAll pool s.outbox turns { s with outbox := [] }) ∧
      (∀ e, q e → ∀ k, (s'.carriers e).pins k +
          (s.holds pool).count ⟨e, (s.carriers e).gen, k⟩ =
        (s.carriers e).pins k + (s'.holds pool).count ⟨e, (s'.carriers e).gen, k⟩) ∧
      (∀ b ∈ s.outbox.filterMap OutMsg.box, s'.done.count b = 1 ∧ b ∉ s'.boxes) ∧
      s'.pendingBlockingResults = s'.boxes.length ∧
      s'.chunkPool = { p with free := ((s.outbox.filterMap OutMsg.buffer).take
        (chunkPoolMaxFree - p.free.length)).reverse ++ p.free } := by
  intro s' p
  have hreach := h.of_restrict
  obtain ⟨hg, hdone⟩ := processOutbox_calm hreach ht
  have hraise := batch_not_raised hreach ht
  have hs := settled_of_reachable hreach
  have hs' : Settled [] [] s' := hs.processOutbox turns
  obtain ⟨B, hB⟩ := exists_agrees h
  have hend : s' = returnBuffers s.outbox
      (applyBatch pool s.outbox turns { s with outbox := [] }).1 := by
    change processOutbox pool turns s = _
    unfold processOutbox
    split
    · rename_i s₁ he
      rw [he] at hraise
      cases hraise
    · rename_i s₁ he
      rw [he]
  refine ⟨?_, fun e he k => pins_between hB (hB.processOutbox hq) hg.abandoned hg.halfApplied he k,
    fun b hb => ⟨?_, fun hbox => ?_⟩, hs'.counted, ?_⟩
  · rw [hend, log_returnBuffers, log_applyBatch hraise]
  · have hle := hs'.count_le b
    have hpos : 0 < s'.done.count b := List.count_pos_iff.mpr (hdone b hb)
    omega
  · have hway : b ∈ s.awaiting := by
      simp only [State.awaiting, List.filterMap_append, List.mem_append]
      exact .inr (.inl hb)
    rcases List.mem_append.mp (hs'.held.mem_iff.mp hbox) with h' | h'
    · exact hs'.not_mem_done h' (hdone b hb)
    · rw [show s'.stuck = s.stuck from congrArg (List.filterMap OutMsg.box) hg.halfApplied] at h'
      exact hs.not_mem_done hway (hs.called b h')
  · rw [hend, free_returnBuffers]

/-! ### A callback that raises -/

/-- Three connections, with an awaited call on each of the first two and a file read on the
third. -/
def threeTasks : List Action :=
  [.accept (.conn 0), .accept (.conn 1), .accept (.conn 2),
    .loop (.dispatch { handle := { dest := .conn 0, gen := 0, serial := 1 }, call := .await }),
    .loop (.dispatch { handle := { dest := .conn 1, gen := 0, serial := 1 }, call := .await }),
    .loop (.dispatch { handle := { dest := .conn 2, gen := 0, serial := 1 }, call := .nextRead }),
    .finish ⟨0, { dest := .conn 0, gen := 0, serial := 1 }, .await 0⟩ (.answers [] false),
    .finish ⟨1, { dest := .conn 1, gen := 0, serial := 1 }, .await 1⟩ (.answers [] false),
    .finish ⟨2, { dest := .conn 2, gen := 0, serial := 1 }, .fileChunk 0⟩ (.file false)]

/-- The state before the batch. -/
def threeMessages : State := ((system true).execute threeTasks {}).getD {}

theorem reachable_threeMessages : (system true).Reachable threeMessages :=
  .execute threeTasks (.start rfl) rfl

theorem processOutbox_effects_threeTasks :
    (system true).Reachable threeMessages ∧ threeMessages.outbox.length = 3 ∧
      (threeMessages.carriers (.conn 2)).pins .fileChunk = 1 ∧
      (processOutbox true [] threeMessages).log.length = 3 ∧
      ((processOutbox true [] threeMessages).carriers (.conn 2)).pins .fileChunk = 0 ∧
      (processOutbox true [] threeMessages).done.count 1 = 1 ∧
      (processOutbox true [] threeMessages).chunkPool.free = [0] := by
  obtain ⟨hlog, hpins, hboxes, -, hfree⟩ :=
    @processOutbox_effects true threeMessages _ [] (reachable_quiet_conns reachable_threeMessages)
      (quietBatch_conns (fun _ h => by cases h) _ _) nofun
  refine ⟨reachable_threeMessages, rfl, rfl, (congrArg List.length hlog).trans rfl, ?_,
    (hboxes 1 (by decide)).1, (congrArg ChunkPool.free hfree).trans rfl⟩
  exact Nat.add_right_cancel (hpins (.conn 2) rfl .fileChunk)

/-- The callback of the first completion raises. -/
def raisingTurn : Turn := { onDone := { raises := true } }

/-- The other two messages are gone: their pins are held for ever, the second completion callback
is not run and stays pending, and the buffer of the third is not returned.  The first completion
itself stays pending and keeps its pin. -/
theorem batch_lost_behind_raise : ∃ s s', (system true).execute threeTasks {} = some s ∧
      (system true).step s (.drain [raisingTurn]) = some s' ∧
      s'.running = [] ∧ s'.outbox = [] ∧ s'.log.length = 1 ∧ s'.done = [0] ∧
      s'.pendingBlockingResults = 2 ∧ (s'.carriers (.conn 0)).pins .await = 1 ∧
      (s'.carriers (.conn 1)).pins .await = 1 ∧ (s'.carriers (.conn 2)).pins .fileChunk = 1 ∧
      s'.chunkPool.free = [] :=
  ⟨_, _, rfl, rfl, rfl, rfl, rfl, rfl, rfl, rfl, rfl, rfl, rfl⟩

/-! ### The pins of a run -/

/-- The callbacks of a teardown leave their slot alone, the tasks answer through the handles they
were given, and no callback raises. -/
def Action.Orderly (s : State) (a : Action) : Prop :=
  a.Quiet (fun _ => True) s ∧ a.Releases ∧ a.Calm

theorem pledged_of_orderly (h : ((system pool).restrict fun s a => a.Orderly s).Reachable s) :
    s.pledged pool = s.holds pool := by
  have hkept : (system pool).Reachable s ∧ s.abandoned = [] ∧ s.halfApplied = [] := by
    refine h.invariant (I := fun s => (system pool).Reachable s ∧ s.abandoned = [] ∧
      s.halfApplied = []) (fun s hs => ?_) fun s a s' ih hs => ?_
    · cases hs
      exact ⟨.start rfl, rfl, rfl⟩
    · obtain ⟨ha, hs⟩ := System.step_restrict.mp hs
      have hadv := step_advanced ih.1 ha.2.2 hs
      exact ⟨.next a ih.1 hs, hadv.abandoned.trans ih.2.1, hadv.halfApplied.trans ih.2.2⟩
  rw [pledged_eq]
  cases pool with
  | false => rfl
  | true => simp [State.pledged, hkept.2]

/-- **Pins are exact** in every run in which the callbacks of the teardown of an HTTP/3 slot
dispatch no work for that slot and the tasks answer through the handles they were given. -/
theorem pins_exact (h : ((system pool).restrict fun s a => a.Orderly s).Reachable s) :
    s.faulted = false ∧
      (∀ e k, (s.carriers e).pins k = (s.holds pool).count ⟨e, (s.carriers e).gen, k⟩) ∧
      (∀ x ∈ s.holds pool,
        (s.carriers x.dest).gen = x.gen ∧ (s.carriers x.dest).live = true) ∧
      ∀ e, (∀ x ∈ s.holds pool, x.dest ≠ e) → ∀ k, (s.carriers e).pins k = 0 := by
  have hp : Pinned (fun _ => True) (s.holds pool) s := by
    rw [← pledged_of_orderly h]
    exact agrees_of_quiet (fun s a ha => ⟨ha.1, ha.2.1⟩) h
  refine ⟨hp.noFault, fun e k => hp.exact e trivial k, fun x hx => hp.held x hx trivial,
    fun e he k => ?_⟩
  rw [hp.exact e trivial k]
  exact List.count_eq_zero_of_not_mem fun hm => he _ hm rfl

/-- A request of the first occupant of the first slot. -/
def slotHandle : Handle := { dest := .slot 0, gen := 0 }

theorem pins_exact_slotHandle :
    ∃ s, ((system true).restrict fun s a => a.Orderly s).Reachable s ∧
      (s.carriers (.slot 0)).pins .blocking = 1 ∧ s.faulted = false := by
  have h₁ : ((system true).restrict fun s a => a.Orderly s).Reachable _ :=
    .next (.accept (.slot 0)) (.start rfl)
      (System.step_restrict.mpr ⟨⟨trivial, trivial, trivial⟩, rfl⟩)
  have h₂ : ((system true).restrict fun s a => a.Orderly s).Reachable _ :=
    .next (.loop (.dispatch { handle := slotHandle, call := .blocking })) h₁
      (System.step_restrict.mpr ⟨⟨trivial, trivial, trivial⟩, rfl⟩)
  exact ⟨_, h₂, ((pins_exact h₂).2.1 (.slot 0) .blocking).trans (by decide), (pins_exact h₂).1⟩

/-- The slot is freed, and a callback of its teardown dispatches work for it. -/
def pinWhileFreed : List Action :=
  [.accept (.slot 0),
    .loop (.close (.slot 0) [.dispatch { handle := slotHandle, call := .blocking }])]

/-- A body answers through another handle of its request. -/
def answerThroughTwin : List Action :=
  [.accept (.conn 0), .loop (.dispatch { handle := connHandle, call := .blocking }),
    .finish ⟨0, connHandle, .blocking⟩ (.answers [.twin] false), .drain []]

/-- A slot can be freed while a task holds it; its counter then never returns to zero, although
the task has ended and its message has been applied.  Nor does the counter of a connection whose
request was answered through another handle. -/
theorem slot_freed_while_pinned : (∃ s, (system true).execute pinWhileFreed {} = some s ∧
      s.holds true = [⟨.slot 0, 0, .blocking⟩] ∧ (s.carriers (.slot 0)).live = false ∧
      (s.carriers (.slot 0)).gen = 1 ∧ (s.carriers (.slot 0)).pins .blocking = 1) ∧
    (∃ s, (system true).execute
        (pinWhileFreed ++ [.finish ⟨0, slotHandle, .blocking⟩ (.answers [.own] false), .drain []])
        {} = some s ∧
      s.holds true = [] ∧ (s.carriers (.slot 0)).pins .blocking = 1 ∧
      (system true).step s (.accept (.slot 0)) = none) ∧
    ∃ s, (system true).execute answerThroughTwin {} = some s ∧ s.holds true = [] ∧
      (s.carriers (.conn 0)).live = true ∧ (s.carriers (.conn 0)).pins .blocking = 1 := by
  refine ⟨⟨_, rfl, ?_, ?_, ?_, ?_⟩, ⟨_, rfl, ?_, ?_, ?_⟩, ⟨_, rfl, ?_, ?_, ?_⟩⟩ <;> rfl

end Vortex.Dispatch
