import Vortex.WorkerPool

/-! # WebSocket messages on the worker pool

`dispatchWsBlocking` pins the socket of a message, the connection of an HTTP/1 WebSocket or the
stream of another one, and gives the body to the pool; the worker runs it and pushes an omWsDone
message, which releases the pin.  Other tasks come to the pool through `tryEnqueue`, but this one
through `enqueue`, which asks neither whether the pool is stopping nor whether it is full.

A dispatch that finds room in a pool that is not stopping is one that `tryEnqueue` would have
accepted, so that a run of such dispatches is a run of the pool (`Run.toPool`).  Dispatches are
numbered in the order of their pins.  Without a pool the body runs in the dispatch, and there is no
pin. -/

namespace Vortex.WsBlocking

open WorkerPool

/-! ### Dispatches -/

inductive Task where
  | ws (dispatch : ℕ)
  | other (id : ℕ)
deriving DecidableEq, Repr

def Task.dispatch? : Task → Option ℕ
  | ws d => some d
  | other _ => none

/-- What the handle of a WebSocket stands for. -/
inductive Target (ι : Type) where
  | gone
  /-- An HTTP/1 connection that is to be closed. -/
  | closing
  | socket (i : ι)

structure State (ω ι : Type) where
  pool : Pool ω Task
  /-- The sockets pinned, oldest first. -/
  pinned : List ι := []
  /-- The omWsDone messages pushed, each with its dispatch. -/
  done : List ℕ := []

inductive Act (ω ι : Type) where
  | dispatchWsBlocking (target : Target ι) (woken : Finset ω)
  /-- A worker, another dispatch, or the shutdown. -/
  | pool (a : Action ω Task)

variable {ω ι : Type} [Fintype ω] [DecidableEq ω]

/-- The message that a worker pushes when a body has returned. -/
def messages (p : Pool ω Task) : Action ω Task → List ℕ
  | .finish w _ =>
      match p.workers w with
      | .running (.ws d) => [d]
      | _ => []
  | _ => []

def step (s : State ω ι) : Act ω ι → Option (State ω ι)
  | .dispatchWsBlocking (.socket i) woken =>
      if s.pool.Signals woken then
        some { s with
          pool := s.pool.enqueue (.ws s.pinned.length) woken, pinned := s.pinned ++ [i] }
      else none
  | .dispatchWsBlocking _ _ => some s
  | .pool (.tryEnqueue (.ws _) _) => none
  | .pool a =>
      (WorkerPool.step s.pool a).map fun p =>
        { s with pool := p, done := s.done ++ messages s.pool a }

def sockets (ω ι : Type) [Fintype ω] [DecidableEq ω] (maxQueue : ℕ) (alive : ℤ) :
    System (State ω ι) (Act ω ι) where
  init s := s = { pool := { maxQueue := maxQueue, alive := alive } }
  step := step

def thread : Act ω ι → Option ω
  | .pool a => WorkerPool.thread a
  | _ => none

/-- A dispatch is made only while the pool is not stopping and has room. -/
def HasRoom (s : State ω ι) : Act ω ι → Prop
  | .dispatchWsBlocking (.socket _) _ =>
      s.pool.stopping = false ∧ (0 < s.pool.maxQueue → s.pool.tasks.length < s.pool.maxQueue)
  | _ => True

/-- The action of the pool. -/
def poolAct (s : State ω ι) : Act ω ι → Option (Action ω Task)
  | .dispatchWsBlocking (.socket _) woken => some (.tryEnqueue (.ws s.pinned.length) woken)
  | .dispatchWsBlocking _ _ => none
  | .pool a => some a

variable {s : State ω ι} {p p' : Pool ω Task} {d : ℕ} {w : ω} {a : Action ω Task}

theorem step_cases {s' : State ω ι} {a : Act ω ι} (hs : step s a = some s') (hr : HasRoom s a) :
    (poolAct s a = none ∧ s' = s) ∨
    (∃ i woken, poolAct s a = some (.tryEnqueue (.ws s.pinned.length) woken) ∧
      WorkerPool.step s.pool (.tryEnqueue (.ws s.pinned.length) woken) = some s'.pool ∧
      s'.pool = s.pool.enqueue (.ws s.pinned.length) woken ∧ s'.pinned = s.pinned ++ [i] ∧
      s'.done = s.done) ∨
    ∃ b p, a = .pool b ∧ (∀ d woken, b ≠ .tryEnqueue (.ws d) woken) ∧
      WorkerPool.step s.pool b = some p ∧
      s' = { s with pool := p, done := s.done ++ messages s.pool b } := by
  cases a with
  | dispatchWsBlocking target woken =>
    cases target with
    | gone | closing => exact .inl ⟨rfl, (Option.some.inj hs).symm⟩
    | socket i =>
      simp only [step, Option.ite_none_right_eq_some] at hs
      obtain ⟨hw, hs⟩ := hs
      obtain rfl := Option.some.inj hs
      refine .inr (.inl ⟨i, woken, rfl, ?_, rfl, rfl, rfl⟩)
      have hno : ¬ (s.pool.stopping = true ∨
          0 < s.pool.maxQueue ∧ s.pool.maxQueue ≤ s.pool.tasks.length) := by
        rintro (h | ⟨h, hle⟩)
        · rw [hr.1] at h
          cases h
        · exact absurd (hr.2 h) (not_lt.mpr hle)
      simp only [WorkerPool.step, hw, if_true, Pool.tryEnqueue, hno, if_false]
      rfl
  | pool b =>
    have hb : (∀ d woken, b ≠ .tryEnqueue (.ws d) woken) ∧ (WorkerPool.step s.pool b).map (fun p =>
        ({ s with pool := p, done := s.done ++ messages s.pool b } : State ω ι)) = some s' := by
      cases b with
      | tryEnqueue task woken =>
        cases task with
        | ws d => cases hs
        | other id => exact ⟨by simp, hs⟩
      | signalStop | look w | wakeUp w | finish w raised | exit w => exact ⟨by simp, hs⟩
    obtain ⟨p, hp, rfl⟩ := Option.map_eq_some_iff.mp hb.2
    exact .inr (.inr ⟨b, p, rfl, hb.1, hp, rfl⟩)

/-! ### Runs of a body -/

/-- The workers that run the body of the dispatch. -/
def running (p : Pool ω Task) (d : ℕ) : Finset ω :=
  Finset.univ.filter fun w => p.workers w = .running (.ws d)

omit [DecidableEq ω] in
theorem mem_running : w ∈ running p d ↔ p.workers w = .running (.ws d) := by
  simp [running]

omit [DecidableEq ω] in
theorem notMem_running (d : ℕ) (h : (p.workers w).phase ≠ .running) : w ∉ running p d := by
  intro hm
  rw [mem_running.mp hm] at h
  exact h rfl

theorem running_wake (p : Pool ω Task) (ws : Finset ω) (d : ℕ) :
    running (p.wake ws) d = running p d := by
  ext v
  simp only [mem_running, Pool.wake]
  split_ifs with h
  · refine ⟨fun h' => (by cases h'), fun h' => ?_⟩
    rw [h'] at h
    cases h.2
  · rfl

theorem running_set {x : Worker Task} (hx : x ≠ .running (.ws d)) (hw : w ∉ running p d) :
    running (p.set w x) d = running p d := by
  ext v
  by_cases hv : v = w
  · subst hv
    simpa [mem_running, Pool.set, hx] using hw
  · simp [mem_running, Pool.set, hv]

/-- How often the body was taken up. -/
def started (p : Pool ω Task) (d : ℕ) : ℕ := (p.taken.map Prod.snd).count (.ws d)

/-- **What an action does to a body.**  It is taken up by a worker that runs it, and a run ends
with its message. -/
theorem started_step (hs : WorkerPool.step p a = some p') (d : ℕ) :
    (messages p a).count d + (running p' d).card + started p d =
      (running p d).card + started p' d := by
  have hsame {w : ω} {x : Worker Task} (hx : x.phase ≠ .running)
      (hw : (p.workers w).phase ≠ .running) :
      0 + (running (p.set w x) d).card + started p d = (running p d).card + started p d := by
    have h : running (p.set w x) d = running p d :=
      running_set (fun e => hx (by rw [e]; rfl)) (notMem_running d hw)
    rw [h, Nat.zero_add]
  have hwake (ws : Finset ω) :
      0 + (running (p.wake ws) d).card + started p d = (running p d).card + started p d := by
    rw [running_wake, Nat.zero_add]
  cases effect_of_step hs with
  | refuse => exact congrArg (· + _) (Nat.zero_add _)
  | accept | stop => exact hwake _
  | @take w task rest hw ht =>
    have hno := notMem_running d (p := p) (w := w) (by simp [hw])
    have hcount : started { p.set w (.running task) with
        tasks := rest, taken := p.taken ++ [(w, task)] } d =
        started p d + if task = .ws d then 1 else 0 := by
      simp only [started, List.map_append, List.map_cons, List.map_nil, List.count_append,
        List.count_singleton, beq_iff_eq]
    rw [hcount]
    change 0 + (running (p.set w (.running task)) d).card + _ = _
    split_ifs with ht
    · have hrun : running (p.set w (.running task)) d = insert w (running p d) := by
        ext v
        by_cases hv : v = w <;> simp [mem_running, Pool.set, hv, ht]
      rw [hrun, Finset.card_insert_of_notMem hno]
      omega
    · rw [running_set (by simpa using ht) hno, Nat.zero_add]
      rfl
  | leave hw | wait hw | wakeUp hw => exact hsame (by simp [Worker.phase]) (by simp [hw])
  | @finish w raised hw =>
    change _ + _ + started p d = _ + started p d
    by_cases hd : p.workers w = .running (.ws d)
    · have hrun : running (p.set w .looking) d = (running p d).erase w := by
        ext v
        by_cases hv : v = w <;> simp [mem_running, Pool.set, hv]
      have hm : w ∈ running p d := mem_running.mpr hd
      have hpos := Finset.card_pos.mpr ⟨w, hm⟩
      rw [hrun, Finset.card_erase_of_mem hm]
      simp only [messages, hd, List.count_singleton_self]
      omega
    · have hmsg : (messages p (.finish w raised)).count d = 0 := by
        simp only [messages]
        split
        · next d' hd' =>
          refine List.count_eq_zero.mpr fun hm => hd ?_
          rw [hd', List.mem_singleton.mp hm]
        · rfl
      rw [hmsg, running_set (by simp) (mt mem_running.mp hd), Nat.zero_add]
  | exit hw => exact hsame (by simp [Worker.phase]) (by simp [hw])

theorem runs_on (hs : WorkerPool.step p a = some p') (hw : p.workers w = .running (.ws d)) :
    0 < (messages p a).count d ∨
      p'.workers w = .running (.ws d) ∧ WorkerPool.thread a ≠ some w := by
  have hwake (ws : Finset ω) : (p.wake ws).workers w = .running (.ws d) := by
    rw [← mem_running, running_wake]
    exact mem_running.mpr hw
  have hset {v : ω} (x : Worker Task) (hv : (p.workers v).phase ≠ .running) :
      (p.set v x).workers w = .running (.ws d) ∧ some v ≠ some w := by
    have hne : v ≠ w := fun h => hv (by rw [h, hw]; rfl)
    exact ⟨by simp [Pool.set, hne.symm, hw], fun h => hne (Option.some.inj h)⟩
  cases effect_of_step hs with
  | refuse => exact .inr ⟨hw, (Option.some_ne_none w).symm⟩
  | accept | stop => exact .inr ⟨hwake _, (Option.some_ne_none w).symm⟩
  | take hv | leave hv | wait hv => exact .inr (hset _ (by simp [hv]))
  | wakeUp hv => exact .inr ⟨(hset _ (by simp [hv])).1, (Option.some_ne_none w).symm⟩
  | @finish v raised hv =>
    by_cases hvw : v = w
    · refine .inl ?_
      simp [messages, hvw, hw]
    · exact .inr ⟨by simp [Pool.set, Ne.symm hvw, hw], fun h => hvw (Option.some.inj h)⟩
  | exit hv => exact .inr (hset _ (by simp [hv]))

/-! ### Runs with room -/

/-- The invariant of runs in which every dispatch has room. -/
structure Kept (maxQueue : ℕ) (alive : ℤ) (s : State ω ι) : Prop where
  sound : Sound maxQueue alive s.pool
  order : s.pool.all.filterMap Task.dispatch? = List.range s.pinned.length
  runs : ∀ d, s.done.count d + (running s.pool d).card = started s.pool d

variable {maxQueue : ℕ} {alive : ℤ}

theorem Kept.step {s' : State ω ι} {a : Act ω ι} (h : Kept maxQueue alive s)
    (hs : step s a = some s') (hr : HasRoom s a) : Kept maxQueue alive s' := by
  rcases step_cases hs hr with ⟨-, rfl⟩ | ⟨i, woken, -, hp, he, hpin, hdone⟩ |
    ⟨b, p, rfl, hb, hp, rfl⟩
  · exact h
  · refine ⟨h.sound.step hp, ?_, fun d => ?_⟩
    · have hall : s'.pool.all = s.pool.all ++ [.ws s.pinned.length] := by
        rw [he]
        exact (List.append_assoc ..).symm
      rw [hall, hpin, List.filterMap_append, h.order, List.length_append, List.length_singleton,
        List.range_succ]
      rfl
    · have h1 := started_step hp d
      have h2 := h.runs d
      rw [hdone]
      simp only [messages, List.count_nil] at h1
      omega
  · refine ⟨h.sound.step hp, ?_, fun d => ?_⟩
    · have hno : (accepts s.pool b).toList.filterMap Task.dispatch? = [] := by
        cases b with
        | tryEnqueue task woken =>
          cases task with
          | ws d => exact absurd rfl (hb d woken)
          | other id =>
            simp only [accepts]
            split_ifs <;> rfl
        | signalStop | look | wakeUp | finish | exit => rfl
      simp only [all_step hp, List.filterMap_append, hno, h.order, List.append_nil]
    · have h1 := started_step hp d
      have h2 := h.runs d
      simp only [List.count_append]
      omega

omit [DecidableEq ω] in
theorem Kept.once (h : Kept maxQueue alive s) (d : ℕ) :
    started s.pool d ≤ 1 ∧ s.done.count d ≤ 1 := by
  have hcount : s.pool.all.count (.ws d) ≤ 1 := by
    have hd := congrArg (List.count d) h.order
    rw [List.count_filterMap] at hd
    have hle : s.pool.all.count (.ws d) ≤ s.pool.all.countP fun t => t.dispatch? == some d :=
      List.countP_mono_left fun t _ ht => by rw [beq_iff_eq.mp ht]; simp [Task.dispatch?]
    exact hle.trans (hd.le.trans (List.nodup_iff_count_le_one.mp List.nodup_range d))
  have hle : started s.pool d ≤ s.pool.all.count (.ws d) := by
    rw [Pool.all, List.count_append]
    exact Nat.le_add_right _ _
  have hr := h.runs d
  omega

section runs

variable {r : (sockets ω ι maxQueue alive).Run}
  (hroom : ∀ t a, r.action t = some a → HasRoom (r.state t) a)

include hroom

theorem kept_run (t : ℕ) : Kept maxQueue alive (r.state t) := by
  refine r.stays t.zero_le ?_ fun v a ha ih => ih.step (r.moves v a ha) (hroom v a ha)
  have h0 : r.state 0 = { pool := { maxQueue := maxQueue, alive := alive } } := r.start
  rw [h0]
  exact ⟨sound_of_reachable (.start rfl), rfl, fun d => by simp [running, started]⟩

omit hroom in
theorem enabled_iff : (sockets ω ι maxQueue alive).Enabled thread w s ↔
    (pool ω Task maxQueue alive).Enabled WorkerPool.thread w s.pool := by
  have hstep {b : Action ω Task} (hb : WorkerPool.thread b = some w) :
      (step s (.pool b)).isSome = (WorkerPool.step s.pool b).isSome := by
    cases b with
    | tryEnqueue task woken | signalStop | wakeUp v => cases hb
    | look v | finish v raised | exit v => exact Option.isSome_map
  constructor
  · rintro ⟨a, ha, hs⟩
    cases a with
    | dispatchWsBlocking target woken => cases ha
    | pool b => exact ⟨b, ha, (hstep ha).symm.trans hs⟩
  · rintro ⟨b, hb, hs⟩
    exact ⟨.pool b, hb, (hstep hb).trans hs⟩

/-- The run of the pool. -/
def toPool : (pool ω Task maxQueue alive).Run where
  state t := (r.state t).pool
  action t := (r.action t).bind (poolAct (r.state t))
  start := congrArg State.pool r.start
  idle t ht := by
    cases ha : r.action t with
    | none => rw [r.idle t ha]
    | some a =>
        rw [ha, Option.bind_some] at ht
        rcases step_cases (r.moves t a ha) (hroom t a ha) with ⟨-, e⟩ | ⟨i, woken, h, -⟩ |
          ⟨b, p, rfl, -⟩
        · rw [e]
        · rw [h] at ht
          cases ht
        · cases ht
  moves t b hb := by
    obtain ⟨a, ha, hb⟩ := Option.bind_eq_some_iff.mp hb
    rcases step_cases (r.moves t a ha) (hroom t a ha) with ⟨h, -⟩ | ⟨i, woken, h, hp, -⟩ |
      ⟨b', p, rfl, -, hp, e⟩
    · rw [h] at hb
      cases hb
    · rw [h] at hb
      obtain rfl := Option.some.inj hb
      exact hp
    · obtain rfl := Option.some.inj hb
      rw [e]
      exact hp

theorem fair_toPool (hr : r.Fair thread) : (toPool hroom).Fair WorkerPool.thread := by
  intro w t hen
  obtain ⟨u, hu, a, ha, hw⟩ := hr w t fun u hu => enabled_iff.mpr (hen u hu)
  cases a with
  | dispatchWsBlocking target woken => cases hw
  | pool b => exact ⟨u, hu, b, by simp [toPool, ha, poolAct], hw⟩

omit hroom in
theorem done_of_running (hr : r.Fair thread) {t : ℕ}
    (hw : (r.state t).pool.workers w = .running (.ws d)) :
    ∃ u, t ≤ u ∧ 0 < (r.state u).done.count d := by
  refine System.Run.leadsTo (A := fun _ => True) (Q := fun s => 0 < s.done.count d)
    (P := fun s => s.pool.workers w = .running (.ws d)) hr (fun _ => (0 : ℕ)) (fun _ => w) ?_ ?_
    (fun _ _ _ _ => trivial) hw
  · exact fun s _ hs => enabled_iff.mpr (enabled_of_phase (.inr (.inl (by rw [hs]; rfl))))
  · intro s a s' _ hs _ hstep
    change step s a = some s' at hstep
    cases a with
    | dispatchWsBlocking target woken =>
      cases target with
      | gone | closing =>
        obtain rfl := Option.some.inj hstep
        exact .inr ⟨hs, .inr ⟨rfl, rfl, nofun⟩⟩
      | socket i =>
        simp only [step, Option.ite_none_right_eq_some] at hstep
        obtain rfl := Option.some.inj hstep.2
        refine .inr ⟨?_, .inr ⟨rfl, rfl, nofun⟩⟩
        change (s.pool.wake woken).workers w = _
        rw [← mem_running, running_wake]
        exact mem_running.mpr hs
    | pool b =>
      rcases step_cases hstep trivial with ⟨h, -⟩ | ⟨i, woken, h, hp, -, -, hdone⟩ |
        ⟨b', p, hb, -, hp, rfl⟩
      · cases h
      · obtain rfl := Option.some.inj h
        cases hstep
      · cases hb
        rcases runs_on hp hs with h | ⟨h, hne⟩
        · refine .inl ?_
          change 0 < (s.done ++ _).count d
          rw [List.count_append]
          omega
        · exact .inr ⟨h, .inr ⟨rfl, rfl, hne⟩⟩

theorem started_of_pinned [Nonempty ω] (hr : r.Fair thread) {t : ℕ}
    (hd : d < (r.state t).pinned.length) : ∃ u, t ≤ u ∧ 0 < started (r.state u).pool d := by
  have hmem : Task.ws d ∈ (r.state t).pool.all := by
    have h : d ∈ (r.state t).pool.all.filterMap Task.dispatch? := by
      rw [(kept_run hroom t).order]
      exact List.mem_range.mpr hd
    obtain ⟨task, ht, e⟩ := List.mem_filterMap.mp h
    cases task with
    | ws d' =>
      cases e
      exact ht
    | other id => cases e
  obtain ⟨u, hu, htaken⟩ := all_taken (fair_toPool hroom hr) t
  exact ⟨u, hu, List.count_pos_iff.mpr (htaken.subset hmem)⟩

end runs

/-- **Bodies of WebSocket messages.**  As long as every dispatch finds the pool open and with
room, no more than `maxQueue` tasks wait and a body is run, and answered with its message, at most
once.  When the workers and the bodies go on, every dispatch that takes a pin is followed by
exactly one run and one message. -/
theorem pinned_sockets_are_served (n maxQueue : ℕ) (alive : ℤ)
    (r : (sockets (Fin (n + 1)) ι maxQueue alive).Run)
    (hroom : ∀ t a, r.action t = some a → HasRoom (r.state t) a) :
    (∀ t, (0 < maxQueue → (r.state t).pool.tasks.length ≤ maxQueue) ∧
      ∀ d, started (r.state t).pool d ≤ 1 ∧ (r.state t).done.count d ≤ 1) ∧
    (r.Fair thread → ∀ t d, d < (r.state t).pinned.length →
      ∃ u, t ≤ u ∧ started (r.state u).pool d = 1 ∧ (r.state u).done.count d = 1) := by
  refine ⟨fun t => ⟨(kept_run hroom t).sound.bounded, (kept_run hroom t).once⟩,
    fun hr t d hd => ?_⟩
  obtain ⟨u, hu, hs⟩ := started_of_pinned hroom hr hd
  have hdone : ∃ v, u ≤ v ∧ 0 < (r.state v).done.count d := by
    have hruns := (kept_run hroom u).runs d
    by_cases h : 0 < (r.state u).done.count d
    · exact ⟨u, le_rfl, h⟩
    · obtain ⟨w, hw⟩ := Finset.card_pos.mp (show 0 < (running (r.state u).pool d).card by omega)
      exact done_of_running hr (mem_running.mp hw)
  obtain ⟨v, hv, hpos⟩ := hdone
  have hruns := (kept_run hroom v).runs d
  have honce := (kept_run hroom v).once d
  exact ⟨v, hu.trans hv, by omega, by omega⟩

/-- One worker, and a message that is dispatched, run and answered. -/
def oneMessage : List (Act (Fin 1) ℕ) :=
  let w := Fin.last 0
  [.dispatchWsBlocking (.socket 0) ∅, .pool (.look w), .pool (.finish w false), .pool (.look w)]

theorem isSome_oneMessage :
    ((sockets (Fin 1) ℕ 1 1).execute oneMessage { pool := { maxQueue := 1, alive := 1 } }).isSome := by
  decide

def oneMessageRun : (sockets (Fin 1) ℕ 1 1).Run :=
  System.Run.ofActions oneMessage rfl isSome_oneMessage

theorem oneMessageRun_fair : oneMessageRun.Fair thread := by
  refine System.Run.fair_ofActions rfl (Option.some_get isSome_oneMessage).symm ?_
  exact fun w h => (phase_of_enabled (enabled_iff.mp h)).1 (by clear h; revert w; decide)

theorem pinned_sockets_are_served_oneMessage : ∃ u,
    started (oneMessageRun.state u).pool 0 = 1 ∧ (oneMessageRun.state u).done.count 0 = 1 := by
  have hroom : ∀ t a, oneMessageRun.action t = some a → HasRoom (oneMessageRun.state t) a := by
    rintro (- | - | - | - | t) a ha <;> cases ha
    · exact ⟨rfl, by decide⟩
    all_goals exact trivial
  obtain ⟨u, -, h⟩ := (pinned_sockets_are_served 0 1 1 oneMessageRun hroom).2 oneMessageRun_fair
    1 0 (by decide)
  exact ⟨u, h⟩

/-- **Two messages against a queue of one**, and a message after the only worker has exited: its
body is never taken up and the pin stays. -/
theorem pinned_sockets_left :
    (∃ s, (sockets (Fin 1) ℕ 1 1).Reachable s ∧ s.pool.maxQueue < s.pool.tasks.length) ∧
    ∃ s, (sockets (Fin 1) ℕ 1 1).Reachable s ∧ s.pinned = [0] ∧ started s.pool 0 = 0 ∧
      ∀ w, ¬ (sockets (Fin 1) ℕ 1 1).Enabled thread w s := by
  have run (as : List (Act (Fin 1) ℕ)) {s : State (Fin 1) ℕ}
      (h : as.foldlM (sockets (Fin 1) ℕ 1 1).step { pool := { maxQueue := 1, alive := 1 } } =
        some s) : (sockets (Fin 1) ℕ 1 1).Reachable s := (System.Reachable.start rfl).foldlM h
  refine ⟨⟨_, run [.dispatchWsBlocking (.socket 0) ∅, .dispatchWsBlocking (.socket 1) ∅] rfl,
    by decide⟩, ⟨_, run [.pool .signalStop, .pool (.look 0), .pool (.exit 0),
    .dispatchWsBlocking (.socket 0) ∅] rfl, rfl, rfl, ?_⟩⟩
  exact fun w h => (phase_of_enabled (enabled_iff.mp h)).2 (by clear h; revert w; decide)

end Vortex.WsBlocking
