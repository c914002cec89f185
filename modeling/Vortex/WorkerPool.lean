import Mathlib.Data.Fintype.Card
import Mathlib.Data.Prod.Lex
import Mathlib.Order.WellFounded
import Mathlib.Algebra.BigOperators.Group.Finset.Basic
import Mathlib.Algebra.Order.BigOperators.Group.Finset
import Mathlib.Tactic.Common
import Vortex.System

/-! # The worker pool

`workerpool.nim`: a bounded queue of tasks, a mutex and a condition variable.  `workerLoop` waits
on the condition variable while there is neither a task nor a stop, takes the first task and runs
it, and leaves when it is told to stop and the queue is empty; `tryEnqueue` refuses when the pool
is stopping or full, appends and signals; `signalStop` raises the flag and broadcasts.

The atomic actions are the locked sections, a task body as a whole, and the last decrement of the
counter of live threads.  A signal wakes at least one of the waiting workers, if there are any;
which ones is up to the system and is part of the action.  A waiting worker may also wake up for
no reason.

`Pool.taken` records which worker took which task, and `accepted` is read off the calls of a run
and what they returned. -/

namespace Vortex.WorkerPool

/-! ### The pool -/

/-- Where a worker is. -/
inductive Worker (τ : Type) where
  /-- About to take the lock and look at the queue: at the top of its loop, or woken up. -/
  | looking
  /-- In `wait`. -/
  | waiting
  | running (task : τ)
  /-- Out of its loop. -/
  | leaving
  /-- Its thread has ended. -/
  | exited
deriving DecidableEq, Repr

/-- The same without the task. -/
inductive Phase where
  | looking | waiting | running | leaving | exited
deriving DecidableEq, Repr

def Worker.phase {τ : Type} : Worker τ → Phase
  | looking => .looking
  | waiting => .waiting
  | running _ => .running
  | leaving => .leaving
  | exited => .exited

structure Pool (ω τ : Type) where
  tasks : List τ := []
  stopping : Bool := false
  maxQueue : ℕ
  /-- The counter of live threads, shared with others. -/
  alive : ℤ
  workers : ω → Worker τ := fun _ => .looking
  /-- The tasks taken from the queue and by whom, oldest first. -/
  taken : List (ω × τ) := []

inductive Action (ω τ : Type) where
  /-- A call of `tryEnqueue`, whose signal wakes the workers in `woken`. -/
  | tryEnqueue (task : τ) (woken : Finset ω)
  | signalStop
  /-- A worker takes the lock and looks at the queue. -/
  | look (w : ω)
  /-- A worker wakes up without a signal. -/
  | wakeUp (w : ω)
  /-- A task body returns, or raises. -/
  | finish (w : ω) (raised : Bool)
  /-- A worker's thread ends. -/
  | exit (w : ω)

variable {ω τ : Type} [Fintype ω] [DecidableEq ω] {t : ℕ} {p : Pool ω τ}

namespace Pool

/-- Wake up the waiting workers among those in `ws`. -/
def wake (p : Pool ω τ) (ws : Finset ω) : Pool ω τ :=
  { p with workers := fun w =>
      if w ∈ ws ∧ (p.workers w).phase = .waiting then .looking else p.workers w }

/-- `tryEnqueue`, and what it returns. -/
def tryEnqueue (p : Pool ω τ) (task : τ) (woken : Finset ω) : Pool ω τ × Bool :=
  if p.stopping ∨ 0 < p.maxQueue ∧ p.maxQueue ≤ p.tasks.length then (p, false)
  else ({ p.wake woken with tasks := p.tasks ++ [task] }, true)

/-- `enqueue`. -/
def enqueue (p : Pool ω τ) (task : τ) (woken : Finset ω) : Pool ω τ :=
  { p.wake woken with tasks := p.tasks ++ [task] }

def signalStop (p : Pool ω τ) : Pool ω τ := { p.wake Finset.univ with stopping := true }

/-- A worker moves. -/
def set (p : Pool ω τ) (w : ω) (x : Worker τ) : Pool ω τ :=
  { p with workers := Function.update p.workers w x }

/-- The locked section of `workerLoop`. -/
def look (p : Pool ω τ) (w : ω) : Pool ω τ :=
  match p.tasks with
  | task :: rest => { p.set w (.running task) with tasks := rest }
  | [] => if p.stopping then p.set w .leaving else p.set w .waiting

/-- The workers in a phase. -/
def inPhase (p : Pool ω τ) (ph : Phase) : Finset ω :=
  Finset.univ.filter (fun w => (p.workers w).phase = ph)

/-- The wakeups a signal may cause: of waiting workers, and of one at least if there is one. -/
def Signals (p : Pool ω τ) (woken : Finset ω) : Prop :=
  woken ⊆ p.inPhase .waiting ∧ (woken = ∅ → p.inPhase .waiting = ∅)

instance (p : Pool ω τ) (woken : Finset ω) : Decidable (p.Signals woken) :=
  inferInstanceAs (Decidable (_ ∧ _))

/-- The task a worker runs, for the record. -/
def runs (p : Pool ω τ) (w : ω) : List (ω × τ) :=
  match p.workers w with
  | .running task => [(w, task)]
  | _ => []

end Pool

def step (p : Pool ω τ) : Action ω τ → Option (Pool ω τ)
  | .tryEnqueue task woken => if p.Signals woken then some (p.tryEnqueue task woken).1 else none
  | .signalStop => some p.signalStop
  | .look w =>
      if (p.workers w).phase = .looking then
        some { p.look w with taken := p.taken ++ (p.look w).runs w }
      else none
  | .wakeUp w => if (p.workers w).phase = .waiting then some (p.set w .looking) else none
  | .finish w _ => if (p.workers w).phase = .running then some (p.set w .looking) else none
  | .exit w =>
      if (p.workers w).phase = .leaving then some { p.set w .exited with alive := p.alive - 1 } else none

/-- All interleavings of a pool of the workers `ω`. -/
def pool (ω τ : Type) [Fintype ω] [DecidableEq ω] (maxQueue : ℕ) (alive : ℤ) :
    System (Pool ω τ) (Action ω τ) where
  init p := p = { maxQueue := maxQueue, alive := alive }
  step := step

/-- Whose action it is.  Nobody has to enqueue or to stop, and no worker has to wake up by
itself. -/
def thread : Action ω τ → Option ω
  | .look w => some w
  | .finish w _ => some w
  | .exit w => some w
  | _ => none

/-- **What an action does.** -/
inductive Effect (p : Pool ω τ) : Action ω τ → Pool ω τ → Prop
  | refuse (task : τ) (woken : Finset ω) (hno : (p.tryEnqueue task woken).2 = false) :
      Effect p (.tryEnqueue task woken) p
  | accept (task : τ) {woken : Finset ω} (hgo : p.stopping = false)
      (hroom : 0 < p.maxQueue → p.tasks.length < p.maxQueue) (hw : p.Signals woken) :
      Effect p (.tryEnqueue task woken) (p.enqueue task woken)
  | stop : Effect p .signalStop p.signalStop
  | take {w : ω} {task : τ} {rest : List τ} (hw : (p.workers w).phase = .looking)
      (ht : p.tasks = task :: rest) : Effect p (.look w)
        { p.set w (.running task) with tasks := rest, taken := p.taken ++ [(w, task)] }
  | leave {w : ω} (hw : (p.workers w).phase = .looking) (ht : p.tasks = [])
      (hs : p.stopping = true) : Effect p (.look w) (p.set w .leaving)
  | wait {w : ω} (hw : (p.workers w).phase = .looking) (ht : p.tasks = [])
      (hs : p.stopping = false) : Effect p (.look w) (p.set w .waiting)
  | wakeUp {w : ω} (hw : (p.workers w).phase = .waiting) : Effect p (.wakeUp w) (p.set w .looking)
  | finish {w : ω} (raised : Bool) (hw : (p.workers w).phase = .running) :
      Effect p (.finish w raised) (p.set w .looking)
  | exit {w : ω} (hw : (p.workers w).phase = .leaving) :
      Effect p (.exit w) { p.set w .exited with alive := p.alive - 1 }

variable {p' : Pool ω τ} {a : Action ω τ} {w : ω} {ph : Phase} {x : Worker τ} {maxQueue : ℕ}
  {alive : ℤ} {r : (pool ω τ maxQueue alive).Run}

theorem effect_of_step (hs : step p a = some p') : Effect p a p' := by
  cases a with
  | tryEnqueue task woken =>
    simp only [step, Option.ite_none_right_eq_some] at hs
    rw [← Option.some.inj hs.2, Pool.tryEnqueue]
    split_ifs with hc
    · exact .refuse task woken (by rw [Pool.tryEnqueue, if_pos hc])
    · have hc := not_or.mp hc
      exact .accept task (Bool.eq_false_of_not_eq_true hc.1)
        (fun hm => not_le.mp fun hle => hc.2 ⟨hm, hle⟩) hs.1
  | signalStop =>
    rw [← Option.some.inj hs]
    exact .stop
  | look w =>
    simp only [step, Option.ite_none_right_eq_some] at hs
    rw [← Option.some.inj hs.2, Pool.look]
    split
    · next ht =>
      simp only [Pool.runs, Pool.set, Function.update_self]
      exact .take hs.1 ht
    · next ht =>
      split_ifs with hst <;>
        simp only [Pool.runs, Pool.set, Function.update_self, List.append_nil]
      · exact .leave hs.1 ht hst
      · exact .wait hs.1 ht (Bool.eq_false_of_not_eq_true hst)
  | wakeUp w | finish w raised | exit w =>
    simp only [step, Option.ite_none_right_eq_some] at hs
    rw [← Option.some.inj hs.2]
    first | exact .wakeUp hs.1 | exact .finish raised hs.1 | exact .exit hs.1

/-! ### Workers by phase -/

namespace Pool

variable {p : Pool ω τ}

omit [DecidableEq ω] in
theorem mem_inPhase : w ∈ p.inPhase ph ↔ (p.workers w).phase = ph := by
  simp [inPhase]

theorem inPhase_set (hx : x.phase = ph) : (p.set w x).inPhase ph = insert w (p.inPhase ph) := by
  ext v
  by_cases hv : v = w
  · subst hv
    simp [mem_inPhase, set, hx]
  · simp [mem_inPhase, set, hv]

theorem inPhase_set_of_ne (hx : x.phase ≠ ph) :
    (p.set w x).inPhase ph = (p.inPhase ph).erase w := by
  ext v
  by_cases hv : v = w
  · subst hv
    simp [mem_inPhase, set, hx]
  · simp [mem_inPhase, set, hv]

theorem inPhase_set_other (hx : x.phase ≠ ph) (hw : (p.workers w).phase ≠ ph) :
    (p.set w x).inPhase ph = p.inPhase ph := by
  rw [inPhase_set_of_ne hx, Finset.erase_eq_of_notMem fun hm => hw (mem_inPhase.mp hm)]

omit [Fintype ω] in
theorem phase_wake (p : Pool ω τ) (ws : Finset ω) (w : ω) : ((p.wake ws).workers w).phase =
      if w ∈ ws ∧ (p.workers w).phase = .waiting then .looking else (p.workers w).phase := by
  unfold wake
  dsimp only
  split_ifs <;> rfl

theorem inPhase_wake_looking {ws : Finset ω} (h : ws ⊆ p.inPhase .waiting) :
    (p.wake ws).inPhase .looking = p.inPhase .looking ∪ ws := by
  ext v
  have hv : v ∈ ws → (p.workers v).phase = .waiting := fun hv => mem_inPhase.mp (h hv)
  rw [Finset.mem_union, mem_inPhase, mem_inPhase, phase_wake]
  by_cases hm : v ∈ ws
  · simp [hm, hv hm]
  · simp [hm]

theorem inPhase_wake_waiting (p : Pool ω τ) (ws : Finset ω) :
    (p.wake ws).inPhase .waiting = p.inPhase .waiting \ ws := by
  ext v
  rw [Finset.mem_sdiff, mem_inPhase, mem_inPhase, phase_wake]
  split_ifs with hv
  · simp [hv.1]
  · tauto

theorem inPhase_wake (hl : ph ≠ .looking) (hw : ph ≠ .waiting) (p : Pool ω τ) (ws : Finset ω) :
    (p.wake ws).inPhase ph = p.inPhase ph := by
  ext v
  rw [mem_inPhase, mem_inPhase, phase_wake]
  split_ifs with hv
  · rw [hv.2]
    exact ⟨fun h => absurd h.symm hl, fun h => absurd h.symm hw⟩
  · rfl

theorem wake_of_none (h : p.inPhase .waiting = ∅) (ws : Finset ω) : p.wake ws = p := by
  have hno : ∀ w, ¬ (p.workers w).phase = .waiting := fun w hw => by
    have : w ∈ p.inPhase .waiting := mem_inPhase.mpr hw
    rw [h] at this
    exact absurd this (Finset.notMem_empty w)
  simp [wake, hno]

end Pool

/-! ### What every interleaving keeps -/

/-- The tasks so far, those taken and those queued. -/
def Pool.all (p : Pool ω τ) : List τ := p.taken.map Prod.snd ++ p.tasks

/-- The task that an action has accepted, by what `tryEnqueue` returns. -/
def accepts (p : Pool ω τ) : Action ω τ → Option τ
  | .tryEnqueue task woken => if (p.tryEnqueue task woken).2 then some task else none
  | _ => none

/-- The tasks for which `tryEnqueue` returned true in a run, oldest first. -/
def accepted (r : (pool ω τ maxQueue alive).Run) (t : ℕ) : List τ :=
  (List.range t).filterMap fun u => (r.action u).bind (accepts (r.state u))

theorem all_step (hs : step p a = some p') : p'.all = p.all ++ (accepts p a).toList := by
  cases effect_of_step hs with
  | refuse task woken hno => simp [accepts, hno]
  | accept task hgo hroom hw =>
    have hyes : ∀ woken, (p.tryEnqueue task woken).2 = true := by
      intro woken
      rw [Pool.tryEnqueue, if_neg]
      rintro (h | ⟨h, hle⟩)
      · exact Bool.false_ne_true (hgo.symm.trans h)
      · exact absurd (hroom h) (not_lt.mpr hle)
    simp [accepts, hyes, Pool.all, Pool.enqueue, Pool.wake]
  | take hw ht => simp [accepts, Pool.all, ht]
  | stop | leave | wait | wakeUp | finish | exit => exact (List.append_nil _).symm

/-- **The tasks of a run are those accepted**, in their order. -/
theorem all_run (r : (pool ω τ maxQueue alive).Run) (t : ℕ) :
    (r.state t).all = accepted r t := by
  induction t with
  | zero => rw [show r.state 0 = _ from r.start]; rfl
  | succ t ih =>
    rw [accepted, List.range_succ, List.filterMap_append, ← accepted, ← ih]
    cases ha : r.action t with
    | none => simp [r.idle t ha, ha]
    | some a =>
      rw [all_step (r.moves t a ha)]
      cases h : accepts (r.state t) a <;> simp [ha, h]

theorem all_initial (r : (pool ω τ maxQueue alive).Run) {u : ℕ} (h : t ≤ u) :
    (r.state t).all <+: (r.state u).all :=
  r.stays (I := fun p => (r.state t).all <+: p.all) h List.prefix_rfl fun v a ha ih =>
    ih.trans ⟨_, (all_step (r.moves v a ha)).symm⟩

theorem stopping_step (hs : step p a = some p') :
    p'.stopping = true ↔ p.stopping = true ∨ a = .signalStop := by
  cases effect_of_step hs with
  | stop => simp [Pool.signalStop]
  | refuse | accept | take | leave | wait | wakeUp | finish | exit =>
    simp [Pool.enqueue, Pool.wake, Pool.set]

theorem stopping_iff (r : (pool ω τ maxQueue alive).Run) (t : ℕ) :
    (r.state t).stopping = true ↔ ∃ u, u < t ∧ r.action u = some .signalStop := by
  induction t with
  | zero =>
    rw [show r.state 0 = _ from r.start]
    simp
  | succ t ih =>
    simp only [Nat.lt_succ_iff_lt_or_eq, or_and_right, exists_or, exists_eq_left, ← ih]
    cases ha : r.action t with
    | none => simp [r.idle t ha]
    | some a => simp [stopping_step (r.moves t a ha)]

/-- The invariant of a pool. -/
structure Sound (maxQueue : ℕ) (alive : ℤ) (p : Pool ω τ) : Prop where
  maxQueue_eq : p.maxQueue = maxQueue
  bounded : 0 < maxQueue → p.tasks.length ≤ maxQueue
  /-- No wakeup is lost: while a worker waits, every queued task has a worker that is looking. -/
  covered : (p.inPhase .waiting).Nonempty → p.tasks.length ≤ (p.inPhase .looking).card
  awake : p.stopping = true → p.inPhase .waiting = ∅
  left : ∀ w, (p.workers w).phase = .leaving ∨ (p.workers w).phase = .exited →
    p.stopping = true ∧ p.tasks = []
  alive_eq : p.alive = alive - (p.inPhase .exited).card

namespace Sound

variable {p : Pool ω τ}

theorem accept (h : Sound maxQueue alive p) (task : τ) {woken : Finset ω}
    (hgo : p.stopping = false) (hroom : 0 < p.maxQueue → p.tasks.length < p.maxQueue)
    (hw : p.Signals woken) : Sound maxQueue alive (p.enqueue task woken) where
  maxQueue_eq := h.maxQueue_eq
  bounded hm := by
    rw [← h.maxQueue_eq] at hm ⊢
    change (p.tasks ++ [task]).length ≤ p.maxQueue
    rw [List.length_append]
    exact hroom hm
  covered hne := by
    change ((p.wake woken).inPhase .waiting).Nonempty at hne
    change (p.tasks ++ [task]).length ≤ ((p.wake woken).inPhase .looking).card
    rw [Pool.inPhase_wake_waiting] at hne
    have hwait : (p.inPhase .waiting).Nonempty := hne.mono Finset.sdiff_subset
    have hwoken : woken.Nonempty := by
      rw [Finset.nonempty_iff_ne_empty]
      exact fun he => hwait.ne_empty (hw.2 he)
    have hdisj : Disjoint (p.inPhase .looking) woken := by
      rw [Finset.disjoint_left]
      intro v hv hv'
      have h1 := Pool.mem_inPhase.mp hv
      rw [Pool.mem_inPhase.mp (hw.1 hv')] at h1
      cases h1
    rw [Pool.inPhase_wake_looking hw.1, Finset.card_union_of_disjoint hdisj, List.length_append]
    exact Nat.add_le_add (h.covered hwait) hwoken.card_pos
  awake hs := absurd (hgo.symm.trans hs) Bool.false_ne_true
  left w hl := by
    change ((p.wake woken).workers w).phase = .leaving ∨
      ((p.wake woken).workers w).phase = .exited at hl
    rw [Pool.phase_wake] at hl
    split_ifs at hl
    · simp at hl
    · exact absurd (hgo.symm.trans (h.left w hl).1) Bool.false_ne_true
  alive_eq := by
    change p.alive = alive - ((p.wake woken).inPhase .exited).card
    rw [Pool.inPhase_wake (by simp) (by simp)]
    exact h.alive_eq

theorem signalStop (h : Sound maxQueue alive p) : Sound maxQueue alive p.signalStop where
  maxQueue_eq := h.maxQueue_eq
  bounded := h.bounded
  covered hne := by
    change ((p.wake Finset.univ).inPhase .waiting).Nonempty at hne
    rw [Pool.inPhase_wake_waiting] at hne
    obtain ⟨v, hv⟩ := hne
    exact absurd (Finset.mem_univ v) (Finset.mem_sdiff.mp hv).2
  awake _ := by
    change (p.wake Finset.univ).inPhase .waiting = ∅
    rw [Pool.inPhase_wake_waiting]
    exact Finset.sdiff_eq_empty_iff_subset.mpr (Finset.subset_univ _)
  left w hl := by
    change ((p.wake Finset.univ).workers w).phase = .leaving ∨
      ((p.wake Finset.univ).workers w).phase = .exited at hl
    rw [Pool.phase_wake] at hl
    split_ifs at hl
    · simp at hl
    · exact ⟨rfl, (h.left w hl).2⟩
  alive_eq := by
    change p.alive = alive - ((p.wake Finset.univ).inPhase .exited).card
    rw [Pool.inPhase_wake (by simp) (by simp)]
    exact h.alive_eq

theorem set_looking (h : Sound maxQueue alive p) (hw : (p.workers w).phase ≠ .exited) :
    Sound maxQueue alive (p.set w .looking) where
  maxQueue_eq := h.maxQueue_eq
  bounded := h.bounded
  covered hne := by
    rw [Pool.inPhase_set_of_ne (by simp [Worker.phase])] at hne
    rw [Pool.inPhase_set (show Worker.looking.phase = .looking from rfl)]
    exact (h.covered (hne.mono (Finset.erase_subset _ _))).trans
      (Finset.card_le_card (Finset.subset_insert _ _))
  awake hs := by
    rw [Pool.inPhase_set_of_ne (by simp [Worker.phase]), h.awake hs, Finset.erase_empty]
  left v hl := by
    by_cases hv : v = w
    · subst hv
      simp [Pool.set, Worker.phase] at hl
    · exact h.left v (by simpa [Pool.set, hv] using hl)
  alive_eq := by
    rw [Pool.inPhase_set_other (by simp [Worker.phase]) hw]
    exact h.alive_eq

theorem take (h : Sound maxQueue alive p) (hw : (p.workers w).phase = .looking) {task : τ}
    {rest : List τ} (ht : p.tasks = task :: rest) : Sound maxQueue alive
      { p.set w (.running task) with tasks := rest, taken := p.taken ++ [(w, task)] } where
  maxQueue_eq := h.maxQueue_eq
  bounded hm := by
    have hb := h.bounded hm
    rw [ht, List.length_cons] at hb
    exact (Nat.le_succ _).trans hb
  covered hne := by
    change ((p.set w (.running task)).inPhase .waiting).Nonempty at hne
    change rest.length ≤ ((p.set w (.running task)).inPhase .looking).card
    rw [Pool.inPhase_set_other (by simp [Worker.phase]) (by simp [hw])] at hne
    rw [Pool.inPhase_set_of_ne (by simp [Worker.phase]),
      Finset.card_erase_of_mem (Pool.mem_inPhase.mpr hw)]
    have hc := h.covered hne
    rw [ht, List.length_cons] at hc
    exact Nat.le_sub_one_of_lt hc
  awake hs := by
    change (p.set w (.running task)).inPhase .waiting = ∅
    rw [Pool.inPhase_set_other (by simp [Worker.phase]) (by simp [hw])]
    exact h.awake hs
  left v hl := by
    by_cases hv : v = w
    · subst hv
      simp [Pool.set, Worker.phase] at hl
    · have hl' := (h.left v (by simpa [Pool.set, hv] using hl)).2
      rw [ht] at hl'
      cases hl'
  alive_eq := by
    change p.alive = alive - ((p.set w (.running task)).inPhase .exited).card
    rw [Pool.inPhase_set_other (by simp [Worker.phase]) (by simp [hw])]
    exact h.alive_eq

theorem rest (h : Sound maxQueue alive p) (hw : (p.workers w).phase = .looking) (ht : p.tasks = [])
    (hx : if p.stopping then x = .leaving else x = .waiting) :
    Sound maxQueue alive (p.set w x) where
  maxQueue_eq := h.maxQueue_eq
  bounded := h.bounded
  covered _ := by
    change p.tasks.length ≤ _
    rw [ht]
    exact Nat.zero_le _
  awake hs := by
    change p.stopping = true at hs
    rw [hs, if_pos rfl] at hx
    rw [hx, Pool.inPhase_set_other (by simp [Worker.phase]) (by simp [hw])]
    exact h.awake hs
  left v hl := by
    by_cases hv : v = w
    · subst hv
      cases hs : p.stopping with
      | true => exact ⟨hs, ht⟩
      | false =>
        rw [hs, if_neg (by simp)] at hx
        rw [hx] at hl
        simp [Pool.set, Worker.phase] at hl
    · exact h.left v (by simpa [Pool.set, hv] using hl)
  alive_eq := by
    have hne : x.phase ≠ .exited := by
      split_ifs at hx <;> rw [hx] <;> simp [Worker.phase]
    rw [Pool.inPhase_set_other hne (by simp [hw])]
    exact h.alive_eq

theorem exit (h : Sound maxQueue alive p) (hw : (p.workers w).phase = .leaving) :
    Sound maxQueue alive { p.set w .exited with alive := p.alive - 1 } where
  maxQueue_eq := h.maxQueue_eq
  bounded := h.bounded
  covered _ := by
    change p.tasks.length ≤ _
    rw [(h.left w (.inl hw)).2]
    exact Nat.zero_le _
  awake hs := by
    change (p.set w .exited).inPhase .waiting = ∅
    rw [Pool.inPhase_set_other (by simp [Worker.phase]) (by simp [hw])]
    exact h.awake hs
  left _ _ := h.left w (.inl hw)
  alive_eq := by
    change p.alive - 1 = alive - ((p.set w .exited).inPhase .exited).card
    have hnot : w ∉ p.inPhase .exited := fun hm => by
      have h' := Pool.mem_inPhase.mp hm
      rw [hw] at h'
      cases h'
    rw [Pool.inPhase_set (show Worker.exited.phase = .exited from rfl),
      Finset.card_insert_of_notMem hnot, h.alive_eq]
    push_cast
    omega

end Sound

theorem Sound.step {maxQueue : ℕ} {alive : ℤ} {p : Pool ω τ} (h : Sound maxQueue alive p)
    (hs : step p a = some p') : Sound maxQueue alive p' := by
  cases effect_of_step hs with
  | refuse => exact h
  | accept task hgo hroom hw => exact h.accept task hgo hroom hw
  | stop => exact h.signalStop
  | take hw ht => exact h.take hw ht
  | leave hw ht hst | wait hw ht hst => exact h.rest hw ht (by simp [hst])
  | wakeUp hw | finish raised hw => exact h.set_looking (by simp [hw])
  | exit hw => exact h.exit hw

theorem sound_of_reachable (h : (pool ω τ maxQueue alive).Reachable p) :
    Sound maxQueue alive p := by
  refine h.invariant ?_ (fun p a p' hp hs => hp.step hs)
  rintro p rfl
  have hno : ∀ ph : Phase, ph ≠ .looking →
      Pool.inPhase ({ maxQueue := maxQueue, alive := alive } : Pool ω τ) ph = ∅ := by
    intro ph hne
    simp [Pool.inPhase, Worker.phase, Ne.symm hne]
  refine ⟨rfl, fun _ => Nat.zero_le _, fun _ => Nat.zero_le _, fun _ => hno _ (by simp),
    fun w hl => ?_, ?_⟩
  · simp [Worker.phase] at hl
  · rw [hno _ (by simp)]
    simp

/-! ### What a fair interleaving brings about -/

/-- Some worker in the phase, if there is one. -/
noncomputable def someIn [Nonempty ω] (p : Pool ω τ) (ph : Phase) : ω := by
  classical exact if h : (p.inPhase ph).Nonempty then h.choose else Classical.arbitrary ω

omit [DecidableEq ω] in
theorem phase_someIn [Nonempty ω] (h : (p.inPhase ph).Nonempty) :
    (p.workers (someIn p ph)).phase = ph := by
  unfold someIn
  rw [dif_pos h]
  exact Pool.mem_inPhase.mp h.choose_spec

theorem enabled_of_phase (h : (p.workers w).phase = .looking ∨
    (p.workers w).phase = .running ∨ (p.workers w).phase = .leaving) :
    (pool ω τ maxQueue alive).Enabled thread w p := by
  rcases h with h | h | h
  · exact ⟨.look w, rfl, by simp [pool, step, h]⟩
  · exact ⟨.finish w false, rfl, by simp [pool, step, h]⟩
  · exact ⟨.exit w, rfl, by simp [pool, step, h]⟩

theorem phase_of_enabled (h : (pool ω τ maxQueue alive).Enabled thread w p) :
    (p.workers w).phase ≠ .waiting ∧ (p.workers w).phase ≠ .exited := by
  obtain ⟨a, ha, hs⟩ := h
  obtain ⟨p', hs⟩ := Option.isSome_iff_exists.mp hs
  cases effect_of_step hs with
  | refuse | accept | stop | wakeUp => cases ha
  | take hw | leave hw | wait hw | finish _ hw | exit hw =>
    cases ha
    simp [hw]

omit [DecidableEq ω] in
theorem Sound.running_of_queued (h : Sound maxQueue alive p) (ht : p.tasks ≠ [])
    (hl : p.inPhase .looking = ∅) (w : ω) : (p.workers w).phase = .running := by
  cases hw : p.workers w with
  | looking =>
    have hm : w ∈ p.inPhase .looking := Pool.mem_inPhase.mpr (by rw [hw]; rfl)
    rw [hl] at hm
    exact absurd hm (Finset.notMem_empty w)
  | waiting =>
    have hm : w ∈ p.inPhase .waiting := Pool.mem_inPhase.mpr (by rw [hw]; rfl)
    have hc := h.covered ⟨w, hm⟩
    rw [hl, Finset.card_empty, Nat.le_zero, List.length_eq_zero_iff] at hc
    exact absurd hc ht
  | running task => rfl
  | leaving => exact absurd (h.left w (.inl (by rw [hw]; rfl))).2 ht
  | exited => exact absurd (h.left w (.inr (by rw [hw]; rfl))).2 ht

/-- The workers that are not looking. -/
def Pool.away (p : Pool ω τ) : Finset ω := (p.inPhase .looking)ᶜ

theorem Pool.mem_away : w ∈ p.away ↔ (p.workers w).phase ≠ .looking := by
  rw [Pool.away, Finset.mem_compl, Pool.mem_inPhase]

theorem card_away_wake {ws : Finset ω} (h : ws ⊆ p.inPhase .waiting) (hne : ws.Nonempty) :
    (p.wake ws).away.card < p.away.card := by
  obtain ⟨v, hv⟩ := hne
  have hw := Pool.mem_inPhase.mp (h hv)
  refine Finset.card_lt_card (Finset.compl_ssubset_compl.mpr ⟨?_, fun hsub => ?_⟩)
  · rw [Pool.inPhase_wake_looking h]
    exact Finset.subset_union_left
  · rw [Pool.inPhase_wake_looking h] at hsub
    have hl := Pool.mem_inPhase.mp (hsub (Finset.mem_union_right _ hv))
    rw [hw] at hl
    cases hl

theorem card_away_set (hw : (p.workers w).phase ≠ .looking) :
    (p.set w .looking).away.card < p.away.card := by
  have hs : (p.set w .looking).inPhase .looking = insert w (p.inPhase .looking) :=
    Pool.inPhase_set rfl
  refine Finset.card_lt_card (Finset.compl_ssubset_compl.mpr ?_)
  rw [hs]
  exact Finset.ssubset_insert fun hm => hw (Pool.mem_inPhase.mp hm)

/-- The thread that brings the next task forward. -/
noncomputable def helper [Nonempty ω] (p : Pool ω τ) : ω :=
  if (p.inPhase .looking).Nonempty then someIn p .looking else someIn p .running

omit [DecidableEq ω] in
theorem helper_congr [Nonempty ω] (h : p'.workers = p.workers) : helper p' = helper p := by
  have hp : ∀ ph, p'.inPhase ph = p.inPhase ph := fun ph => by simp only [Pool.inPhase, h]
  have hs : ∀ ph, someIn p' ph = someIn p ph := fun ph => by simp only [someIn, hp]
  simp only [helper, hp, hs]

theorem enabled_helper [Nonempty ω] (h : Sound maxQueue alive p) (ht : p.tasks ≠ []) :
    (pool ω τ maxQueue alive).Enabled thread (helper p) p := by
  refine enabled_of_phase ?_
  unfold helper
  split_ifs with hl
  · exact .inl (phase_someIn hl)
  · exact .inr (.inl (h.running_of_queued ht (Finset.not_nonempty_iff_eq_empty.mp hl) _))

/-- The `i`-th accepted task is queued. -/
def Queued (i : ℕ) (p : Pool ω τ) : Prop := p.taken.length ≤ i ∧ i < p.all.length

omit [Fintype ω] [DecidableEq ω] in
theorem Queued.tasks_ne_nil {i : ℕ} (hq : Queued i p) : p.tasks ≠ [] := by
  intro he
  have h2 := hq.2
  rw [Pool.all, he, List.append_nil, List.length_map] at h2
  exact absurd hq.1 (not_le.mpr h2)

/-- **An accepted task is taken.** -/
theorem taken_of_queued [Nonempty ω] (hr : r.Fair thread) {i : ℕ} (h : Queued i (r.state t)) :
    ∃ u, t ≤ u ∧ i < (r.state u).taken.length := by
  refine System.Run.leadsTo (A := fun _ => True) (Q := fun p => i < p.taken.length) hr
    (fun p => toLex (i - p.taken.length, p.away.card)) helper
    (fun p hp hq => enabled_helper (sound_of_reachable hp) hq.tasks_ne_nil) ?_ (fun _ _ _ _ => trivial) h
  intro p a p' hreach hq _ hs
  have hsound := sound_of_reachable hreach
  have hne := hq.tasks_ne_nil
  have hall := all_step hs
  change step p a = some p' at hs
  cases effect_of_step hs with
  | refuse => exact .inr ⟨hq, .inr ⟨rfl, rfl, by simp [thread]⟩⟩
  | @accept task woken _ _ hw =>
    refine .inr ⟨⟨hq.1, hq.2.trans_le ?_⟩, ?_⟩
    · rw [hall]
      exact (List.prefix_append _ _).length_le
    · by_cases hne : woken.Nonempty
      · exact .inl (Prod.Lex.right _ (card_away_wake hw.1 hne))
      · have hn := hw.2 (Finset.not_nonempty_iff_eq_empty.mp hne)
        rw [Pool.enqueue, Pool.wake_of_none hn]
        exact .inr ⟨rfl, helper_congr rfl, by simp [thread]⟩
  | stop =>
    refine .inr ⟨hq, ?_⟩
    by_cases hw : (p.inPhase .waiting).Nonempty
    · left
      have hwake : (p.wake Finset.univ).away = (p.wake (p.inPhase .waiting)).away := by
        ext v
        simp only [Pool.mem_away, Pool.phase_wake, Finset.mem_univ, true_and,
          Pool.mem_inPhase, and_self]
      refine Prod.Lex.right _ ?_
      change (p.wake Finset.univ).away.card < p.away.card
      rw [hwake]
      exact card_away_wake subset_rfl hw
    · right
      have hn := Finset.not_nonempty_iff_eq_empty.mp hw
      unfold Pool.signalStop
      rw [Pool.wake_of_none hn]
      exact ⟨rfl, helper_congr rfl, by simp [thread]⟩
  | take hw ht =>
    by_cases hi : i < p.taken.length + 1
    · left
      simpa using hi
    · refine .inr ⟨⟨by simpa using hi, ?_⟩, .inl (Prod.Lex.left _ _ ?_)⟩
      · rw [hall]
        exact hq.2.trans_le (List.prefix_append _ _).length_le
      simp only [List.length_append, List.length_singleton]
      omega
  | leave _ ht | wait _ ht => exact absurd ht hne
  | wakeUp hw | finish raised hw =>
    exact .inr ⟨hq, .inl (Prod.Lex.right _ (card_away_set (by simp [hw])))⟩
  | exit hw => exact absurd (hsound.left _ (.inl hw)).2 hne

theorem all_taken [Nonempty ω] (hr : r.Fair thread) (t : ℕ) :
    ∃ u, t ≤ u ∧ (r.state t).all <+: (r.state u).taken.map Prod.snd := by
  obtain ⟨u, hu, hlen⟩ : ∃ u, t ≤ u ∧ (r.state t).all.length ≤ (r.state u).taken.length := by
    by_cases hd : (r.state t).all.length ≤ (r.state t).taken.length
    · exact ⟨t, le_rfl, hd⟩
    · obtain ⟨u, hu, hlt⟩ := taken_of_queued hr (t := t) (i := (r.state t).all.length - 1)
        ⟨by omega, by omega⟩
      exact ⟨u, hu, by omega⟩
  refine ⟨u, hu, List.prefix_of_prefix_length_le (all_initial r hu) (List.prefix_append _ _) ?_⟩
  simpa using hlen

/-- How long a worker can go on waiting while tasks are queued. -/
def patience (p : Pool ω τ) : ℕ ×ₗ ℕ ×ₗ ℕ :=
  toLex ((p.inPhase .waiting).card, toLex (p.tasks.length, p.away.card))

theorem patience_step [Nonempty ω] (h : Sound maxQueue alive p)
    (hw : (p.workers w).phase = .waiting ∧ p.tasks ≠ []) (hs : step p a = some p')
    (hw' : (p'.workers w).phase = .waiting ∧ p'.tasks ≠ []) :
    patience p' < patience p ∨ p' = p ∧ thread a = none := by
  cases effect_of_step hs with
  | refuse => exact .inr ⟨rfl, rfl⟩
  | @accept task woken _ _ hsig =>
    refine .inl (Prod.Lex.left _ _ ?_)
    change ((p.wake woken).inPhase .waiting).card < (p.inPhase .waiting).card
    have hne : woken.Nonempty := by
      rw [Finset.nonempty_iff_ne_empty]
      exact fun he => Finset.ne_empty_of_mem (Pool.mem_inPhase.mpr hw.1) (hsig.2 he)
    rw [Pool.inPhase_wake_waiting]
    exact Finset.card_lt_card (Finset.sdiff_ssubset hsig.1 hne)
  | stop =>
    have hl : ((p.wake Finset.univ).workers w).phase = .waiting := hw'.1
    rw [Pool.phase_wake, if_pos ⟨Finset.mem_univ w, hw.1⟩] at hl
    cases hl
  | @take v task rest hv ht =>
    have hsame : (p.set v (.running task)).inPhase .waiting = p.inPhase .waiting :=
      Pool.inPhase_set_other (by simp [Worker.phase]) (by simp [hv])
    left
    change toLex (((p.set v (.running task)).inPhase .waiting).card, _) < patience p
    rw [hsame]
    refine Prod.Lex.right _ (Prod.Lex.left _ _ ?_)
    rw [ht]
    exact Nat.lt_succ_self _
  | leave _ ht | wait _ ht => exact absurd ht hw.2
  | wakeUp hv =>
    refine .inl (Prod.Lex.left _ _ ?_)
    rw [Pool.inPhase_set_of_ne (by simp [Worker.phase])]
    exact Finset.card_erase_lt_of_mem (Pool.mem_inPhase.mpr hv)
  | @finish v raised hv =>
    have hsame : (p.set v .looking).inPhase .waiting = p.inPhase .waiting :=
      Pool.inPhase_set_other (by simp [Worker.phase]) (by simp [hv])
    left
    change toLex (((p.set v .looking).inPhase .waiting).card, _) < patience p
    rw [hsame]
    exact Prod.Lex.right _ (Prod.Lex.right _ (card_away_set (by simp [hv])))
  | exit hv => exact absurd (h.left _ (.inl hv)).2 hw.2

/-- **No worker waits for ever while a task is queued.**  Either the queue gets empty, or the
worker wakes up. -/
theorem not_waiting_for_ever (hr : r.Fair thread) (w : ω) (t : ℕ) : ∃ u, t ≤ u ∧
      ¬ (((r.state u).workers w).phase = .waiting ∧ (r.state u).tasks ≠ []) := by
  have : Nonempty ω := ⟨w⟩
  by_cases h : ((r.state t).workers w).phase = .waiting ∧ (r.state t).tasks ≠ []
  · refine System.Run.leadsTo (A := fun _ => True)
      (P := fun p => (p.workers w).phase = .waiting ∧ p.tasks ≠ [])
      (Q := fun p => ¬ ((p.workers w).phase = .waiting ∧ p.tasks ≠ [])) hr patience
      (fun p => someIn p .looking) (fun p hp hw => enabled_of_phase (.inl (phase_someIn ?_))) ?_
      (fun _ _ _ _ => trivial) h
    · have hc := (sound_of_reachable hp).covered ⟨w, Pool.mem_inPhase.mpr hw.1⟩
      exact Finset.card_pos.mp ((List.length_pos_of_ne_nil hw.2).trans_le hc)
    · intro p a p' hreach hw _ hs
      by_cases hw' : (p'.workers w).phase = .waiting ∧ p'.tasks ≠ []
      · refine .inr ⟨hw', ?_⟩
        rcases patience_step (sound_of_reachable hreach) hw hs hw' with hlt | ⟨rfl, ha⟩
        · exact .inl hlt
        · exact .inr ⟨rfl, rfl, by simp [ha]⟩
      · exact .inl hw'
  · exact ⟨t, le_rfl, h⟩

/-! ### Stopping -/

/-- The steps a worker still has to take when the pool is stopping and the queue is empty. -/
def Phase.toGo : Phase → ℕ
  | .waiting => 3
  | .running => 3
  | .looking => 2
  | .leaving => 1
  | .exited => 0

/-- How far the pool is from having no thread left. -/
def unfinished (p : Pool ω τ) : ℕ ×ₗ ℕ :=
  toLex (p.tasks.length, ∑ w, (p.workers w).phase.toGo)

theorem toGo_set (h : x.phase.toGo < (p.workers w).phase.toGo) :
    ∑ v, ((p.set w x).workers v).phase.toGo < ∑ v, (p.workers v).phase.toGo := by
  refine Finset.sum_lt_sum (fun v _ => ?_) ⟨w, Finset.mem_univ w, ?_⟩
  · by_cases hv : v = w
    · subst hv
      simpa [Pool.set] using h.le
    · simp [Pool.set, hv]
  · simpa [Pool.set] using h

theorem unfinished_step (h : Sound maxQueue alive p) (hstop : p.stopping = true)
    (hs : step p a = some p') :
    p'.stopping = true ∧ (unfinished p' < unfinished p ∨ p' = p ∧ thread a = none) := by
  have hgo (hw : p.stopping = false) : False := Bool.false_ne_true (hw.symm.trans hstop)
  have hset {w : ω} (n : ℕ) {x : Worker τ} (hw : (p.workers w).phase.toGo = n + 1)
      (hx : x.phase.toGo = n) : unfinished (p.set w x) < unfinished p :=
    Prod.Lex.right _ (toGo_set (by omega))
  cases effect_of_step hs with
  | refuse => exact ⟨hstop, .inr ⟨rfl, rfl⟩⟩
  | accept task h => exact (hgo h).elim
  | stop =>
    have he : p.signalStop = p := by
      unfold Pool.signalStop
      rw [Pool.wake_of_none (h.awake hstop), ← hstop]
    rw [he]
    exact ⟨hstop, .inr ⟨rfl, rfl⟩⟩
  | take hw ht =>
    refine ⟨hstop, .inl (Prod.Lex.left _ _ ?_)⟩
    rw [ht]
    exact Nat.lt_succ_self _
  | leave hw => exact ⟨hstop, .inl (hset 1 (by rw [hw]; rfl) rfl)⟩
  | wait _ _ h => exact (hgo h).elim
  | wakeUp hw | finish raised hw => exact ⟨hstop, .inl (hset 2 (by rw [hw]; rfl) rfl)⟩
  | exit hw => exact ⟨hstop, .inl (hset 0 (by rw [hw]; rfl) rfl)⟩

/-- Some worker that has not ended, if there is one. -/
noncomputable def someLeft [Nonempty ω] (p : Pool ω τ) : ω := by
  classical exact
    if h : ∃ w, (p.workers w).phase ≠ .exited then h.choose else Classical.arbitrary ω

theorem enabled_someLeft [Nonempty ω] (h : Sound maxQueue alive p) (hstop : p.stopping = true)
    (hleft : ¬ ∀ w, (p.workers w).phase = .exited) :
    (pool ω τ maxQueue alive).Enabled thread (someLeft p) p := by
  have hex : ∃ w, (p.workers w).phase ≠ .exited := not_forall.mp hleft
  have hne : (p.workers (someLeft p)).phase ≠ .exited := by
    unfold someLeft
    rw [dif_pos hex]
    exact hex.choose_spec
  refine enabled_of_phase ?_
  cases hph : (p.workers (someLeft p)).phase with
  | looking => exact .inl rfl
  | waiting =>
    have hm : someLeft p ∈ p.inPhase .waiting := Pool.mem_inPhase.mpr hph
    rw [h.awake hstop] at hm
    exact absurd hm (Finset.notMem_empty _)
  | running => exact .inr (.inl rfl)
  | leaving => exact .inr (.inr rfl)
  | exited => exact absurd hph hne

/-- **After a stop every worker ends.** -/
theorem exited_of_stopping [Nonempty ω] (hr : r.Fair thread) (hstop : (r.state t).stopping = true) :
    ∃ u, t ≤ u ∧ ∀ w, ((r.state u).workers w).phase = .exited := by
  by_cases h : ∀ w, ((r.state t).workers w).phase = .exited
  · exact ⟨t, le_rfl, h⟩
  · refine System.Run.leadsTo (A := fun _ => True)
      (P := fun p => p.stopping = true ∧ ¬ ∀ w, (p.workers w).phase = .exited)
      (Q := fun p => ∀ w, (p.workers w).phase = .exited) hr unfinished someLeft
      (fun p hp hq => enabled_someLeft (sound_of_reachable hp) hq.1 hq.2) ?_
      (fun _ _ _ _ => trivial) ⟨hstop, h⟩
    intro p a p' hreach hq _ hs
    obtain ⟨hst, hdec⟩ := unfinished_step (sound_of_reachable hreach) hq.1 hs
    by_cases hall : ∀ w, (p'.workers w).phase = .exited
    · exact .inl hall
    · refine .inr ⟨⟨hst, hall⟩, ?_⟩
      rcases hdec with hlt | ⟨rfl, ha⟩
      · exact .inl hlt
      · exact .inr ⟨rfl, rfl, by simp [ha]⟩

/-! ### The pool as a whole -/

/-- **Every accepted task runs exactly once.**  In every interleaving of a pool of `n + 1` workers,
at every moment: the tasks taken, each by the one worker noted with it, and the tasks queued are
those for which `tryEnqueue` returned true, in the order of the calls; the queue keeps its bound;
the pool is stopping if and only if it was told to, and accepts nothing then; a worker has left its
loop only when the pool is stopping and the queue is empty, and the counter of live threads was
decremented once for each that ended; while a worker waits, every queued task has a worker that is
looking.  In every fair interleaving: every accepted task is taken, no worker waits for ever while
a task is queued, and after a stop every worker ends. -/
theorem pool_runs_accepted_tasks (n maxQueue : ℕ) (alive : ℤ)
    (r : (pool (Fin (n + 1)) τ maxQueue alive).Run) :
    (∀ t p, r.state t = p →
      p.taken.map Prod.snd ++ p.tasks = accepted r t ∧
      (0 < maxQueue → p.tasks.length ≤ maxQueue) ∧
      (p.stopping = true ↔ ∃ u, u < t ∧ r.action u = some .signalStop) ∧
      (p.stopping = true → ∀ task woken, (p.tryEnqueue task woken).2 = false) ∧
      (∀ w, p.workers w = .leaving ∨ p.workers w = .exited → p.stopping = true ∧ p.tasks = []) ∧
      p.alive = alive - (p.inPhase .exited).card ∧
      ((∃ w, p.workers w = .waiting) → p.tasks.length ≤ (p.inPhase .looking).card)) ∧
    (r.Fair thread →
      (∀ t, ∃ u, t ≤ u ∧ accepted r t <+: (r.state u).taken.map Prod.snd) ∧
      (∀ t w, ∃ u, t ≤ u ∧ ¬ ((r.state u).workers w = .waiting ∧ (r.state u).tasks ≠ [])) ∧
      ∀ t, r.action t = some .signalStop →
        ∃ u, t ≤ u ∧ ∀ w, (r.state u).workers w = .exited) := by
  constructor
  · rintro t p rfl
    have h := sound_of_reachable (r.reachable t)
    refine ⟨all_run r t, h.bounded, stopping_iff r t, fun hs task woken => ?_,
      fun w hw => ?_, h.alive_eq, ?_⟩
    · rw [Pool.tryEnqueue, if_pos (.inl hs)]
    · refine h.left w (hw.imp (fun e => ?_) (fun e => ?_)) <;> rw [e] <;> rfl
    · rintro ⟨w, hw⟩
      exact h.covered ⟨w, Pool.mem_inPhase.mpr (by rw [hw]; rfl)⟩
  · intro hr
    refine ⟨fun t => ?_, fun t w => ?_, fun t hs => ?_⟩
    · obtain ⟨u, hu, htaken⟩ := all_taken hr t
      exact ⟨u, hu, all_run r t ▸ htaken⟩
    · obtain ⟨u, hu, hn⟩ := not_waiting_for_ever hr w t
      refine ⟨u, hu, fun h => hn ⟨?_, h.2⟩⟩
      rw [h.1]
      rfl
    · obtain ⟨u, hu, hall⟩ :=
        exited_of_stopping hr ((stopping_iff r (t + 1)).mpr ⟨t, Nat.lt_succ_self t, hs⟩)
      refine ⟨u, (Nat.le_succ t).trans hu, fun w => ?_⟩
      have hw := hall w
      cases hx : (r.state u).workers w <;> rw [hx] at hw <;> first | rfl | cases hw

/-! ### A small interleaving -/

/-- One worker that waits, is given a task that raises, and is stopped. -/
def oneTask : List (Action (Fin 1) ℕ) :=
  [.look 0, .tryEnqueue 7 {0}, .look 0, .finish 0 true, .look 0, .signalStop, .look 0, .exit 0]

theorem isSome_oneTask :
    ((pool (Fin 1) ℕ 1 1).execute oneTask { maxQueue := 1, alive := 1 }).isSome := by
  decide

def oneTaskRun : (pool (Fin 1) ℕ 1 1).Run :=
  System.Run.ofActions oneTask rfl isSome_oneTask

theorem oneTaskRun_fair : oneTaskRun.Fair thread := by
  refine System.Run.fair_ofActions rfl (Option.some_get isSome_oneTask).symm ?_
  exact fun w h => (phase_of_enabled h).2 (by clear h; revert w; decide)

theorem pool_runs_accepted_tasks_oneTask : oneTaskRun.Fair thread ∧
    accepted oneTaskRun 2 = [7] ∧ oneTaskRun.action 5 = some .signalStop ∧
    (∃ u, 2 ≤ u ∧ accepted oneTaskRun 2 <+: (oneTaskRun.state u).taken.map Prod.snd) ∧
    ∃ u, 5 ≤ u ∧ ∀ w, (oneTaskRun.state u).workers w = .exited :=
  have h := (pool_runs_accepted_tasks 0 1 1 oneTaskRun).2 oneTaskRun_fair
  ⟨oneTaskRun_fair, by decide, rfl, h.1 2, h.2.2 5 rfl⟩

end Vortex.WorkerPool
