import Mathlib.Algebra.Group.Nat.Defs
import Mathlib.Data.Finset.Card
import Mathlib.Tactic.Common
import Vortex.System

/-! # The outbox of an event loop

Workers and other threads hand messages to an event loop through its outbox (`connection.nim`):
`push` appends under the lock and, if the queue was empty, writes the wakeup descriptor after
releasing it; the loop waits for the descriptor, empties it (`drainWake`) and then takes the whole
queue (`drain`).  The descriptor is an eventfd, or a pipe that is read 256 bytes at a time.

The atomic actions are the locked sections and the system calls; all interleavings of any number
of pushers with the loop are the runs of `outbox`.  A stop request writes the descriptor without
pushing anything.

What was pushed is read off the actions (`pushed`); `State.drains` records what the drains
returned. -/

namespace Vortex.Outbox

/-! ### The wakeup descriptor -/

/-- The wakeup descriptor: an eventfd, or a pipe with room for `room + 1` wakeups. -/
inductive Descriptor where
  | eventfd
  | pipe (room : ℕ)
deriving DecidableEq, Repr

/-- The largest value of an eventfd counter. -/
def maxCounter : ℕ := 2 ^ 64 - 2

/-- The 8-byte wakeups that a 256-byte read of `drainWake` takes. -/
def wakeupsPerRead : ℕ := 256 / 8

/-- `wakeLoopFd`: a write to a full descriptor fails and changes nothing. -/
def Descriptor.write : Descriptor → ℕ → ℕ
  | .eventfd, n => if n < maxCounter then n + 1 else n
  | .pipe room, n => if n < room + 1 then n + 1 else n

/-- One read of `drainWake`: what the descriptor holds after it, and whether it is read again. -/
def Descriptor.read : Descriptor → ℕ → ℕ × Bool
  | .eventfd, _ => (0, false)
  | .pipe _, n => if wakeupsPerRead ≤ n then (n - wakeupsPerRead, true) else (0, false)

theorem Descriptor.write_pos (d : Descriptor) (n : ℕ) : 0 < d.write n := by
  cases d with
  | eventfd =>
    have hm : 0 < maxCounter := by decide
    simp only [Descriptor.write]
    split_ifs <;> omega
  | pipe room =>
    simp only [Descriptor.write]
    split_ifs <;> omega

theorem Descriptor.write_le (d : Descriptor) (n : ℕ) : d.write n ≤ n + 1 := by
  cases d <;> simp only [Descriptor.write] <;> split_ifs <;> omega

theorem Descriptor.read_again {d : Descriptor} {n : ℕ} (h : (d.read n).2 = true) :
    (d.read n).1 < n := by
  have hw : 0 < wakeupsPerRead := by decide
  cases d with
  | eventfd => cases h
  | pipe room =>
    simp only [Descriptor.read] at h ⊢
    split_ifs at h ⊢ with hn
    exact Nat.sub_lt (hw.trans_le hn) hw

/-! ### The system -/

/-- Where the loop is: waiting for events, in `drainWake`, about to drain, or applying what it
drained. -/
inductive LoopPhase where
  | waiting | emptying | draining | applying
deriving DecidableEq, Repr

section

variable (ι α : Type) [DecidableEq ι]

/-- The outbox, its loop and its pushers. -/
structure State where
  msgs : List (ι × α) := []
  /-- Wakeups the descriptor holds. -/
  wakeups : ℕ := 0
  /-- Pushers that found the queue empty and have not written the descriptor yet. -/
  waking : Finset ι := ∅
  loop : LoopPhase := .waiting
  /-- What every drain returned, oldest first. -/
  drains : List (List (ι × α)) := []

/-- One atomic action. -/
inductive Action where
  /-- The locked section of `push`. -/
  | push (p : ι) (m : α)
  /-- The write after it. -/
  | wake (p : ι)
  /-- The write of a stop request. -/
  | stopRequest
  /-- The loop's wait reports the descriptor readable. -/
  | select
  /-- One read of `drainWake`. -/
  | readWake
  /-- The locked swap of `drain`. -/
  | drain
  /-- The drained messages were applied and the loop goes back to wait. -/
  | applied
deriving DecidableEq, Repr

end

variable {ι α : Type} [DecidableEq ι] {i : ℕ}

/-- The locked section of `push`: append, and note whether the queue was empty. -/
def State.push (s : State ι α) (p : ι) (m : α) : State ι α :=
  let wasEmpty := s.msgs.isEmpty
  { s with
    msgs := s.msgs ++ [(p, m)]
    waking := if wasEmpty then insert p s.waking else s.waking }

/-- The locked section of `drain`, and what it returns. -/
def State.drain (s : State ι α) : State ι α × List (ι × α) := ({ s with msgs := [] }, s.msgs)

def step (d : Descriptor) (s : State ι α) : Action ι α → Option (State ι α)
  | .push p m => if p ∈ s.waking then none else some (s.push p m)
  | .wake p =>
      if p ∈ s.waking then
        some { s with waking := s.waking.erase p, wakeups := d.write s.wakeups }
      else none
  | .stopRequest => some { s with wakeups := d.write s.wakeups }
  | .select =>
      if s.loop = .waiting ∧ 0 < s.wakeups then some { s with loop := .emptying } else none
  | .readWake =>
      if s.loop = .emptying then
        let r := d.read s.wakeups
        some { s with wakeups := r.1, loop := if r.2 then .emptying else .draining }
      else none
  | .drain =>
      if s.loop = .draining then
        let r := s.drain
        some { r.1 with drains := s.drains ++ [r.2], loop := .applying }
      else none
  | .applied => if s.loop = .applying then some { s with loop := .waiting } else none

/-- All interleavings of pushers and loop, over the descriptor `d`. -/
def outbox (ι α : Type) [DecidableEq ι] (d : Descriptor) : System (State ι α) (Action ι α) where
  init s := s = {}
  step := step d

/-- A thread: the loop, or a pusher that owes a write. -/
inductive Thread (ι : Type) where
  | loop
  | pusher (p : ι)
deriving DecidableEq, Repr

/-- Whose action it is.  Nobody has to push, or to stop the server. -/
def thread : Action ι α → Option (Thread ι)
  | .push _ _ => none
  | .wake p => some (.pusher p)
  | .stopRequest => none
  | _ => some .loop

variable {d : Descriptor} {s s' : State ι α} {a : Action ι α}

/-- **What an action does.** -/
inductive Effect (d : Descriptor) (s : State ι α) : Action ι α → State ι α → Prop
  | push (p : ι) (m : α) : Effect d s (.push p m) (s.push p m)
  | wake {p : ι} (hp : p ∈ s.waking) : Effect d s (.wake p)
      { s with waking := s.waking.erase p, wakeups := d.write s.wakeups }
  | stopRequest : Effect d s .stopRequest { s with wakeups := d.write s.wakeups }
  | select (hl : s.loop = .waiting) (hpos : 0 < s.wakeups) :
      Effect d s .select { s with loop := .emptying }
  | readWake (hl : s.loop = .emptying) : Effect d s .readWake { s with
      wakeups := (d.read s.wakeups).1
      loop := if (d.read s.wakeups).2 then .emptying else .draining }
  | drain (hl : s.loop = .draining) : Effect d s .drain
      { s with drains := s.drains ++ [s.msgs], msgs := [], loop := .applying }
  | applied (hl : s.loop = .applying) : Effect d s .applied { s with loop := .waiting }

theorem effect_of_step (hs : step d s a = some s') : Effect d s a s' := by
  cases a <;> simp only [step, Option.ite_none_right_eq_some, Option.ite_none_left_eq_some,
    Option.some.injEq] at hs
  case push p m => exact hs.2 ▸ .push p m
  case wake p => exact hs.2 ▸ .wake hs.1
  case stopRequest => exact hs ▸ .stopRequest
  case select => exact hs.2 ▸ .select hs.1.1 hs.1.2
  case readWake => exact hs.2 ▸ .readWake hs.1
  case drain => exact hs.2 ▸ .drain hs.1
  case applied => exact hs.2 ▸ .applied hs.1

/-! ### What every interleaving keeps -/

/-- All messages so far, those drained and those queued. -/
def State.all (s : State ι α) : List (ι × α) := s.drains.flatten ++ s.msgs

/-- What an action pushes. -/
def pushOf : Action ι α → Option (ι × α)
  | .push p m => some (p, m)
  | _ => none

/-- The messages pushed by a sequence of actions, each with its pusher, oldest first. -/
def pushed (as : List (Action ι α)) : List (ι × α) := as.filterMap pushOf

theorem all_step (hs : step d s a = some s') : s'.all = s.all ++ (pushOf a).toList := by
  cases effect_of_step hs with
  | push p m => simp [State.push, State.all, pushOf]
  | drain => simp [State.all, pushOf]
  | wake | stopRequest | select | readWake | applied => exact (List.append_nil _).symm

/-- **The messages of a run are those it pushed**, in their order. -/
theorem all_run (r : (outbox ι α d).Run) (t : ℕ) : (r.state t).all = pushed (r.done t) := by
  induction t with
  | zero => rw [show r.state 0 = {} from r.start]; rfl
  | succ t ih =>
    rw [r.done_succ, pushed, List.filterMap_append, ← pushed, ← ih]
    cases ha : r.action t with
    | none =>
      rw [r.idle t ha]
      exact (List.append_nil _).symm
    | some a =>
      rw [all_step (r.moves t a ha)]
      cases h : pushOf a <;> simp [h]

/-- The invariant: a non-empty queue is about to be drained, or its wakeup is in the descriptor or
on its way there. -/
def Awake (s : State ι α) : Prop := s.msgs ≠ [] → s.loop = .emptying ∨ s.loop = .draining ∨
  0 < s.wakeups ∨ s.waking.Nonempty

theorem Awake.step (h : Awake s) (hs : step d s a = some s') : Awake s' := by
  cases effect_of_step hs with
  | push p m =>
    intro _
    by_cases he : s.msgs = []
    · exact .inr (.inr (.inr ⟨p, by simp [State.push, he]⟩))
    · have hw : (s.push p m).waking = s.waking := by
        simp [State.push, he]
      rw [hw]
      exact h he
  | wake | stopRequest => exact fun _ => .inr (.inr (.inl (d.write_pos _)))
  | select hl hpos => exact fun _ => .inl rfl
  | readWake hl =>
    intro _
    cases (d.read s.wakeups).2
    · exact .inr (.inl rfl)
    · exact .inl rfl
  | drain hl => exact fun he => absurd rfl he
  | applied hl =>
    intro he
    rcases h he with h | h | h
    · cases hl.symm.trans h
    · cases hl.symm.trans h
    · exact .inr (.inr h)

theorem awake_of_reachable (h : (outbox ι α d).Reachable s) : Awake s := by
  refine h.invariant ?_ (fun s a s' hs hstep => hs.step hstep)
  rintro s rfl
  exact fun he => absurd rfl he

/-! ### What a fair interleaving brings about -/

/-- The `i`-th message pushed is queued. -/
def Queued (i : ℕ) (s : State ι α) : Prop := s.drains.flatten.length ≤ i ∧ i < s.all.length

omit [DecidableEq ι] in
theorem Queued.msgs_ne_nil (h : Queued i s) : s.msgs ≠ [] := by
  intro he
  have hlt := h.2
  simp only [State.all, he, List.append_nil] at hlt
  exact absurd h.1 (not_le.mpr hlt)

/-- The thread whose next action brings the next drain nearer. -/
noncomputable def helper (s : State ι α) : Thread ι :=
  if h : s.loop = .waiting ∧ s.wakeups = 0 ∧ s.waking.Nonempty then .pusher h.2.2.choose else .loop

/-- How far the next drain is. -/
def distance (s : State ι α) : ℕ :=
  match s.loop with
  | .draining => 0
  | .emptying => 1 + (s.wakeups + s.waking.card)
  | .waiting => (if s.wakeups = 0 then 3 else 2) + (s.wakeups + s.waking.card)
  | .applying => 4 + (s.wakeups + s.waking.card)

theorem enabled_helper (hs : Awake s) (h : Queued i s) :
    (outbox ι α d).Enabled thread (helper s) s := by
  unfold helper
  split_ifs with hw
  · refine ⟨.wake hw.2.2.choose, rfl, ?_⟩
    simp [outbox, step, hw.2.2.choose_spec]
  · cases hl : s.loop with
    | waiting =>
      refine ⟨.select, rfl, ?_⟩
      have hpos : 0 < s.wakeups := by
        rcases hs h.msgs_ne_nil with h | h | h | h
        · rw [hl] at h
          cases h
        · rw [hl] at h
          cases h
        · exact h
        · exact Nat.pos_of_ne_zero fun h0 => hw ⟨hl, h0, h⟩
      simp [outbox, step, hl, hpos]
    | emptying => exact ⟨.readWake, rfl, by simp [outbox, step, hl]⟩
    | draining => exact ⟨.drain, rfl, by simp [outbox, step, hl]⟩
    | applying => exact ⟨.applied, rfl, by simp [outbox, step, hl]⟩

theorem distance_wake (d : Descriptor) {p : ι} (hp : p ∈ s.waking) :
    distance { s with waking := s.waking.erase p, wakeups := d.write s.wakeups } < distance s ∨
      distance { s with waking := s.waking.erase p, wakeups := d.write s.wakeups } = distance s ∧
        helper { s with waking := s.waking.erase p, wakeups := d.write s.wakeups } = helper s ∧
        helper s = .loop := by
  have hpos := d.write_pos s.wakeups
  have hle := d.write_le s.wakeups
  have hcard := Finset.card_erase_add_one hp
  have hhelp : helper { s with waking := s.waking.erase p, wakeups := d.write s.wakeups } = .loop :=
    dif_neg fun h => absurd h.2.1 hpos.ne'
  by_cases hw : s.loop = .waiting ∧ s.wakeups = 0
  · left
    simp only [distance, hw.1, hw.2, if_true]
    rw [hw.2] at hle hpos
    rw [if_neg hpos.ne']
    omega
  · have hs : helper s = .loop := dif_neg fun h => hw ⟨h.1, h.2.1⟩
    have hdist : distance { s with waking := s.waking.erase p, wakeups := d.write s.wakeups } ≤
        distance s := by
      cases hl : s.loop with
      | waiting =>
        have h0 : s.wakeups ≠ 0 := fun h => hw ⟨hl, h⟩
        simp only [distance, hl, hpos.ne', h0, if_false]
        omega
      | emptying =>
        simp only [distance, hl]
        omega
      | draining => simp only [distance, hl, le_refl]
      | applying =>
        simp only [distance, hl]
        omega
    rcases hdist.lt_or_eq with h | h
    · exact .inl h
    · exact .inr ⟨h, hhelp.trans hs.symm, hs⟩

theorem distance_loop (ha : thread a = some .loop) (hs : step d s a = some s') (hd : a ≠ .drain) :
    distance s' < distance s ∧ s'.drains = s.drains ∧ s'.msgs = s.msgs := by
  cases effect_of_step hs with
  | push | wake | stopRequest => cases ha
  | select hl hpos =>
    simp only [distance, hl, hpos.ne', if_false, and_self, and_true]
    omega
  | readWake hl =>
    refine ⟨?_, rfl, rfl⟩
    cases hr : (d.read s.wakeups).2 with
    | false =>
      simp only [distance, hl, Bool.false_eq_true, if_false]
      omega
    | true =>
      have hlt := Descriptor.read_again hr
      simp only [distance, hl, if_true]
      omega
  | drain => exact absurd rfl hd
  | applied hl =>
    refine ⟨?_, rfl, rfl⟩
    simp only [distance, hl]
    split_ifs <;> omega

/-- **A queued message is drained.** -/
theorem drained_of_queued {r : (outbox ι α d).Run} (hr : r.Fair thread) {t : ℕ}
    (hstop : ∀ u, t ≤ u → r.action u ≠ some .stopRequest) (h : Queued i (r.state t)) :
    ∃ u, t ≤ u ∧ i < (r.state u).drains.flatten.length := by
  refine System.Run.leadsTo (A := fun a => a ≠ .stopRequest)
    (Q := fun s => i < s.drains.flatten.length) hr distance helper
    (fun s hs hq => enabled_helper (awake_of_reachable hs) hq) ?_
    (fun u a hu ha he => hstop u hu (ha.trans (congrArg some he))) h
  intro s a s' hreach hq hok hs
  change step d s a = some s' at hs
  have hloop : thread a = some .loop → a ≠ .drain → Queued i s' ∧ distance s' < distance s := by
    intro ha hd
    obtain ⟨hlt, hdr, hm⟩ := distance_loop ha hs hd
    refine ⟨?_, hlt⟩
    unfold Queued State.all
    rw [hdr, hm]
    exact hq
  cases effect_of_step hs with
  | push p m =>
    have hne : s.msgs.isEmpty = false := by simpa using hq.msgs_ne_nil
    refine .inr ⟨⟨hq.1, ?_⟩, .inr ⟨?_, ?_, by simp [thread]⟩⟩
    · have hlt := hq.2
      simp only [State.push, State.all, List.length_append] at hlt ⊢
      omega
    · simp [distance, State.push, hne]
    · simp [helper, State.push, hne]
  | wake hp =>
    refine .inr ⟨hq, ?_⟩
    rcases distance_wake d hp with h | ⟨h, hh, hl⟩
    · exact .inl h
    · exact .inr ⟨h, hh, by simp [thread, hl]⟩
  | stopRequest => exact absurd rfl hok
  | drain =>
    left
    simpa [State.all] using hq.2
  | select | readWake | applied => exact .inr ((hloop rfl (by simp)).imp_right .inl)

theorem all_initial (r : (outbox ι α d).Run) {t u : ℕ} (h : t ≤ u) :
    (r.state t).all <+: (r.state u).all :=
  r.stays (I := fun s => (r.state t).all <+: s.all) h List.prefix_rfl fun v a ha ih =>
    ih.trans ⟨_, (all_step (r.moves v a ha)).symm⟩

/-- **No message is lost, duplicated or slept on.**  In every interleaving, at every moment, the
messages drained and queued are exactly those pushed, in their order; a loop that waits with
messages queued has a wakeup in its descriptor, or a pusher about to write one.  In a fair
interleaving with finitely many stop requests everything pushed is drained. -/
theorem outbox_delivers (d : Descriptor) (r : (outbox ι α d).Run) :
    (∀ t, (r.state t).drains.flatten ++ (r.state t).msgs = pushed (r.done t) ∧
      ((r.state t).loop = .waiting → (r.state t).msgs ≠ [] →
        0 < (r.state t).wakeups ∨ (r.state t).waking.Nonempty)) ∧
    (r.Fair thread → (∃ t₀, ∀ t, t₀ ≤ t → r.action t ≠ some .stopRequest) →
      ∀ t, ∃ u, t ≤ u ∧ pushed (r.done t) <+: (r.state u).drains.flatten) := by
  constructor
  · intro t
    refine ⟨all_run r t, fun hl hne => ?_⟩
    rcases awake_of_reachable (r.reachable t) hne with h | h | h
    · rw [hl] at h
      cases h
    · rw [hl] at h
      cases h
    · exact h
  · rintro hr ⟨t₀, hstop⟩ t
    obtain ⟨u, htu, hu⟩ : ∃ u, max t t₀ ≤ u ∧
        (r.state (max t t₀)).all.length ≤ (r.state u).drains.flatten.length := by
      by_cases hd : (r.state (max t t₀)).all.length ≤
          (r.state (max t t₀)).drains.flatten.length
      · exact ⟨_, le_rfl, hd⟩
      · have hq : Queued ((r.state (max t t₀)).all.length - 1) (r.state (max t t₀)) :=
          ⟨by omega, by omega⟩
        obtain ⟨u, hu, hlt⟩ := drained_of_queued hr
          (fun u hu => hstop u ((le_max_right _ _).trans hu)) hq
        exact ⟨u, hu, by omega⟩
    refine ⟨u, (le_max_left _ _).trans htu, ?_⟩
    have hall := all_initial r ((le_max_left t t₀).trans htu)
    have hdrained : (r.state u).drains.flatten <+: (r.state u).all := List.prefix_append _ _
    rw [← all_run]
    exact List.prefix_of_prefix_length_le hall hdrained
      ((all_initial r (le_max_left t t₀)).length_le.trans hu)

/-! ### A small interleaving -/

/-- Two pushers, of which the second finds a message queued, and one turn of the loop. -/
def twoPushes : List (Action Bool ℕ) :=
  [.push true 1, .push false 2, .wake true, .select, .readWake, .drain, .applied]

theorem isSome_twoPushes : ((outbox Bool ℕ (.pipe 0)).execute twoPushes {}).isSome := by
  decide

/-- They are followed by nothing. -/
def twoPushesRun : (outbox Bool ℕ (.pipe 0)).Run :=
  System.Run.ofActions twoPushes rfl isSome_twoPushes

theorem twoPushesRun_fair : twoPushesRun.Fair thread := by
  refine System.Run.fair_ofActions rfl (Option.some_get isSome_twoPushes).symm ?_
  rintro k ⟨a, hk, ha⟩
  cases a with
  | push p m => cases hk
  | wake p => cases p <;> revert ha <;> decide
  | stopRequest => cases hk
  | select | readWake | drain | applied => revert ha; decide

theorem outbox_delivers_twoPushes : twoPushesRun.Fair thread ∧
    pushed (twoPushesRun.done 2) = [(true, 1), (false, 2)] ∧
    ∃ u, 2 ≤ u ∧ pushed (twoPushesRun.done 2) <+: (twoPushesRun.state u).drains.flatten := by
  refine ⟨twoPushesRun_fair, by decide, (outbox_delivers (.pipe 0) twoPushesRun).2
    twoPushesRun_fair ⟨0, fun t _ ht => ?_⟩ 2⟩
  have hmem : Action.stopRequest ∈ twoPushes := List.mem_of_getElem? ht
  revert hmem
  decide

end Vortex.Outbox
