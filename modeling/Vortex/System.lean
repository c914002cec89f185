import Mathlib.Order.WellFounded
import Mathlib.Tactic.Common

/-! # Concurrent systems

A `System` is a set of initial states and the atomic actions of all its threads; an action that
is not possible in a state gives `none`, and whatever a thread or the operating system may choose
is part of the action's name.  `System.Reachable` collects the states of all interleavings, and
`System.Reachable.invariant` is the rule for properties of them.

A `System.Run` is an infinite interleaving, in which nothing may happen for a while.  `proc` says
which thread an action belongs to; a run is `Fair` when a thread that can go on from some time
on does go on.  `System.Run.leadsTo` is the rule for what a fair run brings about: a rank in a
well-founded order that no action increases, and at every moment a thread whose next action
decreases it. -/

namespace Vortex

/-- Initial states and actions. -/
structure System (σ α : Type*) where
  init : σ → Prop
  step : σ → α → Option σ

namespace System

variable {σ α κ : Type*} (S : System σ α)

/-- The states of all interleavings. -/
inductive Reachable : σ → Prop
  | start {s : σ} : S.init s → Reachable s
  | next {s s' : σ} (a : α) : Reachable s → S.step s a = some s' → Reachable s'

variable {S}

theorem Reachable.invariant {I : σ → Prop} (h0 : ∀ s, S.init s → I s)
    (hstep : ∀ s a s', I s → S.step s a = some s' → I s') {s : σ} (h : S.Reachable s) : I s := by
  induction h with
  | start h => exact h0 _ h
  | next a _ hs ih => exact hstep _ a _ ih hs

theorem Reachable.foldlM {s s' : σ} (h : S.Reachable s) {as : List α}
    (hs : as.foldlM S.step s = some s') : S.Reachable s' := by
  induction as generalizing s with
  | nil =>
    cases hs
    exact h
  | cons a as ih =>
    rw [List.foldlM_cons] at hs
    obtain ⟨t, ht, hs⟩ := Option.bind_eq_some_iff.mp hs
    exact ih (.next a h ht) hs

variable (S)

open Classical in
/-- The same system with only the actions that meet a condition. -/
noncomputable def restrict (ok : σ → α → Prop) : System σ α where
  init := S.init
  step s a := if ok s a then S.step s a else none

variable {S}

theorem step_restrict {ok : σ → α → Prop} {s s' : σ} {a : α} :
    (S.restrict ok).step s a = some s' ↔ ok s a ∧ S.step s a = some s' := by
  simp only [restrict]
  split_ifs with h
  · exact (and_iff_right h).symm
  · exact iff_of_false nofun fun h' => h h'.1

theorem Reachable.of_restrict {ok : σ → α → Prop} {s : σ} (h : (S.restrict ok).Reachable s) :
    S.Reachable s :=
  h.invariant (fun _ h0 => .start h0) fun _ a _ ih hs => .next a ih (step_restrict.mp hs).2

variable (S)

/-- An infinite interleaving. -/
structure Run where
  state : ℕ → σ
  /-- What happens between two moments, if anything. -/
  action : ℕ → Option α
  start : S.init (state 0)
  idle : ∀ t, action t = none → state (t + 1) = state t
  moves : ∀ t a, action t = some a → S.step (state t) a = some (state (t + 1))

variable {S}

theorem Run.reachable (r : S.Run) : ∀ t, S.Reachable (r.state t)
  | 0 => .start r.start
  | t + 1 => by
    cases h : r.action t with
    | none =>
      rw [r.idle t h]
      exact r.reachable t
    | some a => exact .next a (r.reachable t) (r.moves t a h)

/-- What has happened by the time `t`. -/
def Run.done (r : S.Run) (t : ℕ) : List α := (List.range t).filterMap r.action

theorem Run.done_succ (r : S.Run) (t : ℕ) : r.done (t + 1) = r.done t ++ (r.action t).toList := by
  simp only [Run.done, List.range_succ, List.filterMap_append]
  cases h : r.action t <;> simp [h]

theorem Run.stays (r : S.Run) {I : σ → Prop} {t u : ℕ} (htu : t ≤ u) (h : I (r.state t))
    (hstep : ∀ v a, r.action v = some a → I (r.state v) → I (r.state (v + 1))) :
    I (r.state u) := by
  induction u, htu using Nat.le_induction with
  | base => exact h
  | succ v _ ih =>
    cases ha : r.action v with
    | none =>
      rw [r.idle v ha]
      exact ih
    | some a => exact hstep v a ha ih

/-! ### Fairness -/

section

variable (S) (proc : α → Option κ)

/-- The thread `k` can go on. -/
def Enabled (k : κ) (s : σ) : Prop := ∃ a, proc a = some k ∧ (S.step s a).isSome

variable {S}

/-- A thread that can go on for ever from some time on does go on. -/
def Run.Fair (r : S.Run) : Prop :=
  ∀ k t, (∀ u, t ≤ u → S.Enabled proc k (r.state u)) →
    ∃ u, t ≤ u ∧ ∃ a, r.action u = some a ∧ proc a = some k

variable {proc}

/-- **What a fair run brings about.**  In every state of `P` the thread `help` can go on; an
action leads to `Q`, or decreases the rank, or is another thread's and leaves the rank and the
choice of `help` alone.  Only the actions that occur, those of `A`, are looked at. -/
theorem Run.leadsTo {ρ : Type*} [Preorder ρ] [WellFoundedLT ρ] {r : S.Run} (hr : r.Fair proc)
    {P Q : σ → Prop} {A : α → Prop} (rank : σ → ρ) (help : σ → κ)
    (hen : ∀ s, S.Reachable s → P s → S.Enabled proc (help s) s)
    (hstep : ∀ s a s', S.Reachable s → P s → A a → S.step s a = some s' →
      Q s' ∨ P s' ∧ (rank s' < rank s ∨
        rank s' = rank s ∧ help s' = help s ∧ proc a ≠ some (help s)))
    {t : ℕ} (hA : ∀ u a, t ≤ u → r.action u = some a → A a) (ht : P (r.state t)) :
    ∃ u, t ≤ u ∧ Q (r.state u) := by
  induction hn : rank (r.state t) using WellFoundedLT.induction generalizing t with
  | ind n ih =>
    subst hn
    by_contra hnone
    have hQ : ∀ u, t ≤ u → ¬ Q (r.state u) := fun u hu hq => hnone ⟨u, hu, hq⟩
    -- As long as the rank does not fall, the same thread stays the helpful one.
    have hstay : ∀ d, P (r.state (t + d)) ∧ rank (r.state (t + d)) = rank (r.state t) ∧
        help (r.state (t + d)) = help (r.state t) := by
      intro d
      induction d with
      | zero => exact ⟨ht, rfl, rfl⟩
      | succ d ihd =>
        obtain ⟨hP, hrank, hhelp⟩ := ihd
        cases ha : r.action (t + d) with
        | none =>
          rw [← Nat.add_assoc, r.idle _ ha]
          exact ⟨hP, hrank, hhelp⟩
        | some a =>
          rcases hstep _ a _ (r.reachable _) hP (hA _ a (Nat.le_add_right t d) ha)
            (r.moves _ a ha) with hq | ⟨hP', hlt | ⟨he, hh, -⟩⟩
          · exact absurd hq (hQ _ (by omega))
          · rw [hrank] at hlt
            obtain ⟨u, hu, hq⟩ := ih _ hlt
              (fun u a hu => hA u a (by omega)) hP' rfl
            exact absurd hq (hQ u (by omega))
          · exact ⟨hP', he.trans hrank, hh.trans hhelp⟩
    obtain ⟨u, hu, a, ha, hproc⟩ := hr (help (r.state t)) t (fun u hu => by
      obtain ⟨d, rfl⟩ := Nat.exists_eq_add_of_le hu
      obtain ⟨hP, -, hhelp⟩ := hstay d
      rw [← hhelp]
      exact hen _ (r.reachable _) hP)
    obtain ⟨d, rfl⟩ := Nat.exists_eq_add_of_le hu
    obtain ⟨hP, hrank, hhelp⟩ := hstay d
    rcases hstep _ a _ (r.reachable _) hP (hA _ a hu ha) (r.moves _ a ha) with
      hq | ⟨hP', hlt | ⟨-, -, hne⟩⟩
    · exact absurd hq (hQ _ (by omega))
    · rw [hrank] at hlt
      obtain ⟨v, hv, hq⟩ := ih _ hlt (fun u a hu => hA u a (by omega)) hP' rfl
      exact absurd hq (hQ v (by omega))
    · rw [hhelp] at hne
      exact hne hproc

end

/-! ### Finite interleavings -/

variable (S)

/-- Take the actions one after the other. -/
def execute : List α → σ → Option σ
  | [], s => some s
  | a :: rest, s => (S.step s a).bind (execute rest)

variable {S}

theorem execute_append (as bs : List α) (s : σ) :
    S.execute (as ++ bs) s = (S.execute as s).bind (S.execute bs) := by
  induction as generalizing s with
  | nil => rfl
  | cons a as ih =>
    simp only [List.cons_append, execute, Option.bind_assoc]
    congr 1
    funext s'
    exact ih s'

theorem Reachable.execute (as : List α) {s s' : σ} (h : S.Reachable s)
    (hs : S.execute as s = some s') : S.Reachable s' := by
  induction as generalizing s with
  | nil =>
    cases hs
    exact h
  | cons a as ih =>
    obtain ⟨s1, h1, hs⟩ := Option.bind_eq_some_iff.mp hs
    exact ih (.next a h h1) hs

theorem isSome_execute_take {as : List α} {s : σ} (h : (S.execute as s).isSome) (n : ℕ) :
    (S.execute (as.take n) s).isSome := by
  rw [← List.take_append_drop n as, execute_append] at h
  exact Option.isSome_of_isSome_bind h

/-- A finite interleaving after which nothing happens. -/
def Run.ofActions (as : List α) {s : σ} (h₀ : S.init s) (h : (S.execute as s).isSome) : S.Run where
  state t := (S.execute (as.take t) s).get (isSome_execute_take h t)
  action t := as[t]?
  start := h₀
  idle t ht := by
    have hlen : as.length ≤ t := List.getElem?_eq_none_iff.mp ht
    simp only [List.take_of_length_le hlen, List.take_of_length_le (Nat.le_succ_of_le hlen)]
  moves t a ha := by
    have htake : as.take (t + 1) = as.take t ++ [a] := by
      rw [List.take_add_one, ha, Option.toList_some]
    have hs := isSome_execute_take h (t + 1)
    simp only [htake, execute_append] at hs ⊢
    obtain ⟨s', hs'⟩ := Option.isSome_iff_exists.mp (isSome_execute_take h t)
    simp only [hs', Option.bind_some, Option.get_some, execute] at hs ⊢
    obtain ⟨s'', hs''⟩ := Option.isSome_iff_exists.mp (Option.isSome_of_isSome_bind hs)
    simp only [hs'', Option.bind_some, Option.get_some]

theorem Run.fair_ofActions {proc : α → Option κ} {as : List α} {s s' : σ} (h0 : S.init s)
    (h : S.execute as s = some s') (hend : ∀ k, ¬ S.Enabled proc k s') :
    (Run.ofActions as h0 (h ▸ rfl)).Fair proc := by
  intro k t hen
  refine absurd (hen (max t as.length) (le_max_left _ _)) ?_
  have hstate : (Run.ofActions as h0 (h ▸ rfl)).state (max t as.length) = s' := by
    simp only [Run.ofActions, List.take_of_length_le (le_max_right t as.length), h,
      Option.get_some]
  rw [hstate]
  exact hend k

end System

end Vortex
