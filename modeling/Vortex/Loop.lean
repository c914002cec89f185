import Mathlib.Data.Nat.Init
import Mathlib.Order.Basic
import Mathlib.Tactic.Common

/-! # Loops with a decreasing measure

A `while true` loop is a step function that either hands back the next loop state or leaves
the loop with a result.  `Loop` packs such a step with a natural measure that every
continuing step decreases, so that `Loop.run` is a total function: there is no fuel to run
out of and no default result.  The recursion is structural on a bound of the measure, hence
`run` evaluates by `decide`.

`Loop.run_next` and `Loop.run_done` are the unfolding rules, `Loop.Reaches` names the states
the loop passes through, and `Loop.run_induction` carries a property from the end of a run back to
its start. -/

namespace Vortex

/-- A loop: one iteration, a measure and the proof that a continuing iteration decreases it. -/
structure Loop (σ ρ : Type) where
  /-- One iteration: the next state, or the value the loop is left with. -/
  step : σ → σ ⊕ ρ
  /-- Bound on the number of iterations still to come. -/
  measure : σ → ℕ
  /-- Every continuing iteration makes progress. -/
  decreases : ∀ s s', step s = .inl s' → measure s' < measure s

namespace Loop

variable {σ ρ : Type} (L : Loop σ ρ) {s : σ}

/-- The loop, by recursion on a strict bound of the measure. -/
def runBelow : (n : ℕ) → (s : σ) → L.measure s < n → ρ
  | 0, _, h => absurd h (Nat.not_lt_zero _)
  | n + 1, s, h =>
      match hs : L.step s with
      | .inr r => r
      | .inl s' => runBelow n s' (Nat.lt_of_lt_of_le (L.decreases s s' hs) (Nat.le_of_lt_succ h))

/-- Run the loop from `s` until it is left. -/
def run (s : σ) : ρ := L.runBelow (L.measure s + 1) s (Nat.lt_succ_self _)

theorem runBelow_done {n : ℕ} {r : ρ} (h : L.measure s < n) (hs : L.step s = .inr r) :
    L.runBelow n s h = r := by
  cases n with
  | zero => exact absurd h (Nat.not_lt_zero _)
  | succ n =>
    unfold runBelow
    split
    · next r' h' => rw [hs] at h'; exact (Sum.inr.inj h').symm
    · next s' h' => rw [hs] at h'; cases h'

theorem runBelow_congr : ∀ (n m : ℕ) (s : σ) (hn : L.measure s < n) (hm : L.measure s < m),
    L.runBelow n s hn = L.runBelow m s hm
  | 0, _, _, hn, _ => absurd hn (Nat.not_lt_zero _)
  | _ + 1, 0, _, _, hm => absurd hm (Nat.not_lt_zero _)
  | n + 1, m + 1, s, hn, hm => by
    unfold runBelow
    split
    · rfl
    · exact runBelow_congr n m _ _ _

theorem run_done {r : ρ} (hs : L.step s = .inr r) : L.run s = r :=
  L.runBelow_done _ hs

theorem run_next {s' : σ} (hs : L.step s = .inl s') : L.run s = L.run s' := by
  unfold run
  conv_lhs => unfold runBelow
  split
  · next r h' => rw [hs] at h'; cases h'
  · next t h' =>
    rw [hs] at h'
    cases h'
    exact L.runBelow_congr _ _ _ _ _

theorem run_congr {t : σ} (h : L.step s = L.step t) : L.run s = L.run t := by
  cases hs : L.step s with
  | inl s' =>
    have ht : L.step t = .inl s' := h ▸ hs
    rw [L.run_next hs, L.run_next ht]
  | inr r =>
    have ht : L.step t = .inr r := h ▸ hs
    rw [L.run_done hs, L.run_done ht]

/-- `s'` is a loop state of the run from `s`. -/
inductive Reaches : σ → σ → Prop
  | refl (s : σ) : Reaches s s
  | next {s s' s'' : σ} : L.step s = .inl s' → Reaches s' s'' → Reaches s s''

variable {L}

theorem Reaches.invariant {P : σ → Prop} (hstep : ∀ s s', P s → L.step s = .inl s' → P s') {t : σ}
    (h : L.Reaches s t) (hs : P s) : P t := by
  induction h with
  | refl => exact hs
  | next h1 _ ih => exact ih (hstep _ _ hs h1)

variable (L)

theorem run_induction {P : σ → ρ → Prop} (hdone : ∀ s r, L.step s = .inr r → P s r)
    (hnext : ∀ s s' r, L.step s = .inl s' → P s' r → P s r) (s : σ) : P s (L.run s) := by
  induction hn : L.measure s using Nat.strong_induction_on generalizing s with
  | _ n ih =>
    cases hs : L.step s with
    | inr r => rw [L.run_done hs]; exact hdone s r hs
    | inl s' =>
      rw [L.run_next hs]
      exact hnext s s' _ hs (ih _ (hn ▸ L.decreases s s' hs) s' rfl)

theorem exists_reaches_done (s : σ) : ∃ t, L.Reaches s t ∧ L.step t = .inr (L.run s) :=
  L.run_induction (P := fun s r => ∃ t, L.Reaches s t ∧ L.step t = .inr r)
    (fun s _ hs => ⟨s, .refl s, hs⟩)
    (fun _ _ _ hs ⟨t, ht, hd⟩ => ⟨t, .next hs ht, hd⟩) s

end Loop

end Vortex
