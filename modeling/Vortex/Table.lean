import Mathlib.Algebra.BigOperators.Group.List.Basic
import Mathlib.Data.List.AList
import Mathlib.Tactic.Abel
import Mathlib.Tactic.Ring

/-! # Finite tables

A table is an association list without repeated keys (`AList`).  Over Mathlib's lookup,
insertion and erasure this adds the in-place update `Table.modify`, the sum
`Table.total f t` of a quantity over all entries and the number `Table.count p t` of entries with
a property.  The rules say how the sum moves when one entry is inserted, updated or erased, which
is what an aggregate kept beside the table has to follow. -/

namespace Vortex

/-- A finite map from keys to values. -/
abbrev Table (κ α : Type) := AList (fun _ : κ => α)

namespace Table

variable {κ α : Type} [DecidableEq κ] {k : κ} {t : Table κ α}

/-- Update the value stored under `k`, if there is one. -/
def modify (k : κ) (f : α → α) (t : Table κ α) : Table κ α :=
  match t.lookup k with
  | some v => t.insert k (f v)
  | none => t

/-! ### Lookup -/

theorem lookup_insert_ite (k k' : κ) (v : α) (t : Table κ α) :
    (t.insert k v).lookup k' = if k' = k then some v else t.lookup k' := by
  by_cases h : k' = k
  · subst h
    simp
  · rw [if_neg h, AList.lookup_insert_ne h]

theorem lookup_erase_ite (k k' : κ) (t : Table κ α) :
    (t.erase k).lookup k' = if k' = k then none else t.lookup k' := by
  by_cases h : k' = k
  · subst h
    simp
  · rw [if_neg h, AList.lookup_erase_ne h]

theorem lookup_modify (k k' : κ) (f : α → α) (t : Table κ α) :
    (modify k f t).lookup k' = if k' = k then (t.lookup k).map f else t.lookup k' := by
  unfold modify
  cases h : t.lookup k with
  | none =>
    by_cases hk : k' = k
    · subst hk
      simpa using h
    · simp [hk]
  | some v => simp [lookup_insert_ite]

@[simp] theorem lookup_modify_self (k : κ) (f : α → α) (t : Table κ α) :
    (modify k f t).lookup k = (t.lookup k).map f := by
  simp [lookup_modify]

theorem modify_of_none (f : α → α) (h : t.lookup k = none) : modify k f t = t := by
  simp [modify, h]

theorem modify_modify (k : κ) (f g : α → α) (t : Table κ α) :
    modify k g (modify k f t) = modify k (fun v => g (f v)) t := by
  cases h : t.lookup k with
  | none => rw [modify_of_none f h, modify_of_none g h, modify_of_none _ h]
  | some v =>
    have hf : modify k f t = t.insert k (f v) := by simp [modify, h]
    rw [hf]
    simp [modify, h]

theorem modify_congr {f g : α → α} (h : ∀ v, t.lookup k = some v → f v = g v) :
    modify k f t = modify k g t := by
  cases hl : t.lookup k with
  | none => rw [modify_of_none f hl, modify_of_none g hl]
  | some v => simp [modify, hl, h v hl]

theorem forall_modify {f : α → α} {P : κ → α → Prop} (hk : ∀ v, t.lookup k = some v → P k (f v))
    (h : ∀ k' v, k' ≠ k → t.lookup k' = some v → P k' v) :
    ∀ k' v, (modify k f t).lookup k' = some v → P k' v := by
  intro k' v hv
  rw [lookup_modify] at hv
  split at hv
  · next e =>
    subst e
    obtain ⟨w, hw, rfl⟩ := Option.map_eq_some_iff.mp hv
    exact hk w hw
  · next e => exact h k' v e hv

/-! ### Sums over the entries -/

section Total

variable {M : Type} [AddCommMonoid M] (f : α → M) {k : κ} {t : Table κ α} {v : α}

/-- The sum of `f` over the values of the table. -/
def total (t : Table κ α) : M := (t.entries.map (fun e => f e.2)).sum

omit [DecidableEq κ] in
@[simp] theorem total_empty : total f (∅ : Table κ α) = 0 := rfl

theorem total_insert_of_none (v : α) (h : t.lookup k = none) :
    total f (t.insert k v) = f v + total f t := by
  unfold total
  rw [AList.entries_insert_of_notMem (AList.lookup_eq_none.mp h)]
  simp

theorem entries_perm_of_lookup (h : t.lookup k = some v) :
    t.entries.Perm (⟨k, v⟩ :: (t.erase k).entries) := by
  have hm : (⟨k, v⟩ : Sigma fun _ : κ => α) ∈ t.entries := List.of_mem_dlookup h
  obtain ⟨w, l1, l2, -, e1, e2⟩ := List.exists_of_kerase (List.mem_keys_of_mem hm)
  have hw : w = v := by
    have hl : t.lookup k = some w :=
      List.mem_dlookup t.nodupKeys (by rw [e1]; simp)
    rw [hl] at h
    exact Option.some.inj h
  subst hw
  have he : (t.erase k).entries = l1 ++ l2 := e2
  rw [he, e1]
  exact List.perm_middle

theorem total_erase (h : t.lookup k = some v) : f v + total f (t.erase k) = total f t := by
  unfold total
  rw [((entries_perm_of_lookup h).map (fun e => f e.2)).sum_eq]
  simp

theorem total_insert_of_some {w : α} (h : t.lookup k = some v) :
    f v + total f (t.insert k w) = f w + total f t := by
  have hi : total f (t.insert k w) = f w + total f (t.erase k) := rfl
  rw [hi, ← total_erase f h]
  abel

theorem total_of_lookup {t' : Table κ α} (h : ∀ k, t'.lookup k = t.lookup k) :
    total f t' = total f t := by
  have hp : t'.entries.Perm t.entries :=
    List.lookup_ext t'.nodupKeys t.nodupKeys (fun k v => by
      have hk : t'.entries.dlookup k = t.entries.dlookup k := h k
      rw [hk])
  unfold total
  rw [(hp.map (fun e => f e.2)).sum_eq]

theorem total_modify (g : α → α) (h : t.lookup k = some v) :
    f v + total f (modify k g t) = f (g v) + total f t := by
  have hm : modify k g t = t.insert k (g v) := by simp [modify, h]
  rw [hm]
  exact total_insert_of_some f h

/-- An update that does not touch the summed quantity leaves the sum. -/
theorem total_modify_of_eq {g : α → α} (hg : ∀ v, t.lookup k = some v → f (g v) = f v) :
    total f (modify k g t) = total f t := by
  cases h : t.lookup k with
  | none => rw [modify_of_none g h]
  | some v =>
    have hm : modify k g t = t.insert k (g v) := by simp [modify, h]
    have hi : total f (t.insert k (g v)) = f (g v) + total f (t.erase k) := rfl
    rw [hm, hi, hg v h, total_erase f h]

theorem total_congr {f g : α → M} (h : ∀ k v, t.lookup k = some v → f v = g v) :
    total f t = total g t := by
  unfold total
  congr 1
  refine List.map_congr_left (fun e he => h e.1 e.2 ?_)
  exact List.mem_dlookup t.nodupKeys he

end Total

/-! ### Counting entries -/

section Count

variable (p : α → Bool) (t : Table κ α)

/-- The number of values with the property `p`. -/
def count : ℕ := t.entries.countP (fun e => p e.2)

omit [DecidableEq κ] in
theorem total_toInt : total (fun v => (p v).toInt) t = count p t := by
  unfold total count
  induction t.entries with
  | nil => rfl
  | cons e l ih =>
    rw [List.map_cons, List.sum_cons, ih, List.countP_cons]
    cases hp : p e.2 with
    | false => simp [hp]
    | true => simp [hp, add_comm]

omit [DecidableEq κ] in
theorem total_one : total (fun _ => (1 : ℤ)) t = t.entries.length := by
  unfold total
  induction t.entries with
  | nil => rfl
  | cons e l ih =>
    rw [List.map_cons, List.sum_cons, ih, List.length_cons]
    push_cast
    ring

omit [DecidableEq κ] in
theorem count_pos : decide (0 < (count p t : ℤ)) = t.entries.any (fun e => p e.2) := by
  rw [Bool.eq_iff_iff, decide_eq_true_iff, List.any_eq_true]
  unfold count
  rw [Int.natCast_pos, List.countP_pos_iff]

end Count

end Table

end Vortex
