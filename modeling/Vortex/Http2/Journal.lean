import Vortex.Http2.State

/-! # Reading the journal

Quantities of a whole run are sums over the journal: `tally f j` adds up what each event
contributes.  The rules say how a sum moves when the codec notes or sends something.

Properties of a whole run are statements about each event and what precedes it: `Each P j`. -/

namespace Vortex.Http2

/-- The sum of what the events contribute. -/
def tally (f : Event → ℕ) (j : List Event) : ℕ := (j.map f).sum

variable {p : Event → Bool} (f : Event → ℕ) (c : Conn)

@[simp] theorem tally_nil : tally f [] = 0 := rfl

@[simp] theorem tally_cons (e : Event) (j : List Event) : tally f (e :: j) = f e + tally f j := by
  simp [tally]

@[simp] theorem tally_append (j k : List Event) : tally f (j ++ k) = tally f j + tally f k := by
  simp [tally]

theorem tally_eq_zero {f : Event → ℕ} {j : List Event} (h : ∀ e ∈ j, f e = 0) : tally f j = 0 := by
  induction j with
  | nil => rfl
  | cons e j ih =>
    rw [tally_cons, h e List.mem_cons_self, ih (fun e he => h e (List.mem_cons_of_mem _ he))]

theorem tally_note (e : Event) : tally f (c.note e).journal = tally f c.journal + f e := by
  simp [Conn.note]

theorem tally_send (fr : Frame) : tally f (c.send fr).journal = tally f c.journal + f (.sent fr) :=
  tally_note f c _

theorem tally_recordEarlyClosed {f : Event → ℕ} (hf : ∀ sid, f (.closedEarly sid) = 0) (c : Conn)
    (sid : ℕ) : tally f (c.recordEarlyClosed sid).journal = tally f c.journal := by
  unfold Conn.recordEarlyClosed
  dsimp only
  split_ifs <;> simp [Conn.note, hf]

theorem tally_creditConn {f : Event → ℕ} (hf : ∀ sid n, f (.sent (.windowUpdate sid n)) = 0)
    (c : Conn) (n : ℕ) : tally f (c.creditConn n).journal = tally f c.journal := by
  unfold Conn.creditConn
  dsimp only
  split_ifs <;> simp [Conn.send, Conn.note, hf]

theorem tally_creditStream {f : Event → ℕ} (hf : ∀ sid n, f (.sent (.windowUpdate sid n)) = 0)
    (c : Conn) (sid n : ℕ) : tally f (c.creditStream sid n).journal = tally f c.journal := by
  unfold Conn.creditStream
  split
  · rfl
  · dsimp only
    split_ifs <;> simp [Conn.send, Conn.note, Conn.modify, hf]

theorem tally_filter {f : Event → ℕ} (h : ∀ e, p e = false → f e = 0) (j : List Event) :
    tally f (j.filter p) = tally f j := by
  induction j with
  | nil => rfl
  | cons e j ih =>
    cases hp : p e with
    | true => rw [List.filter_cons_of_pos hp, tally_cons, tally_cons, ih]
    | false =>
      rw [List.filter_cons_of_neg (by simp [hp]), tally_cons, h e hp, ih, Nat.zero_add]

/-! ### Frames -/

/-- The frame whose arrival the event notes. -/
def Event.received? : Event → Option InFrame
  | .received f => some f
  | _ => none

/-- The frames that arrived, in their order. -/
def received (j : List Event) : List InFrame := j.filterMap Event.received?

@[simp] theorem received_append (j k : List Event) :
    received (j ++ k) = received j ++ received k := List.filterMap_append

/-- The frame being handled: the last one that arrived. -/
def Conn.lastFrame (c : Conn) : Option InFrame := (received c.journal).getLast?

theorem lastFrame_received (f : InFrame) : (c.note (.received f)).lastFrame = some f := by
  simp [Conn.lastFrame, Conn.note, received, Event.received?]

/-! ### Events and what precedes them -/

/-- Every event satisfies `P` after what precedes it. -/
def Each (P : List Event → Event → Prop) (j : List Event) : Prop :=
  ∀ before e after, j = before ++ e :: after → P before e

section Each

variable {P : List Event → Event → Prop} {j k : List Event}

theorem each_nil : Each P [] := by
  intro before e after h
  simp at h

theorem Each.append (hj : Each P j)
    (hk : ∀ before e after, k = before ++ e :: after → P (j ++ before) e) : Each P (j ++ k) := by
  intro before e after h
  rcases List.append_eq_append_iff.mp h with ⟨l, hl, hk'⟩ | ⟨l, hl, hk'⟩
  · rw [hl]
    exact hk l e after hk'
  · cases l with
    | nil =>
      rw [List.append_nil] at hl
      rw [List.nil_append] at hk'
      have h' := hk [] e after hk'.symm
      rw [List.append_nil, hl] at h'
      exact h'
    | cons e' l =>
      rw [List.cons_append, List.cons.injEq] at hk'
      rw [← hk'.1] at hl
      exact hj before e l hl

theorem Each.left (h : Each P (j ++ k)) : Each P j := by
  intro before e after hj
  refine h before e (after ++ k) ?_
  rw [hj, List.append_assoc]
  rfl

theorem each_snoc {e : Event} : Each P (j ++ [e]) ↔ Each P j ∧ P j e := by
  constructor
  · intro h
    exact ⟨h.left, h j e [] rfl⟩
  · rintro ⟨hj, he⟩
    refine hj.append (fun before e' after h => ?_)
    cases before with
    | nil =>
      rw [List.nil_append, List.cons.injEq] at h
      rw [List.append_nil, ← h.1]
      exact he
    | cons e'' before => simp at h

theorem Each.append_of (hj : Each P j) (hk : ∀ e ∈ k, ∀ before, P before e) : Each P (j ++ k) :=
  hj.append (fun before e after h => hk e (by rw [h]; simp) _)

theorem Each.of_filter (h : Each P (j.filter p)) {before after : List Event} {e : Event}
    (hj : j = before ++ e :: after) (he : p e = true) : P (before.filter p) e := by
  refine h _ e (after.filter p) ?_
  rw [hj, List.filter_append, List.filter_cons_of_pos he]

theorem Each.filter {Q : List Event → Event → Prop} (h : Each P j)
    (hPQ : ∀ before e, P before e → Q (before.filter p) e) : Each Q (j.filter p) := by
  intro before e after hj
  obtain ⟨l1, l2, rfl, rfl, h2⟩ := List.filter_eq_append_iff.mp hj
  obtain ⟨m1, m2, rfl, hm, he, rfl⟩ := List.filter_eq_cons_iff.mp h2
  have hP := hPQ _ _ (h (l1 ++ m1) e m2 (by simp))
  rwa [List.filter_append, List.filter_eq_nil_iff.mpr hm, List.append_nil] at hP

theorem each_of (hj : ∀ e ∈ j, ∀ before, P before e) : Each P j :=
  fun before e after h => hj e (by rw [h]; simp) before

end Each

end Vortex.Http2
