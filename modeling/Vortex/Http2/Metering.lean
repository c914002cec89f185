import Vortex.Http2.Ledger

/-! # Metered runs

Bounds on what a peer can make the connection do count frames over a whole run, and whether a frame
counts depends on the state it finds.  A meter gives every event a reading in the state before it,
and `Metered` is a run together with the sum of its readings.

A run is bounded by a quantity of the connection once every event that leaves the connection open
raises the quantity by at least its reading (`Metered.frames_le`). -/

namespace Vortex.Http2

/-- The runs of a connection, with the sum of what the meter reads at each event. -/
inductive Metered (H : Hooks) (ok : Call → Conn → Prop) (cfg : Config) (m : Conn → Input → ℕ) :
    Conn → ℕ → Prop
  | start : Metered H ok cfg m (newH2Conn cfg) 0
  | step {c : Conn} {k : ℕ} (i : Input) : Metered H ok cfg m c k → i.Permitted ok c →
      Metered H ok cfg m (step H c i) (k + m c i)

/-- The frame that the next iteration of the frame loop reads. -/
def Conn.nextInFrame (c : Conn) : Option (InFrame × Bytes) :=
  if c.closing || !c.prefaceDone then none else nextFrame c.rbuf

/-- A meter of frames: its reading in the state in which the frame is handled. -/
def frameMeter (m : Conn → InFrame → ℕ) (c : Conn) : Input → ℕ
  | .feed => match c.nextInFrame with
      | some (f, rest) => m (c.arrived f rest) f
      | none => 0
  | _ => 0

section Metered

variable {H : Hooks} {ok : Call → Conn → Prop} {cfg : Config} {m : Conn → Input → ℕ} {c : Conn}
  {k : ℕ}

theorem Metered.reachable (h : Metered H ok cfg m c k) : Reachable H ok cfg c := by
  induction h with
  | start => exact .start
  | step i _ hi ih => exact ih.step i hi

/-- The readings of a list of events. -/
def readings (H : Hooks) (m : Conn → Input → ℕ) : List Input → Conn → ℕ
  | [], _ => 0
  | i :: is, c => m c i + readings H m is (step H c i)

theorem Metered.foldl : ∀ (is : List Input) {c : Conn} {k : ℕ}, Metered H ok cfg m c k →
    (∀ k c, Input.call k ∈ is → ok k c) →
      Metered H ok cfg m (is.foldl (Http2.step H) c) (k + readings H m is c)
  | [], _, _, h, _ => h
  | i :: is, c, k, h, hok => by
    have hi : i.Permitted ok c := by
      cases i with
      | bytes | feed => exact trivial
      | call k => exact hok k c List.mem_cons_self
    have hstep := Metered.foldl is (h.step i hi)
      (fun k c hk => hok k c (List.mem_cons_of_mem i hk))
    rw [Nat.add_assoc] at hstep
    exact hstep

theorem readings_le_add {m m₁ m₂ : Conn → InFrame → ℕ} (h : ∀ c f, m c f ≤ m₁ c f + m₂ c f) :
    ∀ (is : List Input) (c : Conn), readings H (frameMeter m) is c ≤
      readings H (frameMeter m₁) is c + readings H (frameMeter m₂) is c
  | [], _ => le_rfl
  | i :: is, c => by
    have hi : frameMeter m c i ≤ frameMeter m₁ c i + frameMeter m₂ c i := by
      cases i with
      | bytes | call => exact le_rfl
      | feed =>
        unfold frameMeter
        cases c.nextInFrame with
        | none => exact le_rfl
        | some p => exact h _ _
    have hrest := readings_le_add h is (Http2.step H c i)
    simp only [readings]
    omega

end Metered

variable {c : Conn}

theorem step_feed {H : Hooks} {f : InFrame} {rest : Bytes} (hf : c.nextInFrame = some (f, rest))
    (hopen : (step H c .feed).closing = false) :
    step H c .feed = handleFrame H f (c.arrived f rest) := by
  unfold Conn.nextInFrame at hf
  split_ifs at hf with hc
  simp only [Bool.or_eq_true, Bool.not_eq_true', not_or, Bool.not_eq_true, Bool.not_eq_false] at hc
  have hstep : feedStep H c = if frameHeaderLen ≤ c.rbuf.length ∧
      (parseFrameHeader c.rbuf 0).length > ourMaxFrameSize then some (c.connError .errFrameSize)
      else some (feedFrame H f rest c) := by
    unfold feedStep
    rw [if_neg (by simp [hc.2]), if_neg (by simp [hc.1]), hf]
  unfold step at hopen ⊢
  rw [hstep] at hopen ⊢
  split_ifs at hopen ⊢ with hlen
  · cases hopen
  · rw [Option.getD_some] at hopen ⊢
    unfold feedFrame at hopen ⊢
    split_ifs at hopen ⊢
    · cases hopen
    · rfl

theorem Reachable.open_of_open {W : World} {ok : Call → Conn → Prop} (hW : W.Obeys ok)
    {cfg : Config} {n : ℕ} (h : Reachable (W.hooks n) ok cfg c) {i : Input}
    (hi : i.Permitted ok c) (hopen : (Http2.step (W.hooks n) c i).closing = false) :
    c.closing = false := by
  rcases step_cases hW n hi (h.ranged hW) with he | ⟨f, rest, hh⟩
  · exact he.open_of_open hopen
  · exact hh.going

/-- **The rule for metered runs.**  A quantity that no entry lowers and that every frame raises by
at least its reading, unless the connection is closing after it, bounds the readings of a run. -/
theorem Metered.frames_le {W : World} {ok : Call → Conn → Prop} (hW : W.Obeys ok) {cfg : Config}
    {n : ℕ} {m : Conn → InFrame → ℕ} {φ : Conn → ℕ}
    (hentry : ∀ a b, Entry a b → a.Ranged → φ a ≤ φ b)
    (harrived : ∀ c f rest, φ c ≤ φ (c.arrived f rest))
    (hframe : ∀ c f rest, Reachable (W.hooks n) ok cfg c → c.nextInFrame = some (f, rest) →
      (handleFrame (W.hooks n) f (c.arrived f rest)).closing = false →
      φ c + m (c.arrived f rest) f ≤ φ (handleFrame (W.hooks n) f (c.arrived f rest))) {k : ℕ}
    (h : Metered (W.hooks n) ok cfg (frameMeter m) c k) (hc : c.closing = false) : k ≤ φ c := by
  have hentries : ∀ a b, Entries a b → a.Ranged → φ a ≤ φ b := by
    intro a b he hr
    induction he with
    | refl => exact le_refl _
    | tail he h ih => exact ih.trans (hentry _ _ h (Entries.ranged he hr))
  induction h with
  | start => exact Nat.zero_le _
  | @step c k i hk hi ih =>
    have hreach := hk.reachable
    have hr := hreach.ranged hW
    have hle := ih (hreach.open_of_open hW hi hc)
    have hmono : φ c ≤ φ (Http2.step (W.hooks n) c i) := by
      rcases step_cases hW n hi hr with he | ⟨f, rest, hh⟩
      · exact hentries _ _ he hr
      · exact (harrived c f rest).trans
          (hentries _ _ (hh.entries hW (hreach.reading hW) hr) (hr.arrived f rest))
    cases i with
    | bytes | call => exact hle.trans hmono
    | feed =>
      unfold frameMeter
      cases hf : c.nextInFrame with
      | none => exact hle.trans hmono
      | some p =>
        obtain ⟨f, rest⟩ := p
        have hstep := step_feed hf hc
        rw [hstep] at hc ⊢
        exact (Nat.add_le_add_right hle _).trans (hframe c f rest hreach hf hc)

end Vortex.Http2
