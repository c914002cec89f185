import Vortex.Http2.Counters
import Vortex.Http2.Turns

/-! # Ends of responses and the connection window

Trailers and a bare END_STREAM use no flow-control window, but they go out in the scheduler's
loop, which stops when the connection window is used up.  While that window is open, a pass that
comes to its end leaves no response behind whose bytes are all sent and whose end is not, and a
stream the windows hold back is one the event loop's stall timer sees
(`Conn.h2BlockedOnPeerWindow`).

With the connection window at zero both fail: a last body byte that uses the window up exactly
leaves the trailers queued behind a window they do not need, and nothing counts the stream as
blocked.

A pass starts in the middle of an event, after what the event changed; `Underway` are the states
on the way. -/

namespace Vortex.Http2

open Relation

/-! ### States on the way -/

/-- A state a run passes through, between events or in the middle of one. -/
def Underway (W : World) (n : ℕ) (ok : Call → Conn → Prop) (cfg : Config) (c : Conn) : Prop :=
  ∃ c₀, Reachable (W.hooks n) ok cfg c₀ ∧
    Path (RunAtom ok) (fun a b => ∃ cb, b = (W.hooks n).fire cb a) c₀ c

section Underway

variable {W : World} {ok : Call → Conn → Prop} {cfg : Config} {n : ℕ} {c c' : Conn}

theorem Reachable.underway (h : Reachable (W.hooks n) ok cfg c) : Underway W n ok cfg c :=
  ⟨c, h, .refl⟩

theorem Underway.path (h : Underway W n ok cfg c)
    (hp : Path AppAtom (fun a b => ∃ cb, b = (W.hooks n).fire cb a) c c') :
    Underway W n ok cfg c' := by
  obtain ⟨c0, h0, hp0⟩ := h
  exact ⟨c0, h0, hp0.trans (hp.mono (fun _ _ _ h => .call (.app h)))⟩

theorem Underway.turns (hW : W.Obeys ok) (h : Underway W n ok cfg c) : c.Turns ∅ := by
  obtain ⟨c0, hr, hp⟩ := h
  have hfire := World.fire_related hW ((KeepsTurns.respects ok).mono (fun _ _ _ => .call)) n
  refine hp.rel (KeepsTurns.respects ok) ?_ ?_ ∅ (hr.turns hW)
  · rintro a b ⟨cb, rfl⟩
    exact (hfire cb a).2
  · rintro a b ⟨cb, rfl⟩
    exact (hfire cb a).1

end Underway

/-! ### The end of a pass -/

/-- The loop of a pass stops here: a window or the write buffer is exhausted, or nothing is
queued. -/
def Conn.Stopped (c : Conn) : Prop :=
  c.connSendWindow ≤ 0 ∨ respHighWater ≤ c.pendingOut ∨ c.h2NextUrgency = none

/-- The part of `h2Schedule` before parked producers are resumed. -/
def schedulePass (H : Hooks) (c : Conn) : Conn :=
  { scheduleLoop H H.passFuel { c with scheduling := true } with scheduling := false }

/-- A scheduler pass that is not re-entered goes from `c` to `c'`, where its loop stops; parked
producers may have been resumed at its end. -/
structure PassEnds (H : Hooks) (c c' : Conn) : Prop where
  fresh : c.scheduling = false
  result : c' = schedulePass H c ∨ c' = h2Schedule H c
  stops : c'.Stopped

variable {c : Conn}

theorem h2Schedule_eq {H : Hooks} (h : c.scheduling = false) :
    h2Schedule H c = h2ResumeProducers H (schedulePass H c) := by
  unfold h2Schedule schedulePass
  rw [h]
  rfl

theorem Underway.passEnds {W : World} {ok : Call → Conn → Prop} {cfg : Config} {n : ℕ} {c' : Conn}
    (hW : W.Obeys ok) (h : Underway W n ok cfg c) (hp : PassEnds (W.hooks n) c c') :
    Underway W n ok cfg c' := by
  have hf : ∀ cb c, ∃ cb', (W.hooks n).fire cb c = (W.hooks n).fire cb' c := fun cb _ => ⟨cb, rfl⟩
  have hk : ∀ a b, (∃ cb, b = (W.hooks n).fire cb a) → Kept a b := by
    rintro a b ⟨cb, rfl⟩
    exact World.fire_reads hW n cb a
  rcases hp.result with e | e
  · rw [e]
    refine h.path (((Path.single (.scheduling c true)).trans
      (scheduleLoop_path hf hk _ _)).trans (.single (.scheduling _ false)))
  · rw [e]
    exact h.path (h2Schedule_path hf hk c)

theorem h2NextUrgency_none (h : c.h2NextUrgency = none) (u : Fin 8) : c.sendQ u = [] := by
  have h1 := List.find?_eq_none.mp h u (List.mem_finRange u)
  simpa using h1

theorem Conn.Stopped.empty (h : c.Stopped) (hw : 0 < c.connSendWindow)
    (hr : c.pendingOut < respHighWater) (u : Fin 8) : c.sendQ u = [] := by
  rcases h with h | h | h
  · omega
  · omega
  · exact h2NextUrgency_none h u

theorem Conn.Turns.inSendQ_of_empty {S : Set ℕ} (h : c.Turns S) (he : ∀ u, c.sendQ u = [])
    {sid : ℕ} {st : Stream} (hs : c.stream? sid = some st) : st.inSendQ = false := by
  have h1 := h.queued sid st hs
  have h2 : c.turns sid = 0 := Finset.sum_eq_zero (fun u _ => by rw [he u]; rfl)
  cases hq : st.inSendQ with
  | false => rfl
  | true =>
    rw [hq, h2] at h1
    cases h1

/-! ### Streams the windows hold back -/

/-- The stream still owes frames of its response. -/
def Stream.owesFrames (st : Stream) : Bool :=
  st.hasBacklog || match st.ws with
    | some w => w.wantClose
    | none => st.pendingIsLast

/-- The stream owes frames, and an exhausted window keeps the scheduler from writing them. -/
def Conn.heldByWindow (c : Conn) (st : Stream) : Bool :=
  st.owesFrames && (decide (c.connSendWindow ≤ 0) || st.windowBlocked)

theorem Accounted.blocked_of_held (h : Accounted c) {sid : ℕ} {st : Stream}
    (hs : c.stream? sid = some st) (hw : 0 < c.connSendWindow ∨ st.hasBacklog = true)
    (hh : c.heldByWindow st = true) : c.h2BlockedOnPeerWindow = true := by
  rw [h.blockedOnPeerWindow]
  unfold Conn.scanBlocked
  rw [List.any_eq_true]
  refine ⟨⟨sid, st⟩, AList.mem_lookup_iff.mp hs, ?_⟩
  unfold Conn.heldByWindow Stream.windowBlocked at hh
  simp only [Bool.and_eq_true, Bool.or_eq_true, decide_eq_true_eq] at hh ⊢
  rcases hh.2 with hc | hb
  · exact ⟨hw.resolve_left (by omega), .inr hc⟩
  · exact ⟨hb.1, .inl hb.2⟩

/-- **While the connection window is open, an end is not held back and no stall goes unseen.**
Where a scheduler pass stops with the connection window and the write buffer open, no open stream
without a WebSocket has sent all its bytes and still owes its end; and in every state between two
events a stream that is held back by a window and has bytes left, or finds the connection window
open, makes `h2BlockedOnPeerWindow` true. -/
theorem ends_follow_their_bytes {W : World} {n : ℕ} {cfg : Config} :
    (∀ c c', Underway W n anyCall cfg c → PassEnds (W.hooks n) c c' →
      c'.pendingOut < respHighWater → 0 < c'.connSendWindow →
      ∀ sid st, c'.stream? sid = some st → st.ws = none → st.backlog = 0 →
        st.pendingIsLast = false) ∧
    (∀ c, Reachable (W.hooks n) anyCall cfg c → ∀ sid st, c.stream? sid = some st →
      0 < c.connSendWindow ∨ st.hasBacklog = true → c.heldByWindow st = true →
        c.h2BlockedOnPeerWindow = true) := by
  refine ⟨fun c c' h hp hroom hwin sid st hs hws hb => ?_, fun c h sid st hs hwin hh => ?_⟩
  · have ht := (h.passEnds (obeys_anyCall W) hp).turns (obeys_anyCall W)
    have hq := ht.inSendQ_of_empty (hp.stops.empty hwin hroom) hs
    cases hl : st.pendingIsLast with
    | false => rfl
    | true =>
      have hsend : st.sendable = true := by
        unfold Stream.sendable
        rw [if_neg (by omega), hws]
        exact hl
      rw [ht.ready sid (Set.notMem_empty sid) st hs hsend (.inr hb)] at hq
      cases hq
  · exact (h.accounted (obeys_anyCall W)).blocked_of_held hs hwin hh

/-- A response its stream's window holds back: the pass that follows finds nothing to serve, and
the stall is seen. -/
theorem ends_follow_their_bytes_blocked :
    (∀ sid st, (h2Schedule ((idleWorld false).hooks 0) (runOn false blockedAnswer)).stream? sid =
      some st → st.ws = none → st.backlog = 0 → st.pendingIsLast = false) ∧
    (runOn false blockedAnswer).h2BlockedOnPeerWindow = true := by
  have hr : Reachable ((idleWorld false).hooks 0) anyCall smallConfig (runOn false blockedAnswer) :=
    runOn_reachable false blockedAnswer (fun _ _ _ => trivial)
  have hstop : (h2Schedule ((idleWorld false).hooks 0) (runOn false blockedAnswer)).h2NextUrgency =
      none := by decide +kernel
  refine ⟨ends_follow_their_bytes.1 _ _ hr.underway ⟨by decide +kernel, .inr rfl, .inr (.inr hstop)⟩
    (by decide +kernel) (by decide +kernel), ?_⟩
  have hheld : ((runOn false blockedAnswer).stream? 1).any
      ((runOn false blockedAnswer).heldByWindow) = true := by decide +kernel
  obtain ⟨st, hs, hh⟩ := (Option.any_eq_true _ _).mp hheld
  exact ends_follow_their_bytes.2 _ hr 1 st hs (.inl (by decide +kernel)) hh

/-- After the last body bytes have used up the connection window, a pass leaves the trailers where
they are, and the stall is not seen. -/
theorem stuckTrailers_unseen : ∃ c : Conn,
    Reachable ((idleWorld false).hooks 0) anyCall guardedConfig c ∧
      Underway (idleWorld false) 0 anyCall guardedConfig c ∧
      PassEnds ((idleWorld false).hooks 0) c (h2Schedule ((idleWorld false).hooks 0) c) ∧
      (h2Schedule ((idleWorld false).hooks 0) c).pendingOut < respHighWater ∧
      ∃ st, (h2Schedule ((idleWorld false).hooks 0) c).stream? 1 = some st ∧ st.ws = none ∧
        st.backlog = 0 ∧ st.pendingIsLast = true ∧ c.heldByWindow st = true ∧
        c.h2BlockedOnPeerWindow = false := by
  let c := guardedRun stuckTrailers
  have hpass : c.scheduling = false ∧ (h2Schedule ((idleWorld false).hooks 0) c).connSendWindow = 0 ∧
      (h2Schedule ((idleWorld false).hooks 0) c).pendingOut < respHighWater ∧
      ((h2Schedule ((idleWorld false).hooks 0) c).stream? 1).any (fun st => decide (st.ws = none ∧
        st.backlog = 0 ∧ st.pendingIsLast = true ∧ c.heldByWindow st = true ∧
        c.h2BlockedOnPeerWindow = false)) = true := by decide +kernel
  obtain ⟨hidle, hwin, hroom, hstream⟩ := hpass
  obtain ⟨st, hs, hst⟩ := (Option.any_eq_true _ _).mp hstream
  exact ⟨c, stuckTrailers_reachable, stuckTrailers_reachable.underway,
    ⟨hidle, .inr rfl, .inl hwin.le⟩, hroom, st, hs, of_decide_eq_true hst⟩

end Vortex.Http2
