import Vortex.Http2.Stalls
import Vortex.Http2.FloodBudget

/-! # WINDOW_UPDATE frames that move nothing

A WINDOW_UPDATE that unblocks nothing is to spend a credit or to be charged.  The handler takes an
update to unblock something when it finds a stream that its own window lets send, or a queue that is
not empty; whether the scheduler pass it then runs can write anything is another matter, for the
pass also needs the connection's window and room in the write buffer.

Where nothing else holds the pass back (`Conn.unobstructed`), an update is followed by a DATA frame
or is paid for, and the updates that a run makes in such states are within its budget.  Behind an
exhausted connection window an update of a stream is free (`stuckTrailers_update`). -/

namespace Vortex.Http2

open Relation (ReflTransGen)

/-! ### Updates -/

/-- The increment of a WINDOW_UPDATE frame. -/
def InFrame.increment (f : InFrame) : ℕ := low31 (get32 f.payload 0)

/-- A well-formed update with a legal increment, of the connection or of a stream that was seen. -/
def Conn.allowsUpdate (c : Conn) (f : InFrame) : Bool :=
  f.header.length == 4 && f.increment != 0 &&
    if f.header.streamId = 0 then decide (c.connSendWindow + f.increment ≤ 0x7fffffff)
    else f.header.streamId % 2 == 1 && decide (f.header.streamId ≤ c.lastStreamId) &&
      (c.stream? f.header.streamId).all
        (fun st => decide (st.sendWindow + (f.increment : ℤ) ≤ 0x7fffffff))

/-- The stream to be served next has bytes, and its window lets them out. -/
def Conn.headReady (c : Conn) : Bool :=
  match c.h2NextUrgency with
  | none => false
  | some u => (c.stream? ((c.sendQ u).headD 0)).any
      (fun st => decide (0 < st.backlog) && decide (0 < st.sendWindow))

/-- The update is one of a stream that is closed or owes nothing.  Or no pass is running, the write
buffer has room, and either the connection window is open and nothing is queued, or the update is
one of the connection and the next stream is ready. -/
def Conn.unobstructed (c : Conn) (sid : ℕ) : Bool :=
  sid != 0 && (c.stream? sid).all (fun st => !st.owesFrames) ||
  !c.scheduling && decide (c.pendingOut < respHighWater) &&
    (decide (0 < c.connSendWindow) && c.h2NextUrgency.isNone || sid == 0 && c.headReady)

/-! ### What is left alone -/

/-- What a pass looks at beside the streams. -/
structure Undisturbed (a b : Conn) : Prop where
  scheduling : b.scheduling = a.scheduling
  window : b.connSendWindow = a.connSendWindow
  queue : b.sendQ = a.sendQ
  room : b.pendingOut = a.pendingOut

theorem pendingOut_note (c : Conn) {e : Event} (he : ∀ f, e ≠ .sent f) :
    (c.note e).pendingOut = c.pendingOut := by
  unfold Conn.pendingOut Conn.sentFrames Conn.note
  rw [List.filterMap_append]
  cases e <;> simp at he ⊢

theorem undisturbed_creditSend (c : Conn) (sid inc : ℕ) : Undisturbed c (c.creditSend sid inc) := by
  have hroom : (c.note (.streamCredit sid inc)).pendingOut = c.pendingOut :=
    pendingOut_note c (fun _ => Event.noConfusion)
  unfold Conn.creditSend Conn.syncSendState
  split <;> exact ⟨rfl, rfl, rfl, hroom⟩

theorem h2Enqueue_aside (c : Conn) (sid : ℕ) : (c.h2Enqueue sid).scheduling = c.scheduling ∧
    (c.h2Enqueue sid).connSendWindow = c.connSendWindow ∧
    (c.h2Enqueue sid).pendingOut = c.pendingOut := by
  unfold Conn.h2Enqueue
  split
  · exact ⟨rfl, rfl, rfl⟩
  · split_ifs <;> exact ⟨rfl, rfl, rfl⟩

variable {c : Conn}

theorem h2Enqueue_next {sid : ℕ} {st : Stream} (hempty : ∀ u, c.sendQ u = [])
    (hs : c.stream? sid = some st) (hin : st.inSendQ = false) (hsend : st.sendable = true) :
    c.h2Enqueue sid = { c.modify sid (fun st => { st with inSendQ := true }) with
        sendQ := Function.update c.sendQ st.urgency (c.sendQ st.urgency ++ [sid]) } ∧
      ∃ u, (c.h2Enqueue sid).h2NextUrgency = some u ∧ (c.h2Enqueue sid).sendQ u = [sid] := by
  have he : c.h2Enqueue sid = { c.modify sid (fun st => { st with inSendQ := true }) with
      sendQ := Function.update c.sendQ st.urgency (c.sendQ st.urgency ++ [sid]) } := by
    unfold Conn.h2Enqueue
    rw [hs]
    dsimp only
    rw [if_pos (by rw [hsend, hin]; rfl)]
  have hq : (c.h2Enqueue sid).sendQ st.urgency = [sid] := by
    rw [he]
    change Function.update c.sendQ st.urgency (c.sendQ st.urgency ++ [sid]) st.urgency = [sid]
    rw [Function.update_self, hempty]
    rfl
  refine ⟨he, ?_⟩
  cases hn : (c.h2Enqueue sid).h2NextUrgency with
  | none =>
    rw [h2NextUrgency_none hn] at hq
    cases hq
  | some u =>
    refine ⟨u, rfl, ?_⟩
    by_cases e : u = st.urgency
    · rw [e, hq]
    · have hf := List.find?_some hn
      have hne : (c.h2Enqueue sid).sendQ u = [] := by
        rw [he]
        exact (Function.update_of_ne e _ _).trans (hempty u)
      rw [hne] at hf
      cases hf

/-! ### A pass that sends -/

/-- From `a` to `b` entries are made, and among them is a DATA frame, a credit spent or a charge. -/
def Covers (a b : Conn) : Prop :=
  a.Ranged → Entries a b ∧ (tally dataFrames a.journal < tally dataFrames b.journal ∨
    tally creditsSpent a.journal < tally creditsSpent b.journal ∨
    tally chargedUnits a.journal < tally chargedUnits b.journal)

section Covers

variable {a b c : Conn}

theorem Posts.andCovers (h1 : Posts a b) (h2 : Covers b c) : Covers a c := by
  intro hr
  have he := h1 hr
  obtain ⟨he', h⟩ := h2 (he.ranged hr)
  refine ⟨he.trans he', ?_⟩
  have h0 := he.tally_le
  exact h.imp (h0 dataFrames).trans_lt
    (Or.imp (h0 creditsSpent).trans_lt (h0 chargedUnits).trans_lt)

theorem Covers.andPosts (h1 : Covers a b) (h2 : Posts b c) : Covers a c := by
  intro hr
  obtain ⟨he, h⟩ := h1 hr
  have he' := h2 (he.ranged hr)
  refine ⟨he.trans he', ?_⟩
  have h0 := he'.tally_le
  exact h.imp (fun h => h.trans_le (h0 dataFrames))
    (Or.imp (fun h => h.trans_le (h0 creditsSpent)) (fun h => h.trans_le (h0 chargedUnits)))

theorem Covers.of_snoc {e : Event} (hp : Posts a b) (hj : b.journal = a.journal ++ [e])
    (he : 0 < dataFrames e ∨ 0 < creditsSpent e ∨ 0 < chargedUnits e) : Covers a b := by
  intro hr
  refine ⟨hp hr, ?_⟩
  rw [hj]
  simp only [tally_append, tally_cons, tally_nil]
  omega

theorem covers_charge (c : Conn) : Covers c (c.noteControlFrame 1) := by
  refine fun _ => ⟨(Basic.charge c 1).entries, .inr (.inr ?_)⟩
  rw [charged_noteControlFrame]
  exact Nat.lt_succ_self _

theorem covers_idle (c : Conn) : Covers c c.noteIdleWindowUpdate := by
  unfold Conn.noteIdleWindowUpdate
  split_ifs with h
  · exact .of_snoc (fun _ => (Basic.spend h).entries) rfl (by decide)
  · exact covers_charge c

theorem covers_sendChunk {sid n : ℕ} {st : Stream} {last : Bool} (hs : c.stream? sid = some st)
    (h : c.CanSend st n last) : Covers c (c.sendChunk sid st n last) := by
  refine .of_snoc (e := .sent (.data sid (st.unsent.take n) last))
    (fun _ => entries_sendChunk hs h) ?_ (.inl Nat.one_pos)
  unfold Conn.sendChunk Conn.syncSendState Conn.noteDataProgress
  dsimp only
  split <;> split_ifs <;> rfl

end Covers

section Pass

variable {W : World} {ok : Call → Conn → Prop} (hW : W.Obeys ok) {N : ℕ} {c : Conn} {sid inc : ℕ}
  {st : Stream}

include hW

theorem completeStream_posts (sid : ℕ) (c : Conn) : Posts c (completeStream (W.hooks N) sid c) :=
  Posts.trans (Strokes.stopClient _ _).entries (teardownStream_posts hW sid _)

theorem run_posts (cb : Callback) (c : Conn) : Posts c ((W.hooks N).run cb c) :=
  Posts.trans (fun _ => .note c rfl) (World.fire_posts hW N cb _).2

theorem h2WsFinalize_posts (sid : ℕ) (c : Conn) : Posts c (h2WsFinalize (W.hooks N) sid c) := by
  have h1 : Posts c (c.sendEnd sid) := (Strokes.sendEnd c sid).entries
  exact (h1.trans (run_posts hW _ _)).trans (fun _ => entries_dropWsStream _ _)

theorem h2WsAfterEmit_posts (sid : ℕ) (c : Conn) : Posts c (h2WsAfterEmit (W.hooks N) sid c) := by
  have hm : ∀ (c : Conn) f, Posts c (c.modifyWs sid f) := fun c f => (Strokes.modifyWs c sid f).entries
  unfold h2WsAfterEmit
  split
  · exact .refl c
  · split
    · exact .refl c
    · dsimp only
      split_ifs
      · exact (hm _ _).trans (h2WsFinalize_posts hW _ _)
      · exact ((hm _ _).trans (hm _ _)).trans (run_posts hW _ _)
      · exact (hm _ _).trans (hm _ _)
      · exact hm _ _
      · exact (hm _ _).trans (hm _ _)

theorem emitOneFrame_covers (hs : c.stream? sid = some st) (hb : 0 < st.backlog)
    (hw : 0 < st.sendWindow) (hc : 0 < c.connSendWindow) :
    Covers c (emitOneFrame (W.hooks N) sid c) := by
  have he : Emitted (W.hooks N) c sid st _ := emitOneFrame_emitted hs
  generalize emitOneFrame (W.hooks N) sid c = c' at he ⊢
  cases he with
  | trailers | bare => omega
  | nothing h =>
    have := chunkSize_pos hb hc hw
    omega
  | chunk hn => exact covers_sendChunk hs hn
  | endChunk hn => exact (covers_sendChunk hs hn).andPosts (completeStream_posts hW _ _)

theorem serveStream_covers (hs : c.stream? sid = some st) (hb : 0 < st.backlog)
    (hw : 0 < st.sendWindow) (hc : 0 < c.connSendWindow) :
    Covers c (serveStream (W.hooks N) sid c) := by
  let c1 := c.modify sid (fun st => { st with inSendQ := false })
  have hs1 : c1.stream? sid = some { st with inSendQ := false } := (Updates.modify c sid _).self hs
  have h1 : Posts c c1 := fun _ => .modify c sid (fun _ => rfl)
  have h2 : Covers c1 (emitOneFrame (W.hooks N) sid c1) :=
    emitOneFrame_covers hW hs1 hb hw hc
  have hq : ∀ c : Conn, Posts c (c.h2Enqueue sid) := fun c => (Strokes.h2Enqueue c sid).entries
  unfold serveStream
  rw [hs]
  dsimp only
  refine h1.andCovers (h2.andPosts ?_)
  generalize emitOneFrame (W.hooks N) sid c1 = c2
  split
  · exact .refl _
  · next st2 _ =>
    split_ifs
    · exact (h2WsAfterEmit_posts hW sid c2).trans (hq _)
    · have hu : Updates c2 (c2.requeue sid st2) sid (fun st => { st with inSendQ := true }) :=
        Updates.of_streams rfl
      exact fun _ => .of_updates rfl hu (fun _ _ => rfl)
    · exact .refl _

theorem h2Schedule_covers (hfuel : 0 < W.passFuel) (hidle : c.scheduling = false)
    (hroom : c.pendingOut < respHighWater) (hc : 0 < c.connSendWindow)
    (hready : c.headReady = true) : Covers c (h2Schedule (W.hooks N) c) := by
  have hpass : (W.hooks N).passFuel = W.passFuel := by
    cases N <;> rfl
  obtain ⟨fuel, hf⟩ := Nat.exists_eq_succ_of_ne_zero hfuel.ne'
  unfold Conn.headReady at hready
  cases hu : c.h2NextUrgency with
  | none =>
    rw [hu] at hready
    cases hready
  | some u =>
    rw [hu] at hready
    obtain ⟨st, hs, hst⟩ := (Option.any_eq_true _ _).mp hready
    obtain ⟨hb, hw⟩ := Bool.and_eq_true_iff.mp hst
    rw [h2Schedule_eq hidle]
    unfold schedulePass
    rw [hpass, hf]
    unfold scheduleLoop
    rw [if_pos ⟨hc, hroom⟩, show Conn.h2NextUrgency { c with scheduling := true } = some u from hu]
    have h1 : Posts c (Conn.popQueue { c with scheduling := true } u) :=
      fun _ => .of_streams rfl rfl
    have hs' : (Conn.popQueue { c with scheduling := true } u).stream? ((c.sendQ u).headD 0) =
      some st := hs
    have h2 := serveStream_covers hW (N := N) hs' (of_decide_eq_true hb) (of_decide_eq_true hw) hc
    have h3 : ∀ a : Conn, Posts a (scheduleLoop (W.hooks N) fuel a) := by
      intro a
      exact (scheduleLoop_path (World.fire_posts hW N) @Behaves.kept fuel a).quiet.quietPosts
    have h4 : ∀ a : Conn, Posts a (h2ResumeProducers (W.hooks N) { a with scheduling := false }) := by
      intro a
      have h0 : Posts a { a with scheduling := false } := fun _ => .of_streams rfl rfl
      exact h0.trans (h2ResumeProducers_path (World.fire_posts hW N) _).quiet.quietPosts
    exact h1.andCovers ((h2.andPosts (h3 _)).andPosts (h4 _))

theorem windowUpdateConn_covers (hfuel : 0 < W.passFuel) (hr : c.Ranged) (hpos : 0 < inc)
    (hle : c.connSendWindow + inc ≤ 0x7fffffff) (ho : c.unobstructed 0 = true) :
    Covers c (windowUpdateConn (W.hooks N) inc c) := by
  unfold Conn.unobstructed at ho
  simp only [Bool.and_eq_true, Bool.not_eq_true', decide_eq_true_eq, Bool.or_eq_true,
    Option.isNone_iff_eq_none, beq_self_eq_true, true_and, bne_self_eq_false, Bool.false_eq_true,
    false_and, false_or] at ho
  obtain ⟨⟨hidle, hroom⟩, ho⟩ := ho
  have hwin : int32 (c.connSendWindow + inc) = c.connSendWindow + inc :=
    int32_of_range (by have := hr.conn; omega) (by omega)
  unfold windowUpdateConn
  rw [if_neg (by omega)]
  dsimp only
  have h1 : Posts c (Conn.note { c with connSendWindow := int32 (c.connSendWindow + inc) }
      (.connCredit inc)) := fun _ => (Basic.connCredit inc hle).entries
  have hroom1 : (Conn.note { c with connSendWindow := int32 (c.connSendWindow + inc) }
      (.connCredit inc)).pendingOut < respHighWater := by
    rw [pendingOut_note { c with connSendWindow := int32 (c.connSendWindow + inc) }
      (fun _ => Event.noConfusion)]
    exact hroom
  have hready : Conn.headReady (Conn.note { c with
      connSendWindow := int32 (c.connSendWindow + inc) } (.connCredit inc)) = c.headReady := rfl
  have hnext : Conn.h2NextUrgency (Conn.note { c with
      connSendWindow := int32 (c.connSendWindow + inc) } (.connCredit inc)) = c.h2NextUrgency := rfl
  have hwin1 : Conn.connSendWindow (Conn.note { c with
      connSendWindow := int32 (c.connSendWindow + inc) } (.connCredit inc)) =
      c.connSendWindow + inc := hwin
  have hidle1 : Conn.scheduling (Conn.note { c with
      connSendWindow := int32 (c.connSendWindow + inc) } (.connCredit inc)) = false := hidle
  refine h1.andCovers ?_
  generalize Conn.note { c with connSendWindow := int32 (c.connSendWindow + inc) }
    (.connCredit inc) = c1 at hroom1 hready hnext hwin1 hidle1 ⊢
  cases isWindowDribble inc c1.connSendWindow (decide (c1.backlogStreams > 0)) with
  | true =>
    refine (covers_charge c1).andPosts ?_
    simp only [if_true, Bool.not_true, Bool.true_and, Bool.false_eq_true, if_false]
    split_ifs
    · exact .refl _
    · exact h2Schedule_posts hW _
    · exact .refl _
  | false =>
    simp only [Bool.false_and, Bool.not_false, Bool.false_eq_true, if_false, if_true]
    split_ifs with hpass
    · refine h2Schedule_covers hW hfuel hidle1 hroom1 (by have := hr.conn; omega) ?_
      rcases ho with ⟨hw, hn⟩ | ho
      · rw [hnext, hn] at hpass
        simp only [Option.isSome_none, Bool.false_or, Bool.and_eq_true, decide_eq_true_eq] at hpass
        omega
      · rw [hready]
        exact ho
    · exact covers_idle c1

omit hW in
theorem stream?_creditSend (hs : c.stream? sid = some st) (inc : ℕ) :
    (c.creditSend sid inc).stream? sid =
      some (Stream.synced { st with sendWindow := int32 (st.sendWindow + inc) }) :=
  ((Updates.modify (c.note (.streamCredit sid inc)) sid _).trans
    (updates_syncSendState _ sid)).self hs

omit hW in
theorem not_sendable_credited (hs : c.stream? sid = some st) (howes : st.owesFrames = false)
    (inc : ℕ) :
    (((c.creditSend sid inc).h2Enqueue sid).stream? sid).any Stream.sendable = false := by
  have hs' := stream?_creditSend hs inc
  have hsend : (Stream.synced { st with sendWindow := int32 (st.sendWindow + inc) }).sendable =
      false := by
    obtain ⟨hb, hend⟩ := (Bool.or_eq_false_iff).mp howes
    have hz : ¬ st.backlog > 0 := by
      simp only [Stream.hasBacklog, decide_eq_false_iff_not] at hb
      unfold Stream.backlog
      omega
    change (if st.backlog > 0 then _ else _) = false
    rw [if_neg hz]
    exact hend
  rw [h2Enqueue_of_not_sendable hs' hsend, hs', Option.any_some, hsend]

omit hW in
theorem headReady_credited (ht : c.Turns ∅) (hs : c.stream? sid = some st)
    (hn : c.h2NextUrgency = none)
    (hsend : (((c.creditSend sid inc).h2Enqueue sid).stream? sid).any Stream.sendable = true) :
    ((c.creditSend sid inc).h2Enqueue sid).headReady = true := by
  have hempty := h2NextUrgency_none hn
  have hin := ht.inSendQ_of_empty hempty hs
  let st' : Stream := Stream.synced { st with sendWindow := int32 (st.sendWindow + inc) }
  have hund : Undisturbed c (c.creditSend sid inc) := undisturbed_creditSend c sid inc
  have hs' : (c.creditSend sid inc).stream? sid = some st' := stream?_creditSend hs inc
  cases hsend' : st'.sendable with
  | false =>
    rw [h2Enqueue_of_not_sendable hs' hsend', hs', Option.any_some, hsend'] at hsend
    cases hsend
  | true =>
    obtain ⟨he, u, hu, hq⟩ := h2Enqueue_next (hund.queue ▸ hempty) hs' hin hsend'
    have hs2 : ((c.creditSend sid inc).h2Enqueue sid).stream? sid =
        some { st' with inSendQ := true } := by
      rw [he]
      exact (Updates.of_streams rfl : Updates (c.creditSend sid inc) _ sid
        (fun st => { st with inSendQ := true })).self hs'
    have hb : 0 < st.backlog := by
      by_contra hb
      have hz : st.backlog = 0 := by omega
      have hsame : st'.sendable = st.sendable := by
        change (if st.backlog > 0 then _ else _) = if st.backlog > 0 then _ else _
        rw [if_neg hb, if_neg hb]
        rfl
      have := ht.ready sid (Set.notMem_empty sid) st hs (hsame ▸ hsend') (.inr hz)
      rw [hin] at this
      cases this
    have hw : 0 < st'.sendWindow := by
      change (if st.backlog > 0 then decide (st'.sendWindow > 0) else _) = true at hsend'
      rw [if_pos hb] at hsend'
      exact of_decide_eq_true hsend'
    unfold Conn.headReady
    rw [hu]
    dsimp only
    rw [hq, List.headD_cons, hs2, Option.any_some, Bool.and_eq_true]
    exact ⟨decide_eq_true hb, decide_eq_true hw⟩

theorem windowUpdateStream_covers (hfuel : 0 < W.passFuel) (ht : c.Turns ∅)
    (hs : c.stream? sid = some st) (hle : st.sendWindow + inc ≤ 0x7fffffff)
    (ho : st.owesFrames = false ∨ (c.scheduling = false ∧ c.pendingOut < respHighWater) ∧
      0 < c.connSendWindow ∧ c.h2NextUrgency = none) :
    Covers c (windowUpdateStream (W.hooks N) sid inc st c) := by
  have hready : (((c.creditSend sid inc).h2Enqueue sid).stream? sid).any Stream.sendable = true →
      ((c.creditSend sid inc).h2Enqueue sid).headReady = true ∧
        (c.scheduling = false ∧ c.pendingOut < respHighWater) ∧ 0 < c.connSendWindow := by
    intro hsend
    rcases ho with howes | ⟨hidle, hwin, hn⟩
    · rw [not_sendable_credited hs howes] at hsend
      cases hsend
    · exact ⟨headReady_credited ht hs hn hsend, hidle, hwin⟩
  have h1 : Posts c ((c.creditSend sid inc).h2Enqueue sid) :=
    (FrameAtom.streamCredit hs inc hle).entries
  have hund := undisturbed_creditSend c sid inc
  obtain ⟨hidle1, hwin1, hroom1⟩ := h2Enqueue_aside (c.creditSend sid inc) sid
  rw [hund.scheduling] at hidle1
  rw [hund.window] at hwin1
  rw [hund.room] at hroom1
  unfold windowUpdateStream
  rw [if_neg (by omega)]
  dsimp only
  refine h1.andCovers ?_
  generalize (c.creditSend sid inc).h2Enqueue sid = c1 at hready hidle1 hwin1 hroom1 ⊢
  cases isWindowDribble inc (int32 (st.sendWindow + inc)) st.hasBacklog with
  | true =>
    refine (covers_charge c1).andPosts ?_
    simp only [if_true, Bool.true_and]
    split_ifs
    · exact .refl _
    · exact h2Schedule_posts hW _
    · exact (windowUpdateIdle_path (World.fire_posts hW N) true _).quietPosts
  | false =>
    simp only [Bool.false_and, Bool.false_eq_true, if_false]
    split_ifs with hsend
    · obtain ⟨hhead, ⟨hidle, hroom⟩, hwin⟩ := hready hsend
      exact h2Schedule_covers hW hfuel (hidle1.trans hidle) (hroom1.trans_lt hroom)
        (hwin1 ▸ hwin) hhead
    · unfold windowUpdateIdle
      simp only [Bool.not_false, Bool.true_and, Bool.false_eq_true, if_false]
      refine (covers_idle c1).andPosts ?_
      split_ifs
      · exact .refl _
      · exact (h2ResumeProducers_path (World.fire_posts hW N) _).quiet.quietPosts

/-- **An update that finds nothing in its way is followed by DATA or is paid for.** -/
theorem handleWindowUpdate_covers (hfuel : 0 < W.passFuel) {f : InFrame} (hr : c.Ranged)
    (ht : c.Turns ∅) (hf : c.allowsUpdate f = true)
    (ho : c.unobstructed f.header.streamId = true) :
    Covers c (handleWindowUpdate (W.hooks N) f c) := by
  unfold Conn.allowsUpdate InFrame.increment at hf
  simp only [Bool.and_eq_true, beq_iff_eq, bne_iff_ne] at hf
  obtain ⟨⟨hlen, hinc⟩, hf⟩ := hf
  unfold handleWindowUpdate
  by_cases hz : f.header.streamId = 0
  · rw [if_pos hz, decide_eq_true_eq] at hf
    rw [hz] at ho
    rw [if_neg (by simp [hlen]), if_neg (by simp [hz]), if_neg hinc, if_pos hz]
    exact windowUpdateConn_covers hW hfuel hr (by omega) hf ho
  · rw [if_neg hz] at hf
    simp only [Bool.and_eq_true, beq_iff_eq, decide_eq_true_eq] at hf
    obtain ⟨⟨hodd, hlast⟩, hall⟩ := hf
    rw [if_neg (by simp [hlen]), if_neg (by omega), if_neg hinc, if_neg hz]
    unfold Conn.unobstructed at ho
    simp only [Bool.and_eq_true, Bool.not_eq_true', decide_eq_true_eq, Bool.or_eq_true,
      Option.isNone_iff_eq_none, beq_iff_eq, hz, false_and, or_false, bne_iff_ne, ne_eq,
      not_false_eq_true, true_and] at ho
    cases hs : c.stream? f.header.streamId with
    | some st =>
      rw [hs] at hall ho
      exact windowUpdateStream_covers hW hfuel ht hs (of_decide_eq_true hall)
        (by simpa using ho)
    | none =>
      rw [if_neg (by omega)]
      exact covers_idle c

end Pass

/-! ### Whole runs -/

/-- An update that nothing stands in the way of, and that is not followed by DATA. -/
def idleUpdate (H : Hooks) (c : Conn) (f : InFrame) : ℕ :=
  if FrameType.ofCode f.header.typ = some .ftWindowUpdate ∧ c.allowsUpdate f = true ∧
      c.unobstructed f.header.streamId = true ∧
      tally dataFrames (handleWindowUpdate H f c).journal = tally dataFrames c.journal then 1
  else 0

theorem Conn.Turns.arrived {S : Set ℕ} (h : c.Turns S) (f : InFrame) (rest : Bytes) :
    (c.arrived f rest).Turns S :=
  ⟨h.opened, h.known, h.queued, h.ready⟩

theorem handleFrame_windowUpdate {H : Hooks} {f : InFrame}
    (ht : FrameType.ofCode f.header.typ = some .ftWindowUpdate)
    (hopen : (handleFrame H f c).closing = false) :
    handleFrame H f c = handleWindowUpdate H f c := by
  unfold handleFrame at hopen ⊢
  split_ifs at hopen ⊢ with h1 h2
  · cases hopen
  · rw [h2] at ht
    cases ht
  · rw [ht]

theorem Metered.idleUpdates_le {W : World} {ok : Call → Conn → Prop} (hW : W.Obeys ok)
    {cfg : Config} {n : ℕ} (hfuel : 0 < W.passFuel) {k : ℕ}
    (h : Metered (W.hooks n) ok cfg (frameMeter (idleUpdate (W.hooks n))) c k)
    (hc : c.closing = false) : k ≤ tally creditsSpent c.journal + tally chargedUnits c.journal := by
  have harrived : ∀ (g : Event → ℕ) (c : Conn) (f : InFrame) (rest : Bytes),
      tally g c.journal ≤ tally g (c.arrived f rest).journal :=
    fun g c f rest => (Nat.le_add_right _ _).trans (tally_note g _ _).ge
  refine h.frames_le hW (φ := fun c => tally creditsSpent c.journal + tally chargedUnits c.journal)
    (fun _ _ he _ => Nat.add_le_add (he.entries.tally_le _) (he.entries.tally_le _))
    (fun c f rest => Nat.add_le_add (harrived _ c f rest) (harrived _ c f rest))
    (fun c f rest hr hf hopen => ?_) hc
  have h1 := harrived creditsSpent c f rest
  have h2 := harrived chargedUnits c f rest
  have hranged := (hr.ranged hW).arrived f rest
  have he := handleFrame_entries hW n (c := c.arrived f rest) (hr.reading hW)
    (lastFrame_arrived c f rest) hranged
  have h3 := he.tally_le creditsSpent
  have h4 := he.tally_le chargedUnits
  unfold idleUpdate
  split_ifs with hidle
  · obtain ⟨htyp, hlegal, hfree, hdata⟩ := hidle
    rw [handleFrame_windowUpdate htyp hopen] at h3 h4 ⊢
    obtain ⟨-, hcov⟩ := handleWindowUpdate_covers hW hfuel (N := n) hranged
      ((hr.turns hW).arrived f rest) hlegal hfree hranged
    rcases hcov with hcov | hcov | hcov <;> omega
  · omega

/-- **Updates that move nothing are paid for where nothing stands in their way.**  In every
reachable state a legal WINDOW_UPDATE that is unobstructed and not followed by a DATA frame spends a
credit or is charged.  The updates of a run that move nothing in such states are within what the
budget and the DATA sent allow. -/
theorem idle_updates_are_paid_for {W : World} {cfg : Config} {n : ℕ} (hfuel : 0 < W.passFuel)
    (hM : 0 < cfg.maxControlFrames) :
    (∀ c f, Reachable (W.hooks n) anyCall cfg c → c.allowsUpdate f = true →
      c.unobstructed f.header.streamId = true →
      tally dataFrames (handleWindowUpdate (W.hooks n) f c).journal = tally dataFrames c.journal →
      tally creditsSpent c.journal <
          tally creditsSpent (handleWindowUpdate (W.hooks n) f c).journal ∨
        tally chargedUnits c.journal <
          tally chargedUnits (handleWindowUpdate (W.hooks n) f c).journal) ∧
    (∀ c k, Metered (W.hooks n) anyCall cfg (frameMeter (idleUpdate (W.hooks n))) c k →
      c.closing = false →
      k ≤ cfg.maxControlFrames + max 1 (cfg.maxControlFrames / 10) *
          (tally streamsOpened c.journal + tally dataSize c.journal / respHighWater) +
        (tally dataSize c.journal / 256 + 2 * tally dataFrames c.journal)) := by
  have hW := obeys_anyCall W
  refine ⟨fun c f hr hf ho hdata => ?_, fun c k h hc => ?_⟩
  · have hranged := hr.ranged hW
    obtain ⟨-, hcov⟩ := handleWindowUpdate_covers hW hfuel (N := n) hranged (hr.turns hW) hf ho
      hranged
    exact hcov.resolve_left (by omega)
  · have hbound := h.idleUpdates_le hW hfuel hc
    have hb := h.reachable.within_budget hW hM hc
    omega

/-- A WINDOW_UPDATE of the stream 1, as it is read. -/
def updateRead (inc : ℕ) : InFrame where
  header := { length := 4, typ := 8, flags := 0, streamId := 1 }
  payload := add32 inc
  length_eq := rfl

/-- Behind an exhausted connection window, an update of a stream costs nothing and moves nothing. -/
theorem stuckTrailers_update : ∃ c f,
    Reachable ((idleWorld false).hooks 0) anyCall guardedConfig c ∧
      0 < guardedConfig.maxControlFrames ∧ c.closing = false ∧ c.allowsUpdate f = true ∧
      (handleWindowUpdate ((idleWorld false).hooks 0) f c).journal =
        c.journal ++ [.streamCredit f.header.streamId f.increment] ∧
      (handleWindowUpdate ((idleWorld false).hooks 0) f c).windowCredit = c.windowCredit ∧
      (handleWindowUpdate ((idleWorld false).hooks 0) f c).controlFrameCount =
        c.controlFrameCount :=
  ⟨guardedRun stuckTrailers, updateRead 1000, stuckTrailers_reachable, by decide +kernel⟩

/-- A request is open and owes nothing yet. -/
def quietInputs : List Input := feedInputs [.headers 1 postBlock true true]

/-- An update of its stream is charged. -/
theorem idle_updates_are_paid_for_quiet :
    (0 < (idleWorld false).passFuel ∧ 0 < guardedConfig.maxControlFrames) ∧
    (tally creditsSpent (guardedRun quietInputs).journal < tally creditsSpent
        (handleWindowUpdate ((idleWorld false).hooks 0) (updateRead 1000)
          (guardedRun quietInputs)).journal ∨
      tally chargedUnits (guardedRun quietInputs).journal < tally chargedUnits
        (handleWindowUpdate ((idleWorld false).hooks 0) (updateRead 1000)
          (guardedRun quietInputs)).journal) :=
  ⟨by decide, (idle_updates_are_paid_for (by decide) (by decide)).1 (guardedRun quietInputs)
    (updateRead 1000) (Reachable.foldl quietInputs .start (fun _ _ _ => trivial))
    (by decide +kernel) (by decide +kernel) (by decide +kernel)⟩

end Vortex.Http2
