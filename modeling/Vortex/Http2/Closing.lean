import Vortex.Http2.Refinement

/-! # The end of a connection

`closeConn` (`eventloop.nim`) is the last thing that happens to a connection: before its state is
dropped, `h2NotifyClosed` (`codec.nim`) takes the body sink and the drain callback off every open
stream and runs them, the sinks first, each with an empty last chunk; `h2WsTeardownAll` then tells
every WebSocket.  The streams stay in the table meanwhile, and the callbacks can still use them.

`Reachable.closing_run` extends the refinement to the close: from the state the close found, with
its callbacks detached and owed (`Life.parted`, `Life.farewells`), every exchange lives on.

A close that is deferred behind a worker's pin only stops the reads, so its states are those of a
run in which nothing more is read. -/

namespace Vortex.Http2

/-! ### Closing -/

/-- Take the callbacks off a stream. -/
def Conn.detachCallbacks (c : Conn) (sid : ℕ) : Conn :=
  c.modify sid (fun st => { st with onBodyCb := none, onRespDrain := none })

/-- The sinks stored on the streams, each with an empty last chunk. -/
def Conn.bodyCbs (c : Conn) (sids : List ℕ) : List Callback :=
  sids.flatMap (fun sid => ((c.stream? sid).bind (fun st => st.onBodyCb)).toList.map
    (fun cb => .body sid cb [] true))

/-- The drain callbacks stored on the streams. -/
def Conn.drainCbs (c : Conn) (sids : List ℕ) : List Callback :=
  sids.flatMap (fun sid => ((c.stream? sid).bind (fun st => st.onRespDrain)).toList.map
    (fun cb => .drain sid cb))

/-- Run callbacks one after the other. -/
def runAll (H : Hooks) (cbs : List Callback) (c : Conn) : Conn :=
  cbs.foldl (fun c cb => H.run cb c) c

/-- Tell every open stream that its connection is gone. -/
def h2NotifyClosed (H : Hooks) (c : Conn) : Conn :=
  let sids := (H.order c).1
  let bodyCbs := c.bodyCbs sids
  let drainCbs := c.drainCbs sids
  let c := sids.foldl Conn.detachCallbacks c
  runAll H drainCbs (runAll H bodyCbs c)

/-- Deliver `onClose` to the WebSocket of a stream. -/
def wsTeardown (H : Hooks) (c : Conn) (sid : ℕ) : Conn :=
  match c.stream? sid with
  | none => c
  | some st =>
      if st.ws.isSome then
        (H.run (.wsClosed sid) c).modify sid (fun st => { st with ws := none })
      else c

def h2WsTeardownAll (H : Hooks) (c : Conn) : Conn := (H.order c).1.foldl (wsTeardown H) c

/-- What `closeConn` does with an HTTP/2 connection before it drops its state. -/
def closeConn (H : Hooks) (c : Conn) : Conn :=
  h2WsTeardownAll H (h2NotifyClosed H { c with closeInProgress := true })

namespace Exchange

/-- A life without its callbacks. -/
def Life.parted : Life → Life
  | .live x => .live { x with onBodyCb := none, onRespDrain := none }
  | l => l

/-- The callbacks a close owes on a life. -/
def Life.farewells (sid : ℕ) : Life → List Callback
  | .live x => x.onBodyCb.toList.map (fun cb => .body sid cb [] true) ++
      x.onRespDrain.toList.map (fun cb => .drain sid cb)
  | _ => []

end Exchange

/-! ### Callbacks of several streams -/

/-- The callbacks of one stream. -/
def cbsOf (cbs : List Callback) (s : ℕ) : List Callback :=
  cbs.filter (fun cb => (Event.fired cb).stream? = some s)

section Callbacks

variable {f : ℕ → List Callback} {sids : List ℕ} {s : ℕ}

theorem cbsOf_flatMap_none (hf : ∀ sid, ∀ cb ∈ f sid, (Event.fired cb).stream? = some sid)
    (hs : s ∉ sids) : cbsOf (sids.flatMap f) s = [] := by
  refine List.filter_eq_nil_iff.mpr (fun cb hcb => ?_)
  obtain ⟨sid, hsid, hcb⟩ := List.mem_flatMap.mp hcb
  rw [decide_eq_true_eq, hf sid cb hcb, Option.some.injEq]
  rintro rfl
  exact hs hsid

theorem cbsOf_flatMap (hf : ∀ sid, ∀ cb ∈ f sid, (Event.fired cb).stream? = some sid)
    (hn : sids.Nodup) (hs : s ∈ sids) : cbsOf (sids.flatMap f) s = f s := by
  induction sids with
  | nil => cases hs
  | cons sid rest ih =>
    obtain ⟨hnot, hn⟩ := List.nodup_cons.mp hn
    rw [List.flatMap_cons, cbsOf, List.filter_append]
    change cbsOf (f sid) s ++ cbsOf (rest.flatMap f) s = f s
    by_cases e : s = sid
    · subst e
      have h1 : cbsOf (f s) s = f s :=
        List.filter_eq_self.mpr (fun cb hcb => by simp [hf s cb hcb])
      rw [h1, cbsOf_flatMap_none hf hnot, List.append_nil]
    · have h1 : cbsOf (f sid) s = [] := by
        refine List.filter_eq_nil_iff.mpr (fun cb hcb => ?_)
        rw [decide_eq_true_eq, hf sid cb hcb, Option.some.injEq]
        exact fun h => e h.symm
      rw [h1, List.nil_append]
      exact ih hn ((List.mem_cons.mp hs).resolve_left e)

end Callbacks

/-! ### The close is a run of every exchange -/

section Closing

variable {reg : Call → Exchange → Prop} {ok : Call → Conn → Prop} {a b c : Conn} {H : Hooks}

theorem runAll_pays (hf : ∀ cb c, Lives reg true c (H.fire cb c)) {cbs : List Callback}
    (hcbs : ∀ cb ∈ cbs, (Event.fired cb).stream?.isSome = true) (hc : c.Sound true) :
    Pays reg true (cbsOf cbs) c (runAll H cbs c) := by
  induction cbs generalizing c with
  | nil => exact Lives.refl c hc
  | cons cb rest ih =>
    obtain ⟨sid, hsid⟩ := Option.isSome_iff_exists.mp (hcbs cb List.mem_cons_self)
    have h1 := Ran.pays sid (some cb) (fun k hk => by
      rw [← Option.mem_some.mp hk]
      exact .inr hsid) (hf cb _ : Ran (Lives reg true) (some cb) c (H.run cb c)) hc
    have h2 := h1.trans (ih (fun k hk => hcbs k (List.mem_cons_of_mem _ hk)) h1.sound)
    have e : (fun s => owedOn sid (some cb).toList s ++ cbsOf rest s) = cbsOf (cb :: rest) := by
      funext s
      unfold owedOn cbsOf
      rw [List.filter_cons, hsid]
      by_cases h : s = sid
      · simp [h]
      · simp [h, Ne.symm h]
    rw [e] at h2
    exact h2

theorem detach_foldl (sids : List ℕ) (c : Conn) :
    (sids.foldl Conn.detachCallbacks c).exchangeFrame = c.exchangeFrame ∧
      (c.Placed → (sids.foldl Conn.detachCallbacks c).Placed) ∧
      ∀ s, (sids.foldl Conn.detachCallbacks c).exchange? s =
        if s ∈ sids then (c.exchange? s).map (fun x => { x with
          onBodyCb := none, onRespDrain := none }) else c.exchange? s := by
  induction sids generalizing c with
  | nil => exact ⟨rfl, id, fun s => by simp⟩
  | cons sid rest ih =>
    have h1 : Effect sid (fun x => { x with onBodyCb := none, onRespDrain := none }) [] c
        (c.detachCallbacks sid) := .modify c sid (fun _ => rfl) (fun _ => id)
    obtain ⟨hframe, hplaced, hx⟩ := ih (c.detachCallbacks sid)
    refine ⟨hframe.trans (by rw [h1.frame, List.append_nil]), fun h => hplaced (h1.placed h),
      fun s => ?_⟩
    rw [List.foldl_cons, hx s, h1.exchange s]
    by_cases e : s = sid
    · subst e
      rw [if_pos rfl, if_pos List.mem_cons_self, Option.map_map]
      split_ifs <;> rfl
    · rw [if_neg e]
      simp only [List.mem_cons, e, false_or]

theorem mem_order (H : Hooks) (c : Conn) (s : ℕ) :
    s ∈ (H.order c).1 ↔ (c.exchange? s).isSome = true := by
  rw [(H.order c).2.mem_iff, Conn.exchange?, Option.isSome_map, Conn.stream?, AList.lookup_isSome]
  exact AList.mem_keys

theorem nodup_order (H : Hooks) (c : Conn) : (H.order c).1.Nodup :=
  (H.order c).2.nodup_iff.mpr c.streams.keys_nodup

theorem Conn.Sound.closing (h : c.Sound false) :
    Conn.Sound true { c with closeInProgress := true } :=
  ⟨h.placed, h.opened, rfl⟩

theorem detachAll_sound (hc : c.Sound true) :
    ((H.order c).1.foldl Conn.detachCallbacks c).Sound true := by
  obtain ⟨hframe, hplaced, hx⟩ := detach_foldl (H.order c).1 c
  refine ⟨hplaced hc.placed, ?_, (congrArg ExchangeFrame.closeInProgress hframe).trans hc.going⟩
  rw [Conn.opened_iff]
  intro s hs
  have hl := congrArg ExchangeFrame.lastStreamId hframe
  change Conn.lastStreamId _ = c.lastStreamId at hl
  rw [hl]
  refine Conn.opened_iff.mp hc.opened s ?_
  rw [hx s] at hs
  split_ifs at hs
  · rwa [Option.isSome_map] at hs
  · exact hs

theorem detachAll_life (s : ℕ) :
    ((H.order c).1.foldl Conn.detachCallbacks c).life s = (c.life s).parted := by
  obtain ⟨hframe, -, hx⟩ := detach_foldl (H.order c).1 c
  have hl : ((H.order c).1.foldl Conn.detachCallbacks c).lastStreamId = c.lastStreamId :=
    congrArg ExchangeFrame.lastStreamId hframe
  have hxs := hx s
  cases h : c.exchange? s with
  | some x =>
    rw [if_pos ((mem_order H c s).mpr (by rw [h]; rfl)), h, Option.map_some] at hxs
    rw [Conn.life_of_some hxs, Conn.life_of_some h]
    rfl
  | none =>
    rw [h, Option.map_none, ite_self] at hxs
    rw [Conn.life_of_none hxs, Conn.life_of_none h, hl]
    split_ifs <;> rfl

theorem cbsOf_stored {α : Type} (get : Stream → Option α) (mk : ℕ → α → Callback)
    (hmk : ∀ sid k, (Event.fired (mk sid k)).stream? = some sid) (s : ℕ) :
    cbsOf ((H.order c).1.flatMap (fun sid => ((c.stream? sid).bind get).toList.map (mk sid))) s =
      ((c.stream? s).bind get).toList.map (mk s) := by
  have hf : ∀ sid, ∀ cb ∈ ((c.stream? sid).bind get).toList.map (mk sid),
      (Event.fired cb).stream? = some sid := by
    intro sid cb hcb
    obtain ⟨k, -, rfl⟩ := List.mem_map.mp hcb
    exact hmk sid k
  by_cases h : s ∈ (H.order c).1
  · exact cbsOf_flatMap hf (nodup_order H c) h
  · rw [cbsOf_flatMap_none hf h]
    have hn : c.stream? s = none := by
      rw [mem_order, Conn.exchange?, Option.isSome_map] at h
      exact Option.not_isSome_iff_eq_none.mp h
    rw [hn]
    rfl

theorem farewells_eq (s : ℕ) : cbsOf (c.bodyCbs (H.order c).1) s ++
    cbsOf (c.drainCbs (H.order c).1) s = (c.life s).farewells s := by
  unfold Conn.bodyCbs Conn.drainCbs
  rw [cbsOf_stored (fun st => st.onBodyCb) (fun sid cb => .body sid cb [] true) (fun _ _ => rfl),
    cbsOf_stored (fun st => st.onRespDrain) (fun sid cb => .drain sid cb) (fun _ _ => rfl)]
  cases h : c.stream? s with
  | some st =>
    rw [Conn.life_of_some (Conn.exchange?_of_stream h)]
    rfl
  | none =>
    rw [Conn.life_of_none (by rw [Conn.exchange?, h]; rfl)]
    split_ifs <;> rfl

theorem h2NotifyClosed_run (hf : ∀ cb c, Lives reg true c (H.fire cb c)) (hc : c.Sound true) :
    (h2NotifyClosed H c).Sound true ∧ ∀ s ds, ∃ es,
      (h2NotifyClosed H c).history s = c.history s ++ es ∧
        Exchange.Run reg true s ⟨(c.life s).parted, (c.life s).farewells s ++ ds⟩ es
          ⟨(h2NotifyClosed H c).life s, ds⟩ := by
  have hbody : ∀ cb ∈ c.bodyCbs (H.order c).1, (Event.fired cb).stream?.isSome = true := by
    intro cb hcb
    obtain ⟨sid, -, hcb⟩ := List.mem_flatMap.mp hcb
    obtain ⟨k, -, rfl⟩ := List.mem_map.mp hcb
    rfl
  have hdrain : ∀ cb ∈ c.drainCbs (H.order c).1, (Event.fired cb).stream?.isSome = true := by
    intro cb hcb
    obtain ⟨sid, -, hcb⟩ := List.mem_flatMap.mp hcb
    obtain ⟨k, -, rfl⟩ := List.mem_map.mp hcb
    rfl
  have h1 := runAll_pays hf hbody (detachAll_sound (H := H) hc)
  have h2 := h1.trans (runAll_pays hf hdrain h1.sound)
  refine ⟨h2.sound, fun s ds => ?_⟩
  obtain ⟨es, e, r⟩ := h2.run s ds
  refine ⟨es, ?_, ?_⟩
  · have hh : ((H.order c).1.foldl Conn.detachCallbacks c).history s = c.history s := by
      rw [Conn.history_eq, Conn.history_eq, (detach_foldl (H.order c).1 c).1]
    rw [← hh]
    exact e
  · rw [farewells_eq, detachAll_life] at r
    exact r

theorem wsTeardown_lives (hf : ∀ cb c, Lives reg true c (H.fire cb c)) (sid : ℕ) (c : Conn) :
    Lives reg true c (wsTeardown H c sid) := by
  unfold wsTeardown
  split
  · exact .refl c
  · split_ifs
    · have h1 : Lives reg true c (H.run (.wsClosed sid) c) :=
        Lives.trans (Still.lives (.note c rfl)) (hf _ _)
      refine h1.trans ?_
      generalize H.run (.wsClosed sid) c = c1
      intro ha
      cases hs : c1.stream? sid with
      | none =>
        have e : c1.streams.modify sid (fun st => { st with ws := none }) = c1.streams :=
          Table.modify_of_none _ hs
        refine Still.lives (b := c1.modify sid (fun st => { st with ws := none })) ?_ ha
        exact .of_streams e rfl
      | some st =>
        have he : Effect sid (fun x => { x with isWs := false }) [] c1
            (c1.modify sid (fun st => { st with ws := none })) :=
          .modify c1 sid (fun _ => rfl) (fun _ => id)
        have hx := Conn.exchange?_of_stream hs
        have he' := he.const hx rfl
        exact pays_of_run (he'.sound ha) (he'.run hx [] (fun ds => .wsTaken (.refl _) rfl))
    · exact .refl c

theorem h2WsTeardownAll_lives (hf : ∀ cb c, Lives reg true c (H.fire cb c)) (c : Conn) :
    Lives reg true c (h2WsTeardownAll H c) := by
  unfold h2WsTeardownAll
  generalize (H.order c).1 = sids
  induction sids generalizing c with
  | nil => exact .refl c
  | cons sid rest ih => exact (wsTeardown_lives hf sid c).trans (ih _)

/-- **The close of a connection is a run of each of its exchanges**, from where it stood, with its
callbacks detached and owed. -/
theorem Reachable.closing_run {W : World} (hW : W.Obeys ok) (hreg : Permits ok reg) {cfg : Config}
    {n : ℕ} (h : Reachable (W.hooks n) ok cfg c) (sid : ℕ) : ∃ es,
      (closeConn (W.hooks n) c).history sid = c.history sid ++ es ∧
        Exchange.Run reg true sid ⟨(c.life sid).parted, (c.life sid).farewells sid⟩ es
          ⟨(closeConn (W.hooks n) c).life sid, []⟩ := by
  have hf : ∀ cb c, Lives reg true c ((W.hooks n).fire cb c) := fun cb c =>
    (World.fire_related hW ((lives_respects hreg).mono (fun _ _ _ => .call)) n cb c).2
  obtain ⟨hs, hrun⟩ := h2NotifyClosed_run hf (h.exchange_run hW hreg).1.closing
  obtain ⟨es1, e1, r1⟩ := hrun sid []
  obtain ⟨es2, e2, r2⟩ := (h2WsTeardownAll_lives hf _ hs).run sid []
  refine ⟨es1 ++ es2, ?_, ?_⟩
  · unfold closeConn
    rw [e2, e1, List.append_assoc]
    rfl
  · rw [List.append_nil] at r1
    exact r1.trans r2

end Closing

end Vortex.Http2
