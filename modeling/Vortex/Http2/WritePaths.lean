import Vortex.Http2.Transitions

/-! # The functions of the write side as paths

`Path A R c c'`: from `c` to `c'` by pieces `A` and callback effects `R`.  Three kinds of
callbacks are tied to the piece that causes them:

* a stream that is taken out of the table has its callbacks run afterwards (`ended`, `Fires`);
* a response that is finished while bytes of it are queued has its drain callback detached at
  once and run after the scheduler pass (`owed`);
* a WebSocket stream whose close was flushed is dropped after its `onClose` (`closing`).

`Path.rel` is the rule for relations that look at these as a whole; `Path.rel_pieces` takes them
apart into pieces (`Piece`), for relations that hold piece by piece. -/

namespace Vortex.Http2

open Relation

variable {c : Conn} {sid : ℕ} {a b : Conn}

/-! ### Paths -/

/-- A callback, if there is one, is run. -/
def Ran (R : Conn → Conn → Prop) (cb : Option Callback) (c c' : Conn) : Prop :=
  match cb with
  | none => c' = c
  | some cb => R (c.note (.fired cb)) c'

/-- The drain callback of a stream that is gone or finished is run; a connection that is being
closed does that elsewhere. -/
def DrainRan (R : Conn → Conn → Prop) (sid : ℕ) (cb : Option ℕ) (c c' : Conn) : Prop :=
  match cb with
  | none => c' = c
  | some cb => (c.closeInProgress = true ∧ c' = c) ∨ R (c.note (.fired (.drain sid cb))) c'

/-- The callbacks of a stream that was `st` and is gone, in their order. -/
def Fires (R : Conn → Conn → Prop) (sid : ℕ) (st : Stream) (c c' : Conn) : Prop :=
  ∃ c1 c2, Ran R (if st.ws.isSome then some (.wsClosed sid) else none) c c1 ∧
    Ran R (st.onBodyCb.map (fun cb => .body sid cb [] true)) c1 c2 ∧
    DrainRan R sid st.onRespDrain c2 c'

/-- From `c` to `c'` by pieces `A` and callbacks `R`. -/
inductive Path (A : Option ℕ → Conn → Conn → Prop) (R : Conn → Conn → Prop) :
    Conn → Conn → Prop
  | refl {c : Conn} : Path A R c c
  | atom {a b c : Conn} (h : Path A R a b) (ha : A none b c) : Path A R a c
  | callback {a b c : Conn} (h : Path A R a b) (hr : R b c) : Path A R a c
  | ended {a b c d : Conn} {sid : ℕ} {st : Stream} (h : Path A R a b) (hs : b.stream? sid = some st)
      (ha : A (some sid) b c) (hf : Fires R sid st c d) : Path A R a d
  | owed {a b c d e : Conn} {sid : ℕ} {st : Stream} (h : Path A R a b)
      (hs : b.stream? sid = some st) (ha : FinishAtom sid b c) (hp : Path A R c d)
      (ho : DrainRan R sid st.onRespDrain d e) : Path A R a e
  | closing {a b c d : Conn} {sid : ℕ} (h : Path A R a b) (ha : CloseBegin sid b c) (hr : R c d) :
      Path A R a (d.dropWsStream sid)

/-- The pieces of a path, with the callbacks a piece causes told apart from it. -/
inductive Piece (A : Option ℕ → Conn → Conn → Prop) : Conn → Conn → Prop
  | atom {o : Option ℕ} {a b : Conn} (h : A o a b) : Piece A a b
  | finish {a b : Conn} {sid : ℕ} (h : FinishAtom sid a b) : Piece A a b
  | fired (c : Conn) (cb : Callback) : Piece A c (c.note (.fired cb))
  | closeBegin {a b : Conn} {sid : ℕ} (h : CloseBegin sid a b) : Piece A a b
  | wsDrop {c : Conn} {sid : ℕ}
      (hw : ∀ st, c.stream? sid = some st → st.ws.isSome = true) : Piece A c (c.dropWsStream sid)

/-- A preorder that contains the pieces `A`, each with the callbacks it causes. -/
structure Respects (A : Option ℕ → Conn → Conn → Prop) (Q : Conn → Conn → Prop) : Prop where
  refl : ∀ c, Q c c
  trans : ∀ a b c, Q a b → Q b c → Q a c
  atom : ∀ a b, A none a b → Q a b
  ended : ∀ {a b c sid st}, a.stream? sid = some st → A (some sid) a b → Fires Q sid st b c → Q a c
  owed : ∀ {a b c d sid st}, a.stream? sid = some st → FinishAtom sid a b → Q b c →
    DrainRan Q sid st.onRespDrain c d → Q a d
  closing : ∀ {a b c sid}, CloseBegin sid a b → Q b c → Kept b c → Q a (c.dropWsStream sid)

variable {st : Stream} {c1 : Conn}

section Paths

variable {A A' : Option ℕ → Conn → Conn → Prop} {R Q : Conn → Conn → Prop} {a b c : Conn}

theorem Ran.mono (hR : ∀ a b, R a b → Q a b) {cb : Option Callback} (h : Ran R cb a b) :
    Ran Q cb a b := by
  cases cb with
  | none => exact h
  | some cb => exact hR _ _ h

theorem DrainRan.mono (hR : ∀ a b, R a b → Q a b) {cb : Option ℕ} (h : DrainRan R sid cb a b) :
    DrainRan Q sid cb a b := by
  cases cb with
  | none => exact h
  | some cb => exact h.imp_right (hR _ _)

theorem Fires.mono (hR : ∀ a b, R a b → Q a b) (h : Fires R sid st a b) : Fires Q sid st a b := by
  obtain ⟨c1, c2, h1, h2, h3⟩ := h
  exact ⟨c1, c2, h1.mono hR, h2.mono hR, h3.mono hR⟩

theorem Path.single (h : A none a b) : Path A R a b := Path.refl.atom h

theorem Path.trans (h1 : Path A R a b) (h2 : Path A R b c) : Path A R a c := by
  induction h2 with
  | refl => exact h1
  | atom _ ha ih => exact (ih h1).atom ha
  | callback _ hr ih => exact (ih h1).callback hr
  | ended _ hs ha hf ih => exact (ih h1).ended hs ha hf
  | owed _ hs ha hp ho ih _ => exact (ih h1).owed hs ha hp ho
  | closing _ ha hr ih => exact (ih h1).closing ha hr

theorem Path.mono (hA : ∀ o a b, A o a b → A' o a b) (h : Path A R a b) : Path A' R a b := by
  induction h with
  | refl => exact .refl
  | atom _ ha ih => exact ih.atom (hA _ _ _ ha)
  | callback _ hr ih => exact ih.callback hr
  | ended _ hs ha hf ih => exact ih.ended hs (hA _ _ _ ha) hf
  | owed _ hs ha _ ho ih ih' => exact ih.owed hs ha ih' ho
  | closing _ ha hr ih => exact ih.closing ha hr

/-- A preorder that contains the pieces with their callbacks contains the paths. -/
theorem Path.rel (hQ : Respects A Q) (hR : ∀ a b, R a b → Q a b) (hk : ∀ a b, R a b → Kept a b)
    (h : Path A R a b) : Q a b := by
  induction h with
  | refl => exact hQ.refl _
  | atom _ ha ih => exact hQ.trans _ _ _ ih (hQ.atom _ _ ha)
  | callback _ hr ih => exact hQ.trans _ _ _ ih (hR _ _ hr)
  | ended _ hs ha hf ih => exact hQ.trans _ _ _ ih (hQ.ended hs ha (hf.mono hR))
  | owed _ hs ha _ ho ih ih' => exact hQ.trans _ _ _ ih (hQ.owed hs ha ih' (ho.mono hR))
  | closing _ ha hr ih => exact hQ.trans _ _ _ ih (hQ.closing ha (hR _ _ hr) (hk _ _ hr))

end Paths

theorem Piece.mono {A A' : Option ℕ → Conn → Conn → Prop} (hA : ∀ o a b, A o a b → A' o a b)
    (h : Piece A a b) : Piece A' a b := by
  cases h with
  | atom h => exact .atom (hA _ _ _ h)
  | finish h => exact .finish h
  | fired c cb => exact .fired _ cb
  | closeBegin h => exact .closeBegin h
  | wsDrop hw => exact .wsDrop hw

theorem Respects.mono {A A' : Option ℕ → Conn → Conn → Prop} {Q : Conn → Conn → Prop}
    (hA : ∀ o a b, A o a b → A' o a b) (hQ : Respects A' Q) : Respects A Q where
  refl := hQ.refl
  trans := hQ.trans
  atom a b h := hQ.atom a b (hA _ _ _ h)
  ended hs h hf := hQ.ended hs (hA _ _ _ h) hf
  owed := hQ.owed
  closing := hQ.closing

theorem CloseBegin.ws (h : CloseBegin sid a b) (hk : Kept b c) (st : Stream)
    (hs : c.stream? sid = some st) : st.ws.isSome = true := by
  cases h with
  | @mk c' u st0 w h hs0 hw hb hc f hf =>
    obtain ⟨st1, hs1, hkeep⟩ := hk.stream sid st hs
    refine hkeep.ws ?_
    have e : (((c'.modifyWs sid f).sendEnd sid).note (.fired (.wsClosed sid))).stream? sid =
        some { st0 with ws := st0.ws.map f } := (Updates.modify c' sid _).self hs0
    rw [e] at hs1
    rw [← Option.some.inj hs1, hw]
    rfl

/-- A preorder that contains the callbacks and every piece contains the paths. -/
theorem Path.rel_pieces {A : Option ℕ → Conn → Conn → Prop} {R Q : Conn → Conn → Prop}
    (hrefl : ∀ c, Q c c) (htrans : ∀ a b c, Q a b → Q b c → Q a c)
    (hP : ∀ a b, Piece A a b → Q a b) (hR : ∀ a b, R a b → Q a b) (hk : ∀ a b, R a b → Kept a b)
    (h : Path A R a b) : Q a b := by
  have hran : ∀ cb a b, Ran R cb a b → Q a b := by
    intro cb a b h
    cases cb with
    | none =>
      rw [show b = a from h]
      exact hrefl a
    | some cb => exact htrans _ _ _ (hP _ _ (.fired a cb)) (hR _ _ h)
  have howes : ∀ sid cb a b, DrainRan R sid cb a b → Q a b := by
    intro sid cb a b h
    cases cb with
    | none =>
      rw [show b = a from h]
      exact hrefl a
    | some cb =>
      rcases h with ⟨-, rfl⟩ | h
      · exact hrefl b
      · exact htrans _ _ _ (hP _ _ (.fired a _)) (hR _ _ h)
  induction h with
  | refl => exact hrefl _
  | atom _ ha ih => exact htrans _ _ _ ih (hP _ _ (.atom ha))
  | callback _ hr ih => exact htrans _ _ _ ih (hR _ _ hr)
  | ended _ hs ha hf ih =>
    obtain ⟨c1, c2, h1, h2, h3⟩ := hf
    have h4 := htrans _ _ _ (hran _ _ _ h1) (htrans _ _ _ (hran _ _ _ h2) (howes _ _ _ _ h3))
    exact htrans _ _ _ ih (htrans _ _ _ (hP _ _ (.atom ha)) h4)
  | owed _ hs ha _ ho ih ih' =>
    have h1 := htrans _ _ _ (hP _ _ (.finish ha)) ih'
    exact htrans _ _ _ ih (htrans _ _ _ h1 (howes _ _ _ _ ho))
  | closing _ ha hr ih =>
    have h1 := htrans _ _ _ (hP _ _ (.closeBegin ha)) (hR _ _ hr)
    exact htrans _ _ _ ih (htrans _ _ _ h1 (hP _ _ (.wsDrop (ha.ws (hk _ _ hr)))))

/-! ### The pieces keep the read side -/

theorem kept_dropWsStream (c : Conn) (sid : ℕ) : Kept c (c.dropWsStream sid) := by
  unfold Conn.dropWsStream
  cases hs : c.stream? sid with
  | none => exact .refl c
  | some st => exact .erase (Kept.note _ rfl).readSide rfl

theorem Piece.moves (h : Piece AppAtom a b) : Moves a b := by
  cases h with
  | atom h | finish h => exact h.strokes.moves
  | fired c cb => exact Moves.note _ rfl
  | closeBegin h => exact h.strokes.moves
  | wsDrop hw => exact .single (.dropWs hw)

/-! ### Callbacks of a stream that is taken out -/

/-- What fires when the stream is taken out. -/
def Stream.sinks (st : Stream) : Bool × Option ℕ × Option ℕ :=
  (st.ws.isSome, st.onBodyCb, st.onRespDrain)

/-- The same, for the stream `sid` if it is open. -/
def Conn.sinks? (c : Conn) (sid : ℕ) : Option (Bool × Option ℕ × Option ℕ) :=
  (c.stream? sid).map Stream.sinks

section Sinks

variable (c : Conn) (sid : ℕ)

theorem sinks_of_streams {c c' : Conn} (h : c'.streams = c.streams) :
    c'.sinks? sid = c.sinks? sid := by
  unfold Conn.sinks? Conn.stream?
  rw [h]

theorem Updates.sinks {c c' : Conn} {sid : ℕ} {f : Stream → Stream} (h : Updates c c' sid f)
    (hf : ∀ st : Stream, (f st).sinks = st.sinks) : c'.sinks? sid = c.sinks? sid := by
  unfold Conn.sinks?
  rw [h sid, if_pos rfl, Option.map_map]
  exact congrArg (fun g => Option.map g (c.stream? sid)) (funext hf)

theorem ws_sent (n : ℕ) (st : Stream) : (st.sent n).ws = st.ws := by
  unfold Stream.sent Stream.compactPendingBody
  dsimp only
  split_ifs <;> rfl

theorem sinks_sent (n : ℕ) (st : Stream) : (st.sent n).sinks = st.sinks := by
  unfold Stream.sent Stream.compactPendingBody
  dsimp only
  split_ifs <;> rfl

end Sinks

theorem h2Enqueue_of_none (h : c.stream? sid = none) : c.h2Enqueue sid = c := by
  unfold Conn.h2Enqueue
  rw [h]

theorem h2Enqueue_of_not_sendable (hs : c.stream? sid = some st)
    (hn : st.sendable = false) : c.h2Enqueue sid = c := by
  unfold Conn.h2Enqueue
  rw [hs]
  simp [hn]

theorem stream_modifyWs (hs : c.stream? sid = some st) (f : WsConn → WsConn) :
    (c.modifyWs sid f).stream? sid = some { st with ws := st.ws.map f } :=
  (Updates.modify c sid _).self hs

theorem Stream.sendable_marked {f : WsConn → WsConn} (hf : ∀ w : WsConn, w.Marked (f w))
    (st : Stream) : Stream.sendable { st with ws := st.ws.map f } = st.sendable := by
  unfold Stream.sendable
  change (if st.backlog > 0 then _ else _) = _
  split_ifs
  · rfl
  · cases st.ws with
    | none => rfl
    | some w => exact (hf w).wantClose

theorem modifyWs_modifyWs (c : Conn) (sid : ℕ) (f g : WsConn → WsConn) :
    (c.modifyWs sid f).modifyWs sid g = c.modifyWs sid (g ∘ f) := by
  unfold Conn.modifyWs Conn.modify
  simp only [Table.modify_modify]
  congr 2
  funext st
  simp

/-! ### The functions of the write side as paths -/

section WritePaths

variable {A : Option ℕ → Conn → Conn → Prop} {H : Hooks} {R : Conn → Conn → Prop}
  (hf : ∀ cb c, R c (H.fire cb c)) (hk : ∀ a b, R a b → Kept a b)

include hf

theorem run_path {cb : Callback} (ha : A none c (c.note (.fired cb))) : Path A R c (H.run cb c) :=
  (Path.single ha).callback (hf _ _)

theorem ran_close (sid : ℕ) (st : Stream) (c : Conn) :
    Ran R (if st.ws.isSome then some (.wsClosed sid) else none) c
      (if st.ws.isSome then H.run (.wsClosed sid) c else c) := by
  split_ifs
  · exact hf _ _
  · rfl

theorem ran_body (sid : ℕ) (st : Stream) (c : Conn) :
    Ran R (st.onBodyCb.map (fun cb => .body sid cb [] true)) c
      (match st.onBodyCb with
        | some cb => H.run (.body sid cb [] true) c
        | none => c) := by
  cases st.onBodyCb with
  | none => rfl
  | some cb => exact hf _ _

theorem fireTeardown_fires (sid : ℕ) (st : Stream) (c : Conn) :
    Fires R sid st c (fireTeardown H sid st c) := by
  refine ⟨_, _, ran_close hf sid st c, ran_body hf sid st _, ?_⟩
  unfold fireTeardown
  cases st.onRespDrain with
  | none => rfl
  | some cb => exact .inr (hf _ _)

theorem fireEndedDrain_ran (sid : ℕ) (cb : Option ℕ) (c : Conn) :
    DrainRan R sid cb c (fireEndedDrain H sid cb c) := by
  cases cb with
  | none => rfl
  | some cb =>
    unfold fireEndedDrain
    split_ifs with hc
    · exact .inl ⟨hc, rfl⟩
    · exact .inr (hf _ _)

theorem teardownStream_path (hs : c.stream? sid = some st)
    (hsinks : c1.sinks? sid = c.sinks? sid) (ha : A (some sid) c (c1.detachStream sid)) :
    Path A R c (teardownStream H sid c1) := by
  unfold Conn.sinks? at hsinks
  rw [hs] at hsinks
  obtain ⟨st1, hs1, e⟩ := Option.map_eq_some_iff.mp hsinks
  simp only [Stream.sinks, Prod.mk.injEq] at e
  have hfire : fireTeardown H sid st1 (c1.detachStream sid) =
      fireTeardown H sid st (c1.detachStream sid) := by
    unfold fireTeardown
    rw [e.1, e.2.1, e.2.2]
  unfold teardownStream
  rw [hs1]
  dsimp only
  rw [hfire]
  exact Path.refl.ended hs ha (fireTeardown_fires hf sid st _)

/-- The same when the drain callback was detached before: it is run last. -/
theorem teardownEnded_path {st1 : Stream} (hs : c.stream? sid = some st)
    (hs1 : c1.stream? sid = some st1) (hsinks : st1.sinks = (st.ws.isSome, st.onBodyCb, none))
    (ha : A (some sid) c (c1.detachStream sid)) :
    Path A R c (fireEndedDrain H sid st.onRespDrain (teardownStream H sid c1)) := by
  simp only [Stream.sinks, Prod.mk.injEq] at hsinks
  refine Path.refl.ended hs ha ⟨_, _, ran_close hf sid st _, ran_body hf sid st _, ?_⟩
  have hfire : teardownStream H sid c1 = match st.onBodyCb with
      | some cb => H.run (.body sid cb [] true)
          (if st.ws.isSome then H.run (.wsClosed sid) (c1.detachStream sid)
            else c1.detachStream sid)
      | none => if st.ws.isSome then H.run (.wsClosed sid) (c1.detachStream sid)
            else c1.detachStream sid := by
    unfold teardownStream fireTeardown
    rw [hs1]
    cases hcb : st.onBodyCb with
    | none | some => simp only [hsinks.1, hsinks.2.1, hsinks.2.2, hcb]
  rw [hfire]
  exact fireEndedDrain_ran hf sid _ _

theorem completeStream_path (hs : c.stream? sid = some st)
    (hsinks : c1.sinks? sid = c.sinks? sid) (ha : A (some sid) c (c1.complete sid)) :
    Path A R c (completeStream H sid c1) :=
  teardownStream_path hf hs ((sinks_of_streams sid (Conn.streams_stopClient c1 sid)).trans hsinks) ha

theorem streamError_path (sid : ℕ) (err : ErrCode) (c : Conn) :
    Path AppAtom R c (streamError H sid err c) := by
  cases hs : c.stream? sid with
  | none =>
    have hs1 : (c.sendReset sid err).stream? sid = none := by
      unfold Conn.sendReset
      split_ifs <;> exact hs
    unfold streamError teardownStream
    rw [hs1]
    exact .single (.resetGone hs err)
  | some st =>
    exact teardownStream_path hf hs
      (sinks_of_streams sid (Conn.streams_sendReset c sid err)) (.reset hs err)

/-! ### The scheduler -/

omit hf in
omit hf in
theorem sinks_popTurn (c : Conn) (u : Fin 8) (sid : ℕ) :
    (c.popTurn u sid).sinks? sid = c.sinks? sid :=
  (Updates.of_streams (a := c) (f := Stream.served) rfl).sinks (fun _ => rfl)

omit hf in
/-- The ways in which the scheduler serves a stream. -/
inductive Emitted (H : Hooks) (c : Conn) (sid : ℕ) (st : Stream) : Conn → Prop
  | trailers (hw : st.ws = none) (hl : st.pendingIsLast = true) (hb : st.backlog = 0)
      (ht : st.respTrailers ≠ []) :
      Emitted H c sid st (completeStream H sid (c.emitTrailerBlock sid st))
  | bare (hw : st.ws = none) (hl : st.pendingIsLast = true) (hb : st.backlog = 0)
      (ht : st.respTrailers = []) : Emitted H c sid st (completeStream H sid (c.sendEnd sid))
  | nothing (h : st.backlog = 0 ∧ (st.ws.isNone && st.pendingIsLast) = false ∨
      0 < st.backlog ∧ c.chunkSize st st.backlog ≤ 0) : Emitted H c sid st c
  | chunk {n : ℕ} (hn : c.CanSend st n false) : Emitted H c sid st (c.sendChunk sid st n false)
  | endChunk {n : ℕ} (hn : c.CanSend st n true) :
      Emitted H c sid st (completeStream H sid (c.sendChunk sid st n true))

omit hf in
theorem emitOneFrame_emitted (hs : c.stream? sid = some st) :
    Emitted H c sid st (emitOneFrame H sid c) := by
  unfold emitOneFrame
  rw [hs]
  dsimp only
  by_cases hb : st.backlog = 0
  · rw [if_pos hb]
    by_cases hw : (st.ws.isNone && st.pendingIsLast) = true
    · rw [if_pos hw]
      simp only [Bool.and_eq_true, Option.isNone_iff_eq_none] at hw
      by_cases ht : st.respTrailers.length > 0
      · rw [if_pos ht]
        unfold emitTrailers
        rw [hs]
        exact .trailers hw.1 hw.2 hb (List.ne_nil_of_length_pos ht)
      · rw [if_neg ht]
        exact .bare hw.1 hw.2 hb (List.length_eq_zero_iff.mp (by omega))
    · rw [if_neg hw]
      exact .nothing (.inl ⟨hb, by simpa using hw⟩)
  · rw [if_neg hb]
    by_cases hc : c.chunkSize st st.backlog ≤ 0
    · rw [if_pos hc]
      exact .nothing (.inr ⟨by omega, hc⟩)
    · rw [if_neg hc]
      have hsend : c.CanSend st (c.chunkSize st st.backlog).toNat _ :=
        ⟨by omega, by omega, by omega, rfl⟩
      split_ifs with hl
      · rw [hl] at hsend ⊢
        exact .endChunk hsend
      · rw [Bool.not_eq_true] at hl
        rw [hl] at hsend ⊢
        exact .chunk hsend

omit hf in
/-- A stream that stays where it is after nothing was emitted for it cannot send. -/
theorem sendable_of_nothing (hwin : 0 < c.connSendWindow) (hw : st.ws = none)
    (h : st.backlog = 0 ∧ (st.ws.isNone && st.pendingIsLast) = false ∨
      0 < st.backlog ∧ c.chunkSize st st.backlog ≤ 0) : st.sendable = false := by
  unfold Stream.sendable
  rw [hw]
  rcases h with ⟨hb, hl⟩ | ⟨hb, hc⟩
  · rw [hw] at hl
    simpa [hb] using hl
  · rw [if_pos hb]
    by_contra hsend
    have hpos : 0 < st.sendWindow := by simpa using hsend
    have := chunkSize_pos hb hwin hpos
    omega

theorem h2WsAfterEmit_path {c' : Conn} {u : Fin 8} {w : WsConn} (h : c.WsTurn u sid c')
    (hs : c'.stream? sid = some st) (hw : st.ws = some w) :
    Path AppAtom R c ((h2WsAfterEmit H sid c').h2Enqueue sid) := by
  have hserved : ∀ f : WsConn → WsConn, (∀ w : WsConn, w.Marked (f w)) →
      Path AppAtom R c ((c'.modifyWs sid f).h2Enqueue sid) :=
    fun f hm => Path.single (.response (.wsServed h f hm))
  have hmark : ∀ w : WsConn, w.Marked { w with h2Pending := st.backlog } := fun _ => ⟨rfl, rfl⟩
  unfold h2WsAfterEmit
  rw [hs]
  simp only [hw]
  by_cases hb : st.backlog = 0
  · rw [if_pos hb]
    by_cases hc : w.wantClose = true
    · rw [if_pos hc]
      unfold h2WsFinalize
      rw [h2Enqueue_of_none (by rw [stream_dropWsStream, if_pos rfl])]
      exact Path.refl.closing (.mk h hs hw hb hc _ hmark) (hf _ _)
    · rw [if_neg hc]
      by_cases hu : w.backedUp = true
      · rw [if_pos hu, modifyWs_modifyWs]
        have hm : ∀ w : WsConn, w.Marked (((fun w => { w with backedUp := false }) ∘
            fun w => { w with h2Pending := st.backlog }) w) := fun _ => ⟨rfl, rfl⟩
        split_ifs
        · have hidle : st.sendable = false := by
            unfold Stream.sendable
            simpa [hb, hw] using hc
          have h1 := hserved _ hm
          rw [h2Enqueue_of_not_sendable (stream_modifyWs hs _)
            ((Stream.sendable_marked hm st).trans hidle)] at h1
          exact (h1.trans (run_path hf (.wsDrained _ sid))).atom (.enqueue _ sid)
        · exact hserved _ hm
      · rw [if_neg hu]
        exact hserved _ hmark
  · rw [if_neg hb, modifyWs_modifyWs]
    exact hserved _ (fun _ => ⟨rfl, rfl⟩)

include hk

omit hf in
theorem Fires.kept (h : Fires R sid st a b) : Kept a b := by
  have hran : ∀ cb a b, Ran R cb a b → Kept a b := by
    intro cb a b h
    cases cb with
    | none =>
      rw [show b = a from h]
      exact .refl a
    | some cb => exact (Kept.note a rfl).trans (hk _ _ h)
  obtain ⟨c1, c2, h1, h2, h3⟩ := h
  refine ((hran _ _ _ h1).trans (hran _ _ _ h2)).trans ?_
  unfold DrainRan at h3
  split at h3
  · rw [h3]
    exact .refl _
  · rcases h3 with ⟨-, rfl⟩ | h3
    · exact .refl _
    · exact (Kept.note _ rfl).trans (hk _ _ h3)

theorem teardownStream_none (sid : ℕ) (c : Conn) : (teardownStream H sid c).stream? sid = none := by
  unfold teardownStream
  cases hs : c.stream? sid with
  | none => exact hs
  | some st =>
    refine (Fires.kept hk (fireTeardown_fires hf sid st _)).stream_none ?_
    rw [stream_detachStream, if_pos rfl]

theorem serveStream_path {u : Fin 8} (hq : ∃ rest, c.sendQ u = sid :: rest)
    (hwin : 0 < c.connSendWindow) (hroom : c.pendingOut < respHighWater) :
    Path AppAtom R c (serveStream H sid (c.popQueue u)) := by
  unfold serveStream
  cases hs : (c.popQueue u).stream? sid with
  | none => exact Path.single (.popStale hq hs)
  | some st =>
    have ht : c.Turn u sid st := ⟨hq, hs, hwin, hroom⟩
    have hs1 : (c.popTurn u sid).stream? sid = some st.served := stream_popTurn ht.stream
    have hemit : Emitted H (c.popTurn u sid) sid st.served (emitOneFrame H sid
        ((c.popQueue u).modify sid (fun st => { st with inSendQ := false }))) :=
      emitOneFrame_emitted hs1
    have hgone : ∀ {c1}, c1.sinks? sid = (c.popTurn u sid).sinks? sid →
        AppAtom (some sid) c (c1.complete sid) →
        Path AppAtom R c (completeStream H sid c1) :=
      fun hsinks ha => completeStream_path hf ht.stream (hsinks.trans (sinks_popTurn c u sid)) ha
    have hserved : ∀ {c2 : Conn} {st2 : Stream}, c.WsTurn u sid c2 → c2.stream? sid = some st2 →
        st2.ws = st.ws → st.ws.isSome = true →
        Path AppAtom R c ((h2WsAfterEmit H sid c2).h2Enqueue sid) := by
      intro c2 st2 h hs2 e hw
      obtain ⟨w, hw⟩ := Option.isSome_iff_exists.mp hw
      exact h2WsAfterEmit_path hf h hs2 (e.trans hw)
    dsimp only
    generalize emitOneFrame H sid ((c.popQueue u).modify sid
      (fun st => { st with inSendQ := false })) = c2 at hemit ⊢
    cases hemit with
    | trailers hw hl hb htr =>
      rw [show (completeStream H sid _).stream? sid = none from teardownStream_none hf hk sid _]
      exact hgone rfl (.response (.endTrailers ht hw hl hb))
    | bare hw hl hb htr =>
      rw [show (completeStream H sid _).stream? sid = none from teardownStream_none hf hk sid _]
      exact hgone rfl (.response (.endBare ht hw hl hb))
    | endChunk hn =>
      rw [show (completeStream H sid _).stream? sid = none from teardownStream_none hf hk sid _]
      exact hgone ((updates_sendChunk _ _ _ _ _).sinks (sinks_sent _))
        (.response (.endChunk ht hn))
    | nothing hn =>
      rw [hs1]
      dsimp only
      split_ifs with hw hsend
      · exact hserved (.nothing ht hw) hs1 rfl hw
      · have hw' : st.served.ws = none := Option.not_isSome_iff_eq_none.mp hw
        rw [sendable_of_nothing hwin hw' hn] at hsend
        cases hsend
      · exact Path.single (.idle ht (Bool.eq_false_iff.mpr hsend))
    | @chunk n hn =>
      have hs2 := (updates_sendChunk (c.popTurn u sid) sid st.served n false).self hs1
      rw [hs2]
      dsimp only
      split_ifs with hw hsend
      · exact hserved (.chunk ht hw hn) hs2 (ws_sent n st.served) hw
      · have e : ((c.popTurn u sid).sendChunk sid st.served n false).requeue sid
            (st.served.sent n) =
            ((c.popTurn u sid).sendChunk sid st.served n false).endTurn sid := by
          unfold Conn.endTurn
          rw [hs2]
          exact (if_pos hsend).symm
        rw [e]
        exact Path.single (.response (.chunk ht (by simpa using hw) hn))
      · have e : (c.popTurn u sid).sendChunk sid st.served n false =
            ((c.popTurn u sid).sendChunk sid st.served n false).endTurn sid := by
          unfold Conn.endTurn
          rw [hs2]
          exact (if_neg hsend).symm
        rw [e]
        exact Path.single (.response (.chunk ht (by simpa using hw) hn))

theorem scheduleLoop_path (fuel : ℕ) (c : Conn) : Path AppAtom R c (scheduleLoop H fuel c) := by
  induction fuel generalizing c with
  | zero => exact .refl
  | succ fuel ih =>
    unfold scheduleLoop
    split_ifs with h
    · cases hu : c.h2NextUrgency with
      | none => exact .refl
      | some u =>
        have hne : c.sendQ u ≠ [] := by
          have := List.find?_some hu
          simpa using this
        have hq : c.sendQ u = (c.sendQ u).headD 0 :: (c.sendQ u).tail := by
          cases hl : c.sendQ u with
          | nil => exact absurd hl hne
          | cons s l => rfl
        exact (serveStream_path hf hk ⟨_, hq⟩ h.1 h.2).trans (ih _)
    · exact .refl

omit hk in
theorem resumeList_path (l : List ℕ) (c : Conn) : Path AppAtom R c (resumeList H l c) := by
  induction l generalizing c with
  | nil => exact .refl
  | cons sid rest ih =>
    unfold resumeList
    split_ifs
    · exact .refl
    · split
      · exact ih c
      · next st hs =>
        split
        · next cb hb hc =>
          exact ((Path.single (.takeDrain hs hb hc)).callback (hf _ _)).trans (ih _)
        · exact ih c

omit hk in
theorem h2ResumeProducers_path (c : Conn) : Path AppAtom R c (h2ResumeProducers H c) := by
  unfold h2ResumeProducers
  split_ifs
  · exact .refl
  · exact .refl
  · exact .refl
  · exact ((Path.single (.resuming c true)).trans (resumeList_path hf _ _)).atom
      (.resuming _ false)

theorem h2Schedule_path (c : Conn) : Path AppAtom R c (h2Schedule H c) := by
  unfold h2Schedule
  split_ifs
  · exact .refl
  · exact (((Path.single (.scheduling c true)).trans (scheduleLoop_path hf hk _ _)).atom
      (.scheduling _ false)).trans (h2ResumeProducers_path hf _)

/-! ### Responses -/

omit hk in
theorem h2SendHead_path (sid : ℕ) (head : ResponseHead) (len : ℤ) (c : Conn) :
    Path AppAtom R c (h2SendHead H sid head len c) := by
  unfold h2SendHead
  cases hs : c.stream? sid with
  | none => exact .refl
  | some st =>
    dsimp only
    by_cases hr : st.responded = true
    · rw [if_pos hr]
      exact .refl
    · rw [if_neg hr]
      rw [Bool.not_eq_true] at hr
      cases hh : st.isHead with
      | true =>
        have hsinks : ((c.beginStreamed sid st ⟨len, head.extraHeaders⟩).emitBlock sid
            head.streamedBlock true).sinks? sid = c.sinks? sid :=
          (Updates.modify (c.note (.answered sid _ st.isHead)) sid _).sinks (fun _ => rfl)
        exact completeStream_path hf hs hsinks
          (.response (.endHead hs hr hh _ head.streamedBlock (fieldBytes_streamedBlock head)))
      | false =>
        exact Path.single (.response (.sendHead hs hr hh _ head.streamedBlock
          (fieldBytes_streamedBlock head)))

theorem h2StreamWrite_path (sid : ℕ) (data : Bytes) (c : Conn) :
    Path AppAtom R c (h2StreamWrite H sid data c) := by
  unfold h2StreamWrite
  cases hs : c.stream? sid with
  | none => exact .refl
  | some st =>
    dsimp only
    by_cases hp : st.respPhase ≠ .rpStreaming ∨ st.isHead = true
    · rw [if_pos hp]
      exact .refl
    · rw [if_neg hp]
      rw [not_or, not_not, Bool.not_eq_true] at hp
      refine Path.trans ?_ (h2Schedule_path hf hk _)
      split_ifs with hd
      · exact Path.single (.response (.write hs hp.1 hp.2 data hd))
      · exact Path.single (.enqueue c sid)

omit hk in
theorem h2StreamAbort_path (sid : ℕ) (c : Conn) : Path AppAtom R c (h2StreamAbort H sid c) := by
  unfold h2StreamAbort
  cases hs : c.stream? sid with
  | none => exact .refl
  | some st =>
    dsimp only
    split_ifs with hp
    · exact .refl
    · have h1 := (Updates.modify (c.note (.aborted sid)) sid (fun st => { st with
        respPhase := .rpAborted, onRespDrain := none })).congr_right
        (Conn.streams_sendReset (c.beginAbort sid) sid .errInternal)
      exact teardownEnded_path hf hs (h1.self hs) rfl (.response (.abort hs (not_not.mp hp)))

theorem finish_path (hs : c.stream? sid = some st)
    (hp : st.respPhase = .rpStreaming) (hh : st.isHead = false) (hl : st.LengthMet)
    (trailers : Fields) :
    Path AppAtom R c
      (fireEndedDrain H sid st.onRespDrain (finishBody H sid (c.beginFinish sid trailers))) := by
  have h1 := (updates_beginFinish c sid trailers).self hs
  unfold finishBody
  rw [h1]
  dsimp only
  split_ifs with hb ht
  · exact Path.refl.owed hs (.queue hs hp hh hl trailers hb) (h2Schedule_path hf hk _)
      (fireEndedDrain_ran hf sid _ _)
  · unfold emitTrailers
    rw [h1]
    have h2 := (updates_beginFinish c sid trailers).congr_right
      (Conn.streams_stopClient ((c.beginFinish sid trailers).emitTrailerBlock sid
        (st.finished trailers)) sid)
    exact teardownEnded_path hf hs (h2.self hs) rfl
      (.response (.finishTrailers hs hp hh hl trailers (Nat.eq_zero_of_not_pos hb) _))
  · have h2 := (updates_beginFinish c sid trailers).congr_right
      (Conn.streams_stopClient ((c.beginFinish sid trailers).sendEnd sid) sid)
    exact teardownEnded_path hf hs (h2.self hs) rfl
      (.response (.finishBare hs hp hh hl trailers (Nat.eq_zero_of_not_pos hb)))

theorem h2StreamFinish_path (sid : ℕ) (trailers : Fields) (c : Conn) :
    Path AppAtom R c (h2StreamFinish H sid trailers c) := by
  unfold h2StreamFinish
  cases hs : c.stream? sid with
  | none => exact .refl
  | some st =>
    dsimp only
    by_cases hp : st.respPhase ≠ .rpStreaming
    · rw [if_pos hp]
      exact .refl
    · rw [if_neg hp]
      split_ifs with hl hh
      · exact h2StreamAbort_path hf sid c
      · exact Path.refl.owed hs (.head hs (not_not.mp hp) hh trailers) .refl
          (fireEndedDrain_ran hf sid _ _)
      · rw [Bool.not_eq_true] at hh
        refine finish_path hf hk hs (not_not.mp hp) hh (fun h => ?_) trailers
        simpa [hh, h] using hl

theorem h2Respond_path (sid : ℕ) (head : ResponseHead) (body : Bytes) (c : Conn) :
    Path AppAtom R c (h2Respond H sid head body c) := by
  unfold h2Respond
  cases hs : c.stream? sid with
  | none => exact .refl
  | some st =>
    dsimp only
    by_cases hr : st.responded = true
    · rw [if_pos hr]
      exact .refl
    · rw [if_neg hr]
      rw [Bool.not_eq_true] at hr
      cases hb : head.noBody st body with
      | true =>
        have e : (body.isEmpty || st.isHead || bodilessStatus head.code) = true := hb
        rw [e]
        have hsinks : ((c.beginBuffered sid head body st).emitBlock sid
            (head.bufferedBlock body.length) true).sinks? sid = c.sinks? sid :=
          (Updates.modify (c.note (.answered sid (head.declared body) st.isHead)) sid _).sinks
            (fun _ => rfl)
        exact completeStream_path hf hs hsinks (.response (.endRespond hs hr head body hb))
      | false =>
        have e : (body.isEmpty || st.isHead || bodilessStatus head.code) = false := hb
        rw [e]
        exact (Path.single (.response (.respond hs hr head body hb))).trans
          (h2Schedule_path hf hk _)

omit hf hk in
theorem h2SendInformational_path (sid code : ℕ) (headers : Fields) (c : Conn) :
    Path AppAtom R c (h2SendInformational sid code headers c) := by
  unfold h2SendInformational
  split_ifs
  · exact .refl
  · cases hs : c.stream? sid with
    | none => exact .refl
    | some st =>
      dsimp only
      split_ifs with hr
      · exact .refl
      · exact Path.single (.response (.informational hs (by simpa using hr) _
          (.append (.status _) (.flatMap fieldBytes_encodeExtraHeader _))))

/-! ### Drain callbacks and WebSockets -/

theorem h2DrainKick_path (sid : ℕ) (c : Conn) : Path AppAtom R c (h2DrainKick H sid c) := by
  unfold h2DrainKick
  cases hs : c.stream? sid with
  | none => exact .refl
  | some st0 =>
    dsimp only
    split_ifs
    · exact .refl
    · have hkick : Path AppAtom R c (kickPass H c) := by
        unfold kickPass
        split_ifs
        · exact .refl
        · exact ((Path.single (.resuming c true)).trans (h2Schedule_path hf hk _)).atom
            (.resuming _ false)
      refine hkick.trans ?_
      generalize kickPass H c = c1
      cases hs1 : c1.stream? sid with
      | none => exact .refl
      | some st =>
        dsimp only
        cases hc : st.onRespDrain with
        | none => exact .refl
        | some cb =>
          split_ifs with hb
          · exact .refl
          · simp only [Bool.or_eq_true, Bool.not_eq_true', not_or, Bool.not_eq_false] at hb
            exact (Path.single (.takeDrain hs1 hb.1.1 hc)).callback (hf _ _)

theorem wsSend_path (sid : ℕ) (data : Bytes) (close : Bool) (c : Conn) :
    Path AppAtom R c (wsFlushH2 H sid (wsStage sid data close c)) := by
  unfold wsFlushH2
  cases hs : c.stream? sid with
  | none =>
    have h1 : (wsStage sid data close c).stream? sid = none := by
      unfold wsStage Conn.modifyWs
      rw [Updates.modify c sid _ sid, if_pos rfl, hs]
      rfl
    have h2 : wsStage sid data close c = c := by
      unfold wsStage Conn.modifyWs Conn.modify
      rw [Table.modify_of_none _ hs]
    rw [h1, h2]
    exact .refl
  | some st =>
    have h1 := (Updates.modify c sid (fun st => { st with ws := st.ws.map (fun w => { w with
      outBuf := w.outBuf ++ data, wantClose := w.wantClose || close }) })).self hs
    rw [show (wsStage sid data close c).stream? sid = _ from h1]
    refine Path.trans ?_ (h2Schedule_path hf hk _)
    cases hw : st.ws with
    | none =>
      have e : wsStage sid data close c = wsStage sid data false c := by
        unfold wsStage Conn.modifyWs Conn.modify
        congr 1
        refine Table.modify_congr (fun v hv => ?_)
        obtain rfl : v = st := Option.some.inj (hv.symm.trans hs)
        simp [hw]
      rw [e]
      exact (Path.single (.wsStage c sid data)).atom (.enqueue _ sid)
    | some w => exact Path.single (.response (.wsOutput hs hw data close))

theorem wsFlushH2_path (sid : ℕ) (c : Conn) : Path AppAtom R c (wsFlushH2 H sid c) := by
  unfold wsFlushH2
  cases hs : c.stream? sid with
  | none => exact .refl
  | some st =>
    refine Path.trans ?_ (h2Schedule_path hf hk _)
    cases hw : st.ws with
    | none => exact Path.single (.enqueue c sid)
    | some w => exact Path.single (.response (.wsFlush hs hw))

omit hf hk in
theorem h2WsAccept_path (sid : ℕ) (dateStr serverHeader proto ext : Bytes) (c : Conn) :
    Path AppAtom R c (h2WsAccept sid dateStr serverHeader proto ext c) := by
  unfold h2WsAccept
  cases hs : c.stream? sid with
  | none => exact .refl
  | some st =>
    dsimp only
    split_ifs with h
    · exact .refl
    · simp only [Bool.or_eq_true, Bool.not_eq_true', not_or, Bool.not_eq_true,
        Bool.not_eq_false, Option.isSome_eq_false_iff, Option.isNone_iff_eq_none] at h
      exact Path.single (.response (.wsAccept hs h.1.1 h.1.2 h.2 _
        (fieldBytes_wsAcceptBlock _ _ _ _)))

end WritePaths

end Vortex.Http2
