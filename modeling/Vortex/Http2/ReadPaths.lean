import Vortex.Http2.ReadTransitions

/-! # Calls, frames and runs as paths

Every application call and every event of a run is a path of the pieces of `ReadTransitions`.
Two rules for whole runs follow: what every piece keeps holds in every reachable state
(`Reachable.invariant`), and a relation that looks at a piece together with the callbacks it
causes holds between the states of a run (`Reachable.related`). -/

namespace Vortex.Http2

open Relation FieldRules

variable {a b c : Conn} {sid : ℕ} {ok : Call → Conn → Prop} {n : ℕ}

/-! ### Calls of the application -/

variable {st : Stream} {o : Option ℕ} {c' : Conn} {I : Conn → Prop} {W : World} {cfg : Config}

section Calls

variable {ok : Call → Conn → Prop} {H : Hooks} {R : Conn → Conn → Prop}
  (hf : ∀ cb c, R c (H.fire cb c)) (hk : ∀ a b, R a b → Kept a b)

theorem Path.ofApp (h : Path AppAtom R a b) : Path (CallAtom ok) R a b :=
  h.mono (fun _ _ _ => .app)

include hf

/-- A delivery, once the piece that makes it is known. -/
theorem h2DeliverBody_tail {A : Option ℕ → Conn → Conn → Prop}
    (hA : ∀ o a b, CallAtom ok o a b → A o a b) {cb : ℕ} {last : Bool}
    (hs : c.stream? sid = some st) (hcb : st.onBodyCb = some cb) (hdo : st.body.length > 0 ∨ last)
    (h : Path A R a (c.deliver sid cb st last)) : Path A R a (h2DeliverBody H sid last c) := by
  unfold h2DeliverBody
  rw [hs]
  dsimp only
  rw [hcb]
  dsimp only
  rw [if_pos hdo]
  unfold Conn.deliver at h
  split_ifs at h ⊢ with hm
  · exact h.callback (hf _ _)
  · exact ((h.callback (hf _ _)).atom (hA _ _ _ (.sink (.creditStream _ _ _)))).atom
      (hA _ _ _ (.sink (.creditConn _ _)))

omit hf in
/-- Nothing is delivered without a sink, or without bytes before the end. -/
theorem h2DeliverBody_cases (H : Hooks) (sid : ℕ) (last : Bool) (c : Conn) :
    h2DeliverBody H sid last c = c ∨ ∃ st cb, c.stream? sid = some st ∧ st.onBodyCb = some cb ∧
      (st.body.length > 0 ∨ last) := by
  unfold h2DeliverBody
  split
  · exact .inl rfl
  · next st hs =>
    split
    · exact .inl rfl
    · next cb hcb =>
      by_cases hdo : st.body.length > 0 ∨ last
      · exact .inr ⟨st, cb, hs, hcb, hdo⟩
      · rw [if_neg hdo]
        exact .inl rfl

theorem h2DeliverBody_path : Path (CallAtom ok) R c (h2DeliverBody H sid false c) := by
  rcases h2DeliverBody_cases H sid false c with h | ⟨st, cb, hs, hcb, hdo⟩
  · rw [h]
    exact .refl
  · have hb : st.body ≠ [] := by
      rcases hdo with h | h
      · exact List.ne_nil_of_length_pos h
      · cases h
    exact h2DeliverBody_tail hf (fun _ _ _ => id) hs hcb hdo (.single (.sink (.deliver hs hcb hb)))

include hk in
theorem h2DeliverBody_kept (sid : ℕ) (last : Bool) (c : Conn) :
    Kept c (h2DeliverBody H sid last c) := by
  unfold h2DeliverBody
  split
  · exact .refl c
  · next st hs =>
    split
    · exact .refl c
    · next cb hcb =>
      split_ifs with hdo hm
      · have h1 := kept_deliver c sid cb st last
        unfold Conn.deliver at h1
        rw [if_pos hm] at h1
        exact h1.trans (hk _ _ (hf _ _))
      · have h1 := kept_deliver c sid cb st last
        unfold Conn.deliver at h1
        rw [if_neg hm] at h1
        exact ((h1.trans (hk _ _ (hf _ _))).trans (kept_creditStream _ _ _)).trans
          (kept_creditConn _ _)
      · exact .refl c

omit hf in
theorem h2AckBody_path (sid : ℕ) (n : ℤ) (c : Conn) : Path (CallAtom ok) R c (h2AckBody sid n c) := by
  unfold h2AckBody
  split
  · exact .refl
  · next st hs =>
    split_ifs with hr
    · exact .single (.sink (.acked hs hr n.toNat))
    · exact .refl

theorem h2SetOnBody_path {cb : ℕ} {manualAck : Bool} (hok : ok (.onBody sid cb manualAck) c) :
    Path (CallAtom ok) R c (h2SetOnBody H sid cb manualAck c) := by
  unfold h2SetOnBody
  split
  · exact .refl
  · next st hs =>
    cases he : st.endStreamSeen with
    | false => exact (Path.single (.sinkSet hs hok)).trans (h2DeliverBody_path hf)
    | true =>
      have h1 := (Updates.modify (c.note (.sinkSet sid cb)) sid (fun st => { st with
        onBodyCb := some cb, bodyManualAck := manualAck })).self hs
      exact h2DeliverBody_tail hf (fun _ _ _ => id) h1 rfl (.inr rfl)
        (.single (.sinkTold hs hok he))

omit hf in
/-- Registering a drain callback is one piece, unless it is refused. -/
theorem onDrain_cases (sid cb : ℕ) (c : Conn) :
    Http2.onDrain sid cb c = c ∨ DrainAtom (.onDrain sid cb) c (Http2.onDrain sid cb c) := by
  unfold Http2.onDrain
  cases hs : c.stream? sid with
  | none => exact .inl rfl
  | some st =>
    dsimp only
    split_ifs with hr
    · exact .inl rfl
    · exact .inr (.register hs (by simpa using hr) cb)

omit hf in
theorem onDrain_moves (sid cb : ℕ) (c : Conn) : Moves c (Http2.onDrain sid cb c) := by
  rcases onDrain_cases sid cb c with e | h
  · rw [e]
  · exact h.strokes.moves

omit hf in
/-- And so is the mark of a response that is not writable. -/
theorem h2Writable_cases (sid : ℕ) (c : Conn) :
    (h2Writable sid c).1 = c ∨ DrainAtom (.writable sid) c (h2Writable sid c).1 := by
  unfold h2Writable
  cases hs : c.stream? sid with
  | none => exact .inl rfl
  | some st =>
    dsimp only
    split
    · exact .inl rfl
    · next hp =>
      generalize (if !st.isHead && st.ws.isNone then st.backlog else 0) = backlog
      split_ifs
      · exact .inr (.mark hs (by simpa using hp))
      · exact .inl rfl

omit hf in
theorem h2Writable_moves (sid : ℕ) (c : Conn) : Moves c (h2Writable sid c).1 := by
  rcases h2Writable_cases sid c with e | h
  · rw [e]
  · exact h.strokes.moves

omit hf in
theorem drain_path {k : Call} (hok : ok k a) (h : b = a ∨ DrainAtom k a b) :
    Path (CallAtom ok) R a b := by
  rcases h with rfl | h
  · exact .refl
  · exact .single (.drain hok h)

include hk

/-- The calls that concern neither the request body nor a drain registration. -/
theorem Call.write_path (k : Call) (hb : ∀ sid cb m, k ≠ .onBody sid cb m)
    (ha : ∀ sid n, k ≠ .ackBody sid n) (hd : ∀ sid cb, k ≠ .onDrain sid cb)
    (hm : ∀ sid, k ≠ .writable sid) (c : Conn) : Path AppAtom R c (k.run H c) := by
  cases k with
  | respond sid head body => exact h2Respond_path hf hk sid head body c
  | sendHead sid head len => exact h2SendHead_path hf sid head len c
  | write sid data => exact h2StreamWrite_path hf hk sid data c
  | finish sid trailers => exact h2StreamFinish_path hf hk sid trailers c
  | abort sid => exact h2StreamAbort_path hf sid c
  | informational sid code headers => exact h2SendInformational_path sid code headers c
  | onBody sid cb m => exact absurd rfl (hb sid cb m)
  | ackBody sid n => exact absurd rfl (ha sid n)
  | onDrain sid cb => exact absurd rfl (hd sid cb)
  | drainKick sid => exact h2DrainKick_path hf hk sid c
  | writable sid => exact absurd rfl (hm sid)
  | setPriority sid u i => exact .single (.setPriority c sid u i)
  | wsAccept sid d s p e => exact h2WsAccept_path sid d s p e c
  | wsStage sid data => exact .single (.wsStage c sid data)
  | wsSend sid data close => exact wsSend_path hf hk sid data close c
  | wsSetOnDrain sid => exact .single (.wsSetOnDrain c sid)
  | wsFlush sid => exact wsFlushH2_path hf hk sid c
  | flushed n => exact .single (.flushed c _)
  | drainResume => exact h2Schedule_path hf hk c
  | goawayNotice => exact .single (.goawayNotice c)
  | goaway err => exact .single (.goaway c err)

/-- **Every application call is a path of pieces.** -/
theorem Call.run_path {k : Call} (hok : ok k c) : Path (CallAtom ok) R c (k.run H c) := by
  cases k with
  | onBody sid cb m => exact h2SetOnBody_path hf hok
  | ackBody sid n => exact h2AckBody_path sid n c
  | onDrain sid cb => exact drain_path hok (onDrain_cases sid cb c)
  | writable sid => exact drain_path hok (h2Writable_cases sid c)
  | _ => exact (Call.write_path hf hk _ (by simp) (by simp) (by simp) (by simp) c).ofApp

omit hf in
theorem Path.kept_call (h : Path (CallAtom ok) R a b) : Kept a b :=
  h.rel_pieces Kept.refl (fun _ _ _ => Kept.trans) (fun _ _ hp => hp.kept) hk hk

end Calls

/-! ### Request heads and trailers -/

section Frames

variable {ok : Call → Conn → Prop} {H : Hooks} {R : Conn → Conn → Prop}
  (hf : ∀ cb c, R c (H.fire cb c)) (hk : ∀ a b, R a b → Kept a b)

theorem Path.quiet (h : Path AppAtom R a b) : Path QuietAtom R a b :=
  h.mono (fun _ _ _ => .app)

theorem QuietAtom.handle (h : QuietAtom o a b) : HandleAtom ok o a b := by
  cases h with
  | app h => exact .call (.app h)
  | frame h => exact .frame h

theorem Path.runs (h : Path QuietAtom R a b) : Path (HandleAtom ok) R a b :=
  h.mono (fun _ _ _ => QuietAtom.handle)

theorem Path.ofCall (h : Path (CallAtom ok) R a b) : Path (HandleAtom ok) R a b :=
  h.mono (fun _ _ _ => .call)

theorem HandleAtom.run (h : HandleAtom ok o a b) : RunAtom ok o a b := by
  cases h with
  | call h => exact .call h
  | frame h => exact .frame h
  | body h => exact .body h
  | block h => exact .block h

theorem Path.ofHandle (h : Path (HandleAtom ok) R a b) : Path (RunAtom ok) R a b :=
  h.mono (fun _ _ _ => HandleAtom.run)

theorem Path.ofFeed (h : FeedAtom a b) : Path (RunAtom ok) R a b := .single (.feed h)

theorem Path.ofFrame (h : FrameAtom none a b) : Path QuietAtom R a b :=
  .single (.frame h)

theorem QuietAtom.data (h : QuietAtom o a b) : DataAtom ok o a b := by
  cases h with
  | app h => exact .call (.app h)
  | frame h => exact .frame h

theorem DataAtom.handle (h : DataAtom ok o a b) : HandleAtom ok o a b := by
  cases h with
  | call h => exact .call h
  | frame h => exact .frame h
  | body h => exact .body h

theorem Path.data (h : Path QuietAtom R a b) : Path (DataAtom ok) R a b :=
  h.mono (fun _ _ _ => QuietAtom.data)

theorem Path.dataRuns (h : Path (DataAtom ok) R a b) : Path (HandleAtom ok) R a b :=
  h.mono (fun _ _ _ => DataAtom.handle)

/-- What `dispatchHead` does: it decides, or finds that the body misses its length. -/
theorem dispatchHead_cases (H : Hooks) (hs : c.stream? sid = some st) :
    (∃ c', Decided sid c c' ∧ dispatchHead H sid c = c') ∨
      ∃ c', Mismatched sid c c' ∧ dispatchHead H sid c = streamError H sid .errProtocol c' := by
  unfold dispatchHead
  rw [hs]
  dsimp only
  by_cases h1 : (st.isWsConnect && !st.dispatched) = true
  · rw [if_pos h1]
    simp only [Bool.and_eq_true, Bool.not_eq_true'] at h1
    exact .inl ⟨_, .tunnel hs h1.1 h1.2, rfl⟩
  · rw [if_neg h1]
    by_cases h2 : (st.reqStreaming && !st.dispatched) = true
    · rw [if_pos h2]
      simp only [Bool.and_eq_true, Bool.not_eq_true'] at h2
      have hw : st.isWsConnect = false := by simpa [h2.2] using h1
      split_ifs with hl
      · exact .inr ⟨_, .streamed c, rfl⟩
      · exact .inl ⟨_, .streamed hs hw h2.1 h2.2 (fun he h => by simpa [he, h] using hl), rfl⟩
    · rw [if_neg h2]
      by_cases h3 : (st.endStreamSeen && !st.dispatched) = true
      · rw [if_pos h3]
        simp only [Bool.and_eq_true, Bool.not_eq_true'] at h3
        have hw : st.isWsConnect = false := by simpa [h3.2] using h1
        have hr : st.reqStreaming = false := by simpa [h3.2] using h2
        split_ifs with hl
        · exact .inr ⟨_, .buffered c, rfl⟩
        · refine .inl ⟨_, .buffered hs hw hr h3.2 h3.1 (fun h => ?_), rfl⟩
          by_contra hne
          exact hl ⟨h, hne⟩
      · rw [if_neg h3]
        refine .inl ⟨_, .wait hs ?_, rfl⟩
        cases hd : st.dispatched with
        | true => exact .inl rfl
        | false =>
          simp only [hd, Bool.not_false, Bool.and_true, Bool.not_eq_true] at h1 h2 h3
          exact .inr ⟨h1, h2, h3⟩

/-- The callbacks of a stream do not depend on its request side. -/
theorem Mismatched.sinks (h : Mismatched sid a b) : b.sinks? sid = a.sinks? sid := by
  cases h with
  | streamed => rfl
  | buffered => exact (updates_releaseBuffered a sid).sinks (fun _ => rfl)

theorem updates_addTrailers (c : Conn) (sid : ℕ) (fields : Fields) :
    Updates c (c.addTrailers sid fields) sid
      (fun st => { st with trailers := st.trailers ++ fields, endStreamSeen := true }) :=
  (Updates.modify c sid _).trans (updates_noteEndStream _ sid)

/-- The stream after its head was taken. -/
def Stream.headed (fields : Fields) (scan : HeadScan) (isWs isHead es streaming : Bool)
    (st : Stream) : Stream :=
  { st with
    headers := fields
    headersDone := true
    isHead := isHead
    isWsConnect := isWs
    contentLength := scan.contentLength
    urgency := scan.urgency
    incremental := scan.incremental
    endStreamSeen := es || st.endStreamSeen
    reqStreaming := streaming || st.reqStreaming }

/-- Is the request of this head an Extended CONNECT for a WebSocket? -/
def headIsWs (fields : Fields) : Bool := (classifyRequestHead fields).1 == .rhWebSocket

/-- Is it a HEAD request? -/
def headIsHead (fields : Fields) : Bool :=
  (classifyRequestHead fields).2.meth == some (ascii "HEAD")

theorem updates_headed (H : Hooks) (c : Conn) (sid : ℕ) (fields : Fields) (scan : HeadScan)
    (es : Bool) : ∃ streaming, (streaming = true → headIsWs fields = false) ∧
      Updates c (headed H sid fields scan es c) sid
        (Stream.headed fields scan (headIsWs fields) (headIsHead fields) es streaming) := by
  have h1 : Updates c (if es then (c.acceptHead sid fields scan (headIsWs fields)
      (headIsHead fields)).noteEndStream sid else c.acceptHead sid fields scan (headIsWs fields)
      (headIsHead fields)) sid
      (Stream.headed fields scan (headIsWs fields) (headIsHead fields) es false) := by
    have h0 : Updates c (c.acceptHead sid fields scan (headIsWs fields) (headIsHead fields)) sid _ :=
      Updates.modify c sid _
    cases es with
    | false => exact h0
    | true => exact h0.trans (updates_noteEndStream _ sid)
  have hroute : ∀ c1, Updates c c1 sid
      (Stream.headed fields scan (headIsWs fields) (headIsHead fields) es false) →
      ∃ streaming, (streaming = true → headIsWs fields = false) ∧
        Updates c ((routeHead H sid (headIsWs fields) c1).noteHead sid) sid
          (Stream.headed fields scan (headIsWs fields) (headIsHead fields) es streaming) := by
    intro c1 h1
    unfold routeHead
    split_ifs with h
    · refine ⟨true, fun _ => by simpa using (Bool.and_eq_true_iff.mp h).1, ?_⟩
      exact (h1.trans (.modify _ sid (fun st => { st with reqStreaming := true }))).congr_right
        (Conn.streams_noteHead _ sid)
    · exact ⟨false, by simp, h1.congr_right (Conn.streams_noteHead _ sid)⟩
  exact hroute _ h1

include hf

/-- A stream error at the end of a piece. -/
theorem streamError_ended {A : Option ℕ → Conn → Conn → Prop} {c1 : Conn}
    (hs : c.stream? sid = some st) (hsinks : c1.sinks? sid = c.sinks? sid) (err : ErrCode)
    (ha : A (some sid) c (c1.reset sid err)) : Path A R c (streamError H sid err c1) :=
  teardownStream_path hf hs
    ((sinks_of_streams sid (Conn.streams_sendReset c1 sid err)).trans hsinks) ha

/-- The end of the body, and its delivery. -/
theorem endsBody_path (h : EndsBody sid a c) :
    Path (DataAtom ok) R a (h2DeliverBody H sid true c) := by
  rcases h2DeliverBody_cases H sid true c with e | ⟨st, cb, hs, hcb, hdo⟩
  · rw [e]
    exact .single (.body (.ended h))
  · exact h2DeliverBody_tail hf (fun _ _ _ => .call) hs hcb hdo (.single (.body (.told h hs hcb)))

theorem finishTrailers_path (hs : c.stream? sid = some st)
    (hh : st.headersDone = true) (he : st.endStreamSeen = false) (es : Bool) (fields : Fields) :
    Path (DataAtom ok) R c (finishTrailers H sid st es fields c) := by
  have herr : Path (DataAtom ok) R c (streamError H sid .errProtocol c) :=
    (streamError_path hf sid .errProtocol c).quiet.data
  have hupd := updates_addTrailers c sid fields
  have hsinks : (c.addTrailers sid fields).sinks? sid = c.sinks? sid := hupd.sinks (fun _ => rfl)
  unfold finishTrailers
  split
  · exact herr
  · split
    · exact herr
    · dsimp only
      split
      · next hr =>
        rw [Bool.and_eq_true] at hr
        split
        · exact streamError_ended hf hs hsinks _
            (.frame (.trailersMismatch hs hh fields (.streamed _)))
        · next hl =>
          have hlen : 0 ≤ st.contentLength → (st.bodyReceived : ℤ) = st.contentLength := by
            intro h
            by_contra hne
            exact hl ⟨h, hne⟩
          exact endsBody_path hf (.trailers hs hh he hr.1 fields hlen)
      · next hr =>
        rcases dispatchHead_cases H (hupd.self hs) with ⟨c', hd, e⟩ | ⟨c', hd, e⟩
        · rw [e]
          exact .single (.frame (.trailers hs hh (by simpa using hr) fields hd))
        · rw [e]
          exact streamError_ended hf hs (hd.sinks.trans hsinks) _
            (.frame (.trailersMismatch hs hh fields hd))

theorem finishHead_path (hs : c.stream? sid = some st)
    (hh : st.headersDone = false) (es : Bool) (fields : Fields) :
    Path QuietAtom R c (finishHead H sid st es fields c) := by
  have herr := fun err => (streamError_path hf sid err c).quiet
  unfold finishHead
  dsimp only
  split
  · exact herr _
  · next hv =>
    split
    · exact herr _
    · next scan hscan =>
      split
      · exact herr _
      · next hsize =>
        split
        · exact herr _
        · next hfits =>
          have ht : HeadTaken c sid st fields scan :=
            ⟨hs, hh, hv, hscan, by omega, by omega⟩
          obtain ⟨streaming, -, hupd⟩ := updates_headed H c sid fields scan es
          change Path QuietAtom R c (dispatchHead H sid (headed H sid fields scan es c))
          rcases dispatchHead_cases H (hupd.self hs) with ⟨c', hd, e⟩ | ⟨c', hd, e⟩
          · rw [e]
            exact Path.ofFrame (.head H ht es hd)
          · rw [e]
            exact streamError_ended hf hs (hd.sinks.trans (hupd.sinks (fun _ => rfl))) _
              (.frame (.headMismatch H ht es hd))

theorem finishHeaders_path (sid : ℕ) (es : Bool) (c : Conn)
    (hgo : ∀ st, c.stream? sid = some st → st.endStreamSeen = false) :
    Path (HandleAtom ok) R c (finishHeaders H sid es c) := by
  unfold finishHeaders
  split
  · next d e hd => exact .single (.block (.failed hd))
  · next d fields hd =>
    dsimp only
    have h1 : Path (HandleAtom ok) R c { c with decoder := d, headerBlock := [] } :=
      .single (.block (.decoded hd))
    split
    · exact h1
    · next st hs =>
      split_ifs with hh
      · exact h1.trans (finishTrailers_path hf hs hh (hgo st hs) es fields).dataRuns
      · exact h1.trans (finishHead_path hf hs (by simpa using hh) es fields).runs

/-! ### DATA -/

theorem dataStreaming_path (hs : Receiving c sid st)
    (hr : st.reqStreaming = true) (f : InFrame) (data : Bytes) :
    Path (DataAtom ok) R c (dataStreaming H sid st f data c) := by
  unfold dataStreaming
  dsimp only
  obtain ⟨c1, st1, h1, hs1, hkind, e⟩ : ∃ c1 st1, Path (DataAtom ok) R c c1 ∧ Receiving c1 sid st1 ∧
      (st1.reqStreaming = true ∧ st1.contentLength = st.contentLength ∧
        st1.bodyReceived = st.bodyReceived) ∧
      (if f.header.length > data.length then c.creditStream sid (f.header.length - data.length)
        else c) = c1 := by
    split_ifs
    · have hupd := (updates_creditStream c sid (f.header.length - data.length)).self hs.stream
      refine ⟨_, _, .single (.call (.sink (.creditStream _ _ _))), ⟨hupd, ?_, ?_, ?_⟩, ?_, rfl⟩
      · rw [← hs.done]
        unfold Stream.credited
        split_ifs <;> rfl
      · rw [← hs.going]
        unfold Stream.credited
        split_ifs <;> rfl
      · rw [← hs.plain]
        unfold Stream.credited
        split_ifs <;> rfl
      · unfold Stream.credited
        split_ifs <;> exact ⟨hr, rfl, rfl⟩
    · exact ⟨_, _, .refl, hs, ⟨hr, rfl, rfl⟩, rfl⟩
  rw [e]
  refine h1.trans ?_
  obtain ⟨hr1, hcl, hbr⟩ := hkind
  rw [← hcl, ← hbr]
  have hdefer : Updates c1 (c1.deferBody sid data.length) sid _ := Updates.modify c1 sid _
  have hbuf := hdefer.trans (Updates.modify _ sid (fun st => { st with body := st.body ++ data }))
  have hend := hbuf.trans (updates_noteEndStream _ sid)
  split_ifs with hx hes hne
  · exact streamError_ended hf hs1.stream (hdefer.sinks (fun _ => rfl)) _
      (.body (.streamedExcess hs1 hr1 _))
  · exact streamError_ended hf hs1.stream (hend.sinks (fun _ => rfl)) _
      (.body (.streamedShort hs1 hr1 data))
  · have hlen : 0 ≤ st1.contentLength →
        ((st1.bodyReceived + data.length : ℕ) : ℤ) = st1.contentLength := by
      intro h
      by_contra hne'
      exact hne ⟨h, hne'⟩
    exact endsBody_path hf (.data hs1 hr1 data hlen)
  · have hlen : 0 ≤ st1.contentLength →
        ((st1.bodyReceived + data.length : ℕ) : ℤ) ≤ st1.contentLength := by
      intro h
      by_contra hne'
      exact hx ⟨h, by omega⟩
    exact (Path.single (.body (.streamed hs1 hr1 data hlen))).trans
      ((h2DeliverBody_path hf).mono (fun _ _ _ => .call))

theorem dataBuffered_path (hs : Receiving c sid st)
    (hr : st.reqStreaming = false) (hw : st.isWsConnect = false) (f : InFrame) (data : Bytes) :
    Path (DataAtom ok) R c (dataBuffered H sid st f data c) := by
  have hbuf := (Updates.modify c sid (fun st => { st with body := st.body ++ data })).trans
    (Updates.of_streams (b := (c.bufferBody sid data).countBuffered sid data.length)
      (f := fun st => { st with bufferedCounted := st.bufferedCounted + data.length }) rfl)
  have hend := (hbuf.trans (updates_noteEndStream _ sid)).trans (updates_releaseBuffered _ sid)
  unfold dataBuffered
  dsimp only
  split_ifs with hx hes hne hd
  · exact streamError_ended hf hs.stream (hbuf.sinks (fun _ => rfl)) _
      (.body (.bufferedOverflow hs hr hw data))
  · exact streamError_ended hf hs.stream (hend.sinks (fun _ => rfl)) _
      (.body (.bufferedShort hs hr hw data))
  · refine .single (.body (.bufferedEnd hs hr hw (by simpa using hd) data (not_lt.mp hx) ?_))
    intro h
    by_contra hne'
    exact hne ⟨h, hne'⟩
  · exact .single (.body (.bufferedLate hs hr hw (by simpa using hd) data (not_lt.mp hx)))
  · exact .single (.body (.buffered hs hr hw data (not_lt.mp hx)))

theorem dataWebSocket_path (sid : ℕ) (f : InFrame) (data : Bytes) (c : Conn) :
    Path AppAtom R c (dataWebSocket H sid f data c) := by
  unfold dataWebSocket
  dsimp only
  split_ifs
  · exact (run_path hf (.fed c sid data)).trans (run_path hf (.peerClosed _ sid))
  · exact run_path hf (.fed c sid data)

theorem dataOnStream_path (hst : c.stream? sid = some st)
    (hd : st.headersDone = true) (he : st.endStreamSeen = false) (f : InFrame) (data : Bytes) :
    Path (DataAtom ok) R c (dataOnStream H sid st f data c).1 := by
  unfold dataOnStream
  split_ifs with hw hb hc hr
  · exact (dataWebSocket_path hf sid f data c).quiet.data
  · exact (streamError_path hf _ _ _).quiet.data
  all_goals have hs : Receiving c sid st := ⟨hst, hd, he, Option.not_isSome_iff_eq_none.mp hw⟩
  · exact .single (.body (.tunnelData hs hc f data))
  · exact dataStreaming_path hf hs hr f data
  · exact dataBuffered_path hf hs (by simpa using hr) (by simpa using hc) f data

omit hf in
theorem replenish_path (sid length deferred : ℕ) (c : Conn) :
    Path (DataAtom ok) R c (c.replenish sid length deferred) := by
  unfold Conn.replenish
  dsimp only
  split_ifs
  · have h1 : Path (DataAtom ok) R c (c.creditConn (length - deferred)) :=
      .single (.call (.sink (.creditConn _ _)))
    split
    · exact h1
    · split_ifs
      · exact h1.atom (.call (.sink (.creditStream _ _ _)))
      · exact h1
  · exact .refl

theorem refuseClosed_path (sid : ℕ) (c : Conn) : Path QuietAtom R c (refuseClosed H sid c) := by
  unfold refuseClosed
  dsimp only
  split_ifs
  · exact Path.ofFrame (.charge c 1)
  · exact (Path.ofFrame (.charge c 1)).trans (streamError_path hf _ _ _).quiet

theorem dataAdmitted_path (sid : ℕ) (f : InFrame) (c : Conn) :
    Path (DataAtom ok) R c (dataAdmitted H sid f c) := by
  unfold dataAdmitted
  split
  · dsimp only
    have h1 : Path (DataAtom ok) R c (c.absorbAfterReset sid f.header.length
        (f.header.has flagEndStream)).1 := (Path.ofFrame (.absorb _ _ _ _)).data
    refine Path.trans ?_ (replenish_path _ _ _ _)
    split_ifs
    · exact h1
    · exact h1.trans (refuseClosed_path hf _ _).data
  · next st hst =>
    split_ifs with hcase
    · exact (refuseClosed_path hf _ _).data.trans (replenish_path _ _ _ _)
    · simp only [Bool.or_eq_true, Bool.not_eq_true', not_or, Bool.not_eq_false,
        Bool.not_eq_true] at hcase
      split
      · exact (Path.ofFrame (.error _ _)).data
      · exact (dataOnStream_path hf hst hcase.2 hcase.1 _ _).trans (replenish_path _ _ _ _)

theorem dataDebit_path (sid : ℕ) (f : InFrame) (c : Conn) :
    Path (DataAtom ok) R c (dataDebit H sid f c) := by
  unfold dataDebit
  dsimp only
  by_cases hlen : f.header.length > 0
  · rw [if_pos hlen]
    have h1 : Path (DataAtom ok) R c (c.debitConn f.header.length) :=
      .single (.body (.debitConn _ _))
    have h2 := h1.atom (.body (.debitStream _ sid f.header.length))
    generalize c.debitConn f.header.length = c1 at h1 h2 ⊢
    split_ifs with hc hover
    · exact h1.trans (Path.ofFrame (.error _ _)).data
    · refine h2.trans ?_
      cases hs : (c1.debitStream sid f.header.length).stream? sid with
      | none =>
        rw [hs] at hover
        cases hover
      | some st =>
        exact streamError_ended (A := DataAtom ok) hf hs
          ((Updates.modify _ sid (fun st => { st with
            connDeferred := st.connDeferred + f.header.length })).sinks (fun _ => rfl)) _
          (.body (.overrun hs _))
    · exact h2.trans (dataAdmitted_path hf _ _ _)
  · rw [if_neg hlen]
    exact dataAdmitted_path hf _ _ _

theorem handleData_path (f : InFrame) (c : Conn) : Path (DataAtom ok) R c (handleData H f c) := by
  unfold handleData
  dsimp only
  split_ifs
  · exact (Path.ofFrame (.error _ _)).data
  · exact (Path.ofFrame (.error _ _)).data
  · exact (Path.ofFrame (.error _ _)).data
  · exact dataDebit_path hf _ _ _

/-! ### HEADERS and CONTINUATION -/

omit hf in
theorem admitStream_path (h : c.lastStreamId < sid) (hodd : sid % 2 = 1)
    (hn : c.Announces sid) (selfDep es : Bool) : Path QuietAtom R c (c.admitStream sid selfDep es).1 := by
  unfold Conn.admitStream
  dsimp only
  split
  · next href =>
    refine Path.ofFrame (.openNew h hodd ?_ hn)
    cases hg : c.goingAway with
    | false => rfl
    | true =>
      rw [hg] at href
      rw [if_pos rfl] at href
      split_ifs at href
  · exact Path.ofFrame (.refuse h hn)
  · dsimp only
    split_ifs
    · exact Path.ofFrame (.refuseEarly h hn)
    · exact Path.ofFrame (.refuse h hn)

theorem classifyHeaders_path (hodd : sid % 2 = 1) (selfDep es : Bool) (hn : c.Announces sid) :
    Path QuietAtom R c (outcome Prod.fst (classifyHeaders H sid selfDep es c)) := by
  unfold classifyHeaders
  cases hs : c.stream? sid with
  | some st =>
    dsimp only
    split_ifs
    · exact Path.ofFrame (.error _ _)
    · exact refuseClosed_path hf sid c
    · exact refuseClosed_path hf sid c
    · exact .refl
  | none =>
    split_ifs with hl
    · exact Path.ofFrame (.forgetBoth c sid)
    · exact Path.ofFrame (.forgetEarly c sid)
    · exact Path.ofFrame (.error _ _)
    · exact admitStream_path (not_le.mp hl) hodd hn selfDep es

/-- The stream of a field block that goes on was still receiving when the block began. -/
def Conn.Reading (c : Conn) : Prop :=
  c.contStream ≠ 0 → ∀ st, c.stream? c.contStream = some st → st.endStreamSeen = false

include hk in
theorem refuseClosed_gone (h : (refuseClosed H sid c).closing = false) :
    (refuseClosed H sid c).stream? sid = none := by
  unfold refuseClosed at h ⊢
  dsimp only at h ⊢
  split_ifs at h ⊢ with hc
  · rw [h] at hc
    cases hc
  · exact teardownStream_none hf hk sid _

include hk in
/-- A field block is read only for a stream that is still receiving. -/
theorem classifyHeaders_going {selfDep es : Bool} {refuse : Refusal}
    (h : classifyHeaders H sid selfDep es c = .ok (c', refuse)) (st : Stream)
    (hs : c'.stream? sid = some st) : st.endStreamSeen = false := by
  unfold classifyHeaders at h
  cases hst : c.stream? sid with
  | some st0 =>
    rw [hst] at h
    dsimp only at h
    split_ifs at h with h1 h2 h3
    · obtain ⟨rfl, -⟩ := Prod.mk.inj (Except.ok.inj h)
      rw [refuseClosed_gone hf hk (by simpa using h3)] at hs
      cases hs
    · obtain ⟨rfl, -⟩ := Prod.mk.inj (Except.ok.inj h)
      rw [← Option.some.inj (hst.symm.trans hs)]
      simpa using h2
  | none =>
    rw [hst] at h
    dsimp only at h
    have hgone : c'.streams = c.streams → False := by
      intro e
      rw [Conn.stream?, e] at hs
      rw [show c.streams.lookup sid = none from hst] at hs
      cases hs
    split_ifs at h
    · exact (hgone (by rw [← (Prod.mk.inj (Except.ok.inj h)).1])).elim
    · exact (hgone (by rw [← (Prod.mk.inj (Except.ok.inj h)).1])).elim
    · have h' : (c.admitStream sid selfDep es).1 = c' := congrArg Prod.fst (Except.ok.inj h)
      unfold Conn.admitStream at h'
      dsimp only at h'
      split at h'
      · obtain ⟨u, i, p, e⟩ := openStream_eq { c with lastStreamId := sid } sid
        rw [← h', Conn.stream?, e, AList.lookup_insert] at hs
        rw [← Option.some.inj hs]
        rfl
      · exact (hgone (by rw [← h'])).elim
      · dsimp only at h'
        split_ifs at h'
        · exact (hgone (by rw [← h', Conn.streams_recordEarlyClosed])).elim
        · exact (hgone (by rw [← h'])).elim

theorem answerRefusal_path (sid : ℕ) (refuse : Refusal) (c : Conn) :
    Path QuietAtom R c (answerRefusal H sid refuse c) := by
  unfold answerRefusal
  split
  · dsimp only
    split_ifs
    · exact .refl
    · exact Path.ofFrame (.charge c 1)
    · exact (Path.ofFrame (.charge c 1)).trans (streamError_path hf _ _ _).quiet
  · exact .refl

include hk in
theorem handleHeaders_path (f : InFrame) (hn : c.Announces f.header.streamId) :
    Path (HandleAtom ok) R c (handleHeaders H f c) := by
  unfold handleHeaders
  dsimp only
  split
  · exact (Path.ofFrame (.error _ _)).runs
  · next hid =>
    have hodd : f.header.streamId % 2 = 1 := by omega
    split
    · exact (Path.ofFrame (.error _ _)).runs
    · next frag selfDep hfrag =>
      have h1 : Path (HandleAtom ok) R c { c with headerBlock := frag } :=
        .single (.block (.fragment c frag))
      have h2 := h1.trans (classifyHeaders_path hf hodd selfDep
        (f.header.has flagEndStream) (c := { c with headerBlock := frag }) hn).runs
      split
      · next c1 hc => rw [hc] at h2; exact h2
      · next c1 refuse hc =>
        rw [hc] at h2
        unfold headersComplete
        split
        · exact (h2.trans (finishHeaders_path hf _ _ _ (classifyHeaders_going hf hk hc))).trans
            (answerRefusal_path hf _ _ _).runs
        · exact h2.atom (.block (.await _ _ _ _))

omit hf in
theorem Conn.Reading.congr (h : c.Reading) (hc : c'.contStream = c.contStream)
    (hs : c'.streams = c.streams) : c'.Reading := by
  unfold Conn.Reading Conn.stream? at h ⊢
  rw [hc, hs]
  exact h

omit hf in
theorem contStream_noteControlFrame (c : Conn) (n : ℕ) :
    (c.noteControlFrame n).contStream = c.contStream :=
  congrArg BlockView.contStream (frameMoves_noteControlFrame c n).blockView

theorem handleContinuation_path (f : InFrame) (hr : c.Reading) :
    Path (HandleAtom ok) R c (handleContinuation H f c) := by
  unfold handleContinuation
  split
  · exact (Path.ofFrame (.error _ _)).runs
  · next hcont =>
    have hr1 := hr.congr (contStream_noteControlFrame c 1) (Conn.streams_noteControlFrame c 1)
    have h1 : Path (HandleAtom ok) R c (c.noteControlFrame 1) := (Path.ofFrame (.charge c 1)).runs
    have hcont1 : (c.noteControlFrame 1).contStream ≠ 0 := by
      rw [contStream_noteControlFrame]
      exact fun h => hcont (.inl h)
    generalize c.noteControlFrame 1 = c1 at h1 hr1 hcont1
    dsimp only
    split
    · exact h1
    · split
      · exact h1.trans (Path.ofFrame (.error _ _)).runs
      · have h2 : Path (HandleAtom ok) R c { c1 with headerBlock := c1.headerBlock ++ f.payload } :=
          h1.atom (.block (.append c1 f.payload))
        split
        · exact ((h2.atom (.block (.complete _))).trans (finishHeaders_path hf _ _ _
            (hr1 hcont1))).trans (answerRefusal_path hf _ _ _).runs
        · exact h2

/-! ### The other frames -/

include hk

theorem handleSettings_path (f : InFrame) (c : Conn) :
    Path QuietAtom R c (handleSettings H f c) := by
  unfold handleSettings
  split
  · exact Path.ofFrame (.error _ _)
  · split
    · split
      · exact Path.ofFrame (.error _ _)
      · exact Path.ofFrame (.charge c 1)
    · split
      · exact Path.ofFrame (.error _ _)
      · have h1 : Path QuietAtom R c (c.noteControlFrame (max 1 (f.header.length / 6))) :=
          Path.ofFrame (.charge c _)
        generalize c.noteControlFrame (max 1 (f.header.length / 6)) = c1 at h1
        dsimp only
        split
        · exact h1
        · split
          · next c2 h => exact h1.atom (.frame (.settingsFailed H _ h))
          · next c2 h =>
            split
            · exact (h1.atom (.frame (.settingsWindow H _ h))).trans
                (h2Schedule_path hf hk _).quiet
            · next hn => exact h1.atom (.frame (.settings H _ h (Bool.eq_false_iff.mpr hn)))

omit hf hk in
theorem charge_path (c : Conn) : Path QuietAtom R c (c.noteControlFrame 1) :=
  Path.ofFrame (.charge c 1)

omit hf hk in
theorem handlePing_path (f : InFrame) (c : Conn) : Path QuietAtom R c (handlePing f c) := by
  have h1 := charge_path (R := R) c
  unfold handlePing
  dsimp only
  split_ifs
  · exact Path.ofFrame (.error _ _)
  · exact Path.ofFrame (.error _ _)
  · exact h1
  · exact h1
  · exact h1.atom (.frame (.pingAck _ _))

omit hf hk in
theorem dribble_path {c1 : Conn} (h : Path QuietAtom R c c1) (dribble : Bool) :
    Path QuietAtom R c (if dribble then c1.noteControlFrame 1 else c1) := by
  split_ifs
  · exact h.atom (.frame (.charge c1 1))
  · exact h

theorem windowUpdateConn_path (inc : ℕ) (c : Conn) :
    Path QuietAtom R c (windowUpdateConn H inc c) := by
  unfold windowUpdateConn
  split
  · exact Path.ofFrame (.error _ _)
  · next hr =>
    have h1 : Path QuietAtom R c (Conn.note { c with
        connSendWindow := int32 (c.connSendWindow + inc) } (.connCredit inc)) :=
      Path.ofFrame (.connCredit inc (by omega))
    dsimp only
    generalize Conn.note { c with connSendWindow := int32 (c.connSendWindow + inc) }
      (.connCredit inc) = c1 at h1 ⊢
    generalize isWindowDribble inc c1.connSendWindow (decide (c1.backlogStreams > 0)) = dribble
    have h2 := dribble_path h1 dribble
    generalize (if dribble = true then c1.noteControlFrame 1 else c1) = c2 at h2 ⊢
    split_ifs
    · exact h2
    · exact h2.trans (h2Schedule_path hf hk _).quiet
    · exact h2.atom (.frame (.idleUpdate c2))
    · exact h2

omit hk in
theorem windowUpdateIdle_path (dribble : Bool) (c : Conn) :
    Path QuietAtom R c (windowUpdateIdle H dribble c) := by
  unfold windowUpdateIdle
  dsimp only
  have h1 : Path QuietAtom R c (if dribble = true then c else c.noteIdleWindowUpdate) := by
    split_ifs
    · exact .refl
    · exact Path.ofFrame (.idleUpdate c)
  generalize (if dribble = true then c else c.noteIdleWindowUpdate) = c1 at h1 ⊢
  split_ifs
  · exact h1
  · exact h1.trans (h2ResumeProducers_path hf _).quiet

theorem windowUpdateStream_path (hs : c.stream? sid = some st) (inc : ℕ) :
    Path QuietAtom R c (windowUpdateStream H sid inc st c) := by
  unfold windowUpdateStream
  split
  · exact (streamError_path hf _ _ _).quiet
  · next hr =>
    have h1 : Path QuietAtom R c ((c.creditSend sid inc).h2Enqueue sid) :=
      Path.ofFrame (.streamCredit hs inc (by omega))
    dsimp only
    generalize (c.creditSend sid inc).h2Enqueue sid = c1 at h1 ⊢
    generalize isWindowDribble inc (int32 (st.sendWindow + inc)) st.hasBacklog = dribble
    have h2 := dribble_path h1 dribble
    generalize (if dribble = true then c1.noteControlFrame 1 else c1) = c2 at h2 ⊢
    split_ifs
    · exact h2
    · exact h2.trans (h2Schedule_path hf hk _).quiet
    · exact h2.trans (windowUpdateIdle_path hf _ _)

omit hk in
theorem windowUpdateZero_path (sid : ℕ) (c : Conn) :
    Path QuietAtom R c (windowUpdateZero H sid c) := by
  have h1 := charge_path (R := R) c
  unfold windowUpdateZero
  dsimp only
  split_ifs
  · exact Path.ofFrame (.error _ _)
  · exact h1
  · exact h1.trans (streamError_path hf _ _ _).quiet

theorem handleWindowUpdate_path (f : InFrame) (c : Conn) :
    Path QuietAtom R c (handleWindowUpdate H f c) := by
  unfold handleWindowUpdate
  dsimp only
  split_ifs
  · exact Path.ofFrame (.error _ _)
  · exact Path.ofFrame (.error _ _)
  · exact windowUpdateZero_path hf _ c
  · exact windowUpdateConn_path hf hk _ c
  · cases hs : c.stream? f.header.streamId with
    | some st => exact windowUpdateStream_path hf hk hs _
    | none => exact Path.ofFrame (.error _ _)
  · cases hs : c.stream? f.header.streamId with
    | some st => exact windowUpdateStream_path hf hk hs _
    | none => exact Path.ofFrame (.idleUpdate c)

omit hk in
theorem teardown_path (sid : ℕ) (c : Conn) : Path AppAtom R c (teardownStream H sid c) := by
  cases hs : c.stream? sid with
  | none =>
    unfold teardownStream
    rw [hs]
    exact .refl
  | some st => exact teardownStream_path hf hs rfl (.detach hs)

omit hk in
theorem handleRstStream_path (f : InFrame) (c : Conn) :
    Path QuietAtom R c (handleRstStream H f c) := by
  unfold handleRstStream
  dsimp only
  split_ifs
  · exact Path.ofFrame (.error _ _)
  · exact Path.ofFrame (.error _ _)
  · exact Path.ofFrame (.error _ _)
  · exact Path.ofFrame (.error _ _)
  · exact Path.ofFrame (.forgetReset c _)
  · exact (teardown_path hf f.header.streamId c).quiet.atom (.frame (.countReset _))

omit hk in
theorem handlePriority_path (f : InFrame) (c : Conn) :
    Path QuietAtom R c (handlePriority H f c) := by
  have h1 := charge_path (R := R) c
  unfold handlePriority
  dsimp only
  split_ifs
  · exact Path.ofFrame (.error _ _)
  · exact Path.ofFrame (.error _ _)
  · exact h1
  · exact h1.atom (.frame (.error _ _))
  · exact h1.trans (streamError_path hf _ _ _).quiet
  · exact h1

omit hf hk in
theorem handleGoaway_path (f : InFrame) (c : Conn) : Path QuietAtom R c (handleGoaway f c) := by
  unfold handleGoaway
  split_ifs
  · exact Path.ofFrame (.error _ _)
  · exact Path.ofFrame (.error _ _)
  · exact (Path.ofFrame (.charge c 1)).atom (.frame (.peerGone _))

omit hf hk in
theorem handlePriorityUpdate_path (f : InFrame) (c : Conn) :
    Path QuietAtom R c (handlePriorityUpdate f c) := by
  have h1 := charge_path (R := R) c
  unfold handlePriorityUpdate
  dsimp only
  split_ifs
  · exact Path.ofFrame (.error _ _)
  · exact Path.ofFrame (.error _ _)
  · exact h1
  · exact h1.atom (.frame (.error _ _))
  · exact h1.atom (.frame (.reprioritize _ _ _))
  · exact h1.atom (.frame (.bufferPriority _ _ _))
  · exact h1

/-! ### Whole frames and whole events -/

theorem handleFrame_path (f : InFrame) (hr : c.Reading) (hl : c.lastFrame = some f) :
    Path (HandleAtom ok) R c (handleFrame H f c) := by
  unfold handleFrame
  split
  · exact (Path.ofFrame (.error _ _)).runs
  · split
    · exact (handlePriorityUpdate_path f c).runs
    · split
      · exact (Path.ofFrame (.charge c 1)).runs
      · exact (handleData_path hf f c).dataRuns
      · next ht => exact handleHeaders_path hf hk f ⟨f, hl, ht, rfl⟩
      · exact handleContinuation_path hf f hr
      · exact (handleSettings_path hf hk f c).runs
      · exact (handlePing_path f c).runs
      · exact (handleWindowUpdate_path hf hk f c).runs
      · exact (handleRstStream_path hf f c).runs
      · exact (handlePriority_path hf f c).runs
      · exact (handleGoaway_path f c).runs
      · exact (Path.ofFrame (.error _ _)).runs

theorem feedFrame_path (f : InFrame) (rest : Bytes) (hr : c.Reading)
    (hc : c.closing = false) : Path (RunAtom ok) R c (feedFrame H f rest c) := by
  unfold feedFrame
  split_ifs
  · exact .ofFeed (.notFirst c)
  · have hr' : (Conn.note { c with rbuf := rest, sawFirstFrame := true } (.received f)).Reading :=
      hr
    have hc' : Conn.closing { c with rbuf := rest } = false := hc
    exact ((Path.ofFeed (.read c rest)).trans (Path.ofFeed (.received f hc'))).trans
      (handleFrame_path hf hk f hr' (lastFrame_received _ f)).ofHandle

theorem feedStep_path (hr : c.Reading) (h : feedStep H c = some c') : Path (RunAtom ok) R c c' := by
  unfold feedStep at h
  split_ifs at h with h1 h2 h3 h4 h5
  · obtain rfl := Option.some.inj h
    exact .ofFeed (.preface (by simpa using h1) _)
  · obtain rfl := Option.some.inj h
    exact .ofFeed (.error _ _)
  · obtain rfl := Option.some.inj h
    exact .ofFeed (.error _ _)
  · split at h
    · cases h
    · obtain rfl := Option.some.inj h
      exact feedFrame_path hf hk _ _ hr (by simpa using h4)

/-- **Every event of a run is a path of pieces.** -/
theorem step_path (hr : c.Reading) {i : Input} (hi : i.Permitted ok c) :
    Path (RunAtom ok) R c (step H c i) := by
  cases i with
  | bytes b => exact .ofFeed (.read c _)
  | feed =>
    unfold step
    cases hs : feedStep H c with
    | none => exact .refl
    | some c' => exact feedStep_path hf hk hr hs
  | call k => exact (Call.run_path hf hk hi).ofCall.ofHandle

/-! ### The stream of an unfinished field block is still receiving -/

omit hf in
theorem Path.blockView (h : Path (DataAtom anyCall) R a b) : b.blockView = a.blockView :=
  h.rel_pieces (Q := fun a b => b.blockView = a.blockView) (fun _ => rfl)
    (fun _ _ _ h1 h2 => h2.trans h1) (fun _ _ hp => hp.blockView)
    (fun _ _ hr => (hk _ _ hr).blockView) hk

omit hf in
theorem Path.contStream (h : Path (DataAtom anyCall) R a b) : b.contStream = a.contStream :=
  congrArg BlockView.contStream (Path.blockView hk h)

theorem finishHeaders_contStream (sid : ℕ) (es : Bool) (c : Conn)
    (hgo : ∀ st, c.stream? sid = some st → st.endStreamSeen = false) :
    (finishHeaders H sid es c).contStream = c.contStream := by
  unfold finishHeaders
  split
  · next d e hd =>
    exact congrArg BlockView.contStream (blockView_connError { c with decoder := d } .errCompression)
  · next d fields hd =>
    dsimp only
    split
    · rfl
    · next st hs =>
      split_ifs with hh
      · exact (Path.contStream hk (finishTrailers_path hf hs hh (hgo st hs) es fields)).trans rfl
      · exact (Path.contStream hk
          (finishHead_path hf hs (by simpa using hh) es fields).data).trans rfl

omit hf hk in
theorem Kept.reading (h : Kept a b) (hr : a.Reading) : b.Reading := by
  have hc : b.contStream = a.contStream := congrArg BlockView.contStream h.blockView
  intro h0 st hs
  rw [hc] at h0 hs
  obtain ⟨st0, hs0, hkeep⟩ := h.stream _ st hs
  exact (congrArg RequestView.endStreamSeen hkeep.request).trans (hr h0 st0 hs0)

omit hf hk in
theorem reading_of_zero (h : c.contStream = 0) : c.Reading := fun h0 => absurd h h0

omit hf hk in
theorem Conn.Reading.connError (h : c.Reading) (err : ErrCode) : (c.connError err).Reading :=
  h.congr (congrArg BlockView.contStream (blockView_connError c err)) (Conn.streams_connError c err)

theorem handleHeaders_reading (f : InFrame) (h0 : c.contStream = 0)
    (hn : c.Announces f.header.streamId) :
    (handleHeaders H f c).Reading := by
  unfold handleHeaders
  dsimp only
  split
  · exact (reading_of_zero h0).connError _
  · next hid =>
    have hodd : f.header.streamId % 2 = 1 := by omega
    split
    · exact (reading_of_zero h0).connError _
    · next frag selfDep hfrag =>
      have h1 := Path.contStream hk (classifyHeaders_path hf hodd selfDep
        (f.header.has flagEndStream) (c := { c with headerBlock := frag }) hn).data
      split
      · next c1 hc =>
        rw [hc] at h1
        exact reading_of_zero (h1.trans h0)
      · next c1 refuse hc =>
        rw [hc] at h1
        have hgo := classifyHeaders_going hf hk hc
        unfold headersComplete
        split
        · refine reading_of_zero ?_
          rw [Path.contStream hk (answerRefusal_path hf _ _ _).data,
            finishHeaders_contStream hf hk _ _ _ hgo]
          exact h1.trans h0
        · exact fun _ => hgo

theorem handleContinuation_reading (f : InFrame) (hr : c.Reading) :
    (handleContinuation H f c).Reading := by
  unfold handleContinuation
  split
  · exact hr.connError _
  · next hcont =>
    have hr1 := hr.congr (contStream_noteControlFrame c 1) (Conn.streams_noteControlFrame c 1)
    have hcont1 : (c.noteControlFrame 1).contStream ≠ 0 := by
      rw [contStream_noteControlFrame]
      exact fun h => hcont (.inl h)
    generalize c.noteControlFrame 1 = c1 at hr1 hcont1
    dsimp only
    split_ifs
    · exact hr1
    · exact hr1.connError _
    · refine reading_of_zero ?_
      unfold continuationComplete
      rw [Path.contStream hk (answerRefusal_path hf _ _ _).data]
      refine (finishHeaders_contStream hf hk _ _ _ ?_).trans rfl
      exact hr1 hcont1
    · exact hr1.congr rfl rfl

theorem handleFrame_reading (f : InFrame) (hr : c.Reading) (hl : c.lastFrame = some f) :
    (handleFrame H f c).Reading := by
  unfold handleFrame
  split
  · exact hr.connError _
  · next hcont =>
    by_cases h0 : c.contStream = 0
    · have hquiet : ∀ {c'}, Path (DataAtom anyCall) R c c' → c'.Reading :=
        fun h => reading_of_zero ((Path.contStream hk h).trans h0)
      split
      · exact hquiet (handlePriorityUpdate_path f c).data
      · split
        · exact hquiet (Path.ofFrame (.charge c 1)).data
        · exact hquiet (handleData_path hf f c)
        · next ht => exact handleHeaders_reading hf hk f h0 ⟨f, hl, ht, rfl⟩
        · exact handleContinuation_reading hf hk f hr
        · exact hquiet (handleSettings_path hf hk f c).data
        · exact hquiet (handlePing_path f c).data
        · exact hquiet (handleWindowUpdate_path hf hk f c).data
        · exact hquiet (handleRstStream_path hf f c).data
        · exact hquiet (handlePriority_path hf f c).data
        · exact hquiet (handleGoaway_path f c).data
        · exact hr.connError _
    · have ht : f.header.typ = FrameType.ftContinuation.code := by
        by_contra h
        exact hcont ⟨h0, .inl h⟩
      rw [ht]
      exact handleContinuation_reading hf hk f hr

omit hf hk in
theorem Conn.Reading.finishPreface (h : c.Reading) : c.finishPreface.Reading := by
  unfold Conn.finishPreface
  rcases sendOurSettings_cases { c with prefaceDone := true } with e | e <;> rw [e] <;>
    exact h.congr rfl rfl

theorem feedFrame_reading (f : InFrame) (rest : Bytes) (hr : c.Reading) :
    (feedFrame H f rest c).Reading := by
  have h1 : Conn.Reading { c with sawFirstFrame := true } := hr.congr rfl rfl
  have h2 : (Conn.note { c with rbuf := rest, sawFirstFrame := true } (.received f)).Reading :=
    hr.congr rfl rfl
  unfold feedFrame
  split_ifs
  · exact h1.connError _
  · exact handleFrame_reading hf hk f h2 (lastFrame_received _ f)

theorem feedStep_reading (hr : c.Reading) (h : feedStep H c = some c') : c'.Reading := by
  have hread : ∀ rest, Conn.Reading { c with rbuf := rest } := fun rest => hr.congr rfl rfl
  unfold feedStep at h
  split_ifs at h
  · obtain rfl := Option.some.inj h
    exact (hread _).finishPreface
  · obtain rfl := Option.some.inj h
    exact hr.connError _
  · obtain rfl := Option.some.inj h
    exact hr.connError _
  · split at h
    · cases h
    · obtain rfl := Option.some.inj h
      exact feedFrame_reading hf hk _ _ hr

theorem step_reading (hr : c.Reading) {i : Input} (hi : i.Permitted ok c) :
    (step H c i).Reading := by
  cases i with
  | bytes b => exact hr.congr rfl rfl
  | feed =>
    unfold step
    cases hs : feedStep H c with
    | none => exact hr
    | some c' => exact feedStep_reading hf hk hr hs
  | call k => exact (Path.kept_call hk (Call.run_path hf hk hi)).reading hr

end Frames

/-! ### Open streams have ids that were announced -/

/-- Every open stream has an id that was announced. -/
def Conn.Opened (c : Conn) : Prop := ∀ s, (c.stream? s).isSome = true → s ≤ c.lastStreamId

/-- No stream is opened. -/
structure Closes (a b : Conn) : Prop where
  last : a.lastStreamId ≤ b.lastStreamId
  stream : ∀ s, (b.stream? s).isSome = true → (a.stream? s).isSome = true

namespace Closes

variable {a b c : Conn} {sid : ℕ} {f : Stream → Stream}

theorem trans (h1 : Closes a b) (h2 : Closes b c) : Closes a c :=
  ⟨h1.last.trans h2.last, fun s h => h1.stream s (h2.stream s h)⟩

theorem of_streams (hs : b.streams = a.streams) (hl : a.lastStreamId ≤ b.lastStreamId) :
    Closes a b :=
  ⟨hl, fun s h => by rwa [Conn.stream?, hs] at h⟩

theorem of_updates (hu : Updates a b sid f) (hl : a.lastStreamId ≤ b.lastStreamId) :
    Closes a b := by
  refine ⟨hl, fun s h => ?_⟩
  rw [hu s] at h
  split_ifs at h with e
  · rwa [e, ← Option.isSome_map (f := f)]
  · exact h

theorem modify (c : Conn) (sid : ℕ) (f : Stream → Stream) : Closes c (c.modify sid f) :=
  of_updates (.modify c sid f) (le_refl _)

theorem opened (h : Closes a b) (ho : a.Opened) : b.Opened :=
  fun s hs => (ho s (h.stream s hs)).trans h.last

end Closes

theorem Kept.closes (h : Kept a b) : Closes a b := by
  refine ⟨h.lastStreamId.ge, fun s hs => ?_⟩
  obtain ⟨st', hst'⟩ := Option.isSome_iff_exists.mp hs
  obtain ⟨st, hst, -⟩ := h.stream s st' hst'
  rw [hst]
  rfl

theorem lastStreamId_noteEndStream (c : Conn) (sid : ℕ) :
    (c.noteEndStream sid).lastStreamId = c.lastStreamId := by
  unfold Conn.noteEndStream
  split <;> rfl

theorem lastStreamId_releaseBuffered (c : Conn) (sid : ℕ) :
    (c.releaseBuffered sid).lastStreamId = c.lastStreamId := by
  unfold Conn.releaseBuffered
  split <;> rfl

theorem closes_noteEndStream (c : Conn) (sid : ℕ) : Closes c (c.noteEndStream sid) :=
  .of_updates (updates_noteEndStream c sid) (lastStreamId_noteEndStream c sid).ge

theorem closes_releaseBuffered (c : Conn) (sid : ℕ) : Closes c (c.releaseBuffered sid) :=
  .of_updates (updates_releaseBuffered c sid) (lastStreamId_releaseBuffered c sid).ge

theorem closes_dispatch (c : Conn) (sid : ℕ) : Closes c (c.dispatch sid) := by
  refine .of_updates (updates_dispatch c sid) ?_
  unfold Conn.dispatch Conn.noteDispatch
  split <;> exact le_refl _

theorem closes_connError (c : Conn) (err : ErrCode) : Closes c (c.connError err) := by
  refine .of_streams (Conn.streams_connError c err) ?_
  unfold Conn.connError
  split_ifs <;> exact le_refl _

theorem closes_reset (c : Conn) (sid : ℕ) (err : ErrCode) : Closes c (c.reset sid err) :=
  (Strokes.reset c sid err).moves.kept.closes

theorem RequestMove.closes (h : RequestMove a b) : Closes a b := by
  cases h with
  | debit | note => exact .of_streams rfl (le_refl _)
  | record sid hf => exact .modify _ _ _
  | count sid n => exact .of_updates (.of_streams rfl) (le_refl _)
  | ended => exact closes_noteEndStream _ _
  | release => exact closes_releaseBuffered _ _
  | dispatch => exact closes_dispatch _ _
  | reset => exact closes_reset _ _ _

theorem RequestMoves.closes (h : RequestMoves a b) : Closes a b := by
  induction h with
  | refl => exact .of_streams rfl le_rfl
  | tail _ h ih => exact ih.trans (RequestMove.closes h)

theorem BlockAtom.closes (h : BlockAtom a b) : Closes a b := by
  cases h with
  | fragment | decoded => exact .of_streams rfl (le_refl _)
  | failed h =>
    refine Closes.trans ?_ (closes_connError _ _)
    exact .of_streams rfl (le_refl _)
  | await | append | complete => exact .of_streams rfl (le_refl _)

theorem Closes.of_core (hc : b.core = a.core) (hs : b.streams = a.streams) : Closes a b :=
  .of_streams hs (congrArg Core.lastStreamId hc).ge

theorem opened_openStream (h : c.Opened) (hl : c.lastStreamId < sid) :
    (Conn.openStream { c with lastStreamId := sid } sid).Opened := by
  intro s hs
  obtain ⟨st, hst⟩ := Option.isSome_iff_exists.mp hs
  obtain ⟨u, i, p, e⟩ := openStream_eq { c with lastStreamId := sid } sid
  rw [e]
  rcases stream_openStream hst with ⟨rfl, -⟩ | ⟨-, h'⟩
  · exact le_refl s
  · exact (h s (by rw [show c.stream? s = some st from h']; rfl)).trans hl.le

theorem FrameMove.opened (h : FrameMove a b) (ho : a.Opened) : b.Opened := by
  cases h with
  | error err => exact (closes_connError _ _).opened ho
  | note | settingsAck | pingAck => exact (Closes.of_streams rfl (le_refl _)).opened ho
  | preface hp =>
    unfold Conn.finishPreface
    rcases sendOurSettings_cases { a with prefaceDone := true } with e | e <;> rw [e] <;>
      exact (Closes.of_streams rfl (le_refl _)).opened ho
  | other hc hb hs => exact (Closes.of_core hc hs).opened ho
  | update hc hb hs hf | head hst hh hc hb hs hf =>
    exact (Closes.of_updates (.of_streams hs) (congrArg Core.lastStreamId hc).ge).opened ho
  | openNew hl => exact opened_openStream (c := a) ho hl
  | @refuse sid hl =>
    have h1 : Closes a { a with lastStreamId := sid } := .of_streams rfl hl.le
    exact h1.opened ho
  | @refuseEarly sid hl =>
    have h1 : Closes a { a with lastStreamId := sid } := .of_streams rfl hl.le
    exact (h1.trans (kept_recordEarlyClosed _ _).closes).opened ho
  | forget sid hc hb hs =>
    have hl : a.lastStreamId ≤ b.lastStreamId := (congrArg Core.lastStreamId hc).ge
    exact (Closes.of_streams hs hl).opened ho
  | initialWindow H value h =>
    have h1 : Closes a (Conn.note { a with peerInitialWindow := value } (.initialWindow value)) :=
      .of_streams rfl (le_refl _)
    exact (h1.trans ((shiftWindows_moves _ _ _).1 _
      (applyInitialWindow_ok h).2).kept.closes).opened ho
  | initialWindowFailed H value h =>
    have h1 : Closes a (Conn.note { a with peerInitialWindow := value } (.initialWindow value)) :=
      .of_streams rfl (le_refl _)
    rcases applyInitialWindow_error h with rfl | ⟨c1, hm, rfl⟩
    · exact (closes_connError _ _).opened ho
    · exact ((h1.trans hm.kept.closes).trans (closes_connError _ _)).opened ho
  | maxFrame | connCredit => exact (Closes.of_streams rfl (le_refl _)).opened ho
  | @streamCredit sid st hs inc h =>
    have h1 : Closes a (a.note (.streamCredit sid inc)) := .of_streams rfl (le_refl _)
    exact (h1.trans (creditSend_moves _ _ _).kept.closes).opened ho

theorem FrameMoves.opened (h : FrameMoves a b) (ho : a.Opened) : b.Opened := by
  induction h with
  | refl => exact ho
  | tail _ hm ih =>
    rcases hm with hm | hm
    · exact hm.opened ih
    · exact hm.kept.closes.opened ih

/-- Every piece of a run keeps the open ids below the last one announced. -/
theorem Piece.opened (h : Piece (RunAtom ok) a b) (ho : a.Opened) : b.Opened := by
  cases h with
  | atom h =>
    cases h with
    | call h => exact (Piece.kept (.atom h)).closes.opened ho
    | frame h => exact h.moves.opened ho
    | body h => exact h.requestMoves.closes.opened ho
    | block h => exact h.closes.opened ho
    | feed h => exact h.moves.opened ho
  | finish h => exact h.strokes.moves.kept.closes.opened ho
  | fired c cb => exact (Closes.of_streams rfl (le_refl _)).opened ho
  | closeBegin h => exact h.strokes.moves.kept.closes.opened ho
  | wsDrop hw => exact (kept_dropWsStream _ _).closes.opened ho

theorem opened_newH2Conn (cfg : Config) : (newH2Conn cfg).Opened := by
  intro s hs
  cases hs

/-! ### Invariants of runs -/

/-- The read side is kept, and so is `I`. -/
structure KeptWith (I : Conn → Prop) (a b : Conn) : Prop where
  kept : Kept a b
  inv : I a → I b

theorem KeptWith.refl (c : Conn) : KeptWith I c c := ⟨.refl c, id⟩

theorem KeptWith.trans (a b c : Conn) (h1 : KeptWith I a b) (h2 : KeptWith I b c) :
    KeptWith I a c :=
  ⟨h1.kept.trans h2.kept, fun h => h2.inv (h1.inv h)⟩

theorem obeys_anyCall (W : World) : W.Obeys anyCall := fun _ _ _ _ _ _ _ => trivial

/-- Callbacks of every depth keep the read side, and keep what every piece of a permitted call
keeps. -/
theorem World.fire_kept (hW : W.Obeys ok) (hI : ∀ a b, Piece (CallAtom ok) a b → I a → I b)
    (n : ℕ) (cb : Callback) (c : Conn) : KeptWith I c ((W.hooks n).fire cb c) := by
  refine World.fire_rel hW KeptWith.refl KeptWith.trans ?_ n cb c
  intro H k c hf hok
  exact (Call.run_path (R := KeptWith I) hf (fun _ _ h => h.kept) hok).rel_pieces KeptWith.refl
    KeptWith.trans (fun a b h => ⟨h.kept, hI a b h⟩) (fun _ _ h => h) (fun _ _ h => h.kept)

/-- The pieces of calls are pieces of runs. -/
theorem Piece.run {ok : Call → Conn → Prop} (h : Piece (CallAtom ok) a b) :
    Piece (RunAtom ok) a b :=
  h.mono (fun _ _ _ => .call)

theorem World.fire_reads (hW : W.Obeys ok) (n : ℕ) (cb : Callback) (c : Conn) :
    Kept c ((W.hooks n).fire cb c) :=
  (World.fire_kept hW (I := fun _ => True) (fun _ _ _ => id) n cb c).kept

/-- A field block is only ever left unfinished on a stream that is still receiving. -/
theorem Reachable.reading (hW : W.Obeys ok) {c : Conn} (h : Reachable (W.hooks n) ok cfg c) :
    c.Reading := by
  induction h with
  | start => exact reading_of_zero rfl
  | step i _ hi ih => exact step_reading (World.fire_reads hW n) (fun _ _ h => h) ih hi

/-- **The invariant rule.**  What holds of a new connection and is kept by every piece of a run
holds in every state reached by permitted calls, made from wherever. -/
theorem Reachable.invariant (hW : W.Obeys ok) (h0 : I (newH2Conn cfg))
    (hI : ∀ a b, Piece (RunAtom ok) a b → I a → I b) (h : Reachable (W.hooks n) ok cfg c) :
    I c := by
  have hfire := World.fire_kept hW (fun a b hp => hI a b hp.run) n
  induction h with
  | start => exact h0
  | @step c i hc hi ih =>
    have hp := step_path (R := KeptWith I) hfire (fun _ _ h => h.kept) (hc.reading hW) hi
    exact hp.rel_pieces (Q := fun a b => I a → I b) (fun _ => id) (fun _ _ _ h1 h2 h => h2 (h1 h))
      hI (fun _ _ h => h.inv) (fun _ _ h => h.kept) ih

/-- The same rule, for an invariant that relies on open streams having announced ids. -/
theorem Reachable.invariant_opened (hW : W.Obeys ok) (h0 : I (newH2Conn cfg))
    (hI : ∀ a b, Piece (RunAtom ok) a b → a.Opened → I a → I b)
    (h : Reachable (W.hooks n) ok cfg c) : I c :=
  (h.invariant hW (I := fun c => c.Opened ∧ I c) ⟨opened_newH2Conn cfg, h0⟩
    (fun a b hp ha => ⟨hp.opened ha.1, hI a b hp ha.1 ha.2⟩)).2

/-! ### Relations along runs -/

/-- Callbacks of every depth keep the read side, and are related by what relates every piece of a
permitted call with the callbacks it causes. -/
theorem World.fire_related (hW : W.Obeys ok) {Q : Conn → Conn → Prop}
    (hQ : Respects (CallAtom ok) Q) (n : ℕ) (cb : Callback) (c : Conn) :
    Kept c ((W.hooks n).fire cb c) ∧ Q c ((W.hooks n).fire cb c) := by
  refine World.fire_rel hW (R := fun a b => Kept a b ∧ Q a b) (fun c => ⟨.refl c, hQ.refl c⟩)
    (fun a b c h1 h2 => ⟨h1.1.trans h2.1, hQ.trans a b c h1.2 h2.2⟩) ?_ n cb c
  intro H k c hf hok
  have hp := Call.run_path (R := fun a b => Kept a b ∧ Q a b) hf (fun _ _ h => h.1) hok
  exact ⟨hp.rel_pieces Kept.refl (fun _ _ _ => Kept.trans) (fun _ _ h => h.kept)
    (fun _ _ h => h.1) (fun _ _ h => h.1), hp.rel hQ (fun _ _ h => h.2) (fun _ _ h => h.1)⟩

/-- **The rule for relations.**  A preorder that contains every piece of a run, together with the
callbacks the piece causes, holds between a new connection and every state reached. -/
theorem Reachable.related (hW : W.Obeys ok) {Q : Conn → Conn → Prop}
    (hQ : Respects (RunAtom ok) Q) (h : Reachable (W.hooks n) ok cfg c) : Q (newH2Conn cfg) c := by
  have hfire := World.fire_related hW (hQ.mono (fun _ _ _ => .call)) n
  induction h with
  | start => exact hQ.refl _
  | @step c i hc hi ih =>
    have hp := step_path (R := fun a b => Kept a b ∧ Q a b) hfire (fun _ _ h => h.1)
      (hc.reading hW) hi
    exact hQ.trans _ _ _ ih (hp.rel hQ (fun _ _ h => h.2) (fun _ _ h => h.1))

end Vortex.Http2
