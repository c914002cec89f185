import Vortex.Http2.Journal
import Vortex.Http2.Closing

/-! # Content-length reconciliation

A request that declares a content length is handed over with exactly that many body bytes, or its
sink is told the end after exactly that many.  The checks are spread over the head, the trailers,
two kinds of DATA and the late registration of a sink; `Exchange.Intake` is what they establish
together, over the events of an exchange so far.

A stream that is taken out of the table tells its sink the end as well, whatever had arrived by
then.  That call comes after the removal, which is how the two are told apart. -/

namespace Vortex.Http2

open FieldRules

/-! ### Declared lengths -/

/-- The request declares the content length `n`: it has the field, and all of them say so. -/
structure Declares (fields : Fields) (n : ℕ) : Prop where
  present : ∃ f ∈ fields, f.1 = ascii "content-length"
  agree : ∀ f ∈ fields, f.1 = ascii "content-length" → parseContentLength f.2 (-1) = .clOk n

variable {n : ℕ} {fields : Fields} {e : Event} {sid : ℕ} {es : List Event}

theorem parseContentLength_again {val : Bytes} {prev : ℤ}
    (h : parseContentLength val (-1) = .clOk n) (hp : prev = -1 ∨ prev = n) :
    parseContentLength val prev = .clOk n := by
  unfold parseContentLength at h ⊢
  split_ifs at h ⊢ with he
  cases hl : contentLengthLoop val 0 with
  | clOk v =>
    rw [hl] at h
    simp only [Int.reduceNeg, Int.reduceLE, false_and, if_false] at h
    have hv : v = n := ContentLengthResult.clOk.inj h
    rw [hv]
    rcases hp with hp | hp <;> simp [hp]
  | _ =>
    rw [hl] at h
    cases h

theorem HeadScan.field_contentLength {s s' : HeadScan} {f : Bytes × Bytes}
    (h : s.field f = some s') : (f.1 ≠ ascii "content-length" ∧ s'.contentLength = s.contentLength) ∨
      (f.1 = ascii "content-length" ∧ ∃ n : ℕ, s'.contentLength = n ∧
        parseContentLength f.2 s.contentLength = .clOk n) := by
  unfold HeadScan.field at h
  dsimp only at h
  split_ifs at h with h1 h2 h3 h4 h5 h6
  · refine .inl ⟨fun e => ?_, ?_⟩
    · rw [e] at h1
      exact absurd h1 (by decide)
    · rw [← Option.some.inj h]
  · refine .inl ⟨fun e => ?_, ?_⟩
    · rw [e] at h3
      exact absurd h3 (by decide)
    · rw [← Option.some.inj h]
  · refine .inl ⟨fun e => ?_, ?_⟩
    · rw [e] at h5
      exact absurd h5 (by decide)
    · rw [← Option.some.inj h]
  · refine .inr ⟨h6, ?_⟩
    split at h
    · next n hn =>
      refine ⟨n, ?_, hn⟩
      rw [← Option.some.inj h]
    · cases h
  · exact .inl ⟨h6, by rw [← Option.some.inj h]⟩

theorem HeadScan.fields_agree : ∀ {s s' : HeadScan}, HeadScan.fields s fields = some s' →
      (∀ f ∈ fields, f.1 = ascii "content-length" → parseContentLength f.2 (-1) = .clOk n) →
      (s.contentLength = -1 ∨ s.contentLength = n) →
      s'.contentLength = n ∨ (s'.contentLength = s.contentLength ∧
        ∀ f ∈ fields, f.1 ≠ ascii "content-length") := by
  induction fields with
  | nil =>
    intro s s' h _ _
    rw [← Option.some.inj h]
    exact .inr ⟨rfl, by simp⟩
  | cons f rest ih =>
    intro s s' h hagree hs
    unfold HeadScan.fields at h
    cases hf : s.field f with
    | none => simp [hf] at h
    | some s1 =>
      simp only [hf] at h
      have hrest : ∀ g ∈ rest, g.1 = ascii "content-length" →
          parseContentLength g.2 (-1) = .clOk n :=
        fun g hg => hagree g (List.mem_cons_of_mem _ hg)
      rcases HeadScan.field_contentLength hf with ⟨hne, hlen⟩ | ⟨he, m, hm, hparse⟩
      · rcases ih h hrest (hlen ▸ hs) with h' | ⟨h', hno⟩
        · exact .inl h'
        · refine .inr ⟨h'.trans hlen, fun g hg => ?_⟩
          rcases List.mem_cons.mp hg with rfl | hg
          · exact hne
          · exact hno g hg
      · have hparse' := parseContentLength_again (hagree f List.mem_cons_self he) hs
        have hmn : m = n := ContentLengthResult.clOk.inj (hparse.symm.trans hparse')
        have hlen : s1.contentLength = n := by rw [hm, hmn]
        rcases ih h hrest (.inr hlen) with h' | ⟨h', -⟩
        · exact .inl h'
        · exact .inl (h'.trans hlen)

theorem Declares.contentLength (h : Declares fields n) {x : Exchange} {len : ℤ}
    (hf : x.HeadFields fields len) (hx : x.contentLength = -1) : len = n := by
  obtain ⟨s, s', hs, hscan, rfl⟩ := hf.scanned
  rcases HeadScan.fields_agree hscan h.agree (.inl (hs.trans hx)) with h' | ⟨-, hno⟩
  · exact h'
  · obtain ⟨f, hf, he⟩ := h.present
    exact absurd he (hno f hf)

/-! ### Events of the request side -/

/-- The bytes an event hands to the stream's sink. -/
def bodyBytes (sid : ℕ) : Event → ℕ
  | .fired (.body s _ data _) => if s = sid then data.length else 0
  | _ => 0

/-- An event that says nothing about a request: no head, no dispatch, no bytes and, unless the
connection closes, no end. -/
def Event.silent (cl : Bool) : Event → Bool
  | .head _ _ _ | .dispatched _ _ => false
  | .fired (.body _ _ data last) => data.isEmpty && (!last || cl)
  | _ => true

/-- The sink is told the end after `n` bytes, while its stream is in the table. -/
def ToldAt (sid n : ℕ) (before : List Event) (e : Event) : Prop :=
  ∀ cb data, e = .fired (.body sid cb data true) → .removed sid ∉ before →
    tally (bodyBytes sid) before + data.length = n

theorem bodyBytes_silent {cl : Bool} (h : e.silent cl = true) : bodyBytes sid e = 0 := by
  unfold bodyBytes
  split
  · next s cb data last =>
    have hd : data = [] := by
      simp only [Event.silent, Bool.and_eq_true, List.isEmpty_iff] at h
      exact h.1
    rw [hd]
    split_ifs <;> rfl
  · rfl

theorem toldAt_silent (h : e.silent false = true) (before : List Event) :
    ToldAt sid n before e := by
  intro cb data he
  rw [he] at h
  simp [Event.silent] at h

/-- The events of a stream agree with the length its head declares.  The end may come early only
when the connection closes. -/
def Reconciled (cl : Bool) (sid : ℕ) (es : List Event) : Prop :=
  ∀ fields route n, .head sid fields route ∈ es → Declares fields n →
    (route = .buffered → ∀ k, .dispatched sid k ∈ es → k = n) ∧
      (route = .streaming → tally (bodyBytes sid) es ≤ n ∧ (cl = false → Each (ToldAt sid n) es))

section Silence

variable {cl : Bool} {sid : ℕ} {es evs : List Event}

theorem silent_head (h : ∀ e ∈ es, e.silent cl = true) (sid : ℕ) (fields : Fields)
    (route : Route) : Event.head sid fields route ∉ es :=
  fun hm => absurd (h _ hm) (by simp [Event.silent])

theorem silent_dispatched (h : ∀ e ∈ es, e.silent cl = true) (sid k : ℕ) :
    Event.dispatched sid k ∉ es :=
  fun hm => absurd (h _ hm) (by simp [Event.silent])

theorem tally_silent (h : ∀ e ∈ es, e.silent cl = true) : tally (bodyBytes sid) es = 0 :=
  tally_eq_zero (fun e he => bodyBytes_silent (h e he))

theorem each_silent (h : ∀ e ∈ es, e.silent cl = true) (hc : cl = false) : Each (ToldAt sid n) es :=
  each_of (fun e he before => toldAt_silent (hc ▸ h e he) before)

/-- An event after the stream is gone: it says nothing, or tells the sink the end. -/
def Event.Parting (cl : Bool) (sid : ℕ) (es : List Event) (e : Event) : Prop :=
  e.silent cl = true ∨ (.removed sid ∈ es ∧ ∃ cb, e = .fired (.body sid cb [] true))

theorem Event.Parting.inert (h : e.Parting cl sid es) :
    bodyBytes sid e = 0 ∧ (∀ fields route, e ≠ .head sid fields route) ∧
      ∀ k, e ≠ .dispatched sid k := by
  rcases h with h | ⟨-, cb, rfl⟩
  · refine ⟨bodyBytes_silent h, ?_, ?_⟩
    · rintro fields route rfl
      cases h
    · rintro k rfl
      cases h
  · exact ⟨by simp [bodyBytes], by simp, by simp⟩

theorem Reconciled.append (h : Reconciled cl sid es) (hq : ∀ e ∈ evs, e.Parting cl sid es) :
    Reconciled cl sid (es ++ evs) := by
  have hbytes : tally (bodyBytes sid) evs = 0 := tally_eq_zero (fun e he => (hq e he).inert.1)
  intro fields route n hm hn
  have hm' : Event.head sid fields route ∈ es :=
    (List.mem_append.mp hm).resolve_right (fun h' => (hq _ h').inert.2.1 fields route rfl)
  obtain ⟨h1, h2⟩ := h fields route n hm' hn
  refine ⟨fun hr k hk => h1 hr k ((List.mem_append.mp hk).resolve_right
    (fun h' => (hq _ h').inert.2.2 k rfl)), fun hr => ?_⟩
  obtain ⟨hle, heach⟩ := h2 hr
  refine ⟨by rw [tally_append, hbytes]; exact hle, fun hc => (heach hc).append ?_⟩
  intro before e after hsplit
  rcases hq e (by rw [hsplit]; simp) with h' | ⟨hrem, cb, rfl⟩
  · exact toldAt_silent (hc ▸ h') _
  · exact fun _ _ _ hno => absurd (List.mem_append_left _ hrem) hno

theorem reconciled_silent (h : ∀ e ∈ es, e.silent cl = true) : Reconciled cl sid es :=
  fun fields route _ hm => absurd hm (silent_head h sid fields route)

theorem silent_cons (he : e.silent cl = true) (h : ∀ e ∈ evs, e.silent cl = true) :
    ∀ e' ∈ e :: evs, e'.silent cl = true := by
  intro e' he'
  rcases List.mem_cons.mp he' with rfl | he'
  · exact he
  · exact h e' he'

theorem silent_append {evs' : List Event} (h : ∀ e ∈ evs, e.silent cl = true)
    (h' : ∀ e ∈ evs', e.silent cl = true) : ∀ e ∈ evs ++ evs', e.silent cl = true :=
  fun e he => (List.mem_append.mp he).elim (h e) (h' e)

end Silence

namespace Exchange

/-! ### What the checks establish -/

/-- The request side of an exchange after the events `es`. -/
structure Intake (cl : Bool) (sid : ℕ) (x : Exchange) (es : List Event) : Prop where
  fresh : x.headersDone = false → x.body = [] ∧ x.bodyReceived = 0 ∧ x.endStreamSeen = false ∧
    x.dispatched = false ∧ x.reqStreaming = false ∧ x.isWsConnect = false ∧ x.contentLength = -1
  silent : x.headersDone = false → ∀ e ∈ es, e.silent cl = true
  heads : ∀ fields route, .head sid fields route ∈ es → route = x.route ∧
    ∀ n, Declares fields n → x.contentLength = n
  buffered : x.route = .buffered → ∀ n : ℕ, x.contentLength = n → ∀ k, .dispatched sid k ∈ es → k = n
  streaming : x.route = .streaming → x.dispatched = true ∧
    tally (bodyBytes sid) es + x.body.length = x.bodyReceived ∧
    ∀ n : ℕ, x.contentLength = n → x.bodyReceived ≤ n ∧
      (x.endStreamSeen = true → x.bodyReceived = n) ∧ (cl = false → Each (ToldAt sid n) es)

variable {cl : Bool} {sid : ℕ} {x x' : Exchange} {es evs : List Event}

theorem Intake.reconciled (h : Intake cl sid x es) : Reconciled cl sid es := by
  intro fields route n hm hn
  obtain ⟨rfl, hlen⟩ := h.heads fields route hm
  refine ⟨fun hr => h.buffered hr n (hlen n hn), fun hr => ?_⟩
  obtain ⟨-, hsum, hrest⟩ := h.streaming hr
  obtain ⟨hle, -, heach⟩ := hrest n (hlen n hn)
  exact ⟨by omega, heach⟩

/-- The fields of the request side. -/
structure RequestSide where
  headersDone : Bool
  isWsConnect : Bool
  reqStreaming : Bool
  contentLength : ℤ
  bodyReceived : ℕ
  body : Bytes
  endStreamSeen : Bool
  dispatched : Bool

def requestSide (x : Exchange) : RequestSide where
  headersDone := x.headersDone
  isWsConnect := x.isWsConnect
  reqStreaming := x.reqStreaming
  contentLength := x.contentLength
  bodyReceived := x.bodyReceived
  body := x.body
  endStreamSeen := x.endStreamSeen
  dispatched := x.dispatched

theorem Intake.quiet (h : Intake cl sid x es) (hx : x'.requestSide = x.requestSide)
    (hq : ∀ e ∈ evs, e.silent cl = true) : Intake cl sid x' (es ++ evs) := by
  simp only [requestSide, RequestSide.mk.injEq] at hx
  obtain ⟨e1, e2, e3, e4, e5, e6, e7, e8⟩ := hx
  have hroute : x'.route = x.route := by
    unfold route
    rw [e2, e3]
  have hmem : ∀ e, e.silent cl = false → e ∈ es ++ evs → e ∈ es := fun e he hm =>
    (List.mem_append.mp hm).resolve_right (fun h' => by rw [hq e h'] at he; cases he)
  refine ⟨fun hf => ?_, fun hf e he => ?_, fun fields r hm => ?_, fun hr n hn k hk => ?_, fun hr => ?_⟩
  · rw [e6, e5, e7, e8, e3, e2, e4]
    exact h.fresh (e1 ▸ hf)
  · exact (List.mem_append.mp he).elim (h.silent (e1 ▸ hf) e) (hq e)
  · rw [hroute, e4]
    exact h.heads fields r (hmem _ rfl hm)
  · exact h.buffered (hroute ▸ hr) n (e4 ▸ hn) k (hmem _ rfl hk)
  · rw [tally_append, tally_silent hq, e4, e5, e6, e7, e8]
    obtain ⟨h1, h2, h3⟩ := h.streaming (hroute ▸ hr)
    refine ⟨h1, h2, fun n hn => ?_⟩
    obtain ⟨h4, h5, h6⟩ := h3 n hn
    exact ⟨h4, h5, fun hc => (h6 hc).append_of
      (fun e he before => toldAt_silent (hc ▸ hq e he) before)⟩

theorem Intake.congr (h : Intake cl sid x es) (hx : x'.requestSide = x.requestSide) :
    Intake cl sid x' es := by
  have h' := h.quiet hx (fun e (he : e ∈ []) => by cases he)
  rwa [List.append_nil] at h'

theorem Intake.unstreamed (h : Intake cl sid x es)
    (hh' : x'.headersDone = true) (hr : x'.route = x.route) (hl : x'.contentLength = x.contentLength)
    (hs : x.route ≠ .streaming) (hev : ∀ e ∈ evs, ∀ fields r, e ≠ .head sid fields r)
    (hd : x.route = .buffered → ∀ n : ℕ, x.contentLength = n → ∀ k, .dispatched sid k ∈ evs → k = n) :
    Intake cl sid x' (es ++ evs) := by
  refine ⟨fun hf => ?_, fun hf => ?_, fun fields r hm => ?_, fun hb n hn k hk => ?_, fun hb => ?_⟩
  · rw [hh'] at hf
    cases hf
  · rw [hh'] at hf
    cases hf
  · rw [hr, hl]
    rcases List.mem_append.mp hm with hm | hm
    · exact h.heads fields r hm
    · exact absurd rfl (hev _ hm fields r)
  · rcases List.mem_append.mp hk with hk | hk
    · exact h.buffered (hr ▸ hb) n (hl ▸ hn) k hk
    · exact hd (hr ▸ hb) n (hl ▸ hn) k hk
  · exact absurd (hr ▸ hb) hs

theorem route_tunnel (h : x.isWsConnect = true) : x.route = .tunnel := by
  unfold route
  rw [if_pos h]

theorem route_eq_streaming : x.route = .streaming ↔ x.isWsConnect = false ∧ x.reqStreaming = true := by
  unfold route
  cases x.isWsConnect <;> cases x.reqStreaming <;> simp

theorem route_eq_buffered : x.route = .buffered ↔ x.isWsConnect = false ∧ x.reqStreaming = false := by
  unfold route
  cases x.isWsConnect <;> cases x.reqStreaming <;> simp

theorem Decides.spec (h : Decides sid x evs x') : x'.headersDone = x.headersDone ∧
    x'.route = x.route ∧ x'.contentLength = x.contentLength ∧
    (∀ e ∈ evs, ∀ fields r, e ≠ .head sid fields r) ∧
    (x.route = .buffered → ∀ n : ℕ, x.contentLength = n → ∀ k, .dispatched sid k ∈ evs → k = n) := by
  have hone : ∀ e ∈ [Event.dispatched sid x.body.length], ∀ fields r, e ≠ .head sid fields r := by
    intro e he fields r h'
    rw [List.mem_singleton.mp he] at h'
    cases h'
  cases h with
  | tunnel hw hd =>
    refine ⟨rfl, rfl, rfl, hone, fun hr => ?_⟩
    rw [route_tunnel hw] at hr
    cases hr
  | streamed hw hr hd hl =>
    refine ⟨rfl, rfl, rfl, hone, fun hb => ?_⟩
    rw [(route_eq_buffered.mp hb).2] at hr
    cases hr
  | buffered hw hr hd he hl =>
    refine ⟨rfl, rfl, rfl, hone, fun _ n hn k hk => ?_⟩
    have hk' : k = x.body.length := by
      have := List.mem_singleton.mp hk
      exact (Event.dispatched.inj this).2
    have := hl (by rw [hn]; exact Int.natCast_nonneg n)
    rw [hn] at this
    rw [hk']
    exact_mod_cast this
  | wait h => exact ⟨rfl, rfl, rfl, by simp, by simp⟩

theorem intake_new : Intake cl sid {} [.opened sid] where
  fresh _ := ⟨rfl, rfl, rfl, rfl, rfl, rfl, rfl⟩
  silent _ := by simp [Event.silent]
  heads _ _ h := by simp at h
  buffered _ _ _ _ h := by simp at h
  streaming h := by cases h

theorem Intake.head (h : Intake cl sid x es) (hh : x.headersDone = false) {len : ℤ}
    (hf : x.HeadFields fields len) (isWs isHead fin streaming : Bool)
    (hd : Decides sid (x.headed len isWs isHead fin streaming) evs x') :
    Intake cl sid x' (es ++ .head sid fields (x.headed len isWs isHead fin streaming).route :: evs) := by
  obtain ⟨hbody, hrecv, hend, hdisp, hstr, hws, hlen⟩ := h.fresh hh
  have hsilent := h.silent hh
  obtain ⟨d1, d2, d3, d4, d5⟩ := hd.spec
  refine ⟨fun hf' => ?_, fun hf' => ?_, fun f r hm => ?_, fun hb n hn k hk => ?_, fun hs => ?_⟩
  · rw [d1] at hf'
    cases hf'
  · rw [d1] at hf'
    cases hf'
  · rw [d2, d3]
    rcases List.mem_append.mp hm with hm | hm
    · exact absurd hm (silent_head hsilent sid f r)
    · rcases List.mem_cons.mp hm with hm | hm
      · obtain ⟨-, rfl, rfl⟩ := Event.head.inj hm
        exact ⟨rfl, fun n hn => hn.contentLength hf hlen⟩
      · exact absurd rfl (d4 _ hm f r)
  · rcases List.mem_append.mp hk with hk | hk
    · exact absurd hk (silent_dispatched hsilent sid k)
    · rcases List.mem_cons.mp hk with hk | hk
      · cases hk
      · exact d5 (d2 ▸ hb) n (d3 ▸ hn) k hk
  · rw [d2] at hs
    obtain ⟨hw, hr⟩ := route_eq_streaming.mp hs
    cases hd with
    | tunnel hw' hd' =>
      rw [hw'] at hw
      cases hw
    | buffered hw' hr' hd' he' hl' =>
      rw [hr'] at hr
      cases hr
    | wait hwait =>
      rcases hwait with h' | ⟨-, h', -⟩
      · exact absurd (hdisp.symm.trans h') (by decide)
      · rw [h'] at hr
        cases hr
    | streamed hw' hr' hd' hl' =>
      have hnone : ∀ before e after, [Event.head sid fields (x.headed len isWs isHead fin
          streaming).route, .dispatched sid (x.headed len isWs isHead fin streaming).body.length] =
            before ++ e :: after → ∀ n, ToldAt sid n (es ++ before) e := by
        intro before e after hsplit n cb data he
        have : e ∈ [Event.head sid fields (x.headed len isWs isHead fin streaming).route,
            .dispatched sid (x.headed len isWs isHead fin streaming).body.length] := by
          rw [hsplit]
          simp
        rw [he] at this
        simp at this
      refine ⟨rfl, ?_, fun n hn => ⟨?_, fun he => ?_, ?_⟩⟩
      · rw [tally_append, tally_silent hsilent, tally_cons, tally_cons, tally_nil]
        change _ + x.body.length = x.bodyReceived
        rw [hbody, hrecv]
        rfl
      · change x.bodyReceived ≤ n
        rw [hrecv]
        exact Nat.zero_le n
      · have := hl' he (by
          change (0 : ℤ) ≤ len
          rw [show len = n from hn]
          exact Int.natCast_nonneg n)
        change (x.bodyReceived : ℤ) = len at this
        rw [show len = n from hn] at this
        exact_mod_cast this
      · exact fun hc => (each_silent hsilent hc).append
          (fun before e after hsplit => hnone before e after hsplit n)

theorem Intake.streamed (h : Intake cl sid x es) (hh : x.headersDone = true)
    (hr : x.reqStreaming = true) (data : Bytes) (fin : Bool)
    (hle : 0 ≤ x.contentLength → ((x.bodyReceived + data.length : ℕ) : ℤ) ≤ x.contentLength)
    (heq : (fin || x.endStreamSeen) = true → 0 ≤ x.contentLength →
      ((x.bodyReceived + data.length : ℕ) : ℤ) = x.contentLength) :
    Intake cl sid { x with
      bodyReceived := x.bodyReceived + data.length, body := x.body ++ data
      endStreamSeen := fin || x.endStreamSeen } es := by
  refine ⟨fun hf => ?_, fun hf => ?_, h.heads, fun hb => ?_, fun hs => ?_⟩
  · exact absurd (hh.symm.trans hf) (by decide)
  · exact absurd (hh.symm.trans hf) (by decide)
  · exact absurd (hr.symm.trans (route_eq_buffered.mp hb).2) (by decide)
  · obtain ⟨h1, h2, h3⟩ := h.streaming hs
    refine ⟨h1, ?_, fun n hn => ?_⟩
    · rw [List.length_append, ← h2, Nat.add_assoc]
    · have hn' : x.contentLength = n := hn
      have hpos : 0 ≤ x.contentLength := by
        rw [hn']
        exact Int.natCast_nonneg n
      rw [hn'] at hpos hle heq
      refine ⟨by exact_mod_cast hle hpos, fun he => by exact_mod_cast heq he hpos, (h3 n hn').2.2⟩

theorem Intake.deliver (h : Intake cl sid x es) {cb : ℕ} {last : Bool}
    (hl : last = true → x.endStreamSeen = true) :
    Intake cl sid { x with body := [] } (es ++ [.fired (.body sid cb x.body last)]) := by
  have hnew : ∀ e, e ∈ es ++ [.fired (.body sid cb x.body last)] →
      (∀ cb data last, e ≠ .fired (.body sid cb data last)) → e ∈ es := by
    intro e he hne
    rcases List.mem_append.mp he with he | he
    · exact he
    · exact absurd (List.mem_singleton.mp he) (hne _ _ _)
  refine ⟨fun hf => ?_, fun hf e he => ?_, fun fields r hm => ?_, fun hb n hn k hk => ?_, fun hs => ?_⟩
  · exact ⟨rfl, (h.fresh hf).2⟩
  · obtain ⟨hbody, -, hend, -⟩ := h.fresh hf
    rcases List.mem_append.mp he with he | he
    · exact h.silent hf e he
    · have hlast : last = false := by
        cases last with
        | false => rfl
        | true => exact absurd ((hl rfl).symm.trans hend) (by decide)
      rw [List.mem_singleton.mp he, hbody, hlast]
      rfl
  · exact h.heads fields r (hnew _ hm (fun _ _ _ => by simp))
  · exact h.buffered hb n hn k (hnew _ hk (fun _ _ _ => by simp))
  · obtain ⟨h1, h2, h3⟩ := h.streaming hs
    refine ⟨h1, ?_, fun n hn => ?_⟩
    · rw [tally_append, tally_cons, tally_nil]
      simp only [bodyBytes, if_true, List.length_nil]
      exact h2
    · obtain ⟨h4, h5, h6⟩ := h3 n hn
      refine ⟨h4, h5, fun hc => each_snoc.mpr ⟨h6 hc, fun cb' data he _ => ?_⟩⟩
      obtain ⟨-, -, rfl, rfl⟩ := Callback.body.inj (Event.fired.inj he)
      rw [h2]
      exact h5 (hl rfl)

theorem EndsBody.intake (he : EndsBody x x') (h : Intake cl sid x es) :
    Intake cl sid x' es ∧ x'.endStreamSeen = true := by
  cases he with
  | data hh he hw hr data hl =>
    exact ⟨h.streamed hh hr data true (fun hp => (hl hp).le) (fun _ => hl), rfl⟩
  | trailers hh he hr hl =>
    have h' := h.streamed hh hr [] true (fun hp => (hl hp).le) (fun _ hp => hl hp)
    simp only [List.length_nil, Nat.add_zero, List.append_nil, Bool.true_or] at h'
    exact ⟨h', rfl⟩

theorem block_silent {fin : Bool} (h : Block sid fin evs) : ∀ e ∈ evs, e.silent cl = true :=
  h.forall (fun _ _ => rfl) (fun _ _ => rfl)

theorem dataEvents_silent (chunks : List Bytes) :
    ∀ e ∈ dataEvents sid chunks, e.silent cl = true := by
  intro e he
  obtain ⟨p, -, rfl⟩ := List.mem_map.mp he
  rfl

/-- **Every step keeps the request side in order.** -/
theorem Act.intake {reg : Call → Exchange → Prop} (ha : Act sid reg x evs x')
    (h : Intake cl sid x es) : Intake cl sid x' (es ++ evs) := by
  cases ha with
  | informational hr hb => exact h.quiet rfl (block_silent hb)
  | sendHead hr hh len hb => exact h.quiet rfl (silent_cons rfl (block_silent hb))
  | write hp hh hd hc hq => exact h.quiet rfl (silent_cons rfl (dataEvents_silent _))
  | respond hr hh hd fields hb =>
    exact h.quiet rfl (silent_cons rfl (silent_append (block_silent hb) (by simp [Event.silent])))
  | wsAccept hw hr hn hb =>
    have hdone : x.headersDone = true := by
      by_contra hf
      rw [Bool.not_eq_true] at hf
      exact absurd ((h.fresh hf).2.2.2.2.2.1.symm.trans hw) (by decide)
    have hsilent : ∀ e ∈ evs, e.silent cl = true := block_silent hb
    refine h.unstreamed hdone rfl rfl ?_ (fun e he fields r heq => ?_) (fun _ _ _ k hk => ?_)
    · rw [route_tunnel hw]
      decide
    · rw [heq] at he
      exact silent_head hsilent sid fields r he
    · exact absurd hk (silent_dispatched hsilent sid k)
  | head hh hf isWs isHead fin streaming hs hd => exact h.head hh hf isWs isHead fin streaming hd
  | trailers hh hn hd =>
    obtain ⟨d1, d2, d3, d4, d5⟩ := hd.spec
    refine h.unstreamed (d1.trans hh) d2 d3 (fun hs => ?_) d4 d5
    rw [(route_eq_streaming.mp hs).2, (h.streaming hs).1] at hn
    cases hn
  | streamed hh he hw hr data hl =>
    rw [List.append_nil]
    exact h.streamed hh hr data false hl (fun h' => by simp [he] at h')
  | bodyEnd he =>
    rw [List.append_nil]
    exact (he.intake h).1
  | told he hcb => exact (he.intake h).1.deliver (fun _ => (he.intake h).2)
  | buffered hh he hw hr hc data =>
    refine h.unstreamed hh rfl rfl (fun hs => ?_) (by simp) (by simp)
    exact absurd ((route_eq_streaming.mp hs).2.symm.trans hr) (by decide)
  | bufferedEnd hh he hw hr hc hd data hl =>
    refine h.unstreamed hh rfl rfl (fun hs => ?_) (by simp) (fun _ n hn k hk => ?_)
    · exact absurd ((route_eq_streaming.mp hs).2.symm.trans hr) (by decide)
    · have hk' : k = (x.body ++ data).length :=
        (Event.dispatched.inj (List.mem_singleton.mp hk)).2
      have := hl (by rw [hn]; exact Int.natCast_nonneg n)
      rw [hn] at this
      rw [hk']
      exact_mod_cast this
  | bufferedLate hh he hw hr hc hd data =>
    refine h.unstreamed hh rfl rfl (fun hs => ?_) (by simp) (by simp)
    exact absurd ((route_eq_streaming.mp hs).2.symm.trans hr) (by decide)
  | tunnelData hh he hw hc data fin =>
    refine h.unstreamed hh rfl rfl ?_ (by simp) (by simp)
    rw [route_tunnel hc]
    decide
  | @sinkTold cb manualAck hk he =>
    have h1 : Intake cl sid { x with onBodyCb := some cb } (es ++ [.sinkSet sid cb]) :=
      h.quiet rfl (by simp [Event.silent])
    have h2 : Intake cl sid { x with onBodyCb := some cb, body := [] }
        ((es ++ [.sinkSet sid cb]) ++ [.fired (.body sid cb x.body true)]) :=
      h1.deliver (fun _ => he)
    rw [List.append_assoc] at h2
    exact h2
  | deliver hcb hb => exact h.deliver (by simp)
  | _ => exact h.quiet rfl (by simp [Event.silent])

theorem Finish.requestSide (h : Finish x x') : x'.requestSide = x.requestSide := by
  cases h with
  | queue | head => rfl

/-- What holds along a run. -/
structure Reconciles (cl : Bool) (sid : ℕ) (s : State) (es : List Event) : Prop where
  idle : s.life = .idle → es = [] ∧ s.owed = []
  live : ∀ x, s.life = .live x → Intake cl sid x es ∧
    ∀ cb ∈ s.owed, (Event.fired cb).silent cl = true
  gone : s.life = .gone → Reconciled cl sid es ∧ ∀ cb ∈ s.owed, (Event.fired cb).Parting cl sid es

theorem reconciles_live {ds : List Callback} (h : Intake cl sid x es)
    (ho : ∀ cb ∈ ds, (Event.fired cb).silent cl = true) : Reconciles cl sid ⟨.live x, ds⟩ es :=
  ⟨fun h => (by cases h), fun _ hy => Life.live.inj hy ▸ ⟨h, ho⟩, fun h => by cases h⟩

theorem reconciles_gone {ds : List Callback} (h : Reconciled cl sid es)
    (ho : ∀ cb ∈ ds, (Event.fired cb).Parting cl sid es) : Reconciles cl sid ⟨.gone, ds⟩ es :=
  ⟨fun h => (by cases h), fun _ h => (by cases h), fun _ => ⟨h, ho⟩⟩

theorem silent_drainDebt {cb : Callback} (h : cb ∈ x.drainDebt sid) :
    (Event.fired cb).silent cl = true := by
  obtain ⟨k, -, rfl⟩ := Option.map_eq_some_iff.mp (Option.mem_toList.mp h)
  rfl

theorem parting_debts {cb : Callback} (h : cb ∈ x.debts sid) (hr : .removed sid ∈ es) :
    (Event.fired cb).Parting cl sid es := by
  rcases List.mem_append.mp h with h | h
  · rcases List.mem_append.mp h with h | h
    · split_ifs at h
      · rw [List.mem_singleton.mp h]
        exact .inl rfl
      · cases h
    · obtain ⟨k, -, rfl⟩ := Option.map_eq_some_iff.mp (Option.mem_toList.mp h)
      exact .inr ⟨hr, k, rfl⟩
  · obtain ⟨k, -, rfl⟩ := Option.map_eq_some_iff.mp (Option.mem_toList.mp h)
    exact .inl rfl

theorem End.reconciled (he : End sid x evs) (h : Intake cl sid x es) :
    Reconciled cl sid (es ++ (evs ++ [.removed sid])) := by
  have hrem : ∀ e ∈ [Event.removed sid], e.silent cl = true := by simp [Event.silent]
  have hquiet : (∀ e ∈ evs, e.silent cl = true) →
      Reconciled cl sid (es ++ (evs ++ [.removed sid])) :=
    fun hq => h.reconciled.append (fun e he => .inl (silent_append hq hrem e he))
  cases he with
  | @head fields len hh hf route =>
    have hsilent := h.silent hh
    intro f r n hm hn
    refine ⟨fun _ k hk => ?_, fun _ => ⟨?_, fun hc => ?_⟩⟩
    · rcases List.mem_append.mp hk with hk | hk
      · exact absurd hk (silent_dispatched hsilent sid k)
      · simp at hk
    · rw [tally_append, tally_silent hsilent]
      simp [bodyBytes]
    · refine (each_silent hsilent hc).append_of ?_
      intro e he before cb data heq
      rw [heq] at he
      simp at he
  | answer hr len hl hb => exact hquiet (silent_cons rfl (block_silent hb))
  | finishTrailers hp hh hl hb hblk | trailers hw hl hb hblk => exact hquiet (block_silent hblk)
  | _ => exact hquiet (by simp [Event.silent])

theorem Run.reconciles {reg : Call → Exchange → Prop} {s t : State} {es0 : List Event}
    (h : Run reg cl sid s es t) (h0 : Reconciles cl sid s es0) :
    Reconciles cl sid t (es0 ++ es) := by
  induction h with
  | refl =>
    rw [List.append_nil]
    exact h0
  | skip _ ih =>
    obtain ⟨he, rfl⟩ := ih.idle rfl
    rw [he]
    exact reconciles_gone (reconciled_silent (by simp)) (by simp)
  | opened _ ih =>
    obtain ⟨he, rfl⟩ := ih.idle rfl
    rw [← List.append_assoc, he]
    exact reconciles_live intake_new (by simp)
  | act _ ha ih =>
    obtain ⟨hi, ho⟩ := ih.live _ rfl
    rw [← List.append_assoc]
    exact reconciles_live (ha.intake hi) ho
  | finish _ ha ih =>
    obtain ⟨hi, ho⟩ := ih.live _ rfl
    exact reconciles_live (hi.congr ha.requestSide)
      (List.forall_mem_append.mpr ⟨fun _ => silent_drainDebt, ho⟩)
  | ended _ ha ih =>
    obtain ⟨hi, ho⟩ := ih.live _ rfl
    rw [← List.append_assoc]
    refine reconciles_gone (ha.reconciled hi) (fun cb hcb => ?_)
    rcases List.mem_append.mp hcb with hcb | hcb
    · exact parting_debts hcb (by simp)
    · exact .inl (ho cb hcb)
  | dropped _ hw ih =>
    obtain ⟨hi, ho⟩ := ih.live _ rfl
    rw [← List.append_assoc]
    exact reconciles_gone (hi.reconciled.append (List.forall_mem_singleton.mpr (.inl rfl)))
      (fun cb hcb => .inl (ho cb hcb))
  | @fired es l cb ds _ ih =>
    have hmem : ∀ e ∈ [Event.fired cb].filter (fun e => e.stream? = some sid), e = .fired cb :=
      fun e he => List.mem_singleton.mp (List.mem_of_mem_filter he)
    refine ⟨fun h => ?_, fun y h => ?_, fun h => ?_⟩
    · exact absurd (ih.idle h).2 (by simp)
    · obtain ⟨hi, ho⟩ := ih.live y h
      rw [← List.append_assoc]
      refine ⟨hi.quiet rfl (fun e he => ?_), fun cb' h' => ho cb' (List.mem_cons_of_mem _ h')⟩
      rw [hmem e he]
      exact ho cb List.mem_cons_self
    · obtain ⟨hr, ho⟩ := ih.gone h
      rw [← List.append_assoc]
      refine ⟨hr.append (fun e he => ?_), fun cb' h' => ?_⟩
      · rw [hmem e he]
        exact ho cb List.mem_cons_self
      · exact (ho cb' (List.mem_cons_of_mem _ h')).imp_right
          (fun h => ⟨List.mem_append_left _ h.1, h.2⟩)
  | forgotten _ hc ih =>
    refine ⟨fun h => ?_, fun y h => ?_, fun h => ?_⟩
    · exact absurd (ih.idle h).2 (by simp)
    · obtain ⟨hi, ho⟩ := ih.live y h
      exact ⟨hi, fun cb' h' => ho cb' (List.mem_cons_of_mem _ h')⟩
    · obtain ⟨hr, ho⟩ := ih.gone h
      exact ⟨hr, fun cb' h' => ho cb' (List.mem_cons_of_mem _ h')⟩
  | wsTaken _ hc ih =>
    obtain ⟨hi, ho⟩ := ih.live _ rfl
    exact reconciles_live (hi.congr rfl) ho

end Exchange

/-! ### Declared lengths over runs -/

theorem permits_anyReg (ok : Call → Conn → Prop) : Permits ok (fun _ _ => True) :=
  ⟨fun _ _ => trivial, fun _ _ => trivial⟩

theorem reconciles_idle (cl : Bool) (sid : ℕ) : Exchange.Reconciles cl sid ⟨.idle, []⟩ [] :=
  ⟨fun _ => ⟨rfl, rfl⟩, fun _ h => (by cases h), fun h => by cases h⟩

theorem Exchange.Intake.weaken {x : Exchange} (h : Exchange.Intake false sid x es) :
    Exchange.Intake true sid x es where
  fresh := h.fresh
  silent hf e he := by
    have := h.silent hf e he
    unfold Event.silent at this ⊢
    split <;> simp_all
  heads := h.heads
  buffered := h.buffered
  streaming hs := by
    obtain ⟨h1, h2, h3⟩ := h.streaming hs
    exact ⟨h1, h2, fun n hn => ⟨(h3 n hn).1, (h3 n hn).2.1, fun hc => by cases hc⟩⟩

theorem Exchange.Reconciles.parted {l : Exchange.Life}
    (h : Exchange.Reconciles false sid ⟨l, []⟩ es) :
    Exchange.Reconciles true sid ⟨l.parted, l.farewells sid⟩ es := by
  cases l with
  | idle => exact ⟨fun _ => ⟨(h.idle rfl).1, rfl⟩, fun _ h => (by cases h), fun h => by cases h⟩
  | live x =>
    exact reconciles_live ((h.live x rfl).1.weaken.congr rfl) (List.forall_mem_append.mpr
      ⟨List.forall_mem_map.mpr fun _ _ => rfl, List.forall_mem_map.mpr fun _ _ => rfl⟩)
  | gone =>
    refine reconciles_gone (fun fields route n hm hn => ?_) (by simp [Life.farewells])
    obtain ⟨h1, h2⟩ := (h.gone rfl).1 fields route n hm hn
    exact ⟨h1, fun hr => ⟨(h2 hr).1, fun hc => by cases hc⟩⟩

theorem Exchange.Reconciles.reconciled {cl : Bool} {s : Exchange.State}
    (h : Exchange.Reconciles cl sid s es) : Reconciled cl sid es := by
  obtain ⟨l, ds⟩ := s
  cases l with
  | idle =>
    rw [(h.idle rfl).1]
    exact reconciled_silent (by simp)
  | live x => exact (h.live x rfl).1.reconciled
  | gone => exact (h.gone rfl).1

theorem mem_history {c : Conn} (he : e.stream? = some sid) : e ∈ c.history sid ↔ e ∈ c.journal := by
  simp [Conn.history, List.mem_filter, he]

theorem tally_about (sid : ℕ) (j : List Event) :
    tally (bodyBytes sid) (j.filter (fun e => e.stream? = some sid)) = tally (bodyBytes sid) j := by
  refine tally_filter (fun e he => ?_) j
  unfold bodyBytes
  split
  · next s cb data last =>
    rw [if_neg]
    rintro rfl
    simp [Event.stream?] at he
  · rfl

/-- **Declared lengths are met.**  A request that declares a length is handed over, if it is
buffered, with exactly that many bytes.  If it is streamed its sink never gets more, the close of
the connection included, and every call that tells it the end while its stream is in the table,
before the connection is closed, completes exactly that many. -/
theorem content_length_reconciled {W : World} {cfg : Config} {c : Conn}
    (h : Reachable (W.hooks n) anyCall cfg c) {route : Route}
    (hh : .head sid fields route ∈ c.journal) {len : ℕ} (hd : Declares fields len) :
    (route = .buffered →
      ∀ k, .dispatched sid k ∈ (closeConn (W.hooks n) c).journal → k = len) ∧
    (route = .streaming →
      tally (bodyBytes sid) (closeConn (W.hooks n) c).journal ≤ len ∧
      ∀ before cb data after, c.journal = before ++ .fired (.body sid cb data true) :: after →
        .removed sid ∉ before → tally (bodyBytes sid) before + data.length = len) := by
  have hreg := permits_anyReg anyCall
  have hopen := ((h.exchange_run (obeys_anyCall W) hreg).2 sid).reconciles (reconciles_idle false sid)
  rw [List.nil_append] at hopen
  obtain ⟨es, he, hrun⟩ := h.closing_run (obeys_anyCall W) hreg sid
  have hclosed := (hrun.reconciles hopen.parted).reconciled
  rw [← he] at hclosed
  have hh₀ : Event.head sid fields route ∈ c.history sid := (mem_history rfl).mpr hh
  have hh₁ : Event.head sid fields route ∈ (closeConn (W.hooks n) c).history sid := by
    rw [he]
    exact List.mem_append_left _ hh₀
  obtain ⟨hbuf, hstr⟩ := hclosed fields route len hh₁ hd
  refine ⟨fun hr k hk => hbuf hr k ((mem_history rfl).mpr hk), fun hr => ⟨?_, ?_⟩⟩
  · rw [← tally_about]
    exact (hstr hr).1
  · intro before cb data after hj hno
    have heach := ((hopen.reconciled fields route len hh₀ hd).2 hr).2 rfl
    have htold := heach.of_filter hj (by simp [Event.stream?]) cb data rfl
      (fun hm => hno (List.mem_of_mem_filter hm))
    rwa [tally_about] at htold

/-- The field block of a `POST /` that declares three bytes. -/
def uploadBlock : Bytes := postBlock ++ [0x0f, 0x0d, 0x01, 0x33]

/-- Its fields. -/
def uploadFields : Fields :=
  [(ascii ":method", ascii "POST"), (ascii ":scheme", ascii "https"), (ascii ":path", ascii "/"),
    (ascii ":authority", ascii "a"), (ascii "content-length", ascii "3")]

theorem uploadFields_declares : Declares uploadFields 3 :=
  ⟨by decide, by decide⟩

/-- An upload whose sink is registered on the headers. -/
def begunUpload : List Input :=
  feedInputs [.headers 1 uploadBlock false true] ++ [.call (.onBody 1 7 false)]

/-- The same, with its three bytes. -/
def wholeUpload : List Input :=
  begunUpload ++ [.bytes (Frame.data 1 [1, 2, 3] true).bytes, .feed]

/-- The sink gets the three bytes and the end. -/
theorem content_length_reconciled_wholeUpload : let c := runOn true wholeUpload
    let c' := closeConn ((idleWorld true).hooks 0) c
    .fired (.body 1 7 [1, 2, 3] true) ∈ c.journal ∧
    (Route.streaming = .buffered → ∀ k, .dispatched 1 k ∈ c'.journal → k = 3) ∧
    (Route.streaming = .streaming →
      tally (bodyBytes 1) c'.journal ≤ 3 ∧
      ∀ before cb data after, c.journal = before ++ .fired (.body 1 cb data true) :: after →
        .removed 1 ∉ before → tally (bodyBytes 1) before + data.length = 3) :=
  ⟨by decide +kernel, content_length_reconciled
    (runOn_reachable true wholeUpload (fun _ _ _ => trivial)) (by decide +kernel)
    uploadFields_declares⟩

/-- The connection is closed before any byte of the upload arrived: its sink is told the end, with
its stream still in the table. -/
theorem begunUpload_closed : let c := runOn true begunUpload
    let c' := closeConn ((idleWorld true).hooks 0) c
    Reachable ((idleWorld true).hooks 0) anyCall smallConfig c ∧ Declares uploadFields 3 ∧
      .head 1 uploadFields .streaming ∈ c.journal ∧ .fired (.body 1 7 [] true) ∈ c'.journal ∧
      .removed 1 ∉ c'.journal ∧ (c'.stream? 1).isSome = true ∧
      tally (bodyBytes 1) c'.journal = 0 :=
  ⟨runOn_reachable true begunUpload (fun _ _ _ => trivial), uploadFields_declares,
    by decide +kernel⟩

end Vortex.Http2
