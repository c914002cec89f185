import Vortex.Http2.BodyLength

/-! # The bytes of a response

`sentBytes` are the payloads of the DATA frames sent on a stream and `acceptedBytes` the body bytes
the codec took in, both read off the journal.  While the stream is in the table the one followed by
what is queued is the other; the frame that ends the stream completes them, comes once, and is the
last HEADERS or DATA frame on its stream.  An aborted response has no such frame, and a response
that declared a length has one only if it was met, unless it answers a HEAD request.

The argument is about a single exchange (`Exchange.Responds`), so that nothing the other streams do
can interfere with it.  Streams that carry a WebSocket are not answered, and their END_STREAM is
left to the WebSocket. -/

namespace Vortex.Http2

open FieldRules

/-! ### Bytes sent and taken in -/

/-- The payload of a DATA frame on the stream. -/
def sentPayload (sid : ℕ) : Event → Bytes
  | .sent (.data s p _) => if s = sid then p else []
  | _ => []

/-- What the codec took in for the stream. -/
def acceptedPayload (sid : ℕ) : Event → Bytes
  | .accepted s p => if s = sid then p else []
  | _ => []

def sentBytes (sid : ℕ) (j : List Event) : Bytes := j.flatMap (sentPayload sid)

def acceptedBytes (sid : ℕ) (j : List Event) : Bytes := j.flatMap (acceptedPayload sid)

/-- A HEADERS or DATA frame on the stream. -/
def Event.carries (sid : ℕ) : Event → Bool
  | .sent (.headers s _ _ _) => s == sid
  | .sent (.data s _ _) => s == sid
  | _ => false

/-- A frame with END_STREAM on the stream. -/
def Event.endsStream (sid : ℕ) : Event → Bool
  | .sent (.headers s _ es _) => s == sid && es
  | .sent (.data s _ es) => s == sid && es
  | _ => false

/-- Neither END_STREAM nor DATA, and nothing taken in, answered or aborted. -/
def Event.plain (sid : ℕ) : Event → Bool
  | .sent (.headers s _ es _) => !(s == sid && es)
  | .sent (.data s _ _) => !(s == sid)
  | .accepted s _ | .answered s _ _ | .aborted s => !(s == sid)
  | _ => true

/-- Everything that was taken in is sent with the frame `e`, which is the only one to end the
stream and the last to carry anything on it. -/
structure Concludes (sid : ℕ) (j before : List Event) (e : Event) (after : List Event) :
    Prop where
  first : ∀ f ∈ before, f.endsStream sid = false
  last : ∀ f ∈ after, f.carries sid = false
  complete : sentBytes sid (before ++ [e]) = acceptedBytes sid j
  kept : .aborted sid ∉ j
  length : ∀ d, .answered sid d false ∈ j → 0 ≤ d.length →
    ((acceptedBytes sid j).length : ℤ) = d.length

/-- An answered stream is ended properly, if it is ended. -/
def EndsProperly (sid : ℕ) (j : List Event) : Prop :=
  ∀ len head, .answered sid len head ∈ j → ∀ before e after, j = before ++ e :: after →
    e.endsStream sid = true → Concludes sid j before e after

section Bytes

variable {sid : ℕ} {es evs : List Event} {e : Event}

theorem sentBytes_append : sentBytes sid (es ++ evs) = sentBytes sid es ++ sentBytes sid evs :=
  List.flatMap_append

theorem acceptedBytes_append :
    acceptedBytes sid (es ++ evs) = acceptedBytes sid es ++ acceptedBytes sid evs :=
  List.flatMap_append

theorem plain_payloads (h : e.plain sid = true) :
    sentPayload sid e = [] ∧ acceptedPayload sid e = [] ∧ e.endsStream sid = false := by
  cases e with
  | sent f =>
    cases f with
    | headers s frag es eh => exact ⟨rfl, rfl, (Bool.not_eq_true' _).mp h⟩
    | data s p es =>
      have hne : s ≠ sid := by simpa [Event.plain] using h
      exact ⟨if_neg hne, rfl, by simp [Event.endsStream, hne]⟩
    | _ => exact ⟨rfl, rfl, rfl⟩
  | accepted s p =>
    have hne : s ≠ sid := by simpa [Event.plain] using h
    exact ⟨rfl, if_neg hne, rfl⟩
  | _ => exact ⟨rfl, rfl, rfl⟩

theorem sentBytes_plain (h : ∀ e ∈ evs, e.plain sid = true) : sentBytes sid evs = [] :=
  List.flatMap_eq_nil_iff.mpr (fun e he => (plain_payloads (h e he)).1)

theorem acceptedBytes_plain (h : ∀ e ∈ evs, e.plain sid = true) : acceptedBytes sid evs = [] :=
  List.flatMap_eq_nil_iff.mpr (fun e he => (plain_payloads (h e he)).2.1)

theorem answered_of_plain (h : ∀ e ∈ evs, e.plain sid = true) (len : Declared) (head : Bool) :
    .answered sid len head ∉ evs := by
  intro hm
  simpa [Event.plain] using h _ hm

theorem aborted_of_plain (h : ∀ e ∈ evs, e.plain sid = true) : .aborted sid ∉ evs := by
  intro hm
  simpa [Event.plain] using h _ hm

theorem flatMap_about {f : Event → Bytes} (hf : ∀ e, e.stream? ≠ some sid → f e = [])
    (j : List Event) : (j.filter (fun e => e.stream? = some sid)).flatMap f = j.flatMap f := by
  induction j with
  | nil => rfl
  | cons e j ih =>
    by_cases he : e.stream? = some sid
    · rw [List.filter_cons_of_pos (by simpa using he), List.flatMap_cons, List.flatMap_cons, ih]
    · rw [List.filter_cons_of_neg (by simpa using he), List.flatMap_cons, hf e he, ih,
        List.nil_append]

theorem sentBytes_about (j : List Event) :
    sentBytes sid (j.filter (fun e => e.stream? = some sid)) = sentBytes sid j := by
  refine flatMap_about (fun e he => ?_) j
  unfold sentPayload
  split
  · exact if_neg (fun h => he (congrArg some h))
  · rfl

theorem acceptedBytes_about (j : List Event) :
    acceptedBytes sid (j.filter (fun e => e.stream? = some sid)) = acceptedBytes sid j := by
  refine flatMap_about (fun e he => ?_) j
  unfold acceptedPayload
  split
  · exact if_neg (fun h => he (congrArg some h))
  · rfl

theorem carries_about (h : e.carries sid = true) : e.stream? = some sid := by
  unfold Event.carries at h
  split at h
  · exact congrArg some (beq_iff_eq.mp h)
  · exact congrArg some (beq_iff_eq.mp h)
  · cases h

theorem endsStream_carries (h : e.endsStream sid = true) : e.carries sid = true := by
  unfold Event.endsStream at h
  split at h
  · exact (Bool.and_eq_true_iff.mp h).1
  · exact (Bool.and_eq_true_iff.mp h).1
  · cases h

theorem endsProperly_about {j : List Event}
    (h : EndsProperly sid (j.filter (fun e => e.stream? = some sid))) : EndsProperly sid j := by
  intro len head ha before e after hj he
  have hmem : ∀ {f : Event} {l : List Event}, f ∈ l → f.stream? = some sid →
      f ∈ l.filter (fun e => e.stream? = some sid) :=
    fun hf hs => List.mem_filter.mpr ⟨hf, by simpa using hs⟩
  have hse : e.stream? = some sid := carries_about (endsStream_carries he)
  have hj' : j.filter (fun e => e.stream? = some sid) =
      before.filter (fun e => e.stream? = some sid) ++
        e :: after.filter (fun e => e.stream? = some sid) := by
    rw [hj, List.filter_append, List.filter_cons_of_pos (by simpa using hse)]
  obtain ⟨h1, h2, h3, h4, h5⟩ := h len head (hmem ha rfl) _ e _ hj' he
  refine ⟨fun f hf => ?_, fun f hf => ?_, ?_, fun hm => h4 (hmem hm rfl), fun len hm h0 => ?_⟩
  · by_contra hne
    rw [Bool.not_eq_false] at hne
    exact absurd hne (by simp [h1 f (hmem hf (carries_about (endsStream_carries hne)))])
  · by_contra hne
    rw [Bool.not_eq_false] at hne
    exact absurd hne (by simp [h2 f (hmem hf (carries_about hne))])
  · rw [sentBytes_append, sentBytes_about, acceptedBytes_about, ← sentBytes_append] at h3
    exact h3
  · have := h5 len (hmem hm rfl) h0
    rwa [acceptedBytes_about] at this

theorem endsProperly_open (h : ∀ e ∈ es, e.endsStream sid = false) : EndsProperly sid es := by
  intro len head _ before e after hj he
  have := h e (by rw [hj]; simp)
  rw [he] at this
  cases this

theorem EndsProperly.append (h : EndsProperly sid es) (hp : ∀ e ∈ evs, e.plain sid = true)
    (hc : ∀ e ∈ evs, e.carries sid = false) : EndsProperly sid (es ++ evs) := by
  have hmem : ∀ len head, .answered sid len head ∈ es ++ evs → .answered sid len head ∈ es :=
    fun len head hm => (List.mem_append.mp hm).resolve_right (answered_of_plain hp len head)
  have hacc : acceptedBytes sid (es ++ evs) = acceptedBytes sid es := by
    rw [acceptedBytes_append, acceptedBytes_plain hp, List.append_nil]
  intro len head ha before e after hj he
  rcases List.append_eq_append_iff.mp hj with ⟨l, hl, hk⟩ | ⟨l, hl, hk⟩
  · have hm : e ∈ evs := by
      rw [hk]
      simp
    rw [(plain_payloads (hp e hm)).2.2] at he
    cases he
  · cases l with
    | nil =>
      rw [List.nil_append] at hk
      have hm : e ∈ evs := by
        rw [← hk]
        simp
      rw [(plain_payloads (hp e hm)).2.2] at he
      cases he
    | cons e' l =>
      rw [List.cons_append, List.cons.injEq] at hk
      obtain ⟨rfl, rfl⟩ := hk
      obtain ⟨h1, h2, h3, h4, h5⟩ := h len head (hmem len head ha) before e l hl he
      refine ⟨h1, fun f hf => ?_, h3.trans hacc.symm, fun hm => ?_, fun len hm h0 => ?_⟩
      · exact (List.mem_append.mp hf).elim (h2 f) (hc f)
      · exact (List.mem_append.mp hm).elim h4 (aborted_of_plain hp)
      · rw [hacc]
        exact h5 len (hmem len false hm) h0

theorem endsProperly_end (h : ∀ len head, .answered sid len head ∈ es ++ e :: evs →
    Concludes sid (es ++ e :: evs) es e evs) : EndsProperly sid (es ++ e :: evs) := by
  intro len head ha before e' after hj he
  have hc := h len head ha
  have hafter : ∀ f ∈ evs, f.endsStream sid = false := by
    intro f hf
    by_contra hne
    rw [Bool.not_eq_false] at hne
    exact absurd (endsStream_carries hne) (by simp [hc.last f hf])
  have hsame : before = es → Concludes sid (es ++ e :: evs) before e' after := by
    rintro rfl
    obtain ⟨rfl, rfl⟩ := List.cons.inj (List.append_cancel_left hj)
    exact hc
  rcases List.append_eq_append_iff.mp hj with ⟨l, hl, hk⟩ | ⟨l, hl, hk⟩
  · cases l with
    | nil => exact hsame (by simpa using hl)
    | cons f l =>
      rw [List.cons_append, List.cons.injEq] at hk
      have := hafter e' (by rw [hk.2]; simp)
      rw [he] at this
      cases this
  · cases l with
    | nil => exact hsame (by simpa using hl.symm)
    | cons f l =>
      rw [List.cons_append, List.cons.injEq] at hk
      obtain ⟨rfl, -⟩ := hk
      have := hc.first e' (by rw [hl]; simp)
      rw [he] at this
      cases this

end Bytes

/-! ### One exchange -/

namespace Exchange

section Steps

variable {sid : ℕ} {x x' : Exchange} {es evs : List Event} {reg : Call → Exchange → Prop}

/-- The part of an exchange that its response writes. -/
structure ResponseSide where
  responded : Bool
  isWs : Bool
  respPhase : RespPhase
  respDeclaredLen : ℤ
  respBodyWritten : ℕ
  unsent : Bytes
  pendingIsLast : Bool

def responseSide (x : Exchange) : ResponseSide where
  responded := x.responded
  isWs := x.isWs
  respPhase := x.respPhase
  respDeclaredLen := x.respDeclaredLen
  respBodyWritten := x.respBodyWritten
  unsent := x.unsent
  pendingIsLast := x.pendingIsLast

/-- Nothing was answered yet. -/
structure Unanswered (x : Exchange) : Prop where
  unsent : x.unsent = []
  respPhase : x.respPhase = .rpNone
  pendingIsLast : x.pendingIsLast = false
  isWs : x.isWs = false

/-- The response of the length `len` is under way. -/
structure Underway (sid : ℕ) (x : Exchange) (es : List Event) (len : ℤ) : Prop where
  isWs : x.isWs = false
  open_ : ∀ e ∈ es, e.endsStream sid = false
  kept : .aborted sid ∉ es
  streaming : x.respPhase = .rpStreaming → x.pendingIsLast = false ∧ x.respDeclaredLen = len ∧
    (acceptedBytes sid es).length = x.respBodyWritten
  finished : x.pendingIsLast = true → 0 ≤ len → ((acceptedBytes sid es).length : ℤ) = len

/-- The bytes of an open exchange. -/
structure Responds (sid : ℕ) (x : Exchange) (es : List Event) : Prop where
  bytes : sentBytes sid es ++ x.unsent = acceptedBytes sid es
  fresh : x.responded = false → x.Unanswered ∧ ∀ e ∈ es, e.plain sid = true
  answered : ∀ d head, .answered sid d head ∈ es → head = false ∧ x.Underway sid es d.length

theorem responds_new : Responds sid {} [.opened sid] :=
  ⟨rfl, fun _ => ⟨⟨rfl, rfl, rfl, rfl⟩, by simp [Event.plain]⟩, fun len head hm => by simp at hm⟩

theorem Responds.quiet (h : Responds sid x es) (hx : x'.responseSide = x.responseSide)
    (he : ∀ e ∈ evs, e.plain sid = true) : Responds sid x' (es ++ evs) := by
  simp only [responseSide, ResponseSide.mk.injEq] at hx
  obtain ⟨r1, r2, r3, r4, r5, r6, r7⟩ := hx
  have hacc : acceptedBytes sid (es ++ evs) = acceptedBytes sid es := by
    rw [acceptedBytes_append, acceptedBytes_plain he, List.append_nil]
  refine ⟨?_, fun hr => ?_, fun len head hm => ?_⟩
  · rw [sentBytes_append, sentBytes_plain he, List.append_nil, hacc, r6]
    exact h.bytes
  · obtain ⟨⟨u1, u2, u3, u4⟩, hp⟩ := h.fresh (r1 ▸ hr)
    refine ⟨⟨r6.trans u1, r3.trans u2, r7.trans u3, r2.trans u4⟩, fun e hm => ?_⟩
    exact (List.mem_append.mp hm).elim (hp e) (he e)
  · obtain ⟨hh, u⟩ := h.answered len head
      ((List.mem_append.mp hm).resolve_right (answered_of_plain he len head))
    refine ⟨hh, r2.trans u.isWs, fun e hm => ?_, fun hm => ?_, fun hp => ?_, fun hp => ?_⟩
    · exact (List.mem_append.mp hm).elim (u.open_ e) (fun hm => (plain_payloads (he e hm)).2.2)
    · exact (List.mem_append.mp hm).elim u.kept (aborted_of_plain he)
    · rw [hacc, r7, r4, r5]
      exact u.streaming (r3 ▸ hp)
    · rw [hacc]
      exact u.finished (r7 ▸ hp)

theorem block_plain (h : Block sid false evs) : ∀ e ∈ evs, e.plain sid = true :=
  h.forall (fun _ _ => by simp [Event.plain]) (fun _ _ => rfl)

theorem Responds.empty (h : Responds sid x es) (hr : x.responded = false) :
    sentBytes sid es = [] ∧ acceptedBytes sid es = [] :=
  ⟨sentBytes_plain (h.fresh hr).2, acceptedBytes_plain (h.fresh hr).2⟩

theorem sentBytes_data (chunks : List Bytes) :
    sentBytes sid (dataEvents sid chunks) = chunks.flatten := by
  induction chunks with
  | nil => rfl
  | cons p chunks ih =>
    rw [List.flatten_cons, ← ih]
    have hp : sentPayload sid (.sent (.data sid p false)) = p := if_pos rfl
    exact congrArg (fun q => q ++ sentBytes sid (dataEvents sid chunks)) hp

theorem acceptedBytes_data (chunks : List Bytes) :
    acceptedBytes sid (dataEvents sid chunks) = [] := by
  unfold acceptedBytes dataEvents
  rw [List.flatMap_map]
  simp [acceptedPayload]

theorem Decides.responseSide (hd : Decides sid x evs x') :
    x'.responseSide = x.responseSide ∧ ∀ e ∈ evs, e.plain sid = true := by
  cases hd with
  | wait => exact ⟨rfl, by simp⟩
  | _ => exact ⟨rfl, by simp [Event.plain]⟩

theorem EndsBody.responseSide (h : EndsBody x x') : x'.responseSide = x.responseSide := by
  cases h with
  | data | trailers => rfl

theorem Responds.sendHead (h : Responds sid x es) (hr : x.responded = false) (len : Declared)
    (hb : Block sid false evs) :
    Responds sid { x with
      responded := true, respPhase := .rpStreaming, respDeclaredLen := len.length
      respBodyWritten := 0 } (es ++ .answered sid len false :: evs) := by
  obtain ⟨hu, hp⟩ := h.fresh hr
  obtain ⟨hs, ha⟩ := h.empty hr
  have hpb := block_plain hb
  have hs' : sentBytes sid (es ++ .answered sid len false :: evs) = [] := by
    rw [sentBytes_append, hs]
    exact (sentBytes_plain hpb : sentBytes sid evs = [])
  have ha' : acceptedBytes sid (es ++ .answered sid len false :: evs) = [] := by
    rw [acceptedBytes_append, ha]
    exact (acceptedBytes_plain hpb : acceptedBytes sid evs = [])
  have hin : ∀ {e : Event}, e ∈ es ++ .answered sid len false :: evs →
      e = .answered sid len false ∨ e.plain sid = true := by
    intro e hm
    rcases List.mem_append.mp hm with hm | hm
    · exact .inr (hp e hm)
    · exact (List.mem_cons.mp hm).imp_right (hpb e)
  refine ⟨?_, fun hf => (by cases hf), fun len' head hm => ?_⟩
  · rw [hs', ha', List.nil_append]
    exact hu.unsent
  · have he : Event.answered sid len' head = .answered sid len false := by
      rcases hin hm with he | he
      · exact he
      · simp [Event.plain] at he
    obtain ⟨-, rfl, rfl⟩ := Event.answered.inj he
    refine ⟨rfl, hu.isWs, fun e hm => ?_, fun hm => ?_, fun _ => ⟨hu.pendingIsLast, rfl, ?_⟩,
      fun hl => ?_⟩
    · rcases hin hm with rfl | he
      · rfl
      · exact (plain_payloads he).2.2
    · rcases hin hm with he | he
      · cases he
      · simp [Event.plain] at he
    · rw [ha']
      rfl
    · exact absurd (hu.pendingIsLast.symm.trans hl) (by decide)

theorem Responds.respond (h : Responds sid x es) (hr : x.responded = false) (body : Bytes)
    (fields : Fields) (hb : Block sid false evs) :
    Responds sid { x with responded := true, unsent := body, pendingIsLast := true }
      (es ++ (.answered sid ⟨body.length, fields⟩ false :: evs ++ [.accepted sid body])) := by
  obtain ⟨hu, hp⟩ := h.fresh hr
  obtain ⟨hs, ha⟩ := h.empty hr
  have hpb := block_plain hb
  have hs' : sentBytes sid (es ++ (.answered sid ⟨body.length, fields⟩ false :: evs ++
      [.accepted sid body])) = [] := by
    rw [sentBytes_append, hs, sentBytes_append]
    refine List.append_eq_nil_iff.mpr ⟨rfl, List.append_eq_nil_iff.mpr ⟨?_, rfl⟩⟩
    exact (sentBytes_plain hpb : sentBytes sid evs = [])
  have ha' : acceptedBytes sid (es ++ (.answered sid ⟨body.length, fields⟩ false :: evs ++
      [.accepted sid body])) = body := by
    rw [acceptedBytes_append, ha, acceptedBytes_append]
    have h1 : acceptedBytes sid (.answered sid ⟨body.length, fields⟩ false :: evs) = [] :=
      (acceptedBytes_plain hpb : acceptedBytes sid evs = [])
    have h2 : acceptedBytes sid [.accepted sid body] = body := by
      simp [acceptedBytes, acceptedPayload]
    rw [h1, h2]
    rfl
  have hin : ∀ {e : Event}, e ∈ es ++ (.answered sid ⟨body.length, fields⟩ false :: evs ++
      [.accepted sid body]) → e = .answered sid ⟨body.length, fields⟩ false ∨ e = .accepted sid body ∨
        e.plain sid = true := by
    intro e hm
    rcases List.mem_append.mp hm with hm | hm
    · exact .inr (.inr (hp e hm))
    · rcases List.mem_append.mp hm with hm | hm
      · exact (List.mem_cons.mp hm).imp_right (fun hm => .inr (hpb e hm))
      · exact .inr (.inl (List.mem_singleton.mp hm))
  refine ⟨?_, fun hf => (by cases hf), fun len' head hm => ?_⟩
  · rw [hs', ha', List.nil_append]
  · have he : Event.answered sid len' head = .answered sid ⟨body.length, fields⟩ false := by
      rcases hin hm with he | he | he
      · exact he
      · cases he
      · simp [Event.plain] at he
    obtain ⟨-, rfl, rfl⟩ := Event.answered.inj he
    refine ⟨rfl, hu.isWs, fun e hm => ?_, fun hm => ?_, fun hst => ?_, fun _ _ => by rw [ha']⟩
    · rcases hin hm with rfl | rfl | he
      · rfl
      · rfl
      · exact (plain_payloads he).2.2
    · rcases hin hm with he | he | he
      · cases he
      · cases he
      · simp [Event.plain] at he
    · exact absurd (hu.respPhase.symm.trans hst) (by decide)

theorem Responds.write {data rest : Bytes} {chunks : List Bytes} (h : Responds sid x es)
    (hp : x.respPhase = .rpStreaming) (hc : chunks.flatten ++ rest = x.unsent ++ data) :
    Responds sid { x with respBodyWritten := x.respBodyWritten + data.length, unsent := rest }
      (es ++ .accepted sid data :: dataEvents sid chunks) := by
  have hs : sentBytes sid (.accepted sid data :: dataEvents sid chunks) = chunks.flatten :=
    sentBytes_data chunks
  have ha : acceptedBytes sid (.accepted sid data :: dataEvents sid chunks) = data := by
    have h1 : acceptedPayload sid (.accepted sid data) = data := if_pos rfl
    rw [acceptedBytes, List.flatMap_cons, h1]
    exact (congrArg (data ++ ·) (acceptedBytes_data chunks)).trans (List.append_nil _)
  have hin : ∀ {e : Event}, e ∈ .accepted sid data :: dataEvents sid chunks →
      e = .accepted sid data ∨ ∃ p, e = .sent (.data sid p false) := by
    intro e hm
    rcases List.mem_cons.mp hm with rfl | hm
    · exact .inl rfl
    · obtain ⟨p, -, rfl⟩ := List.mem_map.mp hm
      exact .inr ⟨p, rfl⟩
  refine ⟨?_, fun hr => ?_, fun len head hm => ?_⟩
  · rw [sentBytes_append, acceptedBytes_append, hs, ha, List.append_assoc, hc, ← List.append_assoc,
      h.bytes]
  · exact absurd ((h.fresh hr).1.respPhase.symm.trans hp) (by decide)
  · have hm' : .answered sid len head ∈ es := by
      refine (List.mem_append.mp hm).resolve_right (fun hm => ?_)
      rcases hin hm with he | ⟨p, he⟩
      · cases he
      · cases he
    obtain ⟨hh, u⟩ := h.answered len head hm'
    obtain ⟨s1, s2, s3⟩ := u.streaming hp
    refine ⟨hh, u.isWs, fun e hm => ?_, fun hm => ?_, fun _ => ⟨s1, s2, ?_⟩, fun hl => ?_⟩
    · refine (List.mem_append.mp hm).elim (u.open_ e) (fun hm => ?_)
      rcases hin hm with rfl | ⟨p, rfl⟩
      · rfl
      · simp [Event.endsStream]
    · refine (List.mem_append.mp hm).elim u.kept (fun hm => ?_)
      rcases hin hm with he | ⟨p, he⟩
      · cases he
      · cases he
    · rw [acceptedBytes_append, ha, List.length_append, s3]
    · exact absurd (s1.symm.trans hl) (by decide)

theorem Responds.chunk {p rest : Bytes} (h : Responds sid x es) (hp : p ≠ [])
    (hc : p ++ rest = x.unsent) :
    Responds sid { x with unsent := rest } (es ++ [.sent (.data sid p false)]) := by
  have hs : sentBytes sid [.sent (.data sid p false)] = p := by simp [sentBytes, sentPayload]
  have ha : acceptedBytes sid (es ++ [.sent (.data sid p false)]) = acceptedBytes sid es := by
    rw [acceptedBytes_append]
    exact List.append_nil _
  refine ⟨?_, fun hr => ?_, fun len head hm => ?_⟩
  · rw [sentBytes_append, hs, ha, List.append_assoc, hc]
    exact h.bytes
  · have := (h.fresh hr).1.unsent
    rw [← hc] at this
    exact absurd (List.append_eq_nil_iff.mp this).1 hp
  · have hm' : .answered sid len head ∈ es := by simpa using hm
    obtain ⟨hh, u⟩ := h.answered len head hm'
    refine ⟨hh, u.isWs, fun e hm => ?_, fun hm => u.kept (by simpa using hm), fun hst => ?_,
      fun hl => ?_⟩
    · refine (List.mem_append.mp hm).elim (u.open_ e) (fun hm => ?_)
      rw [List.mem_singleton.mp hm]
      simp [Event.endsStream]
    · rw [ha]
      exact u.streaming hst
    · rw [ha]
      exact u.finished hl

theorem Responds.tunnel {y : Exchange} (h : Responds sid x es) (hw : x.isWs = true)
    (hno : ∀ len head, .answered sid len head ∉ evs) (hy : y.responded = x.responded)
    (hb : sentBytes sid (es ++ evs) ++ y.unsent = acceptedBytes sid (es ++ evs)) :
    Responds sid y (es ++ evs) := by
  refine ⟨hb, fun hr => ?_, fun len head hm => ?_⟩
  · exact absurd ((h.fresh (hy ▸ hr)).1.isWs.symm.trans hw) (by decide)
  · obtain ⟨-, u⟩ := h.answered len head ((List.mem_append.mp hm).resolve_right (hno len head))
    exact absurd (u.isWs.symm.trans hw) (by decide)

/-- **Every step keeps the bytes of the response.** -/
theorem Act.responds (ha : Act sid reg x evs x') (h : Responds sid x es) :
    Responds sid x' (es ++ evs) := by
  cases ha with
  | informational hr hb => exact h.quiet rfl (block_plain hb)
  | sendHead hr hh len hb => exact h.sendHead hr len hb
  | write hp hh hd hc hq => exact h.write hp hc
  | @respond evs body hr hh hd fields hb => exact h.respond hr body fields hb
  | chunk hp hc hl => exact h.chunk hp hc
  | wsAccept hw hr hn hb =>
    obtain ⟨hu, hpl⟩ := h.fresh hr
    have hall : ∀ e ∈ es ++ evs, e.plain sid = true :=
      fun e hm => (List.mem_append.mp hm).elim (hpl e) (block_plain hb e)
    refine ⟨?_, fun hf => (by cases hf), fun len head hm => ?_⟩
    · rw [sentBytes_plain hall, acceptedBytes_plain hall]
      exact hu.unsent
    · exact absurd hm (answered_of_plain hall len head)
  | wsOutput hw data | wsEnd hw hb =>
    refine h.tunnel hw (by simp) rfl ?_
    rw [sentBytes_append, acceptedBytes_append, ← h.bytes]
    simp [sentBytes, acceptedBytes, sentPayload, acceptedPayload]
  | head hh hf isWs isHead fin streaming hs hd =>
    obtain ⟨hx, he⟩ := hd.responseSide
    refine h.quiet (hx.trans rfl) (fun e hm => ?_)
    rcases List.mem_cons.mp hm with rfl | hm
    · rfl
    · exact he e hm
  | trailers hh hn hd =>
    obtain ⟨hx, he⟩ := hd.responseSide
    exact h.quiet (hx.trans rfl) he
  | bodyEnd he => exact h.quiet he.responseSide (by simp)
  | told he hcb => exact h.quiet he.responseSide (by simp [Event.plain])
  | _ => exact h.quiet rfl (by simp [Event.plain])

theorem Finish.responds (hf : Finish x x') (h : Responds sid x es) : Responds sid x' es := by
  cases hf with
  | queue hp hh hl trailers hb =>
    refine ⟨h.bytes, fun hr => ?_, fun len head hm => ?_⟩
    · exact absurd ((h.fresh hr).1.respPhase.symm.trans hp) (by decide)
    · obtain ⟨hhead, u⟩ := h.answered len head hm
      obtain ⟨-, s2, s3⟩ := u.streaming hp
      refine ⟨hhead, u.isWs, u.open_, u.kept, fun hst => (by cases hst), fun _ h0 => ?_⟩
      rw [s3, ← s2]
      exact hl (s2 ▸ h0)
  | head hp hh trailers =>
    refine ⟨h.bytes, fun hr => ?_, fun len head hm => ?_⟩
    · exact absurd ((h.fresh hr).1.respPhase.symm.trans hp) (by decide)
    · obtain ⟨hhead, u⟩ := h.answered len head hm
      refine ⟨hhead, u.isWs, u.open_, u.kept, fun hst => (by cases hst), fun hl => ?_⟩
      obtain ⟨s1, -⟩ := u.streaming hp
      simp [finish, hh, s1] at hl

theorem Responds.unended (h : Responds sid x es) (he : ∀ e ∈ evs, e.endsStream sid = false)
    (hno : ∀ len head, .answered sid len head ∉ evs) : EndsProperly sid (es ++ evs) := by
  intro len head ha
  obtain ⟨-, u⟩ := h.answered len head ((List.mem_append.mp ha).resolve_right (hno len head))
  refine endsProperly_open (fun e hm => ?_) len head ha
  exact (List.mem_append.mp hm).elim (u.open_ e) (he e)

theorem Responds.concludes {f : Frame} {conts : List Event} (h : Responds sid x es)
    (hp : sentBytes sid es ++ sentPayload sid (.sent f) = acceptedBytes sid es)
    (hconts : ∀ e ∈ conts, e.plain sid = true ∧ e.carries sid = false)
    (hlen : ∀ len, x.Underway sid es len → 0 ≤ len → ((acceptedBytes sid es).length : ℤ) = len) :
    EndsProperly sid (es ++ .sent f :: conts) := by
  have hacc : acceptedBytes sid (es ++ .sent f :: conts) = acceptedBytes sid es := by
    have hnil : acceptedBytes sid conts = [] := acceptedBytes_plain (fun e hm => (hconts e hm).1)
    rw [acceptedBytes_append]
    exact (congrArg (acceptedBytes sid es ++ ·) hnil).trans (List.append_nil _)
  have hin : ∀ len head, .answered sid len head ∈ es ++ .sent f :: conts →
      .answered sid len head ∈ es := by
    intro len head hm
    refine (List.mem_append.mp hm).resolve_right (fun hm => ?_)
    rcases List.mem_cons.mp hm with hm | hm
    · cases hm
    · exact answered_of_plain (fun e hm => (hconts e hm).1) len head hm
  refine endsProperly_end (fun len head ha => ?_)
  obtain ⟨-, u⟩ := h.answered len head (hin len head ha)
  refine ⟨u.open_, fun e hm => (hconts e hm).2, ?_, fun hm => ?_, fun len' hm h0 => ?_⟩
  · rw [sentBytes_append, hacc, ← hp]
    simp [sentBytes]
  · rcases List.mem_append.mp hm with hm | hm
    · exact u.kept hm
    · rcases List.mem_cons.mp hm with hm | hm
      · cases hm
      · exact aborted_of_plain (fun e hm => (hconts e hm).1) hm
  · rw [hacc]
    exact hlen len'.length (h.answered len' false (hin len' false hm)).2 h0

theorem block_end (h : Block sid true evs) : ∃ f conts, evs ++ [.removed sid] = .sent f :: conts ∧
    sentPayload sid (.sent f) = [] ∧ ∀ e ∈ conts, e.plain sid = true ∧ e.carries sid = false := by
  obtain ⟨frag, eh, conts, rfl, hc⟩ := h.eq
  refine ⟨_, conts ++ [.removed sid], rfl, rfl, fun e hm => ?_⟩
  rcases List.mem_append.mp hm with hm | hm
  · obtain ⟨frag, eh, rfl⟩ := hc e hm
    exact ⟨rfl, rfl⟩
  · rw [List.mem_singleton.mp hm]
    exact ⟨rfl, rfl⟩

theorem removed_only : ∀ e ∈ [Event.removed sid], e.plain sid = true ∧ e.carries sid = false := by
  intro e hm
  rw [List.mem_singleton.mp hm]
  exact ⟨rfl, rfl⟩

theorem Underway.lengthMet {len : ℤ} (u : x.Underway sid es len) (hp : x.respPhase = .rpStreaming)
    (hl : x.LengthMet) (h0 : 0 ≤ len) : ((acceptedBytes sid es).length : ℤ) = len := by
  obtain ⟨-, s2, s3⟩ := u.streaming hp
  rw [s3, ← s2]
  exact hl (s2 ▸ h0)

/-- **A stream that is taken out of the table was ended properly, if it was ended.** -/
theorem End.endsProperly (he : End sid x evs) (h : Responds sid x es) :
    EndsProperly sid (es ++ (evs ++ [.removed sid])) := by
  have hdrained : x.unsent = [] → sentBytes sid es ++ [] = acceptedBytes sid es := by
    intro hb
    rw [← hb]
    exact h.bytes
  cases he with
  | plain | head | abort => exact h.unended (by simp [Event.endsStream]) (by simp)
  | @answer evs hr len hl hb =>
    obtain ⟨f, conts, hevs, hpay, hconts⟩ := block_end hb
    obtain ⟨hu, hpl⟩ := h.fresh hr
    obtain ⟨hs, ha⟩ := h.empty hr
    have hacc : acceptedBytes sid (es ++ [.answered sid len x.isHead] ++ .sent f :: conts) = [] := by
      have hnil : acceptedBytes sid conts = [] := acceptedBytes_plain (fun e hm => (hconts e hm).1)
      rw [acceptedBytes_append, acceptedBytes_append, ha]
      exact hnil
    have hin : ∀ e ∈ es ++ [.answered sid len x.isHead] ++ .sent f :: conts,
        e = .answered sid len x.isHead ∨ e = .sent f ∨ e.plain sid = true := by
      intro e hm
      rcases List.mem_append.mp hm with hm | hm
      · exact (List.mem_append.mp hm).elim (fun hm => .inr (.inr (hpl e hm)))
          (fun hm => .inl (List.mem_singleton.mp hm))
      · exact .inr ((List.mem_cons.mp hm).imp_right (fun hm => (hconts e hm).1))
    have heq : es ++ (.answered sid len x.isHead :: evs ++ [.removed sid]) =
        es ++ [.answered sid len x.isHead] ++ .sent f :: conts := by
      rw [List.cons_append, hevs, List.append_assoc]
      rfl
    rw [heq]
    refine endsProperly_end (fun _ _ _ => ⟨fun e hm => ?_, fun e hm => (hconts e hm).2, ?_,
      fun hm => ?_, fun len' hm h0 => ?_⟩)
    · rcases List.mem_append.mp hm with hm | hm
      · exact (plain_payloads (hpl e hm)).2.2
      · rw [List.mem_singleton.mp hm]
        rfl
    · have hf : sentBytes sid [.sent f] = [] := by
        rw [sentBytes, List.flatMap_cons, hpay]
        rfl
      rw [hacc, sentBytes_append, sentBytes_append, hs, hf]
      rfl
    · rcases hin _ hm with he | he | he
      · cases he
      · cases he
      · simp [Event.plain] at he
    · have he : Event.answered sid len' false = .answered sid len x.isHead := by
        rcases hin _ hm with he | he | he
        · exact he
        · cases he
        · simp [Event.plain] at he
      obtain ⟨-, rfl, hhead⟩ := Event.answered.inj he
      rw [hacc]
      rcases hl with hl | hl | hl
      · exact absurd (hhead.trans hl) (by decide)
      · rw [hl] at h0
        exact absurd h0 (by decide)
      · rw [hl]
        rfl
  | finishBare hp hh hl hb =>
    exact h.concludes (by simpa [sentPayload] using hdrained hb) removed_only
      (fun len u h0 => u.lengthMet hp hl h0)
  | finishTrailers hp hh hl hb hblk =>
    obtain ⟨f, conts, hevs, hpay, hconts⟩ := block_end hblk
    rw [hevs]
    exact h.concludes (by rw [hpay]; exact hdrained hb) hconts
      (fun len u h0 => u.lengthMet hp hl h0)
  | chunk hw hl ht hb =>
    refine h.concludes ?_ removed_only (fun len u h0 => u.finished hl h0)
    rw [← h.bytes]
    simp [sentPayload]
  | bare hw hl hb =>
    exact h.concludes (by simpa [sentPayload] using hdrained hb) removed_only
      (fun len u h0 => u.finished hl h0)
  | trailers hw hl hb hblk =>
    obtain ⟨f, conts, hevs, hpay, hconts⟩ := block_end hblk
    rw [hevs]
    exact h.concludes (by rw [hpay]; exact hdrained hb) hconts
      (fun len u h0 => u.finished hl h0)

/-! ### Runs -/

/-- What holds along a run. -/
structure Answers (sid : ℕ) (s : State) (es : List Event) : Prop where
  idle : s.life = .idle → es = [] ∧ s.owed = []
  live : ∀ x, s.life = .live x → Responds sid x es
  gone : s.life = .gone → EndsProperly sid es

theorem answers_live {ds : List Callback} (h : Responds sid x es) : Answers sid ⟨.live x, ds⟩ es :=
  ⟨fun h => (by cases h), fun _ hy => Life.live.inj hy ▸ h, fun h => by cases h⟩

theorem answers_gone {ds : List Callback} (h : EndsProperly sid es) : Answers sid ⟨.gone, ds⟩ es :=
  ⟨fun h => (by cases h), fun _ h => (by cases h), fun _ => h⟩

theorem fired_plain {cb : Callback} : ∀ e ∈ [Event.fired cb].filter (fun e => e.stream? = some sid),
    e.plain sid = true ∧ e.carries sid = false := by
  intro e hm
  rw [List.mem_singleton.mp (List.mem_of_mem_filter hm)]
  exact ⟨rfl, rfl⟩

theorem Run.answers {cl : Bool} {s t : State} {es0 : List Event} (h : Run reg cl sid s es t)
    (h0 : Answers sid s es0) : Answers sid t (es0 ++ es) := by
  induction h with
  | refl =>
    rw [List.append_nil]
    exact h0
  | skip _ ih =>
    rw [(ih.idle rfl).1]
    exact answers_gone (endsProperly_open (by simp))
  | opened _ ih =>
    rw [← List.append_assoc, (ih.idle rfl).1]
    exact answers_live responds_new
  | act _ ha ih =>
    rw [← List.append_assoc]
    exact answers_live (ha.responds (ih.live _ rfl))
  | finish _ ha ih => exact answers_live (ha.responds (ih.live _ rfl))
  | ended _ ha ih =>
    rw [← List.append_assoc]
    exact answers_gone (ha.endsProperly (ih.live _ rfl))
  | dropped _ hw ih =>
    rw [← List.append_assoc]
    exact answers_gone ((ih.live _ rfl).unended (by simp [Event.endsStream]) (by simp))
  | @fired es l cb ds _ ih =>
    refine ⟨fun h => ?_, fun y h => ?_, fun h => ?_⟩
    · exact absurd (ih.idle h).2 (by simp)
    · rw [← List.append_assoc]
      exact (ih.live y h).quiet rfl (fun e hm => (fired_plain e hm).1)
    · rw [← List.append_assoc]
      exact (ih.gone h).append (fun e hm => (fired_plain e hm).1) (fun e hm => (fired_plain e hm).2)
  | forgotten _ hc ih =>
    exact ⟨fun h => absurd (ih.idle h).2 (by simp), ih.live, ih.gone⟩
  | wsTaken _ hc ih =>
    obtain ⟨h1, h2, h3⟩ := ih.live _ rfl
    refine answers_live ⟨h1, fun hr => ?_, fun len head hm => ?_⟩
    · obtain ⟨⟨u1, u2, u3, u4⟩, hp⟩ := h2 hr
      exact ⟨⟨u1, u2, u3, rfl⟩, hp⟩
    · obtain ⟨hh, u⟩ := h3 len head hm
      exact ⟨hh, rfl, u.open_, u.kept, u.streaming, u.finished⟩

theorem Answers.parted {l : Life} (h : Answers sid ⟨l, []⟩ es) :
    Answers sid ⟨l.parted, l.farewells sid⟩ es := by
  cases l with
  | idle => exact ⟨fun _ => ⟨(h.idle rfl).1, rfl⟩, fun _ h => (by cases h), fun h => by cases h⟩
  | gone => exact answers_gone (h.gone rfl)
  | live x =>
    have hq : Responds sid { x with onBodyCb := none, onRespDrain := none } (es ++ []) :=
      (h.live x rfl).quiet rfl (List.forall_mem_nil _)
    rw [List.append_nil] at hq
    exact answers_live hq

theorem Answers.endsProperly {s : State} (h : Answers sid s es) : EndsProperly sid es := by
  obtain ⟨l, ds⟩ := s
  cases l with
  | idle =>
    rw [(h.idle rfl).1]
    exact endsProperly_open (by simp)
  | gone => exact h.gone rfl
  | live x =>
    have := (h.live x rfl).unended (List.forall_mem_nil _) (by simp)
    rwa [List.append_nil] at this

end Steps

end Exchange

/-! ### Responses over runs -/

theorem answers_idle (sid : ℕ) : Exchange.Answers sid ⟨.idle, []⟩ [] :=
  ⟨fun _ => ⟨rfl, rfl⟩, fun _ h => (by cases h), fun h => by cases h⟩

theorem answers_journal {c : Conn} {sid : ℕ} {ds : List Callback}
    (h : Exchange.Answers sid ⟨c.life sid, ds⟩ (c.history sid)) :
    (∀ st, c.stream? sid = some st →
      sentBytes sid c.journal ++ st.unsent = acceptedBytes sid c.journal) ∧
    EndsProperly sid c.journal := by
  refine ⟨fun st hs => ?_, endsProperly_about h.endsProperly⟩
  have hx : c.exchange? sid = some st.exchange := by rw [Conn.exchange?, hs, Option.map_some]
  have hb := (h.live _ (Conn.life_of_some hx)).bytes
  unfold Conn.history at hb
  rw [sentBytes_about, acceptedBytes_about] at hb
  exact hb

/-- The declared lengths of the bodies agree: a Content-Length among the handler's fields is the
length handed over with the head. -/
def Declared.Truthful (d : Declared) : Prop :=
  ∀ f ∈ d.fields, f.1.map toLowerA = ascii "content-length" →
    0 ≤ d.length ∧ parseContentLength f.2 (-1) = .clOk d.length.toNat

/-- A request that is answered by a streamed response whose handler sets the Content-Length. -/
def helloResponse : List Input :=
  feedInputs [.headers 1 postBlock true true] ++
    [.call (.sendHead 1 { code := 200, extraHeaders := [(ascii "Content-Length", ascii "5")] } 5),
      .call (.write 1 (ascii "hel")), .call (.write 1 (ascii "lo")), .call (.finish 1 [])]

/-- A handler that sets a Content-Length and hands none over with the head. -/
def shortResponse : List Input :=
  feedInputs [.headers 1 postBlock true true] ++
    [.call (.sendHead 1 { code := 200, extraHeaders := [(ascii "Content-Length", ascii "5")] } (-1)),
      .call (.write 1 (ascii "abc")), .call (.finish 1 [])]

end Vortex.Http2
