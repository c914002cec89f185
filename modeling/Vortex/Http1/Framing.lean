import Vortex.Http1.Chunked

/-! # What the parser's phase says about its state

Two step invariants of `parse`, both for iterations that do not reject.

* `ChunkFrame s s'`: in the phases of a chunked body nothing but the phase, the position, the
  decoded bytes and the trailers changes, the position grows, and every trailer recorded lies
  between the two positions.
* `Framed buf s`: the header slices lie in the head, and the framing of the body is fixed once
  the head is complete.

`parse_chunkFrame` and `parse_framed` carry them to whole calls. -/

namespace Vortex.Http1

open Vortex.FieldRules

variable {lim : ParserLimits} {buf : Bytes} {s s' : ParseState}

/-- If the iteration does not reject, it ends in a state with property `P`. -/
def Advances (P : ParseState → Prop) : ParseStep → Prop
  | .inl s => P s
  | .inr (.ok (.prError, _)) => True
  | .inr (.ok (_, s)) => P s
  | .inr (.error _) => True

variable {P : ParseState → Prop} {r : ParseResult} {p : RequestParser}

/-! ### The chunk phases -/

/-- The phases of a chunked body, its end included. -/
def chunkPhase : ParsePhase → Bool
  | .ppChunkSize | .ppChunkData | .ppChunkCRLF | .ppTrailers | .ppComplete => true
  | _ => false

/-- A field slice inside `buf[i ..< j]`. -/
def HeaderSlice.Within (i j : ℕ) (h : HeaderSlice) : Prop :=
  i ≤ h.nameStart ∧ h.nameStart + h.nameLen ≤ j ∧ i ≤ h.valStart ∧ h.valStart + h.valLen ≤ j

theorem HeaderSlice.Within.mono {i i' j j' : ℕ} {h : HeaderSlice} (hw : h.Within i j)
    (hi : i' ≤ i) (hj : j ≤ j') : h.Within i' j' := by
  obtain ⟨h1, h2, h3, h4⟩ := hw
  exact ⟨by omega, by omega, by omega, by omega⟩

/-- What an iteration of a chunk phase keeps. -/
structure ChunkFrame (s s' : ParseState) : Prop where
  phase : chunkPhase s'.parser.phase = true
  pos : s.parser.pos ≤ s'.parser.pos
  trailers : ∃ ts, s'.parser.trailers = s.parser.trailers ++ ts ∧
    ∀ h ∈ ts, h.Within s.parser.pos s'.parser.pos
  bodyStart : s'.parser.bodyStart = s.parser.bodyStart
  chunked : s'.parser.chunked = s.parser.chunked
  headers : s'.parser.headers = s.parser.headers

theorem ChunkFrame.of_eq (hph : chunkPhase s'.parser.phase = true)
    (hpos : s.parser.pos ≤ s'.parser.pos) (ht : s'.parser.trailers = s.parser.trailers)
    (hb : s'.parser.bodyStart = s.parser.bodyStart) (hc : s'.parser.chunked = s.parser.chunked)
    (hh : s'.parser.headers = s.parser.headers) : ChunkFrame s s' :=
  ⟨hph, hpos, ⟨[], by rw [ht, List.append_nil], by simp⟩, hb, hc, hh⟩

theorem ChunkFrame.trans {s1 s2 s3 : ParseState} (h1 : ChunkFrame s1 s2)
    (h2 : ChunkFrame s2 s3) : ChunkFrame s1 s3 := by
  obtain ⟨ts, ht, hw⟩ := h1.trailers
  obtain ⟨us, hu, hv⟩ := h2.trailers
  refine ⟨h2.phase, h1.pos.trans h2.pos, ⟨ts ++ us, ?_, ?_⟩, h2.bodyStart.trans h1.bodyStart,
    h2.chunked.trans h1.chunked, h2.headers.trans h1.headers⟩
  · rw [hu, ht, List.append_assoc]
  · intro h hm
    rcases List.mem_append.1 hm with hm | hm
    · exact (hw h hm).mono le_rfl h2.pos
    · exact (hv h hm).mono h1.pos le_rfl

theorem within_of_fieldLine {h : HeaderSlice} {ts : List HeaderSlice} {nl : ℕ}
    (hf : findByte buf s.parser.pos buf.length lf = some nl)
    (hl : fieldLine s.parser.pos (slice buf s.parser.pos (nl - 1)) = some h)
    (hts : ts = [] ∨ ts = [h]) : ∀ h' ∈ ts, h'.Within s.parser.pos (nl + 1) := by
  have hlt := findByte_lt hf
  have hb := fieldLine_bounds hl
  rw [length_slice] at hb
  rcases hts with rfl | rfl
  · simp
  · intro h' hm
    rw [List.mem_singleton] at hm
    subst hm
    exact ⟨by omega, by omega, by omega, by omega⟩

theorem parseStep_chunkFrame (lim : ParserLimits) (buf : Bytes)
    (hp : chunkPhase s.parser.phase = true) :
    Advances (ChunkFrame s) (parseStep lim buf s) := by
  have hi := parseStep_iteration lim buf s
  generalize parseStep lim buf s = st at hi
  cases hi with
  | failed | lineFailed | raised | stuck => trivial
  | waits | ended => exact .of_eq hp le_rfl rfl rfl rfl rfl
  | blank _ h | requestLine _ h | headerLine _ h | chunkedBody _ h | plainBody _ h | noBody _ h
  | body h => rw [h] at hp; cases hp
  | @size nl size _ _ hf =>
    have := findByte_lt hf
    refine .of_eq ?_ (by simp only; omega) rfl rfl rfl rfl
    by_cases h : size = 0 <;> simp [h, chunkPhase]
  | chunk | crlf => exact .of_eq rfl (by simp [ParseState.takeChunk]) rfl rfl rfl rfl
  | part => exact .of_eq hp (by simp [ParseState.takeChunk]) rfl rfl rfl rfl
  | trailersEnd _ hf =>
    have := findByte_lt hf
    exact .of_eq rfl (by simp only; omega) rfl rfl rfl rfl
  | trailer _ hf hl hts =>
    have := findByte_lt hf
    exact ⟨hp, by simp only; omega, ⟨_, rfl, within_of_fieldLine hf hl hts⟩, rfl, rfl, rfl⟩

theorem parse_advances (hstep : ∀ s, P s → Advances P (parseStep lim buf s)) (hs : P s)
    (h : parse lim buf s = .ok (r, s')) (hr : r ≠ .prError) : P s' := by
  obtain ⟨t, ht, hdone⟩ := (parseLoop lim buf).exists_reaches_done s
  have hP : P t := ht.invariant (fun u u' hu he => by
    have := hstep u hu
    rw [show parseStep lim buf u = .inl u' from he] at this
    exact this) hs
  have := hstep t hP
  rw [show parseStep lim buf t = .inr (.ok (r, s')) from h ▸ hdone] at this
  cases r with
  | prError => exact absurd rfl hr
  | prNeedMore | prComplete => exact this

theorem Advances.imp {Q : ParseState → Prop} {st : ParseStep} (h : Advances P st)
    (hPQ : ∀ s, P s → Q s) : Advances Q st := by
  match st, h with
  | .inl s, h => exact hPQ s h
  | .inr (.ok (.prError, _)), _ => trivial
  | .inr (.ok (.prNeedMore, s)), h => exact hPQ s h
  | .inr (.ok (.prComplete, s)), h => exact hPQ s h
  | .inr (.error _), _ => trivial

theorem parse_chunkFrame (hp : chunkPhase s.parser.phase = true) (h : parse lim buf s = .ok (r, s'))
    (hr : r ≠ .prError) : ChunkFrame s s' :=
  parse_advances (P := ChunkFrame s)
    (fun _ hu => (parseStep_chunkFrame lim buf hu.phase).imp fun _ => hu.trans)
    (.of_eq hp le_rfl rfl rfl rfl rfl) h hr

/-! ### The head -/

/-- What the field lines said of the framing of the body. -/
structure CodingFlags where
  seenTE : Bool
  seenContentLength : Bool
  chunked : Bool

def RequestParser.coding (p : RequestParser) : CodingFlags :=
  ⟨p.seenTE, p.seenContentLength, p.chunked⟩

theorem parseVersion_ok {v : Bytes} (h : (parseVersion p v).1 ≠ .prError) :
    (parseVersion p v).2.phase = .ppHeaders ∧ (parseVersion p v).2.headers = p.headers ∧
      (parseVersion p v).2.coding = p.coding := by
  unfold parseVersion at h ⊢
  split at h
  · split_ifs at h ⊢ <;> first | exact absurd rfl h | exact ⟨rfl, rfl, rfl⟩
  · exact absurd rfl h

theorem parseReqLine_ok {line : Bytes} (h : (parseReqLine p line).1 ≠ .prError) :
    (parseReqLine p line).2.phase = .ppHeaders ∧
      (parseReqLine p line).2.headers = p.headers ∧ (parseReqLine p line).2.coding = p.coding := by
  unfold parseReqLine at h ⊢
  split at h
  · exact absurd rfl h
  · split at h
    · exact absurd rfl h
    · split at h
      · exact absurd rfl h
      · dsimp only at h ⊢
        split_ifs at h ⊢
        · exact absurd rfl h
        · exact absurd rfl h
        · exact parseVersion_ok h

theorem processHeader_ok {name val : Bytes} (h : (processHeader p name val).1 ≠ .prError) :
    (processHeader p name val).2.phase = p.phase ∧
      (processHeader p name val).2.headers = p.headers := by
  unfold processHeader at h ⊢
  dsimp only at h ⊢
  split_ifs at h ⊢ <;> first | exact absurd rfl h | exact ⟨rfl, rfl⟩ | skip
  split at h
  · exact ⟨rfl, rfl⟩
  · exact absurd rfl h
  · exact absurd rfl h

theorem parseHeaderLine_ok {lineEnd : ℕ} (h : (parseHeaderLine lim buf p lineEnd).1 ≠ .prError) :
    ∃ hs, fieldLine p.pos (slice buf p.pos lineEnd) = some hs ∧
      (parseHeaderLine lim buf p lineEnd).2.phase = p.phase ∧
      (parseHeaderLine lim buf p lineEnd).2.headers = p.headers ++ [hs] := by
  unfold parseHeaderLine at h ⊢
  split_ifs at h ⊢
  · exact absurd rfl h
  · cases hl : fieldLine p.pos (slice buf p.pos lineEnd) with
    | none => rw [hl] at h; exact absurd rfl h
    | some hs =>
      simp only [hl] at h ⊢
      exact ⟨hs, rfl, processHeader_ok h⟩

/-! ### Framing -/

/-- The header slices lie before `n`. -/
def HeadersBefore (n : ℕ) (s : ParseState) : Prop := ∀ h ∈ s.parser.headers, h.Within 0 n

/-- The trailer slices lie between the head and the position. -/
def TrailersBehind (s : ParseState) : Prop :=
  ∀ h ∈ s.parser.trailers, h.Within s.parser.bodyStart s.parser.pos

theorem trailersBehind_of_nil (h : s.parser.trailers = []) : TrailersBehind s := by
  intro h' hm
  rw [h] at hm
  cases hm

theorem TrailersBehind.snoc {ts : List HeaderSlice} (h : TrailersBehind s)
    (hts : s'.parser.trailers = s.parser.trailers ++ ts)
    (hb : s'.parser.bodyStart = s.parser.bodyStart) (hp : s.parser.pos ≤ s'.parser.pos)
    (hw : ∀ h ∈ ts, h.Within s.parser.bodyStart s'.parser.pos) : TrailersBehind s' := by
  intro h' hm
  rw [hts] at hm
  rw [hb]
  rcases List.mem_append.1 hm with hm | hm
  · exact (h h' hm).mono le_rfl hp
  · exact hw h' hm

/-- What the phase says about the rest of the state. -/
def FramedPhase (s : ParseState) : ParsePhase → Prop
  | .ppReqLine | .ppHeaders =>
      HeadersBefore s.parser.pos s ∧ s.parser.trailers = [] ∧ s.chunkBody = []
  | .ppBody =>
      HeadersBefore s.parser.bodyStart s ∧ s.parser.bodyStart = s.parser.pos ∧
        s.parser.chunked = false ∧ 0 < s.parser.bodyLen ∧ s.parser.trailers = []
  | .ppChunkSize | .ppChunkData | .ppChunkCRLF =>
      HeadersBefore s.parser.bodyStart s ∧ s.parser.bodyStart ≤ s.parser.pos ∧
        s.parser.chunked = true ∧ s.parser.trailers = []
  | .ppTrailers =>
      HeadersBefore s.parser.bodyStart s ∧ s.parser.bodyStart ≤ s.parser.pos ∧
        s.parser.chunked = true ∧ TrailersBehind s
  | .ppComplete =>
      HeadersBefore s.parser.bodyStart s ∧ s.parser.bodyStart ≤ s.parser.pos ∧
        (s.parser.chunked = false →
          s.parser.pos = s.parser.bodyStart + s.parser.bodyLen ∧ s.parser.trailers = []) ∧
        TrailersBehind s
  | .ppError => True

/-- The position is inside the buffer and the phase tells the truth. -/
def Framed (buf : Bytes) (s : ParseState) : Prop :=
  s.parser.pos ≤ buf.length ∧ FramedPhase s s.parser.phase

theorem parseStep_framed (hf : Framed buf s) : Advances (Framed buf) (parseStep lim buf s) := by
  have hi := parseStep_iteration lim buf s
  have hle := hf.1
  have hph := hf.2
  have before : ∀ {nl}, HeadersBefore s.parser.pos s → s.parser.pos ≤ nl →
      ∀ h ∈ s.parser.headers, h.Within 0 (nl + 1) :=
    fun hw hnl h hm => (hw h hm).mono le_rfl (by omega)
  generalize parseStep lim buf s = st at hi
  cases hi with
  | failed | lineFailed | raised | stuck => trivial
  | waits | ended => exact hf
  | blank hnl hp =>
    have hlt := findByte_lt hnl
    rw [hp] at hph
    refine ⟨by simp only; omega, ?_⟩
    simp only [hp]
    exact ⟨before hph.1 hlt.1, hph.2⟩
  | requestLine hnl hp hr =>
    have hlt := findByte_lt hnl
    rw [hp] at hph
    obtain ⟨e1, e2, -⟩ := parseReqLine_ok hr
    refine ⟨by simp only; omega, ?_⟩
    simp only [e1]
    refine ⟨?_, (parseReqLine_sameBody _ _).trailers.trans hph.2.1, hph.2.2⟩
    intro h hm
    rw [e2] at hm
    exact before hph.1 hlt.1 h hm
  | headerLine hnl hp hr =>
    have hlt := findByte_lt hnl
    rw [hp] at hph
    obtain ⟨h, hl, e1, e2⟩ := parseHeaderLine_ok hr
    refine ⟨by simp only; omega, ?_⟩
    simp only [e1, hp]
    refine ⟨?_, (parseHeaderLine_sameBody _ _).trailers.trans hph.2.1, hph.2.2⟩
    intro h' hm
    rw [e2] at hm
    rcases List.mem_append.1 hm with hm | hm
    · exact before hph.1 hlt.1 h' hm
    · exact (within_of_fieldLine hnl hl (.inr rfl) h' hm).mono (Nat.zero_le _) le_rfl
  | chunkedBody hnl hp hc =>
    have hlt := findByte_lt hnl
    rw [hp] at hph
    exact ⟨by simp only; omega, before hph.1 hlt.1, le_rfl, hc, hph.2.1⟩
  | plainBody hnl hp hc hl =>
    have hlt := findByte_lt hnl
    rw [hp] at hph
    exact ⟨by simp only; omega, before hph.1 hlt.1, rfl, hc, by simp only; omega, hph.2.1⟩
  | noBody hnl hp =>
    have hlt := findByte_lt hnl
    rw [hp] at hph
    exact ⟨by simp only; omega, before hph.1 hlt.1, le_rfl, fun _ => ⟨rfl, hph.2.1⟩,
      trailersBehind_of_nil hph.2.1⟩
  | body hp hl =>
    rw [hp] at hph
    obtain ⟨hw, hb, hc, -, ht⟩ := hph
    exact ⟨by simp only; omega, hw, by simp only; omega, fun _ => ⟨rfl, ht⟩,
      trailersBehind_of_nil ht⟩
  | @size nl size _ hp hnl =>
    have hlt := findByte_lt hnl
    rw [hp] at hph
    obtain ⟨hw, hb, hc, ht⟩ := hph
    refine ⟨by simp only; omega, ?_⟩
    by_cases h : size = 0
    · simp only [h, if_true]
      exact ⟨hw, by simp only; omega, hc, trailersBehind_of_nil ht⟩
    · simp only [h, if_false]
      exact ⟨hw, by simp only; omega, hc, ht⟩
  | chunk hp hl =>
    rw [hp] at hph
    obtain ⟨hw, hb, hc, ht⟩ := hph
    exact ⟨by simp only [ParseState.takeChunk]; omega, hw,
      by simp only [ParseState.takeChunk]; omega, hc, ht⟩
  | part hp hl =>
    rw [hp] at hph
    obtain ⟨hw, hb, hc, ht⟩ := hph
    refine ⟨by simp only [ParseState.takeChunk]; omega, ?_⟩
    simp only [ParseState.takeChunk, hp]
    exact ⟨hw, by simp only; omega, hc, ht⟩
  | crlf hp hl =>
    rw [hp] at hph
    obtain ⟨hw, hb, hc, ht⟩ := hph
    exact ⟨by simp only; omega, hw, by simp only; omega, hc, ht⟩
  | trailersEnd hp hnl =>
    have hlt := findByte_lt hnl
    rw [hp] at hph
    obtain ⟨hw, hb, hc, ht⟩ := hph
    exact ⟨by simp only; omega, hw, by simp only; omega, fun h => by simp [hc] at h,
      ht.snoc (List.append_nil _).symm rfl (by simp only; omega) (by simp)⟩
  | trailer hp hnl hl hts =>
    have hlt := findByte_lt hnl
    rw [hp] at hph
    obtain ⟨hw, hb, hc, ht⟩ := hph
    refine ⟨by simp only; omega, ?_⟩
    simp only [hp]
    exact ⟨hw, by simp only; omega, hc, ht.snoc rfl rfl (by simp only; omega)
      (fun h hm => (within_of_fieldLine hnl hl hts h hm).mono hb le_rfl)⟩

theorem parse_framed (hs : Framed buf s) (h : parse lim buf s = .ok (r, s')) (hr : r ≠ .prError) :
    Framed buf s' :=
  parse_advances (fun _ => parseStep_framed) hs h hr

theorem Framed.append (h : Framed buf s) (x : Bytes) : Framed (buf ++ x) s :=
  ⟨h.1.trans (by simp), h.2⟩

theorem fresh_framed (p : RequestParser) (buf : Bytes) : Framed buf (.fresh p) :=
  ⟨Nat.zero_le _, by simp [ParseState.fresh, RequestParser.reset, HeadersBefore], rfl, rfl⟩

/-! ### Verdict and phase -/

/-- The verdict an iteration ends with and the phase it leaves go together; "need more" in
the body phase means that the body is not all there. -/
def PhaseAgrees (buf : Bytes) : ParseStep → Prop
  | .inr (.ok (.prComplete, s)) => s.parser.phase = .ppComplete
  | .inr (.ok (.prNeedMore, s)) => s.parser.phase ≠ .ppComplete ∧ s.parser.phase ≠ .ppError ∧
      (s.parser.phase = .ppBody → buf.length - s.parser.bodyStart < s.parser.bodyLen)
  | _ => True

theorem parseStep_phaseAgrees (lim : ParserLimits) (buf : Bytes) (s : ParseState) :
    PhaseAgrees buf (parseStep lim buf s) := by
  have hi := parseStep_iteration lim buf s
  generalize parseStep lim buf s = st at hi
  cases hi with
  | waits hw =>
    unfold ParseState.Starves at hw
    refine ⟨fun hp => ?_, fun hp => ?_, fun hp => ?_⟩ <;>
    · rw [show s.parser.phase = _ from hp] at hw
      exact hw
  | part hp => simp [PhaseAgrees, ParseState.return, ParseState.takeChunk, hp]
  | noBody | body | trailersEnd => rfl
  | ended hp => exact hp
  | _ => trivial

theorem parse_phaseAgrees (lim : ParserLimits) (buf : Bytes) (s : ParseState) :
    PhaseAgrees buf (.inr (parse lim buf s)) := by
  obtain ⟨t, _, hdone⟩ := (parseLoop lim buf).exists_reaches_done s
  have h := parseStep_phaseAgrees lim buf t
  rw [show parseStep lim buf t = .inr (parse lim buf s) from hdone] at h
  exact h

end Vortex.Http1
