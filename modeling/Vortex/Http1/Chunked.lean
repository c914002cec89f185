import Mathlib.Data.Nat.Digits.Defs
import Vortex.Http1.Segmentation

/-! # Chunk sizes and the body cap

The size of a chunk is accumulated in an `int64` by shifting, and then added to the number of
bytes already decoded, also in `int64`, before it is compared with `maxBodySize`.

* The guard before the shift keeps the accumulator in range, so an accepted size is the
  hexadecimal value of its digits (`chunkSize_exact`) and no shift wraps (`shiftsFit`).
* `chunkBody.len + chunkRemaining ≤ maxBodySize` is an invariant of the loop (`Capped`), kept
  by every iteration (`parseStep_capped`) and hence by every sequence of reads.
* The sum is not protected by that guard: a size line near `2^63` after at least one decoded
  byte overflows it.  `chunk_arithmetic_iff` says that this is the only way in which the
  arithmetic of the chunk phases can fail. -/

namespace Vortex.Http1

open Vortex.FieldRules

variable {lim : ParserLimits} {buf : Bytes} {s s' : ParseState} {size : ℤ} {d : Defect}

/-! ### The value of a size line -/

/-- The digits at the beginning of a size line. -/
def hexDigits : Bytes → List ℕ
  | [] => []
  | c :: rest =>
      match hexDigit c with
      | some d => d :: hexDigits rest
      | none => []

/-- The number a size line denotes: its digits in base 16, the most significant first. -/
def hexValue (line : Bytes) : ℕ := Nat.ofDigits 16 (hexDigits line).reverse

theorem hexDigit_lt {c : UInt8} {d : ℕ} (h : hexDigit c = some d) : d < 16 := by
  have hc := c.toNat_lt
  unfold hexDigit at h
  simp only [UInt8.le_iff_toNat_le, UInt8.reduceToNat] at h
  split_ifs at h <;> cases h <;> omega

theorem wrap64_shift (h0 : 0 ≤ size) (h : ¬ size > (int64High - 15) / 16) :
    wrap64 (size * 16) = size * 16 ∧ size * 16 + 15 ≤ int64High := by
  unfold int64High at h ⊢
  unfold wrap64
  omega

theorem sizeLoop_exact : ∀ (line : Bytes) (size : ℤ) (digits : ℕ) {v : ℤ} {n : ℕ},
    0 ≤ size → size ≤ int64High → sizeLoop line size digits = .ok (v, n) →
    v = size * 16 ^ (hexDigits line).length + hexValue line ∧ v ≤ int64High ∧
      n = digits + (hexDigits line).length
  | [], size, digits, v, n, _, hs, h => by
    cases h
    simp [hexDigits, hexValue, hs]
  | c :: rest, size, digits, v, n, h0, hs, h => by
    unfold sizeLoop at h
    cases hd : hexDigit c with
    | none =>
      simp only [hd] at h
      split_ifs at h
      cases h
      simp [hexDigits, hexValue, hd, hs]
    | some d =>
      simp only [hd] at h
      split_ifs at h with hg
      obtain ⟨hw, hmax⟩ := wrap64_shift h0 hg
      have hd16 := hexDigit_lt hd
      rw [hw] at h
      obtain ⟨hv, hle, hn⟩ := sizeLoop_exact rest _ _ (by omega) (by omega) h
      refine ⟨?_, hle, ?_⟩
      · have e : hexValue (c :: rest) =
            hexValue rest + 16 ^ (hexDigits rest).length * d := by
          unfold hexValue
          simp only [hexDigits, hd, List.reverse_cons, Nat.ofDigits_append,
            List.length_reverse, Nat.ofDigits_singleton]
        rw [hv, e]
        simp only [hexDigits, hd, List.length_cons]
        push_cast
        ring
      · simp only [hexDigits, hd, List.length_cons]
        omega

theorem chunkSize_exact {line : Bytes} (h : chunkSize line = .ok size) :
    size = hexValue line ∧ size ≤ int64High ∧ hexDigits line ≠ [] := by
  unfold chunkSize at h
  match hl : sizeLoop line 0 0 with
  | .error status => rw [hl] at h; cases h
  | .ok (_, 0) => rw [hl] at h; cases h
  | .ok (v, n + 1) =>
    rw [hl] at h
    cases h
    obtain ⟨hv, hle, hn⟩ := sizeLoop_exact line 0 0 (by omega) (by decide) hl
    refine ⟨by rw [hv]; simp, hle, fun hnil => ?_⟩
    rw [hnil] at hn
    simp at hn

/-- Every shift the digit loop performs on `line` has its exact result in the `int64` range. -/
def ShiftsFit : Bytes → ℤ → Prop
  | [], _ => True
  | c :: rest, size =>
      match hexDigit c with
      | some d =>
          size > (int64High - 15) / 16 ∨
            (wrap64 (size * 16) = size * 16 ∧ size * 16 + d ≤ int64High ∧
              ShiftsFit rest (wrap64 (size * 16) + d))
      | none => True

theorem shiftsFit : ∀ (line : Bytes) (size : ℤ), 0 ≤ size → ShiftsFit line size
  | [], _, _ => trivial
  | c :: rest, size, h0 => by
    unfold ShiftsFit
    cases hd : hexDigit c with
    | none => trivial
    | some d =>
      have hd16 := hexDigit_lt hd
      by_cases hg : size > (int64High - 15) / 16
      · exact .inl hg
      · obtain ⟨hw, hmax⟩ := wrap64_shift h0 hg
        refine .inr ⟨hw, by omega, ?_⟩
        rw [hw]
        exact shiftsFit rest _ (by omega)

/-! ### What parsing the head leaves alone -/

/-- The fields of the parser that only the body phases and `endOfHead` write. -/
structure SameBody (p p' : RequestParser) : Prop where
  chunkRemaining : p'.chunkRemaining = p.chunkRemaining
  trailers : p'.trailers = p.trailers
  trailerCount : p'.trailerCount = p.trailerCount
  bodyStart : p'.bodyStart = p.bodyStart
  bodyLen : p'.bodyLen = p.bodyLen

theorem SameBody.trans {p q r : RequestParser} (h1 : SameBody p q) (h2 : SameBody q r) :
    SameBody p r :=
  ⟨h2.1.trans h1.1, h2.2.trans h1.2, h2.3.trans h1.3, h2.4.trans h1.4, h2.5.trans h1.5⟩

theorem fail_sameBody (p : RequestParser) (status : ℕ) : SameBody p (p.fail status).2 :=
  ⟨rfl, rfl, rfl, rfl, rfl⟩

theorem parseVersion_sameBody (p : RequestParser) (v : Bytes) :
    SameBody p (parseVersion p v).2 := by
  unfold parseVersion
  split
  · split_ifs <;> first | exact fail_sameBody p _ | exact ⟨rfl, rfl, rfl, rfl, rfl⟩
  · exact fail_sameBody p _

theorem parseReqLine_sameBody (p : RequestParser) (line : Bytes) :
    SameBody p (parseReqLine p line).2 := by
  unfold parseReqLine
  split
  · exact fail_sameBody p _
  · split
    · exact fail_sameBody p _
    · split
      · exact ⟨rfl, rfl, rfl, rfl, rfl⟩
      · dsimp only
        split_ifs
        · exact ⟨rfl, rfl, rfl, rfl, rfl⟩
        · exact ⟨rfl, rfl, rfl, rfl, rfl⟩
        · refine .trans ?_ (parseVersion_sameBody _ _)
          exact ⟨rfl, rfl, rfl, rfl, rfl⟩

theorem processHeader_sameBody (p : RequestParser) (name val : Bytes) :
    SameBody p (processHeader p name val).2 := by
  unfold processHeader
  dsimp only
  split_ifs <;> first | exact ⟨rfl, rfl, rfl, rfl, rfl⟩ | skip
  split <;> exact ⟨rfl, rfl, rfl, rfl, rfl⟩

theorem parseHeaderLine_sameBody (p : RequestParser) (lineEnd : ℕ) :
    SameBody p (parseHeaderLine lim buf p lineEnd).2 := by
  unfold parseHeaderLine
  split_ifs
  · exact fail_sameBody p _
  · split
    · exact fail_sameBody p _
    · refine .trans ?_ (processHeader_sameBody _ _ _)
      exact ⟨rfl, rfl, rfl, rfl, rfl⟩

/-! ### The body cap -/

/-- The bytes decoded and the bytes of the current chunk still to come fit the cap. -/
def Capped (lim : ParserLimits) (s : ParseState) : Prop :=
  (s.chunkBody.length : ℤ) + s.parser.chunkRemaining ≤ lim.maxBodySize

/-- An iteration ends in a state with property `P`, if it ends in a state. -/
def EndsIn (P : ParseState → Prop) : ParseStep → Prop
  | .inl s => P s
  | .inr (.ok (_, s)) => P s
  | .inr (.error _) => True

theorem capped_of_same {p : RequestParser} (h : Capped lim s)
    (hp : p.chunkRemaining = s.parser.chunkRemaining) :
    Capped lim { s with parser := p } := by
  unfold Capped at h ⊢
  rw [hp]
  exact h

theorem parseStep_capped (h : Capped lim s) : EndsIn (Capped lim) (parseStep lim buf s) := by
  have hi := parseStep_iteration lim buf s
  have htake : Capped lim (s.takeChunk buf) := by
    unfold Capped at h ⊢
    simp only [ParseState.takeChunk, List.length_append, length_slice]
    omega
  generalize parseStep lim buf s = st at hi
  cases hi with
  | failed hp => exact capped_of_same (s := s) h hp
  | @lineFailed nl _ hr =>
    refine capped_of_same h ?_
    rcases hr with rfl | rfl
    · exact (parseReqLine_sameBody _ _).chunkRemaining
    · exact (parseHeaderLine_sameBody _ _).chunkRemaining
  | raised => trivial
  | requestLine => exact capped_of_same h (parseReqLine_sameBody _ _).chunkRemaining
  | headerLine => exact capped_of_same h (parseHeaderLine_sameBody _ _).chunkRemaining
  | @size nl size total hp hf hsize hadd hcap =>
    have h0 := (chunkSize_exact hsize).1
    unfold add64 at hadd
    split_ifs at hadd
    cases hadd
    change (s.chunkBody.length : ℤ) + size.toNat ≤ lim.maxBodySize
    omega
  | chunk | part => exact htake
  | _ => exact capped_of_same h rfl

/-! ### From iterations to reads -/

section invariant

variable {P : ParseState → Prop} (hstep : ∀ b s, P s → EndsIn P (parseStep lim b s))

include hstep

theorem reaches_invariant {t : ParseState} (hs : P s) (h : (parseLoop lim buf).Reaches s t) :
    P t := by
  refine h.invariant (fun u u' hu he => ?_) hs
  have := hstep buf u hu
  rw [show parseStep lim buf u = .inl u' from he] at this
  exact this

theorem parse_invariant {r : ParseResult} (hs : P s) (h : parse lim buf s = .ok (r, s')) :
    P s' := by
  obtain ⟨t, ht, hdone⟩ := (parseLoop lim buf).exists_reaches_done s
  have := hstep buf t (reaches_invariant hstep hs ht)
  rw [show parseStep lim buf t = .inr (.ok (r, s')) from h ▸ hdone] at this
  exact this

theorem visits_invariant {b : Bytes} {reads : List Bytes} {t : ParseState} (hs : P s)
    (h : Visits lim buf s reads b t) : P t := by
  induction h with
  | here hr => exact reaches_invariant hstep hs hr
  | later hp _ ih => exact ih (parse_invariant hstep hs hp)

theorem parseReads_invariant : ∀ (reads : List Bytes) {buf : Bytes} {s s' : ParseState}
    {r : ParseResult}, P s → parseReads lim buf s reads = .ok (r, s') → P s'
  | [], _, _, _, _, hs, h => by cases h; exact hs
  | x :: xs, buf, s, s', r, hs, h => by
    unfold parseReads at h
    split at h
    · next t ht => exact parseReads_invariant xs (parse_invariant hstep hs ht) h
    · exact parse_invariant hstep hs h

end invariant

/-! ### The sum that is not protected -/

/-- The size the iteration adds to the length of `chunkBody`, if it comes to the addition. -/
def announcedSize (buf : Bytes) (t : ParseState) : Option ℤ :=
  match findByte buf t.parser.pos buf.length lf with
  | none => none
  | some nl =>
      if nl - t.parser.pos > 128 then none
      else if nl = t.parser.pos ∨ buf.getD (nl - 1) 0 ≠ cr then none
      else (chunkSize (slice buf t.parser.pos (nl - 1))).toOption

theorem announcedSize_nonneg (h : announcedSize buf s = some size) : 0 ≤ size := by
  unfold announcedSize at h
  split at h
  · cases h
  · split_ifs at h
    cases hc : chunkSize (slice buf s.parser.pos _) with
    | error e => rw [hc] at h; cases h
    | ok v =>
      rw [hc] at h
      cases h
      rw [(chunkSize_exact hc).1]
      omega

theorem add64_eq_error {n : ℕ} (h0 : 0 ≤ size) :
    add64 n size = .error d ↔ int64High < n + size := by
  unfold add64 int64High
  cases d
  split_ifs with h <;> simp <;> omega

theorem parseStep_raises (h : parseStep lim buf s = .inr (.error d)) :
    s.parser.phase = .ppChunkSize ∧
      ∃ size, announcedSize buf s = some size ∧ int64High < s.chunkBody.length + size := by
  have hi := parseStep_iteration lim buf s
  rw [h] at hi
  cases hi with
  | raised hp hf hlen hcr hsize hadd =>
    have h0 := (chunkSize_exact hsize).1
    refine ⟨hp, _, ?_, (add64_eq_error (by omega)).1 hadd⟩
    simp only [announcedSize, hf, if_neg hlen, if_neg hcr, hsize]
    rfl

theorem chunkSizeStep_raises (ha : announcedSize buf s = some size)
    (hover : int64High < s.chunkBody.length + size) :
    chunkSizeStep lim buf s = .inr (.error d) := by
  have h0 := announcedSize_nonneg ha
  unfold announcedSize at ha
  unfold chunkSizeStep
  split at ha
  · cases ha
  · next nl hf =>
    split_ifs at ha with h1 h2
    simp only [hf, if_neg h1, if_neg h2]
    cases hc : chunkSize (slice buf s.parser.pos (nl - 1)) with
    | error e => rw [hc] at ha; cases ha
    | ok v =>
      rw [hc] at ha
      cases ha
      simp only [acceptSize, (add64_eq_error (d := d) h0).2 hover]

theorem parseStep_exact (hp : s.parser.phase = .ppChunkSize) (h : parseStep lim buf s = .inl s') :
    ∃ nl, findByte buf s.parser.pos buf.length lf = some nl ∧
      s'.parser.chunkRemaining = hexValue (slice buf s.parser.pos (nl - 1)) := by
  have hi := parseStep_iteration lim buf s
  rw [h] at hi
  cases hi with
  | size _ hf hsize =>
    refine ⟨_, hf, ?_⟩
    rw [(chunkSize_exact hsize).1]
    rfl
  | blank _ hp' | requestLine _ hp' | headerLine _ hp' | chunkedBody _ hp' | plainBody _ hp'
  | chunk hp' | crlf hp' | trailer hp' => rw [hp] at hp'; cases hp'

/-- The arithmetic of the chunk phases in one iteration on `b` from `t`: no addition raises,
no shift wraps, the subtraction stays in range, an accepted size is exact and the cap holds. -/
structure ChunkArithmetic (lim : ParserLimits) (b : Bytes) (t : ParseState) : Prop where
  sum_in_range : ∀ d, parseStep lim b t ≠ .inr (.error d)
  shifts_in_range : ∀ nl, ShiftsFit (slice b t.parser.pos (nl - 1)) 0
  remaining_in_range : (t.parser.chunkRemaining : ℤ) ≤ int64High ∧
    (0 : ℤ) ≤ t.parser.chunkRemaining - min (b.length - t.parser.pos) t.parser.chunkRemaining
  size_exact : ∀ t', t.parser.phase = .ppChunkSize → parseStep lim b t = .inl t' →
    ∃ nl, findByte b t.parser.pos b.length lf = some nl ∧
      t'.parser.chunkRemaining = hexValue (slice b t.parser.pos (nl - 1))
  capped : Capped lim t

/-- **When the chunk arithmetic is safe.**  In a run over any reads the arithmetic of the chunk
phases is exact and in range and the body cap holds in every state, exactly when every size
line the run comes to has a size that still fits an `int64` together with the bytes decoded
before it. -/
theorem chunk_arithmetic_iff (lim : ParserLimits) (h₀ : 0 ≤ lim.maxBodySize)
    (hmax : lim.maxBodySize ≤ int64High) (p : RequestParser) (reads : List Bytes) :
    ((∀ b t, Visits lim [] (.fresh p) reads b t → ChunkArithmetic lim b t) ∧
      ∀ r s, parseReads lim [] (.fresh p) reads = .ok (r, s) → Capped lim s) ↔
    ∀ b t, Visits lim [] (.fresh p) reads b t → t.parser.phase = .ppChunkSize →
      ∀ size, announcedSize b t = some size → t.chunkBody.length + size ≤ int64High := by
  have hinit : Capped lim (.fresh p) := by
    unfold Capped ParseState.fresh RequestParser.reset
    simpa using h₀
  constructor
  · intro h b t hv hp size hsize
    by_contra hover
    refine ((h.1 b t hv).sum_in_range .overflow) ?_
    unfold parseStep
    rw [hp]
    exact chunkSizeStep_raises hsize (not_le.1 hover)
  · intro h
    refine ⟨fun b t hv => ?_, fun r s =>
      parseReads_invariant (fun _ _ hs => parseStep_capped hs) reads hinit⟩
    have hcap : Capped lim t := visits_invariant (fun _ _ hs => parseStep_capped hs) hinit hv
    refine ⟨fun d hd => ?_, fun nl => shiftsFit _ 0 le_rfl, ?_, fun t' hp ht' => ?_, hcap⟩
    · obtain ⟨hp, size, hsize, hover⟩ := parseStep_raises hd
      exact absurd (h b t hv hp size hsize) (not_le.2 hover)
    · unfold Capped at hcap
      omega
    · exact parseStep_exact hp ht'

theorem chunk_arithmetic_iff_chunkedRequest : (0 : ℤ) ≤ 1024 ∧ (1024 : ℤ) ≤ int64High ∧
    (((∀ b t, Visits ⟨8192, 100, 1024⟩ [] (.fresh {}) [chunkedRequest] b t →
        ChunkArithmetic ⟨8192, 100, 1024⟩ b t) ∧
      ∀ r s, parseReads ⟨8192, 100, 1024⟩ [] (.fresh {}) [chunkedRequest] = .ok (r, s) →
        Capped ⟨8192, 100, 1024⟩ s) ↔
    ∀ b t, Visits ⟨8192, 100, 1024⟩ [] (.fresh {}) [chunkedRequest] b t →
      t.parser.phase = .ppChunkSize →
      ∀ size, announcedSize b t = some size → t.chunkBody.length + size ≤ int64High) :=
  ⟨by decide, by decide,
    chunk_arithmetic_iff ⟨8192, 100, 1024⟩ (by decide) (by decide) {} [chunkedRequest]⟩

/-- One byte of body, then a chunk that announces `2^63 - 1` bytes. -/
def overflowRequest : Bytes :=
  ascii "POST / HTTP/1.1\r\nHost:\r\nTransfer-Encoding:chunked\r\n\r\n" ++
    ascii "1\r\na\r\n7fffffffffffffff\r\n"

/-- With a cap of 1024 bytes the addition of the size to the decoded length overflows. -/
theorem overflowRequest_raises :
    parse ⟨8192, 100, 1024⟩ overflowRequest (.fresh {}) = .error .overflow ∧
      ∃ b t, Visits ⟨8192, 100, 1024⟩ [] (.fresh {}) [overflowRequest] b t ∧
        ¬ ChunkArithmetic ⟨8192, 100, 1024⟩ b t := by
  have hrun : parse ⟨8192, 100, 1024⟩ overflowRequest (.fresh {}) = .error .overflow := by
    decide +kernel
  obtain ⟨t, ht, hdone⟩ :=
    (parseLoop ⟨8192, 100, 1024⟩ overflowRequest).exists_reaches_done (.fresh {})
  refine ⟨hrun, overflowRequest, t, Visits.first ht, fun ha => ?_⟩
  exact ha.sum_in_range .overflow (hrun ▸ hdone)

end Vortex.Http1
