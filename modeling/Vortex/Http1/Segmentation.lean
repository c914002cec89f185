import Vortex.Http1.Parser

/-! # Reading a request in pieces

`parse` is called again on a longer buffer after every read.  One iteration of its loop looks
at the buffer only through the position of the next line feed and the slice before it, so an
iteration that found its line feed takes the same step on every longer buffer
(`lineStep_stepAppend`).  What is left are the
iterations that ran out of bytes: they return "need more" in a state from which the longer
buffer is parsed as from the state before (`parseStep_append`), or they reject a line for its
length before its line feed arrived.

The last case is where the phases differ.  A head line or a size line that is too long
without its line feed is too long with it.  A trailer line is not: the length is only checked
while the line feed is missing, so a long line that arrives whole is taken unless another check
refuses it (`LongTrailerLine` with `TrailersBounded` is the side condition).  `parse_append` and `parseReads_agree` carry
the comparison to whole calls and to whole sequences of reads. -/

namespace Vortex.Http1

open Vortex.FieldRules

variable {lim : ParserLimits} {a x : Bytes} {s s' : ParseState} {h : HeaderSlice}

/-! ### A field line and its slices -/

theorem fieldLine_bounds {base : ℕ} {line : Bytes} (hl : fieldLine base line = some h) :
    h.nameStart = base ∧ h.nameStart + h.nameLen < base + line.length ∧
      base ≤ h.valStart ∧ h.valStart + h.valLen ≤ base + line.length := by
  unfold fieldLine at hl
  cases hc : findByte line 0 line.length colon with
  | none => simp [hc] at hl
  | some c =>
    have hlt := findByte_lt hc
    simp only [hc] at hl
    split_ifs at hl
    cases hl
    have e : (line.drop (c + 1)).length =
        ((line.drop (c + 1)).takeWhile isOws).length +
          ((line.drop (c + 1)).dropWhile isOws).length := by
      rw [← List.length_append, List.takeWhile_append_dropWhile]
    have hr : (((line.drop (c + 1)).dropWhile isOws).rdropWhile isOws).length ≤
        ((line.drop (c + 1)).dropWhile isOws).length :=
      (List.rdropWhile_prefix isOws _).length_le
    rw [List.length_drop] at e
    refine ⟨rfl, ?_, ?_, ?_⟩ <;> simp only <;> omega

theorem name_append (hb : h.nameStart + h.nameLen ≤ a.length) :
    h.name (a ++ x) = h.name a := slice_append_left _ hb

theorem val_append (hb : h.valStart + h.valLen ≤ a.length) :
    h.val (a ++ x) = h.val a := slice_append_left _ hb

theorem fieldLine_slice_bounds {base e : ℕ} (he : e ≤ a.length)
    (hl : fieldLine base (slice a base e) = some h) :
    h.nameStart + h.nameLen ≤ a.length ∧ h.valStart + h.valLen ≤ a.length := by
  obtain ⟨_, h2, _, h4⟩ := fieldLine_bounds hl
  rw [length_slice] at h2 h4
  omega

theorem parseHeaderLine_append {p : RequestParser} {e : ℕ} (he : e ≤ a.length) :
    parseHeaderLine lim (a ++ x) p e = parseHeaderLine lim a p e := by
  unfold parseHeaderLine
  rw [slice_append_left _ he]
  split_ifs
  · rfl
  · cases hl : fieldLine p.pos (slice a p.pos e) with
    | none => rfl
    | some h =>
      obtain ⟨h1, h2⟩ := fieldLine_slice_bounds he hl
      simp only [name_append h1, val_append h2]

/-! ### An iteration that found its line feed -/

theorem getD_append_left {i : ℕ} (h : i < a.length) : (a ++ x).getD i 0 = a.getD i 0 := by
  simp [List.getD_eq_getElem?_getD, List.getElem?_append_left h]

variable {nl : ℕ} {buf b : Bytes} {t : ParseState} {out : ParseOutcome}

theorem trailerLine_append (hnl : nl - 1 ≤ a.length) :
    trailerLine lim (a ++ x) s nl = trailerLine lim a s nl := by
  unfold trailerLine
  simp only
  rw [slice_append_left _ hnl]
  split_ifs
  · rfl
  · cases hl : fieldLine s.parser.pos (slice a s.parser.pos (nl - 1)) with
    | none => rfl
    | some h => simp only [name_append (fieldLine_slice_bounds hnl hl).1]

/-! ### One iteration on a longer buffer -/

/-- The next trailer line is complete and longer than the header limit, counted up to its line
feed as the head lines are. -/
def LongTrailerLine (lim : ParserLimits) (buf : Bytes) (t : ParseState) : Prop :=
  t.parser.phase = .ppTrailers ∧
    ∃ nl, findByte buf t.parser.pos buf.length lf = some nl ∧
      (nl : ℤ) - t.parser.pos > lim.maxHeaderSize

/-- The next trailer line fails a check that does not look at its length: the CR before its line
feed is missing, it is one line too many, or it is no field line. -/
def BadTrailerLine (lim : ParserLimits) (buf : Bytes) (t : ParseState) : Prop :=
  ∃ nl, findByte buf t.parser.pos buf.length lf = some nl ∧
    (nl = t.parser.pos ∨ buf.getD (nl - 1) 0 ≠ cr ∨ nl - 1 ≠ t.parser.pos ∧
      (((t.parser.trailerCount + 1 : ℕ) : ℤ) > lim.maxHeaderCount ∨
        fieldLine t.parser.pos (slice buf t.parser.pos (nl - 1)) = none))

/-- The iteration ends the call with a protocol error. -/
def Rejects (lim : ParserLimits) (buf : Bytes) (t : ParseState) : Prop :=
  ∃ t', parseStep lim buf t = .inr (.ok (.prError, t'))

theorem LongTrailerLine.rejects_iff (h : LongTrailerLine lim a s) :
    Rejects lim a s ↔ BadTrailerLine lim a s := by
  obtain ⟨hp, nl, hf, -⟩ := h
  simp only [Rejects, BadTrailerLine, parseStep, hp, trailerStep, hf, Option.some.injEq,
    exists_eq_left', trailerLine]
  by_cases h1 : nl = s.parser.pos ∨ a.getD (nl - 1) 0 ≠ cr
  · rw [if_pos h1]
    exact iff_of_true ⟨_, rfl⟩ (or_assoc.mp (.inl h1))
  rw [if_neg h1, ← or_assoc, or_iff_right h1]
  by_cases h2 : nl - 1 = s.parser.pos
  · simp [h2, ParseState.return]
  rw [if_neg h2, and_iff_right h2]
  split_ifs with h3
  · exact iff_of_true ⟨_, rfl⟩ (.inl h3)
  · rw [or_iff_right h3]
    cases fieldLine s.parser.pos (slice a s.parser.pos (nl - 1)) with
    | none => exact iff_of_true ⟨_, rfl⟩ rfl
    | some f => simp only; split_ifs <;> simp [ParseState.continueWith]

/-- How an iteration on `a` compares with the same iteration on `a ++ x`. -/
inductive StepAppend (lim : ParserLimits) (a x : Bytes) (s : ParseState) : Prop
  | same : parseStep lim (a ++ x) s = parseStep lim a s →
      (∀ s', parseStep lim a s ≠ .inr (.ok (.prNeedMore, s'))) → StepAppend lim a x s
  | wait : parseStep lim a s = .inr (.ok (.prNeedMore, s)) → StepAppend lim a x s
  | partialChunk (s' : ParseState) : parseStep lim a s = .inr (.ok (.prNeedMore, s')) →
      s'.parser.phase = .ppChunkData →
      parseStep lim (a ++ x) s = parseStep lim (a ++ x) s' → StepAppend lim a x s
  | tooLong : Rejects lim a s →
      (¬ LongTrailerLine lim (a ++ x) s → Rejects lim (a ++ x) s) → StepAppend lim a x s

theorem parseStep_ne_needMore (hw : ¬ s.Starves a) (hp : s.parser.phase ≠ .ppChunkData)
    (s' : ParseState) : parseStep lim a s ≠ .inr (.ok (.prNeedMore, s')) := by
  intro h
  have hi := parseStep_iteration lim a s
  rw [h] at hi
  cases hi with
  | waits h' => exact hw h'
  | part h' => exact hp h'

/-- A phase that reads lines: `line` is what it does with a line, and a line too long without
its line feed is too long with it, or a long trailer line. -/
theorem lineStep_stepAppend {tooLong : Bytes → Prop} [DecidablePred tooLong] {status : ℕ}
    {line : Bytes → ℕ → ParseStep}
    (hph : ∀ b, parseStep lim b s = match findByte b s.parser.pos b.length lf with
      | none => if tooLong b then s.failWith status else s.return .prNeedMore s.parser
      | some nl => line b nl)
    (hw : findByte a s.parser.pos a.length lf ≠ none → ¬ s.Starves a)
    (hp : s.parser.phase ≠ .ppChunkData)
    (hline : ∀ nl, nl < a.length → line (a ++ x) nl = line a nl)
    (hover : tooLong a → tooLong (a ++ x) ∧ ∀ nl, a.length ≤ nl →
      findByte (a ++ x) s.parser.pos (a ++ x).length lf = some nl →
      ¬ LongTrailerLine lim (a ++ x) s → ∃ st, line (a ++ x) nl = s.failWith st) :
    StepAppend lim a x s := by
  cases hf : findByte a s.parser.pos a.length lf with
  | some nl =>
    refine .same ?_ (parseStep_ne_needMore (hw (by simp [hf])) hp)
    rw [hph, hph, findByte_append_of_some hf (by simp), hf]
    exact hline nl (findByte_lt hf).2.1
  | none =>
    by_cases hlen : tooLong a
    · obtain ⟨hlen', hlate⟩ := hover hlen
      refine .tooLong ⟨_, by rw [hph, hf]; exact if_pos hlen⟩ fun hlong => ?_
      cases hb : findByte (a ++ x) s.parser.pos (a ++ x).length lf with
      | none => exact ⟨_, by rw [hph, hb]; exact if_pos hlen'⟩
      | some nl =>
        obtain ⟨st, e⟩ := hlate nl (le_of_findByte_append hf hb) hb hlong
        exact ⟨_, by rw [hph, hb]; exact e⟩
    · exact .wait (by rw [hph, hf]; exact if_neg hlen)

theorem headStep_stepAppend (hp : s.parser.phase = .ppReqLine ∨ s.parser.phase = .ppHeaders) :
    StepAppend lim a x s := by
  have hph : ∀ b, parseStep lim b s = headStep lim b s := by
    intro b; unfold parseStep; rcases hp with hp | hp <;> rw [hp]
  refine lineStep_stepAppend hph ?_ ?_ (fun nl hnl => ?_) fun hlen => ⟨?_, fun nl hnl _ _ => ?_⟩
  · rcases hp with hp | hp <;> simp [ParseState.Starves, hp]
  · rcases hp with hp | hp <;> simp [hp]
  · rw [getD_append_left (by omega), slice_append_left _ (by omega),
      parseHeaderLine_append (by omega)]
  · rw [List.length_append]; push_cast; omega
  · by_cases hcr : nl = s.parser.pos ∨ (a ++ x).getD (nl - 1) 0 ≠ cr
    · exact ⟨_, if_pos hcr⟩
    · exact ⟨_, (if_neg hcr).trans (if_pos (by omega))⟩

theorem chunkSizeStep_stepAppend (hp : s.parser.phase = .ppChunkSize) : StepAppend lim a x s := by
  have hph : ∀ b, parseStep lim b s = chunkSizeStep lim b s := by
    intro b; unfold parseStep; rw [hp]
  refine lineStep_stepAppend hph ?_ (by simp [hp]) (fun nl hnl => ?_)
    fun hlen => ⟨?_, fun nl hnl _ _ => ⟨_, if_pos (by omega)⟩⟩
  · simp [ParseState.Starves, hp]
  · rw [getD_append_left (by omega), slice_append_left _ (by omega)]
  · rw [List.length_append]; omega

theorem trailerStep_stepAppend (hp : s.parser.phase = .ppTrailers) : StepAppend lim a x s := by
  have hph : ∀ b, parseStep lim b s = trailerStep lim b s := by
    intro b; unfold parseStep; rw [hp]
  refine lineStep_stepAppend hph ?_ (by simp [hp]) (fun nl hnl => ?_)
    fun hlen => ⟨?_, fun nl hnl hb hlong => absurd ⟨hp, nl, hb, by omega⟩ hlong⟩
  · simp [ParseState.Starves, hp]
  · rw [getD_append_left (by omega), trailerLine_append (by omega)]
  · rw [List.length_append]; push_cast; omega

theorem bodyStep_stepAppend (hp : s.parser.phase = .ppBody) : StepAppend lim a x s := by
  have hph : ∀ b, parseStep lim b s = bodyStep b s := by
    intro b; unfold parseStep; rw [hp]
  by_cases hlen : a.length - s.parser.bodyStart < s.parser.bodyLen
  · exact .wait ((hph a).trans (if_pos hlen))
  · have hlen' : ¬ (a ++ x).length - s.parser.bodyStart < s.parser.bodyLen := by
      rw [List.length_append]; omega
    refine .same ?_ (parseStep_ne_needMore ?_ (by simp [hp]))
    · rw [hph, hph]; exact (if_neg hlen').trans (if_neg hlen).symm
    · simpa [ParseState.Starves, hp] using hlen

theorem chunkCRLFStep_stepAppend (hp : s.parser.phase = .ppChunkCRLF) : StepAppend lim a x s := by
  have hph : ∀ b, parseStep lim b s = chunkCRLFStep b s := by
    intro b; unfold parseStep; rw [hp]
  by_cases hlen : a.length - s.parser.pos < 2
  · exact .wait ((hph a).trans (if_pos hlen))
  · have hlen' : ¬ (a ++ x).length - s.parser.pos < 2 := by
      rw [List.length_append]; omega
    refine .same ?_ (parseStep_ne_needMore ?_ (by simp [hp]))
    · rw [hph, hph]; unfold chunkCRLFStep
      simp only [if_neg hlen, if_neg hlen']
      rw [getD_append_left (by omega), getD_append_left (by omega)]
    · simpa [ParseState.Starves, hp] using hlen

theorem takeChunk_append (hp : s.parser.pos ≤ a.length) :
    (s.takeChunk a).takeChunk (a ++ x) = s.takeChunk (a ++ x) := by
  have hl : (a ++ x).length = a.length + x.length := List.length_append
  have hpos : (s.takeChunk a).parser.pos + min ((a ++ x).length - (s.takeChunk a).parser.pos)
      (s.takeChunk a).parser.chunkRemaining =
      s.parser.pos + min ((a ++ x).length - s.parser.pos) s.parser.chunkRemaining := by
    simp only [ParseState.takeChunk]; omega
  have hrem : (s.takeChunk a).parser.chunkRemaining - min ((a ++ x).length -
      (s.takeChunk a).parser.pos) (s.takeChunk a).parser.chunkRemaining =
      s.parser.chunkRemaining - min ((a ++ x).length - s.parser.pos) s.parser.chunkRemaining := by
    simp only [ParseState.takeChunk]; omega
  have hbody : (s.takeChunk a).chunkBody ++ slice (a ++ x) (s.takeChunk a).parser.pos
      (s.parser.pos + min ((a ++ x).length - s.parser.pos) s.parser.chunkRemaining) =
      s.chunkBody ++ slice (a ++ x) s.parser.pos
        (s.parser.pos + min ((a ++ x).length - s.parser.pos) s.parser.chunkRemaining) := by
    simp only [ParseState.takeChunk]
    rw [List.append_assoc, ← slice_append_left (b := x) _ (by omega),
      slice_split _ (by omega) (by omega)]
  rw [ParseState.takeChunk, hpos, hrem, hbody]
  rfl

theorem takeChunk_eq_self (h : s.parser.chunkRemaining = 0) : s.takeChunk a = s := by
  obtain ⟨p, body⟩ := s
  cases p
  simp_all [ParseState.takeChunk, slice]

theorem chunkDataStep_eq (hl : b.length - s.parser.pos ≠ 0) : chunkDataStep b s =
    if (s.takeChunk b).parser.chunkRemaining = 0 then
      (s.takeChunk b).continueWith { (s.takeChunk b).parser with phase := .ppChunkCRLF }
    else (s.takeChunk b).return .prNeedMore (s.takeChunk b).parser := if_neg hl

theorem chunkDataStep_stepAppend (hp : s.parser.phase = .ppChunkData) : StepAppend lim a x s := by
  have hph : ∀ b t, t.parser.phase = .ppChunkData → parseStep lim b t = chunkDataStep b t := by
    intro b t ht; unfold parseStep; rw [ht]
  by_cases h0 : a.length - s.parser.pos = 0
  · exact .wait ((hph a s hp).trans (if_pos h0))
  · have h0' : (a ++ x).length - s.parser.pos ≠ 0 := by rw [List.length_append]; omega
    have htake : (s.takeChunk a).takeChunk (a ++ x) = s.takeChunk (a ++ x) :=
      takeChunk_append (by omega)
    have e := chunkDataStep_eq h0
    have e' := chunkDataStep_eq h0'
    rw [← hph _ s hp] at e e'
    by_cases hrem : (s.takeChunk a).parser.chunkRemaining = 0
    · rw [← htake, takeChunk_eq_self hrem] at e'
      refine .same (e'.trans e.symm) fun s' h => ?_
      rw [e, if_pos hrem] at h
      cases h
    · rw [if_neg hrem] at e
      refine .partialChunk (s.takeChunk a) e hp ?_
      by_cases hx : (a ++ x).length - (s.takeChunk a).parser.pos = 0
      · have ex : x = [] := by
          rw [List.length_append] at hx
          simp only [ParseState.takeChunk] at hx
          exact List.length_eq_zero_iff.mp (by omega)
        subst ex
        rw [List.append_nil] at hx ⊢
        exact e.trans ((hph a (s.takeChunk a) hp).trans (if_pos hx)).symm
      · rw [e', hph _ (s.takeChunk a) hp, chunkDataStep_eq hx, htake]

theorem parseStep_append (lim : ParserLimits) (a x : Bytes) (s : ParseState) :
    StepAppend lim a x s := by
  cases hp : s.parser.phase with
  | ppReqLine => exact headStep_stepAppend (.inl hp)
  | ppHeaders => exact headStep_stepAppend (.inr hp)
  | ppBody => exact bodyStep_stepAppend hp
  | ppChunkSize => exact chunkSizeStep_stepAppend hp
  | ppChunkData => exact chunkDataStep_stepAppend hp
  | ppChunkCRLF => exact chunkCRLFStep_stepAppend hp
  | ppTrailers => exact trailerStep_stepAppend hp
  | ppComplete =>
    have h : ∀ b, parseStep lim b s = .inr (.ok (.prComplete, s)) := by
      intro b; unfold parseStep; rw [hp]; rfl
    exact .same (by rw [h, h]) (by intro s' h'; rw [h] at h'; simp at h')
  | ppError =>
    have h : ∀ b, parseStep lim b s = .inr (.ok (.prError, s)) := by
      intro b; unfold parseStep; rw [hp]; rfl
    exact .same (by rw [h, h]) (by intro s' h'; rw [h] at h'; simp at h')

theorem parseStep_append_next (h : parseStep lim a s = .inl s') :
    parseStep lim (a ++ x) s = .inl s' := by
  cases parseStep_append lim a x s with
  | same e _ => rw [e, h]
  | wait hw => rw [h] at hw; cases hw
  | partialChunk t ht => rw [h] at ht; cases ht
  | tooLong hr => obtain ⟨t, ht⟩ := hr; rw [h] at ht; cases ht

theorem reaches_append (h : (parseLoop lim a).Reaches s t) :
    (parseLoop lim (a ++ x)).Reaches s t := by
  induction h with
  | refl => exact .refl _
  | next hs _ ih => exact .next (parseStep_append_next hs) ih

/-! ### A call on a longer buffer -/

/-- Every trailer line the call on `buf` comes to is within the header limit or fails another
check. -/
def TrailersBounded (lim : ParserLimits) (buf : Bytes) (s : ParseState) : Prop :=
  ∀ t, (parseLoop lim buf).Reaches s t → LongTrailerLine lim buf t → BadTrailerLine lim buf t

/-- The outcome of a call from `s` on a part of `b`, seen from the call on `b`. -/
def Resumes (lim : ParserLimits) (b : Bytes) (s : ParseState) : ParseOutcome → Prop
  | .ok (.prNeedMore, s') => parse lim b s = parse lim b s' ∧
      ∀ t, t.parser.phase = .ppTrailers → (parseLoop lim b).Reaches s' t →
        (parseLoop lim b).Reaches s t
  | .ok (.prComplete, s') => parse lim b s = .ok (.prComplete, s')
  | .ok (.prError, _) => TrailersBounded lim b s → ∃ s', parse lim b s = .ok (.prError, s')
  | .error d => parse lim b s = .error d

theorem resumes_of_step (h : parseStep lim b s = .inr out) (hn : ∀ s', out ≠ .ok (.prNeedMore, s'))
    : Resumes lim b s out := by
  have hrun : parse lim b s = out := (parseLoop lim b).run_done h
  match out, hn with
  | .ok (.prNeedMore, s'), hn => exact absurd rfl (hn s')
  | .ok (.prComplete, _), _ => exact hrun
  | .ok (.prError, s'), _ => exact fun _ => ⟨s', hrun⟩
  | .error _, _ => exact hrun

theorem resumes_next (h : parseStep lim b s = .inl s') (hr : Resumes lim b s' out) :
    Resumes lim b s out := by
  have hrun : parse lim b s = parse lim b s' := (parseLoop lim b).run_next h
  match out with
  | .ok (.prNeedMore, t) => exact ⟨hrun.trans hr.1, fun u hu hru => .next h (hr.2 u hu hru)⟩
  | .ok (.prComplete, _) => exact hrun.trans hr
  | .ok (.prError, _) => exact fun hb => hrun ▸ hr (fun t ht => hb t (.next h ht))
  | .error _ => exact hrun.trans hr

/-- **Resumption**: a call on a part of the buffer and then on the whole is the call on the
whole. -/
theorem parse_append (lim : ParserLimits) (a x : Bytes) (s : ParseState) :
    Resumes lim (a ++ x) s (parse lim a s) := by
  refine (parseLoop lim a).run_induction (P := Resumes lim (a ++ x)) ?_ ?_ s
  · intro s out h
    change parseStep lim a s = .inr out at h
    cases parseStep_append lim a x s with
    | same e hn =>
      refine resumes_of_step (by rw [e, h]) fun s' hs' => hn s' ?_
      rw [h, hs']
    | wait hw =>
      rw [h] at hw
      cases hw
      exact ⟨rfl, fun _ _ ht => ht⟩
    | partialChunk s' hw hp e =>
      rw [h] at hw
      cases hw
      refine ⟨(parseLoop lim (a ++ x)).run_congr e, fun t ht hr => ?_⟩
      cases hr with
      | refl => rw [hp] at ht; cases ht
      | next hs hr => exact .next (e.trans hs) hr
    | tooLong hr hb =>
      obtain ⟨t, ht⟩ := hr
      rw [h] at ht
      cases ht
      intro htb
      obtain ⟨t', ht'⟩ : Rejects lim (a ++ x) s := by
        by_cases hlong : LongTrailerLine lim (a ++ x) s
        · exact hlong.rejects_iff.mpr (htb s (.refl s) hlong)
        · exact hb hlong
      exact ⟨t', (parseLoop lim (a ++ x)).run_done ht'⟩
  · intro s s' out h hr
    exact resumes_next (parseStep_append_next h) hr

/-! ### Whole sequences of reads -/

/-- The verdict of a call, without the state it leaves. -/
def ParseOutcome.verdict (out : ParseOutcome) : Except Defect ParseResult := out.map Prod.fst

/-- Equal verdicts, and on `prComplete` equal states. -/
def Agree (out out' : ParseOutcome) : Prop :=
  ParseOutcome.verdict out = ParseOutcome.verdict out' ∧
    ∀ s, out = .ok (.prComplete, s) ↔ out' = .ok (.prComplete, s)

theorem Agree.rfl : Agree out out := ⟨Eq.refl _, fun _ => Iff.rfl⟩

theorem agree_error {u v : ParseState} : Agree (.ok (.prError, u)) (.ok (.prError, v)) :=
  ⟨Eq.refl _, fun _ => by simp⟩

theorem parseReads_agree (lim : ParserLimits) : ∀ (reads : List Bytes) (buf : Bytes)
    (s : ParseState), reads ≠ [] → TrailersBounded lim (buf ++ reads.flatten) s →
    Agree (parseReads lim buf s reads) (parse lim (buf ++ reads.flatten) s)
  | [], _, _, hne, _ => absurd rfl hne
  | r :: rs, buf, s, _, hb => by
    have hres := parse_append lim (buf ++ r) rs.flatten s
    rw [List.flatten_cons, ← List.append_assoc] at hb ⊢
    unfold parseReads
    match hout : parse lim (buf ++ r) s with
    | .ok (.prNeedMore, s') =>
      rw [hout] at hres
      rcases eq_or_ne rs [] with rfl | hne
      · rw [List.flatten_nil, List.append_nil, hout]
        exact .rfl
      · rw [hres.1]
        exact parseReads_agree lim rs (buf ++ r) s' hne
          fun t ht hlong => hb t (hres.2 t hlong.1 ht) hlong
    | .ok (.prComplete, s') =>
      rw [hout] at hres
      rw [show parse lim _ s = _ from hres]
      exact .rfl
    | .ok (.prError, s') =>
      rw [hout] at hres
      obtain ⟨t, ht⟩ := hres hb
      rw [ht]
      exact agree_error
    | .error d =>
      rw [hout] at hres
      rw [show parse lim _ s = _ from hres]
      exact .rfl

/-- **Parsing does not depend on how the bytes arrive.**  When no trailer line of `bytes` is
longer than the header limit, every way of reading `bytes` gives the verdict of a single call;
a complete request leaves the same parser and the same decoded body; and whatever follows a
complete request does not change its parse. -/
theorem parse_insensitive_to_reads (lim : ParserLimits) (p : RequestParser) (bytes : Bytes)
    (hlines : ∀ t, (parseLoop lim bytes).Reaches (.fresh p) t → ¬ LongTrailerLine lim bytes t) :
    (∀ reads : List Bytes, reads ≠ [] → reads.flatten = bytes →
      ParseOutcome.verdict (parseReads lim [] (.fresh p) reads) =
          ParseOutcome.verdict (parse lim bytes (.fresh p)) ∧
        ∀ s, parseReads lim [] (.fresh p) reads = .ok (.prComplete, s) ↔
          parse lim bytes (.fresh p) = .ok (.prComplete, s)) ∧
    ∀ s rest, parse lim bytes (.fresh p) = .ok (.prComplete, s) →
      parse lim (bytes ++ rest) (.fresh p) = .ok (.prComplete, s) := by
  refine ⟨fun reads hne hfl => ?_, fun s rest hs => ?_⟩
  · subst hfl
    exact parseReads_agree lim reads [] (.fresh p) hne fun t ht hlong => absurd hlong (hlines t ht)
  · have hres := parse_append lim bytes rest (.fresh p)
    rw [hs] at hres
    exact hres

theorem not_longTrailerLine (h : (buf.length : ℤ) ≤ lim.maxHeaderSize) :
    ¬ LongTrailerLine lim buf t := by
  rintro ⟨_, nl, hf, hlong⟩
  have := findByte_lt hf
  omega

/-- A chunked request with one trailer field. -/
def chunkedRequest : Bytes :=
  ascii "GET / HTTP/1.1\r\nHost:\r\nTransfer-Encoding:chunked\r\n\r\n2\r\nab\r\n0\r\nX:y\r\n\r\n"

theorem parse_insensitive_to_reads_chunked :
    ParseOutcome.verdict (parse ⟨8192, 100, 1024⟩ chunkedRequest (.fresh {})) =
        .ok .prComplete ∧
      ParseOutcome.verdict (parseReads ⟨8192, 100, 1024⟩ [] (.fresh {})
        [chunkedRequest.take 56, chunkedRequest.drop 56]) = .ok .prComplete := by
  have hc : ParseOutcome.verdict (parse ⟨8192, 100, 1024⟩ chunkedRequest (.fresh {})) =
      .ok .prComplete := by decide +kernel
  have h := parse_insensitive_to_reads ⟨8192, 100, 1024⟩ {} chunkedRequest
    fun t _ => not_longTrailerLine (by decide +kernel)
  exact ⟨hc, ((h.1 _ (by simp) (by simp)).1).trans hc⟩

/-! ### The limit of a trailer line -/

/-- The sequence of reads passes through loop state `t` in a call on buffer `b`. -/
inductive Visits (lim : ParserLimits) : Bytes → ParseState → List Bytes → Bytes → ParseState → Prop
  | here {buf r : Bytes} {rs : List Bytes} {s t : ParseState} :
      (parseLoop lim (buf ++ r)).Reaches s t → Visits lim buf s (r :: rs) (buf ++ r) t
  | later {buf r b : Bytes} {rs : List Bytes} {s s' t : ParseState} :
      parse lim (buf ++ r) s = .ok (.prNeedMore, s') → Visits lim (buf ++ r) s' rs b t →
      Visits lim buf s (r :: rs) b t

theorem Visits.first {rs : List Bytes} (h : (parseLoop lim b).Reaches s t) :
    Visits lim [] s (b :: rs) b t :=
  @Visits.here lim [] b rs s t h

/-- Some call of the sequence takes a trailer line longer than the header limit. -/
def AcceptsLongTrailer (lim : ParserLimits) (s : ParseState) (reads : List Bytes) : Prop :=
  ∃ b t, Visits lim [] s reads b t ∧ LongTrailerLine lim b t ∧ ¬ Rejects lim b t

theorem Visits.reaches {reads : List Bytes} (h : Visits lim buf s reads b t)
    (ht : t.parser.phase = .ppTrailers) :
    (∃ y, buf ++ reads.flatten = b ++ y) ∧
      (parseLoop lim (buf ++ reads.flatten)).Reaches s t := by
  induction h with
  | @here buf r rs s t hr =>
    rw [List.flatten_cons, ← List.append_assoc]
    exact ⟨⟨_, rfl⟩, reaches_append hr⟩
  | @later buf r b rs s s' t hp _ ih =>
    have hres := parse_append lim (buf ++ r) rs.flatten s
    rw [hp] at hres
    rw [List.flatten_cons, ← List.append_assoc]
    exact ⟨(ih ht).1, hres.2 t ht (ih ht).2⟩

theorem LongTrailerLine.append (h : LongTrailerLine lim a t) :
    LongTrailerLine lim (a ++ x) t ∧ parseStep lim (a ++ x) t = parseStep lim a t := by
  obtain ⟨hp, nl, hf, hlong⟩ := h
  refine ⟨⟨hp, nl, findByte_append_of_some hf (by simp), hlong⟩, ?_⟩
  have hlt := findByte_lt hf
  unfold parseStep
  rw [hp]
  unfold trailerStep
  simp only [hf, findByte_append_of_some hf (show a.length ≤ (a ++ x).length by simp)]
  rw [getD_append_left (by omega), trailerLine_append (by omega)]

/-- **When the trailer limit holds.**  For every byte string, no way of reading it accepts an
over-long trailer line and all of them give the verdict of the single call, exactly when every
over-long trailer line of it fails another check. -/
theorem trailer_limit_iff (lim : ParserLimits) (p : RequestParser) (bytes : Bytes) :
    (∀ reads : List Bytes, reads ≠ [] → reads.flatten = bytes →
      ¬ AcceptsLongTrailer lim (.fresh p) reads ∧
        ParseOutcome.verdict (parseReads lim [] (.fresh p) reads) =
          ParseOutcome.verdict (parse lim bytes (.fresh p))) ↔
    TrailersBounded lim bytes (.fresh p) := by
  constructor
  · intro h t ht hlong
    rw [← hlong.rejects_iff]
    by_contra hrej
    refine (h [bytes] (by simp) (by simp)).1 ⟨bytes, t, ?_, hlong, hrej⟩
    exact Visits.first ht
  · rintro h reads hne rfl
    refine ⟨?_, (parseReads_agree lim reads [] (.fresh p) hne h).1⟩
    rintro ⟨b, t, hv, hlong, hrej⟩
    obtain ⟨⟨y, hy⟩, hr⟩ := hv.reaches hlong.1
    rw [List.nil_append] at hy hr
    rw [hy] at h hr
    obtain ⟨hlong', e⟩ := hlong.append (x := y)
    obtain ⟨t', ht'⟩ := hlong'.rejects_iff.mpr (h t hr hlong')
    exact hrej ⟨t', e ▸ ht'⟩

/-- A trailer line of 53 bytes before its line feed. -/
def longTrailerRequest : Bytes :=
  ascii "GET / HTTP/1.1\r\nHost:\r\nTransfer-Encoding:chunked\r\n\r\n0\r\n" ++
    ascii "X:yyyyyyyyyyyyyyyyyyyyyyyyyyyyyyyyyyyyyyyyyyyyyyyyyy\r\n\r\n"

/-- With a header limit of 52 the line is accepted when it arrives in one read and rejected
when its line feed arrives in a second one. -/
theorem long_trailer_accepted_in_one_read :
    AcceptsLongTrailer ⟨52, 100, 1024⟩ (.fresh {}) [longTrailerRequest] ∧
      ParseOutcome.verdict (parse ⟨52, 100, 1024⟩ longTrailerRequest (.fresh {})) =
        .ok .prComplete ∧
      ParseOutcome.verdict (parseReads ⟨52, 100, 1024⟩ [] (.fresh {})
        [longTrailerRequest.take 108, longTrailerRequest.drop 108]) = .ok .prError := by
  have hone : ParseOutcome.verdict (parse ⟨52, 100, 1024⟩ longTrailerRequest (.fresh {})) =
      .ok .prComplete := by decide +kernel
  have htwo : ParseOutcome.verdict (parseReads ⟨52, 100, 1024⟩ [] (.fresh {})
      [longTrailerRequest.take 108, longTrailerRequest.drop 108]) = .ok .prError := by
    decide +kernel
  refine ⟨?_, hone, htwo⟩
  by_contra hacc
  have hb : TrailersBounded ⟨52, 100, 1024⟩ longTrailerRequest (.fresh {}) := by
    intro t ht hlong
    rw [← hlong.rejects_iff]
    by_contra hrej
    exact hacc ⟨longTrailerRequest, t, Visits.first ht, hlong, hrej⟩
  have hag := parseReads_agree ⟨52, 100, 1024⟩
    [longTrailerRequest.take 108, longTrailerRequest.drop 108] [] (.fresh {}) (by simp)
    (by simpa using hb)
  simp only [List.flatten_cons, List.flatten_nil, List.append_nil, List.nil_append,
    List.take_append_drop] at hag
  have hv := hag.1
  rw [htwo, hone] at hv
  cases hv

end Vortex.Http1
