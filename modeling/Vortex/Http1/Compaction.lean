import Vortex.Http1.Framing

/-! # Parsing a compacted buffer

A streaming connection removes the raw chunk framing it has consumed from the receive buffer
and the delivered bytes from `chunkBody`.  The bytes received are `hd ++ gap ++ w`, the buffer
holds `hd ++ w` (`hd` is the request head, `gap` what was removed), and positions behind the
head are `gap.length` smaller.

`Origin.lift` maps the state of the compacted parser to the state the parser would be in
without compaction, and `lift_parse` says that it commutes with `parse` in the chunk phases, as
long as the parse of the uncompacted bytes does not reject.  It can only differ by rejecting
more: the uncompacted parser still counts the delivered bytes against the body cap.

Trailer slices recorded before a compaction are stale after it; `Origin.stale` is their
number, and nothing is said about them. -/

namespace Vortex

/-! ### Slices and searches behind a gap -/

section gap

variable {hd gap w : Bytes} {i : ℕ}

theorem slice_gap (hi : hd.length ≤ i) (j : ℕ) :
    slice (hd ++ (gap ++ w)) (i + gap.length) (j + gap.length) = slice (hd ++ w) i j := by
  apply List.ext_getElem?
  intro k
  rw [slice_getElem?, slice_getElem?]
  by_cases h : i + k < j
  · rw [if_pos (by omega), if_pos h, List.getElem?_append_right (by omega),
      List.getElem?_append_right (by omega), List.getElem?_append_right (by omega)]
    congr 1
    omega
  · rw [if_neg (by omega), if_neg h]

theorem getD_gap (hi : hd.length ≤ i) :
    (hd ++ (gap ++ w)).getD (i + gap.length) 0 = (hd ++ w).getD i 0 := by
  rw [List.getD_eq_getElem?_getD, List.getD_eq_getElem?_getD, List.getElem?_append_right (by omega),
    List.getElem?_append_right (by omega), List.getElem?_append_right (by omega)]
  congr 2
  omega

theorem length_gap : (hd ++ (gap ++ w)).length = (hd ++ w).length + gap.length := by
  simp only [List.length_append]
  omega

theorem findByte_gap (hi : hd.length ≤ i) (ch : UInt8) :
    findByte (hd ++ (gap ++ w)) (i + gap.length) (hd ++ (gap ++ w)).length ch =
      (findByte (hd ++ w) i (hd ++ w).length ch).map (· + gap.length) := by
  unfold findByte
  rw [length_gap, slice_gap hi, Option.map_map]
  congr 1
  funext k
  simp only [Function.comp]
  omega

end gap

namespace Http1

open Vortex.FieldRules

/-- The slice in a buffer that starts `d` bytes earlier. -/
def HeaderSlice.shift (d : ℕ) (h : HeaderSlice) : HeaderSlice :=
  { h with nameStart := h.nameStart + d, valStart := h.valStart + d }

theorem fieldLine_shift (base d : ℕ) (line : Bytes) :
    fieldLine (base + d) line = (fieldLine base line).map (HeaderSlice.shift d) := by
  unfold fieldLine
  split
  · rfl
  · dsimp only
    split_ifs
    · rfl
    · rfl
    · rfl
    · simp only [Option.map_some, HeaderSlice.shift, Option.some.injEq, HeaderSlice.mk.injEq,
        true_and, and_true]
      omega

/-- How a compacted parser state arose: the bytes removed behind the head, the body bytes
delivered, and the trailers recorded before the last compaction, as they were then. -/
structure Origin where
  gap : Bytes
  fed : Bytes
  stale : ℕ
  old : List HeaderSlice

/-- The state without compaction. -/
def Origin.lift (o : Origin) (s : ParseState) : ParseState where
  parser := { s.parser with
    pos := s.parser.pos + o.gap.length
    trailers := o.old ++ (s.parser.trailers.drop o.stale).map (HeaderSlice.shift o.gap.length) }
  chunkBody := o.fed ++ s.chunkBody

/-- Apply `f` to the state an iteration ends in. -/
def mapStep (f : ParseState → ParseState) : ParseStep → ParseStep
  | .inl s => .inl (f s)
  | .inr (.ok (r, s)) => .inr (.ok (r, f s))
  | .inr (.error d) => .inr (.error d)

/-- The iteration ends the call with an error or a defect. -/
def Fails (st : ParseStep) : Prop :=
  (∃ s, st = .inr (.ok (.prError, s))) ∨ ∃ d, st = .inr (.error d)

section lift

variable {lim : ParserLimits} {hd w : Bytes} {o : Origin} {s s' : ParseState}

theorem chunkCRLFStep_lift (hp : hd.length ≤ s.parser.pos) :
    chunkCRLFStep (hd ++ (o.gap ++ w)) (o.lift s) =
      mapStep o.lift (chunkCRLFStep (hd ++ w) s) := by
  have e : (o.lift s).parser.pos = s.parser.pos + o.gap.length := rfl
  unfold chunkCRLFStep
  dsimp only
  rw [e, length_gap, Nat.add_sub_add_right, getD_gap hp,
    show s.parser.pos + o.gap.length + 1 = s.parser.pos + 1 + o.gap.length by omega,
    getD_gap (by omega)]
  split_ifs
  · rfl
  · rfl
  · simp only [ParseState.continueWith, mapStep, Origin.lift]
    congr 3
    omega

theorem chunkDataStep_lift (hp : hd.length ≤ s.parser.pos) :
    chunkDataStep (hd ++ (o.gap ++ w)) (o.lift s) =
      mapStep o.lift (chunkDataStep (hd ++ w) s) := by
  have e : (o.lift s).parser.pos = s.parser.pos + o.gap.length := rfl
  have e' : (o.lift s).parser.chunkRemaining = s.parser.chunkRemaining := rfl
  unfold chunkDataStep
  dsimp only
  rw [e, e', length_gap, Nat.add_sub_add_right]
  generalize ht : min ((hd ++ w).length - s.parser.pos) s.parser.chunkRemaining = take
  rw [show s.parser.pos + o.gap.length + take = s.parser.pos + take + o.gap.length by omega,
    slice_gap hp]
  split_ifs
  · rfl
  · simp only [ParseState.continueWith, mapStep, Origin.lift, List.append_assoc]
  · simp only [ParseState.return, mapStep, Origin.lift, List.append_assoc]

theorem name_shift {h : HeaderSlice} (hn : hd.length ≤ h.nameStart) :
    (h.shift o.gap.length).name (hd ++ (o.gap ++ w)) = h.name (hd ++ w) := by
  unfold HeaderSlice.name HeaderSlice.shift
  rw [show h.nameStart + o.gap.length + h.nameLen = h.nameStart + h.nameLen + o.gap.length by omega]
  exact slice_gap hn _

theorem val_shift {h : HeaderSlice} (hn : hd.length ≤ h.valStart) :
    (h.shift o.gap.length).val (hd ++ (o.gap ++ w)) = h.val (hd ++ w) := by
  unfold HeaderSlice.val HeaderSlice.shift
  rw [show h.valStart + o.gap.length + h.valLen = h.valStart + h.valLen + o.gap.length by omega]
  exact slice_gap hn _

theorem trailerLine_lift {nl : ℕ} (hp : hd.length ≤ s.parser.pos)
    (hs : o.stale ≤ s.parser.trailers.length) (hnl : 0 < nl) :
    trailerLine lim (hd ++ (o.gap ++ w)) (o.lift s) (nl + o.gap.length) =
      mapStep o.lift (trailerLine lim (hd ++ w) s nl) := by
  have e : (o.lift s).parser.pos = s.parser.pos + o.gap.length := rfl
  have e' : (o.lift s).parser.trailerCount = s.parser.trailerCount := rfl
  unfold trailerLine
  dsimp only
  rw [e, e', show nl + o.gap.length - 1 = nl - 1 + o.gap.length by omega, slice_gap hp,
    fieldLine_shift]
  split_ifs
  · rfl
  · cases hf : fieldLine s.parser.pos (slice (hd ++ w) s.parser.pos (nl - 1)) with
    | none => rfl
    | some h =>
      have hn := (fieldLine_bounds hf).1
      simp only [Option.map_some]
      rw [name_shift (by omega)]
      split_ifs
      · simp only [ParseState.continueWith, mapStep, Origin.lift]
        congr 3
        omega
      · simp only [ParseState.continueWith, mapStep, Origin.lift,
          List.drop_append_of_le_length hs, List.map_append, List.map_cons, List.map_nil,
          List.append_assoc]
        congr 3
        omega

theorem trailerStep_lift (hp : hd.length ≤ s.parser.pos) (hs : o.stale ≤ s.parser.trailers.length) :
    trailerStep lim (hd ++ (o.gap ++ w)) (o.lift s) =
      mapStep o.lift (trailerStep lim (hd ++ w) s) := by
  have e : (o.lift s).parser.pos = s.parser.pos + o.gap.length := rfl
  unfold trailerStep
  dsimp only
  rw [e, findByte_gap hp]
  cases hf : findByte (hd ++ w) s.parser.pos (hd ++ w).length lf with
  | none =>
    simp only [Option.map_none]
    have hl : (((hd ++ (o.gap ++ w)).length : ℕ) : ℤ) - ((s.parser.pos + o.gap.length : ℕ) : ℤ) =
        ((hd ++ w).length : ℤ) - s.parser.pos := by
      rw [length_gap]; push_cast; omega
    rw [hl]
    split_ifs <;> rfl
  | some nl =>
    have hlt := findByte_lt hf
    simp only [Option.map_some, Nat.add_right_cancel_iff]
    by_cases hnl : nl = s.parser.pos
    · simp only [hnl, true_or, if_true]
      rfl
    · rw [show nl + o.gap.length - 1 = nl - 1 + o.gap.length by omega, getD_gap (by omega)]
      simp only [Nat.add_right_cancel_iff]
      split_ifs
      · rfl
      · simp only [ParseState.return, mapStep, Origin.lift]
        congr 5
        omega
      · exact trailerLine_lift hp hs (by omega)

theorem acceptSize_lift {nl : ℕ} {size : ℤ} (h0 : 0 ≤ size) :
    acceptSize lim (o.lift s) (nl + o.gap.length) size =
        mapStep o.lift (acceptSize lim s nl size) ∨
      Fails (acceptSize lim (o.lift s) (nl + o.gap.length) size) := by
  unfold acceptSize
  cases hadd : add64 (o.lift s).chunkBody.length size with
  | error d => exact .inr (.inr ⟨d, rfl⟩)
  | ok total =>
    have hlen : (o.lift s).chunkBody.length = o.fed.length + s.chunkBody.length := by
      simp [Origin.lift]
    unfold add64 at hadd
    split_ifs at hadd with hfit
    cases hadd
    rw [hlen] at hfit ⊢
    push_cast at hfit ⊢
    have hadd' : add64 s.chunkBody.length size = .ok (s.chunkBody.length + size) := by
      unfold add64
      rw [if_pos (by omega)]
    simp only [hadd']
    by_cases hcap : (o.fed.length : ℤ) + s.chunkBody.length + size > lim.maxBodySize
    · right
      left
      rw [if_pos hcap]
      exact ⟨_, rfl⟩
    · left
      have hcap' : ¬ (s.chunkBody.length : ℤ) + size > lim.maxBodySize := by omega
      rw [if_neg hcap, if_neg hcap']
      simp only [ParseState.continueWith, mapStep, Origin.lift]
      congr 3
      omega

theorem chunkSizeStep_lift (hp : hd.length ≤ s.parser.pos) :
    chunkSizeStep lim (hd ++ (o.gap ++ w)) (o.lift s) =
        mapStep o.lift (chunkSizeStep lim (hd ++ w) s) ∨
      Fails (chunkSizeStep lim (hd ++ (o.gap ++ w)) (o.lift s)) := by
  have e : (o.lift s).parser.pos = s.parser.pos + o.gap.length := rfl
  unfold chunkSizeStep
  dsimp only
  rw [e, findByte_gap hp, length_gap, Nat.add_sub_add_right]
  cases hf : findByte (hd ++ w) s.parser.pos (hd ++ w).length lf with
  | none =>
    left
    simp only [Option.map_none]
    split_ifs <;> rfl
  | some nl =>
    have hlt := findByte_lt hf
    simp only [Option.map_some, Nat.add_right_cancel_iff, Nat.add_sub_add_right]
    by_cases hnl : nl = s.parser.pos
    · left
      simp only [hnl, true_or, if_true]
      split_ifs <;> rfl
    · rw [show nl + o.gap.length - 1 = nl - 1 + o.gap.length by omega, getD_gap (by omega),
        slice_gap hp]
      split_ifs
      · exact .inl rfl
      · exact .inl rfl
      · cases hc : chunkSize (slice (hd ++ w) s.parser.pos (nl - 1)) with
        | error status => exact .inl rfl
        | ok size =>
          have h0 := (chunkSize_exact hc).1
          exact acceptSize_lift (by omega)

theorem not_fails_of_parse {buf : Bytes} {r : ParseResult} {v : ParseState}
    (h : parse lim buf s = .ok (r, v)) (hr : r ≠ .prError) : ¬ Fails (parseStep lim buf s) := by
  rintro (⟨t, ht⟩ | ⟨d, hd⟩)
  · have hrun := (parseLoop lim buf).run_done ht
    rw [show (parseLoop lim buf).run s = _ from h] at hrun
    cases hrun
    exact hr rfl
  · have hrun := (parseLoop lim buf).run_done hd
    rw [show (parseLoop lim buf).run s = _ from h] at hrun
    cases hrun

theorem parseStep_lift (lim : ParserLimits) (w : Bytes)
    (hph : chunkPhase s.parser.phase = true) (hp : hd.length ≤ s.parser.pos)
    (hs : o.stale ≤ s.parser.trailers.length) :
    parseStep lim (hd ++ (o.gap ++ w)) (o.lift s) =
        mapStep o.lift (parseStep lim (hd ++ w) s) ∨
      Fails (parseStep lim (hd ++ (o.gap ++ w)) (o.lift s)) := by
  have e : (o.lift s).parser.phase = s.parser.phase := rfl
  unfold parseStep
  rw [e]
  cases h : s.parser.phase with
  | ppChunkSize => exact chunkSizeStep_lift hp
  | ppChunkData => exact .inl (chunkDataStep_lift hp)
  | ppChunkCRLF => exact .inl (chunkCRLFStep_lift hp)
  | ppTrailers => exact .inl (trailerStep_lift hp hs)
  | ppComplete => exact .inl rfl
  | ppReqLine | ppHeaders | ppBody | ppError => rw [h] at hph; cases hph

/-- **Compaction is invisible to the parser**: if the call on the uncompacted bytes does not
reject, the call on the compacted buffer ends alike, in the compacted state. -/
theorem lift_parse {r : ParseResult} {v : ParseState} (hph : chunkPhase s.parser.phase = true)
    (hp : hd.length ≤ s.parser.pos) (hs : o.stale ≤ s.parser.trailers.length)
    (h : parse lim (hd ++ (o.gap ++ w)) (o.lift s) = .ok (r, v)) (hr : r ≠ .prError) :
    ∃ s', parse lim (hd ++ w) s = .ok (r, s') ∧ v = o.lift s' := by
  have key := (parseLoop lim (hd ++ w)).run_induction
    (P := fun s out => chunkPhase s.parser.phase = true → hd.length ≤ s.parser.pos →
      o.stale ≤ s.parser.trailers.length →
      parse lim (hd ++ (o.gap ++ w)) (o.lift s) = .ok (r, v) →
      ∃ s', out = .ok (r, s') ∧ v = o.lift s') ?_ ?_ s
  · exact key hph hp hs h
  · intro s out hdone hph hp hs h
    change parseStep lim (hd ++ w) s = .inr out at hdone
    rcases parseStep_lift lim w hph hp hs with e | hf
    · rw [hdone] at e
      match out with
      | .ok (r', s') =>
        have hrun := (parseLoop lim (hd ++ (o.gap ++ w))).run_done e
        rw [show (parseLoop lim _).run _ = _ from h] at hrun
        cases hrun
        exact ⟨s', rfl, rfl⟩
      | .error d =>
        have hrun := (parseLoop lim (hd ++ (o.gap ++ w))).run_done e
        rw [show (parseLoop lim _).run _ = _ from h] at hrun
        cases hrun
    · exact absurd hf (not_fails_of_parse h hr)
  · intro s s' out hnext ih hph hp hs h
    change parseStep lim (hd ++ w) s = .inl s' at hnext
    have hfr := parseStep_chunkFrame lim (hd ++ w) hph
    rw [hnext] at hfr
    rcases parseStep_lift lim w hph hp hs with e | hf
    · rw [hnext] at e
      have hrun := (parseLoop lim (hd ++ (o.gap ++ w))).run_next e
      obtain ⟨ts, ht, _⟩ := hfr.trailers
      refine ih hfr.phase (hp.trans hfr.pos) ?_ (hrun.symm.trans h)
      rw [ht, List.length_append]
      omega
    · exact absurd hf (not_fails_of_parse h hr)

end lift

end Http1

end Vortex
