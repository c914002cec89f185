import Vortex.Http2.Receiver

/-! # Header blocks as frames

`emitHeaderBlock` cuts a header block into a HEADERS frame and CONTINUATION frames.  Its loop is
solved here once (`headerFrames_fragments`): the fragments are the block in pieces of at most the
client's frame size, and none but the first is empty.

The bytes of those frames are then read back with the reader of the receiving side (`readFrames`),
for which the 24-bit length and the 31-bit stream id have to survive their packing
(`nextFrame_bytes`). -/

namespace Vortex.Http2

/-! ### The fragments of a block -/

/-- CONTINUATION frames, of which the last ends the block. -/
def continuations (sid : ℕ) : List Bytes → List Frame
  | [] => []
  | frag :: frags => .continuation sid frag frags.isEmpty :: continuations sid frags

/-- Pieces of a block that fit into a frame. -/
def Fragments (m : MaxFrame) (frags : List Bytes) : Prop :=
  ∀ frag ∈ frags, frag ≠ [] ∧ frag.length ≤ m

variable {frags : List Bytes}

theorem Fragments.isEmpty_flatten {m : MaxFrame} (h : Fragments m frags) :
    frags.flatten.isEmpty = frags.isEmpty := by
  cases frags with
  | nil => rfl
  | cons frag frags =>
    have hne := (h frag List.mem_cons_self).1
    simp [hne]

variable (m : MaxFrame) (sid : ℕ) (es : Bool)

theorem headerLoop_run (s : Bytes × Bool × List Frame) (hs : s.2.1 = false) :
    ∃ frags, Fragments m frags ∧ frags.flatten = s.1 ∧
      (headerLoop m sid es).run s = s.2.2 ++ continuations sid frags := by
  refine (headerLoop m sid es).run_induction (P := fun s r => s.2.1 = false → ∃ frags,
    Fragments m frags ∧ frags.flatten = s.1 ∧ r = s.2.2 ++ continuations sid frags) ?_ ?_ s hs
  · intro s r h hs
    simp only [headerLoop, hs, Bool.false_eq_true, false_or] at h
    split_ifs at h with hl
    refine ⟨[], by simp [Fragments], ?_, ?_⟩
    · exact (List.length_eq_zero_iff.mp (Nat.eq_zero_of_not_pos hl)).symm
    · rw [continuations, List.append_nil]
      exact (Sum.inr.inj h).symm
  · intro s s' r h ih hs
    simp only [headerLoop, hs, Bool.false_eq_true, if_false, false_or] at h
    split_ifs at h with hl
    rw [← Sum.inl.inj h] at ih
    obtain ⟨frags, hf, hflat, hr⟩ := ih rfl
    have hm := m.2.1
    refine ⟨s.1.take m :: frags, ?_, ?_, ?_⟩
    · intro frag hmem
      rcases List.mem_cons.mp hmem with rfl | hmem
      · refine ⟨fun he => ?_, List.length_take_le _ _⟩
        have hlen := congrArg List.length he
        rw [List.length_take, List.length_nil] at hlen
        omega
      · exact hf frag hmem
    · rw [List.flatten_cons, hflat, List.take_append_drop]
    · rw [hr, continuations, ← hf.isEmpty_flatten, hflat, List.append_assoc]
      rfl

/-- **The frames of a header block.** -/
theorem headerFrames_fragments (hb : Bytes) : ∃ (frag : Bytes) (frags : List Bytes),
    Fragments m frags ∧ frag.length ≤ m ∧ frag ++ frags.flatten = hb ∧
      headerFrames m sid hb es = .headers sid frag es frags.isEmpty :: continuations sid frags := by
  have hstep : (headerLoop m sid es).step (hb, true, []) =
      .inl (hb.drop m, false, [.headers sid (hb.take m) es (hb.drop m).isEmpty]) := by
    simp [headerLoop]
  obtain ⟨frags, hf, hflat, hr⟩ := headerLoop_run m sid es
    (hb.drop m, false, [.headers sid (hb.take m) es (hb.drop m).isEmpty]) rfl
  refine ⟨hb.take m, frags, hf, List.length_take_le _ _, ?_, ?_⟩
  · rw [hflat, List.take_append_drop]
  · rw [headerFrames, (headerLoop m sid es).run_next hstep, hr, ← hf.isEmpty_flatten, hflat]
    rfl

theorem mem_continuations {f : Frame} (h : f ∈ continuations sid frags) :
    ∃ frag eh, f = .continuation sid frag eh := by
  induction frags with
  | nil => cases h
  | cons frag frags ih =>
    rcases List.mem_cons.mp h with rfl | h
    · exact ⟨_, _, rfl⟩
    · exact ih h

theorem headerFrames_eq (hb : Bytes) :
    ∃ frag eh conts, headerFrames m sid hb es = .headers sid frag es eh :: conts ∧
      ∀ f ∈ conts, ∃ frag eh, f = Frame.continuation sid frag eh := by
  obtain ⟨frag, frags, -, -, -, he⟩ := headerFrames_fragments m sid es hb
  exact ⟨frag, _, _, he, fun f => mem_continuations sid⟩

/-! ### Reading frames back -/

/-- Read a buffer frame by frame; `none` if it does not end with a frame. -/
def readFrames : ℕ → Bytes → Option (List InFrame)
  | _, [] => some []
  | 0, _ :: _ => none
  | n + 1, b :: bs =>
      match nextFrame (b :: bs) with
      | none => none
      | some (f, rest) => (readFrames n rest).map (f :: ·)

theorem readFrames_next {n : ℕ} {buf rest : Bytes} {f : InFrame}
    (h : nextFrame buf = some (f, rest)) :
    readFrames (n + 1) buf = (readFrames n rest).map (f :: ·) := by
  cases buf with
  | nil => cases h
  | cons b bs => simp only [readFrames, h]

theorem get24_add24 {v : ℕ} (h : v < 2 ^ 24) (rest : Bytes) : get24 (add24 v ++ rest) 0 = v := by
  simp only [get24, add24, byteAt, List.cons_append, List.getD_cons_zero, List.getD_cons_succ,
    Nat.toUInt8, UInt8.toNat_ofNat']
  omega

variable {sid}

theorem nextFrame_bytes {typ : FrameType} {flags : UInt8} {payload : Bytes}
    (hl : payload.length < 2 ^ 24) (hsid : sid < 2 ^ 31) (rest : Bytes) :
    nextFrame (addFrameHeader payload.length typ flags sid ++ payload ++ rest) =
      some (⟨⟨payload.length, typ.code, flags, sid⟩, payload, rfl⟩, rest) := by
  have hh : parseFrameHeader (addFrameHeader payload.length typ flags sid ++ payload ++ rest) 0 =
      ⟨payload.length, typ.code, flags, sid⟩ := by
    have htyp : typ.code < 256 := by cases typ <;> decide
    simp only [parseFrameHeader, addFrameHeader, FrameHeader.mk.injEq, List.append_assoc]
    refine ⟨get24_add24 hl _, ?_, rfl, ?_⟩
    · simp only [add24, byteAt, List.cons_append, List.nil_append, Nat.zero_add,
        List.getD_cons_zero, List.getD_cons_succ, Nat.toUInt8, UInt8.toNat_ofNat']
      omega
    · simp only [add24, add32, get32, low31, byteAt, List.cons_append, List.nil_append,
        Nat.zero_add, Nat.reduceAdd, List.getD_cons_zero, List.getD_cons_succ, Nat.toUInt8,
        UInt8.toNat_ofNat']
      omega
  have hlen : (addFrameHeader payload.length typ flags sid).length = frameHeaderLen := rfl
  have hdrop : (addFrameHeader payload.length typ flags sid ++ payload ++ rest).drop
      frameHeaderLen = payload ++ rest := by
    rw [List.append_assoc, List.drop_left' hlen]
  unfold nextFrame
  rw [if_neg (by simp only [List.length_append, hlen]; omega)]
  simp only [hh, hdrop, List.length_append, Nat.le_add_right, dif_pos, List.take_left',
    List.drop_left']

/-- What CONTINUATION frames are read as. -/
def inContinuations (sid : ℕ) : List Bytes → List InFrame
  | [] => []
  | frag :: frags =>
      ⟨⟨frag.length, FrameType.ftContinuation.code, flagIf frags.isEmpty flagEndHeaders, sid⟩, frag,
        rfl⟩ :: inContinuations sid frags

theorem readFrames_continuations (hsid : sid < 2 ^ 31) (hf : Fragments m frags) {n : ℕ}
    (hn : frags.length ≤ n) : readFrames n ((continuations sid frags).flatMap Frame.bytes) =
      some (inContinuations sid frags) := by
  induction frags generalizing n with
  | nil => cases n <;> rfl
  | cons frag frags ih =>
    obtain ⟨n, rfl⟩ := Nat.exists_eq_succ_of_ne_zero (Nat.ne_zero_of_lt hn)
    have hm := m.2.2
    have hlen := (hf frag List.mem_cons_self).2
    have hrest := ih (fun p hp => hf p (List.mem_cons_of_mem _ hp)) (Nat.le_of_succ_le_succ hn)
    rw [continuations, List.flatMap_cons]
    refine (readFrames_next (nextFrame_bytes (by omega) hsid _)).trans ?_
    rw [hrest]
    rfl

theorem Fragments.length_le (hf : Fragments m frags) : frags.length ≤ frags.flatten.length := by
  induction frags with
  | nil => exact Nat.le_refl 0
  | cons frag frags ih =>
    have hrest := ih fun p hp => hf p (List.mem_cons_of_mem _ hp)
    have hpos := List.length_pos_iff.mpr (hf frag List.mem_cons_self).1
    rw [List.flatten_cons, List.length_append, List.length_cons]
    omega

/-- **Header blocks are framed correctly.**  What is written for a block reads back as one HEADERS
frame and CONTINUATION frames on the stream, none longer than the client allows and no CONTINUATION
empty; the payloads are the block, END_HEADERS is on the last frame only and END_STREAM, if the
caller asks for it, on the first only. -/
theorem header_blocks_read_back (m : MaxFrame) {sid : ℕ} (hsid : sid < 2 ^ 31) (hb : Bytes)
    (es : Bool) : ∃ (frag : Bytes) (frags : List Bytes),
      readFrames (hb.length + 1) ((headerFrames m sid hb es).flatMap Frame.bytes) =
        some (⟨⟨frag.length, FrameType.ftHeaders.code,
          flagIf frags.isEmpty flagEndHeaders ||| flagIf es flagEndStream, sid⟩, frag, rfl⟩ ::
            inContinuations sid frags) ∧
      frag ++ frags.flatten = hb ∧ frag.length ≤ m ∧
      ∀ p ∈ frags, p ≠ [] ∧ p.length ≤ m := by
  obtain ⟨frag, frags, hf, hlen, rfl, he⟩ := headerFrames_fragments m sid es hb
  have hm := m.2.2
  have hn : frags.length ≤ (frag ++ frags.flatten).length := by
    rw [List.length_append]
    exact (hf.length_le m).trans (Nat.le_add_left _ _)
  refine ⟨frag, frags, ?_, rfl, hlen, hf⟩
  rw [he, List.flatMap_cons]
  refine (readFrames_next (nextFrame_bytes (by omega) hsid _)).trans ?_
  rw [readFrames_continuations m hsid hf hn]
  rfl

/-- A block longer than a frame. -/
theorem header_blocks_read_back_split : ∃ (frag : Bytes) (frags : List Bytes),
    readFrames 20001 ((headerFrames ⟨16384, by decide⟩ 1 (List.replicate 20000 0) true).flatMap
        Frame.bytes) =
      some (⟨⟨frag.length, FrameType.ftHeaders.code,
        flagIf frags.isEmpty flagEndHeaders ||| flagIf true flagEndStream, 1⟩, frag, rfl⟩ ::
          inContinuations 1 frags) ∧ frags ≠ [] := by
  obtain ⟨frag, frags, h, hb, hlen, -⟩ := header_blocks_read_back ⟨16384, by decide⟩
    (show 1 < 2 ^ 31 by decide) (List.replicate 20000 0) true
  rw [List.length_replicate] at h
  refine ⟨frag, frags, h, ?_⟩
  rintro rfl
  have hsize := congrArg List.length hb
  rw [List.flatten_nil, List.append_nil, List.length_replicate] at hsize
  change frag.length ≤ 16384 at hlen
  omega

end Vortex.Http2
