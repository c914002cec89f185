import Vortex.Bytes
import Vortex.Loop

/-! # UTF-8 in text messages

`validUtf8` (`websocket/codec.nim`) walks over a string, one encoded character at a time.  A byte
is read under the proof that it lies inside the string.  `validUtf8_iff` compares the walk with the
encoder: a Unicode scalar value is a `Char`, and `String.utf8EncodeChar` is its shortest form. -/

namespace Vortex.Ws

/-- A continuation byte. -/
def isTail (b : UInt8) : Bool := b &&& 0xC0 == 0x80

/-- The checks on a two-byte sequence. -/
def twoBytes (b₀ b₁ : UInt8) : Bool :=
  let cp := (b₀ &&& 0x1F).toUInt32 <<< 6 ||| (b₁ &&& 0x3F).toUInt32
  isTail b₁ && !(cp < 0x80)

/-- The checks on a three-byte sequence. -/
def threeBytes (b₀ b₁ b₂ : UInt8) : Bool :=
  let cp := (b₀ &&& 0x0F).toUInt32 <<< 12 ||| (b₁ &&& 0x3F).toUInt32 <<< 6 |||
    (b₂ &&& 0x3F).toUInt32
  isTail b₁ && isTail b₂ && !(cp < 0x800 || cp ≥ 0xD800 && cp ≤ 0xDFFF)

/-- The checks on a four-byte sequence. -/
def fourBytes (b₀ b₁ b₂ b₃ : UInt8) : Bool :=
  let cp := (b₀ &&& 0x07).toUInt32 <<< 18 ||| (b₁ &&& 0x3F).toUInt32 <<< 12 |||
    (b₂ &&& 0x3F).toUInt32 <<< 6 ||| (b₃ &&& 0x3F).toUInt32
  isTail b₁ && isTail b₂ && isTail b₃ && !(cp < 0x10000 || cp > 0x10FFFF)

/-- One iteration of `validUtf8`. -/
def utf8Step (s : Bytes) (i : ℕ) : ℕ ⊕ Bool :=
  if h₀ : i < s.length then
    if s[i] < 0x80 then .inl (i + 1)
    else if s[i] >>> 5 = 0b110 then
      if h₁ : i + 1 < s.length then
        if twoBytes s[i] s[i + 1] then .inl (i + 2) else .inr false
      else .inr false
    else if s[i] >>> 4 = 0b1110 then
      if h₂ : i + 2 < s.length then
        if threeBytes s[i] s[i + 1] s[i + 2] then .inl (i + 3) else .inr false
      else .inr false
    else if s[i] >>> 3 = 0b11110 then
      if h₃ : i + 3 < s.length then
        if fourBytes s[i] s[i + 1] s[i + 2] s[i + 3] then .inl (i + 4) else .inr false
      else .inr false
    else .inr false
  else .inr true

/-! ### The decoder of the standard library -/

theorem forall_byte {P : UInt8 → Prop} (h : ∀ n < 256, P (UInt8.ofNat n)) (b : UInt8) : P b := by
  have := h b.toNat b.toNat_lt
  rwa [UInt8.ofNat_toNat] at this

theorem lead_one : ∀ b : UInt8, b < 0x80 ↔ b &&& 128 = 0 := forall_byte (by decide +kernel)

theorem lead_two : ∀ b : UInt8, b >>> 5 = 0b110 ↔ b &&& 224 = 192 :=
  forall_byte (by decide +kernel)

theorem lead_three : ∀ b : UInt8, b >>> 4 = 0b1110 ↔ b &&& 240 = 224 :=
  forall_byte (by decide +kernel)

theorem lead_four : ∀ b : UInt8, b >>> 3 = 0b11110 ↔ b &&& 248 = 240 :=
  forall_byte (by decide +kernel)

section

open ByteArray.utf8DecodeChar?

theorem verify₂_eq (b₀ b₁ : UInt8) : verify₂ b₀ b₁ = twoBytes b₀ b₁ := by
  rw [Bool.eq_iff_iff]
  simp [verify₂, isInvalidContinuationByte, twoBytes, isTail, assemble₂Unchecked]

theorem verify₃_eq (b₀ b₁ b₂ : UInt8) : verify₃ b₀ b₁ b₂ = threeBytes b₀ b₁ b₂ := by
  rw [Bool.eq_iff_iff]
  simp [verify₃, isInvalidContinuationByte, threeBytes, isTail, assemble₃Unchecked]

theorem verify₄_eq (b₀ b₁ b₂ b₃ : UInt8) : verify₄ b₀ b₁ b₂ b₃ = fourBytes b₀ b₁ b₂ b₃ := by
  rw [Bool.eq_iff_iff]
  simp [verify₄, isInvalidContinuationByte, fourBytes, isTail, assemble₄Unchecked]

theorem validateUTF8At_eq {s : Bytes} {i : ℕ} (hs : i < s.length) : s.toByteArray.validateUTF8At i =
      if s[i] &&& 128 = 0 then true
      else if s[i] &&& 224 = 192 then
        if h : i + 1 < s.length then twoBytes s[i] s[i + 1] else false
      else if s[i] &&& 240 = 224 then
        if h : i + 2 < s.length then threeBytes s[i] s[i + 1] s[i + 2] else false
      else if s[i] &&& 248 = 240 then
        if h : i + 3 < s.length then fourBytes s[i] s[i + 1] s[i + 2] s[i + 3] else false
      else false := by
  have h : i < s.toByteArray.size := by rwa [List.size_toByteArray]
  unfold ByteArray.validateUTF8At
  rw [dif_pos h]
  split <;> next hp =>
    simp only [parseFirstByte, List.getElem_toByteArray, beq_iff_eq] at hp
    split_ifs at hp
    simp [*, verify₁, verify₂_eq, verify₃_eq, verify₄_eq]

end

theorem utf8Step_eq {s : Bytes} {i : ℕ} (h : i < s.toByteArray.size) : utf8Step s i =
    if hv : s.toByteArray.validateUTF8At i then
      .inl (i + s.toByteArray[i].utf8ByteSize (ByteArray.isUTF8FirstByte_of_validateUTF8At hv))
    else .inr false := by
  have hs : i < s.length := by rwa [List.size_toByteArray] at h
  unfold utf8Step
  simp only [dif_pos hs, validateUTF8At_eq hs, lead_one, lead_two, lead_three, lead_four,
    UInt8.utf8ByteSize, List.getElem_toByteArray]
  by_cases h₁ : s[i] &&& 128 = 0
  · simp [h₁]
  by_cases h₂ : s[i] &&& 224 = 192
  · by_cases hl : i + 1 < s.length <;> simp [h₁, h₂, hl]
  by_cases h₃ : s[i] &&& 240 = 224
  · by_cases hl : i + 2 < s.length <;> simp [h₁, h₂, h₃, hl]
  by_cases h₄ : s[i] &&& 248 = 240
  · by_cases hl : i + 3 < s.length <;> simp [h₁, h₂, h₃, h₄, hl]
  · simp [h₁, h₂, h₃, h₄]

/-! ### The whole string -/

theorem utf8Step_lt {s : Bytes} {i j : ℕ} (h : utf8Step s i = .inl j) : i < s.length ∧ i < j := by
  unfold utf8Step at h
  split_ifs at h <;> cases h <;> omega

/-- The loop of `validUtf8`. -/
def utf8Loop (s : Bytes) : Loop ℕ Bool where
  step := utf8Step s
  measure i := s.length - i
  decreases i j h := by
    obtain ⟨hi, hj⟩ := utf8Step_lt h
    omega

/-- `validUtf8`: the loop from the start of the string. -/
def validUtf8 (s : Bytes) : Bool := (utf8Loop s).run 0

theorem utf8Loop_run (s : Bytes) (i : ℕ) : ∀ hi : i ≤ s.toByteArray.size,
    (utf8Loop s).run i = ByteArray.validateUTF8.go s.toByteArray i hi := by
  refine (utf8Loop s).run_induction (P := fun i r => ∀ hi : i ≤ s.toByteArray.size,
    r = ByteArray.validateUTF8.go s.toByteArray i hi) ?_ ?_ i
  · intro i r hr hi
    change utf8Step s i = .inr r at hr
    rw [ByteArray.validateUTF8.go.eq_def]
    split_ifs with h
    · rw [utf8Step_eq h] at hr
      split
      · next hv =>
        rw [dif_neg (by simp [hv])] at hr
        cases hr
        rfl
      · next hv =>
        rw [dif_pos hv] at hr
        cases hr
    · rw [List.size_toByteArray] at h
      unfold utf8Step at hr
      rw [dif_neg h] at hr
      cases hr
      rfl
  · intro i j r hj ih hi
    change utf8Step s i = .inl j at hj
    have h : i < s.toByteArray.size := by
      rw [List.size_toByteArray]
      exact (utf8Step_lt hj).1
    rw [ByteArray.validateUTF8.go.eq_def, dif_pos h]
    rw [utf8Step_eq h] at hj
    split_ifs at hj with hv
    cases hj
    split
    · next hn => cases hv.symm.trans hn
    · exact ih _

/-- **`validUtf8` accepts exactly the encodings of sequences of Unicode scalar values.** -/
theorem validUtf8_iff (s : Bytes) :
    validUtf8 s = true ↔ ∃ cs : List Char, s = cs.flatMap String.utf8EncodeChar := by
  unfold validUtf8
  rw [utf8Loop_run s 0 (Nat.zero_le _)]
  refine ByteArray.validateUTF8_eq_true_iff.trans ?_
  constructor
  · rintro ⟨cs, h⟩
    exact ⟨cs, by simpa [List.utf8Encode] using congrArg (fun b => b.data.toList) h⟩
  · rintro ⟨cs, rfl⟩
    exact ⟨cs, rfl⟩

end Vortex.Ws
