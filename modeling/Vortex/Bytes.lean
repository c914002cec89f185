import Mathlib.Data.List.DropRight
import Mathlib.Data.List.TakeWhile
import Mathlib.Tactic.Common
import Mathlib.Tactic.Linarith

/-! # Byte strings, slices and byte search

Buffers are lists of bytes.  `slice b i j` is the part `b[i ..< j]` and `findByte b i j c` the
absolute position of the first `c` in it.  A parser that looks at its buffer only through
these two cannot tell a buffer from a longer one as long as the search succeeds inside it
(`findByte_append_of_some`), and its slices do not care where the buffer starts (`slice_shift`);
these are the two facts about growing and compacted receive buffers. -/

namespace Vortex

/-- A byte string. -/
abbrev Bytes := List UInt8

/-- The bytes of an ASCII literal. -/
def ascii (s : String) : Bytes := s.toList.map (fun c => c.toNat.toUInt8)

/-- `b[start ..< stop]`. -/
def slice (b : Bytes) (start stop : ℕ) : Bytes := (b.take stop).drop start

/-- Index of the first `ch` in `buf[start ..< endPos]`. -/
def findByte (buf : Bytes) (start endPos : ℕ) (ch : UInt8) : Option ℕ :=
  ((slice buf start endPos).findIdx? (· == ch)).map (start + ·)

/-! ### Slices -/

variable {i s e : ℕ} {buf : Bytes} {ch : UInt8} (b : Bytes)

theorem length_slice (i j : ℕ) : (slice b i j).length = min j b.length - i := by
  simp [slice]

theorem slice_append_left {a b : Bytes} {j : ℕ} (i : ℕ) (h : j ≤ a.length) :
    slice (a ++ b) i j = slice a i j := by
  simp [slice, List.take_append_of_le_length h]

theorem slice_shift (pre b : Bytes) (i j : ℕ) :
    slice (pre ++ b) (pre.length + i) (pre.length + j) = slice b i j := by
  simp [slice, List.take_length_add_append, List.drop_length_add_append]

theorem slice_getElem? (i j k : ℕ) : (slice b i j)[k]? = if i + k < j then b[i + k]? else none := by
  unfold slice
  rw [List.getElem?_drop, List.getElem?_take]

theorem slice_full (i : ℕ) : slice b i b.length = b.drop i := by
  simp [slice]

theorem slice_take {j n : ℕ} (h : j ≤ n) : slice (b.take n) i j = slice b i j := by
  simp [slice, List.take_take, Nat.min_eq_left h]

theorem slice_split {j k : ℕ} (hij : i ≤ j) (hjk : j ≤ k) :
    slice b i j ++ slice b j k = slice b i k := by
  apply List.ext_getElem?
  intro n
  rw [List.getElem?_append, length_slice]
  split
  · next h =>
    rw [slice_getElem?, slice_getElem?, if_pos (by omega), if_pos (by omega)]
  · next h =>
    rw [slice_getElem?, slice_getElem?]
    by_cases hj : j ≤ b.length
    · have e : j + (n - (min j b.length - i)) = i + n := by omega
      rw [e]
    · have h1 : b.length ≤ i + n := by omega
      have h2 : b.length ≤ j + (n - (min j b.length - i)) := by omega
      simp [List.getElem?_eq_none h1, List.getElem?_eq_none h2]

/-! ### Byte search -/

theorem findByte_eq_some : findByte buf s e ch = some i ↔
      s ≤ i ∧ i < e ∧ buf[i]? = some ch ∧ ∀ j, s ≤ j → j < i → buf[j]? ≠ some ch := by
  unfold findByte
  rw [Option.map_eq_some_iff]
  simp only [List.findIdx?_eq_some_iff_getElem, beq_iff_eq]
  constructor
  · rintro ⟨k, ⟨hk, hch, hmin⟩, rfl⟩
    have hk' := hk
    rw [length_slice] at hk'
    refine ⟨by omega, by omega, ?_, ?_⟩
    · have := slice_getElem? buf s e k
      rw [List.getElem?_eq_getElem hk, hch, if_pos (by omega)] at this
      exact this.symm
    · intro j hj hji hb
      obtain ⟨m, rfl⟩ : ∃ m, j = s + m := ⟨j - s, by omega⟩
      have hm := hmin m (by omega)
      have := slice_getElem? buf s e m
      rw [List.getElem?_eq_getElem (by omega), if_pos (by omega), hb] at this
      exact hm (Option.some.inj this)
  · rintro ⟨hs, he, hch, hmin⟩
    obtain ⟨k, rfl⟩ : ∃ k, i = s + k := ⟨i - s, by omega⟩
    have hlen : s + k < buf.length := (List.getElem?_eq_some_iff.mp hch).1
    have hk : k < (slice buf s e).length := by rw [length_slice]; omega
    refine ⟨k, ⟨hk, ?_, ?_⟩, rfl⟩
    · have := slice_getElem? buf s e k
      rw [List.getElem?_eq_getElem hk, if_pos (by omega), hch] at this
      exact Option.some.inj this
    · intro j hj hb
      apply hmin (s + j) (by omega) (by omega)
      have := slice_getElem? buf s e j
      rw [List.getElem?_eq_getElem (by omega), if_pos (by omega), hb] at this
      exact this.symm

theorem findByte_eq_none : findByte buf s e ch = none ↔ ∀ j, s ≤ j → j < e → buf[j]? ≠ some ch := by
  constructor
  · intro h j hj hje hb
    unfold findByte at h
    rw [Option.map_eq_none_iff, List.findIdx?_eq_none_iff] at h
    obtain ⟨k, rfl⟩ : ∃ k, j = s + k := ⟨j - s, by omega⟩
    have hm : ch ∈ slice buf s e := by
      apply List.mem_of_getElem? (i := k)
      rw [slice_getElem?, if_pos hje, hb]
    simpa using h ch hm
  · intro h
    cases hf : findByte buf s e ch with
    | none => rfl
    | some i =>
      obtain ⟨h1, h2, h3, _⟩ := findByte_eq_some.mp hf
      exact absurd h3 (h i h1 h2)

theorem findByte_lt (h : findByte buf s e ch = some i) : s ≤ i ∧ i < e ∧ i < buf.length := by
  obtain ⟨h1, h2, h3, _⟩ := findByte_eq_some.mp h
  exact ⟨h1, h2, (List.getElem?_eq_some_iff.mp h3).1⟩

theorem findByte_append_of_some {a b : Bytes} (h : findByte a s a.length ch = some i)
    (he : a.length ≤ e) : findByte (a ++ b) s e ch = some i := by
  obtain ⟨h1, h2, h3, h4⟩ := findByte_eq_some.mp h
  refine findByte_eq_some.mpr ⟨h1, by omega, ?_, ?_⟩
  · rw [List.getElem?_append_left h2, h3]
  · intro j hj hji
    rw [List.getElem?_append_left (by omega)]
    exact h4 j hj hji

theorem le_of_findByte_append {a b : Bytes} (hn : findByte a s a.length ch = none)
    (h : findByte (a ++ b) s e ch = some i) : a.length ≤ i := by
  by_contra hlt
  obtain ⟨h1, _, h3, _⟩ := findByte_eq_some.mp h
  rw [List.getElem?_append_left (by omega)] at h3
  exact findByte_eq_none.mp hn i h1 (by omega) h3

end Vortex
