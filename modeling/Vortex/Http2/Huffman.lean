import Mathlib.Data.List.Sigma
import Vortex.Http2.Hpack

/-! # Huffman strings

The bit loop of `huffmanDecode` walks a tree that was built from the code table.  The paths from a
node to the symbols below it are its words (`HuffTree.words`): a walk that starts with a word adds
its symbol and starts again at the root (`huffmanBits_word`), and a walk that ends without an error
either starts with a word or is the padding (`huffmanBits_ok`).

The words of the decode tree are the codes of the table (`mem_words_huffTree`), and seven ones do
not reach a symbol.  So a string decodes exactly if its bits are the codes of the result and fewer
than eight ones. -/

namespace Vortex.Http2

/-! ### The words of a tree -/

/-- The paths to the symbols of a tree; a path ends at the first symbol. -/
def HuffTree.words : HuffTree → List (List Bool × ℕ)
  | .absent => []
  | .node (some sym) _ _ => [([], sym)]
  | .node none z o =>
      z.words.map (fun w => (false :: w.1, w.2)) ++ o.words.map (fun w => (true :: w.1, w.2))

/-- The bits lead past no symbol and stay in the tree. -/
def HuffTree.unfinished : HuffTree → List Bool → Bool
  | _, [] => true
  | t, bit :: bits =>
      match t.child bit with
      | .node none z o => (HuffTree.node none z o).unfinished bits
      | _ => false

/-- The symbol at the end of a word. -/
def HuffTree.symbol? : HuffTree → List Bool → Option ℕ
  | .node (some sym) _ _, [] => some sym
  | .node none z _, false :: bits => z.symbol? bits
  | .node none _ o, true :: bits => o.symbol? bits
  | _, _ => none

section Walk

variable {t : HuffTree} {w rest bits : List Bool} {sym : ℕ} {bit p : Bool} {d : ℕ}
  {output r : Bytes}

theorem HuffTree.nil_mem_words (h : ([], sym) ∈ t.words) : ∃ z o, t = .node (some sym) z o := by
  cases t with
  | absent => cases h
  | node s z o =>
    cases s with
    | none => simp [words] at h
    | some s =>
      obtain rfl : sym = s := by simpa [words] using h
      exact ⟨z, o, rfl⟩

theorem HuffTree.cons_mem_words :
    (bit :: w, sym) ∈ t.words ↔ (∃ z o, t = .node none z o) ∧ (w, sym) ∈ (t.child bit).words := by
  cases t with
  | absent => simp [words]
  | node s z o =>
    cases s with
    | none => cases bit <;> simp [words, child]
    | some s => simp [words]

theorem HuffTree.mem_words_of_symbol? (h : t.symbol? w = some sym) : (w, sym) ∈ t.words := by
  induction w generalizing t with
  | nil =>
    rcases t with - | ⟨- | s, z, o⟩ <;> simp_all [symbol?, words]
  | cons bit w ih =>
    rcases t with - | ⟨- | s, z, o⟩ <;> cases bit <;>
      simp_all [symbol?, HuffTree.cons_mem_words, child]

theorem huffmanBits_word (h : (w, sym) ∈ (t.child bit).words) (hsym : sym ≠ 256) :
    huffmanBits (bit :: (w ++ rest)) t p d output =
      huffmanBits rest huffTree true 0 (output ++ [sym.toUInt8]) := by
  induction w generalizing t bit p d with
  | nil =>
    obtain ⟨z, o, hc⟩ := HuffTree.nil_mem_words h
    rw [List.nil_append, huffmanBits, hc]
    simp only [if_neg hsym]
  | cons bit' w ih =>
    obtain ⟨⟨z, o, hc⟩, hw⟩ := HuffTree.cons_mem_words.mp h
    rw [huffmanBits, hc]
    rw [hc] at hw
    exact ih hw

theorem huffmanBits_unfinished (h : t.unfinished bits = true) (hd : d + bits.length ≤ 7)
    (hones : ∀ b ∈ bits, b = true) : huffmanBits bits t true d output = .ok output := by
  induction bits generalizing t d with
  | nil =>
    rw [huffmanBits, if_neg]
    simpa using hd
  | cons bit bits ih =>
    obtain rfl : bit = true := hones bit List.mem_cons_self
    rw [HuffTree.unfinished] at h
    rw [List.length_cons] at hd
    split at h
    · next z o hc =>
      rw [huffmanBits, hc]
      exact ih h (by omega) (fun b hb => hones b (List.mem_cons_of_mem _ hb))
    · cases h

theorem huffmanBits_ok (h : huffmanBits bits t p d output = .ok r) :
    (∃ bit w sym rest, bits = bit :: (w ++ rest) ∧ (w, sym) ∈ (t.child bit).words ∧ sym ≠ 256 ∧
      huffmanBits rest huffTree true 0 (output ++ [sym.toUInt8]) = .ok r) ∨
    (d + bits.length ≤ 7 ∧ p = true ∧ (∀ b ∈ bits, b = true) ∧ r = output) := by
  induction bits generalizing t p d with
  | nil =>
    rw [huffmanBits] at h
    split_ifs at h with hpad
    cases h
    right
    simpa [not_or] using hpad
  | cons bit bits ih =>
    rw [huffmanBits] at h
    cases hc : t.child bit with
    | absent => rw [hc] at h; cases h
    | node s z o =>
      cases s with
      | none =>
        rw [hc] at h
        rcases ih h with ⟨bit', w, sym, rest, rfl, hw, hsym, hr⟩ | ⟨hd, hp, hones, rfl⟩
        · refine .inl ⟨bit, bit' :: w, sym, rest, rfl, ?_, hsym, hr⟩
          rw [hc]
          exact HuffTree.cons_mem_words.mpr ⟨⟨z, o, rfl⟩, hw⟩
        · simp only [Bool.and_eq_true] at hp
          refine .inr ⟨?_, hp.1, ?_, rfl⟩
          · rw [List.length_cons]
            omega
          · rintro b (- | ⟨-, hb⟩)
            · exact hp.2
            · exact hones b hb
      | some sym =>
        rw [hc] at h
        dsimp only at h
        split_ifs at h with hsym
        refine .inl ⟨bit, [], sym, bits, rfl, ?_, hsym, h⟩
        rw [hc]
        exact List.mem_singleton_self _

end Walk

/-! ### The code table -/

/-- The code of a symbol. -/
def huffmanCode (sym : ℕ) : List Bool :=
  let e := huffmanCodes.getD sym (0, 0)
  codeBits e.1 e.2

/-- The codes with their symbols. -/
def codeWords : List (List Bool × ℕ) := (List.range 257).map (fun sym => (huffmanCode sym, sym))

theorem huffTree_check : huffTree.words.length = 257 ∧
    codeWords.all (fun w => huffTree.symbol? w.1 == some w.2 && Nat.ble 5 w.1.length) = true ∧
    ∀ k < 8, huffTree.unfinished (List.replicate k true) = true := by
  decide +kernel

variable {sym : ℕ} {w : List Bool}

theorem mem_codeWords : (w, sym) ∈ codeWords ↔ sym < 257 ∧ w = huffmanCode sym := by
  simp [codeWords, eq_comm]

theorem codeWord_check (h : (w, sym) ∈ codeWords) :
    huffTree.symbol? w = some sym ∧ 5 ≤ w.length := by
  simpa using List.all_eq_true.mp huffTree_check.2.1 _ h

theorem mem_words_huffTree : (w, sym) ∈ huffTree.words ↔ sym < 257 ∧ w = huffmanCode sym := by
  have hnodup : codeWords.Nodup :=
    List.Nodup.of_map Prod.snd (by simpa [codeWords, Function.comp_def] using List.nodup_range)
  have hsub : codeWords ⊆ huffTree.words :=
    fun w hw => HuffTree.mem_words_of_symbol? (codeWord_check hw).1
  have hperm := (List.subperm_of_subset hnodup hsub).perm_of_length_le
    (by simp [huffTree_check.1, codeWords])
  rw [← hperm.mem_iff, mem_codeWords]

theorem huffTree_root : ∃ z o, huffTree = .node none z o := by
  have h := huffTree_check.1
  cases ht : huffTree with
  | absent => simp [ht, HuffTree.words] at h
  | node s z o =>
    cases s with
    | none => exact ⟨z, o, rfl⟩
    | some s => simp [ht, HuffTree.words] at h

/-! ### Strings -/

/-- The bits of a byte string, the most significant bit of a byte first. -/
def bitsOf (b : Bytes) : List Bool := b.flatMap (fun b => codeBits b.toNat 8)

/-- The codes of the bytes of a string. -/
def huffmanCoded (s : Bytes) : List Bool := s.flatMap (fun b => huffmanCode b.toNat)

theorem huffmanCoded_cons (b : UInt8) (s : Bytes) :
    huffmanCoded (b :: s) = huffmanCode b.toNat ++ huffmanCoded s := rfl

theorem huffmanBits_huffmanCode (b : UInt8) (rest : List Bool) (output : Bytes) :
    huffmanBits (huffmanCode b.toNat ++ rest) huffTree true 0 output =
      huffmanBits rest huffTree true 0 (output ++ [b]) := by
  have hb := b.toNat_lt
  have h := mem_words_huffTree.mpr ⟨show b.toNat < 257 by omega, rfl⟩
  cases hcode : huffmanCode b.toNat with
  | nil =>
    rw [hcode] at h
    obtain ⟨z, o, e⟩ := HuffTree.nil_mem_words h
    obtain ⟨z', o', e'⟩ := huffTree_root
    rw [e] at e'
    cases e'
  | cons bit w =>
    rw [hcode] at h
    rw [List.cons_append, huffmanBits_word (HuffTree.cons_mem_words.mp h).2 (by omega)]
    simp

theorem huffmanBits_huffmanCoded (s : Bytes) (rest : List Bool) (output : Bytes) :
    huffmanBits (huffmanCoded s ++ rest) huffTree true 0 output =
      huffmanBits rest huffTree true 0 (output ++ s) := by
  induction s generalizing output with
  | nil => simp [huffmanCoded]
  | cons b s ih =>
    rw [huffmanCoded_cons, List.append_assoc, huffmanBits_huffmanCode, ih, List.append_assoc,
      List.singleton_append]

theorem huffmanBits_ones {pad : List Bool} (hlen : pad.length < 8) (hones : ∀ b ∈ pad, b = true)
    (output : Bytes) : huffmanBits pad huffTree true 0 output = .ok output := by
  have h := huffTree_check.2.2 pad.length hlen
  rw [← List.eq_replicate_of_mem hones] at h
  exact huffmanBits_unfinished h (by omega) hones

theorem coded_of_huffmanBits {bits : List Bool} {output r : Bytes}
    (h : huffmanBits bits huffTree true 0 output = .ok r) :
    ∃ s pad, r = output ++ s ∧ bits = huffmanCoded s ++ pad ∧ pad.length < 8 ∧
      ∀ b ∈ pad, b = true := by
  induction hn : bits.length using Nat.strong_induction_on generalizing bits output with
  | _ n ih =>
    rcases huffmanBits_ok h with ⟨bit, w, sym, rest, rfl, hw, hsym, hr⟩ | ⟨hd, -, hones, rfl⟩
    · have hmem := HuffTree.cons_mem_words.mpr ⟨huffTree_root, hw⟩
      obtain ⟨hlt, hcode⟩ := mem_words_huffTree.mp hmem
      obtain ⟨s, pad, rfl, rfl, hpad⟩ := ih rest.length (by simp at hn; omega) hr rfl
      refine ⟨sym.toUInt8 :: s, pad, ?_, ?_, hpad⟩
      · rw [List.append_assoc, List.singleton_append]
      · have hbyte : sym.toUInt8.toNat = sym := Nat.mod_eq_of_lt (by omega)
        rw [huffmanCoded_cons, hbyte, ← hcode]
        simp
    · exact ⟨[], bits, (List.append_nil _).symm, rfl, by omega, hones⟩

theorem codeBits_injective {a b : UInt8} (h : codeBits a.toNat 8 = codeBits b.toNat 8) : a = b := by
  refine UInt8.toNat_inj.mp (Nat.eq_of_testBit_eq fun i => ?_)
  by_cases hi : i < 8
  · exact List.map_inj_left.mp h i (by simpa using hi)
  · have hpow : 2 ^ 8 ≤ 2 ^ i := Nat.pow_le_pow_right (by decide) (by omega)
    rw [Nat.testBit_lt_two_pow (a.toNat_lt.trans_le hpow),
      Nat.testBit_lt_two_pow (b.toNat_lt.trans_le hpow)]

theorem length_codeBits (code n : ℕ) : (codeBits code n).length = n := by
  simp [codeBits]

theorem length_bitsOf (b : Bytes) : (bitsOf b).length = 8 * b.length := by
  simp [bitsOf, List.length_flatMap, length_codeBits, Nat.mul_comm]

theorem bitsOf_injective {a b : Bytes} (h : bitsOf a = bitsOf b) : a = b := by
  induction a generalizing b with
  | nil =>
    have hlen := congrArg List.length h
    rw [length_bitsOf, length_bitsOf] at hlen
    exact (List.length_eq_zero_iff.mp (by simpa using hlen.symm)).symm
  | cons x a ih =>
    cases b with
    | nil =>
      have hlen := congrArg List.length h
      rw [length_bitsOf, length_bitsOf] at hlen
      simp at hlen
    | cons y b =>
      rw [bitsOf, bitsOf, List.flatMap_cons, List.flatMap_cons] at h
      obtain ⟨hx, hrest⟩ := List.append_inj h (by rw [length_codeBits, length_codeBits])
      rw [codeBits_injective hx, ih hrest]

theorem length_huffmanCoded (s : Bytes) : 5 * s.length ≤ (huffmanCoded s).length := by
  induction s with
  | nil => simp
  | cons b s ih =>
    have hb := b.toNat_lt
    have h := (codeWord_check (mem_codeWords.mpr ⟨show b.toNat < 257 by omega, rfl⟩)).2
    rw [huffmanCoded_cons, List.length_append, List.length_cons]
    omega

/-- **Huffman decoding.**  A string decodes to `s` exactly if its bits are the codes of the bytes of
`s` followed by fewer than eight ones.  Two strings that decode to the same bytes are the same, and
the result is at most `8 / 5` times as long as the string. -/
theorem huffmanDecode_spec (b : Bytes) :
    (∀ s, huffmanDecode b = .ok s ↔ ∃ pad, bitsOf b = huffmanCoded s ++ pad ∧ pad.length < 8 ∧
      ∀ x ∈ pad, x = true) ∧
    (∀ b' s, huffmanDecode b = .ok s → huffmanDecode b' = .ok s → b' = b) ∧
    ∀ s, huffmanDecode b = .ok s → 5 * s.length ≤ 8 * b.length := by
  have hiff : ∀ b s, huffmanDecode b = .ok s ↔ ∃ pad, bitsOf b = huffmanCoded s ++ pad ∧
      pad.length < 8 ∧ ∀ x ∈ pad, x = true := by
    intro b s
    constructor
    · intro h
      obtain ⟨s', pad, rfl, hpad⟩ := coded_of_huffmanBits h
      exact ⟨pad, hpad⟩
    · rintro ⟨pad, hbits, hlen, hones⟩
      change huffmanBits (bitsOf b) huffTree true 0 [] = _
      rw [hbits, huffmanBits_huffmanCoded, huffmanBits_ones hlen hones, List.nil_append]
  refine ⟨hiff b, fun b' s h h' => ?_, fun s h => ?_⟩
  · obtain ⟨pad, hbits, hlen, hones⟩ := (hiff b s).mp h
    obtain ⟨pad', hbits', hlen', hones'⟩ := (hiff b' s).mp h'
    have hl := congrArg List.length hbits
    have hl' := congrArg List.length hbits'
    rw [length_bitsOf, List.length_append] at hl hl'
    have hpad : pad' = pad := by
      rw [List.eq_replicate_of_mem hones, List.eq_replicate_of_mem hones']
      congr 1
      omega
    exact bitsOf_injective (by rw [hbits, hbits', hpad])
  · obtain ⟨pad, hbits, -⟩ := (hiff b s).mp h
    have hl := congrArg List.length hbits
    rw [length_bitsOf, List.length_append] at hl
    have := length_huffmanCoded s
    omega

theorem huffmanDecode_spec_a : ∃ pad, bitsOf [0x1f] = huffmanCoded [97] ++ pad ∧ pad.length < 8 ∧
    ∀ x ∈ pad, x = true :=
  ((huffmanDecode_spec [0x1f]).1 [97]).mp (by decide +kernel)

end Vortex.Http2
