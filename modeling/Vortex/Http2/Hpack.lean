import Vortex.Loop
import Vortex.FieldRules
import Vortex.Http2.HpackTables

/-! # HPACK

`hpack.nim` (RFC 7541): the decoder with its static and dynamic tables and Huffman-coded
strings, and the encoder, which uses the static table and raw literals only.

A position in a buffer is the list of the bytes from there to the end of the block, so every
primitive takes the bytes still to be read and hands back what it left.  Whatever makes the
source raise is an `HpackError`; `decodeHeaderBlock` also returns the decoder as the raise
leaves it. -/

namespace Vortex.Http2

/-- The reasons a block does not decode. -/
inductive HpackError where
  | invalidHuffmanCode
  | eosInHuffmanString
  | badHuffmanPadding
  | truncatedInteger
  | integerOverflow
  | integerTooLarge
  | truncatedString
  | truncatedStringData
  | invalidTableIndex (idx : ℕ)
  | decodedListTooLarge
  | indexZero
  | sizeUpdateAfterField
  | tableSizeAboveLimit
deriving DecidableEq, Repr

/-! ### Huffman strings -/

/-- The decode tree; `absent` is the source's child index `-1`. -/
inductive HuffTree where
  | absent
  | node (sym : Option ℕ) (zero one : HuffTree)
deriving DecidableEq, Repr

/-- Walk the code word from here, adding the nodes that are missing, and mark its end. -/
def HuffTree.add (sym : ℕ) : List Bool → HuffTree → HuffTree
  | [], .absent => .node (some sym) .absent .absent
  | [], .node _ z o => .node (some sym) z o
  | false :: bits, .absent => .node none (HuffTree.add sym bits .absent) .absent
  | true :: bits, .absent => .node none .absent (HuffTree.add sym bits .absent)
  | false :: bits, .node s z o => .node s (HuffTree.add sym bits z) o
  | true :: bits, .node s z o => .node s z (HuffTree.add sym bits o)

/-- The `n` low bits of `code`, most significant first. -/
def codeBits (code n : ℕ) : List Bool := (List.range n).reverse.map code.testBit

/-- The decode tree of the code table. -/
def huffTree : HuffTree :=
  huffmanCodes.zipIdx.foldl (fun t e => t.add e.2 (codeBits e.1.1 e.1.2))
    (.node none .absent .absent)

/-- The child on the side of `bit`. -/
def HuffTree.child : HuffTree → Bool → HuffTree
  | .absent, _ => .absent
  | .node _ z _, false => z
  | .node _ _ o, true => o

/-- The bit loop of `huffmanDecode`: the node reached, whether the unfinished path is all ones,
its length, and the output so far. -/
def huffmanBits : List Bool → HuffTree → Bool → ℕ → Bytes → Except HpackError Bytes
  | [], _, padOnes, depth, output =>
      if depth > 7 ∨ padOnes = false then .error .badHuffmanPadding else .ok output
  | bit :: bits, node, padOnes, depth, output =>
      match node.child bit with
      | .absent => .error .invalidHuffmanCode
      | .node none z o => huffmanBits bits (.node none z o) (padOnes && bit) (depth + 1) output
      | .node (some sym) _ _ =>
          if sym = 256 then .error .eosInHuffmanString
          else huffmanBits bits huffTree true 0 (output ++ [sym.toUInt8])

def huffmanDecode (input : Bytes) : Except HpackError Bytes :=
  huffmanBits (input.flatMap (fun b => codeBits b.toNat 8)) huffTree true 0 []

/-! ### Primitive decoders -/

/-- The continuation bytes of an integer. -/
def decodeIntLoop : Bytes → (shift acc : ℕ) → Except HpackError (ℕ × Bytes)
  | [], _, _ => .error .truncatedInteger
  | b :: rest, shift, acc =>
      if shift > 28 then .error .integerOverflow
      else
        let acc := acc + b.toNat % 2 ^ 7 * 2 ^ shift
        if acc > 2 ^ 24 then .error .integerTooLarge
        else if b.toNat < 2 ^ 7 then .ok (acc, rest)
        else decodeIntLoop rest (shift + 7) acc

def decodeInt (prefixBits : ℕ) : Bytes → Except HpackError (ℕ × Bytes)
  | [] => .error .truncatedInteger
  | b :: rest =>
      let mask := 2 ^ prefixBits - 1
      let v := b.toNat % 2 ^ prefixBits
      if v < mask then .ok (v, rest) else decodeIntLoop rest 0 v

/-- A length-prefixed string with the Huffman bit just above the length prefix. -/
def decodeStr (prefixBits : ℕ) : Bytes → Except HpackError (Bytes × Bytes)
  | [] => .error .truncatedString
  | b :: rest =>
      let huffman := b.toNat.testBit prefixBits
      match decodeInt prefixBits (b :: rest) with
      | .error e => .error e
      | .ok (len, tail) =>
          if len > tail.length then .error .truncatedStringData
          else if huffman then
            match huffmanDecode (tail.take len) with
            | .error e => .error e
            | .ok s => .ok (s, tail.drop len)
          else .ok (tail.take len, tail.drop len)

def decodeString : Bytes → Except HpackError (Bytes × Bytes) := decodeStr 7

/-! ### The dynamic table -/

/-- The RFC 7541 size of a field. -/
def fieldSize (f : Bytes × Bytes) : ℕ := f.1.length + f.2.length + 32

/-- The decoder: the dynamic table, newest entry first, and its limits. -/
structure HpackDecoder where
  entries : Fields := []
  size : ℕ := 0
  maxSize : ℕ
  settingsMax : ℕ
  maxDecoded : ℕ
deriving DecidableEq, Repr

def initHpackDecoder (settingsMax maxDecoded : ℕ) : HpackDecoder where
  maxSize := settingsMax
  settingsMax := settingsMax
  maxDecoded := maxDecoded

/-- Drop entries, oldest first, while the table is over its limit. -/
def evictLoop (maxSize : ℕ) : (oldestFirst : Fields) → (size : ℕ) → Fields × ℕ
  | [], size => ([], size)
  | e :: rest, size =>
      if size > maxSize then evictLoop maxSize rest (size - fieldSize e) else (e :: rest, size)

def HpackDecoder.evict (d : HpackDecoder) : HpackDecoder :=
  let r := evictLoop d.maxSize d.entries.reverse d.size
  { d with entries := r.1.reverse, size := r.2 }

def HpackDecoder.addEntry (d : HpackDecoder) (name value : Bytes) : HpackDecoder :=
  HpackDecoder.evict
    { d with size := d.size + fieldSize (name, value), entries := (name, value) :: d.entries }

def HpackDecoder.lookup (d : HpackDecoder) (idx : ℕ) : Except HpackError (Bytes × Bytes) :=
  if 1 ≤ idx ∧ idx ≤ 61 then .ok (hpackStaticTable.getD (idx - 1) ([], []))
  else if idx ≥ 62 ∧ idx - 62 < d.entries.length then .ok (d.entries.getD (idx - 62) ([], []))
  else .error (.invalidTableIndex idx)

/-! ### Header blocks -/

/-- The state of the block loop. -/
structure BlockState where
  d : HpackDecoder
  rest : Bytes
  headers : Fields := []
  seenHeader : Bool := false
  decoded : ℕ := 0
deriving DecidableEq, Repr

namespace BlockState

/-- Account for a decoded field, refusing a list above `maxDecoded`. -/
def accrue (s : BlockState) (f : Bytes × Bytes) : Except HpackError BlockState :=
  if s.d.maxDecoded > 0 ∧ s.decoded + fieldSize f > s.d.maxDecoded then
    .error .decodedListTooLarge
  else .ok { s with decoded := s.decoded + fieldSize f }

/-- A field read up to `rest` joins the list. -/
def push (s : BlockState) (f : Bytes × Bytes) (rest : Bytes) : BlockState :=
  { s with headers := s.headers ++ [f], seenHeader := true, rest := rest }

/-- Indexed field. -/
def indexed (s : BlockState) : Except HpackError BlockState := do
  let (idx, rest) ← decodeInt 7 s.rest
  if idx = 0 then .error .indexZero
  else
    let f ← s.d.lookup idx
    let s ← s.accrue f
    .ok (s.push f rest)

/-- The name of a literal: a string of its own, or the name of a table entry. -/
def literalName (s : BlockState) (nameIdx : ℕ) (rest : Bytes) :
    Except HpackError (Bytes × Bytes) :=
  if nameIdx = 0 then decodeString rest
  else
    match s.d.lookup nameIdx with
    | .error e => .error e
    | .ok f => .ok (f.1, rest)

/-- Name and value of a literal whose name index has `prefixBits` bits. -/
def literal (s : BlockState) (prefixBits : ℕ) : Except HpackError ((Bytes × Bytes) × Bytes) := do
  let (nameIdx, rest) ← decodeInt prefixBits s.rest
  let (name, rest) ← s.literalName nameIdx rest
  let (value, rest) ← decodeString rest
  .ok ((name, value), rest)

/-- Literal with incremental indexing. -/
def incremental (s : BlockState) : Except HpackError BlockState := do
  let (f, rest) ← s.literal 6
  let s ← s.accrue f
  .ok (BlockState.push { s with d := s.d.addEntry f.1 f.2 } f rest)

/-- Dynamic table size update; it must precede the fields. -/
def sizeUpdate (s : BlockState) : Except HpackError BlockState :=
  if s.seenHeader then .error .sizeUpdateAfterField
  else
    match decodeInt 5 s.rest with
    | .error e => .error e
    | .ok (newMax, rest) =>
        if newMax > s.d.settingsMax then .error .tableSizeAboveLimit
        else .ok { s with d := HpackDecoder.evict { s.d with maxSize := newMax }, rest := rest }

/-- Literal without indexing or never indexed. -/
def unindexed (s : BlockState) : Except HpackError BlockState := do
  let (f, rest) ← s.literal 4
  let s ← s.accrue f
  .ok (s.push f rest)

/-- One representation, chosen by its first byte. -/
def field (s : BlockState) : Except HpackError BlockState :=
  let b := (s.rest.headD 0).toNat
  if b ≥ 0x80 then s.indexed
  else if b ≥ 0x40 then s.incremental
  else if b ≥ 0x20 then s.sizeUpdate
  else s.unindexed

/-- One iteration of the block loop. -/
def step (s : BlockState) : BlockState ⊕ (HpackDecoder × Except HpackError Fields) :=
  if s.rest.isEmpty then .inr (s.d, .ok s.headers)
  else
    match s.field with
    | .error e => .inr (s.d, .error e)
    | .ok s' => .inl s'

end BlockState

/-! ### Every representation reads at least one byte -/

theorem decodeIntLoop_length : ∀ (b : Bytes) (shift acc : ℕ) {v : ℕ} {rest : Bytes},
    decodeIntLoop b shift acc = .ok (v, rest) → rest.length < b.length
  | [], _, _, _, _, h => by simp [decodeIntLoop] at h
  | b :: bs, shift, acc, v, rest, h => by
    simp only [decodeIntLoop] at h
    split at h
    · cases h
    · split at h
      · cases h
      · split at h
        · cases h
          simp
        · have := decodeIntLoop_length bs _ _ h
          simp only [List.length_cons]
          omega

theorem decodeInt_length {p : ℕ} {b rest : Bytes} {v : ℕ} (h : decodeInt p b = .ok (v, rest)) :
    rest.length < b.length := by
  cases b with
  | nil => simp [decodeInt] at h
  | cons c cs =>
    simp only [decodeInt] at h
    split at h
    · cases h
      simp
    · have := decodeIntLoop_length cs _ _ h
      simp only [List.length_cons]
      omega

theorem decodeStr_length {p : ℕ} {b s rest : Bytes} (h : decodeStr p b = .ok (s, rest)) :
    rest.length < b.length := by
  cases b with
  | nil => simp [decodeStr] at h
  | cons c cs =>
    simp only [decodeStr] at h
    cases hi : decodeInt p (c :: cs) with
    | error e => rw [hi] at h; cases h
    | ok r =>
      obtain ⟨len, tail⟩ := r
      have hlt := decodeInt_length hi
      simp only [hi] at h
      split at h
      · cases h
      · split at h
        · split at h
          · cases h
          · cases h
            simp only [List.length_drop]
            omega
        · cases h
          simp only [List.length_drop]
          omega

namespace BlockState

theorem literalName_length {s : BlockState} {idx : ℕ} {b name rest : Bytes}
    (h : s.literalName idx b = .ok (name, rest)) : rest.length ≤ b.length := by
  unfold literalName at h
  split at h
  · exact (decodeStr_length h).le
  · split at h
    · cases h
    · cases h; exact le_rfl

theorem literal_length {s : BlockState} {p : ℕ} {f : Bytes × Bytes} {rest : Bytes}
    (h : s.literal p = .ok (f, rest)) : rest.length < s.rest.length := by
  unfold literal at h
  cases hi : decodeInt p s.rest with
  | error e => rw [hi] at h; cases h
  | ok r1 =>
    have h1 := decodeInt_length hi
    cases hn : s.literalName r1.1 r1.2 with
    | error e => simp [hi, hn, bind, Except.bind] at h
    | ok r2 =>
      have h2 := literalName_length hn
      cases hv : decodeString r2.2 with
      | error e => simp [hi, hn, hv, bind, Except.bind] at h
      | ok r3 =>
        have h3 := decodeStr_length hv
        simp only [hi, hn, hv, bind, Except.bind] at h
        cases h
        omega

theorem field_length {s s' : BlockState} (h : s.field = .ok s') :
    s'.rest.length < s.rest.length := by
  unfold field at h
  simp only at h
  split at h
  · unfold indexed at h
    cases hi : decodeInt 7 s.rest with
    | error e => rw [hi] at h; cases h
    | ok r =>
      have h1 := decodeInt_length hi
      simp only [hi, bind, Except.bind] at h
      split at h
      · cases h
      · split at h
        · cases h
        · split at h
          · cases h
          · cases h; exact h1
  · split at h
    · unfold incremental at h
      cases hl : s.literal 6 with
      | error e => rw [hl] at h; cases h
      | ok r =>
        have h1 := literal_length hl
        simp only [hl, bind, Except.bind] at h
        split at h
        · cases h
        · cases h; exact h1
    · split at h
      · unfold sizeUpdate at h
        split at h
        · cases h
        · split at h
          · cases h
          · next hi =>
            have h1 := decodeInt_length hi
            split at h
            · cases h
            · cases h; exact h1
      · unfold unindexed at h
        cases hl : s.literal 4 with
        | error e => rw [hl] at h; cases h
        | ok r =>
          have h1 := literal_length hl
          simp only [hl, bind, Except.bind] at h
          split at h
          · cases h
          · cases h; exact h1

end BlockState

/-- The block loop. -/
def blockLoop : Loop BlockState (HpackDecoder × Except HpackError Fields) where
  step := BlockState.step
  measure s := s.rest.length
  decreases := by
    intro s s' h
    unfold BlockState.step at h
    split at h
    · cases h
    · split at h
      · cases h
      · next hf => cases h; exact BlockState.field_length hf

/-- Decode a complete header block: the decoder it leaves, and the fields. -/
def decodeHeaderBlock (d : HpackDecoder) (buf : Bytes) :
    HpackDecoder × Except HpackError Fields :=
  blockLoop.run { d := d, rest := buf }

/-! ### Encoding -/

/-- The continuation bytes of an integer, least significant group first. -/
def encodeIntTail : Loop (ℕ × Bytes) Bytes where
  step s := if s.1 ≥ 128 then .inl (s.1 / 128, s.2 ++ [(s.1 % 128 + 128).toUInt8])
    else .inr (s.2 ++ [s.1.toUInt8])
  measure s := s.1
  decreases := by
    intro s s' h
    split at h
    · cases h
      simp only
      omega
    · cases h

def encodeInt (value prefixBits firstByte : ℕ) : Bytes :=
  let mask := 2 ^ prefixBits - 1
  if value < mask then [(firstByte + value).toUInt8]
  else (firstByte + mask).toUInt8 :: encodeIntTail.run (value - mask, [])

/-- A string without Huffman coding. -/
def encodeRawString (s : Bytes) : Bytes := encodeInt s.length 7 0x00 ++ s

/-- Decimal digits, as Nim's stringification prints a non-negative number. -/
def decimal (n : ℕ) : Bytes := (Nat.toDigits 10 n).map (fun c => c.toNat.toUInt8)

/-- The static index of a full `:status` entry, `0` if there is none. -/
def statusIndex : ℕ → ℕ
  | 200 => 8 | 204 => 9 | 206 => 10 | 304 => 11 | 400 => 12 | 404 => 13 | 500 => 14 | _ => 0

def encodeStatus (status : ℕ) : Bytes :=
  let idx := statusIndex status
  if idx > 0 then encodeInt idx 7 0x80
  else encodeInt 8 4 0x00 ++ encodeRawString (decimal status)

/-- Literal without indexing; the name is already lower case. -/
def encodeHeader (name value : Bytes) : Bytes :=
  let idx := staticIndexOf name
  (if idx > 0 then encodeInt idx 4 0x00 else encodeInt 0 4 0x00 ++ encodeRawString name) ++
    encodeRawString value

/-- A sequence of field representations, as the encoder writes them. -/
inductive FieldBytes : Bytes → Prop
  | nil : FieldBytes []
  | status (code : ℕ) : FieldBytes (encodeStatus code)
  | header (name value : Bytes) : FieldBytes (encodeHeader name value)
  | append {a b : Bytes} (ha : FieldBytes a) (hb : FieldBytes b) : FieldBytes (a ++ b)

theorem FieldBytes.flatMap {α : Type} {f : α → Bytes} (hf : ∀ x, FieldBytes (f x)) (l : List α) :
    FieldBytes (l.flatMap f) := by
  induction l with
  | nil => exact .nil
  | cons x l ih => exact .append (hf x) ih

end Vortex.Http2
