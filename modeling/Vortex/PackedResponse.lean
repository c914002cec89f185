import Vortex.FieldRules

/-! # Responses packed for the outbox

A worker packs content type, header fields and body into one string; the loop thread unpacks it
into buffers that still hold an earlier response.  `none` stands for a read outside the data. -/

namespace Vortex.PackedResponse

/-! ### Packing -/

/-- The four bytes of an `uint32`, the least significant first. -/
def addU32 (v : ℕ) : Bytes :=
  [v.toUInt8, (v / 2 ^ 8).toUInt8, (v / 2 ^ 16).toUInt8, (v / 2 ^ 24).toUInt8]

def getU32 (s : Bytes) (pos : ℕ) : Option ℕ := do
  return (← s[pos]?).toNat + (← s[pos + 1]?).toNat * 2 ^ 8 + (← s[pos + 2]?).toNat * 2 ^ 16 +
    (← s[pos + 3]?).toNat * 2 ^ 24

/-- A string behind its length. -/
def packString (x : Bytes) : Bytes := addU32 x.length ++ x

def packHeaders (headers : Fields) : Bytes :=
  headers.flatMap fun h => packString h.1 ++ packString h.2

def packResponse (contentType : Bytes) (headers : Fields) (body : Bytes) : Bytes :=
  packString contentType ++ (addU32 headers.length ++ (packHeaders headers ++ body))

/-! ### Unpacking -/

def unpackHeaders (data : Bytes) : ℕ → ℕ → Fields → Option (Fields × ℕ)
  | 0, pos, headers => some (headers, pos)
  | n + 1, pos, headers => do
      let nl ← getU32 data pos
      let name := slice data (pos + 4) (pos + 4 + nl)
      let vl ← getU32 data (pos + 4 + nl)
      let val := slice data (pos + 4 + nl + 4) (pos + 4 + nl + 4 + vl)
      unpackHeaders data n (pos + 4 + nl + 4 + vl) (headers ++ [(name, val)])

def unpackResponse (data : Bytes) : Option (Bytes × Fields × ℕ) := do
  let ctLen ← getU32 data 0
  let contentType := slice data 4 (4 + ctLen)
  let n ← getU32 data (4 + ctLen)
  let (headers, bodyStart) ← unpackHeaders data n (4 + ctLen + 4) []
  return (contentType, headers, bodyStart)

/-- `setLen`: what stays of a buffer, and zeros behind it. -/
def setLen {α : Type} (zero : α) (s : List α) (n : ℕ) : List α :=
  s.take n ++ List.replicate (n - s.length) zero

def setSlice (dst src : Bytes) (start n : ℕ) : Option Bytes :=
  let dst := setLen 0 dst n
  if n > 0 then
    if start + n ≤ src.length then some (slice src start (start + n) ++ dst.drop n) else none
  else some dst

/-- The slots from `i` on are overwritten. -/
def fillHeaders (data : Bytes) : ℕ → ℕ → ℕ → Fields → Option (Fields × ℕ)
  | 0, _, pos, headers => some (headers, pos)
  | n + 1, i, pos, headers => do
      let nl ← getU32 data pos
      let slot ← headers[i]?
      let name ← setSlice slot.1 data (pos + 4) nl
      let vl ← getU32 data (pos + 4 + nl)
      let val ← setSlice slot.2 data (pos + 4 + nl + 4) vl
      fillHeaders data n (i + 1) (pos + 4 + nl + 4 + vl) (headers.set i (name, val))

def unpackResponseInto (data contentType : Bytes) (headers : Fields) :
    Option (Bytes × Fields × ℕ) := do
  let ctLen ← getU32 data 0
  let contentType ← setSlice contentType data 4 ctLen
  let n ← getU32 data (4 + ctLen)
  let (headers, bodyStart) ← fillHeaders data n 0 (4 + ctLen + 4) (setLen ([], []) headers n)
  return (contentType, headers, bodyStart)

/-! ### What was packed is read back -/

variable {x data front rest : Bytes} {v : ℕ}

theorem getU32_addU32 (h : v < 2 ^ 32) (hd : data = front ++ (addU32 v ++ rest)) :
    getU32 data front.length = some v := by
  subst hd
  have hb : ∀ i, (front ++ (addU32 v ++ rest))[front.length + i]? = (addU32 v ++ rest)[i]? :=
    fun i => by rw [List.getElem?_append_right (Nat.le_add_right _ _), Nat.add_sub_cancel_left]
  unfold getU32
  rw [hb 1, hb 2, hb 3, show (front ++ (addU32 v ++ rest))[front.length]? = _ from hb 0]
  simp [addU32, Nat.toUInt8, UInt8.toNat_ofNat']
  omega

theorem slice_packed (hd : data = front ++ (x ++ rest)) :
    slice data front.length (front.length + x.length) = x := by
  have h := slice_shift front (x ++ rest) 0 x.length
  rw [hd]
  simpa [slice] using h

theorem setSlice_packed (dst : Bytes) (hd : data = front ++ (x ++ rest)) :
    setSlice dst data front.length x.length = some x := by
  unfold setSlice
  split_ifs with h1 h2
  · rw [slice_packed hd]
    simp [setLen]
    omega
  · subst hd
    simp at h2
  · simp [setLen, List.length_eq_zero_iff.mp (Nat.eq_zero_of_not_pos h1)]

theorem read_packString (h : x.length < 2 ^ 32) (hd : data = front ++ (packString x ++ rest)) :
    getU32 data front.length = some x.length ∧
      slice data (front.length + 4) (front.length + 4 + x.length) = x ∧
      (∀ dst, setSlice dst data (front.length + 4) x.length = some x) ∧
      data = (front ++ packString x) ++ rest ∧
      (front ++ packString x).length = front.length + 4 + x.length := by
  have hb : data = (front ++ addU32 x.length) ++ (x ++ rest) := by simp [hd, packString]
  have hlen : (front ++ addU32 x.length).length = front.length + 4 := by simp [addU32]
  refine ⟨getU32_addU32 h (by simpa using hb), hlen ▸ slice_packed hb,
    fun dst => hlen ▸ setSlice_packed dst hb, by simp [hd], ?_⟩
  rw [packString, ← List.append_assoc, List.length_append, hlen]

theorem headers_packed {todo : Fields}
    (hl : ∀ h ∈ todo, h.1.length < 2 ^ 32 ∧ h.2.length < 2 ^ 32) {done slots : Fields}
    (hs : slots.length = todo.length) (hd : data = front ++ (packHeaders todo ++ rest)) :
    fillHeaders data todo.length done.length front.length (done ++ slots) =
        some (done ++ todo, (front ++ packHeaders todo).length) ∧
      unpackHeaders data todo.length front.length done =
        some (done ++ todo, (front ++ packHeaders todo).length) := by
  induction todo generalizing front done slots with
  | nil => simp_all [fillHeaders, unpackHeaders, packHeaders]
  | cons h todo ih =>
    obtain ⟨slot, slots, rfl⟩ := List.exists_cons_of_length_eq_add_one hs
    obtain ⟨h1, h2⟩ := hl h List.mem_cons_self
    have d0 : data = front ++ (packString h.1 ++ (packString h.2 ++ (packHeaders todo ++ rest))) := by
      simpa [packHeaders] using hd
    obtain ⟨n1, s1, f1, d1, l1⟩ := read_packString h1 d0
    obtain ⟨n2, s2, f2, d2, l2⟩ := read_packString h2 d1
    rw [l1] at n2 s2 f2 l2
    have hset : (done ++ slot :: slots).set done.length h = done ++ [h] ++ slots := by simp
    have hend : front ++ packString h.1 ++ packString h.2 ++ packHeaders todo =
        front ++ packHeaders (h :: todo) := by simp [packHeaders]
    obtain ⟨hf, hu⟩ := @ih _ (fun g hg => hl g (List.mem_cons_of_mem h hg))
      (done ++ [h]) slots (by simpa using hs) d2
    rw [l2, hend] at hf hu
    constructor
    · simpa [fillHeaders, n1, f1, n2, f2, hset] using hf
    · simpa [unpackHeaders, n1, s1, n2, s2] using hu

/-- **A packed response is unpacked as it was.** -/
theorem unpack_packResponse {contentType body : Bytes} {headers : Fields}
    (hct : contentType.length < 2 ^ 32) (hn : headers.length < 2 ^ 32)
    (hl : ∀ h ∈ headers, h.1.length < 2 ^ 32 ∧ h.2.length < 2 ^ 32)
    (contentType' : Bytes) (headers' : Fields) :
    ∃ bodyStart, unpackResponseInto (packResponse contentType headers body) contentType' headers' =
        some (contentType, headers, bodyStart) ∧
      (packResponse contentType headers body).drop bodyStart = body ∧
      unpackResponse (packResponse contentType headers body) =
        some (contentType, headers, bodyStart) := by
  obtain ⟨data, hd⟩ : ∃ data, data = packResponse contentType headers body := ⟨_, rfl⟩
  have d0 : data = [] ++ (packString contentType ++ (addU32 headers.length ++
      (packHeaders headers ++ body))) := hd
  obtain ⟨n1, s1, f1, d1, l1⟩ := read_packString hct d0
  have hn2 := getU32_addU32 hn d1
  have d2 : data = packString contentType ++ addU32 headers.length ++
      (packHeaders headers ++ body) := by simp [d1]
  have l2 : (packString contentType ++ addU32 headers.length).length =
      4 + contentType.length + 4 := by
    simp [packString, addU32]
    omega
  have hslots : (setLen ([], []) headers' headers.length).length = headers.length := by
    simp [setLen]
    omega
  obtain ⟨hf, hu⟩ := @headers_packed _ _ _ _ hl [] _ hslots d2
  rw [l1] at hn2
  rw [l2] at hf hu
  simp only [List.length_nil, Nat.zero_add] at n1 s1 f1 hn2
  rw [← hd]
  refine ⟨(packString contentType ++ addU32 headers.length ++ packHeaders headers).length,
    ?_, ?_, ?_⟩
  · simp only [List.length_nil, List.nil_append] at hf
    simp [unpackResponseInto, n1, f1, hn2, hf]
  · rw [d2, ← List.append_assoc, List.drop_left]
  · simp [unpackResponse, n1, s1, hn2, hu]

/-- A response with one field replaces one that had two. -/
theorem unpack_packResponse_shrinks :
    ∃ bodyStart, unpackResponseInto (packResponse [116] [([97], [98, 99])] [98]) [120, 121]
          [([97], [98]), ([99], [])] = some ([116], [([97], [98, 99])], bodyStart) ∧
      (packResponse [116] [([97], [98, 99])] [98]).drop bodyStart = [98] ∧
      unpackResponse (packResponse [116] [([97], [98, 99])] [98]) =
        some ([116], [([97], [98, 99])], bodyStart) :=
  unpack_packResponse (by decide) (by decide) (by simp) _ _

end Vortex.PackedResponse
