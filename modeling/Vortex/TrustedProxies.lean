import Mathlib.Tactic.IntervalCases
import Vortex.Forwarding

/-! # The proxies that are trusted

What `isTrustedProxy` decides, over the bits of the addresses: the masked byte loop compares the
first bits of two addresses, and an entry that does not parse is passed by. -/

namespace Vortex.Forwarding

/-! ### The addresses an entry covers -/

/-- The bits of an address, the most significant first. -/
def bitsOf (bytes : Bytes) : List Bool :=
  bytes.flatMap fun b => (List.range 8).map b.toBitVec.getMsbD

/-- The IPv6 form of an IPv4 address. -/
def mapped (a : Vector UInt8 4) : IpAddress :=
  .v6 #v[0, 0, 0, 0, 0, 0, 0, 0, 0, 0, 0xff, 0xff, a[0], a[1], a[2], a[3]]

/-- The address a peer is held against the entries with. -/
inductive Folded : IpAddress → IpAddress → Prop
  | mapped (a : Vector UInt8 4) : Folded (mapped a) (.v4 a)
  | direct {ip : IpAddress} (h : ∀ a, ip ≠ mapped a) : Folded ip ip

/-- The entry reads as a network: an address, and how many of its first bits count. -/
structure ReadsNetwork (std : StdNet) (entry : Bytes) (net : IpAddress) (bits : ℕ) : Prop where
  text : ∃ addr len, strip isWhitespace entry = addr ++ 0x2f :: len ∧ 0x2f ∉ len ∧
    std.parseIpAddress addr = some net ∧ std.parseInt len = some bits
  width : bits ≤ (bitsOf net.bytes).length

/-- The entry reads as a single address. -/
def ReadsAddress (std : StdNet) (entry : Bytes) (ip : IpAddress) : Prop :=
  strip isWhitespace entry ≠ [] ∧ 0x2f ∉ strip isWhitespace entry ∧
    std.parseIpAddress (strip isWhitespace entry) = some ip

/-- The entry is the address, or a network of its family with the same first bits. -/
def Covers (std : StdNet) (entry : Bytes) (ip : IpAddress) : Prop :=
  ReadsAddress std entry ip ∨ ∃ net bits, ReadsNetwork std entry net bits ∧
    net.bytes.length = ip.bytes.length ∧
    (bitsOf ip.bytes).take bits = (bitsOf net.bytes).take bits

/-! ### The byte loop -/

theorem length_bitsOf (bytes : Bytes) : (bitsOf bytes).length = bytes.length * 8 := by
  simp [bitsOf, List.length_flatMap]

theorem mask_getMsbD : ∀ k ≤ 8, 0 < k → ∀ i < 8,
    (if k = 8 then 0xff else 0xff <<< (8 - k).toUInt8 : UInt8).toBitVec.getMsbD i =
      decide (i < k) := by
  decide

theorem masked_eq_iff (a b : UInt8) {k : ℕ} {mask : UInt8} (hk : k ≤ 8) (h0 : 0 < k)
    (hm : mask = (if k = 8 then 0xff else 0xff <<< (8 - k).toUInt8 : UInt8)) :
    a &&& mask = b &&& mask ↔ ((List.range 8).map a.toBitVec.getMsbD).take k =
      ((List.range 8).map b.toBitVec.getMsbD).take k := by
  have h : ∀ x : UInt8, ∀ i < 8,
      (x &&& mask).toBitVec.getMsbD i = (x.toBitVec.getMsbD i && decide (i < k)) := by
    intro x i hi
    rw [UInt8.toBitVec_and, BitVec.getMsbD_and, hm, mask_getMsbD k hk h0 i hi]
  rw [← List.map_take, ← List.map_take, List.take_range, List.map_inj_left, min_eq_left hk]
  constructor
  · intro e i hi
    have hik := List.mem_range.mp hi
    have h1 := h a i (by omega)
    rw [e, h b i (by omega)] at h1
    simpa [hik] using h1.symm
  · intro e
    refine UInt8.toBitVec_inj.mp (BitVec.eq_of_getMsbD_eq fun i hi => ?_)
    rw [h a i hi, h b i hi]
    by_cases hik : i < k
    · rw [e i (List.mem_range.mpr hik)]
    · simp [hik]

theorem sameBits_iff (n : ℕ) (as bs : Bytes) (h : as.length = bs.length) :
    sameBits n as bs = true ↔ (bitsOf as).take n = (bitsOf bs).take n := by
  induction as generalizing n bs with
  | nil =>
    have hb : bs = [] := List.eq_nil_of_length_eq_zero h.symm
    simp [hb, sameBits]
  | cons a as ih =>
    obtain ⟨b, bs, rfl⟩ := List.exists_cons_of_length_eq_add_one h.symm
    cases n with
    | zero => simp [sameBits]
    | succ m =>
      have hl : as.length = bs.length := Nat.succ.inj h
      have hn : m + 1 - min 8 (m + 1) = m + 1 - 8 := by omega
      have he : ∀ (x : UInt8) xs, bitsOf (x :: xs) =
          (List.range 8).map x.toBitVec.getMsbD ++ bitsOf xs := fun x xs => rfl
      have ht : ∀ x : UInt8, ((List.range 8).map x.toBitVec.getMsbD).take (min 8 (m + 1)) =
          ((List.range 8).map x.toBitVec.getMsbD).take (m + 1) := fun x => by
        rw [← List.take_take, List.take_of_length_le (i := 8) (by simp)]
      unfold sameBits
      rw [Bool.and_eq_true, beq_iff_eq, masked_eq_iff a b (min_le_left 8 (m + 1)) (by omega) rfl,
        ih _ _ hl, hn, he, he, List.take_append, List.take_append, ht, ht]
      simp only [List.length_map, List.length_range]
      exact ⟨fun e => by rw [e.1, e.2], fun e => List.append_inj e (by simp)⟩

/-! ### Peers and entries -/

theorem toV4_mapped (a : Vector UInt8 4) : toV4 (mapped a) = .v4 a := by
  have e : #v[a[0], a[1], a[2], a[3]] = a := by
    refine Vector.ext fun i hi => ?_
    interval_cases i <;> rfl
  simp [toV4, mapped, e]

theorem toV4_direct {ip : IpAddress} (h : ∀ a, ip ≠ mapped a) : toV4 ip = ip := by
  cases ip with
  | v4 a => rfl
  | v6 a =>
    refine if_neg fun hm => h #v[a[12], a[13], a[14], a[15]] ?_
    have h0 : ∀ i (hi : i < 10), a[i] = 0 := by
      intro i hi
      have ht : a[i] ∈ a.toList.take 10 := by
        rw [List.mem_take_iff_getElem]
        exact ⟨i, by simp; omega, by simp⟩
      simpa using List.all_eq_true.mp hm.1 _ ht
    refine congrArg IpAddress.v6 (Vector.ext fun i hi => ?_)
    interval_cases i <;> simp [h0, hm.2.1, hm.2.2]

theorem folded_iff {ip pip : IpAddress} : Folded ip pip ↔ pip = toV4 ip := by
  constructor
  · rintro (⟨a⟩ | ⟨h⟩)
    · exact (toV4_mapped a).symm
    · exact (toV4_direct h).symm
  · rintro rfl
    by_cases h : ∃ a, ip = mapped a
    · obtain ⟨a, rfl⟩ := h
      rw [toV4_mapped]
      exact .mapped a
    · have hd : ∀ a, ip ≠ mapped a := fun a e => h ⟨a, e⟩
      rw [toV4_direct hd]
      exact .direct hd

theorem cut_slash {e addr len : Bytes} (he : e = addr ++ 0x2f :: len) (hl : 0x2f ∉ len) :
    (e.rdropWhile (· ≠ 0x2f)).dropLast = addr ∧ e.rtakeWhile (· ≠ 0x2f) = len := by
  have hp : ∀ b ∈ len.reverse, decide (b ≠ 0x2f) = true := by
    intro b hb
    exact decide_eq_true fun e => hl (e ▸ List.mem_reverse.mp hb)
  subst he
  unfold List.rdropWhile List.rtakeWhile
  simp only [List.reverse_append, List.reverse_cons, List.append_assoc, List.singleton_append]
  rw [List.dropWhile_append_of_pos hp, List.takeWhile_append_of_pos hp]
  simp

theorem exists_cut {e : Bytes} (h : 0x2f ∈ e) : ∃ addr len, e = addr ++ 0x2f :: len ∧
    0x2f ∉ len := by
  obtain ⟨as, bs, he, hn⟩ := List.eq_append_cons_of_mem (List.mem_reverse.mpr h)
  refine ⟨bs.reverse, as.reverse, ?_, by simpa using hn⟩
  rw [← List.reverse_reverse e, he]
  simp

theorem inNetwork_iff (ip net : IpAddress) (bits : ℤ) : inNetwork ip net bits = true ↔
    net.bytes.length = ip.bytes.length ∧ 0 ≤ bits ∧ bits.toNat ≤ (bitsOf net.bytes).length ∧
      (bitsOf ip.bytes).take bits.toNat = (bitsOf net.bytes).take bits.toNat := by
  by_cases hl : ip.bytes.length = net.bytes.length
  · rw [← sameBits_iff _ _ _ hl, length_bitsOf, ← hl]
    simp only [inNetwork, hl, beq_self_eq_true, Bool.true_and, Bool.and_eq_true,
      Bool.not_eq_true', Bool.or_eq_false_iff, decide_eq_false_iff_not, true_and, ← and_assoc]
    refine and_congr_left fun _ => ?_
    omega
  · simp [inNetwork, hl, Ne.symm hl]

theorem trustsEntry_iff (std : StdNet) (ip : IpAddress) (entry : Bytes) :
    trustsEntry std ip entry = true ↔ Covers std entry ip := by
  unfold trustsEntry
  dsimp only
  split_ifs with hs he
  · obtain ⟨addr, len, hcut, hl⟩ := exists_cut hs
    rw [(cut_slash hcut hl).1, (cut_slash hcut hl).2]
    constructor
    · intro h
      split at h
      · next net bits hn hb =>
          obtain ⟨hf, h0, hw, hp⟩ := (inNetwork_iff _ _ _).mp h
          rw [← Int.toNat_of_nonneg h0] at hb
          exact .inr ⟨net, bits.toNat, ⟨⟨addr, len, hcut, hl, hn, hb⟩, hw⟩, hf, hp⟩
      · cases h
    · rintro (h | ⟨net, bits, ⟨⟨addr', len', hcut', hl', hn, hb⟩, hw⟩, hf, hp⟩)
      · exact absurd hs h.2.1
      · obtain ⟨e1, e2⟩ := cut_slash hcut' hl'
        rw [(cut_slash hcut hl).1] at e1
        rw [(cut_slash hcut hl).2] at e2
        rw [e1, e2, hn, hb]
        exact (inNetwork_iff _ _ _).mpr ⟨hf, by simp, by simpa using hw, by simpa using hp⟩
  all_goals
    have hn : ∀ net bits, ¬ ReadsNetwork std entry net bits := by
      rintro net bits ⟨⟨addr, len, hcut, -⟩, -⟩
      rw [hcut] at hs
      simp at hs
    simp [Covers, ReadsAddress, hs, he, hn]

/-- **Trust is membership.**  A peer is trusted when it reads as an address and some entry covers
that address, and an entry that reads as nothing counts for nothing wherever it stands. -/
theorem isTrustedProxy_iff (std : StdNet) (peer : Bytes) {trusted : List Bytes}
    (hne : trusted ≠ []) :
    (isTrustedProxy std peer trusted = true ↔ ∃ ip pip, std.parseIpAddress peer = some ip ∧
      Folded ip pip ∧ ∃ entry ∈ trusted, Covers std entry pip) ∧
    ∀ l entry r, trusted = l ++ entry :: r → l ++ r ≠ [] →
      (∀ ip, ¬ ReadsAddress std entry ip) → (∀ net bits, ¬ ReadsNetwork std entry net bits) →
      isTrustedProxy std peer trusted = isTrustedProxy std peer (l ++ r) := by
  constructor
  · unfold isTrustedProxy
    rw [if_neg hne]
    cases hp : std.parseIpAddress peer with
    | none => simp
    | some ip =>
      simp [trustsEntry_iff, folded_iff]
  · rintro l entry r rfl hlr ha hn
    have hc : ∀ ip, trustsEntry std ip entry = false := by
      intro ip
      rw [← Bool.not_eq_true, trustsEntry_iff]
      rintro (h | ⟨net, bits, h, -⟩)
      · exact ha ip h
      · exact hn net bits h
    simp [isTrustedProxy, hlr, hc]

/-- `oneDigitNet` that also reads prefix lengths of one digit. -/
def oneDigitRanges : StdNet where
  parseIpAddress := oneDigitNet.parseIpAddress
  parseInt
    | [d] => if FieldRules.isDigit d then some (d.toNat - 0x30 : ℕ) else none
    | _ => none

theorem isTrustedProxy_iff_range : isTrustedProxy oneDigitRanges (ascii "9.1.2.3")
    [ascii "9.1.2.3/x", ascii " 9.0.0.0/8"] = true :=
  (isTrustedProxy_iff oneDigitRanges (ascii "9.1.2.3") (by decide)).1.mpr
    ⟨.v4 #v[9, 1, 2, 3], _, by decide, .direct (fun _ h => by cases h), ascii " 9.0.0.0/8", by simp,
      .inr ⟨.v4 #v[9, 0, 0, 0], 8,
        ⟨⟨ascii "9.0.0.0", ascii "8", by decide, by decide, by decide, by decide⟩, by decide⟩,
        by decide, by decide⟩⟩

end Vortex.Forwarding
