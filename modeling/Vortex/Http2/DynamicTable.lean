import Vortex.Http2.DecoderSync

/-! # The dynamic table is a bounded queue

A peer's field blocks leave entries behind for later blocks, and the list of a block's fields can be
far longer than the block.  `table_is_a_bounded_queue` is what the decoder's limits come to over
whole runs; `BlockState.Queue` is the invariant of the block loop. -/

namespace Vortex.Http2

variable {d d' : HpackDecoder} {s s' : BlockState} {m k : ℕ}

/-! ### Eviction -/

/-- The size kept is the size of the entries, within the limits in force. -/
structure HpackDecoder.Bounded (m k : ℕ) (d : HpackDecoder) : Prop where
  account : d.size = (d.entries.map fieldSize).sum
  fits : d.size ≤ d.maxSize
  limit : d.maxSize ≤ m
  settings : d.settingsMax = m
  decoded : d.maxDecoded = k

theorem evictLoop_spec (m : ℕ) : ∀ l : Fields, ∃ l', l' <:+ l ∧ (l'.map fieldSize).sum ≤ m ∧
    evictLoop m l (l.map fieldSize).sum = (l', (l'.map fieldSize).sum)
  | [] => ⟨[], List.suffix_rfl, Nat.zero_le _, rfl⟩
  | e :: rest => by
    unfold evictLoop
    split
    · obtain ⟨l, hsuf, hle, he⟩ := evictLoop_spec m rest
      rw [List.map_cons, List.sum_cons, Nat.add_sub_cancel_left]
      exact ⟨l, hsuf.trans (List.suffix_cons e rest), hle, he⟩
    · next hle => exact ⟨_, List.suffix_rfl, not_lt.mp hle, rfl⟩

theorem HpackDecoder.evict_spec (ha : d.size = (d.entries.map fieldSize).sum) (hm : d.maxSize ≤ m)
    (hs : d.settingsMax = m) (hk : d.maxDecoded = k) :
    d.evict.Bounded m k ∧ d.evict.entries.reverse <:+ d.entries.reverse := by
  obtain ⟨l, hsuf, hle, he⟩ := evictLoop_spec d.maxSize d.entries.reverse
  rw [List.map_reverse, List.sum_reverse, ← ha] at he
  rw [HpackDecoder.evict, he]
  exact ⟨⟨by simp, hle, hm, hs, hk⟩, by simpa using hsuf⟩

/-! ### A block -/

namespace BlockState

theorem accrue_ok {f : Bytes × Bytes} (h : s.accrue f = .ok s') :
    s' = { s with decoded := s.decoded + fieldSize f } ∧
      (0 < s.d.maxDecoded → s'.decoded ≤ s.d.maxDecoded) := by
  unfold accrue at h
  split_ifs at h with hlim
  obtain rfl := Except.ok.inj h
  exact ⟨rfl, fun h0 => not_lt.mp fun hlt => hlim ⟨h0, hlt⟩⟩

theorem field_cases (h : s.field = .ok s') :
    (∃ f, s'.headers = s.headers ++ [f] ∧ s'.decoded = s.decoded + fieldSize f ∧
        (0 < s.d.maxDecoded → s'.decoded ≤ s.d.maxDecoded) ∧
        (s'.d = s.d ∨ s'.d = s.d.addEntry f.1 f.2)) ∨
      (s'.headers = s.headers ∧ s'.decoded = s.decoded ∧
        ∃ newMax ≤ s.d.settingsMax, s'.d = HpackDecoder.evict { s.d with maxSize := newMax }) := by
  unfold field indexed incremental sizeUpdate unindexed at h
  simp only [bind, Except.bind] at h
  repeat' split at h
  -- a branch adds a field it has accounted for, changes the limit, or fails
  all_goals first
    | (obtain ⟨rfl, hle⟩ := accrue_ok ‹s.accrue _ = .ok _›
       obtain rfl := Except.ok.inj h
       exact .inl ⟨_, rfl, rfl, hle, by simp [push]⟩)
    | (obtain rfl := Except.ok.inj h
       exact .inr ⟨rfl, rfl, _, not_lt.mp ‹_›, rfl⟩)
    | cases h

/-- The block loop so far: the table is bounded, and it is the newest part of what it was with some
of the fields read behind it. -/
structure Queue (m k : ℕ) (d : HpackDecoder) (s : BlockState) : Prop where
  bounded : s.d.Bounded m k
  decoded : s.decoded = (s.headers.map fieldSize).sum
  fits : 0 < k → s.decoded ≤ k
  newest : ∃ added, added.Sublist s.headers ∧ s.d.entries.reverse <:+ d.entries.reverse ++ added

theorem Queue.field (hq : s.Queue m k d) (h : s.field = .ok s') : s'.Queue m k d := by
  have hb := hq.bounded
  obtain ⟨added, hsub, hsuf⟩ := hq.newest
  rcases field_cases h with ⟨f, hh, hd, hfit, ht⟩ | ⟨hh, hd, newMax, hm, ht⟩
  · have hdec : s'.decoded = (s'.headers.map fieldSize).sum := by
      rw [hd, hh, hq.decoded]
      simp
    rw [hb.decoded] at hfit
    rcases ht with ht | ht
    · exact ⟨ht ▸ hb, hdec, hfit, added, hh ▸ hsub.trans (List.sublist_append_left _ _), ht ▸ hsuf⟩
    · obtain ⟨hb', hsuf'⟩ := HpackDecoder.evict_spec (d := { s.d with
        size := s.d.size + fieldSize (f.1, f.2), entries := (f.1, f.2) :: s.d.entries })
        (by simp [hb.account, Nat.add_comm]) hb.limit hb.settings hb.decoded
      refine ⟨ht ▸ hb', hdec, hfit, added ++ [f], hh ▸ hsub.append_right [f], ?_⟩
      obtain ⟨t, e⟩ := hsuf
      exact ht ▸ hsuf'.trans ⟨t, by simp only [List.reverse_cons, ← List.append_assoc, e]⟩
  · obtain ⟨hb', hsuf'⟩ := HpackDecoder.evict_spec (d := { s.d with maxSize := newMax })
      hb.account (hb.settings ▸ hm) hb.settings hb.decoded
    exact ⟨ht ▸ hb', by rw [hd, hh, hq.decoded], hd ▸ hq.fits, added, hh ▸ hsub,
      ht ▸ hsuf'.trans hsuf⟩

end BlockState

theorem decodeHeaderBlock_queue {block : Bytes} {fields : Fields} (hd : d.Bounded m k)
    (h : decodeHeaderBlock d block = (d', .ok fields)) :
    d'.Bounded m k ∧ (0 < k → (fields.map fieldSize).sum ≤ k) ∧
      ∃ added, added.Sublist fields ∧ d'.entries.reverse <:+ d.entries.reverse ++ added := by
  refine blockLoop.run_induction (P := fun s r => s.Queue m k d → r = (d', .ok fields) → _)
    (fun s r hs hq e => ?_) (fun s s' r hs ih hq => ih ?_) { d := d, rest := block }
    ⟨hd, rfl, fun _ => Nat.zero_le _, [], .slnil, by simp⟩ h
  · subst e
    change s.step = _ at hs
    unfold BlockState.step at hs
    split at hs
    · cases hs
      exact ⟨hq.bounded, hq.decoded ▸ hq.fits, hq.newest⟩
    · split at hs <;> cases hs
  · change s.step = _ at hs
    unfold BlockState.step at hs
    split at hs
    · cases hs
    · split at hs <;> cases hs
      exact hq.field ‹_›

/-! ### Whole runs -/

theorem decodeBlocks_bounded : ∀ {blocks : List Bytes} {d : HpackDecoder}, d.Bounded m k →
    decodeBlocks d blocks = some d' → d'.Bounded m k
  | [], d, hd, h => Option.some.inj h ▸ hd
  | block :: blocks, d, hd, h => by
    unfold decodeBlocks at h
    rw [List.foldlM_cons] at h
    obtain ⟨d1, h1, h2⟩ := Option.bind_eq_some_iff.mp h
    unfold decodeWhole at h1
    split at h1 <;> cases h1
    exact decodeBlocks_bounded (decodeHeaderBlock_queue hd ‹_›).1 h2

/-- **The dynamic table is a bounded queue.**  In every connection that is not closing, the size
the table accounts for is the size of its entries, and no more than the limit in force, which is at
most the 4096 octets announced.  The fields of the next block, whatever it is, stay within the limit
on the header list, and the table afterwards, oldest entry first, is the newest part of the table
before with some of these fields, in their order, behind it. -/
theorem table_is_a_bounded_queue {W : World} {ok : Call → Conn → Prop} (hW : W.Obeys ok)
    {cfg : Config} {n : ℕ} {c : Conn} (h : Reachable (W.hooks n) ok cfg c)
    (hopen : c.closing = false) :
    c.decoder.size = (c.decoder.entries.map fieldSize).sum ∧ c.decoder.size ≤ c.decoder.maxSize ∧
      c.decoder.maxSize ≤ 4096 ∧ ∀ block d fields,
        decodeHeaderBlock c.decoder block = (d, .ok fields) →
          (0 < cfg.maxHeaderList → (fields.map fieldSize).sum ≤ cfg.maxHeaderList) ∧
          ∃ added, added.Sublist fields ∧
            d.entries.reverse <:+ c.decoder.entries.reverse ++ added := by
  have hb : c.decoder.Bounded 4096 cfg.maxHeaderList :=
    decodeBlocks_bounded ⟨rfl, Nat.zero_le _, le_rfl, rfl, rfl⟩
      ((h.synced hW).resolve_left (by rw [hopen]; decide)).decoded
  exact ⟨hb.account, hb.fits, hb.limit, fun _ _ _ hd => (decodeHeaderBlock_queue hb hd).2⟩

theorem table_is_a_bounded_queue_answeredInBlock : let c := runOn true answeredInBlock
    (c.closing = false ∧ c.decoder.size = 77) ∧
      c.decoder.size = (c.decoder.entries.map fieldSize).sum :=
  ⟨by decide +kernel, (table_is_a_bounded_queue (idleWorld_obeys true anyCall)
    (runOn_reachable true answeredInBlock (fun _ _ _ => trivial)) (by decide +kernel)).1⟩

end Vortex.Http2
