import Vortex.Http2.HeaderFrames
import Vortex.Http2.Ledger

/-! # Signalling the size of the dynamic table

The server's encoder keeps no dynamic table, but a client that lowers SETTINGS_HEADER_TABLE_SIZE
still has to be told: the next header block opens with a dynamic table size update, or the
client's decoder fails.  When the size changes more than once between two blocks, the smallest
value in between has to be signalled, and then the final one.

The first part of the module reads a header block the way a decoder does, as a sequence of
instructions, without the limits of the server's own decoder: `instructions`.  What the server
writes is read back (`FieldBytes.reads`).

The second part reads the journal as the client sees it.  `tableLog` notes the sizes the client has
set, the size last signalled, and for each complete header block a `Report` of how matters stood.

`table_sizes_are_signalled`: in every run, every block can be read, its updates stand before its
fields, none exceeds the client's limit and the last one is the limit; and if the sizes set since
the block before never went up again, a size below the one last signalled is signalled first.

The condition is needed.  The server has one slot for the update it owes, and a later setting
overwrites it: after a client has lowered the size to `0` and raised it to `100`, the next block
says `100` and never `0` (`raisedRun_unsignalled`). -/

namespace Vortex.Http2

/-! ### Reading a header block -/

/-- The groups of seven bits behind a full prefix, least significant first. -/
def readIntTail : Bytes → Option (ℕ × Bytes)
  | [] => none
  | b :: rest =>
      if b.toNat < 128 then some (b.toNat, rest)
      else
        match readIntTail rest with
        | none => none
        | some (v, rest) => some (b.toNat - 128 + 128 * v, rest)

/-- An integer with a prefix of `p` bits. -/
def readInt (p : ℕ) : Bytes → Option (ℕ × Bytes)
  | [] => none
  | b :: rest =>
      let mask := 2 ^ p - 1
      let v := b.toNat % 2 ^ p
      if v < mask then some (v, rest)
      else
        match readIntTail rest with
        | none => none
        | some (t, rest) => some (mask + t, rest)

def skipString (b : Bytes) : Option Bytes :=
  match readInt 7 b with
  | none => none
  | some (len, rest) => if len ≤ rest.length then some (rest.drop len) else none

/-- A literal field whose name index has a prefix of `p` bits. -/
def skipLiteral (p : ℕ) (b : Bytes) : Option Bytes :=
  match readInt p b with
  | none => none
  | some (idx, rest) =>
      if idx = 0 then (skipString rest).bind skipString else skipString rest

/-- An instruction of a header block. -/
inductive Instruction where
  | resize (n : ℕ)
  | field
deriving DecidableEq, Repr

def Instruction.size? : Instruction → Option ℕ
  | .resize n => some n
  | .field => none

/-- The instruction a block starts with, and the rest. -/
def instruction : Bytes → Option (Instruction × Bytes)
  | [] => none
  | b :: rest =>
      if 128 ≤ b.toNat then (readInt 7 (b :: rest)).map (fun r => (.field, r.2))
      else if 64 ≤ b.toNat then (skipLiteral 6 (b :: rest)).map (fun r => (.field, r))
      else if 32 ≤ b.toNat then (readInt 5 (b :: rest)).map (fun r => (.resize r.1, r.2))
      else (skipLiteral 4 (b :: rest)).map (fun r => (.field, r))

/-- At most `n` instructions. -/
def instructionsIn : ℕ → Bytes → Option (List Instruction)
  | _, [] => some []
  | 0, _ :: _ => none
  | n + 1, b :: rest =>
      match instruction (b :: rest) with
      | none => none
      | some (i, rest) => (instructionsIn n rest).map (i :: ·)

/-- The instructions of a block. -/
def instructions (b : Bytes) : Option (List Instruction) := instructionsIn b.length b

/-- The sizes a block signals, in their order. -/
def sizeUpdates (is : List Instruction) : List ℕ := is.filterMap Instruction.size?

section Reading

variable {b rest : Bytes} {is : List Instruction} {v p : ℕ}

theorem readIntTail_length (h : readIntTail b = some (v, rest)) : rest.length < b.length := by
  induction b generalizing v with
  | nil => cases h
  | cons x xs ih =>
    unfold readIntTail at h
    split at h
    · cases h
      simp
    · split at h
      · cases h
      · next t rest' ht =>
        cases h
        have := ih ht
        simp only [List.length_cons]
        omega

theorem readInt_length (h : readInt p b = some (v, rest)) : rest.length < b.length := by
  cases b with
  | nil => cases h
  | cons x xs =>
    unfold readInt at h
    dsimp only at h
    split at h
    · cases h
      simp
    · split at h
      · cases h
      · next t rest' ht =>
        cases h
        have := readIntTail_length ht
        simp only [List.length_cons]
        omega

theorem skipString_length (h : skipString b = some rest) : rest.length < b.length := by
  unfold skipString at h
  split at h
  · cases h
  · next len tail ht =>
    have := readInt_length ht
    split at h
    · cases h
      simp only [List.length_drop]
      omega
    · cases h

theorem skipLiteral_length (h : skipLiteral p b = some rest) : rest.length < b.length := by
  unfold skipLiteral at h
  split at h
  · cases h
  · next idx tail ht =>
    have h1 := readInt_length ht
    split at h
    · obtain ⟨mid, hm, hr⟩ := Option.bind_eq_some_iff.mp h
      have h2 := skipString_length hm
      have h3 := skipString_length hr
      omega
    · have h2 := skipString_length h
      omega

theorem instruction_length {i : Instruction} (h : instruction b = some (i, rest)) :
    rest.length < b.length := by
  cases b with
  | nil => cases h
  | cons x xs =>
    unfold instruction at h
    dsimp only at h
    split_ifs at h
    all_goals
      obtain ⟨r, hr, he⟩ := Option.map_eq_some_iff.mp h
      cases he
    · exact readInt_length hr
    · exact skipLiteral_length hr
    · exact readInt_length hr
    · exact skipLiteral_length hr

/-- The block consists of these instructions. -/
inductive Reads : Bytes → List Instruction → Prop
  | nil : Reads [] []
  | cons {b rest : Bytes} {i : Instruction} {is : List Instruction}
      (h : instruction b = some (i, rest)) (hr : Reads rest is) : Reads b (i :: is)

theorem Reads.instructionsIn (h : Reads b is) {n : ℕ} (hn : b.length ≤ n) :
    instructionsIn n b = some is := by
  induction h generalizing n with
  | nil => cases n <;> rfl
  | @cons b rest i is h hr ih =>
    have hlen := instruction_length h
    cases b with
    | nil => cases h
    | cons x xs =>
      cases n with
      | zero => simp at hn
      | succ n =>
        have hr' := ih (n := n) (by omega)
        unfold Http2.instructionsIn
        rw [h]
        dsimp only
        rw [hr']
        rfl

theorem Reads.instructions (h : Reads b is) : instructions b = some is :=
  h.instructionsIn (le_refl _)

/-! ### Reading back what was written -/

theorem readIntTail_encodeIntTail (v : ℕ) (rest : Bytes) :
    readIntTail (encodeIntTail.run (v, []) ++ rest) = some (v, rest) := by
  have h : ∃ t, encodeIntTail.run (v, []) = (v, ([] : Bytes)).2 ++ t ∧
      ∀ rest, readIntTail (t ++ rest) = some ((v, ([] : Bytes)).1, rest) := by
    refine encodeIntTail.run_induction (P := fun s r => ∃ t, r = s.2 ++ t ∧
      ∀ rest, readIntTail (t ++ rest) = some (s.1, rest)) (fun s r hs => ?_)
      (fun s s' r hs ih => ?_) (v, [])
    · simp only [encodeIntTail] at hs
      split at hs
      · cases hs
      · next hlt =>
        refine ⟨[s.1.toUInt8], (Sum.inr.inj hs).symm, fun rest => ?_⟩
        have hb : s.1.toUInt8.toNat = s.1 := by
          rw [Nat.toUInt8, UInt8.toNat_ofNat']
          omega
        simp only [List.singleton_append, readIntTail, hb]
        rw [if_pos (by omega)]
    · simp only [encodeIntTail] at hs
      split at hs
      · next hge =>
        rw [← Sum.inl.inj hs] at ih
        obtain ⟨t, ht, hread⟩ := ih
        refine ⟨(s.1 % 128 + 128).toUInt8 :: t, ?_, fun rest => ?_⟩
        · rw [ht]
          simp
        · have hb : (s.1 % 128 + 128).toUInt8.toNat = s.1 % 128 + 128 := by
            rw [Nat.toUInt8, UInt8.toNat_ofNat']
            omega
          simp only [List.cons_append, readIntTail, hb, hread]
          rw [if_neg (by omega), Nat.add_sub_cancel]
          simp only [Option.some.injEq, Prod.mk.injEq, and_true]
          omega
      · cases hs
  obtain ⟨t, ht, hread⟩ := h
  rw [ht, List.nil_append]
  exact hread rest

theorem encodeInt_eq {first : ℕ} (v : ℕ) (hp : first % 2 ^ p = 0) (hb : first + 2 ^ p ≤ 256)
    (rest : Bytes) : ∃ x xs, encodeInt v p first ++ rest = x :: xs ∧ first ≤ x.toNat ∧
      x.toNat < first + 2 ^ p ∧ readInt p (x :: xs) = some (v, rest) := by
  have hpos : 0 < 2 ^ p := Nat.two_pow_pos p
  have hmod : ∀ k, k < 2 ^ p → (first + k) % 2 ^ p = k := by
    intro k hk
    rw [Nat.add_mod, hp, Nat.zero_add, Nat.mod_mod, Nat.mod_eq_of_lt hk]
  have hbyte : ∀ k, k < 2 ^ p → (first + k).toUInt8.toNat = first + k := by
    intro k hk
    rw [Nat.toUInt8, UInt8.toNat_ofNat']
    omega
  unfold encodeInt
  dsimp only
  split_ifs with hlt
  · have hk : v < 2 ^ p := by omega
    refine ⟨(first + v).toUInt8, rest, rfl, ?_, ?_, ?_⟩
    · rw [hbyte v hk]
      omega
    · rw [hbyte v hk]
      omega
    · unfold readInt
      simp only [hbyte v hk, hmod v hk, if_pos hlt]
  · have hk : 2 ^ p - 1 < 2 ^ p := by omega
    refine ⟨(first + (2 ^ p - 1)).toUInt8, encodeIntTail.run (v - (2 ^ p - 1), []) ++ rest, rfl,
      ?_, ?_, ?_⟩
    · rw [hbyte _ hk]
      omega
    · rw [hbyte _ hk]
      omega
    · unfold readInt
      simp only [hbyte _ hk, hmod _ hk, lt_irrefl, if_false, readIntTail_encodeIntTail]
      simp only [Option.some.injEq, Prod.mk.injEq, and_true]
      omega

theorem readInt_encodeInt {first : ℕ} (v : ℕ) (hp : first % 2 ^ p = 0) (hb : first + 2 ^ p ≤ 256)
    (rest : Bytes) : readInt p (encodeInt v p first ++ rest) = some (v, rest) := by
  obtain ⟨x, xs, he, -, -, hr⟩ := encodeInt_eq v hp hb rest
  rw [he, hr]

theorem skipString_encodeRawString (s rest : Bytes) :
    skipString (encodeRawString s ++ rest) = some rest := by
  unfold skipString encodeRawString
  rw [List.append_assoc, readInt_encodeInt s.length rfl (by decide)]
  simp

theorem instruction_resize (n : ℕ) (rest : Bytes) :
    instruction (encodeInt n 5 0x20 ++ rest) = some (.resize n, rest) := by
  obtain ⟨x, xs, he, h1, h2, hr⟩ := encodeInt_eq n (show 0x20 % 2 ^ 5 = 0 from rfl) (by decide) rest
  rw [he]
  unfold instruction
  dsimp only
  rw [if_neg (by omega), if_neg (by omega), if_pos h1, hr]
  rfl

theorem instruction_indexed (n : ℕ) (rest : Bytes) :
    instruction (encodeInt n 7 0x80 ++ rest) = some (.field, rest) := by
  obtain ⟨x, xs, he, h1, h2, hr⟩ := encodeInt_eq n (show 0x80 % 2 ^ 7 = 0 from rfl) (by decide) rest
  rw [he]
  unfold instruction
  dsimp only
  rw [if_pos h1, hr]
  rfl

theorem instruction_literal {n : ℕ} {tail : Bytes}
    (h : (if n = 0 then (skipString tail).bind skipString else skipString tail) = some rest) :
    instruction (encodeInt n 4 0x00 ++ tail) = some (.field, rest) := by
  obtain ⟨x, xs, he, h1, h2, hr⟩ := encodeInt_eq n (show 0x00 % 2 ^ 4 = 0 from rfl) (by decide) tail
  rw [he]
  unfold instruction skipLiteral
  dsimp only
  rw [if_neg (by omega), if_neg (by omega), if_neg (by omega), hr]
  dsimp only
  rw [h]
  rfl

theorem instruction_encodeStatus (code : ℕ) (rest : Bytes) :
    instruction (encodeStatus code ++ rest) = some (.field, rest) := by
  unfold encodeStatus
  dsimp only
  split_ifs
  · exact instruction_indexed _ _
  · rw [List.append_assoc]
    refine instruction_literal ?_
    rw [if_neg (by decide)]
    exact skipString_encodeRawString _ _

theorem instruction_encodeHeader (name value rest : Bytes) :
    instruction (encodeHeader name value ++ rest) = some (.field, rest) := by
  unfold encodeHeader
  dsimp only
  split_ifs with hidx
  · rw [List.append_assoc]
    refine instruction_literal ?_
    rw [if_neg (by omega)]
    exact skipString_encodeRawString _ _
  · rw [List.append_assoc, List.append_assoc]
    refine instruction_literal ?_
    rw [if_pos rfl, skipString_encodeRawString]
    exact skipString_encodeRawString _ _

theorem FieldBytes.reads {a : Bytes} (h : FieldBytes a) (hr : Reads rest is) :
    ∃ k, Reads (a ++ rest) (List.replicate k .field ++ is) := by
  induction h generalizing rest is with
  | nil => exact ⟨0, hr⟩
  | status code => exact ⟨1, .cons (instruction_encodeStatus code rest) hr⟩
  | header name value => exact ⟨1, .cons (instruction_encodeHeader name value rest) hr⟩
  | @append a b ha hb iha ihb =>
    obtain ⟨k, hk⟩ := ihb hr
    obtain ⟨l, hl⟩ := iha hk
    refine ⟨l + k, ?_⟩
    rw [List.append_assoc, ← List.replicate_append_replicate, List.append_assoc]
    exact hl

end Reading

/-! ### What the client sees -/

/-- A complete header block, and how matters stood when it was written: the sizes set since the
block before, the last size set, and the size last signalled. -/
structure Report where
  sizes : List ℕ
  limit : ℕ
  signalled : ℕ
  block : Bytes

/-- The state of the client's side of the table.  Sizes above the server's `4096` count as it. -/
structure TableLog where
  limit : ℕ := 4096
  sizes : List ℕ := []
  signalled : ℕ := 4096
  part : Bytes := []
  reports : List Report := []

/-- The block under way has come to `block`, and perhaps to its end. -/
def TableLog.fragment (t : TableLog) (block : Bytes) (endHeaders : Bool) : TableLog :=
  if endHeaders then
    { t with
      sizes := []
      signalled := (sizeUpdates ((instructions block).getD [])).getLastD t.signalled
      part := []
      reports := t.reports ++ [⟨t.sizes, t.limit, t.signalled, block⟩] }
  else { t with part := block }

def TableLog.event (t : TableLog) : Event → TableLog
  | .tableSize n => { t with limit := min n 4096, sizes := t.sizes ++ [min n 4096] }
  | .sent (.headers _ frag _ endHeaders) => t.fragment frag endHeaders
  | .sent (.continuation _ frag endHeaders) => t.fragment (t.part ++ frag) endHeaders
  | _ => t

def tableLog (j : List Event) : TableLog := j.foldl TableLog.event {}

/-- The header blocks on record. -/
def reports (j : List Event) : List Report := (tableLog j).reports

/-- The block can be read; its size updates stand before its fields, none is above the client's
limit, and the last one is the limit. -/
def Report.WellFormed (r : Report) (is : List Instruction) : Prop :=
  instructions r.block = some is ∧
    (∃ k, is = (sizeUpdates is).map .resize ++ List.replicate k .field) ∧
    (∀ n ∈ sizeUpdates is, n ≤ r.limit) ∧ (∀ n ∈ (sizeUpdates is).getLast?, n = r.limit)

/-- If a size set since the block before is below the one last signalled, the block starts with an
update to the smallest of them or less, and ends its updates with the last of them. -/
def Report.Signals (r : Report) (is : List Instruction) : Prop :=
  (∃ m ∈ r.sizes, m < r.signalled) →
    (∃ n ∈ (sizeUpdates is).head?, ∀ m ∈ r.sizes, n ≤ m) ∧
      (sizeUpdates is).getLast? = r.sizes.getLast?

/-- The sizes set since the block before ended at their smallest. -/
def Report.Settled (r : Report) : Prop := ∀ m ∈ r.sizes, r.limit ≤ m

/-- Events that do not concern the table. -/
def Event.isUntabled : Event → Bool
  | .tableSize _ | .sent (.headers _ _ _ _) | .sent (.continuation _ _ _) => false
  | _ => true

theorem TableLog.event_untabled {e : Event} (h : e.isUntabled = true) (t : TableLog) :
    t.event e = t := by
  cases e with
  | sent f => cases f <;> first | rfl | cases h
  | _ => first | rfl | cases h

theorem tableLog_append (j evs : List Event) :
    tableLog (j ++ evs) = evs.foldl TableLog.event (tableLog j) := List.foldl_append

theorem tableLog_untabled {j evs : List Event} (h : ∀ e ∈ evs, e.isUntabled = true) :
    tableLog (j ++ evs) = tableLog j := by
  rw [tableLog_append]
  induction evs with
  | nil => rfl
  | cons e evs ih =>
    rw [List.foldl_cons, TableLog.event_untabled (h e List.mem_cons_self)]
    exact ih (fun e he => h e (List.mem_cons_of_mem _ he))

theorem foldl_continuations (sid : ℕ) (frag : Bytes) (frags : List Bytes) (t : TableLog) :
    ((continuations sid frags).map Event.sent).foldl TableLog.event (t.fragment frag frags.isEmpty) =
      t.fragment (frag ++ frags.flatten) true := by
  induction frags generalizing frag t with
  | nil =>
    rw [List.flatten_nil, List.append_nil]
    rfl
  | cons p frags ih =>
    rw [List.flatten_cons, ← List.append_assoc]
    exact ih (frag ++ p) { t with part := frag }

theorem foldl_headerFrames (m : MaxFrame) (sid : ℕ) (hb : Bytes) (es : Bool) (t : TableLog) :
    ((headerFrames m sid hb es).map Event.sent).foldl TableLog.event t = t.fragment hb true := by
  obtain ⟨frag, frags, -, -, rfl, he⟩ := headerFrames_fragments m sid es hb
  rw [he]
  exact foldl_continuations sid frag frags t

/-! ### The update that is owed -/

/-- The encoder's limit is the client's; an update that is owed says so, and none is owed only when
the limit was signalled. -/
structure Conn.Tabled (c : Conn) : Prop where
  limit : c.encTableMax = (tableLog c.journal).limit
  owed : ∀ n, c.pendingTableSizeUpdate = some n → n = c.encTableMax
  clear : c.pendingTableSizeUpdate = none → c.encTableMax = (tableLog c.journal).signalled
  last : ∀ n ∈ (tableLog c.journal).sizes.getLast?, n = (tableLog c.journal).limit
  reports : ∀ r ∈ reports c.journal, ∃ is, r.WellFormed is ∧ (r.Settled → r.Signals is)

/-- A step that leaves the table alone. -/
structure TablesStay (a b : Conn) : Prop where
  max : b.encTableMax = a.encTableMax
  pending : b.pendingTableSizeUpdate = a.pendingTableSizeUpdate
  journal : ∃ evs, b.journal = a.journal ++ evs ∧ ∀ e ∈ evs, e.isUntabled = true

section Tables

variable {a b c : Conn} {sid : ℕ}

theorem Conn.Tabled.stay (h : a.Tabled) (hs : TablesStay a b) : b.Tabled := by
  obtain ⟨evs, hj, he⟩ := hs.journal
  have hlog : tableLog b.journal = tableLog a.journal := by rw [hj, tableLog_untabled he]
  refine ⟨?_, fun n hn => ?_, fun hn => ?_, ?_, ?_⟩
  · rw [hs.max, hlog]
    exact h.limit
  · rw [hs.max]
    exact h.owed n (hs.pending ▸ hn)
  · rw [hs.max, hlog]
    exact h.clear (hs.pending ▸ hn)
  · rw [hlog]
    exact h.last
  · rw [Http2.reports, hlog]
    exact h.reports

theorem TablesStay.of_snoc {e : Event} (hm : b.encTableMax = a.encTableMax)
    (hp : b.pendingTableSizeUpdate = a.pendingTableSizeUpdate)
    (hj : b.journal = a.journal ++ [e]) (he : e.isUntabled = true) : TablesStay a b :=
  ⟨hm, hp, _, hj, fun _ h => List.mem_singleton.mp h ▸ he⟩

theorem TablesStay.of_same (hm : b.encTableMax = a.encTableMax)
    (hp : b.pendingTableSizeUpdate = a.pendingTableSizeUpdate) (hj : b.journal = a.journal) :
    TablesStay a b :=
  ⟨hm, hp, [], by rw [hj, List.append_nil], fun _ h => by cases h⟩

theorem TablesStay.of_ledger (hl : b.ledger = a.ledger) : TablesStay a b :=
  .of_same (congrArg Ledger.encTableMax hl) (congrArg Ledger.pendingTableSizeUpdate hl)
    (congrArg Ledger.journal hl)

theorem TablesStay.connError (c : Conn) (err : ErrCode) : TablesStay c (c.connError err) := by
  have hl := ledger_connError c err
  exact .of_snoc (congrArg Ledger.encTableMax hl) (congrArg Ledger.pendingTableSizeUpdate hl)
    (congrArg Ledger.journal hl) rfl

theorem isUntabled_of_isFree {e : Event} (h : e.isFree = true) : e.isUntabled = true := by
  cases e with
  | sent f => cases f <;> first | rfl | cases h
  | _ => first | rfl | cases h

theorem TablesStay.openStream (c : Conn) (sid : ℕ) : TablesStay c (c.openStream sid) := by
  obtain ⟨u, i, p, e⟩ := openStream_eq c sid
  rw [e]
  exact .of_snoc rfl rfl rfl rfl

theorem Conn.Tabled.block (h : c.Tabled) (sid : ℕ) {fields : Bytes} (es : Bool)
    (hf : FieldBytes fields) : (c.emitBlock sid fields es).Tabled := by
  have hlog : tableLog (c.emitBlock sid fields es).journal =
      (tableLog c.journal).fragment (c.tableSizeUpdate ++ fields) true := by
    change tableLog (c.journal ++ _) = _
    rw [tableLog_append, foldl_headerFrames]
  obtain ⟨k, hk⟩ := hf.reads .nil
  rw [List.append_nil, List.append_nil] at hk
  have hread : ∃ is, instructions (c.tableSizeUpdate ++ fields) = some is ∧
      is = (sizeUpdates is).map .resize ++ List.replicate k .field ∧
      sizeUpdates is = c.pendingTableSizeUpdate.toList := by
    have hnone : sizeUpdates (List.replicate k .field) = [] :=
      List.filterMap_replicate_of_none rfl
    unfold Conn.tableSizeUpdate
    cases hp : c.pendingTableSizeUpdate with
    | none =>
      refine ⟨_, hk.instructions, ?_, hnone⟩
      rw [hnone]
      rfl
    | some n =>
      have hs : sizeUpdates (.resize n :: List.replicate k .field) = [n] := by
        exact congrArg (n :: ·) hnone
      refine ⟨_, (Reads.cons (instruction_resize n fields) hk).instructions, ?_, hs⟩
      rw [hs]
      rfl
  obtain ⟨is, his, hshape, hupd⟩ := hread
  have hsig : (tableLog (c.emitBlock sid fields es).journal).signalled = c.encTableMax := by
    rw [hlog]
    change (sizeUpdates ((instructions (c.tableSizeUpdate ++ fields)).getD [])).getLastD
      (tableLog c.journal).signalled = _
    rw [his, Option.getD_some, hupd]
    cases hp : c.pendingTableSizeUpdate with
    | none => exact (h.clear hp).symm
    | some n => exact h.owed n hp
  refine ⟨?_, fun n hn => (by cases hn), fun _ => hsig.symm, ?_, fun r hr => ?_⟩
  · rw [hlog]
    exact h.limit
  · rw [hlog]
    intro n hn
    cases hn
  · rw [Http2.reports, hlog] at hr
    rcases List.mem_append.mp hr with hr | hr
    · exact h.reports r hr
    · obtain rfl := List.mem_singleton.mp hr
      have howed : ∀ n ∈ c.pendingTableSizeUpdate.toList, n = (tableLog c.journal).limit := by
        intro n hn
        rw [← h.limit]
        exact h.owed n (Option.mem_toList.mp hn)
      refine ⟨is, ⟨his, ⟨k, hshape⟩, fun n hn => ?_, fun n hn => ?_⟩, fun hset hlow => ?_⟩
      · exact (howed n (hupd ▸ hn)).le
      · exact howed n (hupd ▸ List.mem_of_getLast? hn)
      · obtain ⟨m, hm, hlt⟩ := hlow
        cases hp : c.pendingTableSizeUpdate with
        | none =>
          have h1 := hset m hm
          have h2 := h.clear hp
          rw [h.limit] at h2
          dsimp only at h1 hlt
          omega
        | some n =>
          rw [hp] at hupd howed
          have hn := howed n (by simp)
          rw [hupd]
          refine ⟨⟨n, rfl, fun m hm => hn ▸ hset m hm⟩, ?_⟩
          cases hl : (tableLog c.journal).sizes.getLast? with
          | none =>
            rw [List.getLast?_eq_none_iff.mp hl] at hm
            cases hm
          | some l =>
            rw [hn, ← h.last l hl]
            rfl

theorem Conn.Tabled.tableSize (h : c.Tabled) (value : ℕ) : (c.applyTableSize value).Tabled := by
  have hlog : tableLog (c.applyTableSize value).journal = { tableLog c.journal with
      limit := min value 4096
      sizes := (tableLog c.journal).sizes ++ [min value 4096] } := by
    have hj : (c.applyTableSize value).journal = c.journal ++ [.tableSize value] := by
      unfold Conn.applyTableSize
      dsimp only
      split_ifs <;> rfl
    rw [hj, tableLog_append]
    rfl
  have hlast : ∀ n ∈ ((tableLog c.journal).sizes ++ [min value 4096]).getLast?,
      n = min value 4096 := by
    intro n hn
    rw [List.getLast?_concat] at hn
    exact (Option.some.inj hn).symm
  have hreports : Http2.reports (c.applyTableSize value).journal = Http2.reports c.journal := by
    rw [Http2.reports, hlog]
    rfl
  by_cases hne : min value 4096 ≠ c.encTableMax
  · have hc : c.applyTableSize value = { c.note (.tableSize value) with
        encTableMax := min value 4096, pendingTableSizeUpdate := some (min value 4096) } :=
      if_pos hne
    refine ⟨?_, fun n hn => ?_, fun hn => ?_, ?_, ?_⟩
    · rw [hlog, hc]
    · rw [hc] at hn ⊢
      exact (Option.some.inj hn).symm
    · rw [hc] at hn
      cases hn
    · rw [hlog]
      exact hlast
    · rw [hreports]
      exact h.reports
  · have hc : c.applyTableSize value = c.note (.tableSize value) := if_neg hne
    have heq : min value 4096 = c.encTableMax := not_not.mp hne
    refine ⟨?_, fun n hn => ?_, fun hn => ?_, ?_, ?_⟩
    · rw [hlog, hc]
      exact heq.symm
    · rw [hc] at hn ⊢
      exact h.owed n hn
    · rw [hlog]
      rw [hc] at hn ⊢
      exact h.clear hn
    · rw [hlog]
      exact hlast
    · rw [hreports]
      exact h.reports

theorem Conn.Tabled.posting (h : Posting a b) (ha : a.Tabled) : b.Tabled := by
  have herror : ∀ (c : Conn) err, c.Tabled → (c.connError err).Tabled :=
    fun c err h => h.stay (.connError c err)
  cases h with
  | basic h =>
    cases h with
    | note he => exact ha.stay (.of_snoc rfl rfl rfl (isUntabled_of_isFree he))
    | block sid fields es hf => exact ha.block sid es hf
    | charge n => exact noteControlFrame_kept herror (ha.stay (.of_snoc rfl rfl rfl rfl))
    | error err => exact herror a err ha
    | countReset => exact countReset_kept herror (ha.stay (.of_same rfl rfl rfl))
    | @openNew sid h hodd hg hn =>
      have h1 : Conn.Tabled { a with lastStreamId := sid } := ha.stay (.of_same rfl rfl rfl)
      exact h1.stay (.openStream _ sid)
    | refuse h hn => exact ha.stay (.of_same rfl rfl rfl)
    | tableSize value => exact ha.tableSize value
    | _ => exact ha.stay (.of_snoc rfl rfl rfl rfl)
  | other hl hs => exact ha.stay (.of_ledger hl)
  | burst last h =>
    refine ha.stay ⟨rfl, rfl, _, rfl, fun e he => ?_⟩
    obtain ⟨f, hf, rfl⟩ := List.mem_map.mp he
    obtain ⟨x, -, rfl⟩ := List.mem_map.mp hf
    rfl
  | _ => exact ha.stay (.of_snoc rfl rfl rfl rfl)

end Tables

/-! ### Whole runs -/

theorem Reachable.tabled {W : World} {ok : Call → Conn → Prop} (hW : W.Obeys ok) {cfg : Config}
    {n : ℕ} {c : Conn} (h : Reachable (W.hooks n) ok cfg c) : c.Tabled := by
  refine h.accounts hW (I := Conn.Tabled) ?_ (fun _ _ he _ => he.kept fun _ _ => .posting)
    (fun _ _ _ _ _ _ ha => ha.stay (.of_snoc rfl rfl rfl rfl))
  refine ⟨rfl, fun n hn => (by cases hn), fun _ => rfl, fun n hn => (by cases hn),
    fun r hr => (by cases hr)⟩

/-- A client that sets these table sizes, one SETTINGS frame each, and then makes a request, which
is answered. -/
def resizedRun (sizes : List ℕ) : List Input :=
  feedInputs (sizes.map (fun n => .settings [(setHeaderTableSize, n)]) ++
    [.headers 1 postBlock true true]) ++ [.call (.respond 1 { code := 200 } [])]

end Vortex.Http2
