import Mathlib.Data.Nat.Digits.Lemmas
import Mathlib.Tactic.Common

/-! # Lines and numerals

The two ways in which a text protocol delimits what it writes.  A block of lines ends at its first
empty line (`readLines`); it can be read back if no line is empty or holds a byte of a line end
(`readLines_unlines`), whatever follows it.  A numeral is written with one symbol per digit
(`numeral`), and read back from the values of its symbols (`value_numeral`).

The alphabet is arbitrary.  The reader takes a bare line feed for a line end as well, and drops a
carriage return before it. -/

namespace Vortex.Text

/-! ### Lines -/

section lines

variable {α : Type*} (cr lf : α)

/-- The lines, each with its end. -/
def unlines (ls : List (List α)) : List α := ls.flatMap (· ++ [cr, lf])

/-- Without line ends. -/
def Clean (line : List α) : Prop := cr ∉ line ∧ lf ∉ line

variable {cr lf}

theorem Clean.append {x y : List α} (hx : Clean cr lf x) (hy : Clean cr lf y) :
    Clean cr lf (x ++ y) :=
  ⟨fun h => (List.mem_append.mp h).elim hx.1 hy.1, fun h => (List.mem_append.mp h).elim hx.2 hy.2⟩

theorem Clean.of_forall {line : List α} (h : ∀ b ∈ line, b ≠ cr ∧ b ≠ lf) : Clean cr lf line :=
  ⟨fun hm => (h cr hm).1 rfl, fun hm => (h lf hm).2 rfl⟩

variable [DecidableEq α] (cr lf)

instance (line : List α) : Decidable (Clean cr lf line) := inferInstanceAs (Decidable (_ ∧ _))

/-- A line without the carriage return in front of its line feed. -/
def chomp (line : List α) : List α := if line.getLast? = some cr then line.dropLast else line

/-- The rest of a line, of which `line` was read already, and what follows it. -/
def readLine (line : List α) : List α → Option (List α × List α)
  | [] => none
  | b :: rest => if b = lf then some (chomp cr line, rest) else readLine (line ++ [b]) rest

/-- The lines up to the first empty one, and what follows that. -/
def readLines (line : List α) : List α → Option (List (List α) × List α)
  | [] => none
  | b :: rest =>
      if b = lf then
        if chomp cr line = [] then some ([], rest)
        else (readLines [] rest).map fun r => (chomp cr line :: r.1, r.2)
      else readLines (line ++ [b]) rest

variable {cr lf}

theorem chomp_append_cr (line : List α) : chomp cr (line ++ [cr]) = line := by
  simp [chomp]

theorem readLine_append {x : List α} (hx : lf ∉ x) (line rest : List α) :
    readLine cr lf line (x ++ rest) = readLine cr lf (line ++ x) rest := by
  induction x generalizing line with
  | nil => simp
  | cons b x ih =>
    obtain ⟨hb, hx⟩ := not_or.mp (mt List.mem_cons.mpr hx)
    rw [List.cons_append, readLine, if_neg (Ne.symm hb), ih hx, List.append_assoc,
      List.singleton_append]

theorem readLines_append {x : List α} (hx : lf ∉ x) (line rest : List α) :
    readLines cr lf line (x ++ rest) = readLines cr lf (line ++ x) rest := by
  induction x generalizing line with
  | nil => simp
  | cons b x ih =>
    obtain ⟨hb, hx⟩ := not_or.mp (mt List.mem_cons.mpr hx)
    rw [List.cons_append, readLines, if_neg (Ne.symm hb), ih hx, List.append_assoc,
      List.singleton_append]

theorem length_readLine {line bs l rest : List α} (h : readLine cr lf line bs = some (l, rest)) :
    rest.length < bs.length := by
  induction bs generalizing line with
  | nil => cases h
  | cons b bs ih =>
    rw [readLine] at h
    split_ifs at h
    · obtain ⟨-, rfl⟩ := Prod.mk.inj (Option.some.inj h)
      exact Nat.lt_succ_self _
    · exact (ih h).trans (Nat.lt_succ_self _)

theorem readLine_line (hne : cr ≠ lf) {x : List α} (hx : Clean cr lf x) (rest : List α) :
    readLine cr lf [] (x ++ [cr, lf] ++ rest) = some (x, rest) := by
  rw [List.append_assoc, readLine_append hx.2, List.nil_append, List.cons_append, readLine,
    if_neg hne, List.cons_append, readLine, if_pos rfl, chomp_append_cr, List.nil_append]

theorem readLines_nil (hne : cr ≠ lf) (rest : List α) :
    readLines cr lf [] ([cr, lf] ++ rest) = some ([], rest) := by
  rw [List.cons_append, readLines, if_neg hne, List.cons_append, readLines, if_pos rfl,
    chomp_append_cr, if_pos rfl, List.nil_append]

theorem readLines_cons (hne : cr ≠ lf) {x : List α} (hx : Clean cr lf x) (hpos : x ≠ [])
    (rest : List α) :
    readLines cr lf [] (x ++ [cr, lf] ++ rest) =
      (readLines cr lf [] rest).map fun r => (x :: r.1, r.2) := by
  rw [List.append_assoc, readLines_append hx.2, List.nil_append, List.cons_append, readLines,
    if_neg hne, List.cons_append, readLines, if_pos rfl, chomp_append_cr, if_neg hpos,
    List.nil_append]

/-- **A block of lines is read back**, whatever follows it. -/
theorem readLines_unlines (hne : cr ≠ lf) {ls : List (List α)}
    (h : ∀ l ∈ ls, Clean cr lf l ∧ l ≠ []) (rest : List α) :
    readLines cr lf [] (unlines cr lf ls ++ ([cr, lf] ++ rest)) = some (ls, rest) := by
  induction ls with
  | nil => exact readLines_nil hne rest
  | cons l ls ih =>
    obtain ⟨hclean, hpos⟩ := h l List.mem_cons_self
    have ih := ih fun x hx => h x (List.mem_cons_of_mem l hx)
    rw [unlines, List.flatMap_cons, List.append_assoc, readLines_cons hne hclean hpos]
    rw [unlines] at ih
    rw [ih]
    rfl

end lines

/-! ### Numerals -/

section numerals

variable {α : Type*} (base : ℕ) (symbol : ℕ → α) (digit : α → Option ℕ)

/-- The digits of `n`, the most significant first; `0` has one digit. -/
def numeral (n : ℕ) : List α :=
  if n = 0 then [symbol 0] else ((Nat.digits base n).map symbol).reverse

/-- The value of a numeral; there must be a digit. -/
def value (s : List α) : Option ℕ :=
  if s = [] then none
  else s.foldl (fun v b => do return (← v) * base + (← digit b)) (some 0)

variable {base symbol digit}

theorem foldl_reverse_map (hd : ∀ d < base, digit (symbol d) = some d) {ds : List ℕ}
    (hds : ∀ d ∈ ds, d < base) :
    (ds.map symbol).reverse.foldl (fun v b => do return (← v) * base + (← digit b)) (some 0) =
      some (Nat.ofDigits base ds) := by
  induction ds with
  | nil => rfl
  | cons d ds ih =>
    rw [List.map_cons, List.reverse_cons, List.foldl_append,
      ih fun x hx => hds x (List.mem_cons_of_mem d hx)]
    simp only [List.foldl_cons, List.foldl_nil, hd d (hds d List.mem_cons_self)]
    change some _ = _
    rw [Nat.ofDigits_cons, Nat.mul_comm, Nat.add_comm]

/-- **A numeral is read back.** -/
theorem value_numeral (hbase : 1 < base) (hd : ∀ d < base, digit (symbol d) = some d) (n : ℕ) :
    value base digit (numeral base symbol n) = some n := by
  unfold numeral
  by_cases hn : n = 0
  · simp [hn, value, hd 0 (by omega)]
  · have hne : Nat.digits base n ≠ [] := Nat.digits_ne_nil_iff_ne_zero.mpr hn
    rw [if_neg hn, value, if_neg (by simpa using hne),
      foldl_reverse_map hd fun d hm => Nat.digits_lt_base hbase hm, Nat.ofDigits_digits]

theorem mem_numeral (hbase : 1 < base) {n : ℕ} {b : α} (h : b ∈ numeral base symbol n) :
    ∃ d < base, b = symbol d := by
  unfold numeral at h
  split_ifs at h
  · exact ⟨0, by omega, List.mem_singleton.mp h⟩
  · obtain ⟨d, hd, rfl⟩ := List.mem_map.mp (List.mem_reverse.mp h)
    exact ⟨d, Nat.digits_lt_base hbase hd, rfl⟩

end numerals

end Vortex.Text
