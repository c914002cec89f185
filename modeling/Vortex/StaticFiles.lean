import Vortex.Bytes

/-! # Paths of static files

`resolveTail` (`staticfiles.nim`) turns the wildcard tail of a request into a path below the served
directory.  `decodeUrl` of the standard library is a parameter, a refusal is `none`.  A `DirTree` is
a directory tree without symbolic links, where `..` leads back to the one directory a node is in;
`resolveTail_walk` compares the path with the walk over the segments in such a tree. -/

namespace Vortex.StaticFiles

theorem foldlM_concat_eq_some {α β : Type} {f : β → α → Option β} {b c : β} {l : List α} {a : α} :
    (l ++ [a]).foldlM f b = some c ↔ ∃ d, l.foldlM f b = some d ∧ f d a = some c := by
  rw [List.foldlM_append]
  cases l.foldlM f b <;> simp

/-- The byte between two segments. -/
def slash : UInt8 := 0x2f

/-- The segment for the directory itself. -/
def dot : Bytes := [0x2e]

/-- The segment for the directory above. -/
def dotdot : Bytes := [0x2e, 0x2e]

/-- One round of the loop over the segments. -/
def addSegment (parts : List Bytes) (seg : Bytes) : Option (List Bytes) :=
  if seg = [] ∨ seg = dot then some parts
  else if seg = dotdot then
    if parts = [] then none else some parts.dropLast
  else some (parts ++ [seg])

/-- The path of a wildcard tail. -/
def resolveTail (decodeUrl : Bytes → Option Bytes) (raw : Bytes) : Option Bytes := do
  let dec ← decodeUrl raw
  if 0 ∈ dec then none
  else
    let parts ← (dec.splitOn slash).foldlM addSegment []
    some ([slash].intercalate parts)

/-- A segment that names an entry of a directory. -/
def Ordinary (seg : Bytes) : Prop := seg ≠ [] ∧ seg ≠ dot ∧ seg ≠ dotdot

instance : DecidablePred Ordinary := fun _ => inferInstanceAs (Decidable (_ ∧ _))

/-- A directory tree without symbolic links. -/
structure DirTree (N : Type) where
  root : N
  /-- The entry of a directory under a name. -/
  entry : N → Bytes → Option N
  /-- The directory a node is in. -/
  parent : N → Option N
  parent_entry : ∀ {n m : N} {name : Bytes}, entry n name = some m → parent m = some n

namespace DirTree

variable {N : Type} (t : DirTree N)

/-- One step of a walk. -/
def step (n : N) (seg : Bytes) : Option N :=
  if seg = [] ∨ seg = dot then some n
  else if seg = dotdot then t.parent n
  else t.entry n seg

/-- The node a sequence of segments leads to from the root. -/
def walk (segs : List Bytes) : Option N := segs.foldlM t.step t.root

theorem step_ordinary {seg : Bytes} (h : Ordinary seg) (n : N) : t.step n seg = t.entry n seg := by
  unfold step
  rw [if_neg (by rintro (e | e); exacts [h.1 e, h.2.1 e]), if_neg h.2.2]

end DirTree

theorem addSegment_cases (parts : List Bytes) (seg : Bytes) :
    ((seg = [] ∨ seg = dot) ∧ addSegment parts seg = some parts) ∨
    (seg = dotdot ∧ parts = [] ∧ addSegment parts seg = none) ∨
    (seg = dotdot ∧ ∃ init last, parts = init ++ [last] ∧ addSegment parts seg = some init) ∨
    (Ordinary seg ∧ addSegment parts seg = some (parts ++ [seg])) := by
  unfold addSegment Ordinary
  split_ifs with h₁ h₂ h₃
  · exact .inl ⟨h₁, rfl⟩
  · exact .inr (.inl ⟨h₂, h₃, rfl⟩)
  · exact .inr (.inr (.inl ⟨h₂, _, _, (List.dropLast_append_getLast h₃).symm, rfl⟩))
  · rw [not_or] at h₁
    exact .inr (.inr (.inr ⟨⟨h₁.1, h₁.2, h₂⟩, rfl⟩))

theorem foldlM_addSegment_eq_none (segs : List Bytes) : ∀ parts : List Bytes,
    segs.foldlM addSegment parts = none ↔
      ∃ pre, pre <+: segs ∧ parts.length + pre.countP (Ordinary ·) < pre.count dotdot := by
  induction segs with
  | nil => simp
  | cons seg segs ih =>
    intro parts
    have hpre : (∃ pre, pre <+: seg :: segs ∧
        parts.length + pre.countP (Ordinary ·) < pre.count dotdot) ↔
        ∃ pre, pre <+: segs ∧
          parts.length + (seg :: pre).countP (Ordinary ·) < (seg :: pre).count dotdot := by
      constructor
      · rintro ⟨pre, hp, h⟩
        obtain rfl | ⟨pre, rfl, hp'⟩ := List.prefix_cons_iff.1 hp
        · simp at h
        · exact ⟨pre, hp', h⟩
      · rintro ⟨pre, hp, h⟩
        exact ⟨seg :: pre, List.cons_prefix_cons.2 ⟨rfl, hp⟩, h⟩
    simp only [hpre, List.foldlM_cons, List.countP_cons, List.count_cons, decide_eq_true_eq,
      beq_iff_eq]
    obtain ⟨h, e⟩ | ⟨rfl, rfl, e⟩ | ⟨rfl, init, last, rfl, e⟩ | ⟨h, e⟩ :=
      addSegment_cases parts seg <;> rw [e]
    · have ho : ¬ Ordinary seg := by
        rintro ⟨h₁, h₂, -⟩
        exact h.elim h₁ h₂
      have hd : seg ≠ dotdot := by
        rintro rfl
        exact absurd h (by decide)
      simpa [ho, hd] using ih parts
    · simp only [Option.bind_eq_bind, Option.bind_none, true_iff]
      exact ⟨[], List.nil_prefix, by decide⟩
    · have ho : ¬ Ordinary dotdot := fun h => h.2.2 rfl
      simp only [Option.bind_eq_bind, Option.bind_some, ih, ho, if_false, if_true, List.length_append,
        List.length_singleton]
      constructor
      all_goals
        rintro ⟨pre, hp, h⟩
        exact ⟨pre, hp, by omega⟩
    · simp only [Option.bind_eq_bind, Option.bind_some, ih, h, h.2.2, if_false, if_true,
        List.length_append, List.length_singleton]
      constructor
      all_goals
        rintro ⟨pre, hp, h⟩
        exact ⟨pre, hp, by omega⟩

theorem mem_of_foldlM {segs parts : List Bytes} (h : segs.foldlM addSegment [] = some parts) :
    ∀ p ∈ parts, Ordinary p ∧ p ∈ segs := by
  induction segs using List.reverseRecOn generalizing parts with
  | nil =>
    cases h
    simp
  | append_singleton segs seg ih =>
    obtain ⟨kept, hk, hs⟩ := foldlM_concat_eq_some.1 h
    intro p hp
    rw [List.mem_append, List.mem_singleton]
    obtain ⟨-, e⟩ | ⟨-, -, e⟩ | ⟨-, init, last, rfl, e⟩ | ⟨ho, e⟩ := addSegment_cases kept seg <;>
      cases e.symm.trans hs
    · exact (ih hk p hp).imp_right .inl
    · exact (ih hk p (List.mem_append_left _ hp)).imp_right .inl
    · obtain hp | hp := List.mem_append.1 hp
      · exact (ih hk p hp).imp_right .inl
      · obtain rfl := List.mem_singleton.1 hp
        exact ⟨ho, .inr rfl⟩

theorem walk_of_foldlM {N : Type} (t : DirTree N) {segs parts : List Bytes} {n : N}
    (h : segs.foldlM addSegment [] = some parts) (hn : t.walk segs = some n) :
    t.walk parts = some n := by
  induction segs using List.reverseRecOn generalizing parts n with
  | nil =>
    cases h
    exact hn
  | append_singleton segs seg ih =>
    obtain ⟨kept, hk, hs⟩ := foldlM_concat_eq_some.1 h
    obtain ⟨m, hm, hstep⟩ := foldlM_concat_eq_some.1 hn
    have hw := ih hk hm
    obtain ⟨he, e⟩ | ⟨-, -, e⟩ | ⟨rfl, init, last, rfl, e⟩ | ⟨ho, e⟩ := addSegment_cases kept seg <;>
      cases e.symm.trans hs
    · unfold DirTree.step at hstep
      rw [if_pos he] at hstep
      cases hstep
      exact hw
    · obtain ⟨d, hd, hl⟩ := foldlM_concat_eq_some.1 hw
      have ho := (mem_of_foldlM hk last (by simp)).1
      rw [t.step_ordinary ho] at hl
      have hp : t.step m dotdot = t.parent m := rfl
      rw [hp, t.parent_entry hl] at hstep
      cases hstep
      exact hd
    · exact foldlM_concat_eq_some.2 ⟨m, hw, hstep⟩

theorem mem_splitOn {x : UInt8} {l : Bytes} : ∀ seg ∈ l.splitOn x, x ∉ seg ∧ ∀ b ∈ seg, b ∈ l := by
  induction l with
  | nil => simp
  | cons a l ih =>
    rw [List.splitOn_cons_eq_if_modifyHead]
    split_ifs with h
    · intro seg hs
      rcases List.mem_cons.1 hs with rfl | hs
      · simp
      · exact (ih seg hs).imp_right fun hb b h => .tail _ (hb b h)
    · intro seg hs
      obtain ⟨p, ps, e⟩ := List.exists_cons_of_ne_nil (List.splitOn_ne_nil x l)
      rw [e] at ih hs
      rcases List.mem_cons.1 hs with rfl | hs
      · have hp := ih p (.head _)
        constructor
        · rw [List.mem_cons, not_or]
          exact ⟨fun hx => h (by simp [hx]), hp.1⟩
        · intro b hb
          exact (List.mem_cons.1 hb).elim (· ▸ .head _) fun hb => .tail _ (hp.2 b hb)
      · exact (ih seg (.tail _ hs)).imp_right fun hb b h => .tail _ (hb b h)

theorem resolveTail_eq_some {decodeUrl : Bytes → Option Bytes} {raw path : Bytes} :
    resolveTail decodeUrl raw = some path ↔ ∃ dec parts, decodeUrl raw = some dec ∧ 0 ∉ dec ∧
      (dec.splitOn slash).foldlM addSegment [] = some parts ∧ [slash].intercalate parts = path := by
  unfold resolveTail
  cases decodeUrl raw with
  | none => simp
  | some dec => by_cases h : 0 ∈ dec <;> simp [h, Option.bind_eq_some_iff]

/-- **What `resolveTail` returns and when it refuses.**  The path is that of the served directory
itself or has ordinary segments without NUL only, and in every directory tree it leads to the node
at which the walk over the decoded segments arrives. -/
theorem resolveTail_walk (decodeUrl : Bytes → Option Bytes) (raw : Bytes) :
    (∀ path, resolveTail decodeUrl raw = some path →
      path = [] ∨ ∀ seg ∈ path.splitOn slash, Ordinary seg ∧ 0 ∉ seg) ∧
    (resolveTail decodeUrl raw = none ↔ ∀ dec, decodeUrl raw = some dec →
      0 ∈ dec ∨ ∃ pre, pre <+: dec.splitOn slash ∧ pre.countP (Ordinary ·) < pre.count dotdot) ∧
    ∀ (dec path : Bytes) (N : Type) (t : DirTree N) (n : N), decodeUrl raw = some dec →
      resolveTail decodeUrl raw = some path → t.walk (dec.splitOn slash) = some n →
        t.walk (path.splitOn slash) = some n := by
  have hsplit : ∀ {dec : Bytes} {parts : List Bytes}, (dec.splitOn slash).foldlM addSegment [] =
      some parts → parts ≠ [] → ([slash].intercalate parts).splitOn slash = parts := by
    intro dec parts hf hne
    apply List.splitOn_intercalate
    · intro p hp
      exact (mem_splitOn p (mem_of_foldlM hf p hp).2).1
    · exact hne
  refine ⟨?_, ?_, ?_⟩
  · intro path h
    obtain ⟨dec, parts, -, h0, hf, rfl⟩ := resolveTail_eq_some.1 h
    by_cases hne : parts = []
    · exact .inl (by rw [hne]; rfl)
    · refine .inr fun seg hs => ?_
      rw [hsplit hf hne] at hs
      obtain ⟨ho, hm⟩ := mem_of_foldlM hf seg hs
      exact ⟨ho, fun hz => h0 ((mem_splitOn seg hm).2 0 hz)⟩
  · unfold resolveTail
    cases decodeUrl raw with
    | none => simp
    | some dec =>
      have hnone := foldlM_addSegment_eq_none (dec.splitOn slash) []
      rw [Option.eq_none_iff_forall_ne_some] at hnone
      by_cases h : 0 ∈ dec
      · simp [h]
      · simpa [h] using hnone
  · intro dec path N t n hd h hn
    obtain ⟨dec', parts, hd', -, hf, rfl⟩ := resolveTail_eq_some.1 h
    cases hd.symm.trans hd'
    have hw := walk_of_foldlM t hf hn
    by_cases hne : parts = []
    · rw [hne] at hw ⊢
      exact hw
    · rwa [hsplit hf hne]

/-- A directory with the one file `b`. -/
def oneFile : DirTree Bool where
  root := false
  entry n name := if n = false ∧ name = ascii "b" then some true else none
  parent n := if n then some false else none
  parent_entry h := by
    split_ifs at h with hn
    cases h
    simp [hn.1]

/-- The walk over `a/../b` needs a directory `a`, the path `b` does not; and the empty path splits
into one empty segment. -/
theorem resolveTail_missing_directory : resolveTail some (ascii "a/../b") = some (ascii "b") ∧
    oneFile.walk ((ascii "a/../b").splitOn slash) = none ∧
    oneFile.walk ((ascii "b").splitOn slash) = some true ∧
    resolveTail some [] = some [] ∧ ([] : Bytes).splitOn slash = [[]] := by
  decide

end Vortex.StaticFiles
