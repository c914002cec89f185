import Vortex.Http1.Framing

/-! # Transfer codings

`Transfer-Encoding` lists the codings applied to a body, and a request body is framed as chunked
when `chunked` is the last of them and only the last.  `processHeader` reads the name of every
element, up to the first blank or semicolon, and skips what is left of it up to the next comma
(`codingLoop_eq`), so it takes `chunked;a` and `chunked b` for `chunked`.

`FramesChunked` is the list grammar of RFC 9112, in which a comma may be quoted.  The `Plain` values
are those of which the code decides as the grammar does (`plain_iff`), and `Coded` carries that over
the lines of a head. -/

namespace Vortex.Http1

open Vortex.FieldRules

/-! ### The grammar -/

def dquote : UInt8 := 0x22
def backslash : UInt8 := 0x5c
def equals : UInt8 := 0x3d

def isToken (b : Bytes) : Bool := !b.isEmpty && b.all (!badNameByte ·)

/-- What may stand between the quotes of a quoted string. -/
def quotedText : Bytes → Bool
  | [] => true
  | b :: rest =>
      if b = backslash then
        match rest with
        | [] => false
        | c :: rest => !badValueByte c && quotedText rest
      else b != dquote && !badValueByte b && quotedText rest

/-- `*( OWS ";" OWS token BWS "=" BWS ( token / quoted-string ) )` -/
inductive Parameters : Bytes → Prop
  | nil : Parameters []
  | cons {w₁ w₂ w₃ w₄ name value rest : Bytes} (hw : (w₁ ++ w₂ ++ w₃ ++ w₄).all isOws = true)
      (hname : isToken name = true) (hvalue : isToken value = true ∨
        ∃ t, value = dquote :: t ++ [dquote] ∧ quotedText t = true) (hrest : Parameters rest) :
      Parameters (w₁ ++ semicolon :: (w₂ ++ name ++ w₃ ++ equals :: (w₄ ++ value ++ rest)))

/-- A transfer coding, with the blanks behind it. -/
def TransferCoding (e : Bytes) : Prop :=
  ∃ name params blank, e = name ++ (params ++ blank) ∧ isToken name = true ∧ Parameters params ∧
    blank.all isOws = true

def codingName (e : Bytes) : Bytes := e.takeWhile (fun b => !(isOws b || b == semicolon))

def isChunked (e : Bytes) : Bool := eqIgnoreAsciiCase (codingName e) (ascii "chunked")

/-- Nothing but blanks follows the name. -/
def isBare (e : Bytes) : Bool := (e.drop (codingName e).length).all isOws

/-- The elements of a list that are not empty, without the blanks before them. -/
def elements (pieces : List Bytes) : List Bytes :=
  (pieces.map (·.dropWhile isOws)).filter (!·.isEmpty)

/-- The elements as the code cuts them, at every comma. -/
def cut (v : Bytes) : List Bytes := elements (v.splitOn comma)

/-- A list of transfer codings. -/
def Listed (v : Bytes) : Prop :=
  ∃ pieces, v = [comma].intercalate pieces ∧ ∀ e ∈ elements pieces, TransferCoding e

/-- The value is a list of transfer codings that ends with `chunked` and has no other
`chunked`. -/
def FramesChunked (v : Bytes) : Prop :=
  ∃ pieces, v = [comma].intercalate pieces ∧ (∀ e ∈ elements pieces, TransferCoding e) ∧
    ∃ init last, elements pieces = init ++ [last] ∧
      (isChunked last = true ∧ isBare last = true) ∧ ∀ e ∈ init, isChunked e = false

/-- If only the last element is named `chunked`, then it has no parameters and the others follow
the grammar; and a value that frames the body has no quoted comma with a `chunked` behind it. -/
structure Plain (v : Bytes) : Prop where
  listed : ∀ init last, cut v = init ++ [last] → isChunked last = true →
    (∀ e ∈ init, isChunked e = false) → isBare last = true ∧ Listed v
  unquoted : FramesChunked v → ∀ e ∈ (cut v).dropLast, isChunked e = false

/-! ### The walk over a value -/

variable {e t v : Bytes}

theorem elements_append (ps qs : List Bytes) :
    elements (ps ++ qs) = elements ps ++ elements qs := by
  simp [elements]

theorem cut_append (a b : Bytes) : cut (a ++ comma :: b) = cut a ++ cut b := by
  rw [cut, List.splitOn_append_cons_self, elements_append, cut, cut]

theorem cut_of_notMem (h : comma ∉ v) : cut v = elements [v] := by
  rw [cut, List.splitOn_eq_singleton h]

theorem exists_piece (v : Bytes) : ∃ e t, v = e ++ t ∧ comma ∉ e ∧
    cut v = elements [e] ++ cut t ∧ (t = [] ∨ ∃ rest, t = comma :: rest ∧ cut t = cut rest) := by
  by_cases hm : comma ∈ v
  · obtain ⟨e, rest, rfl, he⟩ := List.eq_append_cons_of_mem hm
    have ht : cut (comma :: rest) = cut rest := cut_append [] rest
    exact ⟨e, _, rfl, he, by rw [cut_append, cut_of_notMem he, ht], .inr ⟨rest, rfl, ht⟩⟩
  · exact ⟨v, [], (List.append_nil v).symm, hm, (cut_of_notMem hm).trans (List.append_nil _).symm,
      .inl rfl⟩

theorem dropWhile_piece (he : comma ∉ e) :
    e.dropWhile (fun b => isOws b || b == comma) = e.dropWhile isOws := by
  induction e with
  | nil => rfl
  | cons b e ih =>
    rw [List.mem_cons, not_or] at he
    have hb : (b == comma) = false := beq_false_of_ne (Ne.symm he.1)
    simp only [List.dropWhile_cons, hb, Bool.or_false, ih he.2]

theorem takeWhile_piece (he : comma ∉ e) (ht : t = [] ∨ ∃ rest, t = comma :: rest) :
    (e ++ t).takeWhile (fun b => !(isOws b || b == comma || b == semicolon)) = codingName e := by
  unfold codingName
  induction e with
  | nil =>
    obtain rfl | ⟨rest, rfl⟩ := ht
    · rfl
    · rfl
  | cons b e ih =>
    rw [List.mem_cons, not_or] at he
    have hb : (b == comma) = false := beq_false_of_ne (Ne.symm he.1)
    simp only [List.cons_append, List.takeWhile_cons, hb, Bool.or_false, ih he.2]

theorem codingLoop_eq (n : ℕ) (v : Bytes) (s : CodingList) (hn : v.length ≤ n) :
    codingLoop n v s = ((cut v).map codingName).foldl .add s := by
  induction hl : v.length using Nat.strong_induction_on generalizing n v s with
  | _ l ih =>
    subst hl
    obtain ⟨e, t, rfl, he, hel, ht⟩ := exists_piece v
    rw [hel, List.map_append, List.foldl_append]
    cases n with
    | zero =>
      obtain ⟨rfl, rfl⟩ :=
        List.append_eq_nil_iff.mp (List.length_eq_zero_iff.mp (Nat.le_zero.mp hn))
      rfl
    | succ n =>
      unfold codingLoop
      rw [List.dropWhile_append, dropWhile_piece he]
      cases hx : e.dropWhile isOws with
      | nil =>
        have h0 : elements [e] = [] := by simp [elements, hx]
        rw [h0]
        obtain rfl | ⟨rest, rfl, hr⟩ := ht
        · rfl
        · rw [hr]
          have := ih rest.length (by simp; omega) (n + 1) rest s (by simp at hn; omega) rfl
          exact this
      | cons b x =>
        have h1 : elements [e] = [b :: x] := by simp [elements, hx]
        have hc : comma ∉ b :: x := fun h => he ((List.dropWhile_suffix _).subset (hx ▸ h))
        have hlen : (b :: x).length ≤ e.length := hx ▸ (List.dropWhile_suffix _).length_le
        have htail : ((b :: x ++ t).drop (codingName (b :: x)).length).dropWhile (· != comma) =
            t := by
          have hle : (codingName (b :: x)).length ≤ (b :: x).length :=
            (List.takeWhile_prefix _).length_le
          rw [List.drop_append_of_le_length hle, List.dropWhile_append_of_pos fun c h => ?_]
          · obtain rfl | ⟨rest, rfl, _⟩ := ht
            · rfl
            · rfl
          · exact bne_iff_ne.mpr fun hcc => hc (hcc ▸ List.mem_of_mem_drop h)
        rw [h1]
        simp only [List.isEmpty_cons, Bool.false_eq_true, if_false, List.cons_append]
        rw [← List.cons_append, takeWhile_piece hc (ht.imp_right fun ⟨r, h, _⟩ => ⟨r, h⟩), htail]
        simp only [List.length_append, List.length_cons] at hn hlen
        exact ih t.length (by simp; omega) n t _ (by omega) rfl

theorem foldl_add (ns : List Bytes) : ns.foldl CodingList.add {} =
    let c := fun n => eqIgnoreAsciiCase n (ascii "chunked")
    ⟨ns.length, ns.getLast?.any c, ns.getLast?.any c, ns.dropLast.any c⟩ := by
  induction ns using List.reverseRecOn with
  | nil => rfl
  | append_singleton ns n ih =>
    rw [List.foldl_concat, ih]
    have h : ∀ c : Bytes → Bool, (ns.dropLast.any c || ns.getLast?.any c) = ns.any c := by
      intro c
      rcases List.eq_nil_or_concat ns with rfl | ⟨m, k, rfl⟩
      · rfl
      · simp
    simp [CodingList.add, h]

/-- `processHeader` accepts the value. -/
def Accepts (v : Bytes) : Prop :=
  ¬ ((transferCodings v).codings = 0 ∨ (transferCodings v).chunkedNonFinal = true) ∧
    (transferCodings v).lastChunked = true

theorem accepts_iff_cut (v : Bytes) : Accepts v ↔ ∃ init last,
    cut v = init ++ [last] ∧ isChunked last = true ∧ ∀ e ∈ init, isChunked e = false := by
  unfold Accepts transferCodings
  rw [codingLoop_eq _ _ _ le_rfl, foldl_add]
  rcases List.eq_nil_or_concat' (cut v) with h | ⟨m, k, h⟩
  · simp [h]
  · rw [h]
    constructor
    · intro ha
      refine ⟨m, k, rfl, ?_⟩
      simpa [isChunked, and_comm] using ha
    · rintro ⟨init, last, heq, ha⟩
      obtain ⟨rfl, hk⟩ := List.append_inj' heq rfl
      cases hk
      simpa [isChunked, and_comm] using ha

/-! ### The walk and the grammar -/

theorem cut_intercalate (ps : List Bytes) : cut ([comma].intercalate ps) = ps.flatMap cut := by
  induction ps with
  | nil => rfl
  | cons p ps ih =>
    cases ps with
    | nil => simp
    | cons q qs =>
      rw [List.intercalate_cons_cons, List.append_assoc, List.singleton_append, cut_append, ih]
      rfl

theorem mem_bare {b : UInt8} (hc : isChunked e = true) (hb : isBare e = true) (h : b ∈ e) :
    toLowerA b ∈ ascii "chunked" ∨ isOws b = true := by
  have hsplit : codingName e ++ e.drop (codingName e).length = e :=
    List.prefix_iff_eq_append.mp (List.takeWhile_prefix _)
  rw [← hsplit, List.mem_append] at h
  refine h.imp (fun h => ?_) (List.all_eq_true.mp hb b)
  rw [← beq_iff_eq.mp hc]
  exact List.mem_map_of_mem h

/-- A quote closes behind every comma. -/
def Closes (e : Bytes) : Prop := ∀ a b, e = a ++ comma :: b → dquote ∈ b

theorem Closes.of_notMem (h : comma ∉ e) : Closes e := fun a b he => absurd (by simp [he]) h

theorem Closes.append (he : Closes e) (ht : Closes t) : Closes (e ++ t) := by
  intro a b h
  rcases List.append_eq_append_iff.mp h with ⟨c, -, hc⟩ | ⟨c, hc, hb⟩
  · exact ht c b hc
  · cases c with
    | nil => exact ht [] b hb.symm
    | cons x c =>
      obtain ⟨rfl, rfl⟩ : comma = x ∧ b = c ++ t := List.cons.inj hb
      exact List.mem_append_left _ (he a c hc)

theorem comma_notMem {q : UInt8 → Bool} (h : e.all q = true) (hq : q comma = false) : comma ∉ e :=
  fun hm => Bool.false_ne_true (hq.symm.trans (List.all_eq_true.mp h _ hm))

theorem isToken_notMem (h : isToken e = true) : comma ∉ e :=
  comma_notMem (Bool.and_eq_true_iff.mp h).2 (by decide)

theorem Parameters.closes (h : Parameters e) : Closes e := by
  induction h with
  | nil => exact .of_notMem (by simp)
  | cons hw hname hvalue _ ih =>
    have hw := comma_notMem hw (by decide)
    simp only [List.mem_append, not_or] at hw
    refine .append (.of_notMem hw.1.1.1) (.append (e := [semicolon]) (.of_notMem (by decide)) ?_)
    refine .append (.of_notMem ?_) (.append (e := [equals]) (.of_notMem (by decide))
      (.append (.append (.of_notMem hw.2) ?_) ih))
    · simp [hw.1.1.2, hw.1.2, isToken_notMem hname]
    · rcases hvalue with hvalue | ⟨t, rfl, -⟩
      · exact .of_notMem (isToken_notMem hvalue)
      · intro a b h
        rcases List.eq_nil_or_concat b with rfl | ⟨b, x, rfl⟩
        · exact absurd (List.append_inj' h rfl).2 (by decide)
        · rw [List.concat_eq_append, ← List.cons_append, ← List.append_assoc] at h
          simp [← (List.append_inj' h rfl).2]

theorem TransferCoding.closes : TransferCoding e → Closes e
  | ⟨_, _, _, he, hname, hparams, hblank⟩ =>
      he ▸ (Closes.of_notMem (isToken_notMem hname)).append
        (hparams.closes.append (.of_notMem (comma_notMem hblank (by decide))))

theorem elements_singleton (p : Bytes) :
    p.dropWhile isOws = [] ∧ elements [p] = [] ∨ elements [p] = [p.dropWhile isOws] := by
  cases h : p.dropWhile isOws <;> simp [elements, h]

theorem comma_mem_dropWhile {p : Bytes} : comma ∈ p.dropWhile isOws ↔ comma ∈ p := by
  refine ⟨fun h => (List.dropWhile_suffix _).subset h, fun h => ?_⟩
  rw [← List.takeWhile_append_dropWhile (p := isOws) (l := p), List.mem_append] at h
  exact h.resolve_left fun h => absurd (List.mem_takeWhile_imp h) (by decide)

theorem TransferCoding.last {p : Bytes} (h : TransferCoding (p.dropWhile isOws)) (hm : comma ∈ p) :
    ∃ init q, cut p = init ++ [q] ∧ dquote ∈ q := by
  obtain ⟨as, bs, hp, has⟩ := List.eq_append_cons_of_mem (List.mem_reverse.mpr hm)
  have hp : p = bs.reverse ++ comma :: as.reverse := by
    rw [← List.reverse_reverse p, hp]
    simp
  have hq : dquote ∈ as.reverse := by
    refine Closes.append (Closes.of_notMem (e := p.takeWhile isOws) ?_) h.closes _ _
      (List.takeWhile_append_dropWhile.trans hp)
    exact fun h => absurd (List.mem_takeWhile_imp h) (by decide)
  refine ⟨cut bs.reverse, as.reverse.dropWhile isOws, ?_, ?_⟩
  · rw [hp, cut_append, cut_of_notMem (v := as.reverse) (by simpa using has)]
    refine congrArg _ ((elements_singleton _).resolve_left fun h => ?_)
    exact absurd (List.dropWhile_eq_nil_iff.mp h.1 _ hq) (by decide)
  · rw [← List.takeWhile_append_dropWhile (p := isOws) (l := as.reverse), List.mem_append] at hq
    exact hq.resolve_left fun h => absurd (List.mem_takeWhile_imp h) (by decide)

/-- **The last element.**  A bare `chunked` that ends the list ends the cut value too, and the
other way round if the list follows the grammar. -/
theorem ends_alike {ps : List Bytes} {last : Bytes} (hc : isChunked last = true)
    (hb : isBare last = true) (h : (∃ init, elements ps = init ++ [last]) ∨
      (∀ e ∈ elements ps, TransferCoding e) ∧ ∃ init, ps.flatMap cut = init ++ [last]) :
    ∃ front, elements ps = elements front ++ [last] ∧
      ps.flatMap cut = front.flatMap cut ++ [last] := by
  induction ps using List.reverseRecOn with
  | nil => simp [elements] at h
  | append_singleton ps p ih =>
    simp only [elements_append, List.flatMap_append, List.flatMap_singleton] at h ⊢
    rcases elements_singleton p with ⟨h0, hp⟩ | hp
    · have hcut : cut p = [] := by
        rw [cut_of_notMem fun hm => ?_, hp]
        rw [← comma_mem_dropWhile, h0] at hm
        cases hm
      rw [hp, hcut, List.append_nil, List.append_nil] at h ⊢
      exact ih h
    · by_cases hm : comma ∈ p
      · rcases h with ⟨init, h⟩ | ⟨hcod, init, h⟩
        · rw [hp] at h
          have hm := comma_mem_dropWhile.mpr hm
          rw [(List.cons.inj (List.append_inj' h rfl).2).1] at hm
          exact absurd (mem_bare hc hb hm) (by decide)
        · obtain ⟨init', q, hq, hd⟩ :=
            (hcod _ (by rw [hp]; exact List.mem_append_right _ (.head _))).last hm
          rw [hq, ← List.append_assoc] at h
          rw [(List.cons.inj (List.append_inj' h rfl).2).1] at hd
          exact absurd (mem_bare hc hb hd) (by decide)
      · rw [cut_of_notMem hm, hp] at h ⊢
        have hlast : p.dropWhile isOws = last := by
          rcases h with ⟨init, h⟩ | ⟨-, init, h⟩ <;>
            exact (List.cons.inj (List.append_inj' h rfl).2).1
        rw [hlast]
        exact ⟨ps, rfl, rfl⟩

theorem exists_mem_cut {ps : List Bytes} (he : e ∈ elements ps) (hc : isChunked e = true) :
    ∃ x ∈ ps.flatMap cut, isChunked x = true := by
  obtain ⟨p, hp, rfl⟩ := List.mem_map.mp (List.mem_filter.mp he).1
  obtain ⟨e, t, rfl, hfree, hcut, ht⟩ := exists_piece p
  have ht' : t = [] ∨ ∃ rest, t = comma :: rest := ht.imp_right fun ⟨r, h, _⟩ => ⟨r, h⟩
  rw [List.dropWhile_append] at hc
  rcases elements_singleton e with ⟨h0, -⟩ | hx
  · rw [h0] at hc
    obtain rfl | ⟨rest, rfl⟩ := ht'
    · exact absurd hc (by decide)
    · have hbad := beq_iff_eq.mp hc
      exact absurd (List.cons.inj hbad).1 (by decide)
  · have hxc : comma ∉ e.dropWhile isOws := fun h => hfree (comma_mem_dropWhile.mp h)
    have hne : e.dropWhile isOws ≠ [] := fun h => by simp [elements, h] at hx
    rw [if_neg (by simpa using hne)] at hc
    have hname : codingName (e.dropWhile isOws) = codingName (e.dropWhile isOws ++ t) := by
      have hfix : (codingName (e.dropWhile isOws ++ t)).takeWhile (· != comma) =
          codingName (e.dropWhile isOws ++ t) := by
        refine List.takeWhile_eq_self_iff.mpr fun b hb => bne_iff_ne.mpr ?_
        rintro rfl
        have := List.mem_map_of_mem (f := toLowerA) hb
        rw [beq_iff_eq.mp hc] at this
        exact absurd this (by decide)
      rw [← takeWhile_piece hxc ht', ← hfix, codingName, List.takeWhile_takeWhile]
      congr 1
      funext b
      simp only [bne, Bool.decide_and, Bool.decide_eq_true]
      cases isOws b <;> cases b == comma <;> cases b == semicolon <;> rfl
    refine ⟨_, List.mem_flatMap.mpr ⟨_, hp, ?_⟩, (congrArg (eqIgnoreAsciiCase · _) hname).trans hc⟩
    rw [hcut, hx]
    exact List.mem_append_left _ (.head _)

/-- **Where the code decides as the grammar does.** -/
theorem plain_iff : Plain v ↔ (Accepts v ↔ FramesChunked v) := by
  rw [accepts_iff_cut]
  constructor
  · intro hv
    constructor
    · rintro ⟨init, last, he, hc, hinit⟩
      obtain ⟨hb, ps, rfl, hcod⟩ := hv.listed init last he hc hinit
      rw [cut_intercalate] at he
      obtain ⟨front, h1, h2⟩ := ends_alike hc hb (.inr ⟨hcod, init, he⟩)
      refine ⟨ps, rfl, hcod, _, last, h1, ⟨hc, hb⟩, fun e hm => ?_⟩
      refine Bool.eq_false_of_not_eq_true fun hec => ?_
      obtain ⟨x, hx, hxc⟩ := exists_mem_cut hm hec
      rw [← (List.append_inj' (he.symm.trans h2) rfl).1] at hx
      exact Bool.false_ne_true ((hinit x hx).symm.trans hxc)
    · intro hf
      have hun := hv.unquoted hf
      obtain ⟨ps, rfl, hcod, init, last, he, ⟨hc, hb⟩, -⟩ := hf
      obtain ⟨front, -, h2⟩ := ends_alike hc hb (.inl ⟨init, he⟩)
      rw [cut_intercalate, h2] at hun ⊢
      rw [List.dropLast_concat] at hun
      exact ⟨_, last, rfl, hc, hun⟩
  · intro h
    refine ⟨fun init last he hc hinit => ?_, fun hf => ?_⟩
    · obtain ⟨ps, rfl, hcod, init', last', he', ⟨hc', hb⟩, -⟩ := h.mp ⟨init, last, he, hc, hinit⟩
      obtain ⟨front, -, h2⟩ := ends_alike hc' hb (.inl ⟨init', he'⟩)
      rw [cut_intercalate, h2] at he
      rw [← (List.cons.inj (List.append_inj' he rfl).2).1]
      exact ⟨hb, ps, rfl, hcod⟩
    · obtain ⟨init, last, he, -, hinit⟩ := h.mpr hf
      rw [he, List.dropLast_concat]
      exact hinit

/-! ### The lines of a head -/

def isTransferEncoding (f : Bytes × Bytes) : Bool :=
  eqIgnoreAsciiCase f.1 (ascii "transfer-encoding")

def isContentLength (f : Bytes × Bytes) : Bool := eqIgnoreAsciiCase f.1 (ascii "content-length")

/-- The field lines read so far. -/
def ParseState.fieldLines (s : ParseState) (buf : Bytes) : Fields :=
  s.parser.headers.map fun h => (h.name buf, h.val buf)

/-- The flags of the parser agree with the field lines. -/
structure Coded (c : CodingFlags) (fs : Fields) : Prop where
  seenTE : c.seenTE = fs.any isTransferEncoding
  seenContentLength : c.seenContentLength = fs.any isContentLength
  chunked : c.chunked = c.seenTE
  accepted : c.chunked = true → ∃ f, fs.filter isTransferEncoding = [f] ∧
    fs.any isContentLength = false ∧ Accepts f.2

variable {p : RequestParser} {fs : Fields} {name val : Bytes}

theorem ne_of_isField {a b : Bytes} (hab : a ≠ b) (h : eqIgnoreAsciiCase name a = true) :
    eqIgnoreAsciiCase name b = false := by
  simp only [eqIgnoreAsciiCase, beq_iff_eq] at h
  simpa [eqIgnoreAsciiCase, h] using hab

theorem processHeader_transferEncoding (hname : isTransferEncoding (name, val) = true) :
    ((processHeader p name val).1 ≠ .prError ↔ p.seenContentLength = false ∧ p.seenTE = false ∧
      p.minor ≠ 0 ∧ Accepts val) ∧
    ((processHeader p name val).1 ≠ .prError →
      (processHeader p name val).2.coding = ⟨true, p.seenContentLength, true⟩) := by
  have hte : eqIgnoreAsciiCase name (ascii "transfer-encoding") = true := hname
  have hcl : eqIgnoreAsciiCase name (ascii "content-length") = false :=
    ne_of_isField (by decide) hte
  unfold processHeader Accepts
  simp only [hcl, hte, Bool.false_eq_true, if_false, if_true]
  split_ifs <;> simp_all [RequestParser.fail, RequestParser.coding]

theorem processHeader_contentLength (hname : isContentLength (name, val) = true)
    (hok : (processHeader p name val).1 ≠ .prError) : p.chunked = false ∧
      (processHeader p name val).2.coding = { p.coding with seenContentLength := true } := by
  have hcl : eqIgnoreAsciiCase name (ascii "content-length") = true := hname
  unfold processHeader at hok ⊢
  simp only [hcl, if_true] at hok ⊢
  split_ifs at hok ⊢ with h
  · exact absurd rfl hok
  · refine ⟨by simp_all, ?_⟩
    split at hok
    · rfl
    · exact absurd rfl hok
    · exact absurd rfl hok

theorem processHeader_other (hte : isTransferEncoding (name, val) = false)
    (hcl : isContentLength (name, val) = false) :
    (processHeader p name val).2.coding = p.coding := by
  have hte : eqIgnoreAsciiCase name (ascii "transfer-encoding") = false := hte
  have hcl : eqIgnoreAsciiCase name (ascii "content-length") = false := hcl
  unfold processHeader
  simp only [hte, hcl, Bool.false_eq_true, if_false]
  split_ifs <;> rfl

theorem Coded.processHeader (h : Coded p.coding fs)
    (hok : (processHeader p name val).1 ≠ .prError) :
    Coded (processHeader p name val).2.coding (fs ++ [(name, val)]) := by
  have ⟨h1, h2, h3, h4⟩ := h
  cases hte : isTransferEncoding (name, val) with
  | true =>
    have hcl : isContentLength (name, val) = false := ne_of_isField (by decide) hte
    obtain ⟨hiff, hq⟩ := processHeader_transferEncoding (p := p) hte
    obtain ⟨e1, e2, -, hacc⟩ := hiff.mp hok
    rw [hq hok]
    have hno : fs.any isContentLength = false := h2.symm.trans e1
    have hnone : fs.any isTransferEncoding = false := h1.symm.trans e2
    refine ⟨?_, h2.trans ?_, rfl, fun _ => ⟨(name, val), ?_, ?_, hacc⟩⟩
    · simp [hte]
    · simp [hcl]
    · simpa [List.filter_append, hte] using hnone
    · simp [hno, hcl]
  | false =>
    cases hcl : isContentLength (name, val) with
    | true =>
      obtain ⟨hc, hq⟩ := processHeader_contentLength hcl hok
      rw [hq]
      refine ⟨h1.trans ?_, ?_, h3, fun hch => ?_⟩
      · simp [hte]
      · simp [hcl]
      · cases hc.symm.trans hch
    | false =>
      rw [processHeader_other hte hcl]
      refine ⟨h1.trans ?_, h2.trans ?_, h3, fun hch => ?_⟩
      · simp [hte]
      · simp [hcl]
      · simpa [hte, hcl] using h4 hch

variable {lim : ParserLimits} {buf : Bytes} {s : ParseState}

theorem parseStep_coded (h : Coded s.parser.coding (s.fieldLines buf)) :
    Advances (fun s => Coded s.parser.coding (s.fieldLines buf)) (parseStep lim buf s) := by
  have hi := parseStep_iteration lim buf s
  generalize parseStep lim buf s = st at hi
  cases hi with
  | failed | lineFailed | raised | stuck => trivial
  | requestLine _ _ hr =>
    obtain ⟨-, hh, hq⟩ := parseReqLine_ok hr
    unfold ParseState.fieldLines at h
    rw [← hh, ← hq] at h
    exact h
  | headerLine _ _ hr =>
    obtain ⟨f, hf, -, hh⟩ := parseHeaderLine_ok hr
    simp only [Advances, ParseState.continueWith, ParseState.fieldLines, hh, List.map_append,
      List.map_cons, List.map_nil]
    unfold parseHeaderLine at hr ⊢
    split_ifs at hr ⊢
    · exact absurd rfl hr
    · simp only [hf] at hr ⊢
      exact Coded.processHeader (p := { s.parser with headers := s.parser.headers ++ [f] }) h hr
  | _ => exact h

/-- **When a body is framed as chunked.**  A head that is not rejected is framed as chunked exactly
when it has one `Transfer-Encoding` line, no `Content-Length` and a value that frames the body, if
and only if its `Transfer-Encoding` values are plain; such a line always makes it chunked.  A line of
HTTP/1.1 is rejected exactly for any other value, if and only if its value is plain. -/
theorem chunked_iff_framesChunked {r : ParseResult} {s' : ParseState}
    (h : parse lim buf (.fresh p) = .ok (r, s')) (hr : r ≠ .prError) :
    ((s'.parser.chunked = true ↔ ∃ f, (s'.fieldLines buf).filter isTransferEncoding = [f] ∧
        (s'.fieldLines buf).any isContentLength = false ∧ FramesChunked f.2) ↔
      ∀ f ∈ s'.fieldLines buf, isTransferEncoding f = true → Plain f.2) ∧
    ((s'.fieldLines buf).any isTransferEncoding = true → s'.parser.chunked = true) ∧
    ∀ name val, isTransferEncoding (name, val) = true →
      ((∀ q : RequestParser, q.minor = 1 → ((processHeader q name val).1 ≠ .prError ↔
        q.seenTE = false ∧ q.seenContentLength = false ∧ FramesChunked val)) ↔ Plain val) := by
  have hc : Coded s'.parser.coding (s'.fieldLines buf) :=
    parse_advances (fun _ => parseStep_coded) ⟨rfl, rfl, rfl, fun h => (by cases h)⟩ h hr
  have hte : s'.parser.chunked = (s'.fieldLines buf).any isTransferEncoding :=
    hc.chunked.trans hc.seenTE
  refine ⟨?_, hte.trans, fun name val hname => ?_⟩
  · cases hch : s'.parser.chunked with
    | false =>
      have hno : ∀ f ∈ s'.fieldLines buf, isTransferEncoding f ≠ true := by
        simpa using hte.symm.trans hch
      refine iff_of_true (iff_of_false Bool.false_ne_true ?_) fun f hf h => absurd h (hno f hf)
      rintro ⟨f, hf, -⟩
      have hm := List.mem_filter.mp (hf ▸ List.mem_singleton_self f)
      exact hno f hm.1 hm.2
    | true =>
      obtain ⟨f, hf, hcl, hacc⟩ := hc.accepted hch
      have hm {g} : g ∈ s'.fieldLines buf ∧ isTransferEncoding g = true ↔ g = f := by
        rw [← List.mem_filter, hf, List.mem_singleton]
      simp only [← and_imp, hm, forall_eq, plain_iff, hacc, true_iff, hf, List.cons.injEq,
        and_true, exists_eq_left', hcl, true_and]
  · rw [plain_iff]
    constructor
    · intro h
      have h1 := h { minor := 1 } rfl
      rw [(processHeader_transferEncoding hname).1] at h1
      simpa using h1
    · intro hv q hq
      rw [(processHeader_transferEncoding hname).1, hv]
      have hminor : q.minor ≠ 0 := by omega
      tauto

theorem chunked_iff_framesChunked_chunkedRequest :
    ∃ s, parse ⟨8192, 100, 1024⟩ chunkedRequest (.fresh {}) = .ok (.prComplete, s) ∧
      s.parser.chunked = true := by
  obtain ⟨s, hs, hf⟩ : ∃ s,
      parse ⟨8192, 100, 1024⟩ chunkedRequest (.fresh {}) = .ok (.prComplete, s) ∧
      (s.fieldLines chunkedRequest).any isTransferEncoding = true := ⟨_, rfl, by decide +kernel⟩
  exact ⟨s, hs, (chunked_iff_framesChunked hs (by decide)).2.1 hf⟩

/-- A request whose `chunked` has a parameter. -/
def parameterRequest : Bytes :=
  ascii "GET / HTTP/1.1\r\nHost:\r\nTransfer-Encoding:chunked;a\r\n\r\n"

/-- The parameter of `chunked` is not looked at. -/
theorem chunked_with_parameter_accepted :
    (∃ s, parse ⟨8192, 100, 1024⟩ parameterRequest (.fresh {}) = .ok (.prNeedMore, s) ∧
      s.parser.chunked = true ∧ (s.fieldLines parameterRequest).filter isTransferEncoding =
        [(ascii "Transfer-Encoding", ascii "chunked;a")]) ∧
    ¬ FramesChunked (ascii "chunked;a") := by
  refine ⟨⟨_, rfl, by decide +kernel⟩, ?_⟩
  rintro ⟨ps, hps, -, init, last, he, ⟨hc, hb⟩, -⟩
  obtain ⟨front, -, hcut⟩ := ends_alike hc hb (.inl ⟨init, he⟩)
  rw [← cut_intercalate, ← hps] at hcut
  have hone : cut (ascii "chunked;a") = [] ++ [ascii "chunked;a"] := by decide
  cases (List.append_inj' (hone.symm.trans hcut) rfl).2
  exact absurd hb (by decide)

end Vortex.Http1
