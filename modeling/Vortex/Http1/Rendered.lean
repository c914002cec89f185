import Mathlib.Data.List.GetD
import Vortex.Http1.Codings
import Vortex.Http1.Response

/-! # Requests of the other protocols as HTTP/1 text

HTTP/2 and HTTP/3 check a decoded field list with `classifyRequestHead`, HTTP/1 its text with
`parse`.  A list that the former admits can be written out as an HTTP/1 request (`requestText`);
does the HTTP/1 parser take it?

Names are checked by the same table.  Targets, authorities and values are not: the field rules
admit every byte of a value but NUL, CR and LF, so that a target may hold a blank, and a value a
control byte (`target_with_blank_refused`).  Exactly without such bytes, framing fields of HTTP/1
aside, the text is one complete request with the same method, target and values, unless a framing
field is in the way (`admitted_request_completes`). -/

namespace Vortex

theorem findByte_append_cons {x : Bytes} {ch : UInt8} (h : ch ∉ x) (pre rest : Bytes) {e : ℕ}
    (he : pre.length + x.length < e) :
    findByte (pre ++ (x ++ ch :: rest)) pre.length e ch = some (pre.length + x.length) := by
  refine findByte_eq_some.mpr ⟨Nat.le_add_right _ _, he, ?_, fun j hj hlt hb => h ?_⟩
  · rw [List.getElem?_append_right (Nat.le_add_right _ _), Nat.add_sub_cancel_left,
      List.getElem?_append_right le_rfl, Nat.sub_self]
    rfl
  · rw [List.getElem?_append_right hj, List.getElem?_append_left (by omega)] at hb
    exact List.mem_of_getElem? hb

theorem slice_append_append (pre x rest : Bytes) :
    slice (pre ++ (x ++ rest)) pre.length (pre.length + x.length) = x := by
  have h := slice_shift pre (x ++ rest) 0 x.length
  rw [Nat.add_zero] at h
  rw [h, slice_append_left 0 le_rfl, slice_full, List.drop_zero]

theorem slice_slice {b : Bytes} {i j l : ℕ} (h : i + l ≤ j) (k : ℕ) :
    slice (slice b i j) k l = slice b (i + k) (i + l) := by
  apply List.ext_getElem?
  intro n
  simp only [slice_getElem?, ← Nat.add_assoc]
  split_ifs <;> first | rfl | omega

variable {p : RequestParser} {meth text : Bytes}

namespace Http1

open FieldRules Text Codec

/-! ### The text -/

/-- The lines of a request without a body. -/
def requestText (meth path host : Bytes) (fields : Fields) : Bytes :=
  meth ++ [sp] ++ path ++ [sp] ++ ascii "HTTP/1.1" ++ crlf ++
    fieldLines ((ascii "Host", host) :: fields) ++ crlf

/-- The fields that are written as lines of their own. -/
def regularFields (headers : Fields) : Fields :=
  headers.filter fun f => f.1.head? != some colon && f.1 != ascii "host"

/-- The value of the `Host` line: the authority, or else that of the only `host` field. -/
def targetHost (s : Pseudo) (headers : Fields) : Option Bytes :=
  match s.authority with
  | some a => some a
  | none =>
      match headers.filter fun f => f.1 == ascii "host" with
      | [f] => some f.2
      | _ => none

/-- The names by which HTTP/1 frames a request. -/
def framingName (name : Bytes) : Bool :=
  name == ascii "content-length" || name == ascii "transfer-encoding" || name == ascii "expect"

/-- The parser completes a request at the end of the text, with this method, target and fields. -/
def EndsAs (lim : ParserLimits) (text : Bytes) (s : ParseState) (meth path : Bytes)
    (fields : Fields) : Prop :=
  ∃ st, (parseLoop lim text).run s = .ok (.prComplete, st) ∧
    parseMethod meth = some st.parser.httpMethod ∧
    slice text st.parser.pathStart (st.parser.pathStart + st.parser.pathLen) = path ∧
    (st.parser.headers.map fun h => (h.name text, h.val text)) = fields ∧
    st.parser.bodyLen = 0 ∧ st.parser.pos = text.length

/-- The text is exactly one request. -/
def Completes (lim : ParserLimits) (p : RequestParser) (text meth path : Bytes) (fields : Fields) :
    Prop := EndsAs lim text (.fresh p) meth path fields

/-! ### One line of the head -/

section

variable {lim : ParserLimits} {s : ParseState} {pre line rest : Bytes} {f : Bytes × Bytes}

theorem headStep_line (hpos : s.parser.pos = pre.length) (hlf : lf ∉ line) (hne : line ≠ [])
    (hsize : ((pre.length + line.length + 1 : ℕ) : ℤ) - s.parser.reqStart ≤ lim.maxHeaderSize) :
    headStep lim (pre ++ (line ++ (crlf ++ rest))) s =
      if s.parser.phase = .ppReqLine then
        s.afterLine (pre.length + line.length + 1) (parseReqLine s.parser line)
      else s.afterLine (pre.length + line.length + 1)
        (parseHeaderLine lim (pre ++ (line ++ (crlf ++ rest))) s.parser
          (pre.length + line.length)) := by
  have hlf' : lf ∉ line ++ [cr] := by
    simp [hlf, cr_ne_lf.symm]
  have hbuf : pre ++ (line ++ (crlf ++ rest)) = pre ++ ((line ++ [cr]) ++ lf :: rest) := by
    simp [crlf]
  have hfind : findByte (pre ++ (line ++ (crlf ++ rest))) pre.length
      (pre ++ (line ++ (crlf ++ rest))).length lf = some (pre.length + line.length + 1) := by
    rw [hbuf, findByte_append_cons hlf']
    · simp [Nat.add_assoc]
    · simp
  have hcr : (pre ++ (line ++ (crlf ++ rest))).getD (pre.length + line.length) 0 = cr := by
    rw [List.getD_append_right _ _ _ _ (Nat.le_add_right _ _), Nat.add_sub_cancel_left,
      List.getD_append_right _ _ _ _ le_rfl, Nat.sub_self]
    rfl
  have hlen : line.length ≠ 0 := fun h => hne (List.length_eq_zero_iff.mp h)
  unfold headStep
  simp only [hpos, hfind]
  have hline : ¬(pre.length + line.length = pre.length) := by omega
  have hend : ¬(pre.length + line.length + 1 = pre.length ∨
      (pre ++ (line ++ (crlf ++ rest))).getD (pre.length + line.length) 0 ≠ cr) := by
    rw [hcr]
    simp
    omega
  simp only [Nat.add_sub_cancel]
  rw [if_neg hend, if_neg (not_lt.mpr hsize), if_neg hline, if_neg hline, slice_append_append]

theorem headStep_empty (hpos : s.parser.pos = pre.length) (hphase : s.parser.phase = .ppHeaders)
    (hsize : ((pre.length + 1 : ℕ) : ℤ) - s.parser.reqStart ≤ lim.maxHeaderSize) :
    headStep lim (pre ++ (crlf ++ rest)) s = endOfHead lim s (pre.length + 1) := by
  have hfind : findByte (pre ++ (crlf ++ rest)) pre.length (pre ++ (crlf ++ rest)).length lf =
      some (pre.length + 1) := by
    refine findByte_append_cons (x := [cr]) (by decide) pre rest ?_
    simp [crlf]
  have hcr : (pre ++ (crlf ++ rest)).getD pre.length 0 = cr := by
    rw [List.getD_append_right _ _ _ _ le_rfl, Nat.sub_self]
    rfl
  unfold headStep
  simp only [hpos, hfind, hphase]
  have hend : ¬(pre.length + 1 = pre.length ∨
      (pre ++ (crlf ++ rest)).getD pre.length 0 ≠ cr) := by
    rw [hcr]
    simp
  simp only [Nat.add_sub_cancel]
  rw [if_neg hend, if_neg (not_lt.mpr hsize), if_neg (by decide), if_pos trivial]

/-! ### The request line -/

/-- A target without blanks and control bytes. -/
def TargetBytes (s : Bytes) : Prop := ∀ b ∈ s, ¬b ≤ 0x20 ∧ b ≠ 0x7f

instance (s : Bytes) : Decidable (TargetBytes s) := List.decidableBAll _ s

theorem targetBytes_iff {s : Bytes} :
    TargetBytes s ↔ (s.any fun b => b ≤ 0x20 || b == 0x7f) = false := by
  simp [TargetBytes, List.any_eq_false]

theorem any_lt_eq (s : Bytes) : (s.any fun b => b < 0x21 || b == 0x7f) =
    s.any fun b => b ≤ 0x20 || b == 0x7f := by
  have hlt : ∀ b : UInt8, b < 0x21 ↔ b ≤ 0x20 := by
    intro b
    rw [UInt8.lt_iff_toNat_lt, UInt8.le_iff_toNat_le]
    exact Nat.lt_succ_iff
  simp only [hlt]

theorem TargetBytes.ne_sp {s : Bytes} (h : TargetBytes s) : sp ∉ s := fun hm =>
  (h sp hm).1 (by decide)

theorem TargetBytes.ne_lf {s : Bytes} (h : TargetBytes s) : lf ∉ s := fun hm =>
  (h lf hm).1 (by decide)

theorem parseReqLine_text {path : Bytes} {m : HttpMethod} (hm : parseMethod meth = some m)
    (hsp : sp ∉ meth) (hpath : TargetBytes path) (hne : path ≠ []) :
    parseReqLine p (meth ++ [sp] ++ path ++ [sp] ++ ascii "HTTP/1.1") =
      (.prNeedMore, { p with
        httpMethod := m
        pathStart := p.pos + meth.length + 1
        pathLen := path.length
        minor := 1
        keepAlive := true
        phase := .ppHeaders }) := by
  have hline : meth ++ [sp] ++ path ++ [sp] ++ ascii "HTTP/1.1" =
      [] ++ (meth ++ sp :: (path ++ sp :: ascii "HTTP/1.1")) := by simp
  have hline' : [] ++ (meth ++ sp :: (path ++ sp :: ascii "HTTP/1.1")) =
      (meth ++ [sp]) ++ (path ++ sp :: ascii "HTTP/1.1") := by simp
  have hpre : (meth ++ [sp]).length = meth.length + 1 := by simp
  generalize hl : meth ++ [sp] ++ path ++ [sp] ++ ascii "HTTP/1.1" = line at *
  have hlen : line.length = meth.length + 1 + path.length + 1 + 8 := by
    rw [← hl]
    simp [ascii]
    omega
  have hsp1 : findByte line 0 line.length sp = some meth.length := by
    rw [hline]
    refine (findByte_append_cons hsp [] _ ?_).trans (by simp)
    rw [← hline, hlen, List.length_nil]
    omega
  have hsp2 : findByte line (meth.length + 1) line.length sp =
      some (meth.length + 1 + path.length) := by
    rw [hline, hline', ← hpre]
    refine findByte_append_cons hpath.ne_sp (meth ++ [sp]) _ ?_
    rw [← hline', ← hline, hlen, hpre]
    omega
  have hmeth : slice line 0 meth.length = meth := by
    rw [hline]
    have h := slice_append_append [] meth (sp :: (path ++ sp :: ascii "HTTP/1.1"))
    simpa using h
  have htarget : slice line (meth.length + 1) (meth.length + 1 + path.length) = path := by
    rw [hline, hline', ← hpre]
    exact slice_append_append _ _ _
  have hversion : slice line (meth.length + 1 + path.length + 1) line.length =
      ascii "HTTP/1.1" := by
    rw [slice_full, ← hl]
    have h : meth.length + 1 + path.length + 1 = (meth ++ [sp] ++ path ++ [sp]).length := by
      simp [Nat.add_assoc]
      omega
    rw [h, List.drop_left]
  have hok : (path.any fun b => b < 0x21 || b == 0x7f) = false :=
    (any_lt_eq path).trans (targetBytes_iff.mp hpath)
  have hpos : path.length ≠ 0 := fun h => hne (List.length_eq_zero_iff.mp h)
  unfold parseReqLine
  rw [hsp1]
  dsimp only
  rw [hmeth, hm]
  rw [hsp2]
  dsimp only
  rw [if_neg (by omega), htarget, hok, hversion]
  have hsub : meth.length + 1 + path.length - meth.length - 1 = path.length := by omega
  rw [hsub]
  rfl

/-! ### The header lines -/

/-- A field that HTTP/1 takes. -/
structure LineField (f : Bytes × Bytes) : Prop where
  named : f.1 ≠ []
  token : ∀ b ∈ f.1, badNameByte b = false
  trimmed : validFieldValue f.2 = true
  printable : ∀ b ∈ f.2, badValueByte b = false

theorem LineField.colon_not_mem (h : LineField f) : colon ∉ f.1 := fun hm =>
  absurd (h.token colon hm) (by decide)

theorem LineField.lf_not_mem (h : LineField f) : lf ∉ fieldText f := by
  have hname : lf ∉ f.1 := fun hm => absurd (h.token lf hm) (by decide)
  have hval : lf ∉ f.2 := fun hm => absurd (h.printable lf hm) (by decide)
  have hsep : lf ∉ ascii ": " := by decide
  simp only [fieldText, List.mem_append, not_or]
  exact ⟨⟨hname, hsep⟩, hval⟩

theorem trim_of_validFieldValue {val : Bytes} (h : validFieldValue val = true) :
    val.dropWhile isOws = val ∧ val.takeWhile isOws = [] ∧ val.rdropWhile isOws = val := by
  simp only [validFieldValue, Bool.and_eq_true, Bool.not_eq_true'] at h
  obtain ⟨⟨-, hfirst⟩, hlast⟩ := h
  have hr : val.rdropWhile isOws = val := by
    rw [List.rdropWhile_eq_self_iff]
    intro hne
    rw [List.getLast?_eq_some_getLast hne] at hlast
    simpa using hlast
  cases val with
  | nil => exact ⟨rfl, rfl, hr⟩
  | cons b val =>
    have hb : isOws b = false := by simpa using hfirst
    refine ⟨?_, ?_, hr⟩
    · rw [List.dropWhile_cons_of_neg (by simp [hb])]
    · rw [List.takeWhile_cons_of_neg (by simp [hb])]

/-- Where a field stands that is written at `base`. -/
def lineSlice (base : ℕ) (f : Bytes × Bytes) : HeaderSlice :=
  ⟨base, f.1.length, base + f.1.length + 2, f.2.length⟩

theorem fieldLine_fieldText (h : LineField f) (base : ℕ) :
    fieldLine base (fieldText f) = some (lineSlice base f) := by
  obtain ⟨hdrop, htake, hrdrop⟩ := trim_of_validFieldValue h.trimmed
  have hline : fieldText f = [] ++ (f.1 ++ colon :: (sp :: f.2)) := by
    simp [fieldText, ascii, colon, sp]
  have hfind : findByte (fieldText f) 0 (fieldText f).length colon = some f.1.length := by
    rw [hline]
    refine (findByte_append_cons h.colon_not_mem [] _ ?_).trans (by simp)
    simp
  have hname : (fieldText f).take f.1.length = f.1 := by
    rw [hline, List.nil_append, List.take_left]
  have hrest : (fieldText f).drop (f.1.length + 1) = sp :: f.2 := by
    rw [hline, List.nil_append, ← List.drop_drop, List.drop_left]
    rfl
  have htoken : f.1.any badNameByte = false := by
    rw [List.any_eq_false]
    intro b hb
    simp [h.token b hb]
  have hprintable : f.2.any badValueByte = false := by
    rw [List.any_eq_false]
    intro b hb
    simp [h.printable b hb]
  have hpos : f.1.length ≠ 0 := fun e => h.named (List.length_eq_zero_iff.mp e)
  have hows : isOws sp = true := by decide
  unfold fieldLine
  rw [hfind]
  dsimp only
  rw [if_neg hpos, hname, htoken, hrest, List.dropWhile_cons_of_pos hows, hdrop, hrdrop, hprintable,
    List.takeWhile_cons_of_pos hows, htake]
  rfl

theorem slices_fieldText (pre rest : Bytes) (f : Bytes × Bytes) :
    (lineSlice pre.length f).name (pre ++ (fieldText f ++ rest)) = f.1 ∧
      (lineSlice pre.length f).val (pre ++ (fieldText f ++ rest)) = f.2 := by
  have hname : pre ++ (fieldText f ++ rest) = pre ++ (f.1 ++ (ascii ": " ++ f.2 ++ rest)) := by
    simp [fieldText]
  have hval : pre ++ (fieldText f ++ rest) = (pre ++ f.1 ++ ascii ": ") ++ (f.2 ++ rest) := by
    simp [fieldText]
  have hlen : (pre ++ f.1 ++ ascii ": ").length = pre.length + f.1.length + 2 := by
    simp [ascii]
    omega
  refine ⟨?_, ?_⟩
  · rw [hname]
    exact slice_append_append _ _ _
  · rw [hval, HeaderSlice.val, lineSlice, ← hlen]
    exact slice_append_append _ _ _

/-- A field of HTTP/2 or HTTP/3 that HTTP/1 neither frames by nor takes for its host. -/
def Neutral (f : Bytes × Bytes) : Prop :=
  validFieldName f.1 = true ∧ framingName f.1 = false ∧ f.1 ≠ ascii "host"

theorem eqIgnoreAsciiCase_of_valid {name : Bytes} (h : validFieldName name = true) (lit : Bytes) :
    eqIgnoreAsciiCase name lit = (name == lit) := by
  have hmap : name.map toLowerA = name := by
    refine (List.map_congr_left fun b hb => ?_).trans (List.map_id name)
    have := List.all_eq_true.mp h b hb
    simp only [Bool.not_eq_true', Bool.or_eq_false_iff] at this
    simp [toLowerA, this.1]
  rw [eqIgnoreAsciiCase, hmap]

theorem processHeader_neutral (h : Neutral f) (p : RequestParser) :
    ∃ ka, processHeader p f.1 f.2 = (.prNeedMore, { p with keepAlive := ka }) := by
  obtain ⟨hvalid, hframing, hhost⟩ := h
  simp only [framingName, Bool.or_eq_false_iff, beq_eq_false_iff_ne] at hframing
  obtain ⟨⟨hcl, hte⟩, hex⟩ := hframing
  unfold processHeader
  simp only [eqIgnoreAsciiCase_of_valid hvalid, beq_iff_eq, hcl, hte, hex, hhost, if_false]
  split_ifs
  · exact ⟨_, rfl⟩
  · exact ⟨_, rfl⟩
  · exact ⟨_, rfl⟩
  · exact ⟨_, rfl⟩

theorem processHeader_host {host : Bytes} (h : TargetBytes host) (hp : p.seenHost = false) :
    processHeader p (ascii "Host") host = (.prNeedMore, { p with seenHost := true }) := by
  unfold processHeader
  rw [if_neg (by decide), if_neg (by decide), if_neg (by decide), if_neg (by decide),
    if_pos (by decide), if_neg (by simp [hp])]
  rw [targetBytes_iff.mp h]
  rfl

end

/-! ### The whole head -/

/-- The parser stands at a header line: the request line and the fields `done` are read. -/
structure AtHeaders (text meth path : Bytes) (done : Fields) (pos : ℕ) (p : RequestParser) :
    Prop where
  phase : p.phase = .ppHeaders
  pos : p.pos = pos
  reqStart : p.reqStart = 0
  httpMethod : parseMethod meth = some p.httpMethod
  target : slice text p.pathStart (p.pathStart + p.pathLen) = path
  headers : (p.headers.map fun h => (h.name text, h.val text)) = done
  minor : p.minor = 1
  contentLength : p.contentLength = -1
  chunked : p.chunked = false

section

variable {lim : ParserLimits} {s : ParseState} {m : HttpMethod} {path : Bytes} {done : Fields}
  {pre rest : Bytes} {f : Bytes × Bytes}

theorem EndsAs.step {s' : ParseState} {fields : Fields} (hs : parseStep lim text s = .inl s')
    (h : EndsAs lim text s' meth path fields) : EndsAs lim text s meth path fields := by
  obtain ⟨st, hrun, h⟩ := h
  exact ⟨st, ((parseLoop lim text).run_next hs).trans hrun, h⟩

theorem parseStep_headers (h : s.parser.phase = .ppHeaders) :
    parseStep lim text s = headStep lim text s := by
  unfold parseStep
  rw [h]

theorem parseStep_fieldText (h : AtHeaders (pre ++ (fieldText f ++ (crlf ++ rest))) meth path done
      pre.length s.parser) (hf : LineField f) (hcount : (done.length : ℤ) < lim.maxHeaderCount)
    (hsize : ((pre ++ (fieldText f ++ (crlf ++ rest))).length : ℤ) ≤ lim.maxHeaderSize)
    {q : RequestParser}
    (hq : processHeader { s.parser with
      headers := s.parser.headers ++ [lineSlice pre.length f] } f.1 f.2 = (.prNeedMore, q)) :
    parseStep lim (pre ++ (fieldText f ++ (crlf ++ rest))) s =
      .inl { s with parser := { q with pos := (pre ++ fieldText f ++ crlf).length } } := by
  obtain ⟨hname, hval⟩ := slices_fieldText pre (crlf ++ rest) f
  have hne : fieldText f ≠ [] := by simp [fieldText, ascii]
  have hlen : s.parser.headers.length = done.length := by
    rw [← h.headers, List.length_map]
  rw [parseStep_headers h.phase, headStep_line h.pos hf.lf_not_mem hne]
  · rw [h.phase, if_neg (by decide)]
    have hcut : fieldLine s.parser.pos (slice (pre ++ (fieldText f ++ (crlf ++ rest))) s.parser.pos
        (pre.length + (fieldText f).length)) = some (lineSlice pre.length f) := by
      rw [h.pos, slice_append_append, fieldLine_fieldText hf]
    unfold parseHeaderLine
    rw [if_neg (by rw [hlen]; exact not_le.mpr hcount), hcut]
    dsimp only
    rw [hname, hval, show processHeader _ f.1 f.2 = _ from hq]
    simp [ParseState.afterLine, ParseState.continueWith, crlf, Nat.add_assoc]
  · rw [h.reqStart]
    refine le_trans ?_ hsize
    simp [crlf]
    omega

theorem AtHeaders.next (h : AtHeaders (pre ++ (fieldText f ++ (crlf ++ rest))) meth path done
      pre.length s.parser) (ka host : Bool) :
    AtHeaders (pre ++ (fieldText f ++ (crlf ++ rest))) meth path (done ++ [f])
      (pre ++ fieldText f ++ crlf).length
      { s.parser with
        headers := s.parser.headers ++ [lineSlice pre.length f]
        keepAlive := ka
        seenHost := host
        pos := (pre ++ fieldText f ++ crlf).length } := by
  obtain ⟨hname, hval⟩ := slices_fieldText pre (crlf ++ rest) f
  refine ⟨h.phase, rfl, h.reqStart, h.httpMethod, h.target, ?_, h.minor, h.contentLength,
    h.chunked⟩
  rw [List.map_append, h.headers, List.map_singleton, hname, hval]

theorem run_empty (htext : text = pre ++ crlf)
    (h : AtHeaders text meth path done pre.length s.parser) (hhost : s.parser.seenHost = true)
    (hsize : (text.length : ℤ) ≤ lim.maxHeaderSize) : EndsAs lim text s meth path done := by
  have hempty : headStep lim text s = endOfHead lim s (pre.length + 1) := by
    have hroom : ((pre.length + 1 : ℕ) : ℤ) - s.parser.reqStart ≤ lim.maxHeaderSize := by
      rw [h.reqStart]
      refine le_trans ?_ hsize
      rw [htext]
      simp [crlf]
    have hstep : headStep lim (pre ++ (crlf ++ [])) s = _ := headStep_empty h.pos h.phase hroom
    rwa [List.append_nil, ← htext] at hstep
  have hend : endOfHead lim s (pre.length + 1) = s.return .prComplete { s.parser with
      pos := pre.length + 2
      bodyStart := pre.length + 2
      bodyLen := 0
      phase := .ppComplete } := by
    simp [endOfHead, h.minor, hhost, h.chunked, h.contentLength]
  have hrun := (parseLoop lim text).run_done
    ((parseStep_headers h.phase).trans (hempty.trans hend))
  refine ⟨_, hrun, h.httpMethod, h.target, h.headers, rfl, ?_⟩
  rw [htext]
  simp [crlf]

theorem run_fields {fs : Fields} (hfs : ∀ f ∈ fs, LineField f ∧ Neutral f)
    (htext : text = pre ++ (fieldLines fs ++ crlf))
    (h : AtHeaders text meth path done pre.length s.parser) (hhost : s.parser.seenHost = true)
    (hcount : ((done.length + fs.length : ℕ) : ℤ) ≤ lim.maxHeaderCount)
    (hsize : (text.length : ℤ) ≤ lim.maxHeaderSize) : EndsAs lim text s meth path (done ++ fs) := by
  induction fs generalizing pre s done with
  | nil =>
    rw [List.append_nil]
    exact run_empty htext h hhost hsize
  | cons f fs ih =>
    obtain ⟨hline, hneutral⟩ := hfs f List.mem_cons_self
    have hsplit : text = pre ++ (fieldText f ++ (crlf ++ (fieldLines fs ++ crlf))) := by
      rw [htext, fieldLines_cons]
      simp
    have hsplit' : text = (pre ++ fieldText f ++ crlf) ++ (fieldLines fs ++ crlf) := by
      rw [hsplit]
      simp
    have hlt : (done.length : ℤ) < lim.maxHeaderCount := by
      rw [List.length_cons] at hcount
      omega
    obtain ⟨ka, hq⟩ := processHeader_neutral hneutral { s.parser with
      headers := s.parser.headers ++ [lineSlice pre.length f] }
    rw [hsplit] at h hsize
    have hstep := parseStep_fieldText h hline hlt hsize hq
    have hnext := h.next ka s.parser.seenHost
    rw [← hsplit] at hstep hnext hsize
    refine EndsAs.step hstep ?_
    rw [List.append_cons done f fs]
    refine ih (s := ⟨_, s.chunkBody⟩) (fun g hg => hfs g (List.mem_cons_of_mem f hg)) hsplit' hnext
      hhost ?_
    rw [List.length_append, List.length_singleton]
    rw [List.length_cons] at hcount
    omega

/-- The request line. -/
def requestLine (meth path : Bytes) : Bytes :=
  meth ++ [sp] ++ path ++ [sp] ++ ascii "HTTP/1.1"

/-- The parser behind the request line. -/
def afterRequestLine (p : RequestParser) (m : HttpMethod) (meth path : Bytes) : RequestParser :=
  { p.reset 0 with
    httpMethod := m
    pathStart := meth.length + 1
    pathLen := path.length
    phase := .ppHeaders
    pos := (requestLine meth path ++ crlf).length }

theorem parseStep_requestLine (hm : parseMethod meth = some m) (hsp : sp ∉ meth) (hlf : lf ∉ meth)
    (hpath : TargetBytes path) (hne : path ≠ [])
    (hsize : ((requestLine meth path ++ (crlf ++ rest)).length : ℤ) ≤ lim.maxHeaderSize) :
    parseStep lim (requestLine meth path ++ (crlf ++ rest)) (.fresh p) =
      .inl ⟨afterRequestLine p m meth path, []⟩ := by
  have hline : lf ∉ requestLine meth path := by
    have hver : lf ∉ ascii "HTTP/1.1" := by decide
    simp only [requestLine, List.mem_append, List.mem_singleton, not_or]
    exact ⟨⟨⟨⟨hlf, by decide⟩, hpath.ne_lf⟩, by decide⟩, hver⟩
  have hnonempty : requestLine meth path ≠ [] := by simp [requestLine]
  have hstep : headStep lim ([] ++ (requestLine meth path ++ (crlf ++ rest))) (.fresh p) = _ :=
    headStep_line rfl hline hnonempty (by
      refine le_trans ?_ hsize
      simp [ParseState.fresh, RequestParser.reset, crlf]
      omega)
  rw [List.nil_append] at hstep
  change headStep _ _ _ = _
  rw [hstep]
  change ParseState.afterLine _ _ (parseReqLine _ (requestLine meth path)) = _
  rw [requestLine, parseReqLine_text hm hsp hpath hne]
  simp [ParseState.afterLine, ParseState.continueWith, ParseState.fresh, afterRequestLine,
    RequestParser.reset, requestLine, crlf]
  omega

theorem atHeaders_afterRequestLine (hm : parseMethod meth = some m) (p : RequestParser)
    (path rest : Bytes) : AtHeaders (requestLine meth path ++ rest) meth path []
      (requestLine meth path ++ crlf).length (afterRequestLine p m meth path) := by
  refine ⟨rfl, rfl, rfl, hm, ?_, rfl, rfl, rfl, rfl⟩
  have hlen : meth.length + 1 = (meth ++ [sp]).length := by simp
  have htext : requestLine meth path ++ rest =
      (meth ++ [sp]) ++ (path ++ (sp :: ascii "HTTP/1.1" ++ rest)) := by simp [requestLine]
  rw [htext]
  simp only [afterRequestLine, hlen]
  exact slice_append_append _ _ _

theorem byte_of_target {b : UInt8} (h1 : ¬b ≤ 0x20) (h2 : b ≠ 0x7f) :
    isOws b = false ∧ badValueByte b = false ∧ (b == 0x00 || b == lf || b == cr) = false := by
  have hne : ∀ c : UInt8, c ≤ 0x20 → b ≠ c := fun c hc e => h1 (e ▸ hc)
  have hlt : ¬b < 0x20 := fun h => h1 (UInt8.le_of_lt h)
  simp [isOws, badValueByte, hne sp (by decide), hne htab (by decide), hne 0 (by decide),
    hne lf (by decide), hne cr (by decide), hlt, h2]

theorem TargetBytes.lineField_host {host : Bytes} (h : TargetBytes host) :
    LineField (ascii "Host", host) := by
  have hbyte : ∀ b ∈ host, isOws b = false ∧ badValueByte b = false ∧
      (b == 0x00 || b == lf || b == cr) = false := fun b hb =>
    byte_of_target (h b hb).1 (h b hb).2
  have hname : (ascii "Host").all (fun b => !badNameByte b) = true := by decide
  refine ⟨(by decide : ascii "Host" ≠ []), by simpa using hname, ?_, fun b hb => (hbyte b hb).2.1⟩
  simp only [validFieldValue, Bool.and_eq_true, Bool.not_eq_true', Option.any_eq_false,
    List.all_eq_true]
  refine ⟨⟨fun b hb => ?_, fun b hb => ?_⟩, fun b hb => ?_⟩
  · rw [(hbyte b hb).2.2]
  · simp [(hbyte b (List.mem_of_head? hb)).1]
  · simp [(hbyte b (List.mem_of_getLast? hb)).1]

/-- **A request without framing fields completes.** -/
theorem completes_requestText {host : Bytes} {fs : Fields} (hm : parseMethod meth = some m)
    (hsp : sp ∉ meth) (hlf : lf ∉ meth) (hpath : TargetBytes path) (hne : path ≠ [])
    (hhost : TargetBytes host) (hfs : ∀ f ∈ fs, LineField f ∧ Neutral f)
    (hcount : ((fs.length + 1 : ℕ) : ℤ) ≤ lim.maxHeaderCount)
    (hsize : ((requestText meth path host fs).length : ℤ) ≤ lim.maxHeaderSize) :
    Completes lim p (requestText meth path host fs) meth path ((ascii "Host", host) :: fs) := by
  have htext : requestText meth path host fs =
      requestLine meth path ++ (crlf ++ (fieldLines ((ascii "Host", host) :: fs) ++ crlf)) := by
    simp [requestText, requestLine]
  have hsplit : requestText meth path host fs =
      (requestLine meth path ++ crlf) ++
        (fieldText (ascii "Host", host) ++ (crlf ++ (fieldLines fs ++ crlf))) := by
    rw [htext, fieldLines_cons]
    simp
  have hsplit' : requestText meth path host fs =
      (requestLine meth path ++ crlf ++ fieldText (ascii "Host", host) ++ crlf) ++
        (fieldLines fs ++ crlf) := by
    rw [hsplit]
    simp
  have hat := atHeaders_afterRequestLine hm p path
    (crlf ++ (fieldLines ((ascii "Host", host) :: fs) ++ crlf))
  have hline := parseStep_requestLine hm hsp hlf hpath hne (htext ▸ hsize)
    (p := p)
  rw [← htext, hsplit] at hat
  rw [← htext] at hline
  have hq := processHeader_host hhost (p := { afterRequestLine p m meth path with
    headers := [] ++ [lineSlice (requestLine meth path ++ crlf).length (ascii "Host", host)] }) rfl
  have hstep := parseStep_fieldText (s := ⟨afterRequestLine p m meth path, []⟩) hat
    hhost.lineField_host (by
      rw [List.length_nil]
      omega) (hsplit ▸ hsize) hq
  have hnext := AtHeaders.next (s := ⟨afterRequestLine p m meth path, []⟩) hat
    (afterRequestLine p m meth path).keepAlive true
  rw [← hsplit] at hstep hnext
  change EndsAs lim _ _ meth path ([] ++ [(ascii "Host", host)] ++ fs)
  refine EndsAs.step hline (EndsAs.step hstep (run_fields hfs hsplit' hnext rfl ?_ hsize))
  simpa [Nat.add_comm] using hcount

end

/-! ### What the parser has checked -/

section

variable {lim : ParserLimits} {s : ParseState} {buf path : Bytes} {i j : ℕ}

theorem parseVersion_target {v : Bytes} : (parseVersion p v).2.pathStart = p.pathStart ∧
    (parseVersion p v).2.pathLen = p.pathLen := by
  unfold parseVersion
  split
  · split_ifs <;> exact ⟨rfl, rfl⟩
  · exact ⟨rfl, rfl⟩

theorem parseReqLine_target (h : (parseReqLine p (slice buf p.pos j)).1 ≠ .prError) :
    TargetBytes (slice buf (parseReqLine p (slice buf p.pos j)).2.pathStart
      ((parseReqLine p (slice buf p.pos j)).2.pathStart +
        (parseReqLine p (slice buf p.pos j)).2.pathLen)) := by
  unfold parseReqLine at h ⊢
  split at h
  · exact absurd rfl h
  · split at h
    · exact absurd rfl h
    · split at h
      · exact absurd rfl h
      · rename_i sp1 _ _ _ _ _ sp2 hsp
        dsimp only at h ⊢
        split_ifs at h ⊢ with h1 h2
        · exact absurd rfl h
        · exact absurd rfl h
        · obtain ⟨hlo, -, hhi⟩ := findByte_lt hsp
          rw [length_slice] at hhi
          rw [parseVersion_target.1, parseVersion_target.2]
          rw [slice_slice (by omega)] at h2
          have hend : p.pos + sp1 + 1 + (sp2 - sp1 - 1) = p.pos + sp2 := by omega
          rw [hend, Nat.add_assoc]
          exact targetBytes_iff.mpr ((any_lt_eq _).symm.trans (Bool.eq_false_of_not_eq_true h2))

theorem fieldLine_printable {h : HeaderSlice} (hl : fieldLine i (slice buf i j) = some h) :
    ∀ b ∈ h.val buf, badValueByte b = false := by
  have hbound := (fieldLine_bounds hl).2.2.2
  rw [length_slice] at hbound
  unfold fieldLine at hl
  split at hl
  · cases hl
  · rename_i c hc
    dsimp only at hl
    split_ifs at hl with h0 h1 h2
    cases hl
    generalize hr : (slice buf i j).drop (c + 1) = rest at h2 hbound ⊢
    obtain ⟨tail, ht⟩ := List.rdropWhile_prefix isOws (rest.dropWhile isOws)
    have hlen : ((slice buf i j).take (c + 1) ++ rest.takeWhile isOws).length =
        c + 1 + (rest.takeWhile isOws).length := by
      rw [List.length_append, List.length_take, Nat.min_eq_left (findByte_lt hc).2.1]
    have hline : slice buf i j = ((slice buf i j).take (c + 1) ++ rest.takeWhile isOws) ++
        ((rest.dropWhile isOws).rdropWhile isOws ++ tail) := by
      rw [ht, List.append_assoc, List.takeWhile_append_dropWhile, ← hr, List.take_append_drop]
    have hval := slice_append_append ((slice buf i j).take (c + 1) ++ rest.takeWhile isOws)
      ((rest.dropWhile isOws).rdropWhile isOws) tail
    rw [← hline, hlen, slice_slice (by dsimp only at hbound; omega)] at hval
    intro b hb
    rw [HeaderSlice.val, Nat.add_assoc i, Nat.add_assoc i, Nat.add_assoc i, hval] at hb
    simpa using List.any_eq_false.mp (Bool.not_eq_true _ ▸ h2) b hb

theorem processHeader_target {name val : Bytes} :
    (processHeader p name val).2.pathStart = p.pathStart ∧
      (processHeader p name val).2.pathLen = p.pathLen := by
  unfold processHeader
  dsimp only
  split
  · split
    · exact ⟨rfl, rfl⟩
    · split <;> exact ⟨rfl, rfl⟩
  · split_ifs <;> exact ⟨rfl, rfl⟩

theorem processHeader_targetBytes {name val : Bytes} (h : (processHeader p name val).1 ≠ .prError)
    (hname : eqIgnoreAsciiCase name (ascii "host") = true) : TargetBytes val := by
  have hne : ∀ a, ascii "host" ≠ a → eqIgnoreAsciiCase name a = false :=
    fun a ha => ne_of_isField ha hname
  unfold processHeader at h
  rw [hne _ (by decide), hne _ (by decide), hne _ (by decide), hne _ (by decide), hname] at h
  simp only [Bool.false_eq_true, if_false, if_true] at h
  split_ifs at h with h1 h2
  · exact absurd rfl h
  · exact absurd rfl h
  · exact targetBytes_iff.mpr (Bool.eq_false_of_not_eq_true h2)

/-- What the parser has read so far passed its checks. -/
structure Checked (buf : Bytes) (s : ParseState) : Prop where
  target : TargetBytes (slice buf s.parser.pathStart (s.parser.pathStart + s.parser.pathLen))
  fields : ∀ f ∈ s.fieldLines buf, (∀ b ∈ f.2, badValueByte b = false) ∧
    (eqIgnoreAsciiCase f.1 (ascii "host") = true → TargetBytes f.2)

theorem parseStep_checked (h : Checked buf s) : Advances (Checked buf) (parseStep lim buf s) := by
  have hi := parseStep_iteration lim buf s
  generalize parseStep lim buf s = st at hi
  cases hi with
  | failed | lineFailed | raised | stuck => trivial
  | requestLine _ _ hr =>
    refine ⟨parseReqLine_target hr, ?_⟩
    unfold ParseState.fieldLines
    rw [(parseReqLine_ok hr).2.1]
    exact h.fields
  | @headerLine nl _ _ hr =>
    obtain ⟨f, hf, -, hh⟩ := parseHeaderLine_ok hr
    have hfields : ∀ g ∈ ParseState.fieldLines ⟨(parseHeaderLine lim buf s.parser (nl - 1)).2, []⟩
        buf, g ∈ s.fieldLines buf ∨ g = (f.name buf, f.val buf) := by
      simp [ParseState.fieldLines, hh]
    unfold parseHeaderLine at hr hfields ⊢
    split_ifs at hr hfields ⊢
    · exact absurd rfl hr
    · simp only [hf] at hr hfields ⊢
      refine ⟨?_, fun g hg => ?_⟩
      · dsimp only
        rw [processHeader_target.1, processHeader_target.2]
        exact h.target
      · rcases hfields g hg with hg | rfl
        · exact h.fields g hg
        · exact ⟨fieldLine_printable hf, processHeader_targetBytes hr⟩
  | _ => exact ⟨h.target, h.fields⟩

theorem Completes.checked {fields : Fields} (h : Completes lim p text meth path fields) :
    TargetBytes path ∧ ∀ f ∈ fields, (∀ b ∈ f.2, badValueByte b = false) ∧
      (eqIgnoreAsciiCase f.1 (ascii "host") = true → TargetBytes f.2) := by
  obtain ⟨st, hparse, -, rfl, rfl, -⟩ := h
  have hfresh : Checked text (.fresh p) := ⟨fun b hb => absurd hb (by simp [ParseState.fresh,
    RequestParser.reset, slice]), fun f hf => absurd hf List.not_mem_nil⟩
  have hc := parse_advances (fun _ => parseStep_checked) hfresh hparse (by decide)
  exact ⟨hc.target, hc.fields⟩

end

/-! ### What the field rules admit -/

section

variable {s s' : Pseudo} {headers : Fields}

/-- Every field of an admitted head has passed the byte checks. -/
structure AdmittedField (f : Bytes × Bytes) : Prop where
  named : f.1 ≠ []
  value : validFieldValue f.2 = true
  name : f.1.head? ≠ some colon → validFieldName f.1 = true

theorem Pseudo.admitted_field {name val : Bytes} (h : s.field name val = some s') :
    AdmittedField (name, val) := by
  unfold Pseudo.field at h
  by_cases hne : name.isEmpty
  · simp [hne] at h
  · by_cases hv : validFieldValue val = true
    · refine ⟨by simpa using hne, hv, fun hc => ?_⟩
      by_contra hname
      simp [hne, hv, hc, hname] at h
    · simp [hne, hv] at h

theorem Pseudo.admitted_fields (h : s.fields headers = some s') :
    ∀ f ∈ headers, AdmittedField f := by
  induction headers generalizing s with
  | nil => exact fun f hf => absurd hf List.not_mem_nil
  | cons g rest ih =>
    obtain ⟨name, val⟩ := g
    simp only [Pseudo.fields] at h
    cases hg : s.field name val with
    | none =>
      rw [hg] at h
      cases h
    | some t =>
      rw [hg] at h
      intro f hf
      rcases List.mem_cons.mp hf with rfl | hf
      · exact Pseudo.admitted_field hg
      · exact ih h f hf

theorem Pseudo.classify_rhRequest (h : s.classify = .rhRequest) :
    isKnownMethod (s.meth.getD []) = true ∧ s.path.getD [] ≠ [] := by
  simp only [Pseudo.classify] at h
  split_ifs at h
  rename_i hknown hempty _
  simp only [Bool.or_eq_true, not_or] at hempty
  exact ⟨by simpa using hknown, by simpa using hempty.1⟩

theorem known_method (h : isKnownMethod meth = true) :
    (∃ m, parseMethod meth = some m) ∧ sp ∉ meth ∧ lf ∉ meth := by
  simp only [isKnownMethod, List.contains_iff_mem, List.mem_cons, List.not_mem_nil, or_false] at h
  rcases h with rfl | rfl | rfl | rfl | rfl | rfl | rfl | rfl | rfl <;>
    exact ⟨⟨_, rfl⟩, by decide, by decide⟩

theorem mem_regularFields {f : Bytes × Bytes} (h : f ∈ regularFields headers) :
    f ∈ headers ∧ f.1.head? ≠ some colon ∧ f.1 ≠ ascii "host" := by
  obtain ⟨hm, hp⟩ := List.mem_filter.mp h
  simp only [Bool.and_eq_true, bne_iff_ne] at hp
  exact ⟨hm, hp⟩

theorem AdmittedField.lineField {f : Bytes × Bytes} (h : AdmittedField f)
    (hcolon : f.1.head? ≠ some colon) (hvalue : ∀ b ∈ f.2, badValueByte b = false) :
    LineField f := by
  refine ⟨h.named, fun b hb => ?_, h.value, hvalue⟩
  have hb := List.all_eq_true.mp (h.name hcolon) b hb
  simp only [Bool.not_eq_true', Bool.or_eq_false_iff] at hb
  exact hb.2

end

theorem length_requestText_filter (keep : Bytes × Bytes → Bool) (meth path host : Bytes)
    (fs : Fields) :
    (requestText meth path host (fs.filter keep)).length ≤
      (requestText meth path host fs).length := by
  have hlines : (fieldLines (fs.filter keep)).length ≤ (fieldLines fs).length := by
    induction fs with
    | nil => exact le_rfl
    | cons f fs ih =>
      rw [List.filter_cons]
      split_ifs
      · simp only [fieldLines_cons, List.length_append]
        omega
      · simp only [fieldLines_cons, List.length_append]
        omega
  simp only [requestText, fieldLines_cons, List.length_append]
  omega

/-- A request with a cookie. -/
def cookieHead : Fields :=
  [(ascii ":method", ascii "GET"), (ascii ":scheme", ascii "https"), (ascii ":path", ascii "/"),
    (ascii ":authority", ascii "a"), (ascii "cookie", ascii "k=v")]

/-- Its pseudo-fields. -/
def cookiePseudo : Pseudo where
  meth := some (ascii "GET")
  path := some (ascii "/")
  scheme := some (ascii "https")
  authority := some (ascii "a")
  pseudoDone := true

/-- The status of a refusal. -/
def refusal : ParseOutcome → Option ℕ
  | .ok (.prError, st) => some st.parser.errorStatus
  | _ => none

end Http1

end Vortex
