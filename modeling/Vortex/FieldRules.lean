import Vortex.Bytes

/-! # Field rules shared by the three request paths

The leaf rules of `fieldrules.nim`: token delimiters, field name and value validity, the
`Content-Length` grammar, the response fields a handler may not set, and the pseudo-header
machine that classifies a decoded HTTP/2 or HTTP/3 request head. -/

namespace Vortex

/-- A decoded field list. -/
abbrev Fields := List (Bytes × Bytes)

def sp : UInt8 := 0x20
def htab : UInt8 := 0x09
def cr : UInt8 := 0x0d
def lf : UInt8 := 0x0a
def comma : UInt8 := 0x2c
def colon : UInt8 := 0x3a
def semicolon : UInt8 := 0x3b

/-- Optional whitespace. -/
def isOws (b : UInt8) : Bool := b == sp || b == htab

namespace FieldRules

/-- RFC 9110 5.6.2 token separators. -/
def tokenDelims : Bytes := ascii "\"(),/:;<=>?@[\\]\x7b\x7d"

def isUpper (b : UInt8) : Bool := 0x41 ≤ b && b ≤ 0x5a

/-- ASCII lower case. -/
def toLowerA (b : UInt8) : UInt8 := if isUpper b then b ||| 0x20 else b

/-- Case-insensitive equality against a lower-case literal. -/
def eqIgnoreAsciiCase (s lit : Bytes) : Bool := s.map toLowerA == lit

def isLowerAscii (s : Bytes) : Bool := s.all (fun b => !isUpper b)

/-- No NUL, CR or LF, and no blank at either end. -/
def validFieldValue (val : Bytes) : Bool :=
  val.all (fun b => !(b == 0x00 || b == lf || b == cr)) &&
    !(val.head?.any isOws) && !(val.getLast?.any isOws)

/-- The methods this server can route. -/
def isKnownMethod (m : Bytes) : Bool :=
  [ascii "GET", ascii "HEAD", ascii "POST", ascii "PUT", ascii "DELETE", ascii "PATCH",
    ascii "OPTIONS", ascii "TRACE", ascii "CONNECT"].contains m

/-- A byte that may not stand in a field name (whatever its case). -/
def badNameByte (b : UInt8) : Bool := b ≤ 0x20 || 0x7f ≤ b || tokenDelims.contains b

/-- A lower-case token (the empty name passes, as in the source). -/
def validFieldName (name : Bytes) : Bool := name.all (fun b => !(isUpper b || badNameByte b))

/-- Verdict on a `Content-Length` value. -/
inductive ContentLengthResult where
  | clOk (value : ℕ)
  | clMalformed
  | clOverflow
  | clConflict
deriving DecidableEq, Repr

/-- The largest `int64`. -/
def int64High : ℤ := 2 ^ 63 - 1

def isDigit (b : UInt8) : Bool := 0x30 ≤ b && b ≤ 0x39

/-- The digit loop of `parseContentLength`, from the value read so far. -/
def contentLengthLoop : Bytes → ℕ → ContentLengthResult
  | [], v => .clOk v
  | ch :: rest, v =>
      if !isDigit ch then .clMalformed
      else if (v : ℤ) > (int64High - 9) / 10 then .clOverflow
      else contentLengthLoop rest (v * 10 + (ch.toNat - 0x30))

/-- RFC 9110 8.6: `1*DIGIT`; `prev` is the length seen before, `-1` for none. -/
def parseContentLength (val : Bytes) (prev : ℤ) : ContentLengthResult :=
  if val.isEmpty then .clMalformed
  else
    match contentLengthLoop val 0 with
    | .clOk v => if 0 ≤ prev ∧ prev ≠ v then .clConflict else .clOk v
    | r => r

/-- The connection-specific names a response may not carry. -/
def isForbiddenResponseField (name : Bytes) (trailer : Bool) : Bool :=
  eqIgnoreAsciiCase name (ascii "connection") ||
  eqIgnoreAsciiCase name (ascii "proxy-connection") ||
  eqIgnoreAsciiCase name (ascii "keep-alive") ||
  eqIgnoreAsciiCase name (ascii "transfer-encoding") ||
  eqIgnoreAsciiCase name (ascii "upgrade") ||
  (trailer && eqIgnoreAsciiCase name (ascii "te"))

def forbiddenResponseTrailerField (name : Bytes) : Bool :=
  isForbiddenResponseField name true || eqIgnoreAsciiCase name (ascii "content-length")

/-- May a decoded request trailer field be stored? -/
def validTrailerField (name val : Bytes) : Bool :=
  !name.isEmpty && name.head? != some colon && validFieldName name && validFieldValue val &&
    !forbiddenResponseTrailerField name

/-- Verdict on a request head. -/
inductive RequestHeadClass where
  | rhInvalid
  | rhRequest
  | rhWebSocket
deriving DecidableEq, Repr

/-- The pseudo-header values collected while the fields are read; `none` is "not seen". -/
structure Pseudo where
  meth : Option Bytes := none
  path : Option Bytes := none
  scheme : Option Bytes := none
  authority : Option Bytes := none
  protocol : Option Bytes := none
  hasHost : Bool := false
  pseudoDone : Bool := false
deriving DecidableEq, Repr

/-- One field of the head: `none` when it makes the head malformed. -/
def Pseudo.field (s : Pseudo) (name val : Bytes) : Option Pseudo :=
  if name.isEmpty then none
  else if !validFieldValue val then none
  else if name.head? = some colon then
    if s.pseudoDone then none
    else if name = ascii ":method" then
      if s.meth.isSome then none else some { s with meth := some val }
    else if name = ascii ":path" then
      if s.path.isSome then none else some { s with path := some val }
    else if name = ascii ":scheme" then
      if s.scheme.isSome then none else some { s with scheme := some val }
    else if name = ascii ":authority" then
      if s.authority.isSome then none else some { s with authority := some val }
    else if name = ascii ":protocol" then
      if s.protocol.isSome then none else some { s with protocol := some val }
    else none
  else if !validFieldName name then none
  else some { s with pseudoDone := true, hasHost := s.hasHost || name == ascii "host" }

/-- The head after all its fields. -/
def Pseudo.fields : Pseudo → Fields → Option Pseudo
  | s, [] => some s
  | s, (name, val) :: rest =>
      match s.field name val with
      | none => none
      | some s' => Pseudo.fields s' rest

/-- The verdict once all fields are read. -/
def Pseudo.classify (s : Pseudo) : RequestHeadClass :=
  let meth := s.meth.getD []
  let path := s.path.getD []
  let scheme := s.scheme.getD []
  if meth = ascii "CONNECT" ∧ s.protocol.getD [] = ascii "websocket" then
    if path.isEmpty || scheme.isEmpty || s.authority.isNone then .rhInvalid else .rhWebSocket
  else if s.protocol.isSome then .rhInvalid
  else if meth = ascii "CONNECT" then .rhInvalid
  else if !isKnownMethod meth then .rhInvalid
  else if path.isEmpty || scheme.isEmpty then .rhInvalid
  else if (scheme == ascii "http" || scheme == ascii "https") && s.authority.isNone &&
      !s.hasHost then .rhInvalid
  else .rhRequest

/-- Classify a decoded request head; the pseudo-header values come with it. -/
def classifyRequestHead (headers : Fields) : RequestHeadClass × Pseudo :=
  match Pseudo.fields {} headers with
  | none => (.rhInvalid, {})
  | some s => (s.classify, s)

/-! ### The verdicts on a content length -/

/-- The decimal value of a string of digits, read on from `v`. -/
def digitsFrom (v : ℕ) (ds : Bytes) : ℕ := ds.foldl (fun v d => v * 10 + (d.toNat - 0x30)) v

/-- `1*DIGIT`. -/
def IsDigits (val : Bytes) : Prop := val ≠ [] ∧ val.all isDigit = true

/-- The overflow guard decides as the value does: the digits at the front stay below the last
values in range, which the guard does not admit, or the whole string is a number out of range. -/
def Guarded (val : Bytes) : Prop :=
  digitsFrom 0 (val.takeWhile isDigit) < 9223372036854775800 ∨
    val.all isDigit = true ∧ int64High < digitsFrom 0 val

instance (val : Bytes) : Decidable (Guarded val) := by
  unfold Guarded
  infer_instance

theorem le_digitsFrom (ds : Bytes) (v : ℕ) : v ≤ digitsFrom v ds := by
  induction ds generalizing v with
  | nil => exact le_refl v
  | cons d ds ih =>
    have h := ih (v * 10 + (d.toNat - 0x30))
    change v ≤ digitsFrom (v * 10 + (d.toNat - 0x30)) ds
    omega

theorem add_digit_le {v : ℕ} {ch : UInt8} (hd : isDigit ch = true)
    (hv : ¬ (v : ℤ) > (int64High - 9) / 10) :
    v * 10 + (ch.toNat - 0x30) < 9223372036854775800 := by
  have h : ch.toNat ≤ 0x39 := by
    simp only [isDigit, Bool.and_eq_true, decide_eq_true_eq, UInt8.le_iff_toNat_le] at hd
    exact hd.2
  unfold int64High at hv
  omega

theorem contentLengthLoop_eq (val : Bytes) {v : ℕ} (hv : v < 9223372036854775800) :
    contentLengthLoop val v =
      if digitsFrom v (val.takeWhile isDigit) < 9223372036854775800 then
        if val.all isDigit then .clOk (digitsFrom v val) else .clMalformed
      else .clOverflow := by
  induction val generalizing v with
  | nil => simp [contentLengthLoop, digitsFrom, hv]
  | cons ch rest ih =>
    unfold contentLengthLoop
    cases hd : isDigit ch with
    | false => simp [hd, digitsFrom, hv]
    | true =>
      have he (ds : Bytes) : digitsFrom v (ch :: ds) =
        digitsFrom (v * 10 + (ch.toNat - 0x30)) ds := rfl
      simp only [Bool.not_true, Bool.false_eq_true, if_false, List.all_cons, hd, Bool.true_and,
        List.takeWhile_cons_of_pos hd, he]
      by_cases hlim : (v : ℤ) > (int64High - 9) / 10
      · have h1 := le_digitsFrom (rest.takeWhile isDigit) (v * 10 + (ch.toNat - 0x30))
        rw [if_pos hlim, if_neg (by unfold int64High at hlim; omega)]
      · rw [if_neg hlim, ih (add_digit_le hd hlim)]

theorem parseContentLength_eq (val : Bytes) (prev : ℤ) : parseContentLength val prev =
    if val = [] then .clMalformed
    else if ¬ digitsFrom 0 (val.takeWhile isDigit) < 9223372036854775800 then .clOverflow
    else if val.all isDigit = false then .clMalformed
    else if 0 ≤ prev ∧ prev ≠ digitsFrom 0 val then .clConflict
    else .clOk (digitsFrom 0 val) := by
  unfold parseContentLength
  rw [contentLengthLoop_eq val (by decide)]
  by_cases h1 : val = []
  · simp [h1]
  · rw [if_neg (by simpa using h1), if_neg h1]
    by_cases h2 : digitsFrom 0 (val.takeWhile isDigit) < 9223372036854775800
    · cases h3 : val.all isDigit <;> simp [h2]
    · simp [h2]

/-- **When the verdict is the one of the value.**  The string is read as `1*DIGIT`, the number is
held against the range of `int64` and then against the length seen before, exactly when `Guarded`
holds; no value passes the range on the way. -/
theorem parseContentLength_exact (val : Bytes) (prev : ℤ) :
    (Guarded val ↔
      (parseContentLength val prev = .clMalformed ↔ ¬ IsDigits val) ∧
      (parseContentLength val prev = .clOverflow ↔ IsDigits val ∧ int64High < digitsFrom 0 val) ∧
      (parseContentLength val prev = .clConflict ↔ IsDigits val ∧
        digitsFrom 0 val ≤ int64High ∧ 0 ≤ prev ∧ prev ≠ digitsFrom 0 val) ∧
      ∀ n, parseContentLength val prev = .clOk n ↔ IsDigits val ∧
        digitsFrom 0 val ≤ int64High ∧ (0 ≤ prev → prev = digitsFrom 0 val) ∧
          n = digitsFrom 0 val) ∧
    ∀ front ch rest v, val = front ++ ch :: rest → contentLengthLoop front 0 = .clOk v →
      isDigit ch = true → ¬ (v : ℤ) > (int64High - 9) / 10 →
      ((v * 10 + (ch.toNat - 0x30) : ℕ) : ℤ) ≤ int64High := by
  refine ⟨?_, fun front ch rest v _ _ hd hv => ?_⟩
  · have hwhole : val.all isDigit = true → val.takeWhile isDigit = val := fun h =>
      List.takeWhile_eq_self_iff.mpr (List.all_eq_true.mp h)
    rw [parseContentLength_eq, Guarded, IsDigits]
    by_cases h1 : val = []
    · subst h1
      simp [digitsFrom]
    by_cases h2 : digitsFrom 0 (val.takeWhile isDigit) < 9223372036854775800
    · cases h3 : val.all isDigit with
      | false => simp [h1, h2]
      | true =>
        rw [hwhole h3] at h2 ⊢
        have h4 : (digitsFrom 0 val : ℤ) ≤ int64High := by
          unfold int64High
          omega
        by_cases h5 : 0 ≤ prev ∧ prev ≠ digitsFrom 0 val
        · simp [h1, h2, h4, h5, h4.not_gt]
        · have h6 : 0 ≤ prev → prev = digitsFrom 0 val := by tauto
          simpa [h1, h2, h4, h5, h4.not_gt, eq_comm] using h6
    · -- the guard has fired, which is right only of a number out of range
      simp only [h1, h2, if_false, not_false_eq_true, if_true]
      grind
  · have h := add_digit_le hd hv
    unfold int64High
    omega

theorem parseContentLength_exact_ten :
    Guarded (ascii "10") ∧ parseContentLength (ascii "10") 9 = .clConflict :=
  ⟨by decide, ((parseContentLength_exact (ascii "10") 9).1.mp (by decide)).2.2.1.mpr
    ⟨⟨by decide, by decide⟩, by decide, by decide, by decide⟩⟩

/-- The largest `int64` is taken for an overflow, and so is a string that goes on after twenty
digits with something else. -/
theorem parseContentLength_guard_early :
    parseContentLength (ascii "9223372036854775807") (-1) = .clOverflow ∧
      digitsFrom 0 (ascii "9223372036854775807") = int64High ∧
      parseContentLength (ascii "99999999999999999999x") (-1) = .clOverflow ∧
      ¬ IsDigits (ascii "99999999999999999999x") := by
  refine ⟨by decide, by decide, by decide, fun h => absurd h.2 (by decide)⟩

end FieldRules

end Vortex
