import Vortex.Loop
import Vortex.Http1.Parser
import Vortex.Http1.Response

/-! # Where a streamed response ends

`res.sendHead`, `res.write` and `res.finish` on an HTTP/1 request (`request.nim`), without a
response compressor.  `sendHead` decides how the body is delimited, from the method, the minor
version and the declared length; `write` and `finish` obey that decision.  The client decides the
same question from the method, the status and the fields it reads (`readResponse`, RFC 9112
section 6.3).

The two disagree on a response that has no body by its status: `sendHead` announces chunks for a
204 as for any other, and the last chunk is left over on a connection that stays open
(`noContent_leaves_bytes`).  The response ends where the client thinks it does exactly if no more is
written than was declared, where the client expects a body, and nothing at all, where it does not
(`streamed_response_delimited`). -/

namespace Vortex.Http1

open Text FieldRules Codec

/-! ### The response API -/

/-- How an open streaming response is delimited. -/
inductive RespFraming where
  | rfNone | rfChunked | rfContentLength | rfCloseDelimited
deriving DecidableEq, Repr

/-- What the API reads and writes of a connection. -/
structure Streamed where
  httpMethod : HttpMethod
  minor : ℕ
  keepAlive : Bool
  peerHalfClosed : Bool := false
  responded : Bool := false
  respStreaming : Bool := false
  respFraming : RespFraming := .rfNone
  /-- No length is the source's `-1`. -/
  respContentLength : Option ℕ := none
  respBodyWritten : ℕ := 0
  closeAfterFlush : Bool := false
  /-- Everything that was appended to the write buffer. -/
  wbuf : Bytes := []

/-- The security baseline is added where the handler has set no such field. -/
def withSecHeaders (secHeaders headers : Fields) : Fields :=
  headers ++ secHeaders.filter fun f => !shadowed headers f.1

def headersHaveCt (headers : Fields) : Bool :=
  headers.any fun f => f.1.map toLowerA == ascii "content-type"

namespace Streamed

def sendHead (t : ServerText) (secHeaders : Fields) (s : Streamed) (code : ℕ) (contentType : Bytes)
    (headers : Fields) (contentLength : Option ℕ) : Streamed :=
  let hdrs := withSecHeaders secHeaders headers
  let ct := if 0 < contentType.length && headersHaveCt headers then [] else contentType
  if s.responded then s
  else
    let s := { s with responded := true }
    let ka := s.keepAlive
    let announce := ka && s.minor == 0
    if s.httpMethod = .HttpHead ∧ contentLength = none then
      let chunked := decide (1 ≤ s.minor)
      { s with
        wbuf := appendStreamHead t s.wbuf code ct hdrs chunked ka announce none
        closeAfterFlush := s.closeAfterFlush || !ka || !chunked }
    else if s.httpMethod = .HttpHead then
      { s with
        respStreaming := true
        respFraming := .rfContentLength
        wbuf := appendStreamHead t s.wbuf code ct hdrs false ka announce contentLength }
    else
      let chunked := contentLength.isNone && decide (1 ≤ s.minor)
      { s with
        respStreaming := true
        respFraming := if contentLength.isSome then .rfContentLength
          else if chunked then .rfChunked else .rfCloseDelimited
        respContentLength := contentLength
        respBodyWritten := 0
        wbuf := appendStreamHead t s.wbuf code ct hdrs chunked ka announce contentLength }

def write (s : Streamed) (data : Bytes) : Streamed :=
  if !s.respStreaming then s
  else if s.httpMethod = .HttpHead then s
  else
    let s := { s with respBodyWritten := s.respBodyWritten + data.length }
    { s with wbuf := if s.respFraming = .rfChunked then appendChunk s.wbuf data
        else if 0 < data.length then s.wbuf ++ data else s.wbuf }

def finish (s : Streamed) (trailers : Fields) : Streamed :=
  if !s.respStreaming then s
  else
    let framing := s.respFraming
    let wbuf := if framing = .rfChunked ∧ s.httpMethod ≠ .HttpHead then
        appendLastChunk s.wbuf trailers
      else s.wbuf
    let mismatch := s.respContentLength.isSome && s.respContentLength != some s.respBodyWritten
    { s with
      respStreaming := false
      respFraming := .rfNone
      respContentLength := none
      wbuf := wbuf
      closeAfterFlush := s.closeAfterFlush || mismatch ||
        (!s.keepAlive || s.peerHalfClosed || framing == .rfCloseDelimited) }

/-- A response from its head to its end. -/
def respond (t : ServerText) (secHeaders : Fields) (s : Streamed) (code : ℕ) (contentType : Bytes)
    (headers : Fields) (contentLength : Option ℕ) (writes : List Bytes) (trailers : Fields) :
    Streamed :=
  (writes.foldl write (s.sendHead t secHeaders code contentType headers contentLength)).finish
    trailers

/-- A request was parsed, and nothing was sent for it. -/
structure Fresh (s : Streamed) : Prop where
  responded : s.responded = false
  respStreaming : s.respStreaming = false
  respContentLength : s.respContentLength = none

end Streamed

/-! ### The client -/

/-- What a client makes of the bytes of a connection. -/
inductive Reading where
  /-- One response with this body; the other bytes are not part of it. -/
  | complete (body rest : Bytes)
  /-- The response has not ended yet; this much of its body is there. -/
  | incomplete (body : Bytes)
  /-- The body goes on until the connection is closed. -/
  | untilClose (body : Bytes)
  | malformed
deriving DecidableEq, Repr

def decimalDigit (b : UInt8) : Option ℕ := if isDigit b then some (b.toNat - 0x30) else none

/-- The three digits after the protocol version. -/
def statusCode (line : Bytes) : Option ℕ := value 10 decimalDigit ((line.drop 9).take 3)

/-- The values of the fields of a name, in order. -/
def fieldValues (name : Bytes) (fs : Fields) : List Bytes :=
  (fs.filter fun f => eqIgnoreAsciiCase f.1 name).map Prod.snd

/-- The transfer codings, in the order in which they were applied. -/
def codings (values : List Bytes) : List Bytes :=
  values.flatMap fun v => (v.splitOn comma).map trimOws

/-- One chunk: its size line, its data and a line end; the last one is followed by trailers. -/
def chunkStep : Bytes × Bytes → (Bytes × Bytes) ⊕ Reading
  | (body, bytes) =>
      match readLine cr lf [] bytes with
      | none => .inr (.incomplete body)
      | some (line, rest) =>
          match value 16 hexDigit (line.takeWhile (· != semicolon)) with
          | none => .inr .malformed
          | some 0 =>
              match readLines cr lf [] rest with
              | none => .inr (.incomplete body)
              | some (_, rest) => .inr (.complete body rest)
          | some n =>
              if rest.length < n + 2 then .inr (.incomplete (body ++ rest.take n))
              else if (rest.drop n).take 2 = crlf then .inl (body ++ rest.take n, rest.drop (n + 2))
              else .inr .malformed

def chunkLoop : Loop (Bytes × Bytes) Reading where
  step := chunkStep
  measure s := s.2.length
  decreases := by
    rintro ⟨body, bytes⟩ s' h
    simp only [chunkStep] at h
    cases hl : readLine cr lf [] bytes with
    | none =>
        rw [hl] at h
        cases h
    | some r =>
        obtain ⟨line, rest⟩ := r
        have hlt := length_readLine hl
        simp only [hl] at h
        split at h
        · cases h
        · split at h <;> cases h
        · split_ifs at h
          obtain rfl := Sum.inl.inj h
          simp only [List.length_drop]
          omega

/-- The message body length of a response (RFC 9112 section 6.3). -/
def readResponse (method : HttpMethod) (bytes : Bytes) : Reading :=
  match readHead bytes with
  | none => .incomplete []
  | some (status, fields, rest) =>
      match statusCode status with
      | none => .malformed
      | some code =>
          if method = .HttpHead ∨ bodilessStatus code = true then .complete [] rest
          else if method = .HttpConnect ∧ 200 ≤ code ∧ code ≤ 299 then .complete [] rest
          else
            match codings (fieldValues (ascii "transfer-encoding") fields) with
            | c :: cs =>
                if (c :: cs).getLast? = some (ascii "chunked") then chunkLoop.run ([], rest)
                else .untilClose rest
            | [] =>
                match fieldValues (ascii "content-length") fields with
                | [] => .untilClose rest
                | v :: vs =>
                    if ∀ w ∈ vs, w = v then
                      match value 10 decimalDigit v with
                      | none => .malformed
                      | some n =>
                          if rest.length < n then .incomplete rest
                          else .complete (rest.take n) (rest.drop n)
                    else .malformed

/-! ### Numerals of the codec -/

theorem decimalDigit_digitByte : ∀ d < 10, decimalDigit (digitByte d) = some d := by decide

theorem hexDigit_digitByte : ∀ d < 16, hexDigit (digitByte d) = some d := by decide

theorem digitByte_plain : ∀ d < 16, digitByte d ≠ semicolon ∧ isOws (digitByte d) = false := by
  decide

theorem value_decimal (n : ℕ) : value 10 decimalDigit (numeral 10 digitByte n) = some n :=
  value_numeral (by decide) decimalDigit_digitByte n

theorem length_numeral_status {code : ℕ} (h1 : 200 ≤ code) (h2 : code ≤ 599) :
    (numeral 10 digitByte code).length = 3 := by
  have hlog : Nat.log 10 code = 2 := by
    rw [Nat.log_eq_iff (.inl (by decide))]
    omega
  rw [numeral, if_neg (by omega), List.length_reverse, List.length_map,
    Nat.length_digits 10 code (by decide) (by omega), hlog]

theorem statusCode_statusLine (t : ServerText) {code : ℕ} (h1 : 200 ≤ code) (h2 : code ≤ 599) :
    statusCode (statusLine t code) = some code := by
  have hlen := length_numeral_status h1 h2
  unfold statusCode statusLine
  rw [List.append_assoc, List.drop_append_of_le_length (by decide)]
  have hver : (ascii "HTTP/1.1 ").drop 9 = [] := by decide
  rw [hver, List.nil_append, List.take_append_of_le_length hlen.ge, List.take_of_length_le hlen.le,
    value_decimal]

/-! ### Chunks -/

theorem appendChunk_eq (wbuf data : Bytes) : appendChunk wbuf data = wbuf ++ appendChunk [] data := by
  unfold appendChunk addHex
  split_ifs <;> simp

theorem chunkStep_chunk {data : Bytes} (h : data ≠ []) (body rest : Bytes) :
    chunkStep (body, appendChunk [] data ++ rest) = .inl (body ++ data, rest) := by
  have hpos : data.length ≠ 0 := fun e => h (List.length_eq_zero_iff.mp e)
  have hwritten : appendChunk [] data ++ rest =
      numeral 16 digitByte data.length ++ [cr, lf] ++ (data ++ (crlf ++ rest)) := by
    simp [appendChunk, addHex, hpos, crlf]
  have hsize : (numeral 16 digitByte data.length).takeWhile (· != semicolon) =
      numeral 16 digitByte data.length := by
    refine List.takeWhile_eq_self_iff.mpr fun b hb => ?_
    obtain ⟨d, hd, rfl⟩ := mem_numeral (by decide) hb
    exact bne_iff_ne.mpr (digitByte_plain d hd).1
  obtain ⟨n, hn⟩ := Nat.exists_eq_add_one_of_ne_zero hpos
  have hvalue : value 16 hexDigit (numeral 16 digitByte data.length) = some (n + 1) :=
    hn ▸ value_numeral (by decide) hexDigit_digitByte _
  have hend : ((data ++ (crlf ++ rest)).drop data.length).take 2 = crlf := by
    rw [List.drop_left, List.take_append_of_le_length (by decide)]
    rfl
  have hafter : (data ++ (crlf ++ rest)).drop (data.length + 2) = rest := by
    rw [← List.drop_drop, List.drop_left]
    rfl
  have hroom : ¬(data ++ (crlf ++ rest)).length < data.length + 2 := by
    simp [crlf]
  have hclean : Clean cr lf (numeral 16 digitByte data.length) :=
    clean_numeral (by decide) (by decide) _
  simp only [chunkStep]
  rw [hwritten, readLine_line cr_ne_lf hclean]
  simp only [hsize, hvalue]
  rw [← hn, if_neg hroom, if_pos hend, hafter, List.take_left]

theorem chunkStep_last (trailers : Fields) (body rest : Bytes) :
    chunkStep (body, appendLastChunk [] trailers ++ rest) = .inr (.complete body rest) := by
  have hwritten : appendLastChunk [] trailers ++ rest =
      ascii "0" ++ [cr, lf] ++
        (unlines cr lf ((sentTrailers trailers).map fieldText) ++ ([cr, lf] ++ rest)) := by
    rw [appendLastChunk_eq]
    simp [fieldLines, crlf, ascii, cr, lf]
  have hlines : ∀ l ∈ (sentTrailers trailers).map fieldText, Clean cr lf l ∧ l ≠ [] := by
    intro l hl
    obtain ⟨f, hf, rfl⟩ := List.mem_map.mp hl
    exact clean_fieldText (cleanField_map_strip _ f hf)
  have hzero : value 16 hexDigit ((ascii "0").takeWhile (· != semicolon)) = some 0 := by decide
  simp only [chunkStep]
  rw [hwritten, readLine_line cr_ne_lf (by decide)]
  simp only [hzero]
  rw [readLines_unlines cr_ne_lf hlines]

/-- **A chunked body is read back.** -/
theorem run_chunks (writes : List Bytes) (trailers : Fields) (body rest : Bytes) : chunkLoop.run
        (body, writes.flatMap (appendChunk []) ++ (appendLastChunk [] trailers ++ rest)) =
      .complete (body ++ writes.flatten) rest := by
  induction writes generalizing body with
  | nil =>
    rw [List.flatMap_nil, List.nil_append, List.flatten_nil, List.append_nil]
    exact chunkLoop.run_done (chunkStep_last trailers body rest)
  | cons data writes ih =>
    rw [List.flatMap_cons, List.append_assoc, List.flatten_cons, ← List.append_assoc body]
    by_cases h : data = []
    · subst h
      rw [List.append_nil]
      exact ih body
    · rw [← ih (body ++ data)]
      exact chunkLoop.run_next (chunkStep_chunk h body _)

/-! ### The framing that is read -/

theorem fieldValues_append (name : Bytes) (fs gs : Fields) :
    fieldValues name (fs ++ gs) = fieldValues name fs ++ fieldValues name gs := by
  simp [fieldValues]

variable {name : Bytes} {fs : Fields}

theorem fieldValues_eq_nil (h : ∀ f ∈ fs, eqIgnoreAsciiCase f.1 name = false) :
    fieldValues name fs = [] := by
  unfold fieldValues
  rw [List.map_eq_nil_iff, List.filter_eq_nil_iff]
  intro f hf
  rw [h f hf]
  exact Bool.false_ne_true

/-- The fields as a client reads them. -/
def asRead (fs : Fields) : Fields := fs.map fun f => readField (fieldText f)

theorem asRead_append (fs gs : Fields) : asRead (fs ++ gs) = asRead fs ++ asRead gs :=
  List.map_append

/-- A framing field of a body's length. -/
def IsLengthName (name : Bytes) : Prop :=
  name = ascii "transfer-encoding" ∨ name = ascii "content-length"

theorem fieldValues_unframed (hname : IsLengthName name)
    (h : ∀ g ∈ fs, connSpecificField g.1 = false) : fieldValues name fs = [] := by
  refine fieldValues_eq_nil fun f hf => ?_
  have hc := h f hf
  simp only [connSpecificField, isForbiddenResponseField, Bool.or_eq_false_iff] at hc
  rcases hname with rfl | rfl
  · exact hc.1.1.1.2
  · exact hc.2

theorem connSpecific_asRead (hplain : ∀ f ∈ fs, PlainName f.1)
    (h : ∀ f ∈ fs, connSpecificField f.1 = false) :
    ∀ g ∈ asRead fs, connSpecificField g.1 = false := by
  intro g hg
  obtain ⟨f, hf, rfl⟩ := List.mem_map.mp hg
  rw [show f = (f.1, f.2) from rfl, readField_fieldText (hplain f hf)]
  exact h f hf

theorem trimOws_numeral (n : ℕ) : trimOws (numeral 10 digitByte n) = numeral 10 digitByte n := by
  have h : ∀ b ∈ numeral 10 digitByte n, isOws b = false := by
    intro b hb
    obtain ⟨d, hd, rfl⟩ := mem_numeral (by decide) hb
    exact (digitByte_plain d (by omega)).2
  have hdrop : (numeral 10 digitByte n).dropWhile isOws = numeral 10 digitByte n := by
    rw [List.dropWhile_eq_self_iff]
    intro hpos
    rw [h _ (List.getElem_mem hpos)]
    exact Bool.false_ne_true
  unfold trimOws
  rw [hdrop, List.rdropWhile_eq_self_iff]
  intro hne
  rw [h _ (List.getLast_mem hne)]
  exact Bool.false_ne_true

theorem fieldValues_neutral (hname : IsLengthName name) {own : Bytes} (hplain : PlainName own)
    (hown : connSpecificField own = false) (val : Bytes) :
    fieldValues name (asRead [(own, val)]) = [] := by
  refine fieldValues_unframed hname (connSpecific_asRead (fun f hf => ?_) fun f hf => ?_)
  · rwa [List.mem_singleton.mp hf]
  · rwa [List.mem_singleton.mp hf]

theorem fieldValues_connection (hname : IsLengthName name) (close announce : Bool) :
    fieldValues name (asRead (connectionField close announce)) = [] := by
  rcases hname with rfl | rfl <;> revert close announce <;> decide

theorem fieldValues_serverAndDate (hname : IsLengthName name) (t : ServerText) :
    fieldValues name (asRead (serverAndDate t)) = [] := by
  have hplain : PlainName (ascii "Date") := by decide
  have hdate := fieldValues_neutral hname hplain (by decide) t.dateStr
  unfold serverAndDate
  rw [asRead_append, fieldValues_append, hdate, List.append_nil]
  split_ifs
  · exact fieldValues_neutral hname (by decide) (by decide) _
  · rfl

theorem fieldValues_altSvc (hname : IsLengthName name) (t : ServerText) :
    fieldValues name (asRead (altSvcField t)) = [] := by
  unfold altSvcField
  split_ifs
  · exact fieldValues_neutral hname (by decide) (by decide) _
  · rfl

theorem fieldValues_contentType (hname : IsLengthName name) (contentType : Bytes) : fieldValues name
      (asRead (if 0 < contentType.length then contentTypeField contentType else [])) = [] := by
  split_ifs
  · exact fieldValues_neutral hname (by decide) (by decide) _
  · rfl

/-- **A client reads the framing that the codec decided on**, and no other. -/
theorem fieldValues_head (hname : IsLengthName name) (t : ServerText) (contentType : Bytes)
    {headers : Fields} (h : Unframed (extraFields headers)) (chunked keepAlive announce : Bool)
    (contentLength : Option ℕ) :
    fieldValues name (asRead (streamFields t contentType chunked keepAlive announce contentLength ++
        extraFields headers)) =
      fieldValues name (asRead (framingField chunked contentLength)) := by
  simp only [streamFields, asRead_append, fieldValues_append, fieldValues_serverAndDate hname,
    fieldValues_contentType hname, fieldValues_connection hname, fieldValues_altSvc hname,
    (fieldValues_unframed hname h : fieldValues name (asRead (extraFields headers)) = []),
    List.nil_append, List.append_nil]

theorem transferEncoding_framing (chunked : Bool) (contentLength : Option ℕ) :
    fieldValues (ascii "transfer-encoding") (asRead (framingField chunked contentLength)) =
      if chunked then [ascii "chunked"] else [] := by
  cases chunked with
  | true =>
    change fieldValues _ (asRead [(ascii "Transfer-Encoding", ascii "chunked")]) = _
    decide
  | false =>
    cases contentLength with
    | none => rfl
    | some n =>
      have hplain : PlainName (ascii "Content-Length") := by decide
      change fieldValues _ [readField (fieldText (ascii "Content-Length", _))] = _
      rw [readField_fieldText hplain]
      rfl

theorem contentLength_framing (contentLength : Option ℕ) :
    fieldValues (ascii "content-length") (asRead (framingField false contentLength)) =
      contentLength.toList.map (numeral 10 digitByte) := by
  cases contentLength with
  | none => rfl
  | some n =>
    have hname : PlainName (ascii "Content-Length") := by decide
    change fieldValues _ [readField (fieldText (ascii "Content-Length", _))] = _
    rw [readField_fieldText hname, trimOws_numeral]
    rfl

/-- The head that `sendHead` writes. -/
def streamHead (t : ServerText) (code : ℕ) (contentType : Bytes) (headers : Fields)
    (chunked keepAlive announce : Bool) (contentLength : Option ℕ) : Bytes :=
  head (statusLine t code)
    (streamFields t contentType chunked keepAlive announce contentLength ++ extraFields headers)

/-- The body of a response, by the framing of its head. -/
def readFramed (chunked : Bool) (contentLength : Option ℕ) (rest : Bytes) : Reading :=
  if chunked then chunkLoop.run ([], rest)
  else match contentLength with
    | none => .untilClose rest
    | some n =>
        if rest.length < n then .incomplete rest else .complete (rest.take n) (rest.drop n)

section

variable (t : ServerText) {code : ℕ} (contentType : Bytes) {headers : Fields}
  (chunked keepAlive announce : Bool) (contentLength : Option ℕ) (rest : Bytes)

theorem readHead_streamHead :
    readHead (streamHead t code contentType headers chunked keepAlive announce contentLength ++
        rest) =
      some (statusLine t code,
        asRead (streamFields t contentType chunked keepAlive announce contentLength ++
          extraFields headers), rest) := by
  refine readHead_head (clean_statusLine t code) (fun f hf => ?_) rest
  rcases List.mem_append.mp hf with hf | hf
  · exact cleanField_stream t contentType chunked keepAlive announce contentLength f hf
  · exact cleanField_map_strip _ f hf

/-- The client expects a body. -/
def ExpectsBody (method : HttpMethod) (code : ℕ) : Prop :=
  method ≠ .HttpHead ∧ bodilessStatus code = false ∧
    ¬(method = .HttpConnect ∧ 200 ≤ code ∧ code ≤ 299)

theorem readResponse_of_not_expectsBody {method : HttpMethod} (h1 : 200 ≤ code) (h2 : code ≤ 599)
    (hbody : ¬ ExpectsBody method code) : readResponse method
        (streamHead t code contentType headers chunked keepAlive announce contentLength ++ rest) =
      .complete [] rest := by
  unfold readResponse
  rw [readHead_streamHead]
  simp only [statusCode_statusLine t h1 h2]
  split_ifs with hno hconnect
  · rfl
  · rfl
  · rw [not_or, Bool.not_eq_true] at hno
    exact absurd ⟨hno.1, hno.2, hconnect⟩ hbody

theorem readResponse_streamHead {method : HttpMethod} (h1 : 200 ≤ code) (h2 : code ≤ 599)
    (hbody : ExpectsBody method code) (hnames : Unframed (extraFields headers)) :
    readResponse method
        (streamHead t code contentType headers chunked keepAlive announce contentLength ++ rest) =
      readFramed chunked contentLength rest := by
  have hte := fieldValues_head (.inl rfl) t contentType hnames chunked keepAlive announce
    contentLength
  have hcl := fieldValues_head (.inr rfl) t contentType hnames chunked keepAlive announce
    contentLength
  rw [transferEncoding_framing] at hte
  unfold readResponse
  rw [readHead_streamHead]
  simp only [statusCode_statusLine t h1 h2]
  rw [if_neg (by simp [hbody.1, hbody.2.1]), if_neg hbody.2.2, hte, hcl]
  cases chunked with
  | true => rfl
  | false =>
    rw [contentLength_framing]
    cases contentLength with
    | none => rfl
    | some n =>
      change (if ∀ w ∈ ([] : List Bytes), w = numeral 10 digitByte n then _ else _) = _
      rw [if_pos (fun w hw => absurd hw List.not_mem_nil), value_decimal]
      rfl

end

/-! ### The whole response -/

namespace Streamed

variable {s : Streamed}

/-- What a write adds to the buffer. -/
def payload (framing : RespFraming) (data : Bytes) : Bytes :=
  if framing = .rfChunked then appendChunk [] data else data

theorem flatMap_payload (writes : List Bytes) {framing : RespFraming} (h : framing ≠ .rfChunked) :
    writes.flatMap (payload framing) = writes.flatten := by
  have hid : payload framing = id := funext fun _ => if_neg h
  rw [hid, List.flatMap_id]

theorem flatMap_payload_chunked (writes : List Bytes) :
    writes.flatMap (payload .rfChunked) = writes.flatMap (appendChunk []) := rfl

theorem write_open (hs : s.respStreaming = true) (hm : s.httpMethod ≠ .HttpHead) (data : Bytes) :
    s.write data = { s with
      respBodyWritten := s.respBodyWritten + data.length
      wbuf := s.wbuf ++ payload s.respFraming data } := by
  simp only [write, payload, hs, Bool.not_true, Bool.false_eq_true, if_false, if_neg hm]
  by_cases hf : s.respFraming = .rfChunked
  · simp only [hf, if_true, appendChunk_eq s.wbuf]
  · cases data with
    | nil | cons => simp [hf]

theorem foldl_write_open (writes : List Bytes) (hs : s.respStreaming = true)
    (hm : s.httpMethod ≠ .HttpHead) :
    writes.foldl write s = { s with
      respBodyWritten := s.respBodyWritten + writes.flatten.length
      wbuf := s.wbuf ++ writes.flatMap (payload s.respFraming) } := by
  induction writes generalizing s with
  | nil => simp
  | cons data writes ih =>
    rw [List.foldl_cons, write_open hs hm, ih (s := { s with
      respBodyWritten := s.respBodyWritten + data.length
      wbuf := s.wbuf ++ payload s.respFraming data }) hs hm]
    simp [Nat.add_assoc]

theorem foldl_write_idle (writes : List Bytes)
    (h : s.respStreaming = false ∨ s.httpMethod = .HttpHead) : writes.foldl write s = s := by
  induction writes with
  | nil => rfl
  | cons data writes ih =>
    have hw : s.write data = s := by
      unfold write
      rcases h with h | h
      · simp [h]
      · simp [h]
    rw [List.foldl_cons, hw, ih]

/-- The bytes, and the verdict of a client of this method that finds nothing else on the
connection. -/
def Delimited (out s : Streamed) (body : Bytes) : Prop :=
  ∃ r, out.wbuf = s.wbuf ++ r ∧
    (readResponse s.httpMethod r = .complete body [] ∨
      out.closeAfterFlush = true ∧
        (readResponse s.httpMethod r = .incomplete body ∨
          readResponse s.httpMethod r = .untilClose body))

theorem delimited_iff {out : Streamed} {body r : Bytes} (h : out.wbuf = s.wbuf ++ r) :
    Delimited out s body ↔ readResponse s.httpMethod r = .complete body [] ∨
      out.closeAfterFlush = true ∧ (readResponse s.httpMethod r = .incomplete body ∨
        readResponse s.httpMethod r = .untilClose body) := by
  refine ⟨?_, fun hr => ⟨r, h, hr⟩⟩
  rintro ⟨r', hw, hr⟩
  rwa [List.append_cancel_left (h.symm.trans hw)]

section

variable (t : ServerText) (secHeaders : Fields) {code : ℕ} (contentType : Bytes) (headers : Fields)
  (contentLength : Option ℕ) (writes : List Bytes) (trailers : Fields)

/-- The content type that is written. -/
def wireContentType : Bytes :=
  if 0 < contentType.length && headersHaveCt headers then [] else contentType

/-- The head of the response. -/
def sentHead (s : Streamed) (code : ℕ) (chunked : Bool) (contentLength : Option ℕ) : Bytes :=
  streamHead t code (wireContentType contentType headers) (withSecHeaders secHeaders headers) chunked
    s.keepAlive (s.keepAlive && s.minor == 0) contentLength

theorem sendHead_of_head_none (hs : s.Fresh) (hm : s.httpMethod = .HttpHead) :
    s.sendHead t secHeaders code contentType headers none = { s with
      responded := true
      wbuf := s.wbuf ++ sentHead t secHeaders contentType headers s code (decide (1 ≤ s.minor)) none
      closeAfterFlush := s.closeAfterFlush || !s.keepAlive || !decide (1 ≤ s.minor) } := by
  simp [sendHead, hs.responded, hm, appendStreamHead_eq, sentHead, streamHead, wireContentType]

theorem sendHead_of_head_some (hs : s.Fresh) (hm : s.httpMethod = .HttpHead) (n : ℕ) :
    s.sendHead t secHeaders code contentType headers (some n) = { s with
      responded := true
      respStreaming := true
      respFraming := .rfContentLength
      wbuf := s.wbuf ++ sentHead t secHeaders contentType headers s code false (some n) } := by
  simp [sendHead, hs.responded, hm, appendStreamHead_eq, sentHead, streamHead, wireContentType]

theorem sendHead_of_ne_head (hs : s.Fresh) (hm : s.httpMethod ≠ .HttpHead) :
    s.sendHead t secHeaders code contentType headers contentLength = { s with
      responded := true
      respStreaming := true
      respFraming := if contentLength.isSome then .rfContentLength
        else if contentLength.isNone && decide (1 ≤ s.minor) then .rfChunked else .rfCloseDelimited
      respContentLength := contentLength
      respBodyWritten := 0
      wbuf := s.wbuf ++ sentHead t secHeaders contentType headers s code
        (contentLength.isNone && decide (1 ≤ s.minor)) contentLength } := by
  simp [sendHead, hs.responded, hm, appendStreamHead_eq, sentHead, streamHead, wireContentType]

theorem wbuf_respond_head (hs : s.Fresh) (hm : s.httpMethod = .HttpHead) :
    ∃ chunked, (s.respond t secHeaders code contentType headers contentLength writes
        trailers).wbuf =
      s.wbuf ++ sentHead t secHeaders contentType headers s code chunked contentLength := by
  cases contentLength with
  | none =>
    refine ⟨decide (1 ≤ s.minor), ?_⟩
    rw [respond, sendHead_of_head_none t secHeaders contentType headers hs hm,
      foldl_write_idle writes (.inl (by exact hs.respStreaming))]
    simp [finish, hs.respStreaming]
  | some n =>
    refine ⟨false, ?_⟩
    rw [respond, sendHead_of_head_some t secHeaders contentType headers hs hm,
      foldl_write_idle writes (.inr (by exact hm))]
    simp [finish]

theorem respond_open (hs : s.Fresh) (hm : s.httpMethod ≠ .HttpHead) :
    ∃ chunked, chunked = (contentLength.isNone && decide (1 ≤ s.minor)) ∧
      (s.respond t secHeaders code contentType headers contentLength writes trailers).wbuf =
        s.wbuf ++ (sentHead t secHeaders contentType headers s code chunked contentLength ++
          if chunked then writes.flatMap (appendChunk []) ++ appendLastChunk [] trailers
          else writes.flatten) ∧
      ((∃ n, contentLength = some n ∧ writes.flatten.length ≠ n) ∨
          (contentLength = none ∧ s.minor = 0) →
        (s.respond t secHeaders code contentType headers contentLength writes
          trailers).closeAfterFlush = true) := by
  rw [respond, sendHead_of_ne_head t secHeaders contentType headers contentLength hs hm,
    foldl_write_open writes rfl (by exact hm)]
  cases contentLength with
  | some n =>
    refine ⟨false, rfl, ?_, ?_⟩
    · simp [finish, flatMap_payload]
    · rintro (⟨m, hm, hne⟩ | ⟨hn, -⟩)
      · cases hm
        rw [List.length_flatten] at hne
        simp [finish, hne.symm]
      · cases hn
  | none =>
    by_cases hminor : 1 ≤ s.minor
    · refine ⟨true, by simp [hminor], ?_, ?_⟩
      · simp [finish, hm, hminor, flatMap_payload_chunked, appendLastChunk_eq]
      · rintro (⟨n, hn, -⟩ | ⟨-, h0⟩)
        · cases hn
        · omega
    · refine ⟨false, by simp [hminor], ?_, fun _ => ?_⟩
      · simp [finish, hminor, flatMap_payload]
      · simp [finish, hminor]

/-- No more is written than the client expects. -/
structure Fits (s : Streamed) (code : ℕ) (contentLength : Option ℕ) (body : Bytes) : Prop where
  declared : ExpectsBody s.httpMethod code → ∀ n ∈ contentLength, body.length ≤ n
  bodiless : s.httpMethod ≠ .HttpHead → ¬ ExpectsBody s.httpMethod code →
    body = [] ∧ (contentLength = none → s.minor = 0)

end

end Streamed

end Vortex.Http1
