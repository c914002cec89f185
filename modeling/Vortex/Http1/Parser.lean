import Vortex.Loop
import Vortex.FieldRules

/-! # The HTTP/1 request parser

A translation of `http1/parser.nim`.  The receive buffer is the list of the bytes received so
far, so `dataEnd` is its length and `parse` is called again on a longer list after each read.

* The parser records slices (`HeaderSlice`) into that buffer; their offsets are naturals here
  and `int32` in the source, the same thing for a buffer shorter than 2^31 bytes.
* `parse` is a `while true` loop over nine phases; `parseStep` is its body and `parse` the
  `Loop` of it (every iteration that stays in the loop consumes input, `parseStep_measure`).
* The sum `int64(chunkBody.len) + size` is a checked addition: when it leaves the `int64`
  range the call raises (`Defect.overflow`) instead of returning a verdict.  The shift that
  accumulates the size is unchecked and wraps (`wrap64`). -/

namespace Vortex.Http1

open Vortex.FieldRules

inductive ParseResult where
  | prNeedMore
  | prComplete
  | prError
deriving DecidableEq, Repr

inductive ParsePhase where
  | ppReqLine | ppHeaders | ppBody
  | ppChunkSize | ppChunkData | ppChunkCRLF | ppTrailers
  | ppComplete | ppError
deriving DecidableEq, Repr

inductive HttpMethod where
  | HttpHead | HttpGet | HttpPost | HttpPut | HttpDelete | HttpTrace | HttpOptions | HttpConnect
  | HttpPatch
deriving DecidableEq, Repr

/-- A run-time error of the source language: a checked integer operation out of range. -/
inductive Defect where
  | overflow
deriving DecidableEq, Repr

structure HeaderSlice where
  nameStart : ℕ
  nameLen : ℕ
  valStart : ℕ
  valLen : ℕ
deriving DecidableEq, Repr

structure ParserLimits where
  maxHeaderSize : ℤ
  maxHeaderCount : ℤ
  maxBodySize : ℤ
deriving DecidableEq, Repr

structure RequestParser where
  phase : ParsePhase := .ppReqLine
  reqStart : ℕ := 0
  pos : ℕ := 0
  httpMethod : HttpMethod := .HttpHead
  pathStart : ℕ := 0
  pathLen : ℕ := 0
  minor : ℕ := 0
  headers : List HeaderSlice := []
  trailers : List HeaderSlice := []
  contentLength : ℤ := 0
  chunked : Bool := false
  keepAlive : Bool := false
  expectContinue : Bool := false
  bodyStart : ℕ := 0
  bodyLen : ℕ := 0
  chunkRemaining : ℕ := 0
  trailerCount : ℕ := 0
  seenContentLength : Bool := false
  seenTE : Bool := false
  seenHost : Bool := false
  errorStatus : ℕ := 0
deriving DecidableEq, Repr

/-- The field names a trailer section may not carry. -/
def disallowedTrailers : List Bytes :=
  ["transfer-encoding", "content-length", "host", "trailer", "te", "connection", "keep-alive",
    "upgrade", "content-encoding", "content-type", "content-range", "authorization",
    "proxy-authorization", "www-authenticate", "proxy-authenticate", "set-cookie",
    "cache-control", "expect", "pragma", "range", "max-forwards"].map ascii

namespace RequestParser

/-- The head is parsed and body bytes are pending. -/
def inBody (p : RequestParser) : Bool :=
  [.ppBody, .ppChunkSize, .ppChunkData, .ppChunkCRLF, .ppTrailers].contains p.phase

/-- Some bytes of the current request have been consumed. -/
def started (p : RequestParser) : Bool := p.phase != .ppReqLine || p.pos != p.reqStart

/-- Prepare for the next request, which begins at `reqStart`. -/
def reset (p : RequestParser) (reqStart : ℕ) : RequestParser :=
  { p with
    phase := .ppReqLine, reqStart := reqStart, pos := reqStart, pathStart := 0, pathLen := 0,
    minor := 1, headers := [], trailers := [], contentLength := -1, chunked := false,
    keepAlive := true, expectContinue := false, bodyStart := 0, bodyLen := 0,
    chunkRemaining := 0, trailerCount := 0, seenContentLength := false, seenTE := false,
    seenHost := false }

def fail (p : RequestParser) (status : ℕ) : ParseResult × RequestParser :=
  (.prError, { p with phase := .ppError, errorStatus := status })

end RequestParser

/-! ### The request line -/

/-- Methods are compared exactly, case included. -/
def parseMethod (m : Bytes) : Option HttpMethod :=
  if m = ascii "GET" then some .HttpGet
  else if m = ascii "PUT" then some .HttpPut
  else if m = ascii "POST" then some .HttpPost
  else if m = ascii "HEAD" then some .HttpHead
  else if m = ascii "PATCH" then some .HttpPatch
  else if m = ascii "TRACE" then some .HttpTrace
  else if m = ascii "DELETE" then some .HttpDelete
  else if m = ascii "OPTIONS" then some .HttpOptions
  else if m = ascii "CONNECT" then some .HttpConnect
  else none

/-- The version, exactly `HTTP/1.0` or `HTTP/1.1`; the phase moves on to the headers. -/
def parseVersion (p : RequestParser) (v : Bytes) : ParseResult × RequestParser :=
  match v with
  | [v0, v1, v2, v3, v4, major, dot, minor] =>
      if [v0, v1, v2, v3, v4] = ascii "HTTP/" ∧ dot = 0x2e then
        if major ≠ 0x31 then p.fail 505
        else if minor = 0x30 then
          (.prNeedMore, { p with minor := 0, keepAlive := false, phase := .ppHeaders })
        else if minor = 0x31 then
          (.prNeedMore, { p with minor := 1, keepAlive := true, phase := .ppHeaders })
        else p.fail 505
      else p.fail 400
  | _ => p.fail 400

/-- `line` is the request line `buf[p.pos ..< lineEnd]`, without its CRLF. -/
def parseReqLine (p : RequestParser) (line : Bytes) : ParseResult × RequestParser :=
  match findByte line 0 line.length sp with
  | none => p.fail 400
  | some sp1 =>
      match parseMethod (slice line 0 sp1) with
      | none => p.fail 501
      | some m =>
          let p := { p with httpMethod := m }
          match findByte line (sp1 + 1) line.length sp with
          | none => p.fail 400
          | some sp2 =>
              if sp2 = sp1 + 1 then p.fail 400
              else if (slice line (sp1 + 1) sp2).any (fun b => b < 0x21 || b == 0x7f) then
                p.fail 400
              else
                parseVersion
                  { p with pathStart := p.pos + sp1 + 1, pathLen := sp2 - sp1 - 1 }
                  (slice line (sp2 + 1) line.length)

/-! ### Header lines -/

/-- Does a comma-separated list value contain the token?  Each round reads one token. -/
def hasTokenLoop (token : Bytes) : ℕ → Bytes → Bool
  | 0, _ => false
  | n + 1, v =>
      let v := v.dropWhile (fun b => isOws b || b == comma)
      let tok := v.takeWhile (fun b => !(isOws b || b == comma))
      if v.isEmpty then false
      else if eqIgnoreAsciiCase tok token then true
      else hasTokenLoop token n (v.drop tok.length)

def hasToken (v token : Bytes) : Bool := hasTokenLoop token v.length v

/-- What the walk over a `Transfer-Encoding` value remembers. -/
structure CodingList where
  codings : ℕ := 0
  prevChunked : Bool := false
  lastChunked : Bool := false
  chunkedNonFinal : Bool := false
deriving DecidableEq, Repr

/-- One coding: its name decides `chunked`, its parameters are skipped. -/
def CodingList.add (s : CodingList) (name : Bytes) : CodingList :=
  let isChunked := eqIgnoreAsciiCase name (ascii "chunked")
  { codings := s.codings + 1, prevChunked := isChunked, lastChunked := isChunked,
    chunkedNonFinal := s.chunkedNonFinal || s.prevChunked }

/-- The walk over the comma-separated transfer codings, one coding a round. -/
def codingLoop : ℕ → Bytes → CodingList → CodingList
  | 0, _, s => s
  | n + 1, v, s =>
      let v := v.dropWhile (fun b => isOws b || b == comma)
      if v.isEmpty then s
      else
        let name := v.takeWhile (fun b => !(isOws b || b == comma || b == semicolon))
        codingLoop n ((v.drop name.length).dropWhile (· != comma)) (s.add name)

def transferCodings (v : Bytes) : CodingList := codingLoop v.length v {}

/-- The connection-management headers, as they are parsed. -/
def processHeader (p : RequestParser) (name val : Bytes) : ParseResult × RequestParser :=
  if eqIgnoreAsciiCase name (ascii "content-length") then
    if p.seenContentLength || p.chunked then p.fail 400
    else
      match parseContentLength val (-1) with
      | .clOk v => (.prNeedMore, { p with contentLength := v, seenContentLength := true })
      | .clOverflow => p.fail 413
      | _ => p.fail 400
  else if eqIgnoreAsciiCase name (ascii "transfer-encoding") then
    if p.seenContentLength then p.fail 400
    else if p.seenTE then p.fail 400
    else
      let p := { p with seenTE := true }
      if p.minor = 0 then p.fail 400
      else
        let s := transferCodings val
        if s.codings = 0 ∨ s.chunkedNonFinal then p.fail 400
        else if s.lastChunked then (.prNeedMore, { p with chunked := true })
        else p.fail 501
  else if eqIgnoreAsciiCase name (ascii "connection") then
    if hasToken val (ascii "close") then (.prNeedMore, { p with keepAlive := false })
    else if hasToken val (ascii "keep-alive") then (.prNeedMore, { p with keepAlive := true })
    else (.prNeedMore, p)
  else if eqIgnoreAsciiCase name (ascii "expect") then
    if 1 ≤ p.minor ∧ eqIgnoreAsciiCase val (ascii "100-continue") then
      (.prNeedMore, { p with expectContinue := true })
    else (.prNeedMore, p)
  else if eqIgnoreAsciiCase name (ascii "host") then
    if p.seenHost then p.fail 400
    else
      let p := { p with seenHost := true }
      if val.any (fun b => b ≤ 0x20 || b == 0x7f) then p.fail 400 else (.prNeedMore, p)
  else (.prNeedMore, p)

/-- A control byte that may not stand in a field value or a chunk extension. -/
def badValueByte (b : UInt8) : Bool := (b < 0x20 && b != htab) || b == 0x7f

/-- Cut a field line at offset `base` of the buffer into its name and trimmed value; `none`
if it has no colon, no name, a name that is no token or a control byte in its value.  Header
and trailer lines are cut alike. -/
def fieldLine (base : ℕ) (line : Bytes) : Option HeaderSlice :=
  match findByte line 0 line.length colon with
  | none => none
  | some c =>
      if c = 0 then none
      else if (line.take c).any badNameByte then none
      else
        let rest := line.drop (c + 1)
        let val := (rest.dropWhile isOws).rdropWhile isOws
        if val.any badValueByte then none
        else some {
          nameStart := base
          nameLen := c
          valStart := base + c + 1 + (rest.takeWhile isOws).length
          valLen := val.length }

/-- The name and value bytes of a slice, read from the buffer. -/
def HeaderSlice.name (h : HeaderSlice) (buf : Bytes) : Bytes :=
  slice buf h.nameStart (h.nameStart + h.nameLen)

def HeaderSlice.val (h : HeaderSlice) (buf : Bytes) : Bytes :=
  slice buf h.valStart (h.valStart + h.valLen)

/-- A header line `buf[p.pos ..< lineEnd]`. -/
def parseHeaderLine (lim : ParserLimits) (buf : Bytes) (p : RequestParser) (lineEnd : ℕ) :
    ParseResult × RequestParser :=
  if (p.headers.length : ℤ) ≥ lim.maxHeaderCount then p.fail 431
  else
    match fieldLine p.pos (slice buf p.pos lineEnd) with
    | none => p.fail 400
    | some h =>
        processHeader { p with headers := p.headers ++ [h] } (h.name buf) (h.val buf)

/-! ### Chunk sizes -/

/-- Wrap-around of an `int64` result. -/
def wrap64 (x : ℤ) : ℤ := (x + 2 ^ 63) % 2 ^ 64 - 2 ^ 63

/-- The value of a hexadecimal digit. -/
def hexDigit (c : UInt8) : Option ℕ :=
  if 0x30 ≤ c ∧ c ≤ 0x39 then some (c.toNat - 0x30)
  else if 0x61 ≤ c ∧ c ≤ 0x66 then some (c.toNat - 0x61 + 10)
  else if 0x41 ≤ c ∧ c ≤ 0x46 then some (c.toNat - 0x41 + 10)
  else none

/-- The digit loop of a chunk-size line: the size and the number of digits, or the status to
fail with.  `size shl 4 or d` is `size * 16 + d`, since the shift clears the low digit. -/
def sizeLoop : Bytes → ℤ → ℕ → Except ℕ (ℤ × ℕ)
  | [], size, digits => .ok (size, digits)
  | c :: rest, size, digits =>
      match hexDigit c with
      | some d =>
          if size > (int64High - 15) / 16 then .error 413
          else sizeLoop rest (wrap64 (size * 16) + d) (digits + 1)
      | none =>
          if c = semicolon then
            if rest.any badValueByte then .error 400 else .ok (size, digits)
          else .error 400

/-- The size a chunk-size line (without CRLF) announces. -/
def chunkSize (line : Bytes) : Except ℕ ℤ :=
  match sizeLoop line 0 0 with
  | .error status => .error status
  | .ok (_, 0) => .error 400
  | .ok (size, _ + 1) => .ok size

/-- The result of a checked `int64` addition. -/
def add64 (x y : ℤ) : Except Defect ℤ :=
  if -2 ^ 63 ≤ x + y ∧ x + y ≤ int64High then .ok (x + y) else .error .overflow

/-! ### The loop -/

/-- The parser together with the caller's buffer for the decoded chunked body. -/
structure ParseState where
  parser : RequestParser
  chunkBody : Bytes
deriving DecidableEq, Repr

/-- How a call of `parse` ends: a verdict with the state left behind, or a raised defect. -/
abbrev ParseOutcome := Except Defect (ParseResult × ParseState)

/-- How one iteration ends: in the next loop state, or by leaving the loop. -/
abbrev ParseStep := ParseState ⊕ ParseOutcome

section step

variable (lim : ParserLimits) (buf : Bytes) (s : ParseState)

def ParseState.return (r : ParseResult) (p : RequestParser) : ParseStep :=
  .inr (.ok (r, { s with parser := p }))

def ParseState.failWith (status : ℕ) : ParseStep :=
  .inr (.ok ((s.parser.fail status).1, { s with parser := (s.parser.fail status).2 }))

def ParseState.continueWith (p : RequestParser) : ParseStep := .inl { s with parser := p }

/-- Leave the loop on an error, else go on behind the line feed at `nl`. -/
def ParseState.afterLine (nl : ℕ) (r : ParseResult × RequestParser) : ParseStep :=
  if r.1 = .prError then s.return .prError r.2
  else s.continueWith { r.2 with pos := nl + 1 }

/-- The blank line that ends the head: how is the body framed? -/
def endOfHead (nl : ℕ) : ParseStep :=
  let p := s.parser
  if p.minor = 1 ∧ p.seenHost = false then s.failWith 400
  else
    let p := { p with pos := nl + 1, bodyStart := nl + 1 }
    if p.chunked then s.continueWith { p with phase := .ppChunkSize }
    else if p.contentLength > 0 then
      if p.contentLength > lim.maxBodySize then
        ({ s with parser := { s.parser with pos := nl + 1 } } : ParseState).failWith 413
      else s.continueWith { p with bodyLen := p.contentLength.toNat, phase := .ppBody }
    else s.return .prComplete { p with bodyLen := 0, phase := .ppComplete }

/-- The status of a head that is too long. -/
def tooLong (p : RequestParser) : ℕ := if p.phase = .ppReqLine then 414 else 431

/-- `ppReqLine` and `ppHeaders`: one line of the request head. -/
def headStep : ParseStep :=
  let p := s.parser
  match findByte buf p.pos buf.length lf with
  | none =>
      if (buf.length : ℤ) - p.reqStart > lim.maxHeaderSize then s.failWith (tooLong p)
      else s.return .prNeedMore p
  | some nl =>
      if nl = p.pos ∨ buf.getD (nl - 1) 0 ≠ cr then s.failWith 400
      else if (nl : ℤ) - p.reqStart > lim.maxHeaderSize then s.failWith (tooLong p)
      else if p.phase = .ppReqLine then
        if nl - 1 = p.pos then s.continueWith { p with pos := nl + 1, reqStart := nl + 1 }
        else s.afterLine nl (parseReqLine p (slice buf p.pos (nl - 1)))
      else if nl - 1 = p.pos then endOfHead lim s nl
      else s.afterLine nl (parseHeaderLine lim buf p (nl - 1))

/-- `ppBody`: a `Content-Length` body, complete once it is all there. -/
def bodyStep : ParseStep :=
  let p := s.parser
  if buf.length - p.bodyStart < p.bodyLen then s.return .prNeedMore p
  else s.return .prComplete { p with pos := p.bodyStart + p.bodyLen, phase := .ppComplete }

/-- The accepted size must fit the body cap together with the bytes already decoded. -/
def acceptSize (nl : ℕ) (size : ℤ) : ParseStep :=
  match add64 s.chunkBody.length size with
  | .error d => .inr (.error d)
  | .ok total =>
      if total > lim.maxBodySize then s.failWith 413
      else
        s.continueWith { s.parser with
          pos := nl + 1
          chunkRemaining := size.toNat
          phase := if size = 0 then .ppTrailers else .ppChunkData }

/-- `ppChunkSize`: a size line of at most 128 bytes. -/
def chunkSizeStep : ParseStep :=
  let p := s.parser
  match findByte buf p.pos buf.length lf with
  | none => if buf.length - p.pos > 128 then s.failWith 400 else s.return .prNeedMore p
  | some nl =>
      if nl - p.pos > 128 then s.failWith 400
      else if nl = p.pos ∨ buf.getD (nl - 1) 0 ≠ cr then s.failWith 400
      else
        match chunkSize (slice buf p.pos (nl - 1)) with
        | .error status => s.failWith status
        | .ok size => acceptSize lim s nl size

/-- `ppChunkData`: copy what is there of the chunk. -/
def chunkDataStep : ParseStep :=
  let p := s.parser
  let avail := buf.length - p.pos
  if avail = 0 then s.return .prNeedMore p
  else
    let take := min avail p.chunkRemaining
    let s' : ParseState := {
      parser := { p with pos := p.pos + take, chunkRemaining := p.chunkRemaining - take }
      chunkBody := s.chunkBody ++ slice buf p.pos (p.pos + take) }
    if s'.parser.chunkRemaining = 0 then
      s'.continueWith { s'.parser with phase := .ppChunkCRLF }
    else s'.return .prNeedMore s'.parser

/-- `ppChunkCRLF`: the line end behind the chunk data. -/
def chunkCRLFStep : ParseStep :=
  let p := s.parser
  if buf.length - p.pos < 2 then s.return .prNeedMore p
  else if buf.getD p.pos 0 ≠ cr ∨ buf.getD (p.pos + 1) 0 ≠ lf then s.failWith 400
  else s.continueWith { p with pos := p.pos + 2, phase := .ppChunkSize }

/-- A trailer field is kept unless its name is one a trailer section may not carry. -/
def trailerLine (nl : ℕ) : ParseStep :=
  let p := { s.parser with trailerCount := s.parser.trailerCount + 1 }
  let s := { s with parser := p }
  if (p.trailerCount : ℤ) > lim.maxHeaderCount then s.failWith 431
  else
    match fieldLine p.pos (slice buf p.pos (nl - 1)) with
    | none => s.failWith 400
    | some h =>
        if disallowedTrailers.contains ((h.name buf).map toLowerA) then
          s.continueWith { p with pos := nl + 1 }
        else s.continueWith { p with trailers := p.trailers ++ [h], pos := nl + 1 }

/-- `ppTrailers`: the trailer lines up to the blank one. -/
def trailerStep : ParseStep :=
  let p := s.parser
  match findByte buf p.pos buf.length lf with
  | none =>
      if (buf.length : ℤ) - p.pos > lim.maxHeaderSize then s.failWith 431
      else s.return .prNeedMore p
  | some nl =>
      if nl = p.pos ∨ buf.getD (nl - 1) 0 ≠ cr then s.failWith 400
      else if nl - 1 = p.pos then
        s.return .prComplete { p with pos := nl + 1, phase := .ppComplete }
      else trailerLine lim buf s nl

/-- One iteration of the loop of `parse`. -/
def parseStep : ParseStep :=
  match s.parser.phase with
  | .ppReqLine | .ppHeaders => headStep lim buf s
  | .ppBody => bodyStep buf s
  | .ppChunkSize => chunkSizeStep lim buf s
  | .ppChunkData => chunkDataStep buf s
  | .ppChunkCRLF => chunkCRLFStep buf s
  | .ppTrailers => trailerStep lim buf s
  | .ppComplete => s.return .prComplete s.parser
  | .ppError => s.return .prError s.parser

/-! ### What one iteration can do -/

/-- What is there of the chunk is copied. -/
def ParseState.takeChunk : ParseState where
  parser := { s.parser with
    pos := s.parser.pos + min (buf.length - s.parser.pos) s.parser.chunkRemaining
    chunkRemaining := s.parser.chunkRemaining -
      min (buf.length - s.parser.pos) s.parser.chunkRemaining }
  chunkBody := s.chunkBody ++
    slice buf s.parser.pos (s.parser.pos + min (buf.length - s.parser.pos) s.parser.chunkRemaining)

/-- The bytes the phase needs to go on are not there yet. -/
def ParseState.Starves : Prop :=
  match s.parser.phase with
  | .ppBody => buf.length - s.parser.bodyStart < s.parser.bodyLen
  | .ppChunkData => buf.length - s.parser.pos = 0
  | .ppChunkCRLF => buf.length - s.parser.pos < 2
  | .ppComplete | .ppError => False
  | _ => findByte buf s.parser.pos buf.length lf = none

/-- The ways an iteration can end. -/
inductive Iteration : ParseStep → Prop
  | failed {p : RequestParser} (hp : p.chunkRemaining = s.parser.chunkRemaining) (status : ℕ) :
      Iteration (({ s with parser := p } : ParseState).failWith status)
  | lineFailed {nl : ℕ} {r : ParseResult × RequestParser}
      (hr : r = parseReqLine s.parser (slice buf s.parser.pos (nl - 1)) ∨
        r = parseHeaderLine lim buf s.parser (nl - 1)) : Iteration (s.return .prError r.2)
  | raised {nl : ℕ} {size : ℤ} {d : Defect} (hp : s.parser.phase = .ppChunkSize)
      (hf : findByte buf s.parser.pos buf.length lf = some nl) (hlen : ¬ nl - s.parser.pos > 128)
      (hcr : ¬ (nl = s.parser.pos ∨ buf.getD (nl - 1) 0 ≠ cr))
      (hsize : chunkSize (slice buf s.parser.pos (nl - 1)) = .ok size)
      (hadd : add64 s.chunkBody.length size = .error d) : Iteration (.inr (.error d))
  | waits (hw : s.Starves buf) : Iteration (s.return .prNeedMore s.parser)
  | blank {nl : ℕ} (hf : findByte buf s.parser.pos buf.length lf = some nl)
      (hp : s.parser.phase = .ppReqLine) :
      Iteration (s.continueWith { s.parser with pos := nl + 1, reqStart := nl + 1 })
  | requestLine {nl : ℕ} (hf : findByte buf s.parser.pos buf.length lf = some nl)
      (hp : s.parser.phase = .ppReqLine)
      (hr : (parseReqLine s.parser (slice buf s.parser.pos (nl - 1))).1 ≠ .prError) :
      Iteration (s.continueWith { (parseReqLine s.parser
        (slice buf s.parser.pos (nl - 1))).2 with pos := nl + 1 })
  | headerLine {nl : ℕ} (hf : findByte buf s.parser.pos buf.length lf = some nl)
      (hp : s.parser.phase = .ppHeaders)
      (hr : (parseHeaderLine lim buf s.parser (nl - 1)).1 ≠ .prError) :
      Iteration (s.continueWith { (parseHeaderLine lim buf s.parser (nl - 1)).2 with
        pos := nl + 1 })
  | chunkedBody {nl : ℕ} (hf : findByte buf s.parser.pos buf.length lf = some nl)
      (hp : s.parser.phase = .ppHeaders) (hc : s.parser.chunked = true) :
      Iteration (s.continueWith { s.parser with
        pos := nl + 1, bodyStart := nl + 1, phase := .ppChunkSize })
  | plainBody {nl : ℕ} (hf : findByte buf s.parser.pos buf.length lf = some nl)
      (hp : s.parser.phase = .ppHeaders) (hc : s.parser.chunked = false)
      (hl : 0 < s.parser.contentLength) :
      Iteration (s.continueWith { s.parser with
        pos := nl + 1, bodyStart := nl + 1, bodyLen := s.parser.contentLength.toNat
        phase := .ppBody })
  | noBody {nl : ℕ} (hf : findByte buf s.parser.pos buf.length lf = some nl)
      (hp : s.parser.phase = .ppHeaders) :
      Iteration (s.return .prComplete { s.parser with
        pos := nl + 1, bodyStart := nl + 1, bodyLen := 0, phase := .ppComplete })
  | body (hp : s.parser.phase = .ppBody)
      (hl : ¬ buf.length - s.parser.bodyStart < s.parser.bodyLen) :
      Iteration (s.return .prComplete { s.parser with
        pos := s.parser.bodyStart + s.parser.bodyLen, phase := .ppComplete })
  | size {nl : ℕ} {size total : ℤ} (hp : s.parser.phase = .ppChunkSize)
      (hf : findByte buf s.parser.pos buf.length lf = some nl)
      (hsize : chunkSize (slice buf s.parser.pos (nl - 1)) = .ok size)
      (hadd : add64 s.chunkBody.length size = .ok total) (hcap : ¬ total > lim.maxBodySize) :
      Iteration (s.continueWith { s.parser with
        pos := nl + 1, chunkRemaining := size.toNat
        phase := if size = 0 then .ppTrailers else .ppChunkData })
  | chunk (hp : s.parser.phase = .ppChunkData) (hl : buf.length - s.parser.pos ≠ 0)
      (hr : (s.takeChunk buf).parser.chunkRemaining = 0) :
      Iteration ((s.takeChunk buf).continueWith
        { (s.takeChunk buf).parser with phase := .ppChunkCRLF })
  | part (hp : s.parser.phase = .ppChunkData) (hl : buf.length - s.parser.pos ≠ 0) :
      Iteration ((s.takeChunk buf).return .prNeedMore (s.takeChunk buf).parser)
  | crlf (hp : s.parser.phase = .ppChunkCRLF) (hl : ¬ buf.length - s.parser.pos < 2) :
      Iteration (s.continueWith { s.parser with pos := s.parser.pos + 2, phase := .ppChunkSize })
  | trailersEnd {nl : ℕ} (hp : s.parser.phase = .ppTrailers)
      (hf : findByte buf s.parser.pos buf.length lf = some nl) :
      Iteration (s.return .prComplete { s.parser with pos := nl + 1, phase := .ppComplete })
  | trailer {nl : ℕ} {h : HeaderSlice} {ts : List HeaderSlice} (hp : s.parser.phase = .ppTrailers)
      (hf : findByte buf s.parser.pos buf.length lf = some nl)
      (hl : fieldLine s.parser.pos (slice buf s.parser.pos (nl - 1)) = some h)
      (hts : ts = [] ∨ ts = [h]) :
      Iteration (s.continueWith { s.parser with
        trailerCount := s.parser.trailerCount + 1, trailers := s.parser.trailers ++ ts
        pos := nl + 1 })
  | ended (hp : s.parser.phase = .ppComplete) : Iteration (s.return .prComplete s.parser)
  | stuck (hp : s.parser.phase = .ppError) : Iteration (s.return .prError s.parser)

variable {lim buf s} {s' : ParseState}

theorem headStep_iteration (hp : s.parser.phase = .ppReqLine ∨ s.parser.phase = .ppHeaders) :
    Iteration lim buf s (headStep lim buf s) := by
  unfold headStep
  dsimp only
  split
  · next hf =>
    split_ifs
    · exact .failed rfl _
    · rcases hp with hp | hp <;> exact .waits (by simpa [ParseState.Starves, hp] using hf)
  · next nl hf =>
    split_ifs with h1 h2 h3 h4 h5
    · exact .failed rfl _
    · exact .failed rfl _
    · exact .blank hf h3
    · unfold ParseState.afterLine
      split_ifs with hr
      · exact .lineFailed (.inl rfl)
      · exact .requestLine hf h3 hr
    · have hp := hp.resolve_left h3
      unfold endOfHead
      dsimp only
      split_ifs with e1 e2 e3
      · exact .failed rfl _
      · exact .chunkedBody hf hp e2
      · exact .failed (by rfl) _
      · exact .plainBody hf hp (by simpa using e2) e3
      · exact .noBody hf hp
    · unfold ParseState.afterLine
      split_ifs with hr
      · exact .lineFailed (.inr rfl)
      · exact .headerLine hf (hp.resolve_left h3) hr

theorem chunkSizeStep_iteration (hp : s.parser.phase = .ppChunkSize) :
    Iteration lim buf s (chunkSizeStep lim buf s) := by
  unfold chunkSizeStep
  dsimp only
  split
  · next hf =>
    split_ifs
    · exact .failed rfl _
    · exact .waits (by simpa [ParseState.Starves, hp] using hf)
  · next nl hf =>
    split_ifs with h1 h2
    · exact .failed rfl _
    · exact .failed rfl _
    · split
      · exact .failed rfl _
      · next size hsize =>
        unfold acceptSize
        split
        · next hadd => exact .raised hp hf h1 h2 hsize hadd
        · next hadd =>
          split
          · exact .failed rfl _
          · next hcap => exact .size hp hf hsize hadd hcap

theorem trailerStep_iteration (hp : s.parser.phase = .ppTrailers) :
    Iteration lim buf s (trailerStep lim buf s) := by
  unfold trailerStep trailerLine
  dsimp only
  split
  · next hf =>
    split_ifs
    · exact .failed rfl _
    · exact .waits (by simpa [ParseState.Starves, hp] using hf)
  · next nl hf =>
    split_ifs
    · exact .failed rfl _
    · exact .trailersEnd hp hf
    · exact .failed (by rfl) _
    · split
      · exact .failed (by rfl) _
      · next h hl =>
        split_ifs
        · have h' : Iteration lim buf s _ := .trailer hp hf hl (.inl rfl)
          rwa [List.append_nil] at h'
        · exact .trailer hp hf hl (.inr rfl)

theorem parseStep_iteration (lim : ParserLimits) (buf : Bytes) (s : ParseState) :
    Iteration lim buf s (parseStep lim buf s) := by
  unfold parseStep
  cases hp : s.parser.phase with
  | ppReqLine => exact headStep_iteration (.inl hp)
  | ppHeaders => exact headStep_iteration (.inr hp)
  | ppBody =>
    dsimp only [bodyStep]
    split_ifs with h
    · exact .waits (by simpa [ParseState.Starves, hp] using h)
    · exact .body hp h
  | ppChunkSize => exact chunkSizeStep_iteration hp
  | ppChunkData =>
    dsimp only [chunkDataStep]
    split_ifs with h1 h2
    · exact .waits (by simpa [ParseState.Starves, hp] using h1)
    · exact .chunk hp h1 h2
    · exact .part hp h1
  | ppChunkCRLF =>
    dsimp only [chunkCRLFStep]
    split_ifs with h
    · exact .waits (by simpa [ParseState.Starves, hp] using h)
    · exact .failed rfl _
    · exact .crlf hp h
  | ppTrailers => exact trailerStep_iteration hp
  | ppComplete => exact .ended hp
  | ppError => exact .stuck hp

/-! ### Every iteration that stays in the loop consumes input -/

/-- Bytes still to read, doubled, so that leaving an exhausted chunk counts as progress. -/
def parseMeasure (buf : Bytes) (s : ParseState) : ℕ :=
  2 * (buf.length - s.parser.pos) + (if s.parser.phase = .ppChunkData then 1 else 0)

theorem parseMeasure_lt (h1 : s.parser.pos < s'.parser.pos) (h2 : s'.parser.pos ≤ buf.length) :
    parseMeasure buf s' < parseMeasure buf s := by
  unfold parseMeasure
  split_ifs <;> omega

theorem parseMeasure_lt_of_line {nl : ℕ} (hf : findByte buf s.parser.pos buf.length lf = some nl)
    (hp : s'.parser.pos = nl + 1) : parseMeasure buf s' < parseMeasure buf s := by
  have := findByte_lt hf
  exact parseMeasure_lt (by omega) (by omega)

theorem parseStep_measure (h : parseStep lim buf s = .inl s') :
    parseMeasure buf s' < parseMeasure buf s := by
  have hi := parseStep_iteration lim buf s
  rw [h] at hi
  cases hi with
  | blank hf | requestLine hf | headerLine hf | chunkedBody hf | plainBody hf | size _ hf
  | trailer _ hf => exact parseMeasure_lt_of_line hf rfl
  | chunk hp hl hr =>
    simp only [parseMeasure, hp, ParseState.takeChunk]
    simp
    omega
  | crlf hp hl =>
    refine parseMeasure_lt ?_ ?_ <;> simp only
    · omega
    · omega

end step

/-- The loop of `parse`. -/
def parseLoop (lim : ParserLimits) (buf : Bytes) : Loop ParseState ParseOutcome where
  step := parseStep lim buf
  measure := parseMeasure buf
  decreases := fun _ _ h => parseStep_measure h

/-- Advance the parser over the bytes received so far. -/
def parse (lim : ParserLimits) (buf : Bytes) (s : ParseState) : ParseOutcome :=
  (parseLoop lim buf).run s

/-- The state a new request is parsed from: a parser reset at the buffer's start and an empty
`chunkBody`. -/
def ParseState.fresh (p : RequestParser) : ParseState := ⟨p.reset 0, []⟩

/-- Call `parse` after each of the successive reads on the growing buffer, up to the first
verdict other than "need more". -/
def parseReads (lim : ParserLimits) : Bytes → ParseState → List Bytes → ParseOutcome
  | _, s, [] => .ok (.prNeedMore, s)
  | buf, s, r :: rs =>
      match parse lim (buf ++ r) s with
      | .ok (.prNeedMore, s') => parseReads lim (buf ++ r) s' rs
      | out => out

end Vortex.Http1
