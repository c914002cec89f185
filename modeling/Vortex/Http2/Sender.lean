import Vortex.Http2.State

/-! # The write side of the HTTP/2 codec

Stream teardown, header-block serialization, the RFC 9218 write scheduler, streamed and
buffered responses and the WebSocket transport of `http2/codec.nim`.

Application callbacks run in the middle of these functions and may call back into the codec.
They are a parameter: `Hooks.fire` is whatever the application does to the connection when a
callback is run, so every function below is defined once for all applications and the
recursion through a callback is closed later, over the calls an application can make.

A scheduler pass loops as long as the ready queue can be served; callbacks may refill the
queue, so the loop is bounded by `Hooks.passFuel` and what is proved holds for every bound. -/

namespace Vortex.Http2

open FieldRules

/-- The world outside the codec. -/
structure Hooks where
  /-- The effect of a callback on the connection. -/
  fire : Callback → Conn → Conn
  /-- `hasStreamRoute` and `callStreamRoute`: is this request dispatched on its headers? -/
  streamRoute : Conn → ℕ → Bool
  /-- The order in which the stream table is iterated. -/
  order : (c : Conn) → { l : List ℕ // l.Perm c.streams.keys }
  /-- Iterations a scheduler pass may take. -/
  passFuel : ℕ

/-- Run a callback. -/
def Hooks.run (H : Hooks) (cb : Callback) (c : Conn) : Conn := H.fire cb (c.note (.fired cb))

/-! ### Teardown -/

/-- Take a stream out of the table and settle its accounts: the part of `teardownStream` before
its callbacks. -/
def Conn.detachStream (c : Conn) (sid : ℕ) : Conn :=
  match c.stream? sid with
  | none => c
  | some st =>
      let c := if st.endStreamSeen then c else c.recordEarlyClosed sid
      let c := c.creditConn st.connDeferred
      let c := { c with
        bufferedBytes := c.bufferedBytes - st.bufferedCounted
        backedUpProducers := c.backedUpProducers - (if st.respBackedUp then 1 else 0) }
      let c := c.dropStreamCounters st
      Conn.note { c with streams := c.streams.erase sid, activeStreams := c.activeStreams - 1 }
        (.removed sid)

/-- The callbacks of `teardownStream`, for a stream that was `st` and is gone. -/
def fireTeardown (H : Hooks) (sid : ℕ) (st : Stream) (c : Conn) : Conn :=
  let c := if st.ws.isSome then H.run (.wsClosed sid) c else c
  let c := match st.onBodyCb with
    | some cb => H.run (.body sid cb [] true) c
    | none => c
  match st.onRespDrain with
  | some cb => H.run (.drain sid cb) c
  | none => c

def teardownStream (H : Hooks) (sid : ℕ) (c : Conn) : Conn :=
  match c.stream? sid with
  | none => c
  | some st => fireTeardown H sid st (c.detachStream sid)

/-- The RST_STREAM of a stream error; an idle stream gets none. -/
def Conn.sendReset (c : Conn) (sid : ℕ) (err : ErrCode) : Conn :=
  if sid ≠ 0 ∧ sid ≤ c.lastStreamId then c.send (.rstStream sid err) else c

def streamError (H : Hooks) (sid : ℕ) (err : ErrCode) (c : Conn) : Conn :=
  teardownStream H sid (c.sendReset sid err)

/-- After a complete response: ask a client that is still sending to stop. -/
def Conn.stopClient (c : Conn) (sid : ℕ) : Conn :=
  match c.stream? sid with
  | none => c
  | some st =>
      if !st.endStreamSeen && st.ws.isNone then
        (c.send (.rstStream sid .errNoError)).recordServerReset sid st.recvRemaining
      else c

/-- The response's final frame has been written: drop the stream. -/
def completeStream (H : Hooks) (sid : ℕ) (c : Conn) : Conn :=
  teardownStream H sid (c.stopClient sid)

/-! ### Header blocks -/

/-- One handler-supplied response header; the connection-specific ones are dropped. -/
def encodeExtraHeader (f : Bytes × Bytes) : Bytes :=
  if isForbiddenResponseField f.1 false then []
  else if isLowerAscii f.1 then encodeHeader f.1 f.2
  else encodeHeader (f.1.map toLowerA) f.2

/-- One handler-supplied response trailer field. -/
def encodeTrailerField (f : Bytes × Bytes) : Bytes :=
  if f.1.isEmpty || f.1.head? == some colon then []
  else if forbiddenResponseTrailerField f.1 then []
  else if !validFieldValue f.2 then []
  else if isLowerAscii f.1 then if validFieldName f.1 then encodeHeader f.1 f.2 else []
  else
    let ln := f.1.map toLowerA
    if validFieldName ln then encodeHeader ln f.2 else []

/-- The dynamic-table size update owed at the start of the next block. -/
def Conn.tableSizeUpdate (c : Conn) : Bytes :=
  match c.pendingTableSizeUpdate with
  | some n => encodeInt n 5 0x20
  | none => []

/-- The splitting loop of `emitHeaderBlock`, on the bytes left, whether the next frame is the
first, and the frames made. -/
def headerLoop (maxFrame : MaxFrame) (sid : ℕ) (endStream : Bool) :
    Loop (Bytes × Bool × List Frame) (List Frame) where
  step s :=
    if s.2.1 ∨ 0 < s.1.length then
      let frag := s.1.take maxFrame
      let rest := s.1.drop maxFrame
      let f := if s.2.1 then Frame.headers sid frag endStream rest.isEmpty
        else Frame.continuation sid frag rest.isEmpty
      .inl (rest, false, s.2.2 ++ [f])
    else .inr s.2.2
  measure s := s.1.length + (if s.2.1 then 1 else 0)
  decreases := by
    intro s s' h
    have hm := maxFrame.2.1
    split at h
    · next hc =>
      cases h
      simp only [List.length_drop, Bool.false_eq_true, if_false]
      rcases hc with hc | hc
      · simp only [hc, if_true]
        omega
      · omega
    · cases h

/-- A header block as one HEADERS frame and as many CONTINUATION frames as it needs. -/
def headerFrames (maxFrame : MaxFrame) (sid : ℕ) (hb : Bytes) (endStream : Bool) : List Frame :=
  (headerLoop maxFrame sid endStream).run (hb, true, [])

/-- Write the field block `fields`, preceded by the size update that is owed. -/
def Conn.emitBlock (c : Conn) (sid : ℕ) (fields : Bytes) (endStream : Bool) : Conn :=
  Conn.sendAll { c with pendingTableSizeUpdate := none }
    (headerFrames c.peerMaxFrame sid (c.tableSizeUpdate ++ fields) endStream)

/-- The trailer section as an END_STREAM header block. -/
def Conn.emitTrailerBlock (c : Conn) (sid : ℕ) (st : Stream) : Conn :=
  c.emitBlock sid (st.respTrailers.flatMap encodeTrailerField) true

def emitTrailers (H : Hooks) (sid : ℕ) (c : Conn) : Conn :=
  match c.stream? sid with
  | none => c
  | some st => completeStream H sid (c.emitTrailerBlock sid st)

/-! ### The write scheduler -/

/-- Reclaim the sent prefix of the response backlog. -/
def Stream.compactPendingBody (st : Stream) : Stream :=
  if st.pendingPos = 0 then st
  else
    let rest := st.pendingBody.length - st.pendingPos
    if rest = 0 then { st with pendingBody := [], pendingPos := 0 }
    else if st.pendingPos < respHighWater ∨ st.pendingPos < rest then st
    else { st with pendingBody := st.pendingBody.drop st.pendingPos, pendingPos := 0 }

/-- Can the stream emit a frame now, as far as its own window goes? -/
def Stream.sendable (st : Stream) : Bool :=
  if st.backlog > 0 then decide (st.sendWindow > 0)
  else
    match st.ws with
    | some w => w.wantClose
    | none => st.pendingIsLast

/-- Queue a stream that can send and is not queued. -/
def Conn.h2Enqueue (c : Conn) (sid : ℕ) : Conn :=
  match c.stream? sid with
  | none => c
  | some st =>
      if !st.inSendQ && st.sendable then
        { c.modify sid (fun st => { st with inSendQ := true }) with
          sendQ := Function.update c.sendQ st.urgency (c.sendQ st.urgency ++ [sid]) }
      else c

/-- The size of the next DATA frame: the backlog cut by the frame size and both windows. -/
def Conn.chunkSize (c : Conn) (st : Stream) (remaining : ℕ) : ℤ :=
  min (min (min (remaining : ℤ) (c.peerMaxFrame : ℕ)) st.sendWindow) c.connSendWindow

/-- Write one DATA frame of `chunk` bytes from the stream's backlog. -/
def Conn.sendChunk (c : Conn) (sid : ℕ) (st : Stream) (chunk : ℕ) (last : Bool) : Conn :=
  let c := c.send (.data sid (st.unsent.take chunk) last)
  let c := c.modify sid (fun st => { st with
    pendingPos := st.pendingPos + chunk, sendWindow := int32 (st.sendWindow - chunk) })
  let c := { c with connSendWindow := int32 (c.connSendWindow - chunk) }
  let c := c.noteDataProgress chunk 1
  (c.modify sid Stream.compactPendingBody).syncSendState sid

/-- The bare END_STREAM frame. -/
def Conn.sendEnd (c : Conn) (sid : ℕ) : Conn := c.send (.data sid [] true)

/-- Emit one frame for the stream: a DATA frame of its backlog, or the end it still owes. -/
def emitOneFrame (H : Hooks) (sid : ℕ) (c : Conn) : Conn :=
  match c.stream? sid with
  | none => c
  | some st =>
      let remaining := st.backlog
      if remaining = 0 then
        if st.ws.isNone && st.pendingIsLast then
          if st.respTrailers.length > 0 then emitTrailers H sid c
          else completeStream H sid (c.sendEnd sid)
        else c
      else
        let chunk := c.chunkSize st remaining
        if chunk ≤ 0 then c
        else
          let last := st.ws.isNone && st.pendingIsLast && st.respTrailers.isEmpty &&
            decide (st.pendingPos + chunk.toNat = st.pendingBody.length)
          let c := c.sendChunk sid st chunk.toNat last
          if last then completeStream H sid c else c

/-- Update the WebSocket of a stream. -/
def Conn.modifyWs (c : Conn) (sid : ℕ) (f : WsConn → WsConn) : Conn :=
  c.modify sid (fun st => { st with ws := st.ws.map f })

/-- A WebSocket stream leaves the table once its close has been flushed. -/
def Conn.dropWsStream (c : Conn) (sid : ℕ) : Conn :=
  match c.stream? sid with
  | none => c
  | some st =>
      let c := c.dropStreamCounters st
      Conn.note { c with streams := c.streams.erase sid, activeStreams := c.activeStreams - 1 }
        (.removed sid)

/-- The WebSocket close frame has been flushed: END_STREAM, onClose, drop the stream. -/
def h2WsFinalize (H : Hooks) (sid : ℕ) (c : Conn) : Conn :=
  (H.run (.wsClosed sid) (c.sendEnd sid)).dropWsStream sid

/-- WebSocket bookkeeping after the scheduler served its stream. -/
def h2WsAfterEmit (H : Hooks) (sid : ℕ) (c : Conn) : Conn :=
  match c.stream? sid with
  | none => c
  | some st =>
      match st.ws with
      | none => c
      | some w =>
          let c := c.modifyWs sid (fun w => { w with h2Pending := st.backlog })
          if st.backlog = 0 then
            if w.wantClose then h2WsFinalize H sid c
            else if w.backedUp then
              let c := c.modifyWs sid (fun w => { w with backedUp := false })
              if w.hasOnDrain then H.run (.wsDrain sid) c else c
            else c
          else c.modifyWs sid (fun w => { w with backedUp := true })

/-- May the producer parked on this stream be resumed? -/
def Stream.resumable (st : Stream) : Bool :=
  st.respBackedUp && st.onRespDrain.isSome && decide (st.backlog < respHighWater)

/-- Take the parked callback off the stream, with its mark. -/
def Conn.takeDrain (c : Conn) (sid : ℕ) : Conn :=
  (c.clearBackedUp sid).modify sid (fun st => { st with onRespDrain := none })

/-- Resume the collected producers while the write buffer has room. -/
def resumeList (H : Hooks) : List ℕ → Conn → Conn
  | [], c => c
  | sid :: rest, c =>
      if c.pendingOut ≥ respHighWater then c
      else
        match c.stream? sid with
        | none => resumeList H rest c
        | some st =>
            match st.respBackedUp, st.onRespDrain with
            | true, some cb => resumeList H rest (H.run (.drain sid cb) (c.takeDrain sid))
            | _, _ => resumeList H rest c

def h2ResumeProducers (H : Hooks) (c : Conn) : Conn :=
  if c.resuming then c
  else if c.backedUpProducers = 0 then c
  else if c.pendingOut ≥ respHighWater then c
  else
    let c := { c with resuming := true }
    let resumable := (H.order c).1.filter (fun sid => (c.stream? sid).any Stream.resumable)
    { resumeList H resumable c with resuming := false }

/-- The lowest urgency level with a queued stream. -/
def Conn.h2NextUrgency (c : Conn) : Option (Fin 8) :=
  (List.finRange 8).find? (fun u => !(c.sendQ u).isEmpty)

/-- Put a served stream that can still send back on its queue. -/
def Conn.requeue (c : Conn) (sid : ℕ) (st : Stream) : Conn :=
  { c.modify sid (fun st => { st with inSendQ := true }) with
    sendQ := Function.update c.sendQ st.urgency
      (if st.incremental then c.sendQ st.urgency ++ [sid] else sid :: c.sendQ st.urgency) }

/-- Serve the stream that was just popped: one frame, then requeue it if it can send more. -/
def serveStream (H : Hooks) (sid : ℕ) (c : Conn) : Conn :=
  match c.stream? sid with
  | none => c
  | some st₀ =>
      let c := c.modify sid (fun st => { st with inSendQ := false })
      let c := emitOneFrame H sid c
      match c.stream? sid with
      | none => c
      | some st =>
          if st₀.ws.isSome then (h2WsAfterEmit H sid c).h2Enqueue sid
          else if st.sendable then c.requeue sid st
          else c

/-- The loop of a scheduler pass. -/
def scheduleLoop (H : Hooks) : ℕ → Conn → Conn
  | 0, c => c
  | fuel + 1, c =>
      if 0 < c.connSendWindow ∧ c.pendingOut < respHighWater then
        match c.h2NextUrgency with
        | none => c
        | some u =>
            let sid := (c.sendQ u).headD 0
            scheduleLoop H fuel
              (serveStream H sid { c with sendQ := Function.update c.sendQ u (c.sendQ u).tail })
      else c

/-- A write pass over the ready queues. -/
def h2Schedule (H : Hooks) (c : Conn) : Conn :=
  if c.scheduling then c
  else
    let c := scheduleLoop H H.passFuel { c with scheduling := true }
    h2ResumeProducers H { c with scheduling := false }

/-! ### Direct writes -/

/-- The state of the direct write loop. -/
structure DirectState where
  c : Conn
  rest : Bytes
  off : ℕ := 0
  frames : ℕ := 0

/-- One DATA frame cut from the producer's own buffer. -/
def directStep (sid : ℕ) (s : DirectState) : DirectState ⊕ DirectState :=
  match s.c.stream? sid with
  | none => .inr s
  | some st =>
      if 0 < s.rest.length ∧ 0 < s.c.connSendWindow ∧ 0 < st.sendWindow ∧
          s.c.pendingOut < respHighWater then
        let chunk := (s.c.chunkSize st s.rest.length).toNat
        let c := s.c.send (.data sid (s.rest.take chunk) false)
        let c := c.modify sid (fun st => { st with sendWindow := int32 (st.sendWindow - chunk) })
        let c := { c with connSendWindow := int32 (c.connSendWindow - chunk) }
        .inl { c := c, rest := s.rest.drop chunk, off := s.off + chunk, frames := s.frames + 1 }
      else .inr s

theorem chunkSize_pos {c : Conn} {st : Stream} {n : ℕ} (hn : 0 < n) (hc : 0 < c.connSendWindow)
    (hs : 0 < st.sendWindow) : 0 < c.chunkSize st n := by
  have hm := c.peerMaxFrame.2.1
  unfold Conn.chunkSize
  simp only [lt_min_iff]
  omega

/-- The direct write loop. -/
def directLoop (sid : ℕ) : Loop DirectState DirectState where
  step := directStep sid
  measure s := s.rest.length
  decreases := by
    intro s s' h
    unfold directStep at h
    split at h
    · cases h
    · split at h
      · next hc =>
        have hpos := chunkSize_pos hc.1 hc.2.1 hc.2.2.1
        rw [← Sum.inl.inj h]
        simp only [List.length_drop]
        omega
      · cases h

/-- Emit straight from the producer's buffer what flow control allows, when nothing is queued
anywhere; the number of bytes that went out comes back. -/
def Conn.h2WriteDirect (c : Conn) (sid : ℕ) (data : Bytes) : Conn × ℕ :=
  match c.stream? sid with
  | none => (c, 0)
  | some st =>
      if st.ws.isSome || st.hasBacklog || c.h2NextUrgency.isSome then (c, 0)
      else
        let s := (directLoop sid).run { c := c, rest := data }
        if s.off > 0 then ((s.c.noteDataProgress s.off s.frames).syncSendState sid, s.off)
        else (s.c, s.off)

/-! ### Priorities -/

def isListSep (b : UInt8) : Bool := isOws b || b == comma

/-- The `=` of a dictionary member. -/
def equals : UInt8 := 0x3d

/-- The value of an urgency member: the number read so far, or failure. -/
def urgencyDigits : Bytes → ℕ → Option ℕ
  | [], num => some num
  | b :: rest, num =>
      if isDigit b && decide (num ≤ 7) then urgencyDigits rest (num * 10 + (b.toNat - 0x30))
      else none

/-- Apply the member `key=val` of a Priority field. -/
def applyMember (key val : Bytes) (p : Fin 8 × Bool) : Fin 8 × Bool :=
  if key = ascii "u" then
    match if val.isEmpty then none else urgencyDigits val 0 with
    | some n => if h : n < 8 then (⟨n, h⟩, p.2) else p
    | none => p
  else if key = ascii "i" then (p.1, !(val == ascii "?0"))
  else p

/-- One member of a Priority field value: the rest of the field, and the priority after it. -/
def priorityMember (v : Bytes) (p : Fin 8 × Bool) : Bytes × (Fin 8 × Bool) :=
  let keyByte := fun b => !(isOws b || b == equals || b == comma)
  let key := v.takeWhile keyByte
  let rest := (v.dropWhile keyByte).dropWhile isOws
  match rest with
  | [] => ([], if key = ascii "i" then (p.1, true) else p)
  | b :: more =>
      if b = equals then
        let valueByte := fun b => !(isOws b || b == comma)
        let start := more.dropWhile isOws
        (start.dropWhile valueByte, applyMember key (start.takeWhile valueByte) p)
      else (b :: more, if key = ascii "i" then (p.1, true) else p)

theorem length_dropWhile_le (p : UInt8 → Bool) (l : Bytes) : (l.dropWhile p).length ≤ l.length :=
  (List.dropWhile_suffix p).length_le

theorem priorityMember_length {b : UInt8} {v : Bytes} (p : Fin 8 × Bool)
    (hb : isListSep b = false) :
    (priorityMember (b :: v) p).1.length < (b :: v).length := by
  unfold priorityMember
  simp only
  split
  · simp
  · next c more hr =>
    have hle : (c :: more).length ≤ (b :: v).length := by
      rw [← hr]
      exact (length_dropWhile_le _ _).trans (length_dropWhile_le _ _)
    split
    · have h1 := length_dropWhile_le (fun b => !(isOws b || b == comma)) (more.dropWhile isOws)
      have h2 := length_dropWhile_le isOws more
      simp only [List.length_cons] at hle ⊢
      omega
    · next hne =>
      have hk : (!(isOws b || b == equals || b == comma)) = true := by
        by_contra hk
        have hbe : b = equals := by
          simp only [isListSep, Bool.or_eq_false_iff] at hb
          simpa [hb.1, hb.2] using hk
        subst hbe
        have hd : List.dropWhile (fun b => !(isOws b || b == equals || b == comma))
            (equals :: v) = equals :: v := by
          simp
        rw [hd] at hr
        have hs : List.dropWhile isOws (equals :: v) = equals :: v := by
          simp [isOws, equals, sp, htab]
        rw [hs] at hr
        exact hne (List.cons.inj hr).1.symm
      rw [List.dropWhile_cons_of_pos (by simpa using hk)] at hr
      have := (length_dropWhile_le isOws _).trans
        (length_dropWhile_le (fun b => !(isOws b || b == equals || b == comma)) v)
      rw [hr] at this
      simp only [List.length_cons] at this ⊢
      omega

/-- The member loop of `parsePriorityField`. -/
def priorityLoop : Loop (Bytes × (Fin 8 × Bool)) (Fin 8 × Bool) where
  step s :=
    match s.1.dropWhile isListSep with
    | [] => .inr s.2
    | b :: v => .inl (priorityMember (b :: v) s.2)
  measure s := s.1.length
  decreases := by
    intro s s' h
    cases hv : s.1.dropWhile isListSep with
    | nil => rw [hv] at h; cases h
    | cons b v =>
        rw [hv] at h
        rw [← Sum.inl.inj h]
        have hb : isListSep b = false := by
          have := List.head?_dropWhile_not isListSep s.1
          simpa [hv] using this
        have hle := length_dropWhile_le isListSep s.1
        rw [hv] at hle
        exact (priorityMember_length s.2 hb).trans_le hle

/-- RFC 9218: the urgency and incremental flag after a Priority field value. -/
def parsePriorityField (v : Bytes) (p : Fin 8 × Bool) : Fin 8 × Bool := priorityLoop.run (v, p)

/-- Apply a Priority field value to an open stream. -/
def Conn.h2Reprioritize (c : Conn) (sid : ℕ) (field : Bytes) : Conn :=
  c.modify sid (fun st =>
    let p := parsePriorityField field (st.urgency, st.incremental)
    { st with urgency := p.1, incremental := p.2 })

/-! ### Streamed responses -/

/-- What goes into a response head besides the status and the body's length. -/
structure ResponseHead where
  code : ℕ
  dateStr : Bytes := []
  serverHeader : Bytes := []
  contentType : Bytes := []
  extraHeaders : Fields := []
  altSvc : Bytes := []
  secHeaders : Fields := []
deriving DecidableEq, Repr

/-- A header that is left out when it is empty. -/
def encodeOptional (name val : Bytes) : Bytes := if val.isEmpty then [] else encodeHeader name val

/-- The field block of a streamed response head. -/
def ResponseHead.streamedBlock (h : ResponseHead) : Bytes :=
  encodeStatus h.code ++ encodeOptional (ascii "server") h.serverHeader ++
    encodeHeader (ascii "date") h.dateStr ++ encodeOptional (ascii "content-type") h.contentType ++
    encodeOptional (ascii "alt-svc") h.altSvc ++ h.extraHeaders.flatMap encodeExtraHeader

/-- Record the begun response on the stream. -/
def Conn.beginStreamed (c : Conn) (sid : ℕ) (st : Stream) (d : Declared) : Conn :=
  (c.note (.answered sid d st.isHead)).modify sid (fun st => { st with
    responded := true
    respPhase := if st.isHead then .rpHeadSent else .rpStreaming
    respDeclaredLen := d.length
    respBodyWritten := 0
    pendingIsLast := st.pendingIsLast || st.isHead })

/-- Send a streamed response's head and open its body; a HEAD response ends here. -/
def h2SendHead (H : Hooks) (sid : ℕ) (head : ResponseHead) (contentLength : ℤ) (c : Conn) :
    Conn :=
  match c.stream? sid with
  | none => c
  | some st =>
      if st.responded then c
      else
        let c := (c.beginStreamed sid st ⟨contentLength, head.extraHeaders⟩).emitBlock sid
          head.streamedBlock st.isHead
        if st.isHead then completeStream H sid c else c

/-- Take a chunk in: what flow control allows goes out at once, the rest is queued. -/
def Conn.acceptWrite (c : Conn) (sid : ℕ) (data : Bytes) : Conn :=
  let c := (c.note (.accepted sid data)).modify sid (fun st =>
    Stream.compactPendingBody { st with respBodyWritten := st.respBodyWritten + data.length })
  let r := c.h2WriteDirect sid data
  if r.2 < data.length then
    (r.1.modify sid (fun st => { st with
      pendingBody := st.pendingBody ++ data.drop r.2 })).syncSendState sid
  else r.1

/-- Append a body chunk to a streamed response. -/
def h2StreamWrite (H : Hooks) (sid : ℕ) (data : Bytes) (c : Conn) : Conn :=
  match c.stream? sid with
  | none => c
  | some st =>
      if st.respPhase ≠ .rpStreaming ∨ st.isHead then c
      else
        let c := if data.length > 0 then c.acceptWrite sid data else c
        h2Schedule H (c.h2Enqueue sid)

/-- Deliver a drain callback that was detached before the response ended. -/
def fireEndedDrain (H : Hooks) (sid : ℕ) (cb : Option ℕ) (c : Conn) : Conn :=
  match cb with
  | none => c
  | some cb => if c.closeInProgress then c else H.run (.drain sid cb) c

/-- The marks of an abort. -/
def Conn.beginAbort (c : Conn) (sid : ℕ) : Conn :=
  (c.note (.aborted sid)).modify sid (fun st => { st with
    respPhase := .rpAborted, onRespDrain := none })

/-- Cut a streamed response short with RST_STREAM(INTERNAL_ERROR). -/
def h2StreamAbort (H : Hooks) (sid : ℕ) (c : Conn) : Conn :=
  match c.stream? sid with
  | none => c
  | some st =>
      if st.respPhase ≠ .rpStreaming then c
      else fireEndedDrain H sid st.onRespDrain
        (streamError H sid .errInternal (c.beginAbort sid))

/-- The marks of a finished response. -/
def Conn.beginFinish (c : Conn) (sid : ℕ) (trailers : Fields) : Conn :=
  (c.modify sid (fun st => { st with
    respPhase := .rpFinished
    onRespDrain := none
    pendingIsLast := st.pendingIsLast || !st.isHead
    respTrailers := if !st.isHead && trailers.length > 0 then trailers else st.respTrailers })
    ).clearBackedUp sid

/-- Push the end of a finished response: queue what is left, or write the end at once. -/
def finishBody (H : Hooks) (sid : ℕ) (c : Conn) : Conn :=
  match c.stream? sid with
  | none => c
  | some st =>
      if st.backlog > 0 then h2Schedule H (c.h2Enqueue sid)
      else if st.respTrailers.length > 0 then emitTrailers H sid c
      else completeStream H sid (c.sendEnd sid)

/-- Finish a streamed response; a body that misses its declared length is aborted. -/
def h2StreamFinish (H : Hooks) (sid : ℕ) (trailers : Fields) (c : Conn) : Conn :=
  match c.stream? sid with
  | none => c
  | some st =>
      if st.respPhase ≠ .rpStreaming then c
      else if !st.isHead && decide (0 ≤ st.respDeclaredLen) &&
          decide ((st.respBodyWritten : ℤ) ≠ st.respDeclaredLen) then
        h2StreamAbort H sid c
      else
        let c := c.beginFinish sid trailers
        let c := if st.isHead then c else finishBody H sid c
        fireEndedDrain H sid st.onRespDrain c

/-! ### Buffered responses -/

/-- Statuses that carry no representation. -/
def bodilessStatus (code : ℕ) : Bool :=
  (decide (100 ≤ code) && decide (code ≤ 199)) || code == 204 || code == 304

/-- The baseline headers a handler did not set itself. -/
def ResponseHead.unshadowed (h : ResponseHead) : Fields :=
  h.secHeaders.filter (fun f =>
    !h.extraHeaders.any (fun g => g.1.map toLowerA == f.1.map toLowerA))

/-- The field block of a buffered response head. -/
def ResponseHead.bufferedBlock (h : ResponseHead) (bodyLen : ℕ) : Bytes :=
  let bodiless := bodilessStatus h.code
  encodeStatus h.code ++ encodeOptional (ascii "server") h.serverHeader ++
    encodeHeader (ascii "date") h.dateStr ++
    (if bodiless then [] else encodeOptional (ascii "content-type") h.contentType) ++
    (if bodiless then [] else encodeHeader (ascii "content-length") (decimal bodyLen)) ++
    encodeOptional (ascii "alt-svc") h.altSvc ++ h.extraHeaders.flatMap encodeExtraHeader ++
    h.unshadowed.flatMap encodeExtraHeader

/-- Queue a buffered response body. -/
def Conn.queueBody (c : Conn) (sid : ℕ) (body : Bytes) : Conn :=
  ((c.note (.accepted sid body)).modify sid (fun st => { st with
    pendingBody := body, pendingPos := 0, pendingIsLast := true })).syncSendState sid

/-- What a buffered response head says about the body. -/
def ResponseHead.declared (h : ResponseHead) (body : Bytes) : Declared where
  length := if bodilessStatus h.code then -1 else body.length
  fields := h.extraHeaders ++ h.unshadowed

/-- A complete response in one call. -/
def h2Respond (H : Hooks) (sid : ℕ) (head : ResponseHead) (body : Bytes) (c : Conn) : Conn :=
  match c.stream? sid with
  | none => c
  | some st =>
      if st.responded then c
      else
        let noBody := body.isEmpty || st.isHead || bodilessStatus head.code
        let c := (c.note (.answered sid (head.declared body) st.isHead)).modify sid
          (fun st => { st with responded := true })
        let c := c.emitBlock sid (head.bufferedBlock body.length) noBody
        if noBody then completeStream H sid c
        else h2Schedule H ((c.queueBody sid body).h2Enqueue sid)

/-- A 1xx header block ahead of the final response. -/
def h2SendInformational (sid : ℕ) (code : ℕ) (headers : Fields) (c : Conn) : Conn :=
  if code < 100 ∨ code > 199 then c
  else
    match c.stream? sid with
    | none => c
    | some st =>
        if st.responded then c
        else c.emitBlock sid (encodeStatus code ++ headers.flatMap encodeExtraHeader) false

/-! ### Drain callbacks and priorities -/

/-- `res.setPriority`. -/
def h2SetPriority (sid urgency : ℕ) (incremental : Bool) (c : Conn) : Conn :=
  c.modify sid (fun st => { st with
    urgency := ⟨min urgency 7, by omega⟩, incremental := incremental })

/-- A write came back unwritable because the connection's buffer is full. -/
def h2MarkRespBackedUp (sid : ℕ) (c : Conn) : Conn := c.setBackedUp sid

/-- The verdict of `res.write`: a streamed response is writable while both its backlog and the
write buffer have room; one that is not is marked, for a drain to resume it. -/
def h2Writable (sid : ℕ) (c : Conn) : Conn × Bool :=
  match c.stream? sid with
  | none => (c, false)
  | some st =>
      if st.respPhase ≠ .rpStreaming then (c, false)
      else
        let backlog := if !st.isHead && st.ws.isNone then st.backlog else 0
        if backlog ≥ respHighWater ∨ c.pendingOut ≥ respHighWater then
          (h2MarkRespBackedUp sid c, false)
        else (c, true)

/-- Mark a stream a drain callback was just registered on. -/
def h2ArmDrain (sid : ℕ) (c : Conn) : Conn :=
  match c.stream? sid with
  | none => c
  | some st =>
      if st.ws.isNone && (st.respPhase == .rpNone || st.respPhase == .rpStreaming) then
        c.setBackedUp sid
      else c

/-- Store a drain callback on the stream. -/
def Conn.storeDrain (c : Conn) (sid cb : ℕ) : Conn :=
  (c.note (.drainSet sid cb)).modify sid (fun st => { st with onRespDrain := some cb })

/-- `res.onDrain` on an open response: store the callback and arm it. -/
def onDrain (sid cb : ℕ) (c : Conn) : Conn :=
  match c.stream? sid with
  | none => c
  | some st =>
      if st.ws.isNone && st.responded && st.respPhase != .rpStreaming then c
      else h2ArmDrain sid (c.storeDrain sid cb)

/-- The scheduler pass of a drain kick, with the resume scan held back. -/
def kickPass (H : Hooks) (c : Conn) : Conn :=
  if c.resuming then c
  else { h2Schedule H { c with resuming := true } with resuming := false }

/-- The loop pass a drain registration is owed: fire it if the response is fully drained. -/
def h2DrainKick (H : Hooks) (sid : ℕ) (c : Conn) : Conn :=
  match c.stream? sid with
  | none => c
  | some st₀ =>
      if st₀.onRespDrain.isNone then c
      else
        let c := kickPass H c
        match c.stream? sid with
        | none => c
        | some st =>
            match st.onRespDrain with
            | none => c
            | some cb =>
                if !st.respBackedUp || st.hasBacklog || decide (c.pendingOut > 0) then c
                else H.run (.drain sid cb) (c.takeDrain sid)

/-! ### WebSocket streams -/

/-- Move the WebSocket's serialized frames to the stream's backlog. -/
def Conn.takeWsOutput (c : Conn) (sid : ℕ) (w : WsConn) : Conn :=
  if w.outBuf.length > 0 then
    (((c.note (.accepted sid w.outBuf)).modify sid (fun st =>
      { st.compactPendingBody with
        pendingBody := st.compactPendingBody.pendingBody ++ w.outBuf
        pendingIsLast := false })).modifyWs sid (fun w => { w with outBuf := [] })).syncSendState sid
  else c

/-- Schedule what a WebSocket produced as DATA. -/
def wsFlushH2 (H : Hooks) (sid : ℕ) (c : Conn) : Conn :=
  match c.stream? sid with
  | none => c
  | some st =>
      let c := match st.ws with
        | some w => c.takeWsOutput sid w
        | none => c
      h2Schedule H (c.h2Enqueue sid)

/-- The WebSocket codec serialized frames, and perhaps asked for the close. -/
def wsStage (sid : ℕ) (data : Bytes) (close : Bool) (c : Conn) : Conn :=
  c.modifyWs sid (fun w => { w with
    outBuf := w.outBuf ++ data, wantClose := w.wantClose || close })

/-- A drain callback was set on the WebSocket. -/
def wsSetOnDrain (sid : ℕ) (c : Conn) : Conn :=
  c.modifyWs sid (fun w => { w with hasOnDrain := true })

/-- The field block of an accepted Extended CONNECT. -/
def wsAcceptBlock (dateStr serverHeader proto ext : Bytes) : Bytes :=
  encodeStatus 200 ++ encodeOptional (ascii "server") serverHeader ++
    encodeHeader (ascii "date") dateStr ++
    encodeOptional (ascii "sec-websocket-protocol") proto ++
    encodeOptional (ascii "sec-websocket-extensions") ext

/-- Accept an Extended CONNECT: reply 200 and attach a WebSocket, which gets the bytes that
arrived before. -/
def h2WsAccept (sid : ℕ) (dateStr serverHeader proto ext : Bytes) (c : Conn) : Conn :=
  match c.stream? sid with
  | none => c
  | some st =>
      if !st.isWsConnect || st.responded || st.ws.isSome then c
      else
        let c := c.modify sid (fun st => { st with
          responded := true
          ws := some { inBuf := st.body, preAcceptFin := st.endStreamSeen }
          body := [] })
        c.emitBlock sid (wsAcceptBlock dateStr serverHeader proto ext) false

end Vortex.Http2
