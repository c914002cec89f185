import Vortex.Bytes
import Vortex.FieldRules

/-! # The HTTP/2 frame layer

`frames.nim`: the 9-byte frame header, the byte-order helpers, the constants and the writers of
the fixed-shape frames.  An inbound frame is a parsed header with exactly the payload bytes it
announces (`InFrame`); an outbound frame is kept structured (`Frame`) and `Frame.bytes` is what
the codec appends to the write buffer for it. -/

namespace Vortex.Http2

/-! ### Constants -/

/-- The frame types of RFC 9113 that the codec tells apart. -/
inductive FrameType where
  | ftData | ftHeaders | ftPriority | ftRstStream | ftSettings | ftPushPromise | ftPing
  | ftGoaway | ftWindowUpdate | ftContinuation
deriving DecidableEq, Repr

/-- The wire value of a frame type. -/
def FrameType.code : FrameType → ℕ
  | .ftData => 0 | .ftHeaders => 1 | .ftPriority => 2 | .ftRstStream => 3 | .ftSettings => 4
  | .ftPushPromise => 5 | .ftPing => 6 | .ftGoaway => 7 | .ftWindowUpdate => 8
  | .ftContinuation => 9

/-- The frame type of a wire value; higher values are unknown types. -/
def FrameType.ofCode : ℕ → Option FrameType
  | 0 => some .ftData | 1 => some .ftHeaders | 2 => some .ftPriority | 3 => some .ftRstStream
  | 4 => some .ftSettings | 5 => some .ftPushPromise | 6 => some .ftPing | 7 => some .ftGoaway
  | 8 => some .ftWindowUpdate | 9 => some .ftContinuation | _ => none

def frameHeaderLen : ℕ := 9

def flagEndStream : UInt8 := 0x01
def flagAck : UInt8 := 0x01
def flagEndHeaders : UInt8 := 0x04
def flagPadded : UInt8 := 0x08
def flagPriority : UInt8 := 0x20

/-- RFC 9218 PRIORITY_UPDATE, outside the range of `FrameType`. -/
def ftPriorityUpdate : ℕ := 0x10

def defaultMaxFrameSize : ℕ := 16384
def defaultInitialWindow : ℤ := 65535

/-- Error codes of RFC 9113 section 7. -/
inductive ErrCode where
  | errNoError | errProtocol | errInternal | errFlowControl | errStreamClosed | errFrameSize
  | errRefusedStream | errCancel | errCompression | errEnhanceYourCalm
deriving DecidableEq, Repr

def ErrCode.code : ErrCode → ℕ
  | .errNoError => 0 | .errProtocol => 1 | .errInternal => 2 | .errFlowControl => 3
  | .errStreamClosed => 5 | .errFrameSize => 6 | .errRefusedStream => 7 | .errCancel => 8
  | .errCompression => 9 | .errEnhanceYourCalm => 11

def setHeaderTableSize : ℕ := 1
def setEnablePush : ℕ := 2
def setMaxConcurrentStreams : ℕ := 3
def setInitialWindowSize : ℕ := 4
def setMaxFrameSize : ℕ := 5
def setEnableConnectProtocol : ℕ := 8
def setNoRfc7540Priorities : ℕ := 9

/-- The client connection preface. -/
def connectionPreface : Bytes := ascii "PRI * HTTP/2.0\r\n\r\nSM\r\n\r\n"

/-! ### Byte order -/

/-- The byte at `pos`. -/
def byteAt (buf : Bytes) (pos : ℕ) : ℕ := (buf.getD pos 0).toNat

def get24 (buf : Bytes) (pos : ℕ) : ℕ :=
  byteAt buf pos * 2 ^ 16 + byteAt buf (pos + 1) * 2 ^ 8 + byteAt buf (pos + 2)

def get32 (buf : Bytes) (pos : ℕ) : ℕ :=
  byteAt buf pos * 2 ^ 24 + byteAt buf (pos + 1) * 2 ^ 16 + byteAt buf (pos + 2) * 2 ^ 8 +
    byteAt buf (pos + 3)

def get16 (buf : Bytes) (pos : ℕ) : ℕ := byteAt buf pos * 2 ^ 8 + byteAt buf (pos + 1)

/-- Clear the reserved top bit of a 32-bit field. -/
def low31 (v : ℕ) : ℕ := v % 2 ^ 31

def add24 (v : ℕ) : Bytes := [(v / 2 ^ 16).toUInt8, (v / 2 ^ 8).toUInt8, v.toUInt8]

def add32 (v : ℕ) : Bytes :=
  [(v / 2 ^ 24).toUInt8, (v / 2 ^ 16).toUInt8, (v / 2 ^ 8).toUInt8, v.toUInt8]

def add16 (v : ℕ) : Bytes := [(v / 2 ^ 8).toUInt8, v.toUInt8]

/-! ### Inbound frames -/

/-- A parsed frame header; the type is raw because unknown types are ignored. -/
structure FrameHeader where
  length : ℕ
  typ : ℕ
  flags : UInt8
  streamId : ℕ
deriving DecidableEq, Repr

/-- Is this flag set? -/
def FrameHeader.has (fh : FrameHeader) (flag : UInt8) : Bool := fh.flags &&& flag != 0

def parseFrameHeader (buf : Bytes) (pos : ℕ) : FrameHeader where
  length := get24 buf pos
  typ := byteAt buf (pos + 3)
  flags := buf.getD (pos + 4) 0
  streamId := low31 (get32 buf (pos + 5))

/-- A complete inbound frame: the payload is as long as the header says. -/
structure InFrame where
  header : FrameHeader
  payload : Bytes
  length_eq : payload.length = header.length
deriving DecidableEq, Repr

/-! ### Outbound frames -/

/-- A frame the server writes. -/
inductive Frame where
  | settings (entries : List (ℕ × ℕ))
  | settingsAck
  | pingAck (payload : Bytes)
  | goaway (lastStreamId : ℕ) (err : ErrCode)
  | windowUpdate (streamId increment : ℕ)
  | rstStream (streamId : ℕ) (err : ErrCode)
  | headers (streamId : ℕ) (fragment : Bytes) (endStream endHeaders : Bool)
  | continuation (streamId : ℕ) (fragment : Bytes) (endHeaders : Bool)
  | data (streamId : ℕ) (payload : Bytes) (endStream : Bool)
deriving DecidableEq, Repr

def addFrameHeader (length : ℕ) (typ : FrameType) (flags : UInt8) (streamId : ℕ) : Bytes :=
  add24 length ++ typ.code.toUInt8 :: flags :: add32 streamId

def addSetting (entry : ℕ × ℕ) : Bytes := add16 entry.1 ++ add32 entry.2

/-- `flag` when `b`, no flag otherwise. -/
def flagIf (b : Bool) (flag : UInt8) : UInt8 := if b then flag else 0

/-- The bytes of an outbound frame. -/
def Frame.bytes : Frame → Bytes
  | .settings entries =>
      let payload := entries.flatMap addSetting
      addFrameHeader payload.length .ftSettings 0 0 ++ payload
  | .settingsAck => addFrameHeader 0 .ftSettings flagAck 0
  | .pingAck payload => addFrameHeader 8 .ftPing flagAck 0 ++ payload
  | .goaway last err => addFrameHeader 8 .ftGoaway 0 0 ++ add32 last ++ add32 err.code
  | .windowUpdate sid inc => addFrameHeader 4 .ftWindowUpdate 0 sid ++ add32 inc
  | .rstStream sid err => addFrameHeader 4 .ftRstStream 0 sid ++ add32 err.code
  | .headers sid frag es eh =>
      addFrameHeader frag.length .ftHeaders (flagIf eh flagEndHeaders ||| flagIf es flagEndStream)
        sid ++ frag
  | .continuation sid frag eh =>
      addFrameHeader frag.length .ftContinuation (flagIf eh flagEndHeaders) sid ++ frag
  | .data sid payload es =>
      addFrameHeader payload.length .ftData (flagIf es flagEndStream) sid ++ payload

end Vortex.Http2
