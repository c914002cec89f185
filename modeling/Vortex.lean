import Vortex.Loop
import Vortex.System
import Vortex.Outbox
import Vortex.WorkerPool
import Vortex.WsBlocking
import Vortex.Ws.Utf8
import Vortex.StaticFiles
import Vortex.Dispatch
import Vortex.Pins
import Vortex.Awaited
import Vortex.Isolation
import Vortex.Bytes
import Vortex.Text
import Vortex.FieldRules
import Vortex.Forwarding
import Vortex.TrustedProxies
import Vortex.Http1.Parser
import Vortex.Http1.Segmentation
import Vortex.Http1.Chunked
import Vortex.Http1.Framing
import Vortex.Http1.Codings
import Vortex.Http1.Compaction
import Vortex.Http1.Connection
import Vortex.Http1.Streaming
import Vortex.Http1.Sinks
import Vortex.Http1.ReadAhead
import Vortex.Http1.Response
import Vortex.Http1.Delimiting
import Vortex.Http1.Rendered
import Vortex.Http1.Talk
import Vortex.Http1.Dialogue
import Vortex.Http1.Owed
import Vortex.Table
import Vortex.Http2.Frames
import Vortex.Http2.HpackTables
import Vortex.Http2.Hpack
import Vortex.Http2.Huffman
import Vortex.Http2.State
import Vortex.Http2.Journal
import Vortex.Http2.Sender
import Vortex.Http2.Receiver
import Vortex.Http2.HeaderFrames
import Vortex.Http2.Run
import Vortex.Http2.Effects
import Vortex.Http2.Transitions
import Vortex.Http2.WritePaths
import Vortex.Http2.ReadTransitions
import Vortex.Http2.ReadPaths
import Vortex.Http2.Counters
import Vortex.Http2.Exchange
import Vortex.Http2.ExchangeEffects
import Vortex.Http2.Refinement
import Vortex.Http2.Closing
import Vortex.Http2.Producers
import Vortex.Http2.BodyLength
import Vortex.Http2.Sinks
import Vortex.Http2.Responses
import Vortex.Http2.Ledger
import Vortex.Http2.DecoderSync
import Vortex.Http2.DynamicTable
import Vortex.Http2.TableSizes
import Vortex.Http2.SendWindows
import Vortex.Http2.Admission
import Vortex.Http2.Metering
import Vortex.Http2.Cancellations
import Vortex.Http2.FloodBudget
import Vortex.Http2.Turns
import Vortex.Http2.Stalls
import Vortex.Http2.IdleUpdates
import Vortex.Http2.RecvWindow
import Vortex.Http2.RecvConservation
import Vortex.Http2.Intake
import Vortex.Http2.ReadBoundaries
import Vortex.PackedResponse
