import RcControl.Data.Machine
import RcControl.Data.ByteStream
import RcControl.Data.StreamCuts
import RcControl.Data.Framing
import RcControl.Data.Memory
import RcControl.Data.Registry
import RcControl.Data.Assembly
import RcControl.Data.Serial
import RcControl.Data.Fifo
import RcControl.Data.Lifetime
import RcControl.Data.Turns
import RcControl.Data.Ledger
import RcControl.Data.Slots
import RcControl.Data.Relaxation
import RcControl.Data.CString
import RcControl.H264.NaluIndices
import RcControl.H264.UnitIndices
import RcControl.H264.PlainScan
import RcControl.H264.CallHistory
import RcControl.H264.FramedSize
import RcControl.Stream.Frame
import RcControl.Stream.UnitBuffers
import RcControl.Stream.RealUnits
import RcControl.Stream.KeyFrameCache
import RcControl.Stream.Capacity
import RcControl.Stream.Server
import RcControl.Stream.RoundTrip
import RcControl.Stream.JoinBurst
import RcControl.Stream.Timestamps
import RcControl.Stream.ReportCadence
import RcControl.Stream.Isolation
import RcControl.Stream.Grouping
import RcControl.Stream.Cuts
import RcControl.Stream.JoinOrder
import RcControl.Control.Message
import RcControl.Control.Page
import RcControl.Control.Envelope
import RcControl.Control.DeadMan
import RcControl.Control.HeldControls
import RcControl.Control.Peers
import RcControl.Control.Lifecycle
import RcControl.Control.PartialUpdate
import RcControl.Control.DriveLimits
import RcControl.Control.Response
import RcControl.Signalling.Handler
import RcControl.Signalling.MissingPeer
import RcControl.Signalling.FailedMessage
import RcControl.Signalling.Ownership
import RcControl.Signalling.Sockets
import RcControl.Signalling.Agreement
import RcControl.Args.ArgParser
import RcControl.Args.Grammar
import RcControl.Dispatch.Queue
import RcControl.Dispatch.Moves
import RcControl.Dispatch.Exclusion
import RcControl.Dispatch.Order
import RcControl.Dispatch.Shutdown
import RcControl.Dispatch.Wakeups
import RcControl.Dispatch.Joins
import RcControl.Dispatch.ClientCode
import RcControl.Camera.Circulation
import RcControl.Camera.Conservation
import RcControl.Camera.FrameOrder
import RcControl.Camera.Circuit
import RcControl.Camera.CircuitHeaders
import RcControl.Camera.CircuitRuns
import RcControl.Camera.FillPort
import RcControl.Camera.FillPortWaits
import RcControl.Camera.FillPortRank
import RcControl.Camera.FillPortEnds
import RcControl.Camera.Startup
import RcControl.Camera.Resources
import RcControl.Camera.Handshake
import RcControl.Camera.HandOver
import RcControl.Camera.VideoFormat
import RcControl.Mmal.QueueRuns
import RcControl.Mmal.BufferRuns
import RcControl.Program.Pipeline
import RcControl.Vcos.EventsKept
import RcControl.Vcos.EventCompletion
