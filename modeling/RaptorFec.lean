import RaptorFec.Library.BTreeMap
import RaptorFec.Library.BestFit
import RaptorFec.Library.Breaks
import RaptorFec.Library.Bytes
import RaptorFec.Library.Crc
import RaptorFec.Library.Demux
import RaptorFec.Library.Fallible
import RaptorFec.Library.Fifo
import RaptorFec.Library.HashMap
import RaptorFec.Library.Pieces
import RaptorFec.Library.Recency
import RaptorFec.Library.Runs
import RaptorFec.Library.Target
import RaptorFec.Library.Tiles
import RaptorFec.Library.Words
import RaptorFec.Crates
import RaptorFec.Crates.Repetition
import RaptorFec.Crates.Crc32
import RaptorFec.Datagram.Header
import RaptorFec.Datagram.Target
import RaptorFec.Datagram.Encoder
import RaptorFec.Datagram.SequenceTracker
import RaptorFec.Datagram.SequenceOffsets
import RaptorFec.Datagram.PermanentLoss
import RaptorFec.Datagram.SequenceFlags
import RaptorFec.Datagram.Decoder
import RaptorFec.Datagram.Honest
import RaptorFec.Datagram.Window
import RaptorFec.Datagram.Remembered
import RaptorFec.Datagram.Preconditions
import RaptorFec.Datagram.Repair
import RaptorFec.Datagram.Payload
import RaptorFec.Datagram.Lossy
import RaptorFec.Datagram.OnDemand
import RaptorFec.Datagram.Independent
import RaptorFec.Datagram.Udp
import RaptorFec.Datagram.Calls
import RaptorFec.Datagram.Pools
import RaptorFec.Datagram.Profile
import RaptorFec.Library.Collector
import RaptorFec.Media.Adaptive
import RaptorFec.Media.Header
import RaptorFec.Media.Encoder
import RaptorFec.Media.Atomic
import RaptorFec.Media.Pools
import RaptorFec.Media.Decoder
import RaptorFec.Media.Recovery
import RaptorFec.Media.Reassembly
import RaptorFec.Media.Window
import RaptorFec.Media.Arrivals
import RaptorFec.Media.Requested
import RaptorFec.Media.Serialized
import RaptorFec.Media.Layout
import RaptorFec.Media.Telemetry
import RaptorFec.Media.Backfill
import RaptorFec.Audio.ShardHeader
import RaptorFec.Audio.Geometry
import RaptorFec.Audio.Optimal
import RaptorFec.Audio.Encoder
import RaptorFec.Audio.Transmission
import RaptorFec.Audio.Fragments
import RaptorFec.Audio.Accepted
import RaptorFec.Audio.Decoder
import RaptorFec.Audio.Delivered
import RaptorFec.Audio.Honest
import RaptorFec.Audio.Inspect
import RaptorFec.Audio.Flow
import RaptorFec.Audio.Followed
import RaptorFec.Audio.Recovery
import RaptorFec.Audio.Retention
import RaptorFec.Audio.Statistics
import RaptorFec.Audio.Rejected
import RaptorFec.Audio.Corruption
import RaptorFec.Session.Assembly
import RaptorFec.Session.Honest
import RaptorFec.Session.Tiling
import RaptorFec.Session.Playout
import RaptorFec.Session.Cursor
import RaptorFec.Session.Receiver
import RaptorFec.Session.Steps
import RaptorFec.Session.Bounded
import RaptorFec.Session.Exact
import RaptorFec.Session.Accounting
import RaptorFec.Session.Gathered
import RaptorFec.Session.Waiting
import RaptorFec.Session.Progress
import RaptorFec.Session.Played
import RaptorFec.Library.Tagged
import RaptorFec.Codecs
import RaptorFec.Schedule.Plan
import RaptorFec.Schedule.Conservation
import RaptorFec.Schedule.Outcomes
import RaptorFec.Schedule.Priority
import RaptorFec.Schedule.Pacing
import RaptorFec.Schedule.Recovery
import RaptorFec.Transport.Adapter
import RaptorFec.Transport.Streams
import RaptorFec.Transport.Sending
