import LuminalShine.Lib.Run
import LuminalShine.Lib.Segments
import LuminalShine.Lib.Chunks
import LuminalShine.VideoQos
import LuminalShine.Transport.Packetize
import LuminalShine.Transport.Fec
import LuminalShine.Lifecycle.Coordinator
import LuminalShine.Lifecycle.Lease
import LuminalShine.Lifecycle.DeferredCleanup
import LuminalShine.Rtsp.Admission
import LuminalShine.Lib.Records
import LuminalShine.Pairing.Session
import LuminalShine.Pairing.Requests
import LuminalShine.Lib.KeyedLog
import LuminalShine.Pairing.Authorisation
import LuminalShine.Lib.PropertyTree
import LuminalShine.ClientStore.Format
import LuminalShine.ClientStore.Store
import LuminalShine.ClientStore.Revocation
import LuminalShine.ClientStore.Concurrent
import LuminalShine.Rtsp.SessionSet
import LuminalShine.Lib.Since
import LuminalShine.Safe.Queue
import LuminalShine.Ring.Ladder
import LuminalShine.Ring.Evidence
import LuminalShine.Ring.Recovery
import LuminalShine.Transport.Depacketize
import LuminalShine.Lib.Search
import LuminalShine.Rtsp.Reader
import LuminalShine.Lib.Access
import LuminalShine.Control.Dispatch
import LuminalShine.Lib.Assoc
import LuminalShine.Pairing.Moves
import LuminalShine.Pairing.Store
import LuminalShine.Pairing.Held
import LuminalShine.HttpAuth.SessionTokens
import LuminalShine.HttpAuth.SessionStore
import LuminalShine.Lib.WriteBehind
import LuminalShine.HttpAuth.Persistence
import LuminalShine.Lib.Descending
import LuminalShine.TaskPool
import LuminalShine.Pyrowave.AdaptiveFec
import LuminalShine.Lib.SortedMap
import LuminalShine.HttpAuth.ApiTokens
import LuminalShine.Crypto.Nonces
import LuminalShine.SerialExecutor
import LuminalShine.CredStore.Seal
import LuminalShine.CredStore.Load
import LuminalShine.StateFile.Disk
import LuminalShine.StateFile.Crash
import LuminalShine.StateFile.Migration
import LuminalShine.UserCreds.Record
import LuminalShine.UserCreds.Threads
import LuminalShine.UserCreds.Password
import LuminalShine.Lib.Command
import LuminalShine.Lib.WindowsPath
import LuminalShine.Config.Text
import LuminalShine.Config.Settings
import LuminalShine.Config.Readers
import LuminalShine.Config.Apply
import LuminalShine.Config.Kept
import LuminalShine.Config.History
import LuminalShine.Pipes.Framed
import LuminalShine.DisplayHelper.SessionDeferral
import LuminalShine.Pyrowave.Replenish
import LuminalShine.Input.Batching
import LuminalShine.Input.Held
import LuminalShine.Input.Handoff
import LuminalShine.Config.Line
import LuminalShine.Config.Update
import LuminalShine.CredStore.SelfHeal
import LuminalShine.Lib.Leading
import LuminalShine.Playnite.Games
import LuminalShine.Playnite.Apps
import LuminalShine.Playnite.Result
import LuminalShine.Playnite.Rerun
import LuminalShine.Playnite.Order
import LuminalShine.Pipes.Handshake
import LuminalShine.Lib.Simulation
import LuminalShine.Lib.Ownership
import LuminalShine.Input.Gamepads
import LuminalShine.WebRtc.Pacing
import LuminalShine.WebRtc.Egress
import LuminalShine.WebRtc.EgressSafety
import LuminalShine.WebRtc.Exclusivity
import LuminalShine.WebRtc.ExclusivitySafety
import LuminalShine.Lib.Threads
import LuminalShine.WebRtc.Sessions
import LuminalShine.Lib.Brackets
import LuminalShine.Process.Launch
import LuminalShine.Process.PrepUndo
import LuminalShine.Lib.Calls
import LuminalShine.Nvprefs.Driver
import LuminalShine.Nvprefs.Journal
import LuminalShine.Nvprefs.Modify
import LuminalShine.Nvprefs.UndoJournal
import LuminalShine.Vhf.Gamepads
import LuminalShine.Vhf.Slots
import LuminalShine.Vhf.Invariant
import LuminalShine.Vhf.Consistency
import LuminalShine.Config.Failure
import LuminalShine.Lib.JsonReads
import LuminalShine.Playnite.Protocol
import LuminalShine.ClientStore.RoundTrip
import LuminalShine.Process.AppFiles
import LuminalShine.Process.AppIds
import LuminalShine.Lib.Steady
import LuminalShine.Process.Refresh
import LuminalShine.Process.SessionGuard
import LuminalShine.Lib.Ends
import LuminalShine.WebRtc.InputMessages
import LuminalShine.WebRtc.InputConsistency
import LuminalShine.WebRtc.Offers
import LuminalShine.WebRtc.OfferResidue
import LuminalShine.Config.Deferred
import LuminalShine.Crypto.CertChain
import LuminalShine.Lib.Recent
import LuminalShine.Pyrowave.Alignment
import LuminalShine.Cursor.VisibilityFilter
import LuminalShine.CredStore.FileBackend
import LuminalShine.CredStore.Retry
import LuminalShine.Pipes.Overlapped
import LuminalShine.Integrity
import LuminalShine.Nvenc.RefFrames
import LuminalShine.Input.Bounds
import LuminalShine.Changelog.Book
import LuminalShine.Encoder.RecoveryGate
import LuminalShine.WebRtc.LinkMonitor
import LuminalShine.Lib.FirstSeen
import LuminalShine.Lib.PrettyJson
import LuminalShine.Lib.HexText
import LuminalShine.Pyrowave.ProbeProtocol
import LuminalShine.HttpAuth.Cookies
import LuminalShine.Rtsp.Requests
import LuminalShine.Crypto.GcmDecrypt
import LuminalShine.Pyrowave.TransportBound
import LuminalShine.Lib.Scan
import LuminalShine.Steam.BinaryVdf
import LuminalShine.Steam.TextVdf
import LuminalShine.Lib.Comparator
import LuminalShine.VersionCompare
import LuminalShine.Changelog.Acks
import LuminalShine.Changelog.Size
import LuminalShine.Changelog.Disk
import LuminalShine.Changelog.Runs
import LuminalShine.Transport.Replace
import LuminalShine.Process.Expansion
import LuminalShine.Crypto.HexCodec
import LuminalShine.Pairing.PeerCerts
import LuminalShine.Tdr.Incidents
import LuminalShine.Lib.Separated
import LuminalShine.WebRtc.OpusSdp
import LuminalShine.WebRtc.OpusEdits
import LuminalShine.WebRtc.OpusSdpFrame
import LuminalShine.Safe.Mail
import LuminalShine.Safe.Shared
import LuminalShine.Transport.AudioFec
import LuminalShine.Logging.Rollover
import LuminalShine.DisplayDevice.Modes
import LuminalShine.DisplayHelper.RestoreChain
import LuminalShine.SessionMon.Channel
import LuminalShine.SessionMon.Store
import LuminalShine.SessionMon.Flush
import LuminalShine.WebRtc.MouseMoves
import LuminalShine.DisplayHelper.RestorePolling
import LuminalShine.Control.PeersSafety
import LuminalShine.Transport.Pings
