import RustyIce.Library.Machine
import RustyIce.Library.Notify
import RustyIce.Core.Config
import RustyIce.Core.Mount
import RustyIce.Library.Interleave
import RustyIce.Output.HttpPassthrough
import RustyIce.Codec.Ogg
import RustyIce.Codec.OggHeaderCapture
import RustyIce.Output.IcyTransparency
import RustyIce.Codec.VorbisHeaders
import RustyIce.Ingest.Publish
import RustyIce.Ingest.VorbisSession
import RustyIce.Admin.ConfigApi
import RustyIce.Admin.SaveSerialisation
import RustyIce.Auth.TomlBcrypt
import RustyIce.Library.Keyed
import RustyIce.Library.Parties
import RustyIce.Server.State
import RustyIce.Server.ConfigReload
import RustyIce.Server.SourceProtocol
import RustyIce.Server.HotReload
import RustyIce.Server.ReloadSteps
import RustyIce.Server.SourceAuth
import RustyIce.Server.Slot
import RustyIce.Server.SourceHandler
import RustyIce.Server.TaskRole
import RustyIce.AutoDj.Player
import RustyIce.Server.MountSystem
import RustyIce.Server.Cancellation
import RustyIce.Server.Ownership
import RustyIce.Server.Wakeup
import RustyIce.Library.Interference
import RustyIce.Server.Rejection
import RustyIce.Server.Bus
import RustyIce.Server.ListenerCodec
import RustyIce.Server.OneOwner
import RustyIce.Server.SessionContents
import RustyIce.Auth.CredentialReload
import RustyIce.Library.Broadcast
import RustyIce.Server.BusStream
import RustyIce.Admin.Sessions
import RustyIce.Library.Delimited
import RustyIce.Server.Chunked
import RustyIce.Server.ChunkedStream
import RustyIce.Codec.Mp3
import RustyIce.Codec.VorbisProbe
import RustyIce.Ingest.Icecast
import RustyIce.Ingest.Passthrough
import RustyIce.Server.SourceServer
import RustyIce.Server.DisconnectGuard
import RustyIce.Library.SocketText
import RustyIce.Library.Toml
import RustyIce.Admin.ConfigWrite
import RustyIce.Admin.ConfigPut
import RustyIce.Admin.WriteBack
import RustyIce.Admin.FileAgreement
import RustyIce.Library.SnapshotCell
import RustyIce.Server.InfoSwaps
import RustyIce.Server.ServerRuns
import RustyIce.Server.MetadataReload
import RustyIce.Ingest.PacingRate
import RustyIce.Server.ListenerCaps
import RustyIce.Server.TaskRegistries
import RustyIce.Server.MountRemoval
import RustyIce.Server.ConfigSafety
import RustyIce.Server.Preemption
import RustyIce.Library.Json
import RustyIce.Admin.ConfigView
import RustyIce.Admin.ConfigEndpoints
import RustyIce.Admin.ConfigEcho
import RustyIce.Library.TwoRuns
import RustyIce.Admin.CredentialHiding
import RustyIce.Server.ChunkDecoding
import RustyIce.Server.RequestBody
import RustyIce.Codec.CaptureSplitting
import RustyIce.Transcode.StreamDecoder
import RustyIce.Transcode.PageStaging
import RustyIce.Admin.Title
import RustyIce.AutoDj.Playlist
import RustyIce.AutoDj.Rotation
import RustyIce.Library.Cycle
import RustyIce.AutoDj.TitleOwners
import RustyIce.Server.RelayBackoff
import RustyIce.Server.TranscodeDecision
import RustyIce.Library.Columns
import RustyIce.Transcode.Pipeline
import RustyIce.Transcode.FrameConservation
import RustyIce.Ingest.Transcoding
import RustyIce.AutoDj.Playback
import RustyIce.Ingest.RateDetection
import RustyIce.Output.IcyFields
import RustyIce.Server.SourceHeaders
import RustyIce.Transcode.FrameStaging
import RustyIce.Codec.XingFrames
import RustyIce.Server.SizeGrammar
import RustyIce.Server.DecoderErrors
import RustyIce.Server.HeadReading
import RustyIce.Server.ResponseHeaders
import RustyIce.Library.ReadBuf
import RustyIce.Server.PayloadBuffer
import RustyIce.Library.Spacing
import RustyIce.AutoDj.Spinning
import RustyIce.Server.IngestEndings
import RustyIce.Server.FinalResponse
import RustyIce.Admin.ListenerMap
import RustyIce.Library.Pipe
import RustyIce.Server.Delivery
import RustyIce.Server.KickedListeners
import RustyIce.Server.ListenerTask
import RustyIce.Server.ListenerRegistry
import RustyIce.Server.ListenerEnds
import RustyIce.Ingest.ReaderTask
import RustyIce.Server.Broadcast
import RustyIce.Admin.AtomicWrite
import RustyIce.Admin.SessionHistory
import RustyIce.Server.ListenerProgress
import RustyIce.Admin.StatsScan
import RustyIce.Server.AcceptLoop
import RustyIce.Server.WireToListener
import RustyIce.Transcode.SplitStaging
import RustyIce.AutoDj.Shuffle
import RustyIce.Server.TitlesShown
