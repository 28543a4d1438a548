import Tapes.Js.Text
import Tapes.Js.Number
import Tapes.Js.Json
import Tapes.Provenance.CanonicalJson
import Tapes.Provenance.Signing
import Tapes.Provenance.Statements
import Tapes.Provenance.RecordingProvenance
import Tapes.Provenance.Passes
import Tapes.Provenance.Soundness
import Tapes.Provenance.Shown
import Tapes.Machine.Run
import Tapes.Vouching.HostVouching
import Tapes.Vouching.Resolution
import Tapes.Vouching.ResolvedOnce
import Tapes.Machine.Table
import Tapes.Sessions.SessionRecorder
import Tapes.Sessions.Coverage
import Tapes.Events.Aggregates
import Tapes.Events.Retention
import Tapes.Blobs.BlobGc
import Tapes.Blobs.BlobStore
import Tapes.Blobs.Owners
import Tapes.Js.NumberText
import Tapes.Js.JsonText
import Tapes.Js.JsonScan
import Tapes.Events.Segment
import Tapes.Events.LogLines
import Tapes.Events.Admission
import Tapes.Events.TornTail
import Tapes.Provenance.ListOrder
import Tapes.Js.Utf8
import Tapes.Js.WellFormed
import Tapes.Provenance.Base64Url
import Tapes.Provenance.KeyOrder
import Tapes.Provenance.Canonical
import Tapes.Js.JsonParsed
import Tapes.Provenance.Codec
import Tapes.Vouching.VouchRevocation
import Tapes.Vouching.RevokedDeviceKeys
import Tapes.Vouching.PinGuesses
import Tapes.Vouching.PinLockout
import Tapes.Uploads.StatementUpload
import Tapes.Provenance.SameShape
import Tapes.Uploads.HostAndReader
import Tapes.Blobs.MetaTypes
import Tapes.Uploads.BlobHost
import Tapes.Uploads.VerifiedType
import Tapes.Blobs.TypedOwners
import Tapes.Uploads.UsableStatements
import Tapes.Js.RankSort
import Tapes.Uploads.Replicated
import Tapes.Outbox.Delivery
import Tapes.Outbox.HostLog
import Tapes.Outbox.EventTarget
import Tapes.Guest.PersonKey
import Tapes.Guest.StableKey
import Tapes.Js.JsonIndent
import Tapes.Provenance.PersonKeyBackup
import Tapes.Provenance.BackupFormat
import Tapes.Provenance.BackupText
import Tapes.Challenges.SignedRequests
import Tapes.Challenges.SyncChallenges
import Tapes.Challenges.OneTime
import Tapes.Sessions.HostSession
import Tapes.Sessions.PublishedField
import Tapes.Roster.RosterEntry
import Tapes.Provenance.RereadData
import Tapes.Roster.RosterFile
import Tapes.Roster.RosterRoundTrip
import Tapes.Roster.PersonRoster
import Tapes.Roster.DurableMap
import Tapes.Roster.Restart
import Tapes.Roster.HostCalls
import Tapes.Roster.JoinRaces
import Tapes.Roster.PinDecisions
import Tapes.Machine.PromiseLock
import Tapes.Uploads.ClaimIngest
import Tapes.Uploads.ClaimLock
import Tapes.Blobs.Calm
import Tapes.Uploads.OneReceipt
import Tapes.Sessions.Presence
import Tapes.Events.DeviceScope
import Tapes.Sessions.SignedSpans
import Tapes.Outbox.Answer
import Tapes.Outbox.FlushQueue
import Tapes.Outbox.PlayEventQueue
import Tapes.Events.FailedAppend
import Tapes.Tls.CertManager
import Tapes.Tls.KilledWrites
import Tapes.Blobs.GracePeriod
import Tapes.Roster.PasskeyOwners
import Tapes.Recorder.PendingUploads
import Tapes.Recorder.RecordButton
import Tapes.Recorder.SavedUploads
import Tapes.Recorder.Takes
import Tapes.Recorder.TakeSteps
import Tapes.Recorder.TakesApart
import Tapes.Outbox.Delivered
import Tapes.Blobs.BlobHttp
import Tapes.Blobs.ByteRanges
import Tapes.Blobs.CachePut
import Tapes.Blobs.RefusedPut
import Tapes.Roster.UnreadEntries
import Tapes.Roster.PasskeyPut
import Tapes.Guest.RestoredKeys
import Tapes.Vouching.OneRevocation
import Tapes.Events.IngestAnswer
import Tapes.Outbox.FlushHook
import Tapes.Pins.PinContext
import Tapes.Vouching.WaitingRequests
import Tapes.Pins.PinPromise
import Tapes.Identity.Ceremony
import Tapes.Pairing.Fingerprint
import Tapes.Js.CodePoints
import Tapes.Pairing.Label
import Tapes.Js.Utf8Decoder
import Tapes.Js.Uri
import Tapes.Pairing.LoneSurrogates
import Tapes.Pairing.GuestUrl
import Tapes.Sessions.RecordOrder
import Tapes.Blobs.BlobClient
import Tapes.Outbox.RateLimiter
import Tapes.Recorder.SoxRecorder
import Tapes.Recorder.SoxTakes
import Tapes.Js.PosixPath
import Tapes.Machine.Ensures
import Tapes.Server.BlobRoute
import Tapes.Server.Routes
import Tapes.Server.RequestHandler
import Tapes.Server.Verdicts
import Tapes.Server.EveryTarget
import Tapes.Connections.Answering
import Tapes.Connections.HostPresence
import Tapes.Connections.ConnectedDevices
import Tapes.Identity.CeremonyMessages
import Tapes.Identity.OneCeremony
import Tapes.Connections.Admitted
import Tapes.Counts.AggregatesContext
import Tapes.Counts.ShownCounts
import Tapes.Connections.ProvenDevice
import Tapes.Worker.CallWorker
import Tapes.Worker.SettledOnce
