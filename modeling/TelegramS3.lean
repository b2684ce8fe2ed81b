import TelegramS3.Table
import TelegramS3.Run
import TelegramS3.Fallible
import TelegramS3.Versions
import TelegramS3.Streams
import TelegramS3.Manifest
import TelegramS3.Store
import TelegramS3.Outbox
import TelegramS3.Transfers
import TelegramS3.SendAttempts
import TelegramS3.Manifests
import TelegramS3.Accounts
import TelegramS3.Multipart
import TelegramS3.Recovery
import TelegramS3.Service
import TelegramS3.Operations
import TelegramS3.Frame
import TelegramS3.IndexUpdates
import TelegramS3.Handovers
import TelegramS3.Targets
import TelegramS3.Evidence
import TelegramS3.JobUpdates
import TelegramS3.Jobs
import TelegramS3.Claiming
import TelegramS3.Leases
import TelegramS3.Visibility
import TelegramS3.Supersession
import TelegramS3.ActiveIndex
import TelegramS3.Reopening
import TelegramS3.Tombstones
import TelegramS3.StaleWrites
import TelegramS3.Publication
import TelegramS3.Recommits
import TelegramS3.Blocking
import TelegramS3.Waiting
import TelegramS3.ActiveJobs
import TelegramS3.Rows
import TelegramS3.Restoring
import TelegramS3.Sweeping
import TelegramS3.Serialization
import TelegramS3.Connections
import TelegramS3.Quotas
import TelegramS3.Detaching
import TelegramS3.Replacing
import TelegramS3.Completion
import TelegramS3.WriteRequests
import TelegramS3.ConditionalWrites
import TelegramS3.Rechunking
import TelegramS3.Sending
import TelegramS3.Accounting
import TelegramS3.AtMostOnce
import TelegramS3.Patterns
import TelegramS3.Paging
import TelegramS3.Listing
import TelegramS3.BucketPages
import TelegramS3.Moves
import TelegramS3.Reading
import TelegramS3.Failover
import TelegramS3.Segments
import TelegramS3.Tiling
import TelegramS3.Blocks
import TelegramS3.AdminPages
import TelegramS3.Codes
import TelegramS3.Reception
import TelegramS3.Chunking
import TelegramS3.RoundTrip
import TelegramS3.Provenance
import TelegramS3.DigestInputs
import TelegramS3.Tags
import TelegramS3.Removal
import TelegramS3.Retrying
import TelegramS3.Receptions
import TelegramS3.Acceptance
import TelegramS3.PartUploads
import TelegramS3.Ranges
import TelegramS3.Lockouts
import TelegramS3.Lexicographic
import TelegramS3.Timestamps
import TelegramS3.Operators
import TelegramS3.Sessions
import TelegramS3.BackgroundJobs
import TelegramS3.Serving
import TelegramS3.PartCopies
import TelegramS3.Ownership
import TelegramS3.Cleaning
import TelegramS3.ReadPins
import TelegramS3.DeletedChats
import TelegramS3.Holding
import TelegramS3.DanglingChunks
import TelegramS3.Endings
import TelegramS3.Tracking
import TelegramS3.RemoteLeaks
import TelegramS3.KeyDeletes
import TelegramS3.ShareLinks
import TelegramS3.BucketDeletion
import TelegramS3.Prefetching
import TelegramS3.ReadPlanning
import TelegramS3.Charges
import TelegramS3.Chunkers
import TelegramS3.RechunkedContent
import TelegramS3.ReceptionCalls
import TelegramS3.ResumableLayout
import TelegramS3.StagingBudget
import TelegramS3.ConditionAgreement
import TelegramS3.LastModified
import TelegramS3.StableSort
import TelegramS3.VersionListing
import TelegramS3.StartAfter
import TelegramS3.IndexVerification
import TelegramS3.RemovalFrame
import TelegramS3.RemoteScan
import TelegramS3.TransferLoop
import TelegramS3.FloodWaits
import TelegramS3.ParkedJobs
import TelegramS3.Reconciliation
import TelegramS3.ChunkSampling
