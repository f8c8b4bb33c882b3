import AibomWebhook.SeriesBudget
import AibomWebhook.Library.PyJson
import AibomWebhook.TelemetrySeries
import AibomWebhook.Library.Grouping
import AibomWebhook.Library.SortedMap
import AibomWebhook.PayloadIsolation
import AibomWebhook.Library.GoExactness
import AibomWebhook.FirstWins
import AibomWebhook.ExactMerge
import AibomWebhook.RankedMerge
import AibomWebhook.DatasetMerge
import AibomWebhook.DatasetFiles
import AibomWebhook.Library.JsonValue
import AibomWebhook.Library.JsonText
import AibomWebhook.Library.Interleaving
import AibomWebhook.Events
import AibomWebhook.PodValidity
import AibomWebhook.Handoff
import AibomWebhook.Signatures
import AibomWebhook.Creation
import AibomWebhook.PostprocessInputs
import AibomWebhook.PostprocessSlot
import AibomWebhook.FinalizerRelease
import AibomWebhook.Bookkeeping
import AibomWebhook.FinalizerLedger
import AibomWebhook.Cleanup
import AibomWebhook.CleanupCalls
import AibomWebhook.CleanupRuns
import AibomWebhook.Library.PyValue
import AibomWebhook.DetectionMerge
import AibomWebhook.DetectionFile
import AibomWebhook.SnapshotOrder
import AibomWebhook.SigtermHandler
import AibomWebhook.WatcherRequests
import AibomWebhook.DatasetSidecar
import AibomWebhook.FinalFlush
import AibomWebhook.LiveIdentity
import AibomWebhook.JobLabels
import AibomWebhook.GitProvenance
import AibomWebhook.Debounce
import AibomWebhook.PublishedState
import AibomWebhook.GitUrl
import AibomWebhook.RegistryLookup
import AibomWebhook.AibomCreation
import AibomWebhook.RoleNames
import AibomWebhook.WorkloadIsolation
import AibomWebhook.LegalNames
import AibomWebhook.GpuCounts
import AibomWebhook.SignerKeys
import AibomWebhook.RetryAccounting
import AibomWebhook.Library.EnvList
import AibomWebhook.PythonPath
import AibomWebhook.Library.Float64
import AibomWebhook.Library.JsonNumber
import AibomWebhook.Library.JsonString
import AibomWebhook.Library.FirstSeen
import AibomWebhook.Library.GoEncoding
import AibomWebhook.Rebucketing
import AibomWebhook.StarvedLines
import AibomWebhook.UnusualData
import AibomWebhook.WorkloadStatus
import AibomWebhook.Checkout
import AibomWebhook.Precedence
import AibomWebhook.Quiescence
import AibomWebhook.Library.FileLock
import AibomWebhook.OutputLock
import AibomWebhook.DetectionUnion
import AibomWebhook.Library.PyObject
import AibomWebhook.SeriesTermination
import AibomWebhook.PatchConfigmap
import AibomWebhook.Library.Rounding
import AibomWebhook.MetricStats
import AibomWebhook.ImageReference
import AibomWebhook.RepeatedRedaction
import AibomWebhook.Library.Steps
import AibomWebhook.PostImportHooks
import AibomWebhook.FlagSpelling
import AibomWebhook.Library.Checked
import AibomWebhook.Library.PosixPath
import AibomWebhook.CloneTracking
