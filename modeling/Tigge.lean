import Tigge.Coverage
import Tigge.Interference
import Tigge.Outcomes
import Tigge.Fabrication
import Tigge.SavedRecords
import Tigge.TimeIntegration
import Tigge.PotentialTemperature
import Tigge.Arguments
import Tigge.TimeAdd
import Tigge.Conservation
import Tigge.InputQc
import Tigge.LinkInput
import Tigge.Lib.Interleaving
import Tigge.LockRelease
import Tigge.Rerun
import Tigge.MergeRetry
import Tigge.QcOutput
import Tigge.Conversion
import Tigge.Delivery
import Tigge.RecordSearch
import Tigge.SoilProducts
import Tigge.SnowfallPaths
import Tigge.ArrayBounds
import Tigge.CopyBranch
import Tigge.NameDecoding
import Tigge.Buffers
import Tigge.LinkCreation
import Tigge.IntervalEnd
import Tigge.QueueRepresentation
import Tigge.PassTag
import Tigge.CleanupContained
import Tigge.CleanupComplete
import Tigge.Lib.Rounding
import Tigge.GribDate
import Tigge.JulianDate
import Tigge.Lib.Commands
import Tigge.GribMessage
import Tigge.GribFilter
import Tigge.FilteredMessages
import Tigge.FilterErrors
import Tigge.StepRange
import Tigge.HandleSettings
import Tigge.WrittenRecords
import Tigge.CheckedRecords
import Tigge.RunVerdict
import Tigge.Lib.Waiting
import Tigge.RunLatest
import Tigge.Lib.LastWrite
import Tigge.ConvertFile
