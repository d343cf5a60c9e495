import MsFat.Library.LinkedTable
import MsFat.Library.Runs
import MsFat.Library.Fuel
import MsFat.Library.Faults
import MsFat.Library.Occupancy
import MsFat.Library.Programs
import MsFat.Disk
import MsFat.Transfer.Defs
import MsFat.Mount.Defs
import MsFat.Info
import MsFat.Calls
import MsFat.Api
import MsFat.WellFormed
import MsFat.Directory.Checks
import MsFat.Directory.Lookup
import MsFat.Directory.Changes
import MsFat.Fat.Allocation
import MsFat.Fat.Deletion
import MsFat.Fat.Ends
import MsFat.Transfer.Effect
import MsFat.FirstFit
import MsFat.Transfer.Read
import MsFat.Transfer.EmptyRead
import MsFat.Transfer.Confined
import MsFat.Transfer.Faults
import MsFat.CallCases
import MsFat.Effect
import MsFat.Invariant
import MsFat.CallEffect
import MsFat.ApiEffect
import MsFat.Frame
import MsFat.Faults
import MsFat.WriteEffect
import MsFat.RoundTrip
import MsFat.EndOfFile
import MsFat.ReadBounds
import MsFat.Distance
import MsFat.Failure
import MsFat.FileSize
import MsFat.Offsets
import MsFat.Commute
import MsFat.Splitting
import MsFat.Deletion
import MsFat.Reclaim
import MsFat.LostBlocks
import MsFat.DescriptorCheck
import MsFat.Directory.Invariant
import MsFat.DescriptorIdentity
import MsFat.Directory.Map
import MsFat.Directory.Refinement
import MsFat.Mount.Codec
import MsFat.Mount.Loaders
import MsFat.Mount.FailedMount
import MsFat.Mount.FatBlocks
import MsFat.Mount.Unmount
import MsFat.Mount.FreshImage
import MsFat.Mount.FatLayout
import MsFat.Mount.Layout
import MsFat.Mount.FatBounds
import MsFat.Mount.Remount
import MsFat.WalkSafety
import MsFat.Lifecycle
import MsFat.OpenCount
import MsFat.Replies
import MsFat.Store.Defs
import MsFat.Store.Represents
import MsFat.Store.Answers
import MsFat.Store.Directory
import MsFat.Store.Transfers
import MsFat.Store.Refinement
import MsFat.Store.Interleaving
import MsFat.Drive.Formatted
import MsFat.Drive.Mounts
import MsFat.Drive.Defs
import MsFat.Drive.Exit
import MsFat.Drive.Refinement
import MsFat.Drive.Start
import MsFat.Drive.Crash
import MsFat.Drive.HostFiles
import MsFat.Drive.Reading
import MsFat.Apps.Commands
import MsFat.Apps.Meaning
import MsFat.Apps.Rules
import MsFat.Apps.Refinement
import MsFat.Apps.Sequences
import MsFat.Apps.RoundTrip
import MsFat.Apps.Script
import MsFat.Apps.ScriptLines
import MsFat.Apps.ScriptMeaning
import MsFat.Apps.ScriptRefinement
import MsFat.Apps.Content
import MsFat.Apps.ScriptRoundTrip
import MsFat.Apps.WriterReader
