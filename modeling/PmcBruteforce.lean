import PmcBruteforce.Library.Base128
import PmcBruteforce.Library.BigEndian
import PmcBruteforce.Prefix.Scanners
import PmcBruteforce.Prefix.Filter
import PmcBruteforce.Prefix.Count
import PmcBruteforce.SaveFile.Writes
import PmcBruteforce.SaveFile.Emits
import PmcBruteforce.SaveFile.Format
import PmcBruteforce.Search.Pointer
import PmcBruteforce.Search.State
import PmcBruteforce.Search.Handler
import PmcBruteforce.Search.Step
import PmcBruteforce.Library.Reactive
import PmcBruteforce.Search.Run
import PmcBruteforce.Search.Progress
import PmcBruteforce.Search.Coverage
import PmcBruteforce.Search.Prefixes
import PmcBruteforce.Search.Records
import PmcBruteforce.Search.Length
import PmcBruteforce.Search.Measurement
import PmcBruteforce.Search.Classification
import PmcBruteforce.Search.FileInvariant
import PmcBruteforce.Search.Boot
import PmcBruteforce.Library.RadixTree
import PmcBruteforce.Remap.PageTable
import PmcBruteforce.Remap.Remap
import PmcBruteforce.Remap.Entries
import PmcBruteforce.Remap.Levels
import PmcBruteforce.Remap.Tree
import PmcBruteforce.Remap.Rights
import PmcBruteforce.Remap.Others
import PmcBruteforce.Prefix.Agreement
import PmcBruteforce.Prefix.Malformed
import PmcBruteforce.Prefix.Pruning
import PmcBruteforce.Library.Labelled
import PmcBruteforce.Search.Invariant
import PmcBruteforce.Search.Order
import PmcBruteforce.Library.LeastSuccessor
import PmcBruteforce.Search.Growth
import PmcBruteforce.Search.Successor
import PmcBruteforce.SaveFile.Handle
import PmcBruteforce.SaveFile.Open
import PmcBruteforce.Search.Main
import PmcBruteforce.Remap.Pieces
import PmcBruteforce.Remap.Split
import PmcBruteforce.Remap.Failure
import PmcBruteforce.Library.Memory
import PmcBruteforce.Library.FirstDifference
import PmcBruteforce.Strings.Compare
import PmcBruteforce.Strings.Concat
import PmcBruteforce.SaveFile.Numbers
import PmcBruteforce.Prefix.Canonical
import PmcBruteforce.Search.Decision
import PmcBruteforce.Print.Vsnprintf
import PmcBruteforce.Print.Rendering
import PmcBruteforce.Print.Truncation
import PmcBruteforce.Library.ByteMemory
import PmcBruteforce.Machine.Tables
import PmcBruteforce.Machine.Gates
import PmcBruteforce.Machine.Cpu
import PmcBruteforce.Machine.Entry
import PmcBruteforce.Machine.User
import PmcBruteforce.Machine.System
import PmcBruteforce.Machine.Refinement
import PmcBruteforce.Remap.UserCodePage
import PmcBruteforce.Machine.EfiMain
import PmcBruteforce.Machine.StartUp
import PmcBruteforce.Machine.Run
import PmcBruteforce.Library.Ranking
import PmcBruteforce.Search.Completion
import PmcBruteforce.Machine.Measured
