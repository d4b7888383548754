import ShellStyle.Main
import ShellStyle.Tree
import ShellStyle.Proofs.Rounds
import ShellStyle.Proofs.Enumeration
import ShellStyle.Proofs.Ledger
import ShellStyle.Proofs.Gather
import ShellStyle.Proofs.Outcomes
import ShellStyle.Proofs.Counts
import ShellStyle.Proofs.Aggregation
import ShellStyle.Proofs.Flags
import ShellStyle.Proofs.Verdict
import ShellStyle.Proofs.Resolution
import ShellStyle.Proofs.ExitCode
import ShellStyle.Proofs.FirstFailure
import ShellStyle.Proofs.Sections
import ShellStyle.Proofs.ListingOrder
import ShellStyle.Proofs.JsonGrammar
import ShellStyle.Proofs.JsonScalar
import ShellStyle.Proofs.JsonReader
import ShellStyle.Proofs.JsonDocument
import ShellStyle.Proofs.Composition
import ShellStyle.Proofs.Discovery
import ShellStyle.Proofs.Below
import ShellStyle.Proofs.PassedBy
import ShellStyle.Proofs.Keys
import ShellStyle.Proofs.Precedence
import ShellStyle.Proofs.SettingsFile
import ShellStyle.Proofs.Trace
import ShellStyle.Proofs.Log
import ShellStyle.Proofs.LogText
import ShellStyle.Proofs.WrittenLog
import ShellStyle.Proofs.Ascii
import ShellStyle.Proofs.Encoded
import ShellStyle.Proofs.RawBytes
import ShellStyle.Proofs.ReadBack
import ShellStyle.Proofs.Renames
import ShellStyle.Proofs.Containment
import ShellStyle.Proofs.Colours
import ShellStyle.Proofs.ArgumentOrder
import ShellStyle.Proofs.Statements
import ShellStyle.Proofs.Shape
import ShellStyle.Proofs.FolderLine
import ShellStyle.Proofs.Table
import ShellStyle.Proofs.Recount
import ShellStyle.Proofs.Search
import ShellStyle.Proofs.Advice
