import BarBridge.Main
import BarBridge.Proofs.Json.Spelling
import BarBridge.Proofs.Jsonc.Segments
import BarBridge.Proofs.Json.Lexemes
import BarBridge.Proofs.Jsonc.Decoration
import BarBridge.Proofs.Module.Stems
import BarBridge.Proofs.Text.QmlLiteral
import BarBridge.Proofs.Json.Writing
import BarBridge.Proofs.Template.Filling
import BarBridge.Proofs.Plugin.Views
import BarBridge.Proofs.Artifact.Addresses
import BarBridge.Proofs.Jsonc.StrictText
import BarBridge.Proofs.Jsonc.Openings
import BarBridge.Proofs.Jsonc.Annotation
import BarBridge.Proofs.Plugin.Fallbacks
import BarBridge.Proofs.Files.Directories
import BarBridge.Proofs.Files.Writing
import BarBridge.Proofs.CommandLine.FinalTree
import BarBridge.Proofs.CommandLine.Course
import BarBridge.Proofs.CommandLine.Listing
import BarBridge.Proofs.Artifact.Isolation
import BarBridge.Proofs.Plugin.Handlers
import BarBridge.Proofs.Widget.Reading
import BarBridge.Proofs.Artifact.Agreement
import BarBridge.Proofs.Widget.Decoding
import BarBridge.Proofs.Files.FreshDirectory
import BarBridge.Proofs.Widget.Warnings
import BarBridge.Proofs.CommandLine.FirstRun
import BarBridge.Proofs.CommandLine.SuccessiveRuns
import BarBridge.Proofs.Module.Renaming
import BarBridge.Proofs.Command.FilterArguments
import BarBridge.Proofs.Jsonc.FaultPositions
import BarBridge.Proofs.Jsonc.LineNumbers
import BarBridge.Proofs.Jsonc.Commentless
import BarBridge.Proofs.Jsonc.RepeatedRepair
import BarBridge.Proofs.Jsonc.DanglingPlaces
import BarBridge.Proofs.Module.Entries
import BarBridge.Proofs.Module.Scheduling
import BarBridge.Proofs.Module.WellFormed
import BarBridge.Proofs.Widget.Timing
import BarBridge.Proofs.Artifact.Losses
import BarBridge.Proofs.Artifact.Wording
import BarBridge.Proofs.Artifact.AnnouncedInterval
import BarBridge.Proofs.Artifact.FullConversion
import BarBridge.Proofs.Command.Guarding
import BarBridge.Proofs.Number.Integers
import BarBridge.Proofs.Module.IntegerIntervals
import BarBridge.Proofs.Module.UsableMembers
import BarBridge.Proofs.Artifact.Limitations
import BarBridge.Proofs.Command.Seams
import BarBridge.Proofs.Files.LastWrite
import BarBridge.Proofs.CommandLine.SettingsFile
import BarBridge.Proofs.Template.Substitution
import BarBridge.Proofs.Text.ShellLine
import BarBridge.Proofs.Text.Windows
