import SettingsBinding.Files.Machine
import SettingsBinding.Main
import SettingsBinding.Proofs.Entries
import SettingsBinding.Proofs.Text.Pieces
import SettingsBinding.Proofs.Settings.KeyPath
import SettingsBinding.Proofs.Merge.Lookup
import SettingsBinding.Proofs.Merge.Loop
import SettingsBinding.Proofs.Merge.Walk
import SettingsBinding.Proofs.Settings.UniqueKeys
import SettingsBinding.Proofs.Merge.Absorption
import SettingsBinding.Proofs.Merge.UniqueKeys
import SettingsBinding.Proofs.Equality
import SettingsBinding.Proofs.Settings.Documents
import SettingsBinding.Proofs.Settings.Ending
import SettingsBinding.Proofs.Merge.Fold
import SettingsBinding.Proofs.Merge.Exchange
import SettingsBinding.Proofs.FirstMet
import SettingsBinding.Proofs.Merge.Sections
import SettingsBinding.Proofs.Merge.Remerge
import SettingsBinding.Proofs.Merge.Repetition
import SettingsBinding.Proofs.Settings.Json
import SettingsBinding.Proofs.Merge.Origin
import SettingsBinding.Proofs.Merge.Precedence
import SettingsBinding.Proofs.Merge.Consistency
import SettingsBinding.Proofs.Classes.Extraction
import SettingsBinding.Proofs.Classes.Growth
import SettingsBinding.Proofs.Classes.Validation
import SettingsBinding.Proofs.Pass.Outcome
import SettingsBinding.Proofs.Classes.Mismatches
import SettingsBinding.Proofs.Classes.Order
import SettingsBinding.Proofs.HostSource.Reading
import SettingsBinding.Proofs.HostSource.Contents
import SettingsBinding.Proofs.Pass.Members
import SettingsBinding.Proofs.Pass.Missing
import SettingsBinding.Proofs.Json.Depth
import SettingsBinding.Proofs.Json.Number
import SettingsBinding.Proofs.Json.StringText
import SettingsBinding.Proofs.Json.Printed
import SettingsBinding.Proofs.Settings.Printed
import SettingsBinding.Proofs.Merge.Depth
import SettingsBinding.Proofs.Pass.Diagnostics
import SettingsBinding.Proofs.Pass.Printed
import SettingsBinding.Proofs.Model.Decoding
import SettingsBinding.Proofs.Model.Reading
import SettingsBinding.Proofs.Model.Document
import SettingsBinding.Proofs.Files.Tree
import SettingsBinding.Proofs.Files.Names
import SettingsBinding.Proofs.Files.Listing
import SettingsBinding.Proofs.Files.Ancestors
import SettingsBinding.Proofs.Files.Machine
import SettingsBinding.Proofs.Files.Compositional
import SettingsBinding.Proofs.Files.Printing
import SettingsBinding.Proofs.Files.Ways
import SettingsBinding.Proofs.Files.TwoRuns
import SettingsBinding.Proofs.Settings.Discovery
import SettingsBinding.Proofs.Commands.Inputs
import SettingsBinding.Proofs.Commands.Output
import SettingsBinding.Proofs.Commands.Writable
import SettingsBinding.Proofs.Commands.Pass
import SettingsBinding.Proofs.Commands.Merge
import SettingsBinding.Proofs.Commands.Discovery
import SettingsBinding.Proofs.Yaml.Number
import SettingsBinding.Proofs.Yaml.Lines
import SettingsBinding.Proofs.Yaml.Scalars
import SettingsBinding.Proofs.Yaml.Tokens
import SettingsBinding.Proofs.Yaml.Reading
import SettingsBinding.Proofs.Config.Fields
import SettingsBinding.Proofs.Config.Lookup
import SettingsBinding.Proofs.Failure
import SettingsBinding.Proofs.Text.Distance
import SettingsBinding.Proofs.Settings.Levels
import SettingsBinding.Proofs.Settings.Correspondence
import SettingsBinding.Proofs.Merge.Bounds
import SettingsBinding.Proofs.Classes.Closest
import SettingsBinding.Proofs.Classes.Hints
