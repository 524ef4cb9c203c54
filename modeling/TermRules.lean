import TermRules.Category
import TermRules.Command.Invocation
import TermRules.Command.Outcome
import TermRules.Command.Rows
import TermRules.Command.Table
import TermRules.Compiler
import TermRules.Config
import TermRules.Constraints
import TermRules.Failure
import TermRules.Fields
import TermRules.Files.Disk
import TermRules.Files.Path
import TermRules.Interval.Basic
import TermRules.Interval.Loose
import TermRules.Json.Parser
import TermRules.Json.Printer
import TermRules.Library
import TermRules.Main
import TermRules.Misuse
import TermRules.Number.Basic
import TermRules.Number.Double
import TermRules.Number.Places
import TermRules.Number.Reading
import TermRules.Number.Shortest
import TermRules.Options
import TermRules.Pattern.Complaint
import TermRules.Pattern.Escape
import TermRules.Pattern.Extent
import TermRules.Pattern.Matching
import TermRules.Pattern.Parser
import TermRules.Pattern.Source
import TermRules.Pattern.Switches
import TermRules.Pattern.Syntax
import TermRules.Proofs.Number.Order
import TermRules.Program
import TermRules.Record.Basic
import TermRules.Record.Form
import TermRules.Record.Hierarchy
import TermRules.Registry.Basic
import TermRules.Registry.File
import TermRules.Registry.Standard
import TermRules.Rule.Basic
import TermRules.Rule.Check
import TermRules.Rule.Form
import TermRules.Rule.Hook
import TermRules.Rule.Reason
import TermRules.Rule.Rendering
import TermRules.Rule.Summary
import TermRules.Term.Basic
import TermRules.Term.Overlay
import TermRules.Text.Address
import TermRules.Text.Blank
import TermRules.Text.Case
import TermRules.Text.Digit
import TermRules.Text.Identifier
import TermRules.Text.Letter
import TermRules.Text.Machine
import TermRules.Text.Printable
import TermRules.Text.Quoted
import TermRules.Text.Ranges
import TermRules.Text.Recognised
import TermRules.Text.Utf8
import TermRules.Text.Width
import TermRules.Text.Wrap
import TermRules.Value.Basic
import TermRules.Value.Display
import TermRules.Vocabulary
import TermRules.Proofs.Interval.Membership
import TermRules.Proofs.Interval.Merging
import TermRules.Proofs.Record.Level
import TermRules.Proofs.Record.Runs
import TermRules.Proofs.Record.Uniform
import TermRules.Proofs.Record.Narrowing
import TermRules.Proofs.Rule.Bounds
import TermRules.Proofs.Rule.Sides
import TermRules.Proofs.Rule.Checking
import TermRules.Proofs.Rule.Acceptance
import TermRules.Proofs.Rule.Conjunction
import TermRules.Proofs.Registry.Chain
import TermRules.Proofs.Registry.Extension
import TermRules.Proofs.Text.Lower
import TermRules.Proofs.Number.Magnitude
import TermRules.Proofs.Rule.Hooks
import TermRules.Proofs.Registry.Substitution
import TermRules.Proofs.Registry.Resolution
import TermRules.Proofs.Pairing
import TermRules.Proofs.Rule.Parts
import TermRules.Proofs.Value.Entries
import TermRules.Proofs.Rule.Settling
import TermRules.Proofs.Record.Container
import TermRules.Proofs.Term.Overlay
import TermRules.Proofs.Registry.Taxonomy
import TermRules.Proofs.Registry.Plain
import TermRules.Proofs.Registry.Descriptor
import TermRules.Proofs.Registry.Conflation
import TermRules.Proofs.Registry.Container
import TermRules.Proofs.Registry.Axes
import TermRules.Proofs.Record.Override
import TermRules.Proofs.Registry.Override
import TermRules.Proofs.Record.Alike
import TermRules.Proofs.Registry.Agreement
import TermRules.Proofs.Registry.Reference
import TermRules.Proofs.Record.Tree
import TermRules.Proofs.Rule.Nesting
import TermRules.Proofs.Rule.Coherence
import TermRules.Proofs.Rule.Faults
import TermRules.Proofs.Rule.Limits
import TermRules.Proofs.Text.Address
import TermRules.Proofs.Number.Writable
import TermRules.Proofs.Value.Within
import TermRules.Proofs.Rule.Failing
import TermRules.Proofs.Registry.Outcome
import TermRules.Proofs.Record.Stopping
import TermRules.Proofs.Batch
import TermRules.Proofs.Registry.Batches
import TermRules.Proofs.Registry.Session
import TermRules.Proofs.Number.Rounding
import TermRules.Proofs.Interval.Intersection
import TermRules.Proofs.Interval.Tightest
import TermRules.Proofs.Rule.Ends
import TermRules.Proofs.Rule.Emptiness
import TermRules.Proofs.Rule.Shifting
import TermRules.Proofs.Term.Layers
import TermRules.Proofs.Rule.Totality
import TermRules.Proofs.Rule.Ranges
import TermRules.Proofs.Rule.Wholes
import TermRules.Proofs.Registry.Integer
import TermRules.Proofs.Registry.Locality
import TermRules.Proofs.Pattern.Classes
import TermRules.Proofs.Registry.Spelling
import TermRules.Proofs.Text.Recognised
import TermRules.Proofs.Pattern.Recognition
import TermRules.Proofs.Rule.Recognition
import TermRules.Proofs.Json.Digits
import TermRules.Proofs.Registry.Loading
import TermRules.Proofs.Rule.Position
import TermRules.Proofs.Rule.Form
import TermRules.Proofs.Record.HookNames
import TermRules.Proofs.Files.Discovery
import TermRules.Proofs.Number.Nearest
import TermRules.Proofs.Number.Places
import TermRules.Proofs.Number.Shortest
import TermRules.Proofs.Number.Reading
import TermRules.Proofs.Number.Text
import TermRules.Proofs.Rule.Precision
