import ScopedCommands.Files.Tree
import ScopedCommands.Main
import ScopedCommands.Proofs.Expansion.Faults
import ScopedCommands.Proofs.Resolution.Audited
import ScopedCommands.Proofs.Resolution.NonInterference
import ScopedCommands.Proofs.Resolution.Safe
import ScopedCommands.Proofs.Resolution.Siblings
import ScopedCommands.Proofs.Resolution.TemplateCalls
import ScopedCommands.Proofs.Reference.Grammar
import ScopedCommands.Proofs.Reference.Escaping
import ScopedCommands.Proofs.Reference.Rendering
import ScopedCommands.Proofs.Resolution.InertValues
import ScopedCommands.Proofs.Template.Verbatim
import ScopedCommands.Proofs.Config.Names
import ScopedCommands.Proofs.Expansion.Denoted
import ScopedCommands.Proofs.Resolution.OnDemand
import ScopedCommands.Proofs.Placeholder.Grammar
import ScopedCommands.Proofs.Placeholder.Parts
import ScopedCommands.Proofs.Placeholder.Canonical
import ScopedCommands.Proofs.Template.Filling
import ScopedCommands.Proofs.Template.Settling
import ScopedCommands.Proofs.Template.Entries
import ScopedCommands.Proofs.Template.Fitting
import ScopedCommands.Proofs.Template.Checking
import ScopedCommands.Proofs.Template.Histories
import ScopedCommands.Proofs.CommandLine.ExitCodes
import ScopedCommands.Proofs.Resolution.Courses
import ScopedCommands.Proofs.Resolution.Accounting
import ScopedCommands.Proofs.Expansion.Blank
import ScopedCommands.Proofs.Resolution.BlankCommands
import ScopedCommands.Proofs.Dict
import ScopedCommands.Proofs.Report.Redaction
import ScopedCommands.Proofs.Resolution.Warnings
import ScopedCommands.Proofs.Resolution.RedundantList
import ScopedCommands.Proofs.Config.Reading
import ScopedCommands.Proofs.Resolution.Entries
import ScopedCommands.Proofs.Resolution.Sight
import ScopedCommands.Proofs.Resolution.InOrder
import ScopedCommands.Proofs.Resolution.Precedence
import ScopedCommands.Proofs.Resolution.WiderLists
import ScopedCommands.Proofs.Resolution.SelfReference
import ScopedCommands.Proofs.Expansion.Consulted
import ScopedCommands.Proofs.Expansion.Restoring
import ScopedCommands.Proofs.Expansion.Joined
import ScopedCommands.Proofs.Template.ByParts
import ScopedCommands.Proofs.Resolution.Assembly
import ScopedCommands.Proofs.Template.Splicing
import ScopedCommands.Proofs.Template.Origins
import ScopedCommands.Proofs.Template.Unused
import ScopedCommands.Proofs.Template.Merging
import ScopedCommands.Proofs.Template.Loading
import ScopedCommands.Proofs.Safety.Standard
import ScopedCommands.Proofs.Pattern.Spans
import ScopedCommands.Proofs.Resolution.Unordered
import ScopedCommands.Proofs.Report.CommandLines
import ScopedCommands.Proofs.Config.Reported
import ScopedCommands.Proofs.Config.SharedNames
import ScopedCommands.Proofs.Time.Calendar
import ScopedCommands.Proofs.Time.Stamps
import ScopedCommands.Proofs.Config.Encoded
import ScopedCommands.Proofs.Config.UnknownKeys
