import PlainTables.Editor.Press
import PlainTables.Editor.View
import PlainTables.Main
import PlainTables.Proofs.Table.Format
import PlainTables.Proofs.Script
import PlainTables.Proofs.Workspace.Failure
import PlainTables.Proofs.Table.ByName
import PlainTables.Proofs.Table.Selected
import PlainTables.Proofs.Database.Written
import PlainTables.Proofs.Database.HandWritten
import PlainTables.Proofs.Workspace.Catalog
import PlainTables.Proofs.Files.Placed
import PlainTables.Proofs.Filter.Condition
import PlainTables.Proofs.Statement.Phrase
import PlainTables.Proofs.Statement.Grammar
import PlainTables.Proofs.Statement.WellFormed
import PlainTables.Proofs.Token.Layout
import PlainTables.Proofs.Statement.Written
import PlainTables.Proofs.Script.Sentences
import PlainTables.Proofs.Script.ReadBack
import PlainTables.Proofs.Script.Joined
import PlainTables.Proofs.Editor.Bytes
import PlainTables.Proofs.Editor.Edit
import PlainTables.Proofs.Editor.Action
import PlainTables.Proofs.Editor.Invariant
import PlainTables.Proofs.Editor.Events
import PlainTables.Proofs.Workspace.Holds
import PlainTables.Proofs.Workspace.Operations
import PlainTables.Proofs.Workspace.Refinement
import PlainTables.Proofs.Text.Bytes
import PlainTables.Proofs.Table.RoundTrip
import PlainTables.Proofs.Table.Order
import PlainTables.Proofs.Table.Read
import PlainTables.Proofs.Files.Below
import PlainTables.Proofs.Database.Confined
import PlainTables.Proofs.Database.Ordered
import PlainTables.Proofs.Workspace.Confined
import PlainTables.Proofs.Number.Nearest
import PlainTables.Proofs.Number.Integer
import PlainTables.Proofs.Filter.Comparison
import PlainTables.Proofs.Table.Cells
import PlainTables.Proofs.Table.Divided
import PlainTables.Proofs.Database.Integers
import PlainTables.Proofs.Token.Spelled
import PlainTables.Proofs.Token.Unmatched
import PlainTables.Proofs.Filter.Refusal
import PlainTables.Proofs.Statement.Unambiguous
import PlainTables.Proofs.Table.Judged
import PlainTables.Proofs.Table.Repeated
import PlainTables.Proofs.Files.Directories
import PlainTables.Proofs.Database.Stored
import PlainTables.Proofs.Database.Effect
import PlainTables.Proofs.Workspace.Reached
import PlainTables.Proofs.Workspace.Repeated
import PlainTables.Proofs.Workspace.Lasting
import PlainTables.Proofs.Text.ByteOrder
import PlainTables.Proofs.Database.Listing
import PlainTables.Proofs.Answer.CommaSeparated
import PlainTables.Proofs.Statement.Filterable
import PlainTables.Proofs.Table.Delimited
import PlainTables.Proofs.Database.Readable
import PlainTables.Proofs.Files.Closed
import PlainTables.Proofs.Database.Opening
import PlainTables.Proofs.Workspace.Selecting
import PlainTables.Proofs.Editor.Shown
import PlainTables.Proofs.Script.Silent
import PlainTables.Proofs.Editor.RunFault
import PlainTables.Proofs.Editor.Vertical
import PlainTables.Proofs.Answer.Aligned
import PlainTables.Proofs.Editor.Words
import PlainTables.Proofs.Editor.Typing
import PlainTables.Proofs.Database.Rearranged
import PlainTables.Proofs.Files.Parent
import PlainTables.Proofs.Database.Beside
import PlainTables.Proofs.Editor.Pieces
import PlainTables.Proofs.Editor.Extent
import PlainTables.Proofs.Token.Places
