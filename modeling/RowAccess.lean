import RowAccess.Facade
import RowAccess.Query.Acceptance
import RowAccess.Query.Bracket.Printer
import RowAccess.Sql.Database
import RowAccess.Sql.Precedence
import RowAccess.Proofs.Calendar.Iso
import RowAccess.Proofs.Chain.Calls
import RowAccess.Proofs.Condition.Reading
import RowAccess.Proofs.Facade.Conversion
import RowAccess.Proofs.Query.Acceptance
import RowAccess.Proofs.Query.Bracket.Append
import RowAccess.Proofs.Query.Bracket.KeyPath
import RowAccess.Proofs.Query.Bracket.RoundTrip
import RowAccess.Proofs.Query.Bracket.ShortForm
import RowAccess.Proofs.Query.Bracket.Unreadable
import RowAccess.Proofs.Query.FilterForms
import RowAccess.Proofs.Query.Overflow
import RowAccess.Proofs.Query.Conditions
import RowAccess.Proofs.Query.Normal
import RowAccess.Proofs.Operation.Compiled
import RowAccess.Proofs.Operation.Extremum
import RowAccess.Proofs.Operation.NumberOrDate
import RowAccess.Proofs.Schema.Malformed
import RowAccess.Proofs.Schema.Run
import RowAccess.Proofs.Schema.Persistence
import RowAccess.Proofs.Schema.Completeness
import RowAccess.Proofs.Schema.Overlap
import RowAccess.Proofs.Schema.Lacking
import RowAccess.Proofs.Schema.Partition
import RowAccess.Proofs.Facade.Item
import RowAccess.Proofs.Facade.RawLiteral
import RowAccess.Proofs.Facade.Checked
import RowAccess.Proofs.Sql.FilteredScan
import RowAccess.Proofs.Facade.NewItem
import RowAccess.Proofs.Facade.Shortcut
import RowAccess.Proofs.Operation.LiteralOrder
import RowAccess.Proofs.Query.ColumnNames
import RowAccess.Proofs.Schema.Uncommitted
import RowAccess.Proofs.Facade.WrittenDay
