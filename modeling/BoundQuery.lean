import BoundQuery.Connection.Transcript
import BoundQuery.Proofs.Noninterference
import BoundQuery.Proofs.Positional
import BoundQuery.Proofs.SlotNames
import BoundQuery.Scalar.OfDocument
import BoundQuery.Session
import BoundQuery.Proofs.JoinedText
import BoundQuery.Proofs.ColumnMarkers
import BoundQuery.Proofs.Assignments
import BoundQuery.Proofs.RawClause
import BoundQuery.Proofs.Grammar
import BoundQuery.Proofs.PlainText
import BoundQuery.Proofs.Canonical
import BoundQuery.Proofs.InsertedRow
import BoundQuery.Proofs.PayloadFilter
import BoundQuery.Proofs.StatementHeads
import BoundQuery.Proofs.RecencyOrder
import BoundQuery.Proofs.Contacts
import BoundQuery.Proofs.Operations
import BoundQuery.Proofs.Courses
import BoundQuery.Proofs.CacheTransparency
import BoundQuery.Proofs.ExactSpreading
import BoundQuery.Proofs.LargerCache
import BoundQuery.Proofs.QuotedIdentifiers
import BoundQuery.Proofs.Diagnostics
import BoundQuery.Proofs.InsertionOrder
import BoundQuery.Proofs.BareColumn
import BoundQuery.Proofs.SeparatorSearch
import BoundQuery.Proofs.StemSearch
