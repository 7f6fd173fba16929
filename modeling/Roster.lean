import Roster.Json.Answer
import Roster.Proofs.Criteria.AgeRange
import Roster.Proofs.Criteria.Formats
import Roster.Proofs.Json.Records
import Roster.Proofs.Page.Exact
import Roster.Proofs.Page.Walk
import Roster.Proofs.Predicate.Description
import Roster.Proofs.Predicate.Disjunction
import Roster.Proofs.Predicate.Information
import Roster.Proofs.Sort.Key
import Roster.Proofs.Sql.Naming
import Roster.Proofs.Sql.Ordering
import Roster.Proofs.Store.Findable
import Roster.Proofs.Store.Listing
import Roster.Proofs.Store.Noninterference
import Roster.Proofs.Store.SharedFilter
