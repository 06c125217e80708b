import ScanParse.Grammar.Basic
import ScanParse.Main
import ScanParse.Parse.Session
import ScanParse.Proofs.Parse.Flattening
import ScanParse.Proofs.Parse.Locality
import ScanParse.Proofs.Scan.Acceptance
import ScanParse.Proofs.Scan.Printable
import ScanParse.Proofs.Scan.Cutting
import ScanParse.Proofs.Parse.Memory
import ScanParse.Proofs.Scan.Lines
import ScanParse.Proofs.Parse.Expression
import ScanParse.Proofs.Parse.Stepping
import ScanParse.Proofs.Grammar.Search
import ScanParse.Proofs.Parse.Equality
import ScanParse.Proofs.Parse.Lookahead
import ScanParse.Proofs.Parse.Arithmetic
import ScanParse.Proofs.Parse.Sentences
import ScanParse.Proofs.Scan.Rewriting
import ScanParse.Proofs.Scan.Numbers
import ScanParse.Proofs.Scan.Symbols
import ScanParse.Proofs.Scan.IdentifierDigits
import ScanParse.Proofs.Scan.Events
import ScanParse.Proofs.Report.Failure
import ScanParse.Proofs.Parse.Demand
import ScanParse.Proofs.Parse.Laws
import ScanParse.Proofs.Parse.Applicative
import ScanParse.Proofs.Parse.Segmentation
import ScanParse.Proofs.Listing.Faithful
import ScanParse.Proofs.Command.Outcome
import ScanParse.Proofs.Parse.Stack
import ScanParse.Proofs.Parse.Starts
import ScanParse.Proofs.Parse.Iterator
import ScanParse.Proofs.Parse.Exhaustion
import ScanParse.Proofs.Scan.Spaces
