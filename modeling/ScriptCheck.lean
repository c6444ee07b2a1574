import ScriptCheck.Binary64.Basic
import ScriptCheck.Binary64.Reading
import ScriptCheck.Binary64.Rounding
import ScriptCheck.Binary64.Shortest
import ScriptCheck.Binary64.Style
import ScriptCheck.Check.Basic
import ScriptCheck.Check.Journal
import ScriptCheck.Check.Valid
import ScriptCheck.Check.Violation
import ScriptCheck.Check.Violations
import ScriptCheck.Corpus.Basic
import ScriptCheck.Corpus.Registration
import ScriptCheck.Corpus.Rule
import ScriptCheck.Decimal.Digit
import ScriptCheck.Decimal.Numeral
import ScriptCheck.Json.Basic
import ScriptCheck.Json.Parser
import ScriptCheck.Json.Printer
import ScriptCheck.Json.Token
import ScriptCheck.Proofs.Check.Valid
import ScriptCheck.Proofs.Check.Violations
import ScriptCheck.Proofs.Corpus.Registration
import ScriptCheck.Proofs.Tree.Draft
import ScriptCheck.Proofs.Tree.Family
import ScriptCheck.Proofs.Tree.Lineage
import ScriptCheck.Proofs.Tree.Obtained
import ScriptCheck.Proofs.Tree.Preorder
import ScriptCheck.Proofs.Tree.Shape
import ScriptCheck.Proofs.Tree.Walk
import ScriptCheck.Reader
import ScriptCheck.Scalar.Basic
import ScriptCheck.Scalar.Json
import ScriptCheck.Scalar.Text
import ScriptCheck.Text.Quoted
import ScriptCheck.Text.Unprintable
import ScriptCheck.Tree.Basic
import ScriptCheck.Tree.Draft
import ScriptCheck.Tree.Json
import ScriptCheck.Tree.Lookup
import ScriptCheck.Tree.Preorder
import ScriptCheck.Tree.Same
import ScriptCheck.Tree.Shape
import ScriptCheck.Tree.Text
import ScriptCheck.Tree.Walk
import ScriptCheck.Tree.WellFormed
import ScriptCheck.Proofs.Tree.Built
import ScriptCheck.Proofs.Check.Renumber
import ScriptCheck.Proofs.Decimal.Numeral
import ScriptCheck.Proofs.Json.Token
import ScriptCheck.Proofs.Json.Parser
import ScriptCheck.Proofs.Binary64.Rounding
import ScriptCheck.Proofs.Binary64.Shortest
import ScriptCheck.Proofs.Binary64.Style
import ScriptCheck.Proofs.Scalar.Json
import ScriptCheck.Proofs.Reader
import ScriptCheck.Proofs.Tree.Json
import ScriptCheck.Proofs.Tree.Parents
import ScriptCheck.Proofs.Check.Corpora
import ScriptCheck.Corpus.Registered
import ScriptCheck.Proofs.Corpus.Export
import ScriptCheck.Proofs.Check.Journal
import ScriptCheck.Proofs.Check.Malformed
import ScriptCheck.Proofs.Check.Vetted
import ScriptCheck.Proofs.Check.Rearrange
import ScriptCheck.Proofs.Binary64.Nearest
import ScriptCheck.Proofs.Scalar.Range
import ScriptCheck.Proofs.Tree.Termination
import ScriptCheck.Proofs.Tree.Refusal
import ScriptCheck.Proofs.Check.Arity
import ScriptCheck.Tree.Defect
import ScriptCheck.Proofs.Tree.Defect
import ScriptCheck.Proofs.Check.Violation
import ScriptCheck.Tree.Spelling
import ScriptCheck.Proofs.Tree.Spelling
import ScriptCheck.Proofs.Tree.Finite
import ScriptCheck.Proofs.Tree.Pending
