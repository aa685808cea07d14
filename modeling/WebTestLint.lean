import WebTestLint.Identifier.Scan
import WebTestLint.Statement.Parse
import WebTestLint.Page.Check
import WebTestLint.Test.Check
import WebTestLint.Text.Escaped
import WebTestLint.Document.Kind
import WebTestLint.File.Lint
import WebTestLint.CommandLine.Run
import WebTestLint.Main
import WebTestLint.Proofs.Coverage
import WebTestLint.Proofs.Validity
import WebTestLint.Proofs.Reference
import WebTestLint.Proofs.Selector
import WebTestLint.Proofs.Scan
import WebTestLint.Proofs.Printing
import WebTestLint.Proofs.Nested
import WebTestLint.Proofs.Recovery
import WebTestLint.Proofs.Splitting
import WebTestLint.Proofs.Grammar
import WebTestLint.Proofs.Form
import WebTestLint.Proofs.Descent
import WebTestLint.Proofs.Shape
import WebTestLint.Proofs.Rereading
import WebTestLint.Proofs.Remainder
import WebTestLint.Proofs.Notation
import WebTestLint.Proofs.Vocabulary
import WebTestLint.Proofs.Outcome
import WebTestLint.Proofs.Closing
import WebTestLint.Proofs.Lossless
import WebTestLint.Proofs.Precedence
import WebTestLint.Proofs.Written
import WebTestLint.Proofs.Reading
import WebTestLint.Proofs.Detection
import WebTestLint.Proofs.Chains
import WebTestLint.Proofs.Braces
import WebTestLint.Proofs.Literal
import WebTestLint.Proofs.Pieces
import WebTestLint.Proofs.Loading
import WebTestLint.Proofs.Expansion
import WebTestLint.Proofs.Distinct
import WebTestLint.Proofs.History
import WebTestLint.Proofs.Causes
import WebTestLint.Proofs.Summary
import WebTestLint.Proofs.Breaks
import WebTestLint.Proofs.Offsets
import WebTestLint.Proofs.Extent
import WebTestLint.Proofs.Cuts
import WebTestLint.Proofs.Layers
import WebTestLint.Proofs.Matching
import WebTestLint.Proofs.Parity
