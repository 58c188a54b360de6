import VimPattern.Conversion
import VimPattern.Scan.Tiling
import VimPattern.Tree.Yield
import VimPattern.Proofs.Scan.Admission
import VimPattern.Proofs.Scan.Reads
import VimPattern.Proofs.Scan.Tokens
import VimPattern.Proofs.Grammar.Derivation
import VimPattern.Proofs.Grammar.Kinds
import VimPattern.Proofs.Grammar.Regrowth
import VimPattern.Proofs.Grammar.Acceptance
import VimPattern.Proofs.Grammar.Lexemes
import VimPattern.Proofs.Grammar.Anchors
import VimPattern.Proofs.Spelling.Depiction
import VimPattern.Proofs.Spelling.Passes
import VimPattern.Proofs.Spelling.Translation
import VimPattern.Proofs.Tree.Trace
import VimPattern.Proofs.Target.Nesting
import VimPattern.Proofs.Target.Family
import VimPattern.Proofs.Target.Texts
import VimPattern.Proofs.Target.Structure
import VimPattern.Proofs.Target.Openings
import VimPattern.Proofs.Capture.Sources
import VimPattern.Proofs.Capture.Once
import VimPattern.Proofs.Capture.Leading
import VimPattern.Proofs.Capture.Targets
import VimPattern.Proofs.Spelling.Quotation
import VimPattern.Proofs.Target.Names
import VimPattern.Proofs.Capture.Names
import VimPattern.Proofs.Capture.Named
import VimPattern.Proofs.Capture.Distinct
import VimPattern.Proofs.Capture.Spelled
import VimPattern.Proofs.Capture.References
import VimPattern.Proofs.Wording.Agreement
import VimPattern.Proofs.Wording.Renaming
import VimPattern.Proofs.Wording.Independence
import VimPattern.Proofs.Scan.Relocation
import VimPattern.Proofs.Scan.Joints
import VimPattern.Proofs.Wording.Surroundings
import VimPattern.Proofs.Wording.Behind
import VimPattern.Proofs.Wording.Alternation
import VimPattern.Proofs.Scan.Enclosures
import VimPattern.Proofs.Scan.Markers
import VimPattern.Proofs.Grammar.Refusal
import VimPattern.Proofs.Grammar.Unclosed
import VimPattern.Proofs.Scan.Sites
import VimPattern.Proofs.Failure.Checked
import VimPattern.Proofs.Failure.Consistency
import VimPattern.Proofs.Failure.Positions
import VimPattern.Proofs.Grammar.Viable
import VimPattern.Proofs.Grammar.Placed
import VimPattern.Proofs.Grammar.LineStart
import VimPattern.Proofs.Spelling.Listing
import VimPattern.Proofs.Spelling.Ranges
import VimPattern.Proofs.Spelling.Collections
import VimPattern.Proofs.Wording.Switch
import VimPattern.Proofs.Grammar.Balance
import VimPattern.Proofs.Tree.Contributions
import VimPattern.Proofs.Grammar.Carets
import VimPattern.Proofs.Grammar.Operands
import VimPattern.Proofs.Scan.Lookahead
import VimPattern.Proofs.Scan.Cuts
import VimPattern.Proofs.Scan.Places
import VimPattern.Proofs.Wording.Moving
import VimPattern.Proofs.Scan.Pairs
import VimPattern.Proofs.Wording.Ignored
import VimPattern.Proofs.Spelling.Times
import VimPattern.Proofs.Grammar.Dollars
import VimPattern.Proofs.Grammar.Consumption
import VimPattern.Proofs.Grammar.Implied
import VimPattern.Proofs.Spelling.LineBreaks
import VimPattern.Proofs.Wording.Folding
import VimPattern.Proofs.Scan.Coverage
import VimPattern.Proofs.Target.Flat
import VimPattern.Proofs.Spelling.Seams
import VimPattern.Proofs.Wording.Plain
import VimPattern.Proofs.Failure.Progress
import VimPattern.Proofs.Wording.Census
import VimPattern.Proofs.Spelling.Numbers
import VimPattern.Proofs.Tree.Pushes
import VimPattern.Proofs.Scan.Calls
import VimPattern.Proofs.Descent.Whole
