import Winnow.Main
import Winnow.Proofs.Regex.Ways
import Winnow.Proofs.Regex.Cutting
import Winnow.Proofs.Regex.Blindness
import Winnow.Proofs.Regex.Numbering
import Winnow.Proofs.Regex.Excerpts
import Winnow.Proofs.Outcome
import Winnow.Proofs.Pattern.Grammar
import Winnow.Proofs.Pattern.Decomposition
import Winnow.Proofs.Pattern.Rebuilding
import Winnow.Proofs.Pattern.Trying
import Winnow.Proofs.Pattern.Acceptance
import Winnow.Proofs.Pattern.Validation
import Winnow.Proofs.Pattern.Folding
import Winnow.Proofs.Pattern.RoundTrip
import Winnow.Proofs.Pattern.Constraints
import Winnow.Proofs.Query.Checks
import Winnow.Proofs.Query.Narrowing
import Winnow.Proofs.Query.Moves
import Winnow.Proofs.Query.Draining
import Winnow.Proofs.Query.Slots
import Winnow.Proofs.Query.Collisions
import Winnow.Proofs.Query.Clashes
import Winnow.Proofs.Query.Calls
import Winnow.Proofs.Query.First
import Winnow.Proofs.Query.Strictness
import Winnow.Proofs.Query.Wildcards
import Winnow.Proofs.Query.Taking
import Winnow.Proofs.Query.Steps
import Winnow.Proofs.Query.Expansion
import Winnow.Proofs.Markup.Windows
import Winnow.Proofs.Markup.Expressions
import Winnow.Proofs.Markup.Headings
import Winnow.Proofs.Markup.Writing
import Winnow.Proofs.Markup.Consumption
import Winnow.Proofs.Files.Covering
import Winnow.Proofs.Files.Searching
import Winnow.Proofs.Files.Containment
import Winnow.Proofs.Files.Shuffling
import Winnow.Proofs.Files.Faults
import Winnow.Proofs.Files.RealPaths
import Winnow.Proofs.Files.Loading
import Winnow.Proofs.Output.Paging
import Winnow.Proofs.Cli.Lines
import Winnow.Proofs.Cli.Endings
import Winnow.Proofs.Cli.Strategy
import Winnow.Proofs.Markup.Slugs
import Winnow.Proofs.Files.Exactness
