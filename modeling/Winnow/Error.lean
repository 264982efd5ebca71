import Winnow.Text.Quoted
import Winnow.Text.Utf8
import Winnow.Decimal.Integer
import Winnow.Pattern.Syntax
import Winnow.Calendar

/-!
# Errors

What can go wrong, by cause, and the wording of each cause.
-/

namespace Winnow

/-- Why the text of a pattern is refused. -/
inductive PatternFault
  | unclosedBrace
  | unmatchedBrace
  | invalidName (name : String)
  | constraintNotAllowed (kind : Pattern.Kind) (name : String)
  | emptyConstraint (name : String)
  | invalidConstraint (name : String)
  | duplicateName (name : String)
  /-- The constraints are fine one by one but not together. -/
  | noMatcher
  deriving DecidableEq, Repr

/-- Why a value cannot stand in a placeholder. -/
inductive ValueFault
  | empty
  | containsSeparator
  | constraintViolated (constraint : String)
  deriving DecidableEq, Repr

/-- Why a block of an item cannot be read. -/
inductive FacetFault
  | neverClosed
  /-- A given fault, without reading anything. -/
  | broken
  | metaNotUtf8 (fault : Text.Utf8.Fault)
  | bodyNotUtf8 (fault : Text.Utf8.Fault)
  | invalidDocument
  | notMapping (typeName : String)
  deriving DecidableEq, Repr

/-- How a query or a collection is set up wrongly. -/
inductive SetupFault
  | noMetaResolver
  | noSelection
  | emptySelection
  /-- A selection path that is no text, in quoted form. -/
  | pathNotText (shown : String)
  | invalidPath (path : String)
  | nestedWildcard (path : String)
  | noResolver (path space : String)
  | metaNotMapping (collection : String)
  | fieldsNotList (collection : String)
  /-- A collection without name, root or pattern, in quoted form. -/
  | incompleteCollection (shown : String)
  | duplicateCollection (name : String)
  | unknownCollection (name : String) (known : List String)
  deriving DecidableEq, Repr

/-- What is not read here, although it may well mean something. -/
inductive Unread
  /-- A character of an expression that is given by its name. -/
  | characterName
  /-- A code point for one half of a pair, which is no character. -/
  | surrogate
  /-- A node that holds itself. -/
  | cycle
  /-- An integer as a key that is too long to be written. -/
  | longKey
  /-- A path that goes on with double dots behind links that lead to each other. -/
  | loopedPath
  deriving DecidableEq, Repr

/-- Why a text, a number or parts of a date cannot be converted. -/
inductive Conversion
  /-- A text that is no integer in a base, in quoted form. -/
  | integer (base : Nat) (shown : String)
  /-- A text that is no number, in quoted form. -/
  | number (shown : String)
  | tooManyDigits (count : Nat)
  | notANumber
  | part (p : Moment.Part)
  | code
  /-- An integer with more digits than are written. -/
  | tooLongToWrite
  /-- A path with a null character. -/
  | nullInPath
  /-- A count beyond the largest index. -/
  | beyondIndex
  | unread (what : Unread)
  deriving DecidableEq, Repr

/-- An argument that is refused where it is given. -/
inductive ArgumentFault
  /-- A count that is no integer, in quoted form. -/
  | notInteger (label shown : String)
  | notPositive (label shown : String)
  | budgetNotPositive (shown : String)
  | conversion (why : Conversion)
  | unsupportedFormat (format : String)
  | notAssignment (item : String)
  | selectAndAlias
  | nothingSelected
  deriving DecidableEq, Repr

/-- Why a file cannot be read. -/
inductive FileFault
  | notFound
  | isDirectory
  | notDirectory
  | nameTooLong
  | tooManyLinks
  deriving DecidableEq, Repr

/-- Operations that a value does not have. -/
inductive TypeFault
  /-- A mapping was expected. -/
  | noEntries
  /-- A path has no second part. -/
  | noSecondPart
  /-- A value cannot be iterated, converted, sliced or used as a key. -/
  | unsuitable
  /-- A text or number cannot be converted. -/
  | unconvertible (why : Conversion)
  /-- A number is too large for a conversion or an index. -/
  | tooLarge
  | missingKey
  deriving DecidableEq, Repr

/-- What can go wrong. -/
inductive Error
  | pattern (pattern : String) (fault : PatternFault) (position : Option Nat)
  | ambiguous (pattern first second : String)
  /-- A parameter took no part in a match. -/
  | unset (pattern id name : String)
  | noMatch (id pattern : String)
  | missingParameter (name pattern : String)
  | parameterValue (name value : String) (fault : ValueFault)
  | setup (fault : SetupFault)
  | unknownField (space field : String) (known : Option (List String))
  | malformedFacet (id : String) (fault : FacetFault)
  | collision (key : String) (paths : List String)
  | emptyResult (query : String)
  | multipleResult (query : String)
  | argument (fault : ArgumentFault)
  | file (fault : FileFault) (path : String)
  | collectionsNotFound (path : String)
  /-- A repetition count in a constraint is beyond all bounds. -/
  | countTooLarge
  /-- Contradictory flags in a constraint. -/
  | flagClash
  | notUtf8 (fault : Text.Utf8.Fault)
  /-- Links that lead to each other. -/
  | linkLoop
  | invalidDocument
  | invalidTable
  | type (fault : TypeFault)
  deriving DecidableEq, Repr

namespace PatternFault

def message : PatternFault → String
  | .unclosedBrace => "unclosed '\x7b'"
  | .unmatchedBrace => "unmatched '\x7d'"
  | .invalidName name => "invalid parameter name " ++ Text.quote name
  | .constraintNotAllowed kind name =>
    "constraint not allowed on " ++ kind.name ++ " parameter '" ++ name ++ "'"
  | .emptyConstraint name => "empty constraint for parameter '" ++ name ++ "'"
  | .invalidConstraint name => "invalid constraint for '" ++ name ++ "': ..."
  | .duplicateName name => "duplicate parameter name '" ++ name ++ "'"
  | .noMatcher => "cannot synthesize matcher: ..."

end PatternFault

namespace ValueFault

def message : ValueFault → String
  | .empty => "value is empty"
  | .containsSeparator => "value contains '/'"
  | .constraintViolated constraint => "value does not match constraint " ++ Text.quote constraint

end ValueFault

namespace FacetFault

def message : FacetFault → String
  | .neverClosed => "frontmatter block is never closed"
  | .broken => "never closed"
  | .metaNotUtf8 fault => "frontmatter is not valid UTF-8: " ++ fault.message
  | .bodyNotUtf8 fault => "body is not valid UTF-8: " ++ fault.message
  | .invalidDocument => "invalid YAML frontmatter: ..."
  | .notMapping typeName => "frontmatter must be a mapping, got " ++ typeName

end FacetFault

/-- Names in a list, or a word for none. -/
def nameList (names : List String) : String :=
  if names.isEmpty || names == [""] then "(none)" else ", ".intercalate names

namespace SetupFault

def message : SetupFault → String
  | .noMetaResolver => "filter() requires a MetaResolver"
  | .noSelection => "No selection: call select() before executing"
  | .emptySelection => "select() needs at least one path"
  | .pathNotText shown => "Selection paths must be strings, got " ++ shown
  | .invalidPath path => "Invalid selection path " ++ Text.quote path ++
      ": expected 'namespace.field' or 'namespace.*'"
  | .nestedWildcard path => "Wildcards only apply to whole namespaces: " ++ Text.quote path
  | .noResolver path space =>
    "Selecting " ++ Text.quote path ++ " requires a " ++ space ++ " resolver"
  | .metaNotMapping c => "Collection '" ++ c ++ "': 'meta' must be a mapping or boolean"
  | .fieldsNotList c => "Collection '" ++ c ++ "': 'meta.fields' must be a list"
  | .incompleteCollection shown =>
    "Collection entries need 'name', 'root' and 'pattern': " ++ shown
  | .duplicateCollection name => "Duplicate collection name '" ++ name ++ "'"
  | .unknownCollection name known =>
    "Unknown collection '" ++ name ++ "'. Known: " ++ nameList known

end SetupFault

namespace Conversion

/-- The wording of a failed conversion. At most two hundred characters of a text are shown. -/
def message : Conversion → String
  | .integer base shown =>
    s!"invalid literal for int() with base {base}: " ++ String.ofList (shown.toList.take 200)
  | .number shown => "could not convert string to float: " ++ shown
  | .tooManyDigits count =>
    "Exceeds the limit (4300 digits) for integer string conversion: value has " ++
      s!"{count} digits; use sys.set_int_max_str_digits() to increase the limit"
  | .notANumber => "cannot convert float NaN to integer"
  | .part p => p.message
  | .code => "chr() arg not in range(0x110000)"
  | .tooLongToWrite => "Exceeds the limit (4300 digits) for integer string conversion; " ++
      "use sys.set_int_max_str_digits() to increase the limit"
  | .nullInPath => "embedded null byte"
  | .beyondIndex => "Stop argument for islice() must be None or an integer: 0 <= x <= sys.maxsize."
  | .unread _ => "not read"

end Conversion

namespace ArgumentFault

def message : ArgumentFault → String
  | .notInteger label shown => label ++ " must be an integer, got " ++ shown
  | .notPositive label shown => label ++ " must be >= 1, got " ++ shown
  | .budgetNotPositive shown =>
    -- A sign and more digits than are written.
    if shown.length > Integer.maxDigits + 1 then Conversion.tooLongToWrite.message
    else "max_bytes must be >= 1, got " ++ shown
  | .conversion why => why.message
  | .unsupportedFormat format => "Unsupported format: " ++ format
  | .notAssignment item => "Expected key=value, got " ++ Text.quote item
  | .selectAndAlias => "Use either --select or --alias, not both"
  | .nothingSelected => "At least one --select or --alias is required"

end ArgumentFault

namespace FileFault

/-- The number and the wording that the system gives a fault. -/
def describe : FileFault → Nat × String
  | .notFound => (2, "No such file or directory")
  | .isDirectory => (21, "Is a directory")
  | .notDirectory => (20, "Not a directory")
  | .nameTooLong => (36, "File name too long")
  | .tooManyLinks => (40, "Too many levels of symbolic links")

end FileFault

namespace Error

/-- The wording of an error. Faults of data that are not worded by this library have none. -/
def message? : Error → Option String
  | .pattern source fault position =>
    let place := match position with
      | none => ""
      | some n => s!" at position {n}"
    some ("Invalid pattern " ++ Text.quote source ++ place ++ ": " ++ fault.message)
  | .ambiguous source first second =>
    some ("Ambiguous pattern " ++ Text.quote source ++ ": parameters '" ++ first ++ "' and '" ++
      second ++ "' are adjacent with no literal separator between them")
  | .unset source id name =>
    some ("Parameter '" ++ name ++ "' did not participate in a match of " ++ Text.quote id ++
      " against " ++ Text.quote source)
  | .noMatch id source =>
    some (Text.quote id ++ " does not match pattern " ++ Text.quote source)
  | .missingParameter name source =>
    some ("Missing required parameter '" ++ name ++ "' for pattern " ++ Text.quote source)
  | .parameterValue name value fault =>
    some ("Invalid value " ++ Text.quote value ++ " for parameter '" ++ name ++ "': " ++
      fault.message)
  | .setup fault => some fault.message
  | .unknownField space field known =>
    let hint := match known with
      | none => ""
      | some names => " Known: " ++ nameList names
    some ("Unknown " ++ space ++ " field '" ++ field ++ "'." ++ hint)
  | .malformedFacet id fault => some ("Malformed facet in " ++ id ++ ": " ++ fault.message)
  | .collision key paths =>
    some ("Selection collision on '" ++ key ++ "': " ++ ", ".intercalate paths ++
      ". Use an alias map to disambiguate.")
  | .emptyResult query => some ("Expected exactly one row, got none (" ++ query ++ ")")
  | .multipleResult query => some ("Expected exactly one row, got more than one (" ++ query ++ ")")
  | .argument fault => some fault.message
  | .file fault path =>
    let (number, text) := fault.describe
    some (s!"[Errno {number}] " ++ text ++ ": " ++ Text.quote path)
  | .collectionsNotFound path => some ("Collections file not found: " ++ path)
  | .countTooLarge => none
  | .flagClash => none
  | .notUtf8 _ => none
  | .linkLoop => none
  | .invalidDocument => none
  | .invalidTable => none
  | .type _ => none

/-- Wrong uses of a query or a collection. -/
def isSetup : Error → Bool
  | .setup _ => true
  | .unknownField .. => true
  | _ => false

/-- Errors that patterns, queries and items have in themselves, whatever files they meet. -/
def isOwn : Error → Bool
  | .pattern .. | .ambiguous .. | .unset .. | .noMatch .. | .missingParameter ..
  | .parameterValue .. | .malformedFacet .. | .collision .. | .emptyResult _
  | .multipleResult _ => true
  | e => e.isSetup

/-- A file that is missing or cannot be read. -/
def isFile : Error → Bool
  | .file .. => true
  | .collectionsNotFound _ => true
  | _ => false

/-- A value, text or number that is refused for what it is. -/
def isValue : Error → Bool
  | .argument _ => true
  | .flagClash => true
  | .notUtf8 _ => true
  | .type (.unconvertible _) => true
  | _ => false

/-- The wording of an error where it is reported to a reader. Faults of data are worded too. -/
def text (e : Error) : String :=
  match e with
  | .flagClash => "ASCII and UNICODE flags are incompatible"
  | .notUtf8 fault => fault.message
  | .type (.unconvertible why) => why.message
  | e => e.message?.getD ""

end Error

end Winnow
