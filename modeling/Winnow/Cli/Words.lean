import Winnow.Text.Character
import Winnow.Text.Lines

/-!
# Words of a command line

A command line is a list of words. Words that name an option are told from plain ones first, all of
them before any is acted on; then the words are grouped into parts: arguments in their places,
options with their values, and what nothing takes. An option may be named by the beginning of its
name as long as no other begins like it, and its value may be attached to it with an equals sign.
Behind a double dash all words are plain.
-/

namespace Winnow.Cli

/-- Why a command line is not run. -/
inductive Refusal
  /-- Help was asked for. -/
  | help
  | usage
  deriving DecidableEq, Repr

/-- A word, by what it may be in a command line whose options are named by `κ`. -/
inductive Word (κ : Type)
  | plain (s : String)
  /-- The double dash. -/
  | mark
  /-- An option, perhaps with an attached value. -/
  | option (o : κ) (attached : Option String)
  /-- The wish for help; it takes no value. -/
  | help (attached : Bool)
  | unknown (s : String)
  deriving DecidableEq, Repr

/-- The long names of options; `none` is the wish for help. -/
abbrev OptionTable (κ : Type) := List (String × Option κ)

/-- The long name under which help is asked for. -/
def helpName : String := "--help"

/-- A table with the wish for help before the other options. -/
def OptionTable.make {κ : Type} (options : List (String × κ)) : OptionTable κ :=
  (helpName, none) :: options.map fun (name, o) => (name, some o)

/-- The word for an entry of a table. -/
def Word.ofEntry {κ : Type} (entry : Option κ) (attached : Option String) : Word κ :=
  match entry with
  | none => .help attached.isSome
  | some o => .option o attached

/-- A dash and a decimal number, with a point and digits behind it or without. One line end may
follow. -/
def isNegativeNumber (s : List Char) : Bool :=
  match s with
  | '-' :: rest =>
    let isDigit (c : Char) := (Text.digitValue? c).isSome
    let whole := rest.takeWhile isDigit
    match rest.dropWhile isDigit with
    | [] => !whole.isEmpty
    | ['\n'] => !whole.isEmpty
    | '.' :: more =>
      let fraction := more.takeWhile isDigit
      let tail := more.dropWhile isDigit
      !fraction.isEmpty && (tail == [] || tail == ['\n'])
    | _ => false
  | _ => false

/-- A word with a dash that names no option: a negative number and a phrase with a space are plain
all the same. -/
def Word.ofStray {κ : Type} (s : List Char) : Word κ :=
  if isNegativeNumber s || s.contains ' ' then .plain (String.ofList s)
  else .unknown (String.ofList s)

/-- A word with a single dash. The only short option is the wish for help, which no value can be
attached to; further letters are not looked at. -/
def Word.ofShort {κ : Type} (s : List Char) : Word κ :=
  match s with
  | '-' :: 'h' :: rest => .help (rest.head? == some '=' || rest.head? == some '-')
  | s => Word.ofStray s

/-- A word with two dashes. The beginning of several names is refused. -/
def Word.ofLong {κ : Type} (table : OptionTable κ) (s : List Char) : Except Refusal (Word κ) :=
  let (name, value) := Text.cut '=' s
  let attached := value.map String.ofList
  match table.lookup (String.ofList name) with
  | some entry => .ok (Word.ofEntry entry attached)
  | none =>
    match table.filter fun (full, _) => (Text.dropHead? name full.toList).isSome with
    | [] => .ok (Word.ofStray s)
    | [(_, entry)] => .ok (Word.ofEntry entry attached)
    | _ => .error .usage

/-- What a word is. A lone dash is plain. -/
def Word.ofText {κ : Type} (table : OptionTable κ) (s : String) : Except Refusal (Word κ) :=
  match s.toList with
  | '-' :: '-' :: rest => Word.ofLong table ('-' :: '-' :: rest)
  | ['-'] => .ok (.plain s)
  | '-' :: rest => .ok (Word.ofShort ('-' :: rest))
  | _ => .ok (.plain s)

/-- The words of a command line. -/
def words {κ : Type} (table : OptionTable κ) : List String → Except Refusal (List (Word κ))
  | [] => .ok []
  | s :: rest =>
    if s = "--" then .ok (.mark :: rest.map .plain)
    else do return (← Word.ofText table s) :: (← words table rest)

/-- A part of a command line. -/
inductive Part (κ : Type)
  | argument (s : String)
  | option (o : κ) (value : Option String)
  | help
  /-- A word that nothing takes. -/
  | surplus
  /-- An option without the value that it takes, or with one that it does not take. -/
  | malformed
  deriving DecidableEq, Repr

/-- The places for arguments that are still open. -/
structure Places where
  /-- How many arguments have to follow. -/
  needed : Nat
  /-- Whether any number of arguments may follow those, up to the next option. -/
  isOpen : Bool
  deriving DecidableEq, Repr

/-- The places after an option: once an open end is reached, the option closes it. -/
def Places.afterOption (p : Places) : Places :=
  if p.needed = 0 then ⟨0, false⟩ else p

/-- The parts that words form. The double dash belongs to the place at which it stands, and every
place drops the first one that it is given; `dashed` says that the open end has dropped its own. -/
def parts {κ : Type} (takesValue : κ → Bool) (places : Places) (dashed : Bool) :
    List (Word κ) → List (Part κ)
  | [] => []
  | .help attached :: rest =>
    (if attached then .malformed else .help) ::
      parts takesValue places.afterOption dashed rest
  | .unknown _ :: rest => .surplus :: parts takesValue places.afterOption dashed rest
  | .option o (some v) :: rest =>
    (if takesValue o then .option o (some v) else .malformed) ::
      parts takesValue places.afterOption dashed rest
  | .option o none :: rest =>
    if takesValue o then
      match rest with
      | .plain v :: rest => .option o (some v) :: parts takesValue places.afterOption dashed rest
      | _ => [.malformed]
    else .option o none :: parts takesValue places.afterOption dashed rest
  | .plain s :: rest =>
    match places with
    | ⟨n + 1, isOpen⟩ =>
      match rest with
      | .mark :: rest => .argument s :: parts takesValue ⟨n, isOpen⟩ dashed rest
      | rest => .argument s :: parts takesValue ⟨n, isOpen⟩ dashed rest
    | ⟨0, true⟩ =>
      if s = "--" && !dashed then parts takesValue places true rest
      else .argument s :: parts takesValue places dashed rest
    | ⟨0, false⟩ => .surplus :: parts takesValue places dashed rest
  | .mark :: rest =>
    match places with
    | ⟨n + 1, isOpen⟩ =>
      match rest with
      | .plain s :: rest => .argument s :: parts takesValue ⟨n, isOpen⟩ dashed rest
      | rest => .surplus :: parts takesValue places dashed rest
    | ⟨0, true⟩ => parts takesValue places true rest
    | ⟨0, false⟩ => .surplus :: parts takesValue places dashed rest

/-- Acts on parts in their order: arguments are gathered, options change the state. What nothing
takes is refused at the end only. -/
def gather {κ σ : Type} (step : σ → κ → Option String → Except Refusal σ) (state : σ)
    (arguments : List String) (surplus : Bool) :
    List (Part κ) → Except Refusal (List String × σ)
  | [] => if surplus then .error .usage else .ok (arguments.reverse, state)
  | .argument s :: rest => gather step state (s :: arguments) surplus rest
  | .option o value :: rest => do gather step (← step state o value) arguments surplus rest
  | .help :: _ => .error .help
  | .surplus :: rest => gather step state arguments true rest
  | .malformed :: _ => .error .usage

/-- The arguments and the options of a command line. -/
def readWords {κ σ : Type} (options : List (String × κ)) (takesValue : κ → Bool)
    (places : Places) (step : σ → κ → Option String → Except Refusal σ) (state : σ)
    (line : List String) : Except Refusal (List String × σ) := do
  gather step state [] false (parts takesValue places false
    (← words (OptionTable.make options) line))

end Winnow.Cli
