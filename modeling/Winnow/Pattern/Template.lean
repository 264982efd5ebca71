import Winnow.Pattern.Compiled
import Winnow.Value.Display

/-!
# Enumeration templates

A pattern as wildcards for listing files: one wildcard per combination of present and absent
optionals. A parameter with a known value stands for that value, all others for any text. Templates
may admit more than the pattern; the pattern itself decides afterwards.
-/

namespace Winnow.Pattern

/-- The wildcards of a pattern under known values. -/
structure Template where
  /-- All alternatives in one text, with braces around what may be absent. -/
  rendered : String
  alternatives : List String
  /-- Whether every parameter has a known value. -/
  pinned : Bool
  deriving DecidableEq, Repr

/-- The text as a wildcard that matches only itself. -/
def escapeWildcards (s : List Char) : List Char :=
  s.flatMap fun c => if c = '*' || c = '?' || c = '[' then ['[', c, ']'] else [c]

def foldedChars (fold : Fold) (s : List Char) : List Char :=
  match fold with
  | .none => s
  | .before => separator :: s
  | .after => s ++ [separator]

/-- The value that pins a parameter. -/
def pinnedValue? (values : Assoc String Value) (name : String) : Option String :=
  match values.get? name with
  | none => none
  | some .null => none
  | some v => some v.plain

/-- The choices that a part leaves, and its text in the rendered template. -/
def choices (values : Assoc String Value) : Part → List (List Char) × List Char
  | .literal text =>
    let t := escapeWildcards text.toList
    ([t], t)
  | .param p fold =>
    match pinnedValue? values p.name with
    | some v =>
      let t := foldedChars fold (escapeWildcards v.toList)
      ([t], t)
    | none =>
      match p.kind with
      | .splat => ([['*', '*']], ['*', '*'])
      | .optional =>
        -- It is absent, or it stands there with the separator that it takes along.
        let present := foldedChars fold ['*']
        ([[], present], '\x7b' :: ',' :: present ++ ['\x7d'])
      | _ => ([['*']], ['*'])

/-- All texts made of one choice each; the last choice varies fastest. -/
def combinations : List (List (List Char)) → List (List Char)
  | [] => [[]]
  | options :: rest => options.flatMap fun o => (combinations rest).map (o ++ ·)

def anyDepth : List Char := ['*', '*']

/-- Whether two stars stand next to each other. -/
def hasDoubleStar : List Char → Bool
  | '*' :: '*' :: _ => true
  | _ :: rest => hasDoubleStar rest
  | [] => false

/-- Cuts the segments at the first one that holds a double star among other text: from there on
everything is admitted. -/
def widen : List (List Char) → List (List Char)
  | [] => []
  | s :: rest =>
    if hasDoubleStar s && s ≠ anyDepth then [anyDepth, ['*']] else s :: widen rest

/-- A last segment for any depth needs a name after it. -/
def closeDepth (segments : List (List Char)) : List (List Char) :=
  if segments.getLast? = some anyDepth then segments ++ [['*']] else segments

/-- Segments of a wildcard that can be walked one by one. -/
def walkable (text : List Char) : List (List Char) :=
  closeDepth (widen (Text.splitOn separator text))

/-- Joins segments with separators. -/
def joinSegments (segments : List (List Char)) : List Char :=
  [separator].intercalate segments

/-- The distinct elements in order of first appearance. -/
def distinct {α : Type} [BEq α] (xs : List α) : List α :=
  xs.foldl (fun acc x => if acc.contains x then acc else acc ++ [x]) []

/-- The template of a pattern under known values. -/
def template (p : Pattern) (values : Assoc String Value) : Template :=
  let parts := p.parts.map (choices values)
  let texts := (combinations (parts.map Prod.fst)).map fun t => joinSegments (walkable t)
  { rendered := String.ofList (parts.flatMap Prod.snd)
    alternatives := (distinct texts).map String.ofList
    pinned := p.params.all fun q => (pinnedValue? values q.name).isSome }

end Winnow.Pattern
