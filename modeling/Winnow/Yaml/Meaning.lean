import Winnow.Yaml.Node
import Winnow.Value.Display
import Winnow.Decimal.Reading
import Winnow.Text.Base64

/-!
# The value of a document

A node has a value if every scalar has the form that its tag asks for, mappings have keys that can
be compared, and every tag is known. Of several faults in a document the one least deep in it is
reported, and of those equally deep the first. Texts with half of a pair and keys that are too long
to be written are not read (`Unread`).
-/

namespace Winnow.Yaml

/-! ## Scalars -/

/-- The value of numbers in base sixty, the last one first. -/
def ofSixties (unit : Int) : List Int → Int
  | [] => 0
  | d :: rest => d * unit + ofSixties (unit * 60) rest

/-- The sum of numbers in base sixty, the last one first, rounded at each step. The units grow until
one is too large for a number. -/
def sumSixties (sum : Binary64) (unit : Int) : List Binary64 → Except Fault Binary64
  | [] => .ok sum
  | d :: rest =>
    let factor := Binary64.ofInt unit
    if factor == .infinity false then .error (.scalar .tooLarge)
    else sumSixties (sum.add (d.mul factor)) (unit * 60) rest

def unconvertible {α : Type} (why : Conversion) : Except Fault α :=
  .error (.scalar (.unconvertible why))

/-- The integer that a text is in a base. -/
def readInt (base : Nat) (s : List Char) : Except Fault Int :=
  match Integer.read base s with
  | .ok n => .ok n
  | .error .malformed => unconvertible (.integer base (Text.quote (String.ofList s)))
  | .error (.tooManyDigits n) => unconvertible (.tooManyDigits n)

/-- The number that a text is. -/
def readFloat (s : List Char) : Except Fault Binary64 :=
  match Binary64.ofLooseText? s with
  | some x => .ok x
  | none => unconvertible (.number (Text.quote (String.ofList s)))

/-- The integer that a text with the tag of integers stands for. -/
def intOf (text : List Char) : Except Fault Int := do
  let s := text.filter (· != '_')
  let some first := s.head? | throw (.scalar .noSecondPart)
  let body := if first == '-' || first == '+' then s.drop 1 else s
  let sign : Int := if first == '-' then -1 else 1
  let magnitude ←
    match body with
    | ['0'] => pure 0
    | '0' :: 'b' :: ds => readInt 2 ds
    | '0' :: 'x' :: ds => readInt 16 ds
    | '0' :: _ => readInt 8 body
    | [] => throw (.scalar .noSecondPart)
    | _ =>
      if body.contains ':' then
        let parts ← (Text.splitOn ':' body).mapM (readInt 10)
        pure (ofSixties 1 parts.reverse)
      else readInt 10 body
  return sign * magnitude

/-- The number that a text with the tag of floating-point numbers stands for. -/
def floatOf (text : List Char) : Except Fault Binary64 := do
  let s := Text.lower (text.filter (· != '_'))
  let some first := s.head? | throw (.scalar .noSecondPart)
  let body := if first == '-' || first == '+' then s.drop 1 else s
  let magnitude ←
    if String.ofList body == ".inf" then pure (Binary64.infinity false)
    else if String.ofList body == ".nan" then pure Binary64.nan
    else if body.contains ':' then
      let parts ← (Text.splitOn ':' body).mapM readFloat
      sumSixties (.zero false) 1 parts.reverse
    else readFloat body
  return if first == '-' && !magnitude.isNaN then magnitude.neg else magnitude

/-- The day or moment that a text with the tag of timestamps stands for. -/
def timestampOf (text : List Char) : Except Fault Value :=
  match Timestamp.read? (Tag.dropFinalBreak text) with
  | none => .error (.scalar .noEntries)
  | some ⟨d, none⟩ =>
    match Moment.badDatePart? d with
    | none => .ok (.date d)
    | some p => unconvertible (.part p)
  | some ⟨d, some t⟩ =>
    let m := Timestamp.moment d t
    match m.badPart? with
    | none => .ok (.moment m)
    | some p => unconvertible (.part p)

def boolOf (text : List Char) : Except Fault Bool :=
  let word := String.ofList (Text.lower text)
  if ["yes", "true", "on"].contains word then .ok true
  else if ["no", "false", "off"].contains word then .ok false
  else .error (.scalar .missingKey)

def bytesOf (text : List Char) : Except Fault (List UInt8) :=
  if text.all (·.toNat < 0x80) then
    match Text.Base64.decode? text with
    | some bs => .ok bs
    | none => .error .malformed
  else .error .malformed

/-- The value that a text with a tag stands for. -/
def scalarValue (tag : Tag) (text : List Char) : Except Fault Value :=
  match tag with
  | .null => .ok .null
  | .bool => Value.bool <$> boolOf text
  | .int => Value.int <$> intOf text
  | .float => Value.float <$> floatOf text
  | .binary => Value.bytes <$> bytesOf text
  | .timestamp => timestampOf text
  | .text => .ok (.text (String.ofList text))
  | _ => .error .malformed

/-- A kind whose values are made of other values and cannot be keys. -/
def Tag.isCollection : Tag → Bool
  | .list | .map | .set | .pairs => true
  | _ => false

namespace Node

def tag : Node → Tag
  | .scalar tag _ => tag
  | .sequence tag _ => tag
  | .mapping tag _ => tag

mutual

/-- The text of a node where a scalar is asked for: a mapping can hold it as its own value. -/
def text? : Node → Option (List Char)
  | .scalar _ text => some text
  | .sequence .. => none
  | .mapping _ entries => ownText? entries

def ownText? : List (Node × Node) → Option (List Char)
  | [] => none
  | (k, v) :: rest => if k.tag = .value then text? v else ownText? rest

end

/-! ## Faults and their depth -/

/-- A value, or a fault with its depth in the document. -/
abbrev Outcome (α : Type) := Except (Nat × Fault) α

namespace Outcome

def fail {α : Type} (depth : Nat) (f : Fault) : Outcome α := .error (depth, f)

def ofScalar {α : Type} (depth : Nat) : Except Fault α → Outcome α
  | .ok a => .ok a
  | .error f => fail depth f

/-- Both values, or the fault that is less deep, or the first of two equally deep. -/
def both {α β : Type} : Outcome α → Outcome β → Outcome (α × β)
  | .ok a, .ok b => .ok (a, b)
  | .error e, .ok _ => .error e
  | .ok _, .error f => .error f
  | .error e, .error f => .error (if f.1 < e.1 then f else e)

/-- All values, or the fault that is least deep. -/
def all {α : Type} : List (Outcome α) → Outcome (List α)
  | [] => .ok []
  | a :: rest => (both a (all rest)).map fun (a, as) => a :: as

end Outcome

/-! ## Collections -/

/-- The value of a node that is asked for as a scalar. -/
def scalarOutcome (depth : Nat) (node : Node) : Outcome Value :=
  match node.text?, node with
  | some text, .scalar .. => .ofScalar depth (scalarValue node.tag text)
  | some text, _ =>
    if node.tag = .timestamp then .fail depth (.scalar .unsuitable)
    else .ofScalar depth (scalarValue node.tag text)
  | none, _ => .fail depth .malformed

/-- A key, unless it is too long to be written. -/
def keyOutcome (depth : Nat) (key : Value) : Outcome Value :=
  if key.isWritable then .ok key
  else .fail depth (.scalar (.unconvertible (.unread .longKey)))

mutual

/-- The value of a node at a depth. -/
def outcome (depth : Nat) : Node → Outcome Value
  | .scalar tag text =>
    if tag.isCollection then .fail (depth + 1) .malformed
    else scalarOutcome depth (.scalar tag text)
  | .sequence tag items =>
    match tag with
    | .list => (itemOutcomes (depth + 1) items).map .list
    | .pairs => (pairOutcomes (depth + 1) items).map .list
    | _ =>
      if tag.isCollection then .fail (depth + 1) .malformed
      else scalarOutcome depth (.sequence tag items)
  | .mapping tag entries =>
    match tag with
    | .map => (entryOutcomes (depth + 1) entries).map .map
    | .set => (entryOutcomes (depth + 1) entries).map fun es => .set es.keys
    | _ =>
      if tag.isCollection then .fail (depth + 1) .malformed
      else scalarOutcome depth (.mapping tag entries)

/-- The values of the items of a sequence. -/
def itemOutcomes (depth : Nat) : List Node → Outcome (List Value)
  | [] => .ok []
  | item :: rest =>
    (Outcome.both (outcome depth item) (itemOutcomes depth rest)).map fun (v, vs) => v :: vs

/-- The pairs in a sequence of mappings with one entry each. -/
def pairOutcomes (depth : Nat) : List Node → Outcome (List Value)
  | [] => .ok []
  | .mapping _ [(k, v)] :: rest =>
    (Outcome.both (Outcome.both (outcome depth k) (outcome depth v))
      (pairOutcomes depth rest)).map fun ((k, v), vs) => .tuple [k, v] :: vs
  | _ :: _ => .fail depth .malformed

/-- The entries of a mapping. What is merged into it comes first, so that its own entries win. -/
def entryOutcomes (depth : Nat) (entries : List (Node × Node)) : Outcome Record :=
  match entryParts depth entries with
  | .error f => .fail depth f
  | .ok (merged, own) => (Outcome.all (merged ++ own)).map Assoc.ofList

/-- The entries that are merged into a mapping, and its own. -/
def entryParts (depth : Nat) :
    List (Node × Node) →
      Except Fault (List (Outcome (Value × Value)) × List (Outcome (Value × Value)))
  | [] => .ok ([], [])
  | (k, v) :: rest =>
    if k.tag = .merge then do
      let more ←
        match v with
        | .mapping _ entries => (fun (merged, own) => merged ++ own) <$> entryParts depth entries
        -- The first of several mappings wins, so it comes last.
        | .sequence _ items => (fun parts => parts.reverse.flatten) <$> mergedParts depth items
        | .scalar .. => throw .malformed
      let (merged, own) ← entryParts depth rest
      return (more ++ merged, own)
    else do
      let key : Outcome Value :=
        if k.tag.isCollection then .fail depth .malformed
        else if k.tag = .value then
          match k.text? with
          | some text => .ok (.text (String.ofList text))
          | none => .fail depth .malformed
        else (outcome depth k).bind (keyOutcome depth)
      let part := Outcome.both key (outcome depth v)
      let (merged, own) ← entryParts depth rest
      return (merged, part :: own)

/-- The entries of each mapping in a sequence. -/
def mergedParts (depth : Nat) :
    List Node → Except Fault (List (List (Outcome (Value × Value))))
  | [] => .ok []
  | .mapping _ entries :: rest => do
    let (merged, own) ← entryParts depth entries
    let more ← mergedParts depth rest
    return (merged ++ own) :: more
  | _ :: _ => .error .malformed

end

/-- The value of the tree of a document. -/
def value (node : Node) : Except Fault Value := (node.outcome 0).mapError Prod.snd

end Node

/-- The value of a document; an empty text has the null value. -/
def read (s : List Char) : Except Fault Value :=
  match Node.ofTokens (tokens s) with
  | .error f => .error f
  | .ok none => .ok .null
  | .ok (some node) => node.value

end Winnow.Yaml
