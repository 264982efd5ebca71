import Winnow.Text.Utf8
import Winnow.Yaml.Token

/-!
# Names and tags

Reading of what stands before a node or a document: anchors, aliases, tags and directives. Every
step passes over a character, so that fuel for the characters left is enough.
-/

namespace Winnow.Yaml

open Cursor

/-- Reads the name of an anchor or alias behind its indicator. -/
def readAnchor (c : Cursor) : Except Fault (String × Cursor) :=
  let (name, c) := c.next.span isNameChar
  if name.isEmpty then .error .malformed
  else if isBlankOrBreakOrEnd c.peek || "?:,]\x7d%@\x60".contains c.peek then
    .ok (String.ofList name, c)
  else .error .malformed

/-- Reads a handle: an exclamation mark, or a name between two of them. -/
def readHandle (c : Cursor) : Except Fault (String × Cursor) :=
  if c.peek != '!' then .error .malformed
  else if c.peekAt 1 == ' ' then .ok ("!", c.next)
  else
    let (name, c) := c.next.span isNameChar
    if c.peek != '!' then .error .malformed
    else .ok ("!" ++ String.ofList name ++ "!", c.next)

def isUriChar (c : Char) : Bool :=
  c.isAlphanum || "-;/?:@&=+$,_.!~*'()[]".contains c

def isHexDigit (c : Char) : Bool := c.isDigit || ('a' ≤ c && c ≤ 'f') || ('A' ≤ c && c ≤ 'F')

def hexValue (s : List Char) : Nat :=
  s.foldl (fun n c => n * 16 +
    (if c.isDigit then c.toNat - 48 else if c.toNat ≥ 97 then c.toNat - 87 else c.toNat - 55)) 0

/-- Reads bytes in percent notation, behind those in the reversed list `done`. -/
def readEscapes (done : List UInt8) (c : Cursor) : Nat → Except Fault (List UInt8 × Cursor)
  | 0 => .error .malformed
  | fuel + 1 =>
    if c.peek != '%' then .ok (done.reverse, c)
    else
      let digits := [c.peekAt 1, c.peekAt 2]
      if digits.all isHexDigit then
        readEscapes (UInt8.ofNat (hexValue digits) :: done) (c.advance 3) fuel
      else .error .malformed

/-- Reads the characters of a tag behind the reversed text `done`. -/
def readUriAux (done : List Char) (c : Cursor) : Nat → Except Fault (String × Cursor)
  | 0 => .error .malformed
  | fuel + 1 =>
    if c.peek == '%' then
      match readEscapes [] c fuel with
      | .error f => .error f
      | .ok (bytes, c) =>
        match Text.Utf8.decode bytes with
        | .error _ => .error .malformed
        | .ok s => readUriAux (s.reverse ++ done) c fuel
    else if isUriChar c.peek then
      let (s, c) := c.span isUriChar
      readUriAux (s.reverse ++ done) c fuel
    else if done.isEmpty then .error .malformed
    else .ok (String.ofList done.reverse, c)

/-- Reads the characters of a tag, of which there is at least one. -/
def readUri (c : Cursor) (fuel : Nat) : Except Fault (String × Cursor) := readUriAux [] c fuel

/-- Whether an exclamation mark follows before the next space. -/
def hasHandle : List Char → Bool
  | [] => false
  | c :: rest => c == '!' || (!isSpaceOrBreakOrEnd c && hasHandle rest)

/-- Reads a tag: verbatim, a lone mark, or a suffix behind a handle. -/
def readTag (c : Cursor) (fuel : Nat) : Except Fault (Token × Cursor) := do
  let ch := c.peekAt 1
  let (tag, c) ←
    if ch == '<' then
      let (suffix, c) ← readUri (c.advance 2) fuel
      if c.peek == '>' then pure (Token.tag none suffix, c.next) else throw .malformed
    else if isBlankOrBreakOrEnd ch then pure (Token.tag none "!", c.next)
    else do
      let (handle, c) ← if hasHandle (c.rest.drop 1) then readHandle c else pure ("!", c.next)
      let (suffix, c) ← readUri c fuel
      pure (Token.tag (some handle) suffix, c)
  if isSpaceOrBreakOrEnd c.peek then return (tag, c) else throw .malformed

/-- Reads a number of a version. -/
def readNumber (c : Cursor) : Except Fault (Nat × Cursor) :=
  let (digits, c) := c.span Char.isDigit
  if digits.isEmpty then .error .malformed
  else if digits.length > Integer.maxDigits then
    .error (.scalar (.unconvertible (.tooManyDigits digits.length)))
  else .ok (digits.foldl (fun n d => n * 10 + (d.toNat - 48)) 0, c)

/-- Reads a directive with the rest of its line. -/
def readDirective (c : Cursor) (fuel : Nat) : Except Fault (Token × Cursor) := do
  let (name, c) := c.next.span isNameChar
  if name.isEmpty || !isSpaceOrBreakOrEnd c.peek then throw .malformed
  let skipSpaces (c : Cursor) := c.skip (· == ' ')
  let (d, c) ←
    match String.ofList name with
    | "YAML" => do
      let (major, c) ← readNumber (skipSpaces c)
      if c.peek != '.' then throw .malformed
      let (_, c) ← readNumber c.next
      if !isSpaceOrBreakOrEnd c.peek then throw .malformed
      pure (Directive.version major, c)
    | "TAG" => do
      let (handle, c) ← readHandle (skipSpaces c)
      if c.peek != ' ' then throw .malformed
      let (head, c) ← readUri (skipSpaces c) fuel
      if !isSpaceOrBreakOrEnd c.peek then throw .malformed
      pure (Directive.tag handle head, c)
    | _ => pure (Directive.other, c.skip (!isBreakOrEnd ·))
  return (.directive d, ← c.skipRestOfLine)

end Winnow.Yaml
