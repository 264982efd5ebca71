import Winnow.Text.Character

/-!
# Slugs

A slug is a text for use in links: its words in lower case, without punctuation, joined by hyphens.
-/

namespace Winnow.Markup

/-- A character between the words of a slug. -/
def isSeparator (c : Char) : Bool := Text.isSpace c || c == '_' || c == '-'

/-- A character that is not punctuation. -/
def isKept (c : Char) : Bool := Text.isWord c || Text.isSpace c || c == '-'

/-- The words of a text with `word` as the reversed start of the first one. -/
def wordsAux (word : List Char) : List Char → List (List Char)
  | [] => if word.isEmpty then [] else [word.reverse]
  | c :: rest =>
    if isSeparator c then
      if word.isEmpty then wordsAux [] rest else word.reverse :: wordsAux [] rest
    else wordsAux (c :: word) rest

/-- The longest runs of characters that separate no words. -/
def words (s : List Char) : List (List Char) := wordsAux [] s

/-- The slug of a text. -/
def slug (s : List Char) : List Char :=
  ['-'].intercalate (words ((Text.lower s).filter isKept))

end Winnow.Markup
