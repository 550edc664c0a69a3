/-
Where in the text of a statement a finding belongs: at a name, at a table, at a word or at the star
of a `SELECT` list.
-/
import SqlInsight.Text.Search

namespace SqlInsight.Validation

/-- What a finding is about, as it was written: an identifier, a table, which is best sought after a
word that introduces tables, a word, or a star. -/
inductive Anchor where
  | identifier (qualifier : Option Text) (name : Text)
  | table (schema : Option Text) (name : Text)
  | word (word : Text)
  | star
deriving Repr, DecidableEq

namespace Anchor

/-- The words right after which a table is named. -/
def tableWords : List String :=
  ["FROM", "JOIN", "APPLY", "INTO", "UPDATE", "TABLE"]

/-- Whether a table is named after a text, which is given in reverse: after a comma or a word that
introduces tables. -/
def introducesTable (before : Text) : Bool :=
  let before := before.dropWhile CharClass.isBlank
  before.head? == some ','
    || tableWords.any fun word =>
      Text.sameAscii (before.takeWhile CharClass.isName).reverse word.toList

/-- Where the star of a `SELECT` list stands at `start` or later: the first one after the word. -/
def findStar? (t : Text) (start : Nat) : Option (Nat × Nat) := do
  let masked := t.mask .identifiers
  let select ← masked.findWord "SELECT".toList start
  let star ← (masked.dropBytes select).find? ['*']
  return (select + star, 1)

/-- Where in a text the anchor was written at `start` or later: the offset and the size. -/
def find? (t : Text) (start : Nat) : Anchor → Option (Nat × Nat)
  | identifier qualifier name => t.locateIdentifierFrom qualifier name start fun _ => true
  | table schema name =>
      (t.locateIdentifierFrom schema name start introducesTable).or
        (t.locateIdentifierFrom schema name start fun _ => true)
  | word w => ((t.mask .identifiers).findWord w start).map (·, w.size)
  | star => findStar? t start

end Anchor

end SqlInsight.Validation
