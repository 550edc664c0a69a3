/-
Searching a SQL text for words and for the places where an identifier was written. All searches
return the least offset that fits; a name must not be part of a longer one.
-/
import SqlInsight.Text.Region

namespace SqlInsight.Text

/-- The least offset, `start` or later, at which `p` holds of the text before it (in reverse) and
the text from it on. The text given begins at `offset`. No offset is found unless a character
begins at `start`. -/
def seekFrom (p : Text → Text → Bool) (start : Nat) (before : Text) (offset : Nat) :
    Text → Option Nat
  | [] => none
  | c :: rest =>
      if offset < start then
        let next := offset + c.utf8Size
        if start < next then none else seekFrom p start (c :: before) next rest
      else if p before (c :: rest) then some offset
      else seekFrom p start (c :: before) (offset + c.utf8Size) rest

/-- The least offset, `start` or later, at which `p` holds of the text before it (in reverse) and
the text from it on. -/
def seek (p : Text → Text → Bool) (start : Nat) (t : Text) : Option Nat :=
  seekFrom p start [] 0 t

/-- Whether the first character, if there is one, may be part of a name. -/
def beginsName (t : Text) : Bool :=
  match t with
  | c :: _ => CharClass.isName c
  | [] => false

/-- Whether the last character, if there is one, may be part of a name. -/
def endsName (t : Text) : Bool :=
  beginsName t.reverse

/-- Whether the text begins with `word`, in any ASCII case. -/
def startsWithAscii : (t word : Text) → Bool
  | _, [] => true
  | [], _ :: _ => false
  | c :: rest, w :: word => c.toLower == w.toLower && startsWithAscii rest word

/-- Whether `word` stands between `before` (in reverse) and what follows it in `rest` without
being part of a longer name. -/
def wordAt (word before rest : Text) : Bool :=
  startsWithAscii rest word
    && !(beginsName word && beginsName before)
    && !(endsName word && beginsName (rest.drop word.length))

/-- The least offset, `start` or later, at which `word` stands as a word, in any ASCII case. -/
def findWord (t word : Text) (start : Nat) : Option Nat :=
  if word.isEmpty then none else seek (wordAt word) start t

/-- Whether a name between `before` (in reverse) and `after` is one part of a dotted name. -/
def isDottedPart (before after : Text) : Bool :=
  (before.dropWhile (fun c => c == '[' || c == '"')).head? == some '.'
    || (after.dropWhile (fun c => c == ']' || c == '"')).head? == some '.'

def bracket (name : Text) : Text :=
  '[' :: name ++ [']']

/-- The ways to write an identifier, the preferred ones first: in brackets, qualified, bare. -/
def identifierForms (qualifier : Option Text) (name : Text) : List Text :=
  let qualified :=
    match qualifier with
    | none => []
    | some q =>
        [q ++ '.' :: bracket name, bracket q ++ '.' :: bracket name,
          q ++ '.' :: name, bracket q ++ '.' :: name]
  bracket name :: qualified ++ [name]

/-- The least offset of `form` in the masked text, `start` or later, that `accept` allows given
the text before it (in reverse). Without a qualifier, parts of dotted names are passed over. -/
def findForm (masked : Text) (qualified : Bool) (accept : Text → Bool) (start : Nat)
    (form : Text) : Option Nat :=
  if form.isEmpty then none
  else
    seek (fun before rest =>
      wordAt form before rest
        && (qualified || !isDottedPart before (rest.drop form.length))
        && accept before) start masked

/-- Where an identifier was written at `start` or later, outside literals and comments: the offset
and the size of the first form of it that has an accepted occurrence. -/
def locateIdentifierFrom (t : Text) (qualifier : Option Text) (name : Text) (start : Nat)
    (accept : Text → Bool) : Option (Nat × Nat) :=
  let masked := t.mask .literals
  (identifierForms qualifier name).findSome? fun form =>
    (findForm masked qualifier.isSome accept start form).map (·, form.size)

/-- Where an identifier was first written, in the preferred form. -/
def locateIdentifier (t : Text) (qualifier : Option Text) (name : Text) : Option (Nat × Nat) :=
  locateIdentifierFrom t qualifier name 0 fun _ => true

end SqlInsight.Text
