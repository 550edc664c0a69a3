/-
Characters with their positions, and the two notations for characters inside strings: the escapes of
a backslash, and those that give a code point in base sixteen.
-/
import SqlInsight.Grammar.Dialect
import SqlInsight.Grammar.Token
import SqlInsight.Text.Digits
import SqlInsight.Text.Position

namespace SqlInsight.Grammar

abbrev PlacedText := List (Char × Position)

/-- Why a text has no tokens: the message, and where the trouble starts. -/
structure LexError where
  message : String
  place : Position
deriving Repr, DecidableEq

namespace PlacedText

def number (p : Position) : Text → PlacedText
  | [] => []
  | c :: rest =>
      (c, p) :: number (if c = '\n' then ⟨p.line + 1, 1⟩ else ⟨p.line, p.column + 1⟩) rest

/-- The position after the last character. -/
def endOf (p : Position) : Text → Position
  | [] => p
  | c :: rest => endOf (if c = '\n' then ⟨p.line + 1, 1⟩ else ⟨p.line, p.column + 1⟩) rest

def peek (s : PlacedText) : Option Char :=
  s.head?.map Prod.fst

/-- The position of the next character; `last` is where the text ends. -/
def start (last : Position) (s : PlacedText) : Position :=
  match s with
  | (_, p) :: _ => p
  | [] => last

/-- The characters at the start that satisfy `p`, and the rest. -/
def split (p : Char → Bool) (s : PlacedText) : Text × PlacedText :=
  ((List.takeWhile (fun c => p c.1) s).map Prod.fst, List.dropWhile (fun c => p c.1) s)

end PlacedText

/-- The character with that code point, unless it has none. -/
def charOf? (n : Nat) : Option Char :=
  if n.isValidChar then some (Char.ofNat n) else none

/-- The character of a byte: of a larger number only the last byte counts, and it must be ASCII. -/
def charOfByte? (n : Nat) : Option Char :=
  if n % 256 < 128 then charOf? (n % 256) else none

/-- The number that digits of base sixteen write; a plus sign may stand before them. -/
def hexNumber? (digits : Text) : Option Nat :=
  let plain := match digits with
    | '+' :: rest => rest
    | _ => digits
  if !plain.isEmpty && plain.all (Text.isDigitIn 16) then some (Text.ofDigits 16 plain) else none

/-- The character that follows a backslash in a string with escapes, by its notation, and how many
characters after `c` the notation takes. -/
def escapeOf? (c : Char) (rest : PlacedText) : Option (Char × Nat) :=
  let digitsIn (base most : Nat) : Text :=
    ((rest.take most).map Prod.fst).takeWhile (Text.isDigitIn base)
  let codePoint (size : Nat) : Option (Char × Nat) := do
    let digits := (rest.take size).map Prod.fst
    if digits.length < size then none
    else return (← charOf? (← hexNumber? digits), size)
  match c with
  | 'b' => some ('\x08', 0)
  | 'f' => some ('\x0c', 0)
  | 'n' => some ('\n', 0)
  | 'r' => some ('\r', 0)
  | 't' => some ('\t', 0)
  | 'u' => codePoint 4
  | 'U' => codePoint 8
  | 'x' =>
      let digits := digitsIn 16 2
      if digits.isEmpty then some ('x', 0)
      else (charOfByte? (Text.ofDigits 16 digits)).map fun e => (e, digits.length)
  | c =>
      if Text.isDigitIn 8 c then
        let digits := digitsIn 8 2
        (charOfByte? (Text.ofDigits 8 (c :: digits))).map fun e => (e, digits.length)
      else some (c, 0)

/-- Read a string with escapes after its opening quote. The null character may not be escaped. -/
def readEscaped (s : PlacedText) : Option (Text × PlacedText) :=
  match s with
  | [] => none
  | (c, _) :: rest =>
      if c = '\'' then
        match rest with
        | ('\'', _) :: more => (readEscaped more).map fun (t, m) => ('\'' :: t, m)
        | _ => some ([], rest)
      else if c = '\\' then
        match rest with
        | [] => none
        | (d, _) :: more =>
            match escapeOf? d more with
            | none => none
            | some (e, taken) =>
                if e = '\x00' then none
                else (readEscaped (more.drop taken)).map fun (t, m) => (e :: t, m)
      else (readEscaped rest).map fun (t, m) => (c :: t, m)
termination_by s.length
decreasing_by all_goals simp <;> omega

/-- Read that many digits of base sixteen as a code point that goes on with those of `n`. -/
def readCodePoint (last : Position) (n : Nat) :
    (digits : Nat) → PlacedText → Except LexError (Char × PlacedText)
  | 0, s =>
      match charOf? n with
      | some c => .ok (c, s)
      | none =>
          let digits := String.ofList (Nat.toDigits 16 n)
          .error ⟨"Invalid unicode character: " ++ digits, PlacedText.start last s⟩
  | _ + 1, [] =>
      .error ⟨"Unexpected EOF while parsing hex digit in escaped unicode string.", last⟩
  | digits + 1, (c, _) :: rest =>
      match Text.hexDigit? c with
      | some d => readCodePoint last (n * 16 + d) digits rest
      | none =>
          .error ⟨"Invalid hex digit in escaped unicode string: " ++ String.ofList [c],
            PlacedText.start last rest⟩

/-- Read a string with code points after its opening quote; the number bounds its characters. -/
def readUnicodeUpTo (last : Position) :
    (fuel : Nat) → PlacedText → Except LexError (Text × PlacedText)
  | 0, _ | _, [] => .error ⟨"Unterminated unicode encoded string literal", last⟩
  | fuel + 1, (c, _) :: rest => do
      let onward (e : Char) (s : PlacedText) : Except LexError (Text × PlacedText) := do
        let (t, more) ← readUnicodeUpTo last fuel s
        return (e :: t, more)
      let codePoint (digits : Nat) (s : PlacedText) : Except LexError (Text × PlacedText) := do
        let (e, more) ← readCodePoint last 0 digits s
        onward e more
      match c, rest with
      | '\'', ('\'', _) :: more => onward c more
      | '\'', _ => return ([], rest)
      | '\\', ('\\', _) :: more => onward c more
      | '\\', ('+', _) :: more => codePoint 6 more
      | '\\', _ => codePoint 4 rest
      | _, _ => onward c rest

/-- Read a string with code points after its opening quote. -/
def readUnicode (last : Position) (s : PlacedText) : Except LexError (Text × PlacedText) :=
  readUnicodeUpTo last (s.length + 1) s

end SqlInsight.Grammar
