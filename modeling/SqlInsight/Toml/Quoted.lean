/-
Reading quoted TOML strings: between double quotes with escapes, or between single quotes as they
stand; tripled quotes enclose several lines. A line break in a string is one line feed.
-/
import SqlInsight.Text.Digits

namespace SqlInsight.Toml

/-- A character that may stand in a string or a comment as itself. -/
def isPlain (c : Char) : Bool :=
  c == '\t' || (0x20 ≤ c.toNat && c.toNat != 0x7f)

/-- What follows a line break at the start of a text. -/
def afterBreak? : Text → Option Text
  | '\n' :: rest => some rest
  | '\r' :: '\n' :: rest => some rest
  | _ => none

def skipBlanks (t : Text) : Text :=
  t.dropWhile fun c => c == ' ' || c == '\t'

/-- A text without the blanks and line breaks at its start. -/
def skipBreaks : Text → Text
  | '\r' :: '\n' :: rest => skipBreaks rest
  | c :: rest => if c == ' ' || c == '\t' || c == '\n' then skipBreaks rest else c :: rest
  | [] => []

/-- The character that `count` hexadecimal digits number, and what follows them. -/
def codePoint? (count : Nat) (t : Text) : Option (Char × Text) :=
  let digits := t.take count
  let n := Text.ofDigits 16 digits
  if digits.length = count ∧ digits.all (Text.isDigitIn 16) ∧ n.isValidChar then
    some (Char.ofNat n, t.drop count)
  else none

/-- The character that an escape stands for, after its backslash, and what follows. -/
def escape? : Text → Option (Char × Text)
  | [] => none
  | c :: rest =>
      match c with
      | 'b' => some ('\x08', rest)
      | 't' => some ('\t', rest)
      | 'n' => some ('\n', rest)
      | 'f' => some ('\x0c', rest)
      | 'r' => some ('\r', rest)
      | '"' => some ('"', rest)
      | '\\' => some ('\\', rest)
      | 'u' => codePoint? 4 rest
      | 'U' => codePoint? 8 rest
      | _ => none

/-- Put characters in front of what has been read. -/
def withFront (front : Text) (r : Option (Text × Text)) : Option (Text × Text) :=
  r.map fun (inner, rest) => (front ++ inner, rest)

/-- The inside of a string up to its closing double quote, and what follows. -/
def basicFrom : (fuel : Nat) → Text → Option (Text × Text)
  | 0, _ => none
  | _ + 1, [] => none
  | _ + 1, '"' :: rest => some ([], rest)
  | fuel + 1, '\\' :: rest =>
      (escape? rest).bind fun (c, rest) => withFront [c] (basicFrom fuel rest)
  | fuel + 1, c :: rest => if isPlain c then withFront [c] (basicFrom fuel rest) else none

/-- The inside of a string up to its closing single quote, and what follows. -/
def literalFrom (t : Text) : Option (Text × Text) :=
  let inner := t.takeWhile fun c => isPlain c && c != '\''
  match t.drop inner.length with
  | '\'' :: rest => some (inner, rest)
  | _ => none

/-- What a run of quotes means in a string of several lines: up to two belong to the string, and
three of five or fewer close it. Gives how many belong to it and whether the string ends. -/
def quoteRun (run : Nat) : Nat × Bool :=
  if run < 3 then (run, false) else (min (run - 3) 2, true)

/-- The inside of a string of several lines up to its closing quotes, and what follows. With
`escapes` a backslash begins an escape, or joins two lines at the end of one. -/
def multilineFrom (quote : Char) (escapes : Bool) : (fuel : Nat) → Text → Option (Text × Text)
  | 0, _ => none
  | _ + 1, [] => none
  | fuel + 1, c :: rest =>
      if c = quote then
        let (kept, ends) := quoteRun ((c :: rest).takeWhile (· == quote)).length
        let quotes := List.replicate kept quote
        if ends then some (quotes, (c :: rest).drop (kept + 3))
        else withFront quotes (multilineFrom quote escapes fuel ((c :: rest).drop kept))
      else if escapes ∧ c = '\\' then
        match afterBreak? (skipBlanks rest) with
        | some rest => multilineFrom quote escapes fuel (skipBreaks rest)
        | none =>
            (escape? rest).bind fun (d, rest) =>
              withFront [d] (multilineFrom quote escapes fuel rest)
      else
        match afterBreak? (c :: rest) with
        | some rest => withFront ['\n'] (multilineFrom quote escapes fuel rest)
        | none =>
            if isPlain c then withFront [c] (multilineFrom quote escapes fuel rest) else none

/-- The inside of a string of several lines after its opening quotes; a line break right after them
does not count. -/
def multiline (quote : Char) (escapes : Bool) (t : Text) : Option (Text × Text) :=
  multilineFrom quote escapes (t.length + 1) ((afterBreak? t).getD t)

/-- The string at the start of a text, and what follows it. -/
def quoted? : Text → Option (Text × Text)
  | '"' :: '"' :: '"' :: rest => multiline '"' true rest
  | '"' :: rest => basicFrom (rest.length + 1) rest
  | '\'' :: '\'' :: '\'' :: rest => multiline '\'' false rest
  | '\'' :: rest => literalFrom rest
  | _ => none

end SqlInsight.Toml
