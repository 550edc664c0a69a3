/-
Reading JSON text. A text is one value with blanks around it. Escaped surrogates that do not come in
pairs are well formed, but a value that holds them is broken.
-/
import SqlInsight.Json
import SqlInsight.Text.Digits

namespace SqlInsight.Json

/-- Skip the blanks that JSON allows between tokens. -/
def skipBlanks (t : Text) : Text :=
  t.dropWhile fun c => c == ' ' || c == '\t' || c == '\n' || c == '\r'

/-- The value of four hexadecimal digits. -/
def hex4? (a b c d : Char) : Option Nat := do
  return (((← Text.hexDigit? a) * 16 + (← Text.hexDigit? b)) * 16 + (← Text.hexDigit? c)) * 16
    + (← Text.hexDigit? d)

/-- The character that a one-letter escape stands for. -/
def escaped? (c : Char) : Option Char :=
  match c with
  | '"' | '\\' | '/' => some c
  | 'b' => some '\x08'
  | 'f' => some '\x0c'
  | 'n' => some '\n'
  | 'r' => some '\r'
  | 't' => some '\t'
  | _ => none

/-- Whether a code unit is the first of a surrogate pair. -/
def isLeading (n : Nat) : Bool :=
  0xd800 ≤ n && n < 0xdc00

/-- Whether a code unit is the second of a surrogate pair. -/
def isTrailing (n : Nat) : Bool :=
  0xdc00 ≤ n && n < 0xe000

/-- Read the inside of a string up to its closing quote, and what follows: the numbers that its
escapes give, and the code points of all other characters. -/
def readString : Text → Option (List Nat × Text)
  | [] => none
  | '"' :: rest => some ([], rest)
  | '\\' :: 'u' :: a :: b :: c :: d :: rest => do
      let code ← hex4? a b c d
      let (codes, more) ← readString rest
      return (code :: codes, more)
  | '\\' :: c :: rest => do
      let escaped ← escaped? c
      let (codes, more) ← readString rest
      return (escaped.toNat :: codes, more)
  | c :: rest => do
      if c.toNat < 0x20 || c == '\\' then none
      else
        let (codes, more) ← readString rest
        return (c.toNat :: codes, more)

/-- The characters of codes, in which surrogates must come in pairs. -/
def characters? : List Nat → Option Text
  | [] => some []
  | [code] => if isLeading code || isTrailing code then none else some [Char.ofNat code]
  | first :: second :: rest =>
      if isLeading first then
        if isTrailing second then
          let code := 0x10000 + (first - 0xd800) * 0x400 + (second - 0xdc00)
          (characters? rest).map (Char.ofNat code :: ·)
        else none
      else if isTrailing first then none
      else (characters? (second :: rest)).map (Char.ofNat first :: ·)

def stringOf? (codes : List Nat) : Option String :=
  (characters? codes).map String.ofList

def readDigits (t : Text) : Option (Text × Text) :=
  let digits := t.takeWhile Char.isDigit
  if digits.isEmpty then none else some (digits, t.dropWhile Char.isDigit)

def readFraction : Text → Option (Text × Text)
  | '.' :: rest => (readDigits rest).map fun (digits, more) => ('.' :: digits, more)
  | t => some ([], t)

def readExponent (t : Text) : Option (Text × Text) :=
  match t with
  | c :: rest =>
      if c == 'e' || c == 'E' then
        let sign := rest.takeWhile fun d => d == '+' || d == '-'
        if 1 < sign.length then none
        else (readDigits (rest.drop sign.length)).map fun (digits, more) =>
          (c :: sign ++ digits, more)
      else some ([], t)
  | [] => some ([], [])

def readNumber (isNegative : Bool) (t : Text) : Option (Json × Text) := do
  let (digits, more) ← readDigits t
  if digits.head? == some '0' && 1 < digits.length then none
  else
    let (fraction, more) ← readFraction more
    let (exponent, more) ← readExponent more
    if fraction.isEmpty && exponent.isEmpty then
      let n := Text.ofDigits 10 digits
      return (if isNegative then .negative n else .natural n, more)
    else
      let sign := if isNegative then ['-'] else []
      return (.real (String.ofList (sign ++ digits ++ fraction ++ exponent)), more)

/-- Read the items of an array that is not empty, after its bracket or a comma. -/
def readItems (value : Text → Option (Json × Text)) :
    (fuel : Nat) → Text → Option (List Json × Text)
  | 0, _ => none
  | fuel + 1, t => do
      let (item, more) ← value t
      match skipBlanks more with
      | ',' :: more =>
          let (items, more) ← readItems value fuel more
          return (item :: items, more)
      | ']' :: more => return ([item], more)
      | _ => none

/-- Read the members of an object that is not empty, after its brace or a comma. A broken name is
none. -/
def readMembers (value : Text → Option (Json × Text)) :
    (fuel : Nat) → Text → Option (List (Option String × Json) × Text)
  | 0, _ => none
  | fuel + 1, t => do
      match skipBlanks t with
      | '"' :: rest =>
          let (codes, more) ← readString rest
          match skipBlanks more with
          | ':' :: more =>
              let (member, more) ← value more
              match skipBlanks more with
              | ',' :: more =>
                  let (members, more) ← readMembers value fuel more
                  return ((stringOf? codes, member) :: members, more)
              | '}' :: more => return ([(stringOf? codes, member)], more)
              | _ => none
          | _ => none
      | _ => none

def literal (t rest : Text) : String :=
  String.ofList (t.take (t.length - rest.length))

/-- Read a value whose containers nest at most `depth` deep. -/
def readValue (depth : Nat) (t : Text) : Option (Json × Text) :=
  match skipBlanks t with
  | 'n' :: 'u' :: 'l' :: 'l' :: rest => some (.null, rest)
  | 't' :: 'r' :: 'u' :: 'e' :: rest => some (.bool true, rest)
  | 'f' :: 'a' :: 'l' :: 's' :: 'e' :: rest => some (.bool false, rest)
  | '"' :: rest =>
      (readString rest).map fun (codes, more) =>
        (((stringOf? codes).map Json.string).getD (.broken (literal ('"' :: rest) more)), more)
  | '-' :: rest => readNumber true rest
  | '[' :: rest =>
      match depth with
      | 0 => none
      | depth + 1 =>
          match skipBlanks rest with
          | ']' :: more => some (.array [], more)
          | _ => (readItems (readValue depth) rest.length rest).map fun (items, more) =>
              (.array items, more)
  | '\x7b' :: rest =>
      match depth with
      | 0 => none
      | depth + 1 =>
          match skipBlanks rest with
          | '\x7d' :: more => some (.object [], more)
          | _ => (readMembers (readValue depth) rest.length rest).map fun (members, more) =>
              match members.mapM fun m => m.1.map (·, m.2) with
              | some members => (.object members, more)
              | none => (.broken (literal ('\x7b' :: rest) more), more)
  | rest => readNumber false rest

/-- Read a text that is one value. A container takes a character, so the length of the text bounds
how deep they nest. -/
def ofText? (t : Text) : Option Json :=
  match readValue t.length t with
  | some (value, more) => if (skipBlanks more).isEmpty then some value else none
  | none => none

end SqlInsight.Json
