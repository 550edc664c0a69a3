/-
Cutting a SQL text into the tokens of a dialect. Blanks and comments separate tokens and are not
kept. Every character knows its position, so a token knows where it starts.
-/
import SqlInsight.Grammar.Dialect
import SqlInsight.Grammar.Escape

namespace SqlInsight.Grammar

/-- A step of the lexer: a token, or nothing for blanks, and the rest of the text. -/
abbrev LexResult := Except LexError (Option Token × PlacedText)

/-- A one-character escape of a backslash in a string. -/
def unescapeChar (c : Char) : Char :=
  match c with
  | '0' => '\x00'
  | 'a' => '\x07'
  | 'b' => '\x08'
  | 'f' => '\x0c'
  | 'n' => '\n'
  | 'r' => '\r'
  | 't' => '\t'
  | 'Z' => '\x1a'
  | c => c

/-- Read a string after its opening quote; a doubled quote stands for one. -/
def readQuoted (quote : Char) (escapes keepsWildcards : Bool) :
    PlacedText → Option (Text × PlacedText)
  | [] => none
  | [(c, _)] => if c = quote then some ([], []) else none
  | (c, _) :: (d, q) :: rest =>
      if c = quote then
        if d = quote then
          (readQuoted quote escapes keepsWildcards rest).map fun (t, more) => (quote :: t, more)
        else some ([], (d, q) :: rest)
      else if escapes && c = '\\' then
        (readQuoted quote escapes keepsWildcards rest).map fun (t, more) =>
          if keepsWildcards && (d == '%' || d == '_') then (c :: d :: t, more)
          else (unescapeChar d :: t, more)
      else
        (readQuoted quote escapes keepsWildcards ((d, q) :: rest)).map fun (t, more) =>
          (c :: t, more)

/-- Read a string without escapes up to three quotes in a row. -/
def readTriple (quote : Char) : PlacedText → Option (Text × PlacedText)
  | [] => none
  | (c, _) :: rest =>
      match c, rest with
      | c, (d, _) :: (e, _) :: more =>
          if c = quote ∧ d = quote ∧ e = quote then some ([], more)
          else (readTriple quote rest).map fun (t, more) => (c :: t, more)
      | c, _ => (readTriple quote rest).map fun (t, more) => (c :: t, more)

/-- Read a block comment after its opening, given the character before; `depth` more comments are
open inside it. A character may both end one of them and begin the next. -/
def readComment (depth : Nat) (last : Char) : PlacedText → Option PlacedText
  | [] => none
  | (c, _) :: rest =>
      if last = '/' ∧ c = '*' then readComment (depth + 1) c rest
      else if last = '*' ∧ c = '/' then
        match depth with
        | 0 => some rest
        | depth + 1 => readComment depth c rest
      else readComment depth c rest

/-- A literal of that kind, or the reason why there is none. -/
def literalOr (kind : LiteralKind) (error : LexError) :
    Option (Text × PlacedText) → LexResult
  | some (value, more) => .ok (some (.literal kind (String.ofList value)), more)
  | none => .error error

/-- Read a string literal of that kind whose opening quote is next. -/
def lexString (d : Dialect) (kind : LiteralKind) (escapes : Bool) (s : PlacedText) : LexResult :=
  match s with
  | [] => .ok (none, [])
  | (quote, place) :: rest =>
      literalOr kind ⟨"Unterminated string literal", place⟩
        (readQuoted quote escapes (d == .mysql) rest)

/-- Read a raw string whose opening quote is next; `last` is where the text ends. -/
def lexRaw (plain triple : LiteralKind) (last : Position) (s : PlacedText) : LexResult :=
  let unterminated (inside : PlacedText) : LexError :=
    ⟨"Unterminated string literal", PlacedText.start last inside⟩
  match s with
  | [] => .ok (none, [])
  | (quote, _) :: rest =>
      let opening := (s.take 3).takeWhile fun c => c.1 = quote
      match opening.length with
      | 3 => literalOr triple (unterminated (s.drop 3)) (readTriple quote (s.drop 3))
      | 2 => .ok (some (.literal plain ""), s.drop 2)
      | _ => literalOr plain (unterminated rest) (readQuoted quote false false rest)

/-- Read a word that begins with the characters given. -/
def lexWord (d : Dialect) (start : Text) (s : PlacedText) : LexResult :=
  let (t, rest) := PlacedText.split d.continuesWord s
  .ok (some (.bare (start ++ t)), rest)

/-- Read a word after its first character, which is no longer in the text. What is only digits and
dots is a number. -/
def lexWordOrNumber (d : Dialect) (start : Text) (s : PlacedText) : LexResult :=
  let (t, rest) := PlacedText.split d.continuesWord s
  let word := start ++ t
  if word.all fun c => c.isDigit || c == '.' then
    let (more, rest) := PlacedText.split (fun c => c.isDigit || c == '.') rest
    .ok (some (.number (String.ofList (word ++ more))), rest)
  else .ok (some (.bare word), rest)

/-- An operator, or the custom operator that its characters begin. -/
def lexOperator (d : Dialect) (text : String) (s : PlacedText) : LexResult :=
  let (t, rest) := PlacedText.split d.isOperatorPart s
  if t.isEmpty then .ok (some (.symbol text), rest)
  else .ok (some (.customOperator (text ++ String.ofList t)), rest)

def lexSymbol (text : String) (s : PlacedText) : LexResult :=
  .ok (some (.symbol text), s)

/-- Skip a comment up to the end of its line. -/
def skipLine (s : PlacedText) : LexResult :=
  .ok (none, (s.dropWhile fun c => c.1 ≠ '\n').drop 1)

def readExponent (s : PlacedText) : Text × PlacedText :=
  match s with
  | (e, _) :: rest =>
      if e = 'e' ∨ e = 'E' then
        let (sign, afterSign) :=
          match rest with
          | (c, _) :: more => if c = '+' ∨ c = '-' then ([c], more) else ([], rest)
          | [] => ([], [])
        let (digits, more) := PlacedText.split Char.isDigit afterSign
        if digits.isEmpty then ([], s) else (e :: sign ++ digits, more)
      else ([], s)
  | [] => ([], [])

/-- Read a number, or a period that begins none. -/
def lexNumber (d : Dialect) (s : PlacedText) : LexResult :=
  let (whole, rest) := PlacedText.split Char.isDigit s
  if whole = ['0'] ∧ PlacedText.peek rest = some 'x' then
    let (digits, more) := PlacedText.split
      (fun c => c.isDigit || ('a' ≤ c && c ≤ 'f') || ('A' ≤ c && c ≤ 'F')) (rest.drop 1)
    .ok (some (.literal .hex (String.ofList digits)), more)
  else
    let (point, rest) :=
      if PlacedText.peek rest = some '.' then (['.'], rest.drop 1) else ([], rest)
    let (fraction, rest) := PlacedText.split Char.isDigit rest
    let digits := whole ++ point ++ fraction
    if digits = ['.'] then .ok (some (.symbol "."), rest)
    else
      let beginsExponent := (PlacedText.peek rest).any fun c => c == 'e' || c == 'E'
      let (exponent, rest) := readExponent rest
      let (word, more) :=
        if d == .mysql && !beginsExponent then PlacedText.split d.continuesWord rest else ([], rest)
      if !word.isEmpty then .ok (some (.bare (digits ++ word)), more)
      else if PlacedText.peek rest = some 'L' then
        .ok (some (.number (String.ofList (digits ++ exponent) ++ "L")), rest.drop 1)
      else .ok (some (.number (String.ofList (digits ++ exponent))), rest)

/-- Read up to two dollar signs; a lone dollar sign is dropped. -/
def readDollars (previous : Bool) : PlacedText → Option (Text × PlacedText)
  | [] => none
  | (c, _) :: rest =>
      if previous then
        if c = '$' then some ([], rest)
        else (readDollars false rest).map fun (t, more) => ('$' :: c :: t, more)
      else if c = '$' then readDollars true rest
      else (readDollars false rest).map fun (t, more) => (c :: t, more)

/-- Read up to the closing delimiter of a tagged string. After a dollar sign `seen` holds the
characters that may belong to the delimiter and what is missing of the tag; a character that does
not fit belongs to the string with them. -/
def readTagged (tag : Text) (seen : Option (Text × Text)) :
    PlacedText → Option (Text × PlacedText)
  | [] => none
  | (c, _) :: rest =>
      let kept (text : Text) : Option (Text × PlacedText) :=
        (readTagged tag none rest).map fun (t, more) => (text ++ c :: t, more)
      match seen with
      | none => if c = '$' then readTagged tag (some (['$'], tag)) rest else kept []
      | some (start, []) => if c = '$' then some ([], rest) else kept start
      | some (start, d :: missing) =>
          if c = d then readTagged tag (some (start ++ [c], missing)) rest else kept start

/-- Read what a dollar sign, no longer in the text, begins. -/
def lexDollar (last : Position) (s : PlacedText) : LexResult :=
  match s with
  | ('$', _) :: rest =>
      literalOr (.dollar "") ⟨"Unterminated dollar-quoted string", last⟩ (readDollars false rest)
  | s =>
      let (tag, rest) := PlacedText.split (fun c => CharClass.isAlphanumeric c || c == '_') s
      if PlacedText.peek rest = some '$' then
        literalOr (.dollar (String.ofList tag)) ⟨"Unterminated dollar-quoted, expected $", last⟩
          (readTagged tag none (rest.drop 1))
      else .ok (some (.placeholder (String.ofList ('$' :: tag))), rest)

/-- Read a delimited name whose opening quote is next. -/
def lexName (s : PlacedText) : LexResult :=
  match s with
  | [] => .ok (none, [])
  | (quote, place) :: rest =>
      match readQuoted (closingQuote quote) false false rest with
      | some (value, more) => .ok (some (.quoted quote value), more)
      | none =>
          .error ⟨"Expected close delimiter '" ++ String.ofList [closingQuote quote]
            ++ "' before EOF.", place⟩

/-- Read what a character that may introduce a string begins. The character stood at `place` and is
no longer in the text, which ends at `last`. -/
def lexPrefixed (d : Dialect) (c : Char) (place last : Position) (s : PlacedText) : LexResult :=
  match c, PlacedText.peek s with
  | 'b', some '\'' | 'B', some '\'' =>
      if d == .mssql then lexWord d [c] s else lexString d .singleBytes false s
  | 'b', some '"' | 'B', some '"' =>
      if d == .mssql then lexWord d [c] s else lexString d .doubleBytes false s
  | 'r', some '\'' | 'R', some '\'' =>
      if d == .generic then lexRaw .singleRaw .tripleSingleRaw last s else lexWord d [c] s
  | 'r', some '"' | 'R', some '"' =>
      if d == .generic then lexRaw .doubleRaw .tripleDoubleRaw last s else lexWord d [c] s
  | 'n', some '\'' | 'N', some '\'' => lexString d .national true s
  | 'e', some '\'' | 'E', some '\'' =>
      literalOr .escaped ⟨"Unterminated encoded string literal", place⟩ (readEscaped (s.drop 1))
  | 'u', some '&' | 'U', some '&' =>
      if d.hasUnicodeStrings && PlacedText.peek (s.drop 1) == some '\'' then
        (readUnicode last (s.drop 2)).map fun (value, more) =>
          (some (.literal .unicode (String.ofList value)), more)
      else lexWord d [c] s
  | 'x', some '\'' | 'X', some '\'' => lexString d .hex true s
  | c, _ => lexWord d [c] s

/-- Read a token that begins with `#`, which is no longer in the text. -/
def lexHash (d : Dialect) (s : PlacedText) : LexResult :=
  if d == .mysql then skipLine s
  else
    match s with
    | ('-', _) :: rest => lexOperator d "#-" rest
    | ('>', _) :: ('>', _) :: rest => lexOperator d "#>>" rest
    | ('>', _) :: rest => lexOperator d "#>" rest
    | (' ', _) :: _ => lexSymbol "#" s
    | (c, _) :: rest =>
        if d.beginsWord '#' then lexWordOrNumber d ['#', c] rest else lexOperator d "#" s
    | [] => lexOperator d "#" s

/-- Read a token that begins with `@`, which is no longer in the text. -/
def lexAt (d : Dialect) (s : PlacedText) : LexResult :=
  match s with
  | ('>', _) :: rest => lexSymbol "@>" rest
  | ('?', _) :: rest => lexSymbol "@?" rest
  | ('@', _) :: rest =>
      match rest with
      | (' ', _) :: _ => lexSymbol "@@" rest
      | (c, _) :: more =>
          if d.beginsWord '@' then lexWordOrNumber d ['@', '@', c] more else lexSymbol "@@" rest
      | [] => lexSymbol "@@" rest
  | (c, _) :: rest =>
      if c == ' ' then lexSymbol "@" s
      else if d.beginsWord '@' then lexWordOrNumber d ['@', c] rest
      else lexSymbol "@" s
  | [] => lexSymbol "@" s

/-- Read a token that begins with `~`, which is no longer in the text. -/
def lexTilde (d : Dialect) (s : PlacedText) : LexResult :=
  match s with
  | ('*', _) :: rest => lexOperator d "~*" rest
  | ('~', _) :: ('*', _) :: rest => lexOperator d "~~*" rest
  | ('~', _) :: rest => lexOperator d "~~" rest
  | _ => lexOperator d "~" s

/-- Read a token that begins with `!`, which is no longer in the text. -/
def lexBang (s : PlacedText) : LexResult :=
  match s with
  | ('=', _) :: rest => lexSymbol "<>" rest
  | ('!', _) :: rest => lexSymbol "!!" rest
  | ('~', _) :: ('*', _) :: rest => lexSymbol "!~*" rest
  | ('~', _) :: ('~', _) :: ('*', _) :: rest => lexSymbol "!~~*" rest
  | ('~', _) :: ('~', _) :: rest => lexSymbol "!~~" rest
  | ('~', _) :: rest => lexSymbol "!~" rest
  | _ => lexSymbol "!" s

/-- Read a token that begins with `-`, which is no longer in the text. -/
def lexMinus (d : Dialect) (s : PlacedText) : LexResult :=
  match s with
  | ('-', _) :: rest => skipLine rest
  | ('>', _) :: ('>', _) :: rest => lexOperator d "->>" rest
  | ('>', _) :: rest => lexOperator d "->" rest
  | _ => lexOperator d "-" s

/-- Read a token that begins with `|`, which is no longer in the text. -/
def lexPipe (d : Dialect) (s : PlacedText) : LexResult :=
  match s with
  | ('/', _) :: rest => lexOperator d "|/" rest
  | ('|', _) :: ('/', _) :: rest => lexOperator d "||/" rest
  | ('|', _) :: rest => lexOperator d "||" rest
  | _ => lexOperator d "|" s

/-- Read a token that begins with `<`, which is no longer in the text. -/
def lexLess (d : Dialect) (s : PlacedText) : LexResult :=
  match s with
  | ('=', _) :: ('>', _) :: rest => lexOperator d "<=>" rest
  | ('=', _) :: rest => lexOperator d "<=" rest
  | ('>', _) :: rest => lexOperator d "<>" rest
  | ('<', _) :: rest => lexOperator d "<<" rest
  | ('@', _) :: rest => lexOperator d "<@" rest
  | _ => lexOperator d "<" s

/-- Read a token that begins with `?`, which is no longer in the text. -/
def lexQuestion (d : Dialect) (s : PlacedText) : LexResult :=
  if d == .postgres then
    match s with
    | ('|', _) :: rest => lexSymbol "?|" rest
    | ('&', _) :: rest => lexSymbol "?&" rest
    | s => lexSymbol "?" (s.drop 1)
  else
    let (digits, rest) := PlacedText.split CharClass.isNumeric s
    .ok (some (.placeholder (String.ofList ('?' :: digits))), rest)

/-- Read one token or one stretch of blanks; `last` is where the text ends. -/
def lexToken (d : Dialect) (last : Position) (s : PlacedText) : LexResult :=
  match s with
  | [] => .ok (none, [])
  | (c, place) :: rest =>
      match c with
      | ' ' | '\t' | '\n' | '\r' => .ok (none, rest)
      | '\'' => lexString d .single d.hasBackslashEscapes s
      | '(' => lexSymbol "(" rest
      | ')' => lexSymbol ")" rest
      | ',' => lexSymbol "," rest
      | ';' => lexSymbol ";" rest
      | '\\' => lexSymbol "\\" rest
      | ']' => lexSymbol "]" rest
      | '\x7b' => lexSymbol "\x7b" rest
      | '\x7d' => lexSymbol "\x7d" rest
      | '+' => lexSymbol "+" rest
      | '*' => lexSymbol "*" rest
      | '-' => lexMinus d rest
      | '/' =>
          match rest with
          | ('*', _) :: more =>
              match readComment 0 ' ' more with
              | some more => .ok (none, more)
              | none => .error ⟨"Unexpected EOF while in a multi-line comment", last⟩
          | ('/', _) :: more => if d == .generic then lexSymbol "//" more else lexSymbol "/" rest
          | _ => lexSymbol "/" rest
      | '%' =>
          if (PlacedText.peek rest).any CharClass.isBlank then lexSymbol "%" rest
          else lexOperator d "%" rest
      | '|' => lexPipe d rest
      | '=' =>
          match rest with
          | ('>', _) :: more => lexSymbol "=>" more
          | ('=', _) :: more => lexSymbol "==" more
          | _ => lexSymbol "=" rest
      | '!' => lexBang rest
      | '<' => lexLess d rest
      | '>' =>
          match rest with
          | ('=', _) :: more => lexOperator d ">=" more
          | ('>', _) :: more => lexOperator d ">>" more
          | _ => lexOperator d ">" rest
      | ':' =>
          match rest with
          | (':', _) :: more => lexSymbol "::" more
          | ('=', _) :: more => lexSymbol ":=" more
          | _ => lexSymbol ":" rest
      | '&' =>
          match rest with
          | ('&', _) :: more => lexOperator d "&&" more
          | _ => lexOperator d "&" rest
      | '^' =>
          match rest with
          | ('@', _) :: more => lexSymbol "^@" more
          | _ => lexSymbol "^" rest
      | '~' => lexTilde d rest
      | '#' => lexHash d rest
      | '@' => lexAt d rest
      | '?' => lexQuestion d rest
      | c =>
          if d.opensName c then lexName s
          else if c = '"' then lexString d .double d.hasBackslashEscapes s
          else if c = '[' then lexSymbol "[" rest
          else if c.isDigit || c == '.' then lexNumber d s
          else if d.beginsWord c then lexPrefixed d c place last rest
          else if c = '$' then lexDollar last rest
          else if CharClass.isBlank c then .ok (none, rest)
          else .ok (some (.other c), rest)

abbrev Placed := Token × Position

/-- The tokens of a source; every step reads at least one character, so its length bounds the
steps. -/
def lexAll (d : Dialect) (last : Position) :
    (fuel : Nat) → PlacedText → Except LexError (List Placed)
  | 0, _ => .ok []
  | _ + 1, [] => .ok []
  | fuel + 1, (c, p) :: rest => do
      let (token, more) ← lexToken d last ((c, p) :: rest)
      let tokens ← lexAll d last fuel more
      match token with
      | some t => return (t, p) :: tokens
      | none => return tokens

def tokens (d : Dialect) (t : Text) : Except LexError (List Placed) :=
  lexAll d (PlacedText.endOf ⟨1, 1⟩ t) t.length (PlacedText.number ⟨1, 1⟩ t)

end SqlInsight.Grammar
