/-
Reading literals: strings, numbers below a bound, and values with the placeholders that may stand
for them; then units of time and intervals, which are a value and a range of units.
-/
import SqlInsight.Grammar.Parser.Basic
import SqlInsight.Text.Quoted

namespace SqlInsight.Grammar

open Reader

/-- A range of whole numbers from zero: its name, and the least number beyond it. -/
structure Range where
  name : String
  bound : Nat

namespace Range

/-- The numbers that fit 64 bits. -/
def long : Range := ⟨"u64", 18446744073709551616⟩

/-- The numbers that fit 32 bits. -/
def short : Range := ⟨"u32", 4294967296⟩

/-- The number that begins with the digits of `n` and goes on with those given. What is wrong first
is the reason for failing. -/
def readFrom (range : Range) (n : Nat) : List Char → Except String Nat
  | [] => .ok n
  | c :: rest =>
      let m := n * 10 + (c.toNat - 48)
      if !c.isDigit then .error "invalid digit found in string"
      else if range.bound ≤ m then .error "number too large to fit in target type"
      else range.readFrom m rest

end Range

/-- The digits of a number without the letter that may mark it as long. -/
def plainDigits (digits : String) : List Char :=
  digits.toList.filter (· != 'L')

/-- The number that digits, which stand at that place, write in a range. -/
def numberIn (range : Range) (digits : String) (place : Option Position) : Reader Nat :=
  let plain := plainDigits digits
  match range.readFrom 0 plain with
  | .ok n => return n
  | .error why =>
      failAt ("Could not parse '" ++ String.ofList plain ++ "' as " ++ range.name ++ ": " ++ why)
        place

def boundedNumber (range : Range) : Reader Nat := do
  let start ← place
  match ← peek with
  | .number digits => skip; numberIn range digits start
  | _ => wrongNext "literal int"

def wholeNumber : Reader Nat :=
  boundedNumber Range.long

/-- Read a number in parentheses, if a parenthesis is next. -/
def optionalPrecision : Reader String := do
  if ← atSymbol "(" then
    let n ← inParens wholeNumber
    return s!"({n})"
  else return ""

/-- Read one or two numbers in parentheses, if a parenthesis is next. -/
def optionalScale : Reader String := do
  if ← atSymbol "(" then
    inParens do
      let n ← wholeNumber
      let scale ← if ← symbol "," then (fun k => s!",{k}") <$> wholeNumber else pure ""
      return s!"({n}" ++ scale ++ ")"
  else return ""

def stringText (d : Dialect) : Reader String := do
  match ← peek with
  | .word value _ word =>
      if word.isEmpty || !isKeyword word then skip; return value
      else wrongNext "literal string"
  | .literal .single value => skip; return value
  | .literal .double value => skip; return value
  | .literal .unicode value => skip; return value
  | .literal .escaped value =>
      if d.hasEscapedStrings then skip; return value
      else wrongNext "literal string"
  | _ => wrongNext "literal string"

/-- Read the text of a string in single quotes; `what` names it in the message. -/
def singleString (what : String) : Reader String := do
  match ← peek with
  | .literal .single value => skip; return value
  | _ => wrongNext what

def charLiteral (d : Dialect) : Reader Unit := do
  let start ← place
  let text ← stringText d
  if text.utf8ByteSize != 1 then
    failAt ("Expect a char, found " ++ String.ofList (Text.quoted text.toList)) start

/-- A literal value; numbers and placeholders keep their text. -/
inductive Value where
  | number (text : String)
  | placeholder (text : String)
  | string
  | other
deriving Repr, DecidableEq

/-- Read what the sign of a placeholder, already taken, begins. -/
def placeholderAfter (sign : String) : Reader Value := do
  match ← peek with
  | .word value _ _ => skip; return .placeholder (sign ++ value)
  | .number digits =>
      if digits.endsWith "L" then wrongNext "placeholder"
      else skip; return .placeholder (sign ++ digits)
  | _ => wrongNext "placeholder"

def value (d : Dialect) : Reader Value := do
  match ← peek with
  | .word _ quote word =>
      if word == "NULL" then skip; return .other
      else if d.hasBooleanLiterals && (word == "TRUE" || word == "FALSE") then
        skip
        return .other
      else if quote == some '"' then skip; return .string
      else if quote.isSome then wrongNext "A value?"
      else wrongNext "a concrete value"
  | .number digits => skip; return .number digits
  | .placeholder text => skip; return .placeholder text
  | .literal .single _ | .literal .double _ => skip; return .string
  | .literal _ _ => skip; return .other
  | .symbol s =>
      if s == ":" || s == "@" then
        skip
        placeholderAfter s
      else wrongNext "a value"
  | _ => wrongNext "a value"

/-- Read a number or a placeholder for one, and give its text. -/
def numberValue (d : Dialect) : Reader String := do
  let start ← get
  match ← value d with
  | .number text => return text
  | .placeholder text => return text
  | _ =>
      set start
      expected "literal number"

/-- Read a number or a placeholder, perhaps with a sign, and give its text. -/
def signedNumber (d : Dialect) : Reader String := do
  match ← peek with
  | .symbol "+" => skip; return "+" ++ (← numberValue d)
  | .symbol "-" => skip; return "-" ++ (← numberValue d)
  | _ => numberValue d

/-- Read a unit of time: its word, or nothing for one that only the text knows. -/
def timeField (d : Dialect) : Reader String := do
  let isOpen := d == .postgres || d == .generic
  match ← peek with
  | .word _ _ word =>
      if word == "WEEK" then
        skip
        if ← only (d == .generic) (symbol "(") then
          ignoring identifier
          expectSymbol ")"
        return word
      else if timeFields.contains word then skip; return word
      else if isOpen then skip; return ""
      else wrongNext "date/time field"
  | .literal .single _ => if isOpen then skip; return "" else wrongNext "date/time field"
  | _ => wrongNext "date/time field"

/-- Read the literal of an interval, whose value `operand` reads, after its word. -/
def interval (g : Level) (operand : Reader Expr) : Reader Expr := do
  let d := g.dialect
  let amount ← if d == .mysql then g.expr 0 else operand
  let unit ←
    if intervalFields.contains (← peek).keyword then timeField d
    else if d == .mysql then
      failAt "INTERVAL requires a unit after the literal value" (← place)
    else pure ""
  if unit == "SECOND" then ignoring optionalScale
  else
    ignoring optionalPrecision
    if ← keyword "TO" then
      let last ← timeField d
      if last == "SECOND" then ignoring optionalPrecision
  return .special "INTERVAL" [amount]

end SqlInsight.Grammar
