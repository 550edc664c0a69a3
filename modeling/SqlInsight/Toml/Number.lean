/-
Reading TOML numbers, dates and times. Underscores may stand between digits; integers fit 64 bits,
and a number must not be too large for a double.
-/
import SqlInsight.Text.Digits
import SqlInsight.Toml

namespace SqlInsight.Toml

/-- The rest of a run of digits in a base, without its underscores; none if an underscore stands at
its end. -/
def moreDigits (base : Nat) : Text → Option (Text × Text)
  | [] => some ([], [])
  | '_' :: rest =>
      match rest with
      | c :: more =>
          if Text.isDigitIn base c then
            (moreDigits base more).map fun (digits, after) => (c :: digits, after)
          else none
      | [] => none
  | c :: rest =>
      if Text.isDigitIn base c then
        (moreDigits base rest).map fun (digits, after) => (c :: digits, after)
      else some ([], c :: rest)

/-- A run of at least one digit in a base, without its underscores, and what follows. -/
def digitRun? (base : Nat) : Text → Option (Text × Text)
  | [] => none
  | c :: rest =>
      if Text.isDigitIn base c then
        (moreDigits base rest).map fun (digits, after) => (c :: digits, after)
      else none

def sign : Text → Bool × Text
  | '-' :: rest => (true, rest)
  | '+' :: rest => (false, rest)
  | t => (false, t)

/-- The digits of a decimal number before its point; a zero stands alone. -/
def wholeDigits? : Text → Option (Text × Text)
  | '0' :: rest => some (['0'], rest)
  | t => digitRun? 10 t

/-- The least number that does not fit 64 bits with a sign. -/
def signedBound : Nat :=
  0x8000000000000000

/-- An integer that fits 64 bits. -/
def ofInt64? (n : Int) : Option Toml :=
  if -Int.ofNat signedBound ≤ n ∧ n < Int.ofNat signedBound then some (.integer n) else none

/-- An integer in a base other than ten, after the letter for it. -/
def basedInteger? (base : Nat) (t : Text) : Option (Toml × Text) := do
  let (digits, rest) ← digitRun? base t
  return (← ofInt64? (Text.ofDigits base digits), rest)

def integer? : Text → Option (Toml × Text)
  | '0' :: 'x' :: rest => basedInteger? 16 rest
  | '0' :: 'o' :: rest => basedInteger? 8 rest
  | '0' :: 'b' :: rest => basedInteger? 2 rest
  | t => do
      let (isNegative, rest) := sign t
      let (digits, rest) ← wholeDigits? rest
      let n := Text.ofDigits 10 digits
      return (← ofInt64? (if isNegative then -n else n), rest)

def fraction? : Text → Option (Text × Text)
  | '.' :: rest => digitRun? 10 rest
  | _ => none

def exponent? : Text → Option (Int × Text)
  | [] => none
  | c :: rest =>
      if c = 'e' ∨ c = 'E' then
        let (isNegative, rest) := sign rest
        (digitRun? 10 rest).map fun (digits, rest) =>
          let n := Text.ofDigits 10 digits
          (if isNegative then -n else n, rest)
      else none

/-- The least number that rounds to no finite double. -/
def doubleBound : Nat :=
  Nat.pow 2 1024 - Nat.pow 2 970

/-- Whether `n` times ten to the `exponent` is too large for a double. -/
def overflows (n : Nat) (exponent : Int) : Bool :=
  let magnitude := ((Nat.toDigits 10 n).length : Int) + exponent
  if n = 0 ∨ magnitude < 300 then false
  else if 320 < magnitude then true
  else if 0 ≤ exponent then doubleBound ≤ n * Nat.pow 10 exponent.toNat
  else doubleBound * Nat.pow 10 exponent.natAbs ≤ n

/-- The number with a fraction or an exponent at the start of a text. -/
def decimal? (t : Text) : Option (Toml × Text) := do
  let (isNegative, rest) := sign t
  let (whole, rest) ← wholeDigits? rest
  let (fraction, exponent, rest) ←
    match fraction? rest with
    | some (fraction, rest) =>
        match exponent? rest with
        | some (exponent, rest) => some (fraction, exponent, rest)
        | none =>
            if rest.head?.any fun c => c == 'e' || c == 'E' then none
            else some (fraction, 0, rest)
    | none => (exponent? rest).map fun (exponent, rest) => ([], exponent, rest)
  let n := Text.ofDigits 10 (whole ++ fraction)
  if !isNegative && overflows n (exponent - fraction.length) then none
  return (.real (t.take (t.length - rest.length)), rest)

/-- The infinity or the value that is no number at the start of a text. -/
def special? (t : Text) : Option (Toml × Text) :=
  match (sign t).2 with
  | 'i' :: 'n' :: 'f' :: rest => some (.real (t.take (t.length - rest.length)), rest)
  | 'n' :: 'a' :: 'n' :: rest => some (.real (t.take (t.length - rest.length)), rest)
  | _ => none

/-- The number that exactly `count` digits write, and what follows. -/
def fixed? (count : Nat) (t : Text) : Option (Nat × Text) :=
  let digits := t.take count
  if digits.length = count ∧ digits.all Char.isDigit then
    some (Text.ofDigits 10 digits, t.drop count)
  else none

/-- What follows a character at the start of a text. -/
def after? (c : Char) : Text → Option Text
  | [] => none
  | d :: rest => if d = c then some rest else none

def daysIn (year month : Nat) : Nat :=
  if month = 2 then if year % 4 = 0 ∧ (year % 100 ≠ 0 ∨ year % 400 = 0) then 29 else 28
  else if month ∈ [4, 6, 9, 11] then 30
  else 31

def afterDate? (t : Text) : Option Text := do
  let (year, t) ← fixed? 4 t
  let (month, t) ← fixed? 2 (← after? '-' t)
  let (day, t) ← fixed? 2 (← after? '-' t)
  if 1 ≤ month ∧ month ≤ 12 ∧ 1 ≤ day ∧ day ≤ daysIn year month then some t else none

def afterMinute? (t : Text) : Option Text := do
  let (hour, t) ← fixed? 2 t
  let (minute, t) ← fixed? 2 (← after? ':' t)
  if hour < 24 ∧ minute < 60 then some t else none

/-- What follows a time of day; a minute may have a leap second. -/
def afterTime? (t : Text) : Option Text := do
  let (second, t) ← fixed? 2 (← after? ':' (← afterMinute? t))
  if 60 < second then none
  match t with
  | '.' :: rest =>
      let digits := rest.takeWhile Char.isDigit
      if digits.isEmpty then some t else some (rest.drop digits.length)
  | _ => some t

/-- What follows the offset from universal time, if there is one. -/
def afterZone (t : Text) : Text :=
  match t with
  | [] => []
  | c :: rest =>
      if c = 'Z' ∨ c = 'z' then rest
      else if c = '+' ∨ c = '-' then (afterMinute? rest).getD t
      else t

/-- What follows the time after a date, if there is one. -/
def afterDaytime (t : Text) : Text :=
  match t with
  | [] => []
  | c :: rest =>
      if c = 'T' ∨ c = 't' ∨ c = ' ' then ((afterTime? rest).map afterZone).getD t else t

/-- The date or time at the start of a text. -/
def moment? (t : Text) : Option (Toml × Text) :=
  (((afterDate? t).map afterDaytime).or (afterTime? t)).map fun rest =>
    (.moment (t.take (t.length - rest.length)), rest)

/-- The number, date or time at the start of a text. -/
def number? (t : Text) : Option (Toml × Text) :=
  (((moment? t).or (decimal? t)).or (special? t)).or (integer? t)

end SqlInsight.Toml
