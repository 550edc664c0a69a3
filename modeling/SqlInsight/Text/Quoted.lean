/-
Texts in double quotes, as they are shown to someone who looks for mistakes: what has no shape of
its own is written as its code point.
-/
import SqlInsight.Json.Printer
import SqlInsight.Text.CharClass

namespace SqlInsight.Text

/-- The digits of a number in base sixteen, without leading zeros; `most` bounds their number. -/
def hexDigits : (most : Nat) → Nat → Text
  | 0, _ => []
  | most + 1, n =>
      if n < 16 then [Json.hexDigit n] else hexDigits most (n / 16) ++ [Json.hexDigit (n % 16)]

/-- A character as it stands between double quotes. -/
def quotedChar (c : Char) : Text :=
  if c = '"' ∨ c = '\\' then ['\\', c]
  else if c = '\n' then ['\\', 'n']
  else if c = '\r' then ['\\', 'r']
  else if c = '\t' then ['\\', 't']
  else if c.toNat = 0 then ['\\', '0']
  else if CharClass.isVisible c && !CharClass.extendsGrapheme c then [c]
  else '\\' :: 'u' :: '\x7b' :: hexDigits 6 c.toNat ++ ['\x7d']

def quoted (t : Text) : Text :=
  '"' :: t.flatMap quotedChar ++ ['"']

end SqlInsight.Text
