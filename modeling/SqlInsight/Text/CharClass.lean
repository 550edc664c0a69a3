/-
Classes of characters: letters, numbers, blanks, and the characters of words and of SQL names. The
ASCII part is decided directly, the rest by tables of Unicode properties.
-/
import SqlInsight.Text.Basic
import SqlInsight.Text.Table.Word
import SqlInsight.Text.Table.Case
import SqlInsight.Text.Table.Printing

namespace SqlInsight.CharClass

/-- Look for the range that holds `n` among those with indices from `lo` to below `hi`. -/
def searchRanges (ranges : Array (Nat × Nat)) (n lo hi : Nat) : Bool :=
  if lo < hi then
    let middle := lo + (hi - lo) / 2
    match ranges[middle]? with
    | none => false
    | some (first, last) =>
        if n < first then searchRanges ranges n lo middle
        else if last < n then searchRanges ranges n (middle + 1) hi
        else true
  else false
termination_by hi - lo

/-- Whether one of the increasing closed ranges holds `n`. -/
def inRanges (ranges : Array (Nat × Nat)) (n : Nat) : Bool :=
  searchRanges ranges n 0 ranges.size

def isAlphabetic (c : Char) : Bool :=
  if c.toNat < 128 then c.isAlpha else inRanges Text.Table.alphabetic c.toNat

/-- A number of any kind: the general categories Nd, Nl and No. -/
def isNumeric (c : Char) : Bool :=
  if c.toNat < 128 then c.isDigit
  else inRanges Text.Table.decimal c.toNat || inRanges Text.Table.letterNumber c.toNat
    || inRanges Text.Table.otherNumber c.toNat

def isAlphanumeric (c : Char) : Bool :=
  if c.toNat < 128 then c.isAlphanum
  else isAlphabetic c || inRanges Text.Table.decimal c.toNat
    || inRanges Text.Table.otherNumber c.toNat

/-- A decimal digit of any script: the general category Nd. -/
def isDecimal (c : Char) : Bool :=
  if c.toNat < 128 then c.isDigit else inRanges Text.Table.decimal c.toNat

/-- The Unicode property White_Space. -/
def isBlank (c : Char) : Bool :=
  let n := c.toNat
  n == 0x20 || (0x9 ≤ n && n ≤ 0xd) || n == 0x85 || n == 0xa0 || n == 0x1680
    || (0x2000 ≤ n && n ≤ 0x200a) || n == 0x2028 || n == 0x2029 || n == 0x202f || n == 0x205f
    || n == 0x3000

/-- A word character of a pattern: a letter, a mark, a decimal digit, connector punctuation or a
join control. -/
def isWord (c : Char) : Bool :=
  if c.toNat < 128 then c.isAlphanum || c == '_'
  else isAlphabetic c || inRanges Text.Table.decimal c.toNat
    || inRanges Text.Table.wordMark c.toNat

/-- A character that continues a name, so that a name does not end before it. -/
def isName (c : Char) : Bool :=
  isAlphanumeric c || c == '_' || c == '@' || c == '#' || c == '$'

/-- A character that an ASCII letter range stands for when case is ignored: the ASCII letters, the
long s and the Kelvin sign. -/
def isFoldedLetter (c : Char) : Bool :=
  c.isAlpha || c.toNat == 0x17f || c.toNat == 0x212a

def isCased (c : Char) : Bool :=
  inRanges Text.Table.cased c.toNat

def isCaseIgnorable (c : Char) : Bool :=
  inRanges Text.Table.caseIgnorable c.toNat

def extendsGrapheme (c : Char) : Bool :=
  inRanges Text.Table.graphemeExtend c.toNat

/-- A character that is shown as itself in a quoted debugging string. -/
def isVisible (c : Char) : Bool :=
  c == ' ' || inRanges Text.Table.visible c.toNat

end SqlInsight.CharClass

namespace SqlInsight.Text

/-- Cut off blanks at the start. -/
def trimStart (t : Text) : Text :=
  t.dropWhile CharClass.isBlank

/-- Cut off blanks at the end. -/
def trimEnd (t : Text) : Text :=
  t.dropEndWhile CharClass.isBlank

/-- Cut off blanks at both ends. -/
def trim (t : Text) : Text :=
  t.trimStart.trimEnd

/-- Whether a text holds nothing but blanks. -/
def isBlank (t : Text) : Bool :=
  t.all CharClass.isBlank

end SqlInsight.Text
