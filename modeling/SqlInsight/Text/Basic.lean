/-
Text as the list of its characters, measured in bytes of its UTF-8 form. Every offset in this
library counts such bytes, so that a masked copy of a text, whose characters may differ in number,
still shares its offsets.
-/
namespace SqlInsight

/-- A stretch of text: its characters in order. -/
abbrev Text := List Char

namespace Text

/-- The number of bytes of the UTF-8 form. -/
def size : Text → Nat
  | [] => 0
  | c :: rest => c.utf8Size + size rest

/-- The characters that start at byte `n` or later. -/
def dropBytes (n : Nat) : Text → Text
  | [] => []
  | c :: rest => if n = 0 then c :: rest else dropBytes (n - c.utf8Size) rest

/-- The characters that start before byte `n`. -/
def takeBytes (n : Nat) : Text → Text
  | [] => []
  | c :: rest => if n = 0 then [] else c :: takeBytes (n - c.utf8Size) rest

/-- The characters that start at byte `first` or later and before byte `last`. -/
def slice (t : Text) (first last : Nat) : Text :=
  takeBytes (last - first) (dropBytes first t)

/-- Whether a character starts at byte `n`, or the text ends there. -/
def isBoundary (n : Nat) : Text → Bool
  | [] => n == 0
  | c :: rest => n == 0 || (c.utf8Size ≤ n && isBoundary (n - c.utf8Size) rest)

/-- The lines of a text, without the line feeds between them; never the empty list. -/
def lines : Text → List Text
  | [] => [[]]
  | c :: rest =>
      match lines rest with
      | [] => [[c]]
      | line :: more => if c = '\n' then [] :: line :: more else (c :: line) :: more

def terminated (lines : List Text) : Text :=
  lines.flatMap (· ++ ['\n'])

/-- Cut off the last characters while they satisfy `p`. -/
def dropEndWhile (p : Char → Bool) : Text → Text
  | [] => []
  | c :: rest =>
      match dropEndWhile p rest with
      | [] => if p c then [] else [c]
      | kept => c :: kept

/-- A text with every character replaced by its ASCII lower-case form. -/
def asciiLower (t : Text) : Text :=
  t.map Char.toLower

/-- A text with every character replaced by its ASCII upper-case form. -/
def asciiUpper (t : Text) : Text :=
  t.map Char.toUpper

/-- Equality that ignores the case of ASCII letters only. -/
def sameAscii (a b : Text) : Bool :=
  a.asciiLower == b.asciiLower

def startsWith : (t start : Text) → Bool
  | _, [] => true
  | [], _ :: _ => false
  | c :: rest, s :: start => c == s && startsWith rest start

def endsWith (t tail : Text) : Bool :=
  startsWith t.reverse tail.reverse

/-- The byte offset of the first occurrence of `needle`, counted from `offset`. -/
def findFrom (needle : Text) (offset : Nat) : Text → Option Nat
  | [] => if needle.isEmpty then some offset else none
  | c :: rest =>
      if startsWith (c :: rest) needle then some offset
      else findFrom needle (offset + c.utf8Size) rest

/-- The byte offset of the first occurrence of `needle`, if there is one. -/
def find? (t needle : Text) : Option Nat :=
  findFrom needle 0 t

def contains (t needle : Text) : Bool :=
  (find? t needle).isSome

/-- Replace every doubled `c` by a single one, from left to right. -/
def undouble (c : Char) : Text → Text
  | [] => []
  | [a] => [a]
  | a :: b :: rest =>
      if a = c ∧ b = c then c :: undouble c rest else a :: undouble c (b :: rest)

/-- Write every `c` twice. -/
def double (c : Char) : Text → Text
  | [] => []
  | a :: rest => if a = c then c :: c :: double c rest else a :: double c rest

theorem size_append (a b : Text) : size (a ++ b) = size a + size b := by
  induction a with
  | nil => simp [size]
  | cons c rest ih => simp [size, ih, Nat.add_assoc]

theorem undouble_double (c : Char) (t : Text) : undouble c (double c t) = t := by
  induction t with
  | nil => rfl
  | cons a rest ih =>
      by_cases h : a = c
      · simp [double, undouble, h, ih]
      · cases hr : double c rest with
        | nil => simp_all [double, undouble]
        | cons b more => simp_all [double, undouble]

end Text

end SqlInsight
