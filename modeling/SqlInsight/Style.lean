/-
Stretches of output set off by colours and weight, on a terminal that knows the usual escape
sequences.
-/
import SqlInsight.Text.Basic

namespace SqlInsight

/-- How a stretch of output is set off. -/
inductive Style where
  | bold
  | heading
  | green
  | yellow
  | cyan
  | brightRed
  | boldRed
  | boldGreen
  | boldYellow
deriving Repr, DecidableEq

namespace Style

/-- The numbers that switch a style on, by the sequences that hold them. -/
def codes : Style → List String
  | bold => ["1"]
  | heading => ["1", "4"]
  | green => ["32"]
  | yellow => ["33"]
  | cyan => ["36"]
  | brightRed => ["91"]
  | boldRed => ["1;31"]
  | boldGreen => ["1;32"]
  | boldYellow => ["1;33"]

def opening (s : Style) : Text :=
  s.codes.flatMap fun numbers => '\x1b' :: '[' :: numbers.toList ++ ['m']

/-- The sequence that switches all styles off. -/
def closing : Text :=
  ['\x1b', '[', '0', 'm']

/-- A text in which the style is switched on again after every sequence that switches it off. -/
def reopened (s : Style) : Text → Text
  | '\x1b' :: '[' :: '0' :: 'm' :: rest => closing ++ s.opening ++ reopened s rest
  | c :: rest => c :: reopened s rest
  | [] => []

def paint (s : Style) (isShown : Bool) (t : Text) : Text :=
  if isShown then s.opening ++ s.reopened t ++ closing else t

/-- Whether styles are shown, by the settings that force, forbid or allow them and by whether there
is a terminal. A setting that is zero does not force or allow, but still forbids. -/
def isShown (force forbid allow : Option String) (isTerminal : Bool) : Bool :=
  if force.any (· != "0") then true
  else if forbid.isSome then false
  else allow.all (· != "0") && isTerminal

theorem paint_false (s : Style) (t : Text) : s.paint false t = t :=
  rfl

end Style

abbrev StyledLine := List (Option Style × Text)

namespace StyledLine

def ofText (t : Text) : StyledLine :=
  [(none, t)]

def text (line : StyledLine) : Text :=
  line.flatMap Prod.snd

def paint (isShown : Bool) (line : StyledLine) : Text :=
  line.flatMap fun (style, t) => style.elim t (·.paint isShown t)

theorem paint_false (line : StyledLine) : line.paint false = line.text := by
  unfold paint text
  congr 1
  funext ⟨style, t⟩
  cases style <;> simp [Style.paint_false]

end StyledLine

end SqlInsight
