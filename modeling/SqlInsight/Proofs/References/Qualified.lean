/-
Dotted names that are written and read back. Each part is a name, written bare or between
delimiters, with any blanks around it, and dots join the parts. What is read are the names again,
with the dots, the blanks and the other delimiters that stand inside them.
-/
import SqlInsight.Proofs.Text.Code

namespace SqlInsight.References

/-- A character of a name without delimiters: one that continues a name or an identifier. -/
def isBareChar (c : Char) : Bool :=
  CharClass.isName c || Text.continuesIdentifier c

/-- How a part of a dotted name is written. -/
inductive PartForm where
  | bare
  | brackets
  | quotes
deriving Repr, DecidableEq

namespace PartForm

/-- Whether a name can be written in a form. -/
def Admits : PartForm → Text → Prop
  | bare, name => ∀ c ∈ name, isBareChar c = true
  | brackets, name => ']' ∉ name
  | quotes, name => '"' ∉ name

instance : (form : PartForm) → (name : Text) → Decidable (form.Admits name)
  | bare, name => inferInstanceAs (Decidable (∀ c ∈ name, isBareChar c = true))
  | brackets, name => inferInstanceAs (Decidable (']' ∉ name))
  | quotes, name => inferInstanceAs (Decidable ('"' ∉ name))

def write : PartForm → Text → Text
  | bare, name => name
  | brackets, name => Text.bracket name
  | quotes, name => '"' :: name ++ ['"']

end PartForm

/-- A part of a dotted name as it is written, with the blanks on both sides of it. -/
structure NamePart where
  before : Text
  form : PartForm
  name : Text
  after : Text
  blankBefore : before.isBlank = true
  admits : form.Admits name
  blankAfter : after.isBlank = true

def NamePart.text (p : NamePart) : Text :=
  p.before ++ (p.form.write p.name ++ p.after)

/-- A dotted name as it is written. -/
def dotted (parts : List NamePart) : Text :=
  ['.'].intercalate (parts.map NamePart.text)

theorem isOrdinary_of_isBareChar {c : Char} (h : isBareChar c = true) : IsOrdinary c :=
  isOrdinary_of_codes (by decide +kernel) h

section Form

variable {form : PartForm} {name : Text}

theorem unquote_write (h : form.Admits name) : Name.unquote (form.write name) = name := by
  cases form with
  | bare =>
      have hblank : ∀ c, isBareChar c = true → CharClass.isBlank c = false := by
        intro c hc
        exact (isOrdinary_of_isBareChar hc).blank
      exact Name.unquote_of_forall (by decide) hblank h
  | brackets => exact Name.unquote_bracket h
  | quotes =>
      have hquotes : ('"', '"') ∈ Name.delimiters := by decide
      exact (Name.unquote_delimited hquotes name).trans (Name.undouble_of_not_mem h)

/-- What is written for a name goes into one part. -/
theorem splitFrom_write (h : form.Admits name) (part rest : Text) :
    splitFrom none part (form.write name ++ rest) =
      splitFrom none ((form.write name).reverse ++ part) rest := by
  cases form with
  | bare =>
      apply splitFrom_run
      intro c hc
      exact isOrdinary_of_isBareChar (h c hc)
  | brackets => exact splitFrom_identifier (.bracketed h) part rest
  | quotes => exact splitFrom_identifier (.quoted h) part rest

end Form

namespace NamePart

variable (p : NamePart) (rest : Text)

theorem splitQualified_text_append :
    splitQualified (p.text ++ rest) =
      splitFrom none (p.form.write p.name).reverse (p.after ++ rest) := by
  have hbefore := List.all_eq_true.mp p.blankBefore
  rw [splitQualified, text, List.append_assoc, splitFrom_blanks hbefore, List.append_assoc,
    splitFrom_write p.admits, List.append_nil]

/-- A part at the end is the last name. -/
theorem splitQualified_text : splitQualified p.text = [p.name] := by
  have hafter := List.all_eq_true.mp p.blankAfter
  have hpart := p.splitQualified_text_append []
  rw [List.append_nil, splitFrom_blanks hafter] at hpart
  rw [hpart, splitFrom, List.reverse_reverse, unquote_write p.admits]

/-- A part in front of a dot is the first name, and the others are read behind the dot. -/
theorem splitQualified_text_dot :
    splitQualified (p.text ++ '.' :: rest) = p.name :: splitQualified rest := by
  have hafter := List.all_eq_true.mp p.blankAfter
  rw [splitQualified_text_append, splitFrom_blanks hafter, splitFrom_dot, List.reverse_reverse,
    unquote_write p.admits]
  rfl

end NamePart

theorem dotted_singleton (p : NamePart) : dotted [p] = p.text :=
  List.intercalate_singleton

theorem dotted_cons_cons (p q : NamePart) (more : List NamePart) :
    dotted (p :: q :: more) = p.text ++ '.' :: dotted (q :: more) := by
  simp [dotted, List.intercalate_cons_cons]

/-- Of a dotted name the names of its parts are read, in their order and nothing else. -/
theorem splitQualified_dotted (parts : List NamePart) (h : parts ≠ []) :
    splitQualified (dotted parts) = parts.map NamePart.name := by
  induction parts with
  | nil => contradiction
  | cons p more ih =>
      cases more with
      | nil =>
          rw [dotted_singleton, p.splitQualified_text]
          rfl
      | cons q more =>
          have hmore := ih (List.cons_ne_nil q more)
          rw [dotted_cons_cons, p.splitQualified_text_dot, hmore]
          rfl

/-- Three parts in the three forms, with dots, blanks and other delimiters inside the last two. -/
theorem splitQualified_dotted_forms : ∃ parts : List NamePart,
    parts ≠ [] ∧ dotted parts = "2b$ .\n[ a.\"b [] .\t\"x. [y]\"".toList ∧
      splitQualified (dotted parts) =
        ["2b$".toList, " a.\"b [".toList, "x. [y]".toList] := by
  let parts : List NamePart :=
    [⟨[], .bare, "2b$".toList, " ".toList, by decide, by decide, by decide⟩,
      ⟨"\n".toList, .brackets, " a.\"b [".toList, " ".toList, by decide, by decide, by decide⟩,
      ⟨"\t".toList, .quotes, "x. [y]".toList, [], by decide, by decide, by decide⟩]
  have hne : parts ≠ [] := List.cons_ne_nil _ _
  refine ⟨parts, hne, by decide, ?_⟩
  rw [splitQualified_dotted parts hne]
  decide

end SqlInsight.References
