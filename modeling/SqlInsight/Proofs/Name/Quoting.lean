/-
Names that are written and read back. A name in brackets, with each closing bracket in it doubled,
is read as that name, and so is what requoting makes of it for any dialect: bare if it can stand by
itself, and else between two quotes of the dialect, with those in it doubled.
-/
import SqlInsight.Proofs.Name.Boundaries
import SqlInsight.Proofs.Text.Code

namespace SqlInsight.Name

open Text

/-- A name that can stand by itself: a letter or an underscore, behind it nothing but characters of
names, and in no ASCII case a reserved word. -/
inductive IsBare : Text → Prop
  | intro {first : Char} {rest : Text} (begins : CharClass.isAlphabetic first = true ∨ first = '_')
      (continues : ∀ c ∈ rest, CharClass.isName c = true)
      (unreserved : ∀ word ∈ reserved, Text.sameAscii word.toList (first :: rest) = false) :
      IsBare (first :: rest)

theorem needsQuoting_eq_false_iff {name : Text} : needsQuoting name = false ↔ IsBare name := by
  constructor
  · intro h
    cases name with
    | nil => contradiction
    | cons first rest =>
        simp only [needsQuoting, Bool.or_eq_false_iff, Bool.not_eq_false', Bool.or_eq_true,
          beq_iff_eq, List.all_eq_true, List.any_eq_false, Bool.not_eq_true] at h
        exact .intro h.1.1 h.1.2 h.2
  · rintro ⟨begins, continues, unreserved⟩
    simp only [needsQuoting, Bool.or_eq_false_iff, Bool.not_eq_false', Bool.or_eq_true,
      beq_iff_eq, List.all_eq_true, List.any_eq_false, Bool.not_eq_true]
    exact ⟨⟨begins, continues⟩, unreserved⟩

theorem length_double (c : Char) (t : Text) : t.length ≤ (double c t).length := by
  induction t with
  | nil => exact Nat.le_refl 0
  | cons a rest ih =>
      rw [double]
      split
      · exact Nat.le_succ_of_le (Nat.succ_le_succ ih)
      · exact Nat.succ_le_succ ih

theorem quoted_ne (quote : Char) (name : Text) : quoted quote name ≠ name := by
  intro h
  have hlength := congrArg List.length h
  have hdouble := length_double quote name
  simp only [quoted, List.length_append, List.length_cons, List.length_nil] at hlength
  omega

/-- What is rendered without quotes can stand by itself. -/
theorem render_eq_iff (quote : Char) (inner : Text) :
    render quote inner = undouble ']' inner ↔ IsBare (undouble ']' inner) := by
  rw [← needsQuoting_eq_false_iff, render]
  split
  · rename_i hquotes
    refine iff_of_false (quoted_ne quote _) ?_
    rw [hquotes]
    decide
  · rename_i hbare
    exact iff_of_true rfl (Bool.eq_false_iff.mpr hbare)

theorem unquote_bracket_double (name : Text) : unquote (Text.bracket (double ']' name)) = name := by
  have hbrackets : ('[', ']') ∈ delimiters := by decide
  exact (unquote_delimited hbrackets (double ']' name)).trans (undouble_double ']' name)

theorem unquote_quoted {quote : Char} (h : (quote, quote) ∈ delimiters) (name : Text) :
    unquote (quoted quote name) = name :=
  (unquote_delimited h (double quote name)).trans (undouble_double quote name)

theorem nameQuote_mem_delimiters (d : Dialect) : (d.nameQuote, d.nameQuote) ∈ delimiters := by
  cases d <;> decide

/-- What is rendered of a bracketed name is read as that name. -/
theorem unquote_render {quote : Char} (h : (quote, quote) ∈ delimiters) (inner : Text) :
    unquote (render quote inner) = undouble ']' inner := by
  rw [render]
  split
  · exact unquote_quoted h (undouble ']' inner)
  · rename_i hbare
    exact unquote_of_isName (isName_of_not_needsQuoting (Bool.eq_false_iff.mpr hbare)).2

/-- A name survives being written in brackets, and being rendered for a dialect from there; and what
is rendered is left bare exactly if it can stand by itself. -/
theorem name_rewritten (name : Text) :
    unquote (Text.bracket (double ']' name)) = name ∧
      (∀ d : Dialect, unquote (render d.nameQuote (double ']' name)) = name) ∧
      ∀ quote inner, render quote inner = undouble ']' inner ↔ IsBare (undouble ']' inner) := by
  refine ⟨unquote_bracket_double name, fun d => ?_, render_eq_iff⟩
  rw [unquote_render (nameQuote_mem_delimiters d), undouble_double]

example : render '"' "a]]\"b".toList = "\"a]\"\"b\"".toList := by decide +kernel

end SqlInsight.Name
