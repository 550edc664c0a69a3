/-
What stands beside a part of a text that the mask for literals leaves. A literal or a comment ends
with a quote or a slash or in front of a line feed, and begins with a quote, a hyphen or a slash. So
whoever asks for name characters, or for a dot beyond some delimiters, beside a part that is no
blank finds in the mask what stands in the text.
-/
import Mathlib.Data.List.Chain
import SqlInsight.Proofs.Text.MaskedBytes
import SqlInsight.Proofs.Text.Search

namespace SqlInsight

def Region.isLiteralOrComment : Region → Bool
  | .singleQuoted | .lineComment | .blockComment _ => true
  | .code | .doubleQuoted | .bracketed => false

theorem Region.isMasked_literals (r : Region) : r.isMasked .literals = r.isLiteralOrComment := by
  cases r <;> rfl

/-- Two characters side by side, each with its region: a literal or a comment between them ends, or
begins, with the sign for that. -/
structure Borders (x y : Char × Region) : Prop where
  ends : x.2.isLiteralOrComment = true → y.2.isLiteralOrComment = false →
    x.1 = '\'' ∨ x.1 = '/' ∨ y.1 = '\n'
  begins : x.2.isLiteralOrComment = false → y.2.isLiteralOrComment = true →
    y.1 = '\'' ∨ y.1 = '-' ∨ y.1 = '/'

namespace ScanState

/-- Midway through a token the scan goes on in a like region behind it, unless a comment ends with
the slash that comes. -/
def Poised (next : Option Char) : ScanState → Prop
  | inside _ => True
  | midway r after => after.isLiteralOrComment = r.isLiteralOrComment ∨
      r.isLiteralOrComment = true ∧ next = some '/'

theorem poised_step (s : ScanState) (c : Char) (next : Option Char) :
    (s.step c next).2.Poised next := by
  cases s with
  | midway r after => trivial
  | inside r =>
      cases r <;> simp only [step, stepCode, stepDelimited, stepBlock] <;> split_ifs <;>
        simp_all [Poised, Region.isLiteralOrComment]

/-- Behind a character of a region the scan stands in a like one, unless a literal ends with it. -/
theorem inside_of_step {r region behind : Region} {c : Char} {next : Option Char}
    (h : (inside r).step c next = (region, inside behind)) :
    behind.isLiteralOrComment = region.isLiteralOrComment ∨
      region.isLiteralOrComment = true ∧ c = '\'' := by
  cases r <;> simp only [step, stepCode, stepDelimited, stepBlock] at h <;> split_ifs at h <;>
    simp only [Prod.mk.injEq, inside.injEq, reduceCtorEq, and_false] at h <;>
    obtain ⟨rfl, rfl⟩ := h <;> simp_all [Region.isLiteralOrComment]

/-- What the scan reads in a region borders on what is in a like one. -/
theorem borders_inside {r : Region} {x : Char × Region}
    (hx : r.isLiteralOrComment = x.2.isLiteralOrComment) (d : Char) (next : Option Char) :
    Borders x (d, ((inside r).step d next).1) := by
  constructor <;> intro hleft hright <;> rw [← hx] at hleft <;>
    cases r <;> simp only [Region.isLiteralOrComment, Bool.false_eq_true, reduceCtorEq] at hleft <;>
    simp only [step, stepCode, stepDelimited, stepBlock] at hright ⊢ <;>
    split_ifs at hright <;> simp_all [Region.isLiteralOrComment]

/-- A literal or a comment that ends with its sign borders on anything. -/
theorem borders_of_sign {c : Char} {r : Region} (hr : r.isLiteralOrComment = true)
    (hc : c = '\'' ∨ c = '/') (y : Char × Region) : Borders (c, r) y := by
  constructor
  · intro _ _
    exact hc.imp id Or.inl
  · intro hfalse
    rw [hr] at hfalse
    contradiction

theorem borders_step {s : ScanState} {c d : Char} (hs : s.Poised (some c)) (next : Option Char) :
    Borders (c, (s.step c (some d)).1) (d, ((s.step c (some d)).2.step d next).1) := by
  cases s with
  | midway r after =>
      rcases hs with hsame | ⟨hliteral, hslash⟩
      · exact borders_inside hsame d next
      · exact borders_of_sign hliteral (Or.inr (Option.some.inj hslash)) _
  | inside r =>
      rcases hstep : (inside r).step c (some d) with ⟨region, behind⟩
      cases behind with
      | inside behind =>
          rcases inside_of_step hstep with hsame | ⟨hliteral, hquote⟩
          · exact borders_inside hsame d next
          · exact borders_of_sign hliteral (Or.inl hquote) _
      | midway region' after =>
          obtain ⟨rfl, -⟩ := Text.exists_of_step_midway r hstep
          constructor <;> intro hleft hright <;> simp [step, hleft] at hright

end ScanState

namespace Text

open ScanState

theorem isChain_regionsFrom {s : ScanState} {t : Text} (hs : s.Poised t.head?) :
    (regionsFrom s t).IsChain Borders := by
  induction t generalizing s with
  | nil => exact .nil
  | cons c rest ih =>
      have hrest := ih (poised_step s c rest.head?)
      rw [regionsFrom_cons]
      cases rest with
      | nil => exact .singleton _
      | cons d rest =>
          rw [List.head?_cons] at hrest ⊢
          rw [regionsFrom_cons] at hrest ⊢
          exact .cons_cons (borders_step hs rest.head?) hrest

/-- Literals and comments begin and end with their signs. -/
theorem isChain_regions (t : Text) : t.regions.IsChain Borders :=
  isChain_regionsFrom trivial

section Beyond

/-- What is asked of the first character beyond those of a kind, and it tells no blank from a sign
with which a literal or a comment begins or ends. -/
structure Look where
  passes : Char → Bool
  sees : Char → Bool
  same : ∀ c ∈ "\n '-/".toList, passes c = false ∧ sees c = false

/-- Whether the first character of a text beyond those that are passed is seen. -/
def Look.at (l : Look) (t : Text) : Bool :=
  (t.dropWhile l.passes).head?.any l.sees

variable (l : Look)

theorem Look.at_cons (c : Char) (t : Text) :
    l.at (c :: t) = if l.passes c then l.at t else l.sees c := by
  unfold Look.at
  by_cases hc : l.passes c = true
  · rw [List.dropWhile_cons_of_pos hc, if_pos hc]
  · rw [List.dropWhile_cons_of_neg hc, if_neg hc]
    rfl

theorem Look.at_cons_of_mem {c : Char} (hc : c ∈ "\n '-/".toList) (t : Text) :
    l.at (c :: t) = false := by
  obtain ⟨hpasses, hsees⟩ := l.same c hc
  rw [at_cons, if_neg (by simp [hpasses]), hsees]

/-- Behind a part that is not masked a look finds in the mask what stands in the text. -/
theorem look_behind {x : Char × Region} {behind : List (Char × Region)}
    (hx : x.2.isLiteralOrComment = false) (h : (x :: behind).IsChain Borders) :
    l.at (maskOf .literals behind) = l.at (behind.map Prod.fst) := by
  induction behind generalizing x with
  | nil => rfl
  | cons y rest ih =>
      obtain ⟨hborders, hrest⟩ := List.isChain_cons_cons.mp h
      rw [maskOf_cons, Region.isMasked_literals, List.map_cons]
      cases hy : y.2.isLiteralOrComment with
      | true =>
          have hsign := hborders.begins hx hy
          have hblanks : blanks y.1 = [' '] := by
            rcases hsign with hc | hc | hc <;> rw [hc] <;> rfl
          rw [if_pos rfl, hblanks, List.singleton_append, l.at_cons_of_mem (by decide),
            l.at_cons_of_mem (by rcases hsign with hc | hc | hc <;> rw [hc] <;> decide)]
      | false =>
          rw [if_neg (by simp), List.singleton_append, l.at_cons, l.at_cons, ih hy hrest]

/-- Before a part that is not masked and begins with no line feed a look back finds in the mask what
stands in the text. -/
theorem look_before {x : Char × Region} {before : List (Char × Region)}
    (hx : x.2.isLiteralOrComment = false) (hfeed : x.1 ≠ '\n')
    (h : (before ++ [x]).IsChain Borders) :
    l.at (maskOf .literals before).reverse = l.at (before.map Prod.fst).reverse := by
  induction before using List.reverseRecOn generalizing x with
  | nil => rfl
  | append_singleton rest y ih =>
      obtain ⟨hrest, -, hseam⟩ := List.isChain_append.mp h
      have hborders : Borders y x := hseam y (by simp) x (by simp)
      have hmask : (maskOf .literals (rest ++ [y])).reverse =
          (if y.2.isLiteralOrComment then blanks y.1 else [y.1]).reverse ++
            (maskOf .literals rest).reverse := by
        rw [maskOf_append, List.reverse_append, maskOf_singleton, Region.isMasked_literals]
      rw [hmask, List.map_append, List.map_singleton, List.reverse_append, List.reverse_singleton,
        List.singleton_append, l.at_cons]
      cases hy : y.2.isLiteralOrComment with
      | true =>
          have hsign : y.1 = '\'' ∨ y.1 = '/' := by
            rcases hborders.ends hy hx with hc | hc | hc
            · exact Or.inl hc
            · exact Or.inr hc
            · exact absurd hc hfeed
          have hblanks : blanks y.1 = [' '] := by
            rcases hsign with hc | hc <;> rw [hc] <;> rfl
          have hmem : y.1 ∈ "\n '-/".toList := by
            rcases hsign with hc | hc <;> rw [hc] <;> decide
          rw [if_pos rfl, hblanks, List.reverse_singleton, List.singleton_append,
            l.at_cons_of_mem (by decide), ← l.at_cons, l.at_cons_of_mem hmem]
      | false =>
          rw [if_neg (by simp), List.reverse_singleton, List.singleton_append, l.at_cons]
          split
          · rename_i hpasses
            refine ih hy ?_ hrest
            rintro hnewline
            rw [hnewline, (l.same '\n' (by decide)).1] at hpasses
            contradiction
          · rfl

/-- Around a part that is not masked and holds no line feed a look finds in the mask what stands in
the text. -/
theorem look_around {before own behind : List (Char × Region)}
    (h : (before ++ own ++ behind).IsChain Borders) (hne : own ≠ [])
    (hown : ∀ x ∈ own, x.2.isLiteralOrComment = false ∧ x.1 ≠ '\n') :
    l.at (maskOf .literals before).reverse = l.at (before.map Prod.fst).reverse ∧
      l.at (maskOf .literals behind) = l.at (behind.map Prod.fst) := by
  constructor
  · obtain ⟨x, rest, rfl⟩ := List.exists_cons_of_ne_nil hne
    obtain ⟨hx, hfeed⟩ := hown x List.mem_cons_self
    have hsplit : before ++ x :: rest = (before ++ [x]) ++ rest := by simp
    rw [hsplit] at h
    exact look_before l hx hfeed h.left_of_append.left_of_append
  · obtain ⟨rest, x, rfl⟩ := (List.eq_nil_or_concat own).resolve_left hne
    obtain ⟨hx, -⟩ := hown x (by simp)
    rw [List.concat_eq_append, ← List.append_assoc, List.append_assoc] at h
    exact look_behind l hx h.right_of_append

end Beyond

end Text

end SqlInsight
