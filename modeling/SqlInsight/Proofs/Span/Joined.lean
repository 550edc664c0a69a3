/-
The spans of two texts joined by a separator line: those of the first text, and those of the second
one as many lines further down as the first text and the separator line have.
-/
import SqlInsight.Proofs.Batch.Stretches
import SqlInsight.Proofs.Span.Partition
import SqlInsight.Proofs.Text.Positions

namespace SqlInsight

open Text

namespace Extent

def behind (head : Text) (x : Extent) : Extent :=
  ⟨x.first + size head, x.last + size head, x.index⟩

theorem ofPieces_behind (head : Text) (b : Batch) (index : Nat) (pieces : List Piece) :
    ofPieces (b.behind head) index pieces = (ofPieces b index pieces).map (behind head) := by
  induction pieces generalizing index with
  | nil => rfl
  | cons p rest ih =>
      rw [ofPieces, ofPieces, ih, List.map_cons]
      simp only [behind, Batch.behind, Nat.add_right_comm]

theorem whole?_behind (head : Text) (b : Batch) :
    whole? (b.behind head) = (whole? b).map (behind head) := by
  by_cases hempty : (withoutEnd b.text).isEmpty = true
  · simp [whole?, Batch.behind, hempty]
  · simp only [whole?, Batch.behind, hempty, Bool.false_eq_true, ↓reduceIte, Option.map_some,
      behind, Nat.add_right_comm]

/-- What stands before a batch only moves the extents of its statements. -/
theorem ofStatements_behind (e : Engine) (head : Text) (b : Batch) :
    ofStatements e (b.behind head) = (ofStatements e b).map (behind head) := by
  have hpieces : ofBatch (b.behind head) = (ofBatch b).map (behind head) :=
    ofPieces_behind head b 0 _
  have hreading : ofReading? e (b.behind head) = (ofReading? e b).map (List.map (behind head)) := by
    have htext : (b.behind head).text = b.text := rfl
    rw [ofReading?, ofReading?, htext, hpieces, whole?_behind]
    cases e.ladder.readStrictly b.text with
    | error failure => rfl
    | ok reading =>
        simp only [List.length_map]
        split
        · rfl
        · cases whole? b <;> rfl
  rw [ofStatements, ofStatements, hreading, hpieces]
  cases ofReading? e b <;> rfl

theorem span_eq {before part after : Text} {x : Extent} (hfirst : x.first = size before)
    (hlast : x.last = x.first + size part) :
    x.span (before ++ part ++ after) =
      ⟨part, Position.after ⟨1, 1⟩ before, Position.after ⟨1, 1⟩ (before ++ part), x.index⟩ := by
  rw [span, hlast, hfirst, slice_append, ← size_append, position_size_append, List.append_assoc,
    position_size_append]

/-- The span of an extent does not depend on what stands behind it. -/
theorem span_append {t : Text} {x : Extent} (h : x.StandsIn t 0) (rest : Text) :
    x.span (t ++ rest) = x.span t := by
  obtain ⟨before, part, after, rfl, hfirst, hlast, -⟩ := h.exists_append
  rw [Nat.zero_add] at hfirst
  rw [List.append_assoc, span_eq hfirst hlast, span_eq hfirst hlast]

end Extent

namespace Span

/-- The span that many lines further down. -/
def down (n : Nat) (s : Span) : Span :=
  ⟨s.text, s.first.down n, s.last.down n, s.index⟩

end Span

namespace Extent

/-- The span of an extent behind whole lines is as many lines further down. -/
theorem span_behind {t : Text} {x : Extent} (h : x.StandsIn t 0) (head : Text) :
    (x.behind (head ++ ['\n'])).span (head ++ ['\n'] ++ t) =
      (x.span t).down (head.count '\n' + 1) := by
  obtain ⟨before, part, after, rfl, hfirst, hlast, -⟩ := h.exists_append
  rw [Nat.zero_add] at hfirst
  have hbehind : (x.behind (head ++ ['\n'])).first = size (head ++ ['\n'] ++ before) := by
    rw [behind, hfirst, size_append _ before, Nat.add_comm]
  have hend : (x.behind (head ++ ['\n'])).last =
      (x.behind (head ++ ['\n'])).first + size part := by
    simp only [behind, hlast, Nat.add_right_comm]
  have hstart : Position.after ⟨1, 1⟩ (head ++ ['\n']) =
      Position.down (head.count '\n' + 1) ⟨1, 1⟩ := by
    rw [Position.after_newline, Position.down, Nat.add_assoc]
  have hdown (a : Text) : Position.after ⟨1, 1⟩ (head ++ ['\n'] ++ a) =
      (Position.after ⟨1, 1⟩ a).down (head.count '\n' + 1) := by
    rw [Position.after_append, hstart, Position.down_after]
  rw [← List.append_assoc, ← List.append_assoc, span_eq hbehind hend, span_eq hfirst hlast,
    List.append_assoc _ before part, hdown, hdown]
  rfl

end Extent

section

variable {separator line a : Text} (e : Engine)
  (hline : IsSeparator e.settings.batchSeparator line)
  (ha : a.endRegion = .code ∨ a.endRegion = .lineComment) (b : Text)

include hline ha

theorem Extent.all_append :
    all e (a ++ '\n' :: (line ++ '\n' :: b)) =
      all e a ++ (all e b).map (behind (a ++ '\n' :: (line ++ ['\n']))) := by
  rw [all, Batch.split_append hline ha, List.flatMap_append, List.flatMap_map, all, all,
    List.map_flatMap]
  congr 2
  funext x
  exact ofStatements_behind e _ x

/-- The spans of two texts with a separator line between them. -/
theorem Span.all_append :
    all e (a ++ '\n' :: (line ++ '\n' :: b)) =
      all e a ++ (all e b).map (down (a.count '\n' + 2)) := by
  have hhead : a ++ '\n' :: (line ++ ['\n']) = a ++ '\n' :: line ++ ['\n'] := by simp
  have hcount : (a ++ '\n' :: line).count '\n' + 1 = a.count '\n' + 2 := by
    rw [List.count_append, List.count_cons_self, List.count_eq_zero.mpr hline.newline_not_mem]
  rw [all, Extent.all_append e hline ha, List.map_append, List.map_map, all, all, List.map_map]
  congr 1
  · refine List.map_congr_left fun x hx => ?_
    exact Extent.span_append (Extent.standsIn_of_mem_all hx) _
  · refine List.map_congr_left fun x hx => ?_
    have hspan := Extent.span_behind (Extent.standsIn_of_mem_all hx) (a ++ '\n' :: line)
    rw [hcount] at hspan
    rw [Function.comp_apply, Function.comp_apply, hhead, ← hspan]
    simp

end

end SqlInsight
