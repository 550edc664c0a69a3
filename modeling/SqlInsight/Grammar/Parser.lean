/-
Reading whole SQL texts. Statements, queries and expressions nest in each other, so their readers
are tied together level by level; the bound on the levels is the bound on how deep a text may nest.
-/
import SqlInsight.Grammar.Parser.Dispatch
import SqlInsight.SyntaxError

namespace SqlInsight.Grammar

open Reader

/-- The readers inside a hierarchy of rows in a dialect that may nest that deep. -/
def Level.hierarchyOfDepth (d : Dialect) : (depth : Nat) → Level
  | 0 =>
      ⟨d, true, refuse .tooDeep, refuse .tooDeep, fun _ => refuse .tooDeep, refuse .tooDeep⟩
  | depth + 1 =>
      let g := Level.hierarchyOfDepth d depth
      ⟨d, true, Grammar.statement g, Grammar.query g, Grammar.exprAbove g, Grammar.exprAbove g 0⟩

/-- The readers of a dialect that may nest that deep. -/
def Level.ofDepth (d : Dialect) : (depth : Nat) → Level
  | 0 =>
      ⟨d, false, refuse .tooDeep, refuse .tooDeep, fun _ => refuse .tooDeep, refuse .tooDeep⟩
  | depth + 1 =>
      let g := Level.ofDepth d depth
      ⟨d, false, Grammar.statement g, Grammar.query g, Grammar.exprAbove g,
        fun tokens => Grammar.exprAbove (Level.hierarchyOfDepth d depth) 0 tokens⟩

/-- How deep statements, queries and expressions may nest. -/
def maxDepth : Nat :=
  50

def placed (message : String) : Option Position → Text
  | some p => (message ++ s!" at Line: {p.line}, Column: {p.column}").toList
  | none => message.toList

def parse (d : Dialect) (t : Text) : Except SyntaxError (List Statement) :=
  match tokens d t with
  | .error e => .error (.refused (placed e.message (some e.place)))
  | .ok list =>
      match (statements (Level.ofDepth d maxDepth)).run list with
      | .ok (list, _) => .ok list
      | .error ⟨.unexpected message place, _⟩ => .error (.refused (placed message place))
      | .error ⟨.tooDeep, _⟩ => .error .tooDeep

end SqlInsight.Grammar
