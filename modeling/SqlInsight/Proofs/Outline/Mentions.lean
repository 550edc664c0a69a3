/-
What an outline keeps of the columns and the queries that an expression names. The expressions that
stand directly in an expression are its parts, in the order in which they are written. The outline
keeps those of some forms and drops those of the others; of a `CASE` it takes all conditions before
all results. So what is named is kept but for what stands in a part that is dropped, and the order
is kept but for the branches of a `CASE`.
-/
import Mathlib.Algebra.Order.Group.Multiset
import Mathlib.Data.List.Flatten
import Mathlib.Tactic.Abel
import SqlInsight.Outline.OfSyntax
import SqlInsight.Outline.Visit
import SqlInsight.Reading.Standard
import SqlInsight.References

namespace SqlInsight.Outline

open Grammar (Argument Ident ObjectName OrderItem Window)

section Parts

/-- Two lists by turns, until one of them ends. -/
def alternate {α : Type} : List α → List α → List α
  | [], ys => ys
  | xs, [] => xs
  | x :: xs, y :: ys => x :: y :: alternate xs ys

theorem alternate_perm {α : Type} (xs ys : List α) : (alternate xs ys).Perm (xs ++ ys) := by
  induction xs, ys using alternate.induct with
  | case1 ys => exact .refl ys
  | case2 xs hne =>
      cases xs with
      | nil => contradiction
      | cons x xs => simp [alternate]
  | case3 x xs y ys ih =>
      have hmiddle : (y :: (xs ++ ys)).Perm (xs ++ y :: ys) := List.perm_middle.symm
      exact ((ih.cons y).trans hmiddle).cons x

/-- The arguments of a call but the one that names a part of a date. -/
def spoken (name : ObjectName) (arguments : List Argument) : List Argument :=
  match arguments with
  | [] => []
  | .query q :: rest => .query q :: rest
  | first :: rest => if skipsFirst name then rest else first :: rest

/-- The expressions that are written over the rows of a call. -/
def windowParts : Window → List Grammar.Expr
  | .mk partition order frame => partition ++ order.flatMap OrderItem.parts ++ frame

/-- The expressions that stand directly in an expression, in the order in which they are written,
but for the first argument of a function that takes a part of a date there. -/
def partsOf : Grammar.Expr → List Grammar.Expr
  | .identifier _ | .compound _ | .literal | .subquery _ | .exists _ => []
  | .binary left _ right | .quantified left _ right | .distinct left right
  | .inUnnest left right | .pattern _ left right => [left, right]
  | .unary _ e | .nested e | .test e _ | .cast e | .collate e => [e]
  | .convert e styles => e :: styles
  | .inList e items => e :: items
  | .inQuery e q => [e, .subquery q]
  | .between e low high => [e, low, high]
  | .case operand conditions results otherwise =>
      operand.toList ++ alternate conditions results ++ otherwise.toList
  | .tuple items => items
  | .call name parameters arguments clauses window =>
      parameters ++ (spoken name arguments).flatMap Argument.parts ++ clauses
        ++ window.toList.flatMap windowParts
  | .special _ parts => parts

/-- Whether an outline keeps what `IS` asks about. -/
def keepsTest : Grammar.Test → Bool
  | .isNull | .isNotNull | .isTrue | .isFalse => true
  | .isNotTrue | .isNotFalse | .isUnknown | .isNotUnknown => false

/-- Whether an outline keeps what a pattern operator compares. -/
def keepsPattern : Grammar.Pattern → Bool
  | .like | .ilike => true
  | .similar | .regexp => false

/-- The part of an argument that an outline keeps. -/
def keptOfArgument : Argument → List Grammar.Expr
  | .positional e | .named _ e => [e]
  | .query q => [.subquery q]
  | .labelled _ _ | .wildcard => []

def droppedOfArgument : Argument → List Grammar.Expr
  | .labelled label e => [label, e]
  | .positional _ | .named _ _ | .query _ | .wildcard => []

def valueOf : OrderItem → Grammar.Expr
  | .mk value _ => value

/-- How missing rows are filled in. -/
def fillingOf : OrderItem → List Grammar.Expr
  | .mk _ filling => filling

/-- The expressions over the rows of a call that an outline keeps. -/
def keptOfWindow : Window → List Grammar.Expr
  | .mk partition order _ => partition ++ order.map valueOf

/-- What an outline drops of those over the rows of a call. -/
def droppedOfWindow : Window → List Grammar.Expr
  | .mk _ order frame => order.flatMap fillingOf ++ frame

/-- The parts of an expression that its outline keeps, in the order of the outline. -/
def keptOf : Grammar.Expr → List Grammar.Expr
  | .quantified _ _ _ | .distinct _ _ | .convert _ _ | .inUnnest _ _ | .special _ _ => []
  | .test e asked => if keepsTest asked then [e] else []
  | .pattern kind e form => if keepsPattern kind then [e, form] else []
  | .case operand conditions results otherwise =>
      operand.toList ++ conditions ++ results ++ otherwise.toList
  | .call name _ arguments _ window =>
      (spoken name arguments).flatMap keptOfArgument ++ window.toList.flatMap keptOfWindow
  | e => partsOf e

/-- The parts of an expression that its outline drops. -/
def droppedOf : Grammar.Expr → List Grammar.Expr
  | .test e asked => if keepsTest asked then [] else [e]
  | .pattern kind e form => if keepsPattern kind then [] else [e, form]
  | .call name parameters arguments clauses window =>
      parameters ++ (spoken name arguments).flatMap droppedOfArgument ++ clauses
        ++ window.toList.flatMap droppedOfWindow
  | .quantified left _ right | .distinct left right | .inUnnest left right => [left, right]
  | .convert e styles => e :: styles
  | .special _ parts => parts
  | _ => []

/-- Parts taken from each element of a list, first some and then the others. -/
theorem flatMap_append_flatMap_perm {α β : Type} {kept dropped parts : α → List β} (xs : List α)
    (hperm : ∀ x, (kept x ++ dropped x).Perm (parts x)) :
    (xs.flatMap kept ++ xs.flatMap dropped).Perm (xs.flatMap parts) :=
  (List.flatMap_append_perm xs kept dropped).trans (.flatMap_left xs fun x _ => hperm x)

theorem perm_argumentParts (a : Argument) :
    (keptOfArgument a ++ droppedOfArgument a).Perm a.parts := by
  cases a with
  | positional e => exact .refl _
  | named name e => exact .refl _
  | labelled label e => exact .refl _
  | query q => exact .refl _
  | wildcard => exact .refl _

theorem perm_windowParts (w : Window) :
    (keptOfWindow w ++ droppedOfWindow w).Perm (windowParts w) := by
  obtain ⟨partition, order, frame⟩ := w
  have horder : (order.map valueOf ++ order.flatMap fillingOf).Perm
      (order.flatMap OrderItem.parts) := by
    rw [List.map_eq_flatMap]
    exact flatMap_append_flatMap_perm order fun ⟨e, filling⟩ => .refl (e :: filling)
  have hframe := (horder.append_left partition).append_right frame
  simpa [keptOfWindow, droppedOfWindow, windowParts] using hframe

/-- The parts of an expression are those that its outline keeps and those that it drops. -/
theorem perm_partsOf (e : Grammar.Expr) : (keptOf e ++ droppedOf e).Perm (partsOf e) := by
  cases e with
  | test e asked => cases asked <;> exact .refl _
  | pattern kind e form => cases kind <;> exact .refl _
  | case operand conditions results otherwise =>
      have hbranches := (alternate_perm conditions results).symm
      have hoperand := (hbranches.append_left operand.toList).append_right otherwise.toList
      simpa [keptOf, droppedOf, partsOf] using hoperand
  | call name parameters arguments clauses window =>
      have harguments := Multiset.coe_eq_coe.mpr
        (flatMap_append_flatMap_perm (spoken name arguments) perm_argumentParts)
      have hwindow := Multiset.coe_eq_coe.mpr
        (flatMap_append_flatMap_perm window.toList perm_windowParts)
      rw [← Multiset.coe_eq_coe]
      simp only [keptOf, droppedOf, partsOf, ← Multiset.coe_add] at harguments hwindow ⊢
      rw [← harguments, ← hwindow]
      abel
  | _ => simp [keptOf, droppedOf, partsOf]

theorem sizeOf_parts_argument {a : Argument} {e : Grammar.Expr} (h : e ∈ a.parts) :
    sizeOf e ≤ sizeOf a := by
  cases a with
  | positional value => simp_all [Argument.parts]
  | named name value => simp_all [Argument.parts]
  | labelled label value =>
      simp only [Argument.parts, List.mem_cons, List.not_mem_nil, or_false] at h
      rcases h with rfl | rfl
      · simp
        omega
      · simp
  | query q => simp_all [Argument.parts]
  | wildcard => simp [Argument.parts] at h

theorem sizeOf_windowParts {w : Window} {e : Grammar.Expr} (h : e ∈ windowParts w) :
    sizeOf e < sizeOf w := by
  obtain ⟨partition, order, frame⟩ := w
  simp only [windowParts, List.mem_append, List.mem_flatMap] at h
  rcases h with (h | ⟨⟨value, filling⟩, hitem, h⟩) | h
  · have := List.sizeOf_lt_of_mem h
    simp
    omega
  · have := List.sizeOf_lt_of_mem hitem
    simp [OrderItem.parts] at h this ⊢
    rcases h with rfl | h
    · omega
    · have := List.sizeOf_lt_of_mem h
      omega
  · have := List.sizeOf_lt_of_mem h
    simp
    omega

theorem mem_of_mem_spoken {name : ObjectName} {arguments : List Argument} {a : Argument}
    (h : a ∈ spoken name arguments) : a ∈ arguments := by
  cases arguments with
  | nil => simp [spoken] at h
  | cons first rest =>
      rw [spoken.eq_def] at h
      grind

/-- A part is smaller than the expression it stands in. -/
theorem sizeOf_lt_of_mem_partsOf {e part : Grammar.Expr} (h : part ∈ partsOf e) :
    sizeOf part < sizeOf e := by
  cases e with
  | inQuery subject q =>
      have hpos : 0 < sizeOf subject := by
        cases subject <;> simp +arith
      simp [partsOf] at h
      grind
  | case operand conditions results otherwise =>
      rw [partsOf, List.mem_append, List.mem_append, (alternate_perm conditions results).mem_iff,
        List.mem_append] at h
      grind [→ List.sizeOf_lt_of_mem]
  | call name parameters arguments clauses window =>
      simp only [partsOf, List.mem_append, List.mem_flatMap, Option.mem_toList] at h
      rcases h with ((h | ⟨a, ha, h⟩) | h) | ⟨w, rfl, h⟩
      · grind [→ List.sizeOf_lt_of_mem]
      · have hle := sizeOf_parts_argument h
        have hlt := List.sizeOf_lt_of_mem (mem_of_mem_spoken ha)
        grind
      · grind [→ List.sizeOf_lt_of_mem]
      · have hlt := sizeOf_windowParts h
        grind
  | _ =>
      simp [partsOf] at h
      all_goals grind [→ List.sizeOf_lt_of_mem]

end Parts

/-- The columns and the queries that an outline names, in order; those that a query names in turn
are left out. -/
def Expression.mentions (e : Expression) : List Visit :=
  e.visits fun _ => false

/-- What an expression names itself: a column, unless it is a variable, or a query. -/
def ownMention : Grammar.Expr → List Visit
  | .identifier name => if isVariable name then [] else [.column ⟨none, nameOf name⟩]
  | .compound parts =>
      match parts.reverse with
      | name :: qualifier :: _ =>
          if isVariable qualifier then [] else [.column ⟨some (nameOf qualifier), nameOf name⟩]
      | _ => []
  | .subquery q | .exists q => [.query (ofQuery q)]
  | _ => []

/-- The columns and the queries that are named in an expression, in the order in which they are
written; those that are named in a query are left out. -/
def mentioned (e : Grammar.Expr) : List Visit :=
  ownMention e ++ (partsOf e).attach.flatMap fun ⟨part, _⟩ => mentioned part
termination_by sizeOf e
decreasing_by exact sizeOf_lt_of_mem_partsOf ‹_›

theorem mem_partsOf_of_mem_keptOf {e part : Grammar.Expr} (h : part ∈ keptOf e) :
    part ∈ partsOf e :=
  (perm_partsOf e).mem_iff.mp (List.mem_append_left _ h)

/-- What is named in an expression in parts that the outline drops. -/
def lost (e : Grammar.Expr) : List Visit :=
  (droppedOf e).flatMap mentioned ++ (keptOf e).attach.flatMap fun ⟨part, _⟩ => lost part
termination_by sizeOf e
decreasing_by exact sizeOf_lt_of_mem_partsOf (mem_partsOf_of_mem_keptOf ‹_›)

/-- Whether nothing that is named in the branches of a `CASE` changes its place when all conditions
are taken before all results. -/
inductive InOrder : Grammar.Expr → Prop where
  | mk (e : Grammar.Expr)
      (hbranches : ∀ operand conditions results otherwise,
        e = .case operand conditions results otherwise →
          (alternate conditions results).flatMap mentioned =
            (conditions ++ results).flatMap mentioned)
      (hparts : ∀ part ∈ keptOf e, InOrder part) : InOrder e

section Mentions

theorem mentioned_eq (e : Grammar.Expr) :
    mentioned e = ownMention e ++ (partsOf e).flatMap mentioned := by
  rw [mentioned]
  simp [List.flatMap_subtype]

theorem lost_eq (e : Grammar.Expr) :
    lost e = (droppedOf e).flatMap mentioned ++ (keptOf e).flatMap lost := by
  rw [lost]
  simp [List.flatMap_subtype]

@[simp] theorem mentions_column (c : Column) : (Expression.column c).mentions = [.column c] := rfl

@[simp] theorem mentions_subquery (q : Query) : (Expression.subquery q).mentions = [.query q] := rfl

@[simp] theorem mentions_literal : Expression.literal.mentions = [] := rfl

@[simp] theorem mentions_all (parts : List Expression) :
    (Expression.all parts).mentions = parts.flatMap Expression.mentions := by
  rw [Expression.mentions, Expression.visits]
  induction parts with
  | nil => rfl
  | cons e rest ih =>
      rw [visitsOfAll, ih]
      rfl

theorem ofExprs_eq_map (es : List Grammar.Expr) : ofExprs es = es.map ofExpr := by
  induction es with
  | nil => rfl
  | cons e rest ih => rw [ofExprs, ih, List.map_cons]

theorem toList_ofOption (e : Option Grammar.Expr) :
    (ofOption e).toList = e.toList.map ofExpr := by
  cases e with
  | none => rfl
  | some e => rfl

theorem ofOrder_eq_map (order : List OrderItem) :
    ofOrder order = (order.map valueOf).map ofExpr := by
  induction order with
  | nil => rfl
  | cons item rest ih =>
      obtain ⟨value, filling⟩ := item
      rw [ofOrder, ih]
      rfl

theorem ofArguments_false (arguments : List Argument) :
    ofArguments false arguments = (arguments.flatMap keptOfArgument).map ofExpr := by
  induction arguments with
  | nil => rfl
  | cons first rest ih =>
      cases first <;> simp [ofArguments, keptOfArgument, ih, ofExpr]

/-- The outlines of the arguments of a call are those of the arguments that are kept. -/
theorem ofArguments_eq (name : ObjectName) (arguments : List Argument) :
    ofArguments (skipsFirst name) arguments =
      ((spoken name arguments).flatMap keptOfArgument).map ofExpr := by
  cases hskips : skipsFirst name with
  | false =>
      have hspoken : spoken name arguments = arguments := by
        cases arguments with
        | nil => rfl
        | cons first rest => cases first <;> simp [spoken, hskips]
      rw [hspoken, ofArguments_false]
  | true =>
      cases arguments with
      | nil => rfl
      | cons first rest =>
          cases first <;>
            simp [ofArguments, spoken, hskips, ofArguments_false, keptOfArgument, ofExpr]

theorem ofWindow_eq (window : Option Window) :
    ofWindow window = (window.toList.flatMap keptOfWindow).map ofExpr := by
  cases window with
  | none => rfl
  | some w =>
      obtain ⟨partition, order, frame⟩ := w
      simp [ofWindow, keptOfWindow, ofExprs_eq_map, ofOrder_eq_map]

/-- What the outline of an expression names: what the expression names itself, and what the
outlines of the parts name that are kept. -/
theorem mentions_ofExpr (e : Grammar.Expr) :
    (ofExpr e).mentions =
      ownMention e ++ (keptOf e).flatMap fun part => (ofExpr part).mentions := by
  cases e with
  | identifier name =>
      by_cases hvariable : isVariable name <;> simp [ofExpr, ownMention, keptOf, partsOf, hvariable]
  | compound parts =>
      simp only [ofExpr, compoundOf, ownMention, keptOf, partsOf, List.flatMap_nil,
        List.append_nil]
      rcases parts.reverse with _ | ⟨name, _ | ⟨qualifier, rest⟩⟩
      · rfl
      · rfl
      · cases hvariable : isVariable qualifier <;> simp [hvariable]
  | test subject asked => cases asked <;> simp [ofExpr, ownMention, keptOf, keepsTest]
  | pattern kind subject form =>
      cases kind <;> simp [ofExpr, ownMention, keptOf, keepsPattern]
  | inList subject items =>
      simp [ofExpr, ownMention, keptOf, partsOf, ofExprs_eq_map, List.flatMap_map]
  | tuple items =>
      simp [ofExpr, ownMention, keptOf, partsOf, ofExprs_eq_map, List.flatMap_map]
  | case operand conditions results otherwise =>
      simp [ofExpr, ownMention, keptOf, ofExprs_eq_map, toList_ofOption, List.flatMap_map]
  | call name parameters arguments clauses window =>
      simp only [ofExpr, ownMention, keptOf, ofArguments_eq, ofWindow_eq, mentions_all,
        List.flatMap_append, List.flatMap_map, List.nil_append]
  | _ => simp [ofExpr, ownMention, keptOf, partsOf]

/-- No column and no query is made up or named twice: what the outline names and what is lost is
what the expression names. -/
theorem perm_mentioned (e : Grammar.Expr) :
    ((ofExpr e).mentions ++ lost e).Perm (mentioned e) := by
  induction e using lost.induct with
  | case1 e ih =>
      have hkept : (((keptOf e).flatMap fun part => (ofExpr part).mentions) ++
          (keptOf e).flatMap lost).Perm ((keptOf e).flatMap mentioned) := by
        refine (List.flatMap_append_perm _ _ _).trans (.flatMap_left _ fun part hpart => ?_)
        exact ih part hpart
      have hparts := (perm_partsOf e).flatMap_right mentioned
      rw [mentions_ofExpr, lost_eq, mentioned_eq, List.append_assoc]
      refine List.Perm.append_left _ ?_
      calc
        ((keptOf e).flatMap fun part => (ofExpr part).mentions) ++
              ((droppedOf e).flatMap mentioned ++ (keptOf e).flatMap lost)
        _ |>.Perm (((keptOf e).flatMap fun part => (ofExpr part).mentions) ++
              ((keptOf e).flatMap lost ++ (droppedOf e).flatMap mentioned)) :=
          List.perm_append_comm.append_left _
        _ |>.Perm ((keptOf e).flatMap mentioned ++ (droppedOf e).flatMap mentioned) := by
          rw [← List.append_assoc]
          exact hkept.append_right _
        _ |>.Perm ((partsOf e).flatMap mentioned) := by
          rw [← List.flatMap_append]
          exact hparts

/-- But for a `CASE`, what is kept stands in the order in which it is written. -/
theorem keptOf_sublist_partsOf {e : Grammar.Expr}
    (hcase : ∀ operand conditions results otherwise,
      e ≠ .case operand conditions results otherwise) : (keptOf e).Sublist (partsOf e) := by
  cases e with
  | case operand conditions results otherwise => exact absurd rfl (hcase _ _ _ _)
  | test subject asked => cases asked <;> simp [keptOf, keepsTest, partsOf]
  | pattern kind subject form => cases kind <;> simp [keptOf, keepsPattern, partsOf]
  | call name parameters arguments clauses window =>
      have harguments : ((spoken name arguments).flatMap keptOfArgument).Sublist
          ((spoken name arguments).flatMap Argument.parts) := by
        refine .flatMap_right _ fun a _ => ?_
        cases a <;> simp [keptOfArgument, Argument.parts]
      have hwindow : (window.toList.flatMap keptOfWindow).Sublist
          (window.toList.flatMap windowParts) := by
        refine .flatMap_right _ fun w _ => ?_
        obtain ⟨partition, order, frame⟩ := w
        have horder : (order.map valueOf).Sublist (order.flatMap OrderItem.parts) := by
          rw [List.map_eq_flatMap]
          exact .flatMap_right _ fun ⟨value, filling⟩ _ => by simp [valueOf, OrderItem.parts]
        exact (horder.append_left partition).trans (List.sublist_append_left _ _)
      have hbefore : ((spoken name arguments).flatMap keptOfArgument).Sublist
          (parameters ++ (spoken name arguments).flatMap Argument.parts ++ clauses) := by
        refine harguments.trans ?_
        rw [List.append_assoc]
        exact (List.sublist_append_left _ _).trans (List.sublist_append_right _ _)
      exact hbefore.append hwindow
  | _ => simp [keptOf, partsOf]

/-- What an outline names of an expression in order stands in the order in which it is written. -/
theorem sublist_mentioned {e : Grammar.Expr} (h : InOrder e) :
    ((ofExpr e).mentions).Sublist (mentioned e) := by
  induction h with
  | mk e hbranches hkept ih =>
      have hoff : ((keptOf e).flatMap fun part => (ofExpr part).mentions).Sublist
          ((keptOf e).flatMap mentioned) :=
        .flatMap_right _ ih
      have hparts : ((keptOf e).flatMap mentioned).Sublist ((partsOf e).flatMap mentioned) := by
        by_cases hcase : ∃ operand conditions results otherwise,
            e = .case operand conditions results otherwise
        · obtain ⟨operand, conditions, results, otherwise, rfl⟩ := hcase
          have hsame := hbranches _ _ _ _ rfl
          rw [List.flatMap_append] at hsame
          simp only [keptOf, partsOf, List.flatMap_append, hsame, List.append_assoc]
          exact .refl _
        · refine (keptOf_sublist_partsOf ?_).flatMap _
          intro operand conditions results otherwise heq
          exact hcase ⟨operand, conditions, results, otherwise, heq⟩
      rw [mentions_ofExpr, mentioned_eq]
      exact (hoff.trans hparts).append_left _

/-- An outline names exactly the columns and the queries that an expression names, but for those in
the parts that it drops: an expression without such a loss keeps all of them, and no other does. If
the branches of a `CASE` keep their places, then they stand in the order in which they are written,
and without a loss the outline names the same as the expression. -/
theorem names_but_lost (e : Grammar.Expr) :
    ((ofExpr e).mentions ++ lost e).Perm (mentioned e) ∧
      ((ofExpr e).mentions.Perm (mentioned e) ↔ lost e = []) ∧
      (InOrder e → ((ofExpr e).mentions).Sublist (mentioned e) ∧
        ((ofExpr e).mentions = mentioned e ↔ lost e = [])) := by
  have hperm := perm_mentioned e
  have hlength : (ofExpr e).mentions.length + (lost e).length = (mentioned e).length := by
    rw [← List.length_append]
    exact hperm.length_eq
  have hlost (h : (ofExpr e).mentions.length = (mentioned e).length) : lost e = [] := by
    apply List.eq_nil_of_length_eq_zero
    omega
  have hkept (h : lost e = []) : (ofExpr e).mentions.Perm (mentioned e) := by
    rw [h, List.append_nil] at hperm
    exact hperm
  refine ⟨hperm, ⟨fun h => hlost h.length_eq, hkept⟩, ?_⟩
  intro horder
  have hsublist := sublist_mentioned horder
  refine ⟨hsublist, ⟨fun h => hlost (congrArg List.length h), fun h => ?_⟩⟩
  exact hsublist.eq_of_length (hkept h).length_eq

/-- Names are lost where the outline takes a form for a literal: behind `IS NOT TRUE` a column,
under `ANY` a column and a query, whose table is then no table of the text. And the columns of a
`CASE` with two branches change their order. -/
theorem names_lost_under_any :
    let column (name : String) : Grammar.Expr := .identifier ⟨name, none⟩
    let named (name : String) : Visit := .column ⟨none, name.toList⟩
    let doubted : Grammar.Expr := .test (.nested (.binary (column "a") "=" .literal)) .isNotTrue
    let compared : Grammar.Expr := .quantified (column "x") "=" (.subquery default)
    let branching : Grammar.Expr :=
      .case none [column "a", column "c"] [column "b", column "d"] none
    let searched : Text := "SELECT x FROM t WHERE x = ANY (SELECT y FROM u)".toList
    ((ofExpr doubted).mentions = [] ∧ mentioned doubted = [named "a"]) ∧
      ((ofExpr compared).mentions = [] ∧
        mentioned compared = [named "x", .query (ofQuery default)]) ∧
      ((ofExpr branching).mentions = ["a", "c", "b", "d"].map named ∧
        mentioned branching = ["a", "b", "c", "d"].map named) ∧
      (References.extract ⟨standardParser, .mssql, .mysql⟩ searched).tables =
        [("dbo".toList, "t".toList)] := by
  intro column named doubted compared branching searched
  have hcolumn (name : String) (h : isVariable ⟨name, none⟩ = false) :
      mentioned (column name) = [named name] := by
    simp [mentioned_eq, ownMention, partsOf, column, named, nameOf, h]
  have ha := hcolumn "a" (by decide)
  have hb := hcolumn "b" (by decide)
  have hc := hcolumn "c" (by decide)
  have hd := hcolumn "d" (by decide)
  have hx := hcolumn "x" (by decide)
  refine ⟨⟨rfl, ?_⟩, ⟨rfl, ?_⟩, ⟨rfl, ?_⟩, by decide +kernel⟩
  · have hliteral : mentioned .literal = [] := by simp [mentioned_eq, ownMention, partsOf]
    have hnested (e : Grammar.Expr) : mentioned (.nested e) = mentioned e := by
      simp [mentioned_eq (.nested e), ownMention, partsOf]
    rw [mentioned_eq]
    simp only [doubted, ownMention, partsOf, List.flatMap_cons, hnested]
    rw [mentioned_eq]
    simp [ownMention, partsOf, ha, hliteral]
  · have hquery (q : Grammar.Query) : mentioned (.subquery q) = [.query (ofQuery q)] := by
      simp [mentioned_eq, ownMention, partsOf]
    rw [mentioned_eq]
    simp [compared, ownMention, partsOf, hx, hquery]
  · rw [mentioned_eq]
    simp [branching, ownMention, partsOf, alternate, ha, hb, hc, hd]

end Mentions

end SqlInsight.Outline
