/-
Names are resolved in any ASCII case. Against two snapshots that agree up to the case of their names
a statement is checked in lockstep: the same findings are made in the same order, with the same
anchors, so that they are marked at the same places. Only the spelling of names in messages and
suggestions follows the snapshot.
-/
import SqlInsight.Proofs.Validation.Joined
import SqlInsight.Proofs.Validation.Lockstep
import SqlInsight.Proofs.Validation.Recased
import SqlInsight.Proofs.Validation.Resolution
import SqlInsight.Reading.Standard

namespace SqlInsight

open Outline

namespace Validation

/-- Findings of the same kind at the same anchor, with messages and suggestions that are equal up
to case. -/
structure Finding.Recased (f f' : Finding) : Prop where
  code : f'.code = f.code
  severity : f'.severity = f.severity
  message : f.message.Recased f'.message
  suggestion : Option.Rel Text.Recased f.suggestion f'.suggestion
  anchor : f'.anchor = f.anchor

theorem Finding.Recased.refl (f : Finding) : f.Recased f := by
  refine ⟨rfl, rfl, .refl _, ?_, rfl⟩
  cases f.suggestion with
  | none => exact .none
  | some name => exact .some (.refl name)

namespace Checker

/-- Checks under the same settings with names, scopes and findings that are equal up to case. -/
structure Recased (c c' : Checker) : Prop where
  settings : c'.settings = c.settings
  names : c.names.Recased c'.names
  scopes : List.Forall₂ Scope.Recased c.scopes c'.scopes
  findings : List.Forall₂ Finding.Recased c.findings c'.findings

namespace Recased

variable {c c' d d' : Checker}

theorem report (h : c.Recased c') {f f' : Finding} (hf : f.Recased f') :
    (c.report f).Recased (c'.report f') :=
  ⟨h.settings, h.names, h.scopes, List.rel_append h.findings (.cons hf .nil)⟩

theorem declare (h : c.Recased c') {cte cte' : CteColumns} (hcte : cte.Recased cte') :
    (c.declare cte).Recased (c'.declare cte') :=
  ⟨h.settings, ⟨h.names.schema, .cons hcte h.names.ctes⟩, h.scopes, h.findings⟩

theorem length_ctes (h : c.Recased c') : c'.names.ctes.length = c.names.ctes.length :=
  h.names.ctes.length_eq.symm

theorem forget (h : c.Recased c') (count : Nat) : (c.forget count).Recased (c'.forget count) := by
  refine ⟨h.settings, ⟨h.names.schema, ?_⟩, h.scopes, h.findings⟩
  simp only [Checker.forget, h.length_ctes]
  exact List.forall₂_drop _ h.names.ctes

theorem enter (h : c.Recased c') {scope scope' : Scope} (hscope : scope.Recased scope') :
    (c.enter scope).Recased (c'.enter scope') :=
  ⟨h.settings, h.names, .cons hscope h.scopes, h.findings⟩

theorem leave (h : c.Recased c') : c.leave.Recased c'.leave := by
  refine ⟨h.settings, h.names, ?_, h.findings⟩
  obtain ⟨_, _, scopes, _⟩ := c
  obtain ⟨_, _, scopes', _⟩ := c'
  cases h.scopes with
  | nil => exact .nil
  | cons _ hrest => exact hrest

theorem suggest? (h : c.Recased c') (name : Text) {candidates candidates' : List Text}
    (hcandidates : List.Forall₂ Text.Recased candidates candidates') :
    Option.Rel Text.Recased (c.suggest? name candidates) (c'.suggest? name candidates') := by
  rw [Checker.suggest?, Checker.suggest?, h.settings]
  exact Spelling.nearest?_recased hcandidates name _

theorem checkTable (h : c.Recased c') (name : TableName) :
    (c.checkTable name).Recased (c'.checkTable name) := by
  have hmeaning := h.names.meaning? name
  rw [Checker.checkTable, Checker.checkTable]
  generalize c.names.meaning? name = m, c'.names.meaning? name = m' at hmeaning ⊢
  cases hmeaning with
  | some _ => exact h
  | none =>
      have hsuggestion := h.suggest? name.name (h.names.tableNamesFor name)
      exact h.report ⟨rfl, rfl, .refl _, hsuggestion, rfl⟩

theorem reportColumn (h : c.Recased c') (qualifier : Option Text) (name : Text)
    {label label' : Text} (hlabel : label.Recased label') {candidates candidates' : List Text}
    (hcandidates : List.Forall₂ Text.Recased candidates candidates') :
    (c.report (c.missingColumn qualifier name label candidates)).Recased
      (c'.report (c'.missingColumn qualifier name label' candidates')) := by
  refine h.report ⟨rfl, rfl, ?_, h.suggest? name hcandidates, rfl⟩
  exact hlabel.between _ _

theorem checkTarget (h : c.Recased c') {t t' : Schema.Table} (ht : t.Recased t')
    (column : Text) :
    (Checker.checkTarget t c column).Recased (Checker.checkTarget t' c' column) := by
  rw [Checker.checkTarget, Checker.checkTarget, (ht.column? column).isSome]
  split
  · exact h
  · exact h.reportColumn none column ht.qualifiedName ht.columnNames

theorem checkTargets (h : c.Recased c') {m m' : Option Meaning}
    (hm : Option.Rel Meaning.Recased m m') (columns : List Text) :
    (c.checkTargets m columns).Recased (c'.checkTargets m' columns) := by
  have htable := hm.bind fun _ _ h => h.table?
  rw [Checker.checkTargets, Checker.checkTargets]
  generalize m.bind Meaning.table? = table, m'.bind Meaning.table? = table' at htable ⊢
  cases htable with
  | none => exact h
  | some ht =>
      induction columns generalizing c c' with
      | nil => exact h
      | cons column rest ih => exact ih (h.checkTarget ht column)

theorem checkQualified (h : c.Recased c') (qualifier name : Text) :
    (c.checkQualified qualifier name).Recased (c'.checkQualified qualifier name) := by
  have hlookup := Scope.lookup?_recased h.scopes qualifier
  rw [Checker.checkQualified, Checker.checkQualified]
  generalize Scope.lookup? c.scopes qualifier = b, Scope.lookup? c'.scopes qualifier = b'
    at hlookup ⊢
  cases hlookup with
  | none => exact h
  | some hb =>
      simp only [hb.meaning.hasColumn?]
      split
      · exact h.reportColumn _ name hb.meaning.label hb.meaning.columnNames
      · exact h

theorem checkUnqualified (h : c.Recased c') (name : Text) :
    (c.checkUnqualified name).Recased (c'.checkUnqualified name) := by
  have hresolve := Scope.resolve_recased h.scopes name
  rw [Checker.checkUnqualified, Checker.checkUnqualified]
  generalize Scope.resolve c.scopes name = r, Scope.resolve c'.scopes name = r' at hresolve ⊢
  cases hresolve with
  | found => exact h
  | ambiguous hlabels =>
      refine h.report ⟨rfl, rfl, ?_, .none, rfl⟩
      exact (Text.Recased.intercalate _ hlabels).between _ _
  | missing =>
      have hsuggestion := h.suggest? name (Scope.columnNames_recased h.scopes)
      exact h.report ⟨rfl, rfl, .refl _, hsuggestion, rfl⟩

theorem checkColumn (h : c.Recased c') (aliases : List Text) (column : Column) :
    (Checker.checkColumn aliases c column).Recased (Checker.checkColumn aliases c' column) := by
  rw [Checker.checkColumn, Checker.checkColumn]
  cases column.qualifier with
  | some qualifier => exact h.checkQualified qualifier column.name
  | none =>
      simp only
      split
      · exact h
      · exact h.checkUnqualified column.name

theorem endSelect (h : c.Recased c') (isOutermost : Bool) (select : Select) :
    (Checker.endSelect isOutermost c select).Recased
      (Checker.endSelect isOutermost c' select) := by
  have hleave := h.leave
  simp only [Checker.endSelect, hleave.settings, sourcesResolve_recased hleave.names]
  split
  · exact hleave.report (.refl _)
  · exact hleave

theorem advise (h : c.Recased c') (hd : d.Recased d') (f : Finding) :
    (if c.settings.missingWhere then d.report f else d).Recased
      (if c'.settings.missingWhere then d'.report f else d') := by
  rw [h.settings]
  split
  · exact hd.report (.refl f)
  · exact hd

end Recased

theorem recased_inStep : InStep Recased where
  count h := h.length_ctes
  declare cte h := h.declare ⟨rfl, by
    cases cte.columns with
    | none => exact .none
    | some columns => exact .some (List.forall₂_same.mpr fun name _ => .refl name)⟩
  declareQuery name listed query h := h.declare ⟨rfl, by
    cases listed with
    | none => exact queryColumns?_recased h.names query
    | some columns => exact .some (List.forall₂_same.mpr fun name _ => .refl name)⟩
  forget count h := h.forget count
  enterSources sources h hd := hd.enter (scopeOfSources_recased h.names sources)
  leave h := h.leave
  checkTable name h := h.checkTable name
  checkTargets name columns h hd := hd.checkTargets (h.names.meaning? name) columns
  checkColumn aliases column h := h.checkColumn aliases column
  endSelect isOutermost select h := h.endSelect isOutermost select
  adviseUpdate table h hd := h.advise hd _
  adviseDelete h hd := h.advise hd _

end Checker

theorem statementFindings_recased {schema schema' : Schema} (h : schema.Recased schema')
    (s : Settings) (statement : Statement) (t : Text) :
    List.Forall₂ Finding.Recased (statementFindings s schema statement t)
      (statementFindings s schema' statement t) := by
  have hstart : Checker.Recased ⟨s, ⟨schema, []⟩, [], []⟩ ⟨s, ⟨schema', []⟩, [], []⟩ :=
    ⟨rfl, ⟨h, .nil⟩, .nil, .nil⟩
  exact (Checker.recased_inStep.checkStatement t statement hstart).findings

end Validation

/-- Findings of the same kind, severity and range, with messages and suggestions that are equal up
to the case of ASCII letters. -/
structure Diagnostic.Recased (d d' : Diagnostic) : Prop where
  code : d'.code = d.code
  severity : d'.severity = d.severity
  range : d'.range = d.range
  message : d.message.Recased d'.message
  suggestion : Option.Rel Text.Recased d.suggestion d'.suggestion

namespace Validation

theorem Finding.Recased.diagnostic {f f' : Finding} (h : f.Recased f') (range : Range) :
    (f.diagnostic range).Recased (f'.diagnostic range) := by
  obtain ⟨code, severity, message, suggestion, anchor⟩ := f
  obtain ⟨code', severity', message', suggestion', anchor'⟩ := f'
  obtain ⟨rfl, rfl, hmessage, hsuggestion, rfl⟩ := h
  cases hsuggestion with
  | none => exact ⟨rfl, rfl, rfl, hmessage, .none⟩
  | some hname =>
      refine ⟨rfl, rfl, rfl, ?_, .some hname⟩
      exact ((hmessage.append (.refl _)).append hname).append (.refl _)

/-- What has the same anchors is marked at the same places. -/
theorem place_recased (b : Batch) (st : StatementText) {fs fs' : List Finding}
    (h : List.Forall₂ Finding.Recased fs fs') (marked : List (Anchor × Nat)) :
    List.Forall₂ Diagnostic.Recased (place b st marked fs) (place b st marked fs') := by
  induction h generalizing marked with
  | nil => exact .nil
  | cons hsame _ ih =>
      simp only [place]
      rw [hsame.anchor]
      exact .cons (hsame.diagnostic _) (ih _)

section

variable {schema schema' : Schema} (h : schema.Recased schema') (e : Engine)

include h

theorem batchDiagnostics_recased (b : Batch) :
    List.Forall₂ Diagnostic.Recased (batchDiagnostics e (some schema) b)
      (batchDiagnostics e (some schema') b) := by
  unfold batchDiagnostics
  cases e.ladder.readStrictly b.text with
  | error failure =>
      exact .cons ⟨rfl, rfl, rfl, .refl _, .none⟩ .nil
  | ok reading =>
      refine List.rel_flatMap (R := Eq) (List.forall₂_refl _) ?_
      rintro x _ rfl
      exact place_recased b x.2 (statementFindings_recased h e.settings x.1 x.2.text) []

theorem found_recased (t : Text) :
    List.Forall₂ Diagnostic.Recased (found e (some schema) t) (found e (some schema') t) := by
  refine List.rel_flatMap (R := Eq) (List.forall₂_refl _) ?_
  rintro b _ rfl
  refine List.rel_map (R := Diagnostic.Recased) ?_ (batchDiagnostics_recased h e b)
  intro d d' hd
  refine ⟨hd.code, ?_, hd.range, hd.message, hd.suggestion⟩
  rw [relabel, relabel, hd.code, hd.severity]

/-- Names are resolved in any ASCII case. A text has as many findings against one snapshot as
against another that is equal to it up to the case of names; one after the other they are of the
same kind, severity and range, and have messages and suggestions that are equal up to case, or no
suggestion both. -/
theorem validate_recased (t : Text) :
    List.Forall₂ Diagnostic.Recased (validate e (some schema) t)
      (validate e (some schema') t) := by
  rw [validate_eq_mergeSort, validate_eq_mergeSort]
  refine (found_recased h e t).mergeSort fun d d' x x' hd hd' => ?_
  rw [Diagnostic.atOrBefore, Diagnostic.atOrBefore, hd.range, hd'.range]

end

/-- A column that is missing in a table of the default schema, and the one that was meant, as each
of two snapshots spells it. -/
theorem validate_recased_users :
    let capitals : Schema.Table :=
      .base "DBO".toList "USERS".toList [.plain "ID".toList "int".toList]
    let t : Text := "SELECT Idd FROM users".toList
    Schema.Recased plainShop ⟨"Shop".toList, [capitals], []⟩ ∧
      List.Forall₂ Diagnostic.Recased
        (validate ⟨standardParser, {}⟩ (some plainShop) t)
        (validate ⟨standardParser, {}⟩ (some ⟨"Shop".toList, [capitals], []⟩) t) ∧
      (validate ⟨standardParser, {}⟩ (some plainShop) t).map
          (fun d => (d.code, d.range, d.suggestion)) =
        [(.columnNotFound, ⟨⟨1, 8⟩, ⟨1, 11⟩⟩, some "Id".toList)] ∧
      (validate ⟨standardParser, {}⟩ (some ⟨"Shop".toList, [capitals], []⟩) t).map
          (fun d => (d.code, d.range, d.suggestion)) =
        [(.columnNotFound, ⟨⟨1, 8⟩, ⟨1, 11⟩⟩, some "ID".toList)] := by
  intro capitals t
  have hrecased : Schema.Recased plainShop ⟨"Shop".toList, [capitals], []⟩ :=
    .cons ⟨by decide, by decide, .cons ⟨by decide, by decide⟩ .nil⟩ .nil
  refine ⟨hrecased, validate_recased hrecased _ t, ?_, ?_⟩
  · decide +kernel
  · decide +kernel

end Validation

end SqlInsight
