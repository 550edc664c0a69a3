/-
What an alias stands for, told twice: by the walk that completion takes its names from, and by the
check of the statement. The walk keeps the last meaning of every name, looks for a table without a
schema in the default one only, and knows of a star no more than the one table it stands for. Where
none of this makes a difference, the columns offered are those that the check knows.
-/
import Mathlib.Data.List.Perm.Subperm
import SqlInsight.Completion.Candidate
import SqlInsight.Proofs.References.Walk
import SqlInsight.Proofs.Text.CaseFold
import SqlInsight.Proofs.Validation.QueryColumns
import SqlInsight.Proofs.Validation.Sight

namespace SqlInsight.Completion

open Outline Validation

theorem distinctCandidates_sublist (seen : List Text) (cs : List Candidate) :
    (distinctCandidates seen cs).Sublist cs := by
  induction cs generalizing seen with
  | nil => exact .slnil
  | cons c rest ih =>
      by_cases hseen : c.label.lower ∈ seen
      · rw [distinctCandidates, if_pos hseen]
        exact (ih seen).cons c
      · rw [distinctCandidates, if_neg hseen]
        exact (ih (c.label.lower :: seen)).cons_cons c

theorem distinctCandidates_of_seen {seen : List Text} {cs : List Candidate}
    (h : ∀ c ∈ cs, c.label.lower ∈ seen) : distinctCandidates seen cs = [] := by
  induction cs with
  | nil => rfl
  | cons c rest ih =>
      rw [distinctCandidates, if_pos (h c List.mem_cons_self)]
      apply ih
      intro d hd
      exact h d (List.mem_cons_of_mem c hd)

/-- Candidates that repeat earlier labels are left out. -/
theorem distinctCandidates_append {seen : List Text} {first second : List Candidate}
    (h : ∀ c ∈ second, c.label.lower ∈ seen ∨ ∃ d ∈ first, d.label.lower = c.label.lower) :
    distinctCandidates seen (first ++ second) = distinctCandidates seen first := by
  induction first generalizing seen with
  | nil =>
      apply distinctCandidates_of_seen
      intro c hc
      rcases h c hc with hseen | ⟨d, hd, -⟩
      · exact hseen
      · exact absurd hd List.not_mem_nil
  | cons head rest ih =>
      have hbehind (seen' : List Text) (hsub : seen ⊆ seen') (hhead : head.label.lower ∈ seen') :
          distinctCandidates seen' (rest ++ second) = distinctCandidates seen' rest := by
        apply ih
        intro c hc
        rcases h c hc with hold | ⟨d, hd, hsame⟩
        · exact Or.inl (hsub hold)
        · rcases List.mem_cons.mp hd with rfl | hrest
          · exact Or.inl (hsame ▸ hhead)
          · exact Or.inr ⟨d, hrest, hsame⟩
      rw [List.cons_append, distinctCandidates, distinctCandidates]
      by_cases hseen : head.label.lower ∈ seen
      · rw [if_pos hseen, if_pos hseen, hbehind seen (List.Subset.refl seen) hseen]
      · rw [if_neg hseen, if_neg hseen,
          hbehind _ (List.subset_cons_self _ seen) List.mem_cons_self]

/-- The common table expression of a list that a table name means: the last one of that name, in any
ASCII case. -/
def declared? (ctes : List Cte) (name : TableName) : Option Cte :=
  if name.schema.isNone then ctes.reverse.find? (·.name.sameAscii name.name) else none

@[simp] theorem declared?_nil (name : TableName) : declared? [] name = none := by
  unfold declared?
  split <;> rfl

/-- The common table expression that a walk has met last under a table name. -/
def met? (visits : List Visit) (name : TableName) : Option Cte :=
  if name.schema.isNone then (ctesMet visits).reverse.find? (·.name.lower == name.name.lower)
  else none

/-- The table whose columns are taken for those of a common table expression that names none. -/
def standIn? (c : Cte) : Option TableName :=
  if c.columns.isEmpty && c.query.outputColumns.isEmpty then References.starSource? c.query
  else none

/-- Whether a relation met behind `before` is bound to what it means: a name is met last as that of
the common table expression of the query that it means, whose star stands for no other one, and a
derived table has an alias. -/
def Traced (ctes : List Cte) (before : List Visit) : Relation → Prop
  | .table name _ => met? before name = declared? ctes name ∧
      ∀ earlier c later source, ctes = earlier ++ c :: later → declared? ctes name = some c →
        standIn? c = some source → declared? earlier source = none
  | .derived _ alias? => alias?.isSome = true
  | .nested _ | .other _ => False

/-- Whether the text tells all columns of a query: it has no star, or it has nothing but stars over
one table. -/
def TellsAll (q : Query) : Prop :=
  isPlain q = true ∨ q.outputColumns = [] ∧ (References.starSource? q).isSome = true

/-- Whether all columns of a relation can be told on the walk. -/
def Told (schema : Schema) (ctes : List Cte) : Relation → Prop
  | .table name _ =>
      match declared? ctes name with
      | some c => c.columns ≠ [] ∨ TellsAll c.query
      | none => name.schema = none → ∀ t, schema.table? none name.name = some t →
          t.schema.sameAscii defaultSchema = true
  | .derived query _ => isPlain query = true
  | .nested _ | .other _ => True

theorem declared?_cases (schema : Schema) (ctes : List Cte) (name : TableName) :
    (Names.behind ⟨schema, []⟩ ctes).cte? name = none ∧ declared? ctes name = none ∨
      ∃ earlier c later, ctes = earlier ++ c :: later ∧
        (Names.behind ⟨schema, []⟩ ctes).cte? name =
          some (CteColumns.ofDeclared (Names.behind ⟨schema, []⟩ earlier) c) ∧
        declared? ctes name = some c := by
  cases hname : name.schema with
  | some owner =>
      left
      constructor
      · rw [Names.cte?, hname]
      · rw [declared?, hname]
        rfl
  | none =>
      have hdeclared : declared? ctes name = ctes.reverse.find? (·.name.sameAscii name.name) := by
        rw [declared?, hname]
        rfl
      rw [hdeclared]
      exact Names.cte?_behind rfl ctes hname

theorem cteOf?_foldl (before : List Visit) (name : TableName) :
    (before.foldl References.visit {}).cteOf? name =
      (met? before name).map Binding.ofDeclared := by
  unfold References.cteOf? met?
  split
  · rw [References.lookup_ctes_foldl]
    exact Option.or_none
  · rfl

theorem table?_default_cases {schema : Schema} {name : Text} {t : Schema.Table}
    (h : schema.table? none name = some t) :
    schema.table? (some defaultSchema) name = some t ∨
      schema.table? (some defaultSchema) name = none ∧
        t.schema.sameAscii defaultSchema = false := by
  unfold Schema.table? at h ⊢
  simp only at h ⊢
  cases hdefault : (schema.tablesNamed name).find? fun t => t.schema.sameAscii defaultSchema with
  | some other =>
      rw [hdefault] at h
      exact Or.inl h
  | none =>
      rw [hdefault, Option.none_or] at h
      have hmem := List.mem_of_head? h
      refine Or.inr ⟨rfl, ?_⟩
      simpa using List.find?_eq_none.mp hdefault t hmem

/-- The columns offered are known, and if all can be told those known beyond them only repeat. -/
structure Offers (offered known : List Text) (told : Prop) : Prop where
  subset : offered ⊆ known
  tail : told → ∃ tail, known = offered ++ tail ∧ tail ⊆ offered

theorem Offers.of_eq {offered known : List Text} {told : Prop} (h : known = offered) :
    Offers offered known told :=
  ⟨h ▸ List.Subset.refl _, fun _ => ⟨[], by rw [h, List.append_nil], List.nil_subset _⟩⟩

theorem Offers.of_plain {n : Names} {q : Query} {columns : List Text}
    (h : queryColumns? n q = some columns) (hplain : isPlain q = true) :
    Offers q.outputColumns columns True :=
  Offers.of_eq (queryColumns?_of_isPlain h hplain)

theorem offers_table {schema : Schema} {name : TableName} {t : Schema.Table}
    (h : schema.table? name.schema name.name = some t) :
    Offers (bindingColumns (some schema) (Binding.ofTable name)) t.columnNames
      (name.schema = none → ∀ t, schema.table? none name.name = some t →
        t.schema.sameAscii defaultSchema = true) := by
  have hoffered : bindingColumns (some schema) (Binding.ofTable name) =
      columnsOf (some schema) (some (name.schema.getD defaultSchema)) name.name := by
    rw [bindingColumns, Binding.isPhysical_ofTable, if_pos rfl]
    rfl
  rw [hoffered, columnsOf, Option.bind_some]
  cases hname : name.schema with
  | some owner =>
      rw [hname] at h
      rw [Option.getD_some, h]
      exact Offers.of_eq rfl
  | none =>
      rw [hname] at h
      rw [Option.getD_none]
      rcases table?_default_cases h with hdefault | ⟨hmissing, hother⟩
      · rw [hdefault]
        exact Offers.of_eq rfl
      · rw [hmissing]
        constructor
        · exact List.nil_subset _
        · intro hall
          rw [hall rfl t h] at hother
          contradiction

theorem bindingColumns_of_kind {b : Binding} (h : b.isPhysical = false)
    (schema : Option Schema) :
    bindingColumns schema b = if !b.columns.isEmpty then b.columns
      else (b.source.map fun t => columnsOf schema t.schema t.name).getD [] := by
  rw [bindingColumns, h, if_neg Bool.false_ne_true]

theorem offers_query {n : Names} {q : Query} {columns : List Text} {b : Binding}
    (hcolumns : queryColumns? n q = some columns) (hphysical : b.isPhysical = false)
    (hnamed : b.columns = q.outputColumns)
    (hsource : q.outputColumns = [] → ∀ source, b.source = some source →
      References.starSource? q = some source ∧ n.cte? source = none) :
    Offers (bindingColumns (some n.schema) b) columns
      (isPlain q = true ∨ q.outputColumns = [] ∧ b.source.isSome = true) := by
  rw [bindingColumns_of_kind hphysical, hnamed]
  cases hempty : q.outputColumns with
  | cons name more =>
      rw [List.isEmpty_cons, Bool.not_false, if_pos rfl, ← hempty]
      constructor
      · exact outputColumns_subset hcolumns
      · intro htold
        rcases htold with hplain | ⟨hnone, -⟩
        · exact (Offers.of_plain hcolumns hplain).tail trivial
        · rw [hempty] at hnone
          contradiction
  | nil =>
      rw [List.isEmpty_nil, Bool.not_true, if_neg Bool.false_ne_true]
      cases hstar : b.source with
      | none =>
          constructor
          · exact List.nil_subset _
          · intro htold
            rcases htold with hplain | ⟨-, hsome⟩
            · rw [Option.map_none, Option.getD_none, ← hempty]
              exact (Offers.of_plain hcolumns hplain).tail trivial
            · contradiction
      | some source =>
          obtain ⟨hsource, hcte⟩ := hsource hempty source hstar
          obtain ⟨own, tail, hown, happend, htail⟩ :=
            queryColumns?_of_starSource? hcolumns hsource hempty
          rw [Names.tableColumns?, hcte] at hown
          simp only at hown
          have hoffered : columnsOf (some n.schema) source.schema source.name = own := by
            rw [columnsOf, Option.bind_some, hown]
            rfl
          rw [Option.map_some, Option.getD_some, hoffered]
          constructor
          · rw [happend]
            exact List.subset_append_left own tail
          · intro _
            exact ⟨tail, happend, htail⟩

theorem offers_cte {n : Names} {c : Cte} {columns : List Text}
    (hcolumns : (CteColumns.ofDeclared n c).columns = some columns)
    (hsource : ∀ source, standIn? c = some source → n.cte? source = none) :
    Offers (bindingColumns (some n.schema) (Binding.ofDeclared c)) columns
      (c.columns ≠ [] ∨ TellsAll c.query) := by
  obtain ⟨name, listed, query⟩ := c
  have hphysical : (Binding.ofDeclared (.mk name listed query)).isPhysical = false :=
    Binding.isPhysical_of_kind_cte rfl
  cases listed with
  | nil =>
      have hstand (hempty : query.outputColumns = []) :
          standIn? (.mk name [] query) = References.starSource? query := by
        simp [standIn?, Cte.columns, Cte.query, hempty]
      have hquery := offers_query hcolumns hphysical rfl fun hempty source h =>
        ⟨h, hsource source (hstand hempty ▸ h)⟩
      constructor
      · exact hquery.subset
      · intro htold
        rcases htold with hlisted | htells
        · contradiction
        · exact hquery.tail htells
  | cons first more =>
      obtain rfl : first :: more = columns := Option.some.inj hcolumns
      refine Offers.of_eq ?_
      rw [bindingColumns_of_kind hphysical]
      rfl

theorem offers_derived {n : Names} {q : Query} {columns : List Text}
    (hcolumns : queryColumns? n q = some columns) (name : Text) :
    Offers (bindingColumns (some n.schema) (Binding.ofSubquery name q.outputColumns)) columns
      (isPlain q = true) := by
  have hquery := offers_query hcolumns (b := Binding.ofSubquery name q.outputColumns) rfl rfl
    fun _ _ h => by contradiction
  exact ⟨hquery.subset, fun hplain => hquery.tail (Or.inl hplain)⟩

/-- A table name with known columns is that of a common table expression or of a table. -/
theorem meaning?_cases {n : Names} {name : TableName} {m : Meaning}
    (h : n.meaning? name = some m) (hknown : m ≠ .unknown) :
    isPlaceholder name.name = false ∧
      ((∃ cte columns, n.cte? name = some cte ∧ cte.columns = some columns ∧
          m = .derived cte.name columns) ∨
        n.cte? name = none ∧ ∃ t, n.schema.table? name.schema name.name = some t ∧
          m = .table t) := by
  unfold Names.meaning? at h
  by_cases hunknown : (name.isSession || isPlaceholder name.name) = true
  · rw [if_pos hunknown] at h
    exact absurd (Option.some.inj h).symm hknown
  · rw [if_neg hunknown] at h
    simp only [Bool.or_eq_true, not_or, Bool.not_eq_true] at hunknown
    refine ⟨hunknown.2, ?_⟩
    cases hcte : n.cte? name with
    | some cte =>
        rw [hcte] at h
        obtain rfl := Option.some.inj h
        cases hcolumns : cte.columns with
        | none =>
            rw [CteColumns.meaning, hcolumns] at hknown
            contradiction
        | some columns =>
            refine Or.inl ⟨cte, columns, rfl, hcolumns, ?_⟩
            rw [CteColumns.meaning, hcolumns]
    | none =>
        rw [hcte] at h
        cases htable : n.schema.table? name.schema name.name with
        | some t =>
            rw [htable] at h
            exact Or.inr ⟨rfl, t, rfl, (Option.some.inj h).symm⟩
        | none =>
            simp only [htable] at h
            by_cases hsystem : Names.isSystem name = true
            · rw [if_pos hsystem] at h
              exact absurd (Option.some.inj h).symm hknown
            · rw [if_neg hsystem] at h
              contradiction

variable {schema : Schema} {ctes : List Cte} {before : List Visit}

theorem offers_named {name : TableName} {alias? : Option Text} {m : Meaning}
    (h : (Names.behind ⟨schema, []⟩ ctes).meaning? name = some m) (hknown : m ≠ .unknown)
    (htraced : Traced ctes before (.table name alias?)) :
    isPlaceholder name.name = false ∧
      Offers (bindingColumns (some schema) ((before.foldl References.visit {}).tableBinding name))
        m.columnNames (Told schema ctes (.table name alias?)) := by
  obtain ⟨hmet, hstar⟩ := htraced
  obtain ⟨hplaceholder, hcases⟩ := meaning?_cases h hknown
  refine ⟨hplaceholder, ?_⟩
  rw [References.tableBinding, cteOf?_foldl, hmet]
  rcases declared?_cases schema ctes name with
    ⟨hcte, hdeclared⟩ | ⟨earlier, c, later, hctes, hcte, hdeclared⟩
  · rcases hcases with ⟨cte, columns, hsome, -⟩ | ⟨-, t, ht, rfl⟩
    · rw [hcte] at hsome
      contradiction
    · rw [Names.schema_behind] at ht
      simp only [Told, hdeclared]
      exact offers_table ht
  · rcases hcases with ⟨cte, columns, hsome, hcolumns, rfl⟩ | ⟨hnone, -⟩
    · rw [hcte] at hsome
      obtain rfl := Option.some.inj hsome
      have hsource : ∀ source, standIn? c = some source →
          (Names.behind ⟨schema, []⟩ earlier).cte? source = none := by
        intro source hsource
        have hearlier := hstar earlier c later source hctes hdeclared hsource
        rcases declared?_cases schema earlier source with ⟨hcte, -⟩ | ⟨_, d, _, -, -, hd⟩
        · exact hcte
        · rw [hearlier] at hd
          contradiction
      have hoffers := offers_cte hcolumns hsource
      rw [Names.schema_behind] at hoffers
      simp only [Told, hdeclared]
      exact hoffers
    · rw [hcte] at hnone
      contradiction

theorem offers_relation {r : Relation} {b : Bound}
    (h : scopeOfRelation (Names.behind ⟨schema, []⟩ ctes) r = [b]) (hknown : b.meaning ≠ .unknown)
    (htraced : Traced ctes before r) :
    (Visit.relation r).key? = some b.key.lower ∧
      ∃ binding, (before.foldl References.visit {}).binding? (.relation r) = some binding ∧
        Offers (bindingColumns (some schema) binding) b.meaning.columnNames
          (Told schema ctes r) := by
  cases r with
  | table name alias? =>
      obtain rfl := List.singleton_injective h
      cases hmeaning : (Names.behind ⟨schema, []⟩ ctes).meaning? name with
      | none =>
          rw [hmeaning] at hknown
          contradiction
      | some m =>
          rw [hmeaning] at hknown
          obtain ⟨hplaceholder, hoffers⟩ := offers_named hmeaning hknown htraced
          refine ⟨?_, _, ?_, hoffers⟩
          · simp [Visit.key?, hplaceholder]
          · simp [References.binding?, hplaceholder]
  | derived query alias? =>
      obtain rfl := List.singleton_injective h
      cases alias? with
      | none => contradiction
      | some name =>
          cases hcolumns : queryColumns? (Names.behind ⟨schema, []⟩ ctes) query with
          | none =>
              simp only [derivedMeaning, hcolumns] at hknown
              contradiction
          | some columns =>
              have hoffers := offers_derived hcolumns name
              rw [Names.schema_behind] at hoffers
              refine ⟨rfl, _, rfl, ?_⟩
              simp only [derivedMeaning, hcolumns]
              exact hoffers
  | nested source => exact htraced.elim
  | other alias? => exact htraced.elim

theorem sameAscii_of_lookup? {scopes : List Scope} {key : Text} {b : Bound}
    (h : Scope.lookup? scopes key = some b) : b.key.sameAscii key = true := by
  obtain ⟨scope, -, hfind⟩ := List.exists_of_findSome?_eq_some h
  have hkey := List.find?_some hfind
  exact hkey

/-- Columns that only repeat others make no candidates. -/
theorem distinctCandidates_columns {offered tail : List Text} (h : tail ⊆ offered) (a : Text) :
    distinctCandidates [] (columnCandidates a (offered ++ tail)) =
      distinctCandidates [] (columnCandidates a offered) := by
  rw [columnCandidates, List.map_append]
  refine distinctCandidates_append fun c hc => Or.inr ?_
  obtain ⟨column, hcolumn, rfl⟩ := List.mem_map.mp hc
  exact ⟨_, List.mem_map_of_mem (h hcolumn), rfl⟩

/-- Names are offered each once in any case: the first that there is, in its place. -/
structure OnceEach (offered names : List Text) : Prop where
  sublist : offered.Sublist names
  nodup : (offered.map Text.lower).Nodup
  first {before after : List Text} {name : Text} : names = before ++ name :: after →
    (∀ other ∈ before, other.lower ≠ name.lower) →
      ∃ front back, offered = front ++ name :: back ∧ front.Sublist before ∧ back.Sublist after

/-- Names that are all different in any case are offered as they are. -/
theorem OnceEach.eq_of_nodup {offered names : List Text} (h : OnceEach offered names)
    (hnodup : (names.map Text.lower).Nodup) : offered = names := by
  apply h.sublist.eq_of_length_le
  have hnames : names.Nodup := List.Pairwise.of_map _ (fun _ _ hne heq => hne (heq ▸ rfl)) hnodup
  refine (hnames.subperm fun name hname => ?_).length_le
  obtain ⟨before, after, rfl⟩ := List.append_of_mem hname
  rw [List.map_append, List.nodup_append] at hnodup
  have hfirst : ∀ other ∈ before, other.lower ≠ name.lower := fun other hother =>
    hnodup.2.2 _ (List.mem_map_of_mem hother) _ List.mem_cons_self
  obtain ⟨front, back, rfl, -, -⟩ := h.first rfl hfirst
  exact List.mem_append_right front List.mem_cons_self

theorem labels_columnCandidates (a : Text) (names : List Text) :
    (columnCandidates a names).map Candidate.label = names := by
  rw [columnCandidates, List.map_map]
  exact List.map_id' names

/-- Candidates for columns are told by their labels. -/
theorem eq_columnCandidates {cs : List Candidate} {a : Text}
    (h : ∀ c ∈ cs, c.kind = .column ∧ c.detail = some a) :
    cs = columnCandidates a (cs.map Candidate.label) := by
  induction cs with
  | nil => rfl
  | cons head rest ih =>
      obtain ⟨⟨hkind, hdetail⟩, hrest⟩ := List.forall_mem_cons.mp h
      obtain ⟨label, kind, detail⟩ := head
      obtain rfl : kind = .column := hkind
      obtain rfl : detail = some a := hdetail
      exact congrArg (_ :: ·) (ih hrest)

theorem lower_notMem_of_distinct {seen : List Text} {cs : List Candidate} :
    ∀ c ∈ distinctCandidates seen cs, c.label.lower ∉ seen := by
  induction cs generalizing seen with
  | nil => exact List.forall_mem_nil _
  | cons head rest ih =>
      rw [distinctCandidates]
      split
      · exact ih
      · rename_i hseen
        exact List.forall_mem_cons.mpr
          ⟨hseen, fun c hc hmem => ih c hc (List.mem_cons_of_mem _ hmem)⟩

theorem nodup_distinctCandidates (seen : List Text) (cs : List Candidate) :
    ((distinctCandidates seen cs).map fun c => c.label.lower).Nodup := by
  induction cs generalizing seen with
  | nil => exact List.nodup_nil
  | cons head rest ih =>
      rw [distinctCandidates]
      split
      · exact ih seen
      · refine List.nodup_cons.mpr ⟨fun hmem => ?_, ih _⟩
        obtain ⟨c, hc, hsame⟩ := List.mem_map.mp hmem
        exact lower_notMem_of_distinct c hc (hsame ▸ List.mem_cons_self)

/-- The first candidate of a label that is not seen is kept in its place. -/
theorem exists_of_first {seen : List Text} (before after : List Candidate) (c : Candidate)
    (hseen : c.label.lower ∉ seen) (hfirst : ∀ d ∈ before, d.label.lower ≠ c.label.lower) :
    ∃ front back, distinctCandidates seen (before ++ c :: after) = front ++ c :: back ∧
      front.Sublist before ∧ back.Sublist after := by
  induction before generalizing seen with
  | nil =>
      refine ⟨[], _, ?_, .slnil, distinctCandidates_sublist (c.label.lower :: seen) after⟩
      rw [List.nil_append, distinctCandidates, if_neg hseen, List.nil_append]
  | cons head rest ih =>
      obtain ⟨hhead, hrest⟩ := List.forall_mem_cons.mp hfirst
      rw [List.cons_append, distinctCandidates]
      split
      · obtain ⟨front, back, heq, hfront, hback⟩ := ih hseen hrest
        exact ⟨front, back, heq, hfront.cons head, hback⟩
      · have hseen' : c.label.lower ∉ head.label.lower :: seen := by
          rw [List.mem_cons, not_or]
          exact ⟨hhead.symm, hseen⟩
        obtain ⟨front, back, heq, hfront, hback⟩ := ih hseen' hrest
        exact ⟨head :: front, back, by rw [heq, List.cons_append], hfront.cons_cons head, hback⟩

theorem onceEach_distinctCandidates (a : Text) (names : List Text) :
    OnceEach ((distinctCandidates [] (columnCandidates a names)).map Candidate.label) names := by
  refine ⟨?_, ?_, ?_⟩
  · have hsublist := (distinctCandidates_sublist [] (columnCandidates a names)).map Candidate.label
    rwa [labels_columnCandidates] at hsublist
  · rw [List.map_map]
    exact nodup_distinctCandidates _ _
  · intro before after name heq hfirst
    have hcut : columnCandidates a names = columnCandidates a before ++
        ⟨name, .column, some a⟩ :: columnCandidates a after := by
      rw [heq, columnCandidates, List.map_append]
      rfl
    have hothers : ∀ d ∈ columnCandidates a before, d.label.lower ≠ name.lower := by
      intro d hd
      obtain ⟨other, hother, rfl⟩ := List.mem_map.mp hd
      exact hfirst other hother
    obtain ⟨front, back, hkept, hfront, hback⟩ :=
      exists_of_first _ (columnCandidates a after) ⟨name, .column, some a⟩ List.not_mem_nil
        hothers
    refine ⟨front.map Candidate.label, back.map Candidate.label, ?_, ?_, ?_⟩
    · rw [hcut, hkept, List.map_append, List.map_cons]
    · rw [← labels_columnCandidates a before]
      exact hfront.map _
    · rw [← labels_columnCandidates a after]
      exact hback.map _

/-- The columns offered for an alias of a `FROM` list are among those that the check knows of what
the alias stands for there, if the relation that the alias is bound to is the last one met under the
name and is bound to what it means. If all its columns can be told on the walk, they are offered in
order, each one once in any case. -/
theorem aliasColumns_agree {schema : Schema} {settings : Settings} {ctes : List Cte}
    {items : List Item} {sources : List Source} {selection having : Option Expression}
    {groups order : List Expression} {a : Text} {b : Bound} {before after : List Visit}
    {r : Relation}
    (hbound : Scope.lookup? [scopeOfSources
      (Checker.checkCtes ⟨settings, ⟨schema, []⟩, [], []⟩ ctes).names sources] a = some b)
    (hknown : b.meaning ≠ .unknown)
    (hvisits : Statement.visits (fun _ => true)
      (.select (.mk ctes [.mk items sources selection groups having] order)) =
        before ++ .relation r :: after)
    (hlast : ∀ v ∈ after, v.key? ≠ some b.key.lower)
    (hrelation : scopeOfRelation
      (Checker.checkCtes ⟨settings, ⟨schema, []⟩, [], []⟩ ctes).names r = [b])
    (htraced : Traced ctes before r) :
    let offered := candidates (References.ofStatements
      [.select (.mk ctes [.mk items sources selection groups having] order)]) (some schema)
      (.aliasColumn a)
    (∀ c ∈ offered,
        c.kind = .column ∧ c.detail = some a ∧ c.label ∈ b.meaning.columnNames) ∧
      (Told schema ctes r → OnceEach (offered.map Candidate.label) b.meaning.columnNames) := by
  rw [Checker.names_checkCtes] at hrelation
  obtain ⟨hkey, binding, hbinding, hoffers⟩ := offers_relation hrelation hknown htraced
  have hsame := sameAscii_of_lookup? hbound
  have hresolve : (References.ofStatements
      [.select (.mk ctes [.mk items sources selection groups having] order)]).resolve? a =
        some binding := by
    rw [References.resolve?, ← Text.lower_eq_of_sameAscii hsame, References.ofStatements_eq,
      References.walk, List.flatMap_singleton, hvisits, References.lookup_aliases_foldl hkey hlast,
      hbinding]
  simp only [candidates, allCandidates, columnsNamed, hresolve]
  constructor
  · intro c hc
    obtain ⟨column, hcolumn, rfl⟩ := List.mem_map.mp ((distinctCandidates_sublist _ _).subset hc)
    exact ⟨rfl, rfl, hoffers.subset hcolumn⟩
  · intro htold
    obtain ⟨tail, hcolumns, htail⟩ := hoffers.tail htold
    rw [← distinctCandidates_columns htail, ← hcolumns]
    exact onceEach_distinctCandidates a _

/-- A table of the columns `Id` and `Name`. -/
def users : Schema.Table :=
  .base defaultSchema "Users".toList
    [.plain "Id".toList "int".toList, .plain "Name".toList "nvarchar".toList]

/-- A table of the columns `Id` and `OrderId`, which is not in the default schema. -/
def invoices : Schema.Table :=
  .base "sales".toList "Invoices".toList
    [.plain "Id".toList "int".toList, .plain "OrderId".toList "int".toList]

/-- The snapshot of both tables. -/
def shop : Schema :=
  ⟨"Shop".toList, [users, invoices], []⟩

/-- A table without a schema under the alias `x`. -/
def asX (name : String) : Relation :=
  .table ⟨none, name.toList⟩ (some "x".toList)

/-- The item `x.Id` of a `SELECT` list. -/
def idOfX : Item :=
  .value (.column ⟨some "x".toList, "Id".toList⟩) none

def selectFrom (items : List Item) (relation : Relation) : Query :=
  .mk [] [.mk items [.mk relation []] none [] none] []

/-- The common table expression `c AS (SELECT * FROM Users)`. -/
def starOfUsers : Cte :=
  .mk "c".toList [] (selectFrom [.star] (.table ⟨none, "Users".toList⟩ none))

theorem columnNames_users : users.columnNames = ["Id".toList, "Name".toList] := by
  have hsorted : users.columns.Pairwise fun a b => decide (a.ordinal ≤ b.ordinal) = true := by
    decide +kernel
  rw [Schema.Table.columnNames, List.mergeSort_of_pairwise hsorted]
  rfl

/-- The alias of a common table expression that is a star over a table has the columns of the table:
`WITH c AS (SELECT * FROM Users) SELECT x.Id FROM c x`. -/
theorem aliasColumns_agree_star :
    candidates (References.ofStatements [.select (.mk [starOfUsers]
        [.mk [idOfX] [.mk (asX "c") []] none [] none] [])]) (some shop) (.aliasColumn "x".toList) =
      [⟨"Id".toList, .column, some "x".toList⟩, ⟨"Name".toList, .column, some "x".toList⟩] := by
  let names := Names.behind ⟨shop, []⟩ [starOfUsers]
  let b : Bound := ⟨"x".toList, .derived "c".toList users.columnNames⟩
  let met : List Visit :=
    [.cte starOfUsers, .query starOfUsers.query, .relation (.table ⟨none, "Users".toList⟩ none)]
  have hrelation : scopeOfRelation names (asX "c") = [b] := by
    have h : scopeOfRelation names (asX "c") = [⟨"x".toList, .derived "c".toList
      [[users.columnNames].reverse.flatten].reverse.flatten⟩] := rfl
    simpa [b] using h
  have hbound : Scope.lookup? [scopeOfSources names [.mk (asX "c") []]] "x".toList = some b := by
    rw [scopeOfSources, scopeOfSource, hrelation]
    rfl
  have htraced : Traced [starOfUsers] met (asX "c") := by
    refine ⟨rfl, ?_⟩
    intro earlier c later source hctes _ _
    obtain rfl : earlier = [] := by
      have hlength := congrArg List.length hctes
      simp at hlength
      exact List.eq_nil_of_length_eq_zero (by omega)
    exact declared?_nil source
  have hagree := @aliasColumns_agree shop {} [starOfUsers] [idOfX] [.mk (asX "c") []] none none []
    [] "x".toList b met [.column ⟨some "x".toList, "Id".toList⟩] (asX "c")
    (by rw [Checker.names_checkCtes]; exact hbound) nofun rfl (by simp [Visit.key?])
    (by rw [Checker.names_checkCtes]; exact hrelation) htraced
  obtain ⟨hcolumns, htold⟩ := hagree
  have honce : OnceEach _ users.columnNames := htold (Or.inr (Or.inr ⟨rfl, rfl⟩))
  rw [columnNames_users] at honce
  have hlabels := honce.eq_of_nodup (by decide +kernel)
  have hoffered := eq_columnCandidates fun c hc => ⟨(hcolumns c hc).1, (hcolumns c hc).2.1⟩
  rw [hlabels] at hoffered
  exact hoffered

theorem columnNames_invoices : invoices.columnNames = ["Id".toList, "OrderId".toList] := by
  have hsorted : invoices.columns.Pairwise fun a b => decide (a.ordinal ≤ b.ordinal) = true := by
    decide +kernel
  rw [Schema.Table.columnNames, List.mergeSort_of_pairwise hsorted]
  rfl

/-- The columns that the check knows of the alias `x` of a `FROM` list. -/
def knownOfX (ctes : List Cte) (relation : Relation) : Option (List Text) :=
  (Scope.lookup? [scopeOfSources (Checker.checkCtes ⟨{}, ⟨shop, []⟩, [], []⟩ ctes).names
    [.mk relation []]] "x".toList).map (·.meaning.columnNames)

def offeredOfX (ctes : List Cte) (relation : Relation) (selection : Option Expression) :
    List Text :=
  (candidates (References.ofStatements
    [.select (.mk ctes [.mk [idOfX] [.mk relation []] selection [] none] [])]) (some shop)
    (.aliasColumn "x".toList)).map Candidate.label

/-- The derived table `(SELECT * FROM Users) x`. -/
def starAsX : Relation :=
  .derived (selectFrom [.star] (.table ⟨none, "Users".toList⟩ none)) (some "x".toList)

/-- The item `1 AS k` of a `SELECT` list. -/
def oneAsK : Item :=
  .value .literal (some "k".toList)

/-- The common table expression `c AS (SELECT *, 1 AS k FROM Users)`. -/
def starAndK : Cte :=
  .mk "c".toList [] (selectFrom [.star, oneAsK] (.table ⟨none, "Users".toList⟩ none))

/-- The common table expressions `b AS (SELECT 1 AS k), c AS (SELECT * FROM b)`. -/
def starOverK : List Cte :=
  [.mk "b".toList [] (.mk [] [.mk [oneAsK] [] none [] none] []),
    .mk "c".toList [] (selectFrom [.star] (.table ⟨none, "b".toList⟩ none))]

/-- The condition `EXISTS (SELECT 1 FROM sales.Invoices x)`. -/
def existsInvoice : Expression :=
  .subquery (selectFrom [.value .literal none]
    (.table ⟨some "sales".toList, "Invoices".toList⟩ (some "x".toList)))

/-- The columns that the check knows are not those offered for a table outside of the default
schema, behind the star of a derived table, behind one beside a named column, behind one over
another common table expression, and where the alias is bound again. -/
theorem aliasColumns_differ :
    (knownOfX [] (asX "Invoices") = some ["Id".toList, "OrderId".toList] ∧
        offeredOfX [] (asX "Invoices") none = []) ∧
      (knownOfX [] starAsX = some ["Id".toList, "Name".toList] ∧
        offeredOfX [] starAsX none = []) ∧
      (knownOfX [starAndK] (asX "c") = some ["Id".toList, "Name".toList, "k".toList] ∧
        offeredOfX [starAndK] (asX "c") none = ["k".toList]) ∧
      (knownOfX starOverK (asX "c") = some ["k".toList] ∧
        offeredOfX starOverK (asX "c") none = []) ∧
      (knownOfX [] (asX "Users") = some ["Id".toList, "Name".toList] ∧
        offeredOfX [] (asX "Users") (some existsInvoice) = ["Id".toList, "OrderId".toList]) := by
  rw [← columnNames_users, ← columnNames_invoices]
  refine ⟨⟨rfl, rfl⟩, ⟨?_, rfl⟩, ⟨?_, rfl⟩, ⟨rfl, rfl⟩, ⟨rfl, ?_⟩⟩
  · change some [[users.columnNames].reverse.flatten].reverse.flatten = _
    simp
  · change some [["k".toList], [users.columnNames].reverse.flatten].reverse.flatten = _
    simp [columnNames_users]
  · change (distinctCandidates [] (columnCandidates "x".toList invoices.columnNames)).map
      Candidate.label = _
    rw [columnNames_invoices]
    rfl

end SqlInsight.Completion
