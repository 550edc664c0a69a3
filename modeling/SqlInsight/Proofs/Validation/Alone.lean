/-
What is reported for a statement of a batch, beside what is reported when it is the only one there.
The statements of a batch meet nowhere but in the text by which an update is told to have a `FROM`
list of its own. This is the text of the statement, and of the whole batch if that has not as many
pieces as statements; so only then, and only if the names in it would be reported, an update may get
other reports than alone.
-/
import SqlInsight.Proofs.Batch.Segments
import SqlInsight.Proofs.Text.Occurrences
import SqlInsight.Proofs.Text.Search
import SqlInsight.Proofs.Validation.Advice
import SqlInsight.Proofs.Validation.Resolution
import SqlInsight.Reading.Standard

namespace SqlInsight

open Outline Text

/-- What a finding says, wherever it is. -/
structure Content where
  code : Code
  message : Text
  suggestion : Option Text
deriving Repr, DecidableEq

/-- What a finding says. -/
def Diagnostic.content (d : Diagnostic) : Content :=
  ⟨d.code, d.message, d.suggestion⟩

def Outline.Statement.isUpdate : Statement → Bool
  | .update _ _ _ _ _ => true
  | .select _ | .insert _ _ _ | .delete _ _ | .other => false

namespace Validation

open Checker (hasOuterFrom updatesFrom)

/-- What a finding says, whatever place it gets. -/
def Finding.content (f : Finding) : Content :=
  (f.diagnostic default).content

def reports (s : Settings) (schema : Schema) (st : Statement) (t : Text) : List Content :=
  (statementFindings s schema st t).map Finding.content

def batchReports (e : Engine) (schema : Schema) (b : Batch) : List Content :=
  ((batchDiagnostics e (some schema) b).map (relabel e.settings)).map Diagnostic.content

/-- A batch that is read as this statement alone, which has that text there. -/
structure OnlyOne (e : Engine) (b : Batch) (st : Statement) (own : Text) : Prop where
  read : ∃ r, e.ladder.readStrictly b.text = .ok r ∧ r.statements = [st]
  text : ∃ first, statementTexts b.text [st] = [(st, ⟨own, first⟩)]

theorem content_diagnostic (f : Finding) (range : Range) :
    (f.diagnostic range).content = f.content := by
  unfold Finding.content Finding.diagnostic
  cases f.suggestion <;> rfl

theorem content_relabel (s : Settings) (d : Diagnostic) : (relabel s d).content = d.content := rfl

theorem map_content_place (b : Batch) (s : StatementText) (marked : List (Anchor × Nat))
    (fs : List Finding) :
    (place b s marked fs).map Diagnostic.content = fs.map Finding.content := by
  induction fs generalizing marked with
  | nil => rfl
  | cons f rest ih =>
      simp only [place, List.map_cons]
      rw [content_diagnostic, ih]

/-- What is reported for a batch is what is reported for its statements, one after the other. -/
theorem batchReports_eq {e : Engine} {schema : Schema} {b : Batch} {r : Reading}
    (hread : e.ladder.readStrictly b.text = .ok r) :
    batchReports e schema b = (statementTexts b.text r.statements).flatMap fun x =>
      reports e.settings schema x.1 x.2.text := by
  have hrelabel : Diagnostic.content ∘ relabel e.settings = Diagnostic.content :=
    funext (content_relabel e.settings)
  rw [batchReports, List.map_map, hrelabel, batchDiagnostics, hread]
  simp only [List.map_flatMap, map_content_place]
  rfl

theorem OnlyOne.batchReports_eq {e : Engine} {schema : Schema} {b : Batch} {st : Statement}
    {own : Text} (h : OnlyOne e b st own) :
    batchReports e schema b = reports e.settings schema st own := by
  obtain ⟨r, hread, hstatements⟩ := h.read
  obtain ⟨first, htext⟩ := h.text
  rw [Validation.batchReports_eq hread, hstatements, htext, List.flatMap_singleton]

section

variable (s : Settings) (schema : Schema)

/-- The text of a statement matters only if that is an update. -/
theorem statementFindings_of_not_isUpdate {st : Statement} (h : st.isUpdate = false)
    (t t' : Text) : statementFindings s schema st t = statementFindings s schema st t' := by
  cases st with
  | update table alias? assigned values selection => contradiction
  | select query => rfl
  | insert table columns source => rfl
  | delete sources selection => rfl
  | other => rfl

/-- What is found in an update: what there is to find about the names in it, unless its text shows a
`FROM` list, and then an advice perhaps. -/
theorem exists_statementFindings {st : Statement} (h : st.isUpdate = true) :
    ∃ named advice : List Finding, (∀ t, statementFindings s schema st t =
        (if updatesFrom t then [] else named) ++ advice) ∧
      (∀ f ∈ named, f.code.isAdvice = false) ∧ ∀ f ∈ advice, f.code.isAdvice = true := by
  cases st with
  | select query => contradiction
  | insert table columns source => contradiction
  | delete sources selection => contradiction
  | other => contradiction
  | update table alias? assigned values selection =>
      let c : Checker := ⟨s, ⟨schema, []⟩, [], []⟩
      obtain ⟨named, hadds, hcheck⟩ :=
        Checker.exists_checkedNames c table alias? assigned values selection
      obtain ⟨added, hadded, hkind⟩ := hadds.findings
      let advice :=
        if selection.isNone && s.missingWhere then (c.adviseUpdate table).findings else []
      refine ⟨added, advice, ?_, ?_, ?_⟩
      · intro t
        have hadded : named.findings = added := hadded
        change (c.checkStatement t _).findings = _
        rw [hcheck t, ← hadded]
        dsimp only [advice, c]
        cases selection.isNone && s.missingWhere <;> cases updatesFrom t <;>
          simp [Checker.adviseUpdate, Checker.report]
      · intro f hf
        simpa [Checker.addsKind] using hkind f hf
      · intro f hf
        dsimp only [advice] at hf
        split at hf
        · obtain rfl := List.mem_singleton.mp hf
          rfl
        · contradiction

/-- A statement gets the same reports with two texts exactly if it is no update, or both texts show
a `FROM` list or neither, or there is nothing to find about its names. -/
theorem reports_eq_iff (st : Statement) (t t' : Text) :
    reports s schema st t = reports s schema st t' ↔
      st.isUpdate = false ∨ updatesFrom t = updatesFrom t' ∨
        ∀ t, ∀ f ∈ statementFindings s schema st t, f.code.isAdvice = true := by
  cases hupdate : st.isUpdate with
  | false =>
      rw [reports, reports, statementFindings_of_not_isUpdate s schema hupdate t t']
      simp
  | true =>
      obtain ⟨named, advice, hfindings, hnamed, hadvice⟩ :=
        exists_statementFindings s schema hupdate
      have hnone : (∀ t, ∀ f ∈ statementFindings s schema st t, f.code.isAdvice = true) ↔
          named = [] := by
        constructor
        · intro hall
          rw [List.eq_nil_iff_forall_not_mem]
          intro f hf
          have hempty : updatesFrom [] = false := by decide
          have hmem : f ∈ statementFindings s schema st [] := by
            rw [hfindings, hempty]
            exact List.mem_append_left _ hf
          have hkind := hall [] f hmem
          rw [hnamed f hf] at hkind
          contradiction
        · rintro rfl t f hf
          rw [hfindings, ite_self] at hf
          exact hadvice f hf
      rw [hnone, reports, reports, hfindings, hfindings]
      cases updatesFrom t <;> cases updatesFrom t' <;> simp [eq_comm]

end

/-- Whether the word `FROM` stands outside parentheses behind the first word `SET` of a text that
follows `before`, which is given in reverse. -/
def fromBehindSet (before : Text) : Text → Bool
  | [] => false
  | c :: rest =>
      if wordAt "SET".toList before (c :: rest) then hasOuterFrom 0 before (c :: rest)
      else fromBehindSet (c :: before) rest

theorem updatesFrom_eq (t : Text) : updatesFrom t = fromBehindSet [] (t.mask .identifiers) := by
  have hseek (before m : Text) :
      (seekFrom (wordAt "SET".toList) 0 before (size before.reverse) m).elim false (fun set =>
        hasOuterFrom 0 (takeBytes set (before.reverse ++ m)).reverse
          (dropBytes set (before.reverse ++ m))) = fromBehindSet before m := by
    induction m generalizing before with
    | nil => rfl
    | cons c rest ih =>
        rw [seekFrom, if_neg (Nat.not_lt_zero _), fromBehindSet]
        cases wordAt "SET".toList before (c :: rest) with
        | true =>
            simp only [if_true, Option.elim, takeBytes_size_append, dropBytes_size_append,
              List.reverse_reverse]
        | false =>
            have hnext := ih (c :: before)
            rw [List.reverse_cons, size_append, List.append_assoc] at hnext
            exact hnext
  have hword : (t.mask .identifiers).findWord "SET".toList 0 =
      seekFrom (wordAt "SET".toList) 0 [] (size ([] : Text).reverse) (t.mask .identifiers) := rfl
  rw [updatesFrom, ← hseek [], hword]
  cases seekFrom (wordAt "SET".toList) 0 [] (size ([] : Text).reverse) (t.mask .identifiers) <;> rfl

section

variable {before own after : Text}

theorem isName_from : ∀ c ∈ "FROM".toList, CharClass.isName c = true :=
  List.all_eq_true.mp (by decide +kernel)

theorem isName_set : ∀ c ∈ "SET".toList, CharClass.isName c = true :=
  List.all_eq_true.mp (by decide +kernel)

/-- Of the text before it only the last character counts. -/
theorem hasOuterFrom_congr {before' : Text} (h : beginsName before' = beginsName before)
    (depth : Int) (t : Text) : hasOuterFrom depth before' t = hasOuterFrom depth before t := by
  induction t generalizing before before' depth with
  | nil => rfl
  | cons c rest ih =>
      have hcons : beginsName (c :: before') = beginsName (c :: before) := rfl
      rw [hasOuterFrom, hasOuterFrom, wordAt_congr h, ih hcons]

theorem fromBehindSet_congr {before' : Text} (h : beginsName before' = beginsName before)
    (t : Text) : fromBehindSet before' t = fromBehindSet before t := by
  induction t generalizing before before' with
  | nil => rfl
  | cons c rest ih =>
      have hcons : beginsName (c :: before') = beginsName (c :: before) := rfl
      rw [fromBehindSet, fromBehindSet, wordAt_congr h, hasOuterFrom_congr h, ih hcons]

theorem hasOuterFrom_of_lacks (h : Lacks "FROM".toList before after) (depth : Int) :
    hasOuterFrom depth before after = false := by
  induction after generalizing before depth with
  | nil => rfl
  | cons c rest ih => rw [hasOuterFrom, h.head, Bool.and_false, Bool.false_or, ih h.cons]

theorem fromBehindSet_of_lacks (h : Lacks "FROM".toList before after) :
    fromBehindSet before after = false := by
  induction after generalizing before with
  | nil => rfl
  | cons c rest ih =>
      rw [fromBehindSet]
      split
      · exact hasOuterFrom_of_lacks h 0
      · exact ih h.cons

/-- A text behind that lacks the word and does not go on with a name makes no difference. -/
theorem hasOuterFrom_append (hafter : Lacks "FROM".toList [] after)
    (hseam : beginsName after = false) (depth : Int) (before own : Text) :
    hasOuterFrom depth before (own ++ after) = hasOuterFrom depth before own := by
  induction own generalizing before depth with
  | nil => exact hasOuterFrom_of_lacks (hafter.behind before) depth
  | cons c rest ih =>
      have hword := wordAt_append before isName_from (List.cons_ne_nil c rest)
        (b := after) (by rw [hseam, Bool.and_false])
      rw [List.cons_append] at hword ⊢
      rw [hasOuterFrom, hword, ih, hasOuterFrom]

theorem fromBehindSet_append (hafter : Lacks "FROM".toList [] after)
    (hseam : beginsName after = false) (before own : Text) :
    fromBehindSet before (own ++ after) = fromBehindSet before own := by
  induction own generalizing before with
  | nil => exact fromBehindSet_of_lacks (hafter.behind before)
  | cons c rest ih =>
      have hword := wordAt_append before isName_set (List.cons_ne_nil c rest)
        (b := after) (by rw [hseam, Bool.and_false])
      have hfrom := hasOuterFrom_append hafter hseam 0 before (c :: rest)
      rw [List.cons_append] at hword hfrom ⊢
      rw [fromBehindSet, hword, hfrom, ih, fromBehindSet]

/-- A text in front that lacks the word and does not end in a name is passed over. -/
theorem fromBehindSet_behind (hlacks : Lacks "SET".toList before own)
    (hseam : endsName own = false) (after : Text) :
    fromBehindSet before (own ++ after) = fromBehindSet (own.reverse ++ before) after := by
  induction own generalizing before with
  | nil => rfl
  | cons c rest ih =>
      have hword := wordAt_append before isName_set (List.cons_ne_nil c rest)
        (b := after) (by rw [hseam, Bool.false_and])
      have hrest : endsName rest = false := by
        cases rest with
        | nil => rfl
        | cons d more =>
            rwa [← List.singleton_append, endsName_append (List.cons_ne_nil d more)] at hseam
      rw [List.cons_append] at hword ⊢
      rw [fromBehindSet, hword, hlacks.head, if_neg Bool.false_ne_true, ih hlacks.cons hrest,
        List.reverse_cons, List.append_assoc]
      rfl

/-- A text shows a `FROM` list exactly if a part of it does, where the word `SET` does not stand in
front of the part nor the word `FROM` behind it. -/
theorem updatesFrom_eq_of_mask {t : Text}
    (hmask : t.mask .identifiers = before ++ own.mask .identifiers ++ after)
    (hbefore : endsName before = false) (hafter : beginsName after = false)
    (hset : Lacks "SET".toList [] before) (hfrom : Lacks "FROM".toList [] after) :
    updatesFrom t = updatesFrom own := by
  have hsame : beginsName (before.reverse ++ []) = beginsName [] := by
    rw [List.append_nil]
    exact hbefore
  calc updatesFrom t = fromBehindSet [] (before ++ (own.mask .identifiers ++ after)) := by
        rw [updatesFrom_eq, hmask, List.append_assoc]
    _ = fromBehindSet (before.reverse ++ []) (own.mask .identifiers ++ after) :=
        fromBehindSet_behind hset hbefore _
    _ = fromBehindSet (before.reverse ++ []) (own.mask .identifiers) :=
        fromBehindSet_append hfrom hafter _ _
    _ = fromBehindSet [] (own.mask .identifiers) := fromBehindSet_congr hsame _
    _ = updatesFrom own := (updatesFrom_eq own).symm

end

/-- If a batch has as many pieces as statements, the text of a statement is one that has itself for
its only piece. -/
theorem OnlyOne.own_eq {e : Engine} {b alone : Batch} {statements : List Statement}
    {st : Statement} {s : StatementText} {own : Text}
    (haligned : (Piece.split b.text).length = statements.length)
    (hst : (st, s) ∈ statementTexts b.text statements) (h : OnlyOne e alone st own)
    (htext : alone.text = s.text) : own = s.text := by
  rw [statementTexts, if_pos haligned] at hst
  obtain ⟨p, hp, rfl⟩ := List.mem_map.mp (List.of_mem_zip hst).2
  obtain ⟨first, howned⟩ := h.text
  have hsplit : Piece.split alone.text = [⟨p.text, 0, size p.text, false⟩] := by
    rw [htext]
    exact Piece.split_text hp
  rw [statementTexts, hsplit] at howned
  obtain ⟨-, hown⟩ := Prod.mk.inj (List.cons.inj howned).1
  injection hown with hown
  exact hown.symm

/-- What is reported for a batch that can be read is what is reported for its statements, one after
the other. A statement gets the reports that it gets as the only one in a batch exactly if it is no
update, or its text shows a `FROM` list both times or neither time, or there is nothing to find
about its names. It does if the batch has as many pieces as statements; and otherwise too, if in the
batch the word `SET` does not stand in front of its text nor the word `FROM` behind it. -/
theorem reports_alone (e : Engine) (schema : Schema) (b : Batch) (r : Reading)
    (hread : e.ladder.readStrictly b.text = .ok r) :
    (batchReports e schema b = (statementTexts b.text r.statements).flatMap fun x =>
      reports e.settings schema x.1 x.2.text) ∧
    ∀ (st : Statement) (s : StatementText), (st, s) ∈ statementTexts b.text r.statements →
      ∀ (alone : Batch) (own : Text), OnlyOne e alone st own →
        (reports e.settings schema st s.text = batchReports e schema alone ↔
          st.isUpdate = false ∨ updatesFrom s.text = updatesFrom own ∨
            ∀ t, ∀ f ∈ statementFindings e.settings schema st t, f.code.isAdvice = true) ∧
        ((Piece.split b.text).length = r.statements.length → alone.text = s.text →
          reports e.settings schema st s.text = batchReports e schema alone) ∧
        ∀ before after : Text,
          s.text.mask .identifiers = before ++ own.mask .identifiers ++ after →
          endsName before = false → beginsName after = false →
          Lacks "SET".toList [] before → Lacks "FROM".toList [] after →
          reports e.settings schema st s.text = batchReports e schema alone := by
  refine ⟨batchReports_eq hread, ?_⟩
  intro st s hst alone own halone
  rw [halone.batchReports_eq]
  refine ⟨reports_eq_iff e.settings schema st s.text own, ?_, ?_⟩
  · intro haligned htext
    rw [halone.own_eq haligned hst htext]
  · intro before after hmask hbefore hafter hset hfrom
    have hsame := updatesFrom_eq_of_mask hmask hbefore hafter hset hfrom
    exact (reports_eq_iff e.settings schema st s.text own).mpr (Or.inr (Or.inl hsame))

theorem lacks_of_seek {word t : Text} (h : seek (wordAt word) 0 t = none) : Lacks word [] t := by
  intro u v ht hne
  have hnone := (seek_eq_none_iff (isCut_zero t)).mp h (size u)
  rw [List.append_nil, Bool.eq_false_iff]
  exact fun hholds => Nat.not_lt_zero _ (hnone ⟨u, v, ht, hne, rfl, hholds⟩)

def isUpdateOf (table column : Text) : Statement → Bool
  | .update (some name) none [assigned] [.literal] none =>
      name == ⟨none, table⟩ && assigned == column
  | _ => false

theorem eq_of_isUpdateOf {table column : Text} {st : Statement}
    (h : isUpdateOf table column st = true) :
    st = .update (some ⟨none, table⟩) none [column] [.literal] none := by
  unfold isUpdateOf at h
  split at h
  · rw [Bool.and_eq_true, beq_iff_eq, beq_iff_eq] at h
    rw [h.1, h.2]
  · contradiction

/-- What a reading has is told by a test of its statements. -/
theorem exists_of_reading {found : Except SyntaxError Reading} {test : Statement → Bool}
    {results : List Bool}
    (h : (found.toOption.map fun r => r.statements.map test) = some results) :
    ∃ r, found = .ok r ∧ r.statements.map test = results := by
  cases found with
  | error failure => contradiction
  | ok r => exact ⟨r, rfl, Option.some.inj h⟩

/-- A batch with three pieces and two statements, of which the last is an update. It gets the
reports that it gets as the only one, since no `SET` stands before it. -/
theorem reports_alone_behind_backticks :
    let e : Engine := ⟨standardParser, {}⟩
    let own : Text := "UPDATE Users SET nope = 1".toList
    let b : Batch := ⟨"SELECT Id AS `a;b` FROM Users; ".toList ++ own, 1, 0⟩
    let update : Statement :=
      .update (some ⟨none, "Users".toList⟩) none ["nope".toList] [.literal] none
    ∃ r, e.ladder.readStrictly b.text = .ok r ∧ r.statements.length = 2 ∧
      (Piece.split b.text).length = 3 ∧
      (update, ⟨b.text, 0⟩) ∈ statementTexts b.text r.statements ∧
      OnlyOne e ⟨own, 1, 0⟩ update own ∧
      (batchReports e plainShop b = (statementTexts b.text r.statements).flatMap fun x =>
        reports e.settings plainShop x.1 x.2.text) ∧
      reports e.settings plainShop update b.text = batchReports e plainShop ⟨own, 1, 0⟩ := by
  intro e own b update
  let test : Statement → Bool := isUpdateOf "Users".toList "nope".toList
  have hboth : ((e.ladder.readStrictly b.text).toOption.map fun r => r.statements.map test) =
      some [false, true] := by
    decide +kernel
  have hown : ((e.ladder.readStrictly own).toOption.map fun r => r.statements.map test) =
      some [true] := by
    decide +kernel
  obtain ⟨r, hread, htests⟩ := exists_of_reading hboth
  obtain ⟨r', hread', htests'⟩ := exists_of_reading hown
  obtain ⟨select, rest, hstatements, -, hrest⟩ := List.map_eq_cons_iff.mp htests
  obtain ⟨st, rfl, htest⟩ := List.map_eq_singleton_iff.mp hrest
  obtain ⟨st', hstatements', htest'⟩ := List.map_eq_singleton_iff.mp htests'
  have hst : st = update := eq_of_isUpdateOf htest
  have hst' : st' = update := eq_of_isUpdateOf htest'
  rw [hst] at hstatements
  rw [hst'] at hstatements'
  have hpieces : (Piece.split b.text).length = 3 := by decide +kernel
  have hmem : (update, ⟨b.text, 0⟩) ∈ statementTexts b.text r.statements := by
    rw [statementTexts, hpieces, hstatements]
    simp
  have hsplit : (Piece.split own).map Piece.text = [own] := by decide +kernel
  obtain ⟨p, hpiece, hp⟩ := List.map_eq_singleton_iff.mp hsplit
  have honly : OnlyOne e ⟨own, 1, 0⟩ update own := by
    refine ⟨⟨r', hread', hstatements'⟩, p.first, ?_⟩
    simp [statementTexts, hpiece, hp]
  let query : Text := "SELECT Id AS `a;b` FROM Users; ".toList
  have hset : Lacks "SET".toList [] (query.mask .identifiers) := lacks_of_seek (by decide +kernel)
  obtain ⟨hbatch, halone⟩ := reports_alone e plainShop b r hread
  have hsame := (halone update _ hmem ⟨own, 1, 0⟩ own honly).2.2 _ [] (by decide +kernel)
    (by decide +kernel) rfl hset (lacks_of_seek rfl)
  exact ⟨r, hread, by rw [hstatements]; rfl, hpieces, hmem, honly, hbatch, hsame⟩

/-- An update of a column that is missing is reported, but not in front of a query whose name in
backticks holds a semicolon: then the batch has more pieces than statements, and the `FROM` list of
the query passes for one of the update. -/
theorem update_silenced_by_query :
    let codes (t : String) : List Code :=
      (validate ⟨standardParser, {}⟩ (some plainShop) t.toList).map Diagnostic.code
    codes "UPDATE Users SET nope = 1 WHERE Id = 1" = [.columnNotFound] ∧
      codes "SELECT Id AS `a;b` FROM Users" = [] ∧
      codes "UPDATE Users SET nope = 1 WHERE Id = 1; SELECT Id AS a FROM Users" =
        [.columnNotFound] ∧
      codes "UPDATE Users SET nope = 1 WHERE Id = 1; SELECT Id AS `a;b` FROM Users" = [] := by
  intro codes
  exact ⟨by decide +kernel, by decide +kernel, by decide +kernel, by decide +kernel⟩

end Validation

end SqlInsight
