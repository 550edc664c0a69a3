/-
What the settings of a check change in its findings. The switches of the two advices only leave
findings out, the overrides only replace severities, and the distance up to which a name is
suggested only changes the suggestions. None of them moves a finding: findings that share an anchor
are switched on and off together, so those that stay are marked where they are marked anyway.
-/
import SqlInsight.Proofs.Related
import SqlInsight.Proofs.Validation.Joined
import SqlInsight.Proofs.Validation.Lockstep

namespace SqlInsight

open Outline

namespace Settings

/-- The settings with all advices and without overrides. -/
def unfiltered (s : Settings) : Settings :=
  { s with selectStar := true, missingWhere := true, overrides := [] }

/-- The settings with another greatest distance of a suggestion. -/
def withDistance (s : Settings) (n : Nat) : Settings :=
  { s with maxSuggestionDistance := n }

/-- Whether findings of a kind are wanted. -/
def wants (s : Settings) : Code → Bool
  | .selectStar => s.selectStar
  | .updateWithoutWhere | .deleteWithoutWhere => s.missingWhere
  | _ => true

theorem wants_unfiltered (s : Settings) (code : Code) : s.unfiltered.wants code = true := by
  cases code <;> rfl

theorem wants_withDistance (s : Settings) (n : Nat) (code : Code) :
    (s.withDistance n).wants code = s.wants code := by
  cases code <;> rfl

end Settings

namespace Validation

def Anchor.isWanted (s : Settings) : Anchor → Bool
  | .star => s.selectStar
  | .word _ => s.missingWhere
  | .identifier _ _ | .table _ _ => true

/-- Whether a finding is wanted can be told from its anchor. -/
def Finding.Fits (f : Finding) : Prop :=
  ∀ s : Settings, f.anchor.isWanted s = s.wants f.code

/-- Two findings that differ in their suggestions only. -/
structure Finding.SameButSuggestion (f f' : Finding) : Prop where
  code : f'.code = f.code
  severity : f'.severity = f.severity
  message : f'.message = f.message
  anchor : f'.anchor = f.anchor

def Finding.ifWanted (s : Settings) (f : Finding) : List Finding :=
  if s.wants f.code then [f] else []

namespace Checker

/-- Two checks under settings of their own that agree but for the findings, which are in the
relation `F`. -/
structure Twin (s s' : Settings) (F : List Finding → List Finding → Prop) (c c' : Checker) :
    Prop where
  settings : c.settings = s
  settings' : c'.settings = s'
  names : c'.names = c.names
  scopes : c'.scopes = c.scopes
  findings : F c.findings c'.findings

/-- A relation between findings that lasts when a finding is added to both, which may differ in its
suggestion if the settings differ in the distance of suggestions. -/
def Lasting (s s' : Settings) (F : List Finding → List Finding → Prop) : Prop :=
  ∀ {fs fs' : List Finding} {f f' : Finding}, F fs fs' → f.Fits → f.SameButSuggestion f' →
    (s'.maxSuggestionDistance = s.maxSuggestionDistance → f' = f) →
    F (fs ++ f.ifWanted s) (fs' ++ f'.ifWanted s')

@[simp] theorem findings_report (c : Checker) (f : Finding) :
    (c.report f).findings = c.findings ++ [f] := rfl

section

variable {s s' : Settings} {F : List Finding → List Finding → Prop} {c c' : Checker}

/-- A finding of a kind that is always wanted is added to both. -/
theorem Twin.report (hF : Lasting s s' F) (h : Twin s s' F c c') {f f' : Finding} (hfits : f.Fits)
    (hsame : f.SameButSuggestion f')
    (hequal : s'.maxSuggestionDistance = s.maxSuggestionDistance → f' = f)
    (hwanted : ∀ s : Settings, s.wants f.code = true) :
    Twin s s' F (c.report f) (c'.report f') := by
  refine ⟨h.settings, h.settings', h.names, h.scopes, ?_⟩
  have hfindings := hF h.findings hfits hsame hequal
  simpa [Finding.ifWanted, hsame.code, hwanted] using hfindings

/-- An advice is given by each check that wants it. -/
theorem Twin.advise (hF : Lasting s s' F) (h : Twin s s' F c c') {f : Finding}
    {switch : Settings → Bool} (hfits : f.Fits) (hswitch : ∀ s, s.wants f.code = switch s) :
    Twin s s' F (if switch s then c.report f else c) (if switch s' then c'.report f else c') := by
  have hfindings := hF h.findings hfits ⟨rfl, rfl, rfl, rfl⟩ fun _ => rfl
  unfold Finding.ifWanted at hfindings
  rw [hswitch, hswitch] at hfindings
  cases hs : switch s <;> cases hs' : switch s' <;>
    exact ⟨h.settings, h.settings', h.names, h.scopes, by simpa [hs, hs'] using hfindings⟩

theorem Twin.suggest? (h : Twin s s' F c c')
    (hequal : s'.maxSuggestionDistance = s.maxSuggestionDistance) (name : Text)
    (candidates : List Text) : c'.suggest? name candidates = c.suggest? name candidates := by
  rw [Checker.suggest?, Checker.suggest?, h.settings, h.settings', hequal]

theorem Twin.checkTable (hF : Lasting s s' F) (h : Twin s s' F c c') (name : TableName) :
    Twin s s' F (c.checkTable name) (c'.checkTable name) := by
  unfold Checker.checkTable
  rw [h.names]
  split
  · exact h
  · refine h.report hF (fun _ => rfl) ⟨rfl, rfl, rfl, rfl⟩ (fun hequal => ?_) fun _ => rfl
    rw [missingTable, missingTable, h.suggest? hequal, h.names]

theorem Twin.reportColumn (hF : Lasting s s' F) (h : Twin s s' F c c') (qualifier : Option Text)
    (name label : Text) (candidates : List Text) :
    Twin s s' F (c.report (c.missingColumn qualifier name label candidates))
      (c'.report (c'.missingColumn qualifier name label candidates)) := by
  refine h.report hF (fun _ => rfl) ⟨rfl, rfl, rfl, rfl⟩ (fun hequal => ?_) fun _ => rfl
  rw [missingColumn, missingColumn, h.suggest? hequal]

theorem Twin.checkTarget (hF : Lasting s s' F) (h : Twin s s' F c c') (t : Schema.Table)
    (column : Text) :
    Twin s s' F (Checker.checkTarget t c column) (Checker.checkTarget t c' column) := by
  unfold Checker.checkTarget
  split
  · exact h
  · exact h.reportColumn hF _ _ _ _

theorem Twin.checkQualified (hF : Lasting s s' F) (h : Twin s s' F c c') (qualifier name : Text) :
    Twin s s' F (c.checkQualified qualifier name) (c'.checkQualified qualifier name) := by
  unfold Checker.checkQualified
  rw [h.scopes]
  split
  · exact h
  · split
    · exact h.reportColumn hF _ _ _ _
    · exact h

theorem Twin.checkUnqualified (hF : Lasting s s' F) (h : Twin s s' F c c') (name : Text) :
    Twin s s' F (c.checkUnqualified name) (c'.checkUnqualified name) := by
  unfold Checker.checkUnqualified
  rw [h.scopes]
  split
  · exact h
  · exact h.report hF (fun _ => rfl) ⟨rfl, rfl, rfl, rfl⟩ (fun _ => rfl) fun _ => rfl
  · refine h.report hF (fun _ => rfl) ⟨rfl, rfl, rfl, rfl⟩ (fun hequal => ?_) fun _ => rfl
    rw [h.suggest? hequal]

theorem Twin.checkColumn (hF : Lasting s s' F) (h : Twin s s' F c c') (aliases : List Text)
    (column : Column) :
    Twin s s' F (Checker.checkColumn aliases c column) (Checker.checkColumn aliases c' column) := by
  unfold Checker.checkColumn
  split
  · exact h.checkQualified hF _ _
  · split
    · exact h
    · exact h.checkUnqualified hF _

theorem Twin.leave (h : Twin s s' F c c') : Twin s s' F c.leave c'.leave := by
  refine ⟨h.settings, h.settings', h.names, ?_, h.findings⟩
  rw [Checker.leave, Checker.leave, h.scopes]

theorem Twin.endSelect (hF : Lasting s s' F) (h : Twin s s' F c c') (isOutermost : Bool)
    (select : Select) :
    Twin s s' F (Checker.endSelect isOutermost c select)
      (Checker.endSelect isOutermost c' select) := by
  have hleave := h.leave
  have hadvise : Twin s s' F (if s.selectStar then c.leave.adviseStar else c.leave)
      (if s'.selectStar then c'.leave.adviseStar else c'.leave) := by
    refine hleave.advise hF ?_ ?_
    · exact fun _ => rfl
    · exact fun _ => rfl
  simp only [Checker.endSelect, hleave.names, hleave.settings, hleave.settings']
  cases isOutermost <;> cases select.sources.isEmpty <;> cases select.hasStar <;>
    cases sourcesResolve c.leave.names select.sources <;> simp
  all_goals first | exact hleave | exact hadvise

theorem twin_lockstep (hF : Lasting s s' F) : Lockstep (Twin s s' F) where
  names h := h.names
  declare cte h := ⟨h.settings, h.settings', by rw [declare, declare, h.names], h.scopes,
    h.findings⟩
  forget count h := ⟨h.settings, h.settings', by rw [forget, forget, h.names], h.scopes,
    h.findings⟩
  enter scope h := ⟨h.settings, h.settings', h.names, by rw [enter, enter, h.scopes], h.findings⟩
  leave h := h.leave
  checkTable name h := h.checkTable hF name
  checkTarget t column h := h.checkTarget hF t column
  checkColumn aliases column h := h.checkColumn hF aliases column
  endSelect isOutermost select h := h.endSelect hF isOutermost select
  adviseUpdate table h hd := by
    rw [h.settings, h.settings']
    refine hd.advise hF ?_ ?_
    · exact fun _ => rfl
    · exact fun _ => rfl
  adviseDelete h hd := by
    rw [h.settings, h.settings']
    refine hd.advise hF ?_ ?_
    · exact fun _ => rfl
    · exact fun _ => rfl

end

end Checker

/-- The first list has all findings, whose anchors tell their kinds, and the second the wanted
ones. -/
def Kept (s : Settings) (fs fs' : List Finding) : Prop :=
  fs' = fs.filter (s.wants ·.code) ∧ ∀ f ∈ fs, f.Fits

theorem kept_lasting (s : Settings) : Checker.Lasting s.unfiltered s (Kept s) := by
  intro fs fs' f f' h hfits _ hequal
  obtain ⟨rfl, hall⟩ := h
  rw [hequal rfl]
  refine ⟨?_, ?_⟩
  · cases hwanted : s.wants f.code <;>
      simp [Finding.ifWanted, Settings.wants_unfiltered, hwanted]
  · intro g hg
    rcases List.mem_append.mp hg with hmem | hmem
    · exact hall g hmem
    · rw [Finding.ifWanted, Settings.wants_unfiltered] at hmem
      rw [List.mem_singleton.mp hmem]
      exact hfits

theorem respelled_lasting (s : Settings) (n : Nat) :
    Checker.Lasting s (s.withDistance n) (List.Forall₂ Finding.SameButSuggestion) := by
  intro fs fs' f f' h _ hsame _
  rw [Finding.ifWanted, Finding.ifWanted, Settings.wants_withDistance, hsame.code]
  refine List.rel_append h ?_
  cases s.wants f.code
  · exact .nil
  · exact .cons hsame .nil

/-- The findings in a statement are those wanted among all. -/
theorem statementFindings_kept (s : Settings) (schema : Schema) (statement : Statement)
    (t : Text) :
    Kept s (statementFindings s.unfiltered schema statement t)
      (statementFindings s schema statement t) := by
  have hstart : Checker.Twin s.unfiltered s (Kept s) ⟨s.unfiltered, ⟨schema, []⟩, [], []⟩
      ⟨s, ⟨schema, []⟩, [], []⟩ := ⟨rfl, rfl, rfl, rfl, rfl, by simp⟩
  exact ((Checker.twin_lockstep (kept_lasting s)).checkStatement t statement hstart).findings

theorem statementFindings_respelled (s : Settings) (n : Nat) (schema : Schema)
    (statement : Statement) (t : Text) :
    List.Forall₂ Finding.SameButSuggestion (statementFindings s schema statement t)
      (statementFindings (s.withDistance n) schema statement t) := by
  have hstart : Checker.Twin s (s.withDistance n) (List.Forall₂ Finding.SameButSuggestion)
      ⟨s, ⟨schema, []⟩, [], []⟩ ⟨s.withDistance n, ⟨schema, []⟩, [], []⟩ :=
    ⟨rfl, rfl, rfl, rfl, .nil⟩
  exact ((Checker.twin_lockstep (respelled_lasting s n)).checkStatement t statement hstart).findings

end Validation

namespace Diagnostic

/-- A finding with a suggestion, if there is one. -/
def suggestingAny (d : Diagnostic) : Option Text → Diagnostic
  | some name => d.suggesting name
  | none => d

/-- Two findings that differ in the suggestion only, and in the end of the message, which repeats
it. -/
def SameButSuggestion (d d' : Diagnostic) : Prop :=
  ∃ plain : Diagnostic, plain.suggestion = none ∧
    ∃ suggestion suggestion', d = plain.suggestingAny suggestion ∧
      d' = plain.suggestingAny suggestion'

theorem SameButSuggestion.range {d d' : Diagnostic} (h : d.SameButSuggestion d') :
    d'.range = d.range := by
  obtain ⟨plain, -, suggestion, suggestion', rfl, rfl⟩ := h
  cases suggestion <;> cases suggestion' <;> rfl

theorem SameButSuggestion.relabel {d d' : Diagnostic} (h : d.SameButSuggestion d')
    (s : Settings) : (Validation.relabel s d).SameButSuggestion (Validation.relabel s d') := by
  obtain ⟨plain, hplain, suggestion, suggestion', rfl, rfl⟩ := h
  refine ⟨Validation.relabel s plain, hplain, suggestion, suggestion', ?_, ?_⟩
  · cases suggestion <;> rfl
  · cases suggestion' <;> rfl

end Diagnostic

namespace Validation

theorem diagnostic_eq (f : Finding) (range : Range) :
    f.diagnostic range =
      Diagnostic.suggestingAny { Diagnostic.create f.code f.severity f.message with range }
        f.suggestion := by
  unfold Finding.diagnostic
  cases f.suggestion <;> rfl

theorem code_diagnostic (f : Finding) (range : Range) : (f.diagnostic range).code = f.code := by
  rw [diagnostic_eq]
  cases f.suggestion <;> rfl

theorem Finding.SameButSuggestion.diagnostic {f f' : Finding} (h : f.SameButSuggestion f')
    (range : Range) : (f.diagnostic range).SameButSuggestion (f'.diagnostic range) := by
  rw [diagnostic_eq, diagnostic_eq, h.code, h.severity, h.message]
  exact ⟨_, rfl, _, _, rfl, rfl⟩

/-- Where an anchor is marked depends on where it was marked before, and not on other anchors. -/
theorem mark_congr {t : Text} {marked marked' : List (Anchor × Nat)} {anchor : Anchor}
    (h : marked'.lookup anchor = marked.lookup anchor) :
    (mark t marked' anchor).1 = (mark t marked anchor).1 := by
  unfold mark
  rw [h]
  split <;> rfl

theorem lookup_mark {t : Text} {marked : List (Anchor × Nat)} {anchor other : Anchor}
    (hne : other ≠ anchor) : (mark t marked anchor).2.lookup other = marked.lookup other := by
  unfold mark
  split
  · rw [Keyed.lookup_put, if_neg hne]
  · rfl

theorem lookup_mark_congr {t : Text} {marked marked' : List (Anchor × Nat)}
    {anchor other : Anchor} (hanchor : marked'.lookup anchor = marked.lookup anchor)
    (hother : marked'.lookup other = marked.lookup other) :
    (mark t marked' anchor).2.lookup other = (mark t marked anchor).2.lookup other := by
  unfold mark
  rw [hanchor]
  split
  · rw [Keyed.lookup_put, Keyed.lookup_put, hother]
  · exact hother

/-- Findings left out do not move the others, since no other finding has their anchors. -/
theorem place_filter (s : Settings) (b : Batch) (st : StatementText) {fs : List Finding}
    (hfits : ∀ f ∈ fs, f.Fits) {marked marked' : List (Anchor × Nat)}
    (hmarked : ∀ a : Anchor, a.isWanted s = true → marked'.lookup a = marked.lookup a) :
    place b st marked' (fs.filter (s.wants ·.code)) =
      (place b st marked fs).filter (s.wants ·.code) := by
  induction fs generalizing marked marked' with
  | nil => rfl
  | cons f rest ih =>
      have hfit := hfits f List.mem_cons_self s
      have hrest := fun g hg => hfits g (List.mem_cons_of_mem f hg)
      by_cases hwanted : s.wants f.code = true
      · have hsame := hmarked f.anchor (hfit.trans hwanted)
        have hnext : ∀ a : Anchor, a.isWanted s = true →
            (mark st.text marked' f.anchor).2.lookup a =
              (mark st.text marked f.anchor).2.lookup a :=
          fun a ha => lookup_mark_congr hsame (hmarked a ha)
        rw [List.filter_cons_of_pos (p := fun g : Finding => s.wants g.code) hwanted]
        simp only [place]
        rw [List.filter_cons_of_pos (by rw [code_diagnostic]; exact hwanted), ih hrest hnext,
          mark_congr hsame]
      · have hnext : ∀ a : Anchor, a.isWanted s = true →
            marked'.lookup a = (mark st.text marked f.anchor).2.lookup a := by
          intro a ha
          have hne : a ≠ f.anchor := by
            intro heq
            rw [heq, hfit] at ha
            exact hwanted ha
          rw [lookup_mark hne, hmarked a ha]
        rw [List.filter_cons_of_neg (p := fun g : Finding => s.wants g.code) hwanted]
        simp only [place]
        rw [List.filter_cons_of_neg (by rw [code_diagnostic]; exact hwanted), ih hrest hnext]

theorem place_respelled (b : Batch) (st : StatementText) {fs fs' : List Finding}
    (h : List.Forall₂ Finding.SameButSuggestion fs fs') (marked : List (Anchor × Nat)) :
    List.Forall₂ Diagnostic.SameButSuggestion (place b st marked fs) (place b st marked fs') := by
  induction h generalizing marked with
  | nil => exact .nil
  | cons hsame _ ih =>
      simp only [place]
      rw [hsame.anchor]
      exact .cons (hsame.diagnostic _) (ih _)

end Validation

/-- The engine with all advices and without overrides. -/
def Engine.unfiltered (e : Engine) : Engine :=
  { e with settings := e.settings.unfiltered }

/-- The engine with another greatest distance of a suggestion. -/
def Engine.withDistance (e : Engine) (n : Nat) : Engine :=
  { e with settings := e.settings.withDistance n }

namespace Validation

variable (e : Engine) (schema : Option Schema)

theorem batchDiagnostics_filter (b : Batch) :
    batchDiagnostics e schema b =
      (batchDiagnostics e.unfiltered schema b).filter (e.settings.wants ·.code) := by
  have hladder : e.unfiltered.ladder = e.ladder := rfl
  unfold batchDiagnostics
  rw [hladder]
  cases e.ladder.readStrictly b.text with
  | error failure => rfl
  | ok reading =>
      cases schema with
      | none => rfl
      | some schema =>
          simp only
          rw [List.filter_flatMap]
          refine List.flatMap_congr fun x _ => ?_
          obtain ⟨hkept, hfits⟩ := statementFindings_kept e.settings schema x.1 x.2.text
          rw [hkept]
          exact place_filter e.settings b x.2 hfits fun _ _ => rfl

theorem batchDiagnostics_respelled (n : Nat) (b : Batch) :
    List.Forall₂ Diagnostic.SameButSuggestion (batchDiagnostics e schema b)
      (batchDiagnostics (e.withDistance n) schema b) := by
  have hladder : (e.withDistance n).ladder = e.ladder := rfl
  unfold batchDiagnostics
  rw [hladder]
  cases e.ladder.readStrictly b.text with
  | error failure => exact .cons ⟨_, rfl, none, none, rfl, rfl⟩ .nil
  | ok reading =>
      cases schema with
      | none => exact .nil
      | some schema =>
          refine List.rel_flatMap (R := Eq) (List.forall₂_refl _) ?_
          rintro x _ rfl
          exact place_respelled b x.2 (statementFindings_respelled e.settings n schema x.1 x.2.text)
            []

/-- Relabeling changes neither the kind nor the range of a finding. -/
theorem relabel_unfiltered (d : Diagnostic) : relabel e.unfiltered.settings d = d := rfl

theorem found_filter (t : Text) :
    found e schema t =
      ((found e.unfiltered schema t).filter (e.settings.wants ·.code)).map
        (relabel e.settings) := by
  have hplain : relabel e.unfiltered.settings = id := funext (relabel_unfiltered e)
  have hcut : e.unfiltered.settings.batchSeparator = e.settings.batchSeparator := rfl
  rw [found, found, hplain, hcut, List.filter_flatMap, List.map_flatMap]
  refine List.flatMap_congr fun b _ => ?_
  rw [List.map_id, batchDiagnostics_filter e schema b]

theorem found_respelled (n : Nat) (t : Text) :
    List.Forall₂ Diagnostic.SameButSuggestion (found e schema t)
      (found (e.withDistance n) schema t) := by
  refine List.rel_flatMap (R := Eq) (List.forall₂_refl _) ?_
  rintro b _ rfl
  rw [List.forall₂_map_left_iff, List.forall₂_map_right_iff]
  exact (batchDiagnostics_respelled e schema n b).imp fun _ _ h => h.relabel e.settings

/-- The order in which findings are listed is not that of their suggestions. -/
theorem mergeSort_respelled {ds ds' : List Diagnostic}
    (h : List.Forall₂ Diagnostic.SameButSuggestion ds ds') :
    List.Forall₂ Diagnostic.SameButSuggestion (ds.mergeSort Diagnostic.atOrBefore)
      (ds'.mergeSort Diagnostic.atOrBefore) := by
  refine h.mergeSort fun d d' x x' hd hx => ?_
  rw [Diagnostic.atOrBefore, Diagnostic.atOrBefore, hd.range, hx.range]

/-- The settings only filter and relabel. What is found is what is found with all advices and no
overrides, without the findings of the kinds that are not wanted, and each with the severity that
the overrides give to the name of its kind, if they give one; another distance of suggestions only
changes these, and the messages that repeat them. -/
theorem validate_eq_filter (t : Text) :
    validate e schema t =
        ((validate e.unfiltered schema t).filter (e.settings.wants ·.code)).map
          (fun d => { d with
            severity := (e.settings.overrides.lookup d.code.name.toList).getD d.severity }) ∧
      ∀ n, List.Forall₂ Diagnostic.SameButSuggestion (validate e schema t)
        (validate (e.withDistance n) schema t) := by
  constructor
  · have hrelabel : relabel e.settings = fun d => { d with
        severity := (e.settings.overrides.lookup d.code.name.toList).getD d.severity } := rfl
    rw [← hrelabel, validate_eq_mergeSort, validate_eq_mergeSort, found_filter,
      filter_mergeSort Diagnostic.atOrBefore_trans Diagnostic.atOrBefore_total]
    symm
    exact List.map_mergeSort fun _ _ _ _ => rfl
  · intro n
    rw [validate_eq_mergeSort, validate_eq_mergeSort]
    exact mergeSort_respelled (found_respelled e schema n t)

end Validation

end SqlInsight
