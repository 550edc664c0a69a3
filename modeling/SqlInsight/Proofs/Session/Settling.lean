/-
The findings of a session settle on the texts of its documents. Versions only grow and are never
given twice, so a document has at least the version of every publication for it; and a document
whose last publication is not that of its text has a timer for its version.
-/
import SqlInsight.Proofs.Session.Course

namespace SqlInsight.Session

def about (uri : Text) (record : List Publication) : List Publication :=
  record.filter fun p => p.uri = uri

/-- The versions of a document whose findings were published. -/
def publishedVersions (uri : Text) (record : List Publication) : List Nat :=
  (about uri record).filterMap Publication.version?

/-- Whether findings are those in the document as their sender last saw it; none if it was
closed. -/
def Publication.Genuine (parser : Parser) (s : Session) (p : Publication) : Prop :=
  p = p.document?.elim ⟨p.uri, [], none⟩ (validated parser s p.uri)

section Record

variable {parser : Parser} {s s' : Session} {uri : Text} {record : List Publication}
  {p : Publication}

theorem about_append (uri : Text) (record more : List Publication) :
    about uri (record ++ more) = about uri record ++ about uri more := by
  rw [about, List.filter_append]
  rfl

theorem about_singleton (h : p.uri = uri) : about uri [p] = [p] :=
  List.filter_cons_of_pos (by simpa using h)

theorem about_singleton_of_ne (h : p.uri ≠ uri) : about uri [p] = [] :=
  List.filter_cons_of_neg (by simpa using h)

theorem publishedVersions_append_singleton (h : p.uri = uri) :
    publishedVersions uri (record ++ [p]) =
      publishedVersions uri record ++ p.version?.toList := by
  rw [publishedVersions, about_append, about_singleton h, List.filterMap_append]
  cases hversion : p.version? <;> simp [hversion, publishedVersions]

theorem validated_congr (hsettings : s'.settings = s.settings) (hschema : s'.schema = s.schema) :
    validated parser s' = validated parser s := by
  funext uri d
  rw [validated, validated, hsettings, hschema]

end Record

/-- What an effect comes to for one document: it keeps its text, and a timer for its version; or the
findings in its text are published; or it is closed, and its findings are taken back; or a timer for
its version is set. -/
inductive Outcome (parser : Parser) (s s' : Session) (uri : Text) : List Publication → Prop where
  | kept {published : List Publication} (hnothing : about uri published = [])
      (hdocument : s'.document? uri = s.document? uri)
      (htimers : ∀ timer ∈ s.timers, timer.uri = uri → s.version? uri = some timer.version →
        timer ∈ s'.timers) : Outcome parser s s' uri published
  | settled (d : Document) (hdocument : s'.document? uri = some d) :
      Outcome parser s s' uri [validated parser s' uri d]
  | emptied (hdocument : s'.document? uri = none) : Outcome parser s s' uri [⟨uri, [], none⟩]
  | pending (d : Document) (hdocument : s'.document? uri = some d)
      (htimer : ∃ timer ∈ s'.timers, timer.uri = uri ∧ timer.version = d.version) :
      Outcome parser s s' uri []

namespace Effect

variable {parser : Parser} {s s' : Session} {published : List Publication}

/-- An effect is about one document; any other keeps its text and its timers. -/
theorem outcome (h : Effect parser s s' published) (uri : Text) :
    Outcome parser s s' uri published := by
  cases h with
  | quiet => exact .kept rfl rfl fun timer htimer _ _ => htimer
  | elapsed time => exact .kept rfl rfl fun timer htimer _ _ => htimer
  | opened other t =>
      have hdocument := document?_stored s other uri t
      by_cases huri : uri = other
      · subst huri
        exact .settled _ (hdocument.trans (if_pos rfl))
      · exact .kept (about_singleton_of_ne (Ne.symm huri)) (hdocument.trans (if_neg huri))
          fun timer htimer _ _ => htimer
  | scheduled other t =>
      have hdocument := document?_stored s other uri t
      by_cases huri : uri = other
      · subst huri
        exact .pending _ (hdocument.trans (if_pos rfl))
          ⟨_, mem_insertTimer.mpr (Or.inl rfl), rfl, rfl⟩
      · exact .kept rfl (hdocument.trans (if_neg huri))
          fun timer htimer _ _ => mem_insertTimer.mpr (Or.inr htimer)
  | again other d hdocument =>
      by_cases huri : uri = other
      · subst huri
        exact .settled d hdocument
      · exact .kept (about_singleton_of_ne (Ne.symm huri)) rfl fun timer htimer _ _ => htimer
  | closed other =>
      have hdocument := document?_withoutDocument s other uri
      by_cases huri : uri = other
      · subst huri
        exact .emptied (hdocument.trans (if_pos rfl))
      · exact .kept (about_singleton_of_ne (Ne.symm huri)) (hdocument.trans (if_neg huri))
          fun timer htimer _ _ => htimer
  | fired timer d hdocument hversion =>
      by_cases huri : uri = timer.uri
      · subst huri
        exact .settled d hdocument
      · refine .kept (about_singleton_of_ne (Ne.symm huri)) rfl fun other hmem hother _ => ?_
        have hne : other ≠ timer := by
          rintro rfl
          exact huri hother.symm
        exact (List.mem_erase_of_ne hne).mpr hmem
  | expired timer hversion =>
      refine .kept rfl rfl fun other hmem hother hcurrent => ?_
      have hne : other ≠ timer := by
        rintro rfl
        rw [hother] at hversion
        exact hversion hcurrent
      exact (List.mem_erase_of_ne hne).mpr hmem

/-- An effect leaves the phase, the settings and the schema as they are. -/
theorem unchanged (h : Effect parser s s' published) :
    s'.phase = s.phase ∧ validated parser s' = validated parser s := by
  cases h <;> exact ⟨rfl, rfl⟩

theorem lastVersion_le (h : Effect parser s s' published) : s.lastVersion ≤ s'.lastVersion := by
  cases h with
  | opened other t => exact Nat.le_succ _
  | scheduled other t => exact Nat.le_succ _
  | _ => exact Nat.le_refl _

/-- A document is as it was, or has a version that was not given before. -/
theorem document?_cases (h : Effect parser s s' published) {uri : Text} {d : Document}
    (hd : s'.document? uri = some d) :
    s.document? uri = some d ∨ s.lastVersion ≤ d.version ∧ d.version ≤ s'.lastVersion := by
  have hstored {other t : Text} (hd : (s.stored other t).document? uri = some d) :
      s.document? uri = some d ∨ s.lastVersion ≤ d.version ∧ d.version ≤ s.lastVersion + 1 := by
    rw [document?_stored] at hd
    split at hd
    · obtain rfl := Option.some.inj hd
      exact Or.inr ⟨Nat.le_succ _, Nat.le_refl _⟩
    · exact Or.inl hd
  cases h with
  | opened other t => exact hstored hd
  | scheduled other t => exact hstored (t := t) hd
  | closed other =>
      rw [document?_withoutDocument] at hd
      split at hd
      · contradiction
      · exact Or.inl hd
  | _ => exact Or.inl hd

end Effect

/-- What was published for a document is in order: nothing has a version beyond its own, or beyond
all if it is closed, and the versions never decrease. -/
structure Ordered (s : Session) (record : List Publication) (uri : Text) : Prop where
  version_le : ∀ d, s.document? uri = some d → d.version ≤ s.lastVersion
  published_le : ∀ v ∈ publishedVersions uri record, v ≤ (s.version? uri).getD s.lastVersion
  pairwise_le : (publishedVersions uri record).Pairwise (· ≤ ·)

namespace Ordered

variable {s s' : Session} {uri : Text} {record : List Publication}

theorem published_le_lastVersion (h : s.Ordered record uri) {v : Nat}
    (hv : v ∈ publishedVersions uri record) : v ≤ s.lastVersion := by
  have hle := h.published_le v hv
  rw [version?] at hle
  cases hdocument : s.document? uri with
  | none =>
      rw [hdocument] at hle
      exact hle
  | some d =>
      rw [hdocument] at hle
      exact Nat.le_trans hle (h.version_le d hdocument)

theorem congr (h : s.Ordered record uri) {record' : List Publication}
    (hrecord : about uri record' = about uri record) : s.Ordered record' uri := by
  have hversions : publishedVersions uri record' = publishedVersions uri record := by
    rw [publishedVersions, hrecord]
    rfl
  constructor
  · exact h.version_le
  · rw [hversions]
    exact h.published_le
  · rw [hversions]
    exact h.pairwise_le

/-- A document stays in order when it is closed or gets a version that was not given before. -/
theorem moved (h : s.Ordered record uri) (hlast : s.lastVersion ≤ s'.lastVersion)
    (hdocument : ∀ d, s'.document? uri = some d →
      s.document? uri = some d ∨ s.lastVersion ≤ d.version ∧ d.version ≤ s'.lastVersion) :
    s'.Ordered record uri := by
  constructor
  · intro d hd
    rcases hdocument d hd with hsame | ⟨-, hle⟩
    · exact Nat.le_trans (h.version_le d hsame) hlast
    · exact hle
  · intro v hv
    have hle := h.published_le_lastVersion hv
    rw [version?]
    cases hd : s'.document? uri with
    | none => exact Nat.le_trans hle hlast
    | some d =>
        rcases hdocument d hd with hsame | ⟨hnew, -⟩
        · have hversion := h.published_le v hv
          rw [version?, hsame] at hversion
          exact hversion
        · exact Nat.le_trans hle hnew
  · exact h.pairwise_le

/-- A publication keeps a document in order if it is of the document as it stands. -/
theorem published {p : Publication} (h : s.Ordered record uri)
    (hp : p.uri = uri → ∀ d, p.document? = some d → s.document? uri = some d) :
    s.Ordered (record ++ [p]) uri := by
  by_cases huri : p.uri = uri
  · have hversions : publishedVersions uri (record ++ [p]) =
        publishedVersions uri record ++ p.version?.toList :=
      publishedVersions_append_singleton huri
    have hversion : ∀ v ∈ p.version?, (s.version? uri).getD s.lastVersion = v := by
      intro v hv
      obtain ⟨d, hd, rfl⟩ := Option.map_eq_some_iff.mp hv
      rw [version?, hp huri d hd]
      rfl
    constructor
    · exact h.version_le
    · intro v hv
      rw [hversions, List.mem_append, Option.mem_toList] at hv
      rcases hv with hold | hnew
      · exact h.published_le v hold
      · rw [hversion v hnew]
    · rw [hversions, List.pairwise_append]
      refine ⟨h.pairwise_le, ?_, ?_⟩
      · cases p.version? <;> simp
      · intro v hv w hw
        rw [← hversion w (Option.mem_toList.mp hw)]
        exact h.published_le v hv
  · refine h.congr ?_
    rw [about_append, about_singleton_of_ne huri, List.append_nil]

end Ordered

/-- What holds of one document in every course: what was published for it is in order; if it is
stored, the last publication is that of its text or a timer for its version is left; and if not, the
last one, if any, is empty. -/
structure Course.SoundFor (parser : Parser) (c : Course) (uri : Text) : Prop extends
    c.session.Ordered c.record uri where
  stored : ∀ d, c.session.document? uri = some d →
    (about uri c.record).getLast? = some (validated parser c.session uri d) ∨
      ∃ timer ∈ c.session.timers, timer.uri = uri ∧ timer.version = d.version
  absent : c.session.document? uri = none →
    ∀ p, (about uri c.record).getLast? = some p → p.found = []

namespace Course

variable {parser : Parser} {c c' : Course} {uri : Text}

/-- What an effect leaves as it is stays sound, as long as no timer for its version is lost. -/
theorem SoundFor.frame (h : c.SoundFor parser uri)
    (hdocument : c'.session.document? uri = c.session.document? uri)
    (hlast : c.session.lastVersion ≤ c'.session.lastVersion)
    (hrecord : about uri c'.record = about uri c.record)
    (hvalidated : validated parser c'.session = validated parser c.session)
    (htimers : ∀ timer ∈ c.session.timers, timer.uri = uri →
      c.session.version? uri = some timer.version → timer ∈ c'.session.timers) :
    c'.SoundFor parser uri := by
  have hordered := h.toOrdered.moved hlast fun d hd => Or.inl (hdocument ▸ hd)
  refine ⟨hordered.congr hrecord, ?_, ?_⟩
  · intro d hd
    rw [hdocument] at hd
    rcases h.stored d hd with hsettled | ⟨timer, htimer, huri, heq⟩
    · left
      rw [hrecord, hvalidated]
      exact hsettled
    · right
      have hcurrent : c.session.version? uri = some timer.version := by
        rw [version?, hd, Option.map_some, heq]
      exact ⟨timer, htimers timer htimer huri hcurrent, huri, heq⟩
  · intro hd p hp
    rw [hdocument] at hd
    rw [hrecord] at hp
    exact h.absent hd p hp

/-- A publication for the document as it now stands keeps it sound. -/
theorem SoundFor.published {p : Publication} (hordered : c'.session.Ordered c.record uri)
    (hp : p.uri = uri) (hrecord : c'.record = c.record ++ [p])
    (hseen : p.document? = c'.session.document? uri)
    (hstored : ∀ d, c'.session.document? uri = some d → p = validated parser c'.session uri d)
    (habsent : c'.session.document? uri = none → p.found = []) :
    c'.SoundFor parser uri := by
  have habout : (about uri c'.record).getLast? = some p := by
    rw [hrecord, about_append, about_singleton hp, List.getLast?_concat]
  refine ⟨?_, ?_, ?_⟩
  · rw [hrecord]
    exact hordered.published fun _ d hd => hseen ▸ hd
  · intro d hd
    left
    rw [habout, hstored d hd]
  · intro hd q hq
    rw [habout, Option.some.injEq] at hq
    rw [← hq]
    exact habsent hd

variable {s' : Session} {d : Document}

/-- A stored document is sound when the findings in its text are published. -/
theorem SoundFor.settled (hordered : s'.Ordered c.record uri)
    (hdocument : s'.document? uri = some d) :
    SoundFor parser ⟨s', c.record ++ [validated parser s' uri d]⟩ uri := by
  refine SoundFor.published hordered rfl rfl hdocument.symm ?_ ?_
  · intro d' hd'
    obtain rfl : d = d' := Option.some.inj (hdocument.symm.trans hd')
    rfl
  · intro hnone
    exact absurd (hdocument.symm.trans hnone) (Option.some_ne_none d)

/-- A document that is not stored is sound when its findings are taken back. -/
theorem SoundFor.emptied (hordered : s'.Ordered c.record uri)
    (hdocument : s'.document? uri = none) :
    SoundFor parser ⟨s', c.record ++ [⟨uri, [], none⟩]⟩ uri := by
  refine SoundFor.published hordered rfl rfl hdocument.symm ?_ fun _ => rfl
  intro d hd
  exact absurd (hdocument.symm.trans hd) (Option.some_ne_none d).symm

/-- A stored document is sound when a timer for its version is set. -/
theorem SoundFor.pending (hordered : s'.Ordered c.record uri)
    (hdocument : s'.document? uri = some d)
    (htimer : ∃ timer ∈ s'.timers, timer.uri = uri ∧ timer.version = d.version) :
    SoundFor parser ⟨s', c.record ++ []⟩ uri := by
  rw [List.append_nil]
  refine ⟨hordered, ?_, ?_⟩
  · intro d' hd'
    obtain rfl : d = d' := Option.some.inj (hdocument.symm.trans hd')
    exact Or.inr htimer
  · intro hnone
    exact absurd (hdocument.symm.trans hnone) (Option.some_ne_none d)

end Course

/-- What holds of a course that began in the session `start`. -/
structure Course.Sound (parser : Parser) (start : Session) (c : Course) : Prop where
  running : c.session.phase = .running
  settings_eq : c.session.settings = start.settings
  schema_eq : c.session.schema = start.schema
  timers_le : ∀ timer ∈ c.session.timers, timer.version ≤ c.session.lastVersion
  genuine : ∀ p ∈ c.record, p.Genuine parser start
  soundFor : ∀ uri, c.SoundFor parser uri

namespace Course

variable {parser : Parser} {start s' : Session} {c : Course} {published : List Publication}

theorem Sound.validated_eq (h : c.Sound parser start) :
    validated parser c.session = validated parser start :=
  validated_congr h.settings_eq h.schema_eq

/-- Every document stays sound under an effect. -/
theorem SoundFor.effect (heffect : Effect parser c.session s' published) {uri : Text}
    (h : c.SoundFor parser uri) : SoundFor parser ⟨s', c.record ++ published⟩ uri := by
  have hordered : s'.Ordered c.record uri :=
    h.toOrdered.moved heffect.lastVersion_le fun d hd => heffect.document?_cases hd
  cases heffect.outcome uri with
  | kept hnothing hdocument htimers =>
      refine h.frame hdocument heffect.lastVersion_le ?_ heffect.unchanged.2 htimers
      rw [about_append, hnothing, List.append_nil]
  | settled d hdocument => exact .settled hordered hdocument
  | emptied hdocument => exact .emptied hordered hdocument
  | pending d hdocument htimer => exact .pending hordered hdocument htimer

/-- A course stays sound under an effect. -/
theorem Sound.effect (h : c.Sound parser start) (heffect : Effect parser c.session s' published) :
    Sound parser start ⟨s', c.record ++ published⟩ := by
  have hsoundFor := fun uri => (h.soundFor uri).effect heffect
  have hle := h.timers_le
  have hrunning := h.running
  have hsettings := h.settings_eq
  have hschema := h.schema_eq
  have hgenuine : ∀ p ∈ published, p.Genuine parser start := by
    cases heffect <;> simp [Publication.Genuine, validated, hsettings, hschema]
  refine ⟨?_, ?_, ?_, ?_, ?_, hsoundFor⟩
  · cases heffect <;> exact hrunning
  · cases heffect <;> exact hsettings
  · cases heffect <;> exact hschema
  · intro timer htimer
    cases heffect with
    | opened uri t => exact Nat.le_succ_of_le (hle timer htimer)
    | scheduled uri t =>
        rcases mem_insertTimer.mp htimer with rfl | hold
        · exact Nat.le_refl _
        · exact Nat.le_succ_of_le (hle timer hold)
    | fired other d _ _ => exact hle timer (List.mem_of_mem_erase htimer)
    | expired other _ => exact hle timer (List.mem_of_mem_erase htimer)
    | _ => exact hle timer htimer
  · intro p hp
    exact (List.mem_append.mp hp).elim (h.genuine p) (hgenuine p)

end Course

/-- A session under way in which no document is open and no validation waits. -/
structure Idle (s : Session) : Prop where
  running : s.phase = .running
  documents_eq : s.documents = []
  timers_eq : s.timers = []

/-- A version that a document no longer has, and that was given. -/
structure Superseded (s : Session) (uri : Text) (version : Nat) : Prop where
  version?_ne : s.version? uri ≠ some version
  le_lastVersion : version ≤ s.lastVersion

section Runs

variable {parser : Parser} {readers : Readers} {start : Session} {c c' : Course}
  {moves : List Move}

theorem Idle.document?_eq_none (h : start.Idle) (uri : Text) : start.document? uri = none := by
  rw [document?, h.documents_eq]
  rfl

theorem Idle.ordered (h : start.Idle) (uri : Text) : start.Ordered [] uri := by
  constructor
  · simp [h.document?_eq_none]
  · simp [publishedVersions, about]
  · simp [publishedVersions, about]

theorem Idle.sound (h : start.Idle) : Course.Sound parser start ⟨start, []⟩ := by
  refine ⟨h.running, rfl, rfl, ?_, by simp, fun uri => ⟨h.ordered uri, ?_, ?_⟩⟩
  · simp [h.timers_eq]
  · simp [h.document?_eq_none]
  · simp [about]

/-- A course stays sound from move to move. -/
theorem Course.Sound.leads (h : c.Sound parser start) (hleads : c.Leads parser readers moves c') :
    c'.Sound parser start := by
  induction hleads with
  | refl => exact h
  | step move _ hallows ih =>
      obtain ⟨published, heffect, hrecord⟩ := effect_of_allows ih.running hallows
      have hsound := ih.effect heffect
      rw [← hrecord] at hsound
      exact hsound

/-- A version that is superseded stays so: a text that is stored gets a new one. -/
theorem Superseded.effect {s s' : Session} {published : List Publication} {uri : Text}
    {version : Nat} (h : s.Superseded uri version) (heffect : Effect parser s s' published) :
    s'.Superseded uri version := by
  have hle := h.le_lastVersion
  have hne := h.version?_ne
  have hstored (other t : Text) : (s.stored other t).version? uri ≠ some version := by
    rw [version?, document?_stored]
    split
    · intro heq
      obtain rfl := Option.some.inj heq
      exact absurd hle (Nat.not_succ_le_self _)
    · exact hne
  cases heffect with
  | opened other t => exact ⟨hstored other t, Nat.le_succ_of_le hle⟩
  | scheduled other t => exact ⟨hstored other t, Nat.le_succ_of_le hle⟩
  | closed other =>
      refine ⟨?_, hle⟩
      rw [version?, document?_withoutDocument]
      split
      · simp
      · exact hne
  | _ => exact ⟨hne, hle⟩

theorem Superseded.leads {uri : Text} {version : Nat} (hsound : c.Sound parser start)
    (h : c.session.Superseded uri version) (hleads : c.Leads parser readers moves c') :
    c'.session.Superseded uri version := by
  induction hleads with
  | refl => exact h
  | step move hbefore hallows ih =>
      obtain ⟨published, heffect, -⟩ := effect_of_allows (hsound.leads hbefore).running hallows
      exact ih.effect heffect

/-- The timer of a superseded version publishes nothing. -/
theorem Superseded.record_fired {timer : Timer}
    (h : c.session.Superseded timer.uri timer.version) :
    (c.go parser readers (.fired timer)).record = c.record := by
  have hversion : (c.session.withoutTimer timer).version? timer.uri ≠ some timer.version :=
    h.version?_ne
  rw [Course.go, Course.after, (publish_of_version?_ne parser hversion).2, List.append_nil]

/-- Something was published for a document that was closed. -/
theorem about_ne_nil_of_closed (hsound : c.Sound parser start)
    (hleads : c.Leads parser readers moves c') {uri : Text} {files : Files Id}
    (hclosed : .told (.closed uri) files ∈ moves) : about uri c'.record ≠ [] := by
  induction hleads with
  | refl => contradiction
  | step move hbefore hallows ih =>
      have hrunning := (hsound.leads hbefore).running
      rcases List.mem_append.mp hclosed with hearlier | hnow
      · obtain ⟨published, -, hrecord⟩ := effect_of_allows hrunning hallows
        rw [hrecord, about_append]
        exact List.append_ne_nil_of_left_ne_nil (ih hearlier) _
      · obtain rfl := List.mem_singleton.mp hnow
        have hnew : about uri [⟨uri, [], none⟩] = [⟨uri, [], none⟩] := about_singleton rfl
        rw [Course.go, hrunning, respond_of_running rfl, Course.after, (closed_eq uri).2,
          about_append, hnew]
        exact List.append_ne_nil_of_right_ne_nil _ (List.cons_ne_nil _ _)

/-- Findings settle on the current texts. In every course that begins while no document is open, and
in which the settings and the schema stay as they are, what is published are the findings in a
document as it stands, or none for one that is closed; the versions published for a document never
decrease; the timer of a version that was superseded before it fired publishes nothing, whatever
else happens until then; and when no timer is left, the last publication for a document that is
stored is that of its text, and the last one for a document that was closed is empty. -/
theorem settles (hidle : start.Idle) (h : Course.Leads parser readers ⟨start, []⟩ moves c) :
    (∀ p ∈ c.record, p.Genuine parser start) ∧
      (∀ uri, (publishedVersions uri c.record).Pairwise (· ≤ ·)) ∧
      (∀ timer ∈ c.session.timers, c.session.version? timer.uri ≠ some timer.version →
        ∀ more c', c.Leads parser readers more c' →
          (c'.go parser readers (.fired timer)).record = c'.record) ∧
      (c.session.timers = [] →
        (∀ uri d, c.session.document? uri = some d →
          (about uri c.record).getLast? = some (validated parser start uri d)) ∧
        ∀ uri files, .told (.closed uri) files ∈ moves → c.session.document? uri = none →
          ∃ p, (about uri c.record).getLast? = some p ∧ p.found = []) := by
  have hstart : Course.Sound parser start ⟨start, []⟩ := hidle.sound
  have hsound := hstart.leads h
  refine ⟨hsound.genuine, fun uri => (hsound.soundFor uri).pairwise_le, ?_, fun htimers => ⟨?_, ?_⟩⟩
  · intro timer htimer hversion more c' hmore
    have hsuperseded : c.session.Superseded timer.uri timer.version :=
      ⟨hversion, hsound.timers_le timer htimer⟩
    exact (hsuperseded.leads hsound hmore).record_fired
  · intro uri d hdocument
    rcases (hsound.soundFor uri).stored d hdocument with hsettled | ⟨timer, htimer, -⟩
    · rw [hsettled, hsound.validated_eq]
    · rw [htimers] at htimer
      contradiction
  · intro uri files hclosed hdocument
    have hne := about_ne_nil_of_closed hstart h hclosed
    have hlast := List.getLast?_eq_some_getLast hne
    exact ⟨_, hlast, (hsound.soundFor uri).absent hdocument _ hlast⟩

/-- A document is changed twice before the first change is validated: when no timer is left, the
findings are those in the second text. -/
theorem settles_changed_twice :
    let start : Session := { phase := .running }
    let files : Files Id := ⟨fun _ => none, fun _ => false⟩
    let parser : Parser := fun _ _ => .error .tooDeep
    let readers : Readers := ⟨fun _ => none, fun _ => none⟩
    let first : Move := .told (.changed ['a'] ["SELECT 1".toList]) files
    let second : Move := .told (.changed ['a'] ["SELECT 2".toList]) files
    let c := ((((Course.go parser readers ⟨start, []⟩ first).go parser readers second).go
      parser readers (.elapsed 500)).go parser readers (.fired ⟨['a'], 1, 500⟩)).go
      parser readers (.fired ⟨['a'], 2, 500⟩)
    (about ['a'] c.record).getLast? =
      some (validated parser start ['a'] ⟨"SELECT 2".toList, 2⟩) := by
  intro start files parser readers first second c
  have hidle : start.Idle := ⟨rfl, rfl, rfl⟩
  have hstart : Course.Leads parser readers ⟨start, []⟩ [] ⟨start, []⟩ := .refl
  have hfirst := hstart.step first ⟨rfl, steady_of_root_eq_none rfl⟩
  have hsecond := hfirst.step second ⟨rfl, steady_of_root_eq_none rfl⟩
  have hwaited := hsecond.step (.elapsed 500) trivial
  have hfired := hwaited.step (.fired ⟨['a'], 1, 500⟩) ⟨by decide +kernel, by decide +kernel⟩
  have hleads := hfired.step (.fired ⟨['a'], 2, 500⟩) ⟨by decide +kernel, by decide +kernel⟩
  have htimers : c.session.timers = [] := by decide +kernel
  have hdocument : c.session.document? ['a'] = some ⟨"SELECT 2".toList, 2⟩ := by decide +kernel
  exact ((settles hidle hleads).2.2.2 htimers).1 ['a'] _ hdocument

end Runs

end SqlInsight.Session
