/-
The course of a session: the editor tells of documents, time passes, and validations that are due
are carried out, each without anything between its steps. What is published is recorded with the
document as the sender last saw it. Each move has one of few effects on the documents, the timers
and the record.
-/
import Mathlib.Data.List.TakeWhile
import SqlInsight.Session.Event

namespace SqlInsight.Session

open Handler (look change)

/-- Findings that were published for a document, and the document as their sender last saw it; none
if it was closed. -/
structure Publication where
  uri : Text
  found : List Diagnostic
  document? : Option Document
deriving Repr, DecidableEq

/-- The version of a document whose findings were published. -/
def Publication.version? (p : Publication) : Option Nat :=
  p.document?.map Document.version

/-- The message that publishes findings. -/
def Publication.message (p : Publication) : Message :=
  .publish p.uri p.found

def Message.isPublication : Message → Bool
  | .publish _ _ => true
  | .info _ | .warning _ => false

/-- What a message publishes, when its sender last saw the session like that. -/
def Message.publication? (seen : Session) : Message → Option Publication
  | .publish uri found => some ⟨uri, found, seen.document? uri⟩
  | .info _ | .warning _ => none

/-- What a handler publishes when nothing comes between its steps. -/
def Handler.publications {α : Type} : Handler α → Session → List Publication
  | .finish _, _ => []
  | .access change next, s => (next (change s)).publications (change s)
  | .send message next, s => (message.publication? s).toList ++ next.publications s

/-- The findings in a document of a session, as they are published. -/
def validated (parser : Parser) (s : Session) (uri : Text) (d : Document) : Publication :=
  ⟨uri, Validation.validate ⟨parser, s.settings⟩ s.schema d.text, some d⟩

/-- The session in which a document was given a text. -/
def stored (s : Session) (uri t : Text) : Session :=
  s.withNextVersion.withDocument uri ⟨t, s.lastVersion + 1⟩

def withoutTimer (s : Session) (timer : Timer) : Session :=
  { s with timers := s.timers.erase timer }

section Documents

variable (s : Session) (uri other : Text)

theorem document?_withDocument (d : Document) :
    (s.withDocument uri d).document? other =
      if other = uri then some d else s.document? other :=
  Keyed.lookup_put uri d s.documents other

theorem document?_withoutDocument :
    (s.withoutDocument uri).document? other =
      if other = uri then none else s.document? other := by
  rw [document?, document?, withoutDocument]
  induction s.documents with
  | nil => simp
  | cons entry rest ih =>
      obtain ⟨key, d⟩ := entry
      by_cases hkey : key = uri
      · subst hkey
        by_cases hother : other = key
        · simpa [hother] using ih
        · simpa [hother, List.lookup_cons, beq_false_of_ne hother] using ih
      · by_cases hother : other = key
        · subst hother
          simp [hkey]
        · simpa [hkey, List.lookup_cons, beq_false_of_ne hother] using ih

theorem document?_stored (t : Text) :
    (s.stored uri t).document? other =
      if other = uri then some ⟨t, s.lastVersion + 1⟩ else s.document? other :=
  document?_withDocument s.withNextVersion uri other _

theorem mem_insertTimer {timer other : Timer} {timers : List Timer} :
    other ∈ insertTimer timer timers ↔ other = timer ∨ other ∈ timers := by
  induction timers with
  | nil => simp [insertTimer]
  | cons first rest ih =>
      rw [insertTimer]
      split
      · rw [List.mem_cons, ih, List.mem_cons]
        exact or_left_comm
      · exact List.mem_cons

end Documents

section Handlers

variable {α β : Type} {parser : Parser} {readers : Readers} {files : Files Id} {s : Session}
  {uri : Text}

theorem run_bind (h : Handler α) (next : α → Handler β) (s : Session) :
    (h >>= next).run s =
      (((next (h.run s).1).run (h.run s).2.1).1, ((next (h.run s).1).run (h.run s).2.1).2.1,
        (h.run s).2.2 ++ ((next (h.run s).1).run (h.run s).2.1).2.2) :=
  Handler.run_andThen h next s

theorem publications_bind (h : Handler α) (next : α → Handler β) (s : Session) :
    (h >>= next).publications s =
      h.publications s ++ (next (h.run s).1).publications (h.run s).2.1 := by
  change (h.andThen next).publications s = _
  induction h generalizing s with
  | finish answer => rfl
  | access change rest ih => exact ih (change s) (change s)
  | send message rest ih =>
      rw [Handler.andThen, Handler.publications, ih, Handler.publications, List.append_assoc]
      rfl

/-- What a handler publishes are the messages with findings that it sends. -/
theorem map_message_publications (h : Handler α) (s : Session) :
    (h.publications s).map Publication.message = (h.run s).2.2.filter Message.isPublication := by
  induction h generalizing s with
  | finish answer => rfl
  | access change rest ih => exact ih (change s) (change s)
  | send message rest ih =>
      rw [Handler.publications, List.map_append, ih, Handler.run]
      cases message <;> rfl

/-- The findings of a version that a document still has are published. -/
theorem publish_of_document? (parser : Parser) {d : Document} (h : s.document? uri = some d) :
    (publish parser uri d.version).run s = ((), s, [(validated parser s uri d).message]) ∧
      (publish parser uri d.version).publications s = [validated parser s uri d] := by
  constructor
  · simp [publish, look, Handler.tell, run_bind, Handler.run, version?, h, validated,
      Publication.message]
  · simp [publish, look, Handler.tell, publications_bind, Handler.run, Handler.publications,
      version?, h, validated, Message.publication?]

/-- Nothing is done about a version that a document no longer has. -/
theorem publish_of_version?_ne (parser : Parser) {version : Nat}
    (h : s.version? uri ≠ some version) :
    (publish parser uri version).run s = ((), s, []) ∧
      (publish parser uri version).publications s = [] := by
  cases hd : s.document? uri with
  | none =>
      constructor
      · simp [publish, look, run_bind, Handler.run, hd, pure]
      · simp [publish, look, publications_bind, Handler.run, Handler.publications, hd, pure]
  | some d =>
      have hne : d.version ≠ version := by
        intro heq
        rw [version?, hd, Option.map_some, heq] at h
        exact h rfl
      constructor
      · simp [publish, look, run_bind, Handler.run, hd, hne, pure]
      · simp [publish, look, publications_bind, Handler.run, Handler.publications, hd, hne, pure]

theorem store_eq (t : Text) :
    (store uri t).run s = (s.lastVersion + 1, s.stored uri t, []) ∧
      (store uri t).publications s = [] := by
  constructor
  · simp [store, change, run_bind, Handler.run, pure, stored, withNextVersion]
  · simp [store, change, publications_bind, Handler.run, Handler.publications, pure]

theorem tellAll_eq {log : List Message} (h : ∀ message ∈ log, message.publication? s = none) :
    ((tellAll log).run s).2.1 = s ∧ (tellAll log).publications s = [] := by
  induction log with
  | nil => exact ⟨rfl, rfl⟩
  | cons message rest ih =>
      obtain ⟨hrun, hpublications⟩ := ih fun m hm => h m (List.mem_cons_of_mem message hm)
      constructor
      · simpa [tellAll, Handler.tell, run_bind, Handler.run] using hrun
      · simpa [tellAll, Handler.tell, publications_bind, Handler.run, Handler.publications,
          h message List.mem_cons_self] using hpublications

/-- Loading a workspace publishes no findings. -/
theorem publication?_of_mem_log (readers : Readers) (files : Files Id) (s : Session) (root : Text)
    (p : Project) :
    (∀ message ∈ (loadProject readers files root).2, message.publication? s = none) ∧
      ∀ message ∈ (loadSchema readers files p).2, message.publication? s = none := by
  constructor
  · intro message hmessage
    rw [loadProject] at hmessage
    split at hmessage
    · split at hmessage
      · rw [List.mem_singleton.mp hmessage]
        rfl
      · rw [List.mem_singleton.mp hmessage]
        rfl
    · contradiction
  · intro message hmessage
    rw [loadSchema] at hmessage
    split at hmessage
    · contradiction
    · split at hmessage
      · rw [List.mem_singleton.mp hmessage]
        rfl
      · rw [List.mem_singleton.mp hmessage]
        rfl

/-- The session with the workspace of a directory as its files have it. -/
def reloaded (readers : Readers) (files : Files Id) (s : Session) (root : Text) : Session :=
  { s with
    schema := (loadSchema readers files (loadProject readers files root).1).1
    settings := (loadProject readers files root).1.settings }

/-- Loading the workspace again changes the schema and the settings only, and publishes nothing. -/
theorem reload_eq (readers : Readers) (files : Files Id) (s : Session) :
    ((reload readers files).run s).2.1 = s.root.elim s (reloaded readers files s) ∧
      (reload readers files).publications s = [] := by
  cases hroot : s.root with
  | none =>
      constructor
      · simp [reload, look, run_bind, Handler.run, hroot, pure]
      · simp [reload, look, publications_bind, Handler.run, Handler.publications, hroot, pure]
  | some root =>
      obtain ⟨hproject, hschema⟩ :=
        publication?_of_mem_log readers files s root (loadProject readers files root).1
      constructor
      · simp [reload, look, change, run_bind, Handler.run, hroot, pure, tellAll_eq hproject,
          tellAll_eq hschema, reloaded]
      · simp [reload, look, change, publications_bind, Handler.run, Handler.publications, hroot,
          pure, tellAll_eq hproject, tellAll_eq hschema]

/-- The files of the workspace still have the settings and the schema of the session. -/
def Steady (readers : Readers) (files : Files Id) (s : Session) : Prop :=
  ((reload readers files).run s).2.1 = s

theorem steady_of_root_eq_none (h : s.root = none) : Steady readers files s := by
  rw [Steady, (reload_eq readers files s).1, h]
  rfl

end Handlers

/-- The session in which the workspace was loaded again. -/
def loaded (readers : Readers) (files : Files Id) (s : Session) : Session :=
  ((reload readers files).run s).2.1

section Loading

variable (readers : Readers) (files : Files Id) (s : Session)

theorem loaded_eq : loaded readers files s = s.root.elim s (reloaded readers files s) :=
  (reload_eq readers files s).1

theorem document?_loaded (uri : Text) :
    (loaded readers files s).document? uri = s.document? uri := by
  rw [loaded_eq]
  cases s.root <;> rfl

theorem timers_loaded : (loaded readers files s).timers = s.timers := by
  rw [loaded_eq]
  cases s.root <;> rfl

theorem lastVersion_loaded : (loaded readers files s).lastVersion = s.lastVersion := by
  rw [loaded_eq]
  cases s.root <;> rfl

theorem phase_loaded : (loaded readers files s).phase = s.phase := by
  rw [loaded_eq]
  cases s.root <;> rfl

theorem loaded_stored (uri t : Text) :
    loaded readers files (s.stored uri t) = (loaded readers files s).stored uri t := by
  have hroot : (s.stored uri t).root = s.root := rfl
  rw [loaded_eq, loaded_eq, hroot]
  cases s.root <;> rfl

end Loading

/-- Whether the saving of a document has the workspace loaded again: unless it comes without a text
for a document that is not open. -/
def Reloads (s : Session) (uri : Text) (t : Option Text) : Prop :=
  t ≠ none ∨ s.document? uri ≠ none

/-- A course of a session: how the session stands, and what was published until then. -/
structure Course where
  session : Session
  record : List Publication

/-- What may happen next: the editor tells of a document, while the files of the workspace are as
they are; time passes; or the validation of a timer is carried out. -/
inductive Move where
  | told (e : Event) (files : Files Id)
  | elapsed (time : Nat)
  | fired (timer : Timer)

/-- Whether an event tells of a document: that it was opened, changed, saved or closed. -/
def Event.isNotice : Event → Bool
  | .opened _ _ | .changed _ _ | .saved _ _ | .closed _ => true
  | _ => false

namespace Course

def after {α : Type} (c : Course) (h : Handler α) : Course :=
  ⟨(h.run c.session).2.1, c.record ++ h.publications c.session⟩

def go (parser : Parser) (readers : Readers) (c : Course) : Move → Course
  | .told e files => c.after (e.respond parser readers files c.session.phase)
  | .elapsed time => { c with session := { c.session with now := c.session.now + time } }
  | .fired timer =>
      after { c with session := c.session.withoutTimer timer }
        (publish parser timer.uri timer.version)

/-- Whether a move may come next: a notice, while the files leave the settings and the schema as
they are, or a timer that is due. -/
def Allows (readers : Readers) (c : Course) : Move → Prop
  | .told e files => e.isNotice = true ∧ Steady readers files c.session
  | .elapsed _ => True
  | .fired timer => timer ∈ c.session.timers ∧ timer.due ≤ c.session.now

/-- A course leads to another by some moves. -/
inductive Leads (parser : Parser) (readers : Readers) (c : Course) :
    List Move → Course → Prop where
  | refl : Leads parser readers c [] c
  | step {moves : List Move} {c' : Course} (move : Move) (h : Leads parser readers c moves c')
      (hallows : c'.Allows readers move) :
      Leads parser readers c (moves ++ [move]) (c'.go parser readers move)

end Course

/-- What a move does to a session that is under way, and what is published. -/
inductive Effect (parser : Parser) (s : Session) : Session → List Publication → Prop where
  | quiet : Effect parser s s []
  | elapsed (time : Nat) : Effect parser s { s with now := s.now + time } []
  | opened (uri t : Text) :
      Effect parser s (s.stored uri t) [validated parser s uri ⟨t, s.lastVersion + 1⟩]
  | scheduled (uri t : Text) :
      Effect parser s ((s.stored uri t).withTimer uri (s.lastVersion + 1)) []
  | again (uri : Text) (d : Document) (hdocument : s.document? uri = some d) :
      Effect parser s s [validated parser s uri d]
  | closed (uri : Text) : Effect parser s (s.withoutDocument uri) [⟨uri, [], none⟩]
  | fired (timer : Timer) (d : Document) (hdocument : s.document? timer.uri = some d)
      (hversion : d.version = timer.version) :
      Effect parser s (s.withoutTimer timer) [validated parser s timer.uri d]
  | expired (timer : Timer) (hversion : s.version? timer.uri ≠ some timer.version) :
      Effect parser s (s.withoutTimer timer) []

section Effects

variable {parser : Parser} {readers : Readers} {files : Files Id} {s : Session}

/-- A text that was just stored is published with its findings. -/
theorem publish_stored (uri t : Text) :
    (publish parser uri (s.lastVersion + 1)).run (s.stored uri t) =
        ((), s.stored uri t, [(validated parser s uri ⟨t, s.lastVersion + 1⟩).message]) ∧
      (publish parser uri (s.lastVersion + 1)).publications (s.stored uri t) =
        [validated parser s uri ⟨t, s.lastVersion + 1⟩] := by
  have hdocument : (s.stored uri t).document? uri = some ⟨t, s.lastVersion + 1⟩ := by
    rw [document?_stored, if_pos rfl]
  exact publish_of_document? parser hdocument

theorem effect_opened (uri t : Text) :
    Effect parser s (((Event.opened uri t).handler parser readers files).run s).2.1
      (((Event.opened uri t).handler parser readers files).publications s) := by
  have hsession : (((Event.opened uri t).handler parser readers files).run s).2.1 =
      s.stored uri t := by
    simp [Event.handler, run_bind, store_eq, publish_stored, Handler.run, pure]
  have hpublications : ((Event.opened uri t).handler parser readers files).publications s =
      [validated parser s uri ⟨t, s.lastVersion + 1⟩] := by
    simp [Event.handler, publications_bind, store_eq, publish_stored, Handler.publications, pure]
  rw [hsession, hpublications]
  exact .opened uri t

theorem effect_changed (uri : Text) (texts : List Text) :
    Effect parser s (((Event.changed uri texts).handler parser readers files).run s).2.1
      (((Event.changed uri texts).handler parser readers files).publications s) := by
  cases htexts : texts.getLast? with
  | none =>
      have hsession : (((Event.changed uri texts).handler parser readers files).run s).2.1 = s := by
        simp [Event.handler, htexts, Handler.run, pure]
      have hpublications :
          ((Event.changed uri texts).handler parser readers files).publications s = [] := by
        simp [Event.handler, htexts, Handler.publications, pure]
      rw [hsession, hpublications]
      exact .quiet
  | some t =>
      have hsession : (((Event.changed uri texts).handler parser readers files).run s).2.1 =
          (s.stored uri t).withTimer uri (s.lastVersion + 1) := by
        simp [Event.handler, htexts, run_bind, store_eq, schedule, change, Handler.run, pure]
      have hpublications :
          ((Event.changed uri texts).handler parser readers files).publications s = [] := by
        simp [Event.handler, htexts, publications_bind, store_eq, schedule, change,
          Handler.publications, pure]
      rw [hsession, hpublications]
      exact .scheduled uri t

section Saving

variable {uri : Text} {t : Option Text}

/-- A document that is saved is published under the settings and the schema that were just
loaded. -/
theorem effect_saved_loaded (h : s.Reloads uri t) :
    Effect parser (loaded readers files s)
        (((Event.saved uri t).handler parser readers files).run s).2.1
        (((Event.saved uri t).handler parser readers files).publications s) ∧
      ∃ d, ((Event.saved uri t).handler parser readers files).publications s =
        [validated parser (loaded readers files s) uri d] := by
  cases t with
  | some t =>
      have hload : ((reload readers files).run (s.stored uri t)).2.1 =
          (loaded readers files s).stored uri t :=
        loaded_stored readers files s uri t
      have hpublish := @publish_stored parser (loaded readers files s) uri t
      rw [lastVersion_loaded] at hpublish
      have hsession : (((Event.saved uri (some t)).handler parser readers files).run s).2.1 =
          (loaded readers files s).stored uri t := by
        simp [Event.handler, save, run_bind, store_eq, hload, hpublish, Handler.run, pure]
      have hpublications :
          ((Event.saved uri (some t)).handler parser readers files).publications s =
          [validated parser (loaded readers files s) uri ⟨t, s.lastVersion + 1⟩] := by
        simp [Event.handler, save, publications_bind, store_eq, reload_eq, hload, hpublish,
          Handler.publications, pure]
      refine ⟨?_, _, hpublications⟩
      rw [hsession, hpublications, ← lastVersion_loaded readers files s]
      exact .opened uri t
  | none =>
      obtain ⟨d, hdocument⟩ := Option.ne_none_iff_exists'.mp (h.resolve_left fun hne => hne rfl)
      have hversion : s.version? uri = some d.version := by
        rw [version?, hdocument, Option.map_some]
      have hloaded : (loaded readers files s).document? uri = some d := by
        rw [document?_loaded, hdocument]
      have hload : ((reload readers files).run s).2.1 = loaded readers files s := rfl
      have hpublish := publish_of_document? parser hloaded
      have hsession : (((Event.saved uri none).handler parser readers files).run s).2.1 =
          loaded readers files s := by
        simp [Event.handler, save, look, run_bind, hversion, hload, hpublish, Handler.run, pure]
      have hpublications : ((Event.saved uri none).handler parser readers files).publications s =
          [validated parser (loaded readers files s) uri d] := by
        simp [Event.handler, save, look, publications_bind, hversion, hload, hpublish, reload_eq,
          Handler.run, Handler.publications, pure]
      refine ⟨?_, _, hpublications⟩
      rw [hsession, hpublications]
      exact .again uri d hloaded

/-- Nothing is done when a document is saved that is not open. -/
theorem saved_eq (h : ¬ s.Reloads uri t) :
    (((Event.saved uri t).handler parser readers files).run s).2.1 = s ∧
      ((Event.saved uri t).handler parser readers files).publications s = [] := by
  rw [Reloads, not_or, not_not, not_not] at h
  obtain ⟨rfl, hdocument⟩ := h
  have hversion : s.version? uri = none := by rw [version?, hdocument, Option.map_none]
  constructor
  · simp [Event.handler, save, look, run_bind, hversion, Handler.run, pure]
  · simp [Event.handler, save, look, publications_bind, hversion, Handler.run,
      Handler.publications, pure]

end Saving

theorem effect_saved (uri : Text) (t : Option Text) (hsteady : Steady readers files s) :
    Effect parser s (((Event.saved uri t).handler parser readers files).run s).2.1
      (((Event.saved uri t).handler parser readers files).publications s) := by
  by_cases h : s.Reloads uri t
  · have hload : loaded readers files s = s := hsteady
    have heffect := (@effect_saved_loaded parser readers files s uri t h).1
    rwa [hload] at heffect
  · rw [(saved_eq h).1, (saved_eq h).2]
    exact .quiet

theorem closed_eq (uri : Text) :
    (((Event.closed uri).handler parser readers files).run s).2.1 = s.withoutDocument uri ∧
      ((Event.closed uri).handler parser readers files).publications s = [⟨uri, [], none⟩] := by
  have hdocument : (s.withoutDocument uri).document? uri = none := by
    rw [document?_withoutDocument, if_pos rfl]
  constructor
  · simp [Event.handler, change, Handler.tell, run_bind, Handler.run, pure]
  · simp [Event.handler, change, Handler.tell, publications_bind, Handler.run,
      Handler.publications, pure, Message.publication?, hdocument]

theorem effect_notice {e : Event} (he : e.isNotice = true) (hsteady : Steady readers files s) :
    Effect parser s ((e.handler parser readers files).run s).2.1
      ((e.handler parser readers files).publications s) := by
  cases e with
  | opened uri t => exact effect_opened uri t
  | changed uri texts => exact effect_changed uri texts
  | saved uri t => exact effect_saved uri t hsteady
  | closed uri =>
      rw [(closed_eq uri).1, (closed_eq uri).2]
      exact .closed uri
  | _ => contradiction

theorem respond_of_running {e : Event} (he : e.isNotice = true) :
    e.respond parser readers files .running = e.handler parser readers files := by
  cases e with
  | opened uri t => rfl
  | changed uri texts => rfl
  | saved uri t => rfl
  | closed uri => rfl
  | _ => contradiction

/-- A move that may come next in a session under way has one of the effects. -/
theorem effect_of_allows {c : Course} {move : Move} (hphase : c.session.phase = .running)
    (h : c.Allows readers move) :
    ∃ published, Effect parser c.session (c.go parser readers move).session published ∧
      (c.go parser readers move).record = c.record ++ published := by
  cases move with
  | told e files =>
      refine ⟨(e.handler parser readers files).publications c.session, ?_, ?_⟩
      · rw [Course.go, hphase, respond_of_running h.1]
        exact effect_notice h.1 h.2
      · rw [Course.go, hphase, respond_of_running h.1]
        rfl
  | elapsed time => exact ⟨[], .elapsed time, (List.append_nil _).symm⟩
  | fired timer =>
      by_cases hversion : c.session.version? timer.uri = some timer.version
      · obtain ⟨d, hdocument, heq⟩ := Option.map_eq_some_iff.mp hversion
        have hpublish := publish_of_document? parser
          (s := c.session.withoutTimer timer) hdocument
        rw [heq] at hpublish
        refine ⟨[validated parser c.session timer.uri d], ?_, ?_⟩
        · rw [Course.go, Course.after, hpublish.1]
          exact .fired timer d hdocument heq
        · rw [Course.go, Course.after, hpublish.2]
          rfl
      · have hpublish := publish_of_version?_ne parser
          (s := c.session.withoutTimer timer) hversion
        refine ⟨[], ?_, ?_⟩
        · rw [Course.go, Course.after, hpublish.1]
          exact .expired timer hversion
        · rw [Course.go, Course.after, hpublish.2]

end Effects

namespace Course

variable {parser : Parser} {readers : Readers} {c c' c'' : Course} {moves more : List Move}

theorem Leads.trans (h : Leads parser readers c moves c') (h' : Leads parser readers c' more c'') :
    Leads parser readers c (moves ++ more) c'' := by
  induction h' with
  | refl => simpa using h
  | step move _ hallows ih =>
      rw [← List.append_assoc]
      exact ih.step move hallows

theorem Leads.of_allows (parser : Parser) (readers : Readers) (move : Move)
    (h : c.Allows readers move) :
    Leads parser readers c [move] (c.go parser readers move) :=
  Leads.refl.step move h

theorem run_publish (uri : Text) (version : Nat) (s : Session) :
    ((publish parser uri version).run s).2.1 = s := by
  by_cases hversion : s.version? uri = some version
  · obtain ⟨d, hdocument, heq⟩ := Option.map_eq_some_iff.mp hversion
    rw [← heq, (publish_of_document? parser hdocument).1]
  · rw [(publish_of_version?_ne parser hversion).1]

/-- Validations carried out one after the other leave the session as it is. -/
theorem run_publishAll (due : List Timer) (s : Session) :
    ((publishAll parser due).run s).2.1 = s := by
  induction due with
  | nil => rfl
  | cons timer rest ih =>
      rw [publishAll, run_bind]
      simpa [run_publish] using ih

/-- What is published does not depend on the timers that are left. -/
theorem publications_publish_timers (uri : Text) (version : Nat) (s : Session)
    (timers : List Timer) :
    (publish parser uri version).publications { s with timers } =
      (publish parser uri version).publications s := by
  by_cases hversion : s.version? uri = some version
  · obtain ⟨d, hdocument, heq⟩ := Option.map_eq_some_iff.mp hversion
    have htimers : { s with timers }.document? uri = some d := hdocument
    rw [← heq, (publish_of_document? parser hdocument).2, (publish_of_document? parser htimers).2]
    rfl
  · have htimers : { s with timers }.version? uri ≠ some version := hversion
    rw [(publish_of_version?_ne parser hversion).2, (publish_of_version?_ne parser htimers).2]

/-- The validations of some timers that are due, carried out one after the other. -/
theorem leads_publishAll (parser : Parser) (readers : Readers) {due rest : List Timer}
    (hdue : ∀ timer ∈ due, timer.due ≤ c.session.now)
    (htimers : c.session.timers = due ++ rest) :
    Leads parser readers c (due.map Move.fired)
      (after { c with session := { c.session with timers := rest } } (publishAll parser due)) := by
  induction due generalizing c with
  | nil =>
      obtain rfl : c.session.timers = rest := htimers
      have hafter : after c (publishAll parser []) = c := by
        rw [after, run_publishAll]
        simp [publishAll, Handler.publications, pure]
      change Leads parser readers c [] (after c (publishAll parser []))
      rw [hafter]
      exact .refl
  | cons timer more ih =>
      have hallows : c.Allows readers (.fired timer) := by
        constructor
        · rw [htimers]
          exact List.mem_cons_self
        · exact hdue timer List.mem_cons_self
      have hgo : c.go parser readers (.fired timer) = ⟨{ c.session with timers := more ++ rest },
          c.record ++ (publish parser timer.uri timer.version).publications c.session⟩ := by
        have hwithout : c.session.withoutTimer timer =
            { c.session with timers := more ++ rest } := by
          rw [withoutTimer, htimers, List.cons_append, List.erase_cons_head]
        rw [go, hwithout, after, run_publish, publications_publish_timers]
      have hrest := ih (c := c.go parser readers (.fired timer)) (by
        rw [hgo]
        exact fun other hother => hdue other (List.mem_cons_of_mem timer hother)) (by rw [hgo])
      have hafter : after { c with session := { c.session with timers := rest } }
          (publishAll parser (timer :: more)) =
          after { c.go parser readers (.fired timer) with
            session := { (c.go parser readers (.fired timer)).session with timers := rest } }
            (publishAll parser more) := by
        rw [hgo, after, after, run_publishAll, run_publishAll, publishAll, publications_bind,
          run_publish, publications_publish_timers, List.append_assoc]
      rw [hafter, List.map_cons]
      exact (Leads.of_allows parser readers _ hallows).trans hrest

/-- Time passes, and the validations that are then due are carried out. -/
theorem leads_elapsed (parser : Parser) (readers : Readers) (files : Files Id) (c : Course)
    (time : Nat) : ∃ moves, Leads parser readers c moves
      (c.after (Event.handler parser readers files (.elapsed time))) := by
  let s : Session := { c.session with now := c.session.now + time }
  have htimers : s.timers = s.dueTimers ++ s.withoutDueTimers.timers :=
    List.takeWhile_append_dropWhile.symm
  have hdue : ∀ timer ∈ s.dueTimers, timer.due ≤ s.now := by
    intro timer htimer
    simpa using List.mem_takeWhile_imp htimer
  have hlater :=
    leads_publishAll parser readers (c := c.go parser readers (.elapsed time)) hdue htimers
  have hafter : c.after (Event.handler parser readers files (.elapsed time)) =
      after { c.go parser readers (.elapsed time) with session := s.withoutDueTimers }
        (publishAll parser s.dueTimers) := by
    simp [after, go, Event.handler, change, run_bind, publications_bind, Handler.run,
      Handler.publications, pure, s]
  rw [hafter]
  exact ⟨_, (Leads.of_allows parser readers (.elapsed time) trivial).trans hlater⟩

/-- What `handle` does about a notice or about time that passes, and what the validations do that
are then due, is a course of the session, and the record has the findings that it sends. -/
theorem leads_handle {files : Files Id} {e : Event}
    (he : (e.isNotice = true ∧ Steady readers files c.session) ∨ ∃ time, e = .elapsed time) :
    ∃ moves c', Leads parser readers c moves c' ∧
      c'.session = (handle parser readers files c.session e).2.1 ∧
      c'.record.map Publication.message = c.record.map Publication.message ++
        (handle parser readers files c.session e).2.2.filter Message.isPublication := by
  have hfirst : ∃ moves, Leads parser readers c moves
      (c.after (e.respond parser readers files c.session.phase)) := by
    rcases he with hnotice | ⟨time, rfl⟩
    · exact ⟨_, Leads.of_allows parser readers (.told e files) hnotice⟩
    · have hrespond : Event.respond parser readers files c.session.phase (.elapsed time) =
          Event.handler parser readers files (.elapsed time) := by
        cases c.session.phase <;> rfl
      rw [hrespond]
      exact leads_elapsed parser readers files c time
  obtain ⟨moves, hfirst⟩ := hfirst
  obtain ⟨more, hlater⟩ :=
    leads_elapsed parser readers files (c.after (e.respond parser readers files c.session.phase)) 0
  refine ⟨_, _, hfirst.trans hlater, rfl, ?_⟩
  simp only [after, handle, List.map_append, map_message_publications, List.filter_append,
    List.append_assoc]

end Course

end SqlInsight.Session
