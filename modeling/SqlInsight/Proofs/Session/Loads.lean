/-
Loads of the workspace that take turns with validations and completions. A load puts the schema in
place and then, one step later, the settings; a request looks at the settings and then at the
schema. What each of them looks at is of one load as a whole. Both are of the same load as long as
no load comes between the two steps of another job, and no request between those of a load.
-/
import SqlInsight.Proofs.Session.Course

namespace SqlInsight.Session

open Handler (look change)

/-- What is carried out in turns: the workspace is loaded, a version is validated, or candidates are
found. -/
inductive Duty where
  | load (files : Files Id)
  | validate (uri : Text) (version : Nat)
  | complete (uri : Text) (p : Position)

namespace Duty

def isLoad : Duty → Bool
  | .load _ => true
  | .validate _ _ | .complete _ _ => false

/-- How a duty is carried out. -/
def handler (parser : Parser) (readers : Readers) : Duty → Handler Reply
  | .load files => do
      reload readers files
      return .nothing
  | .validate uri version => do
      publish parser uri version
      return .nothing
  | .complete uri p => Session.complete parser uri p

end Duty

/-- How a session stands, and which of the jobs put its settings and its schema in place; none if
they were there from the beginning. -/
structure Stage where
  session : Session
  settingsBy : Option Nat := none
  schemaBy : Option Nat := none
deriving DecidableEq

/-- A duty under way: what is left of it, how the session stood behind each of its steps at it so
far, and what it sent. -/
structure Job where
  duty : Duty
  rest : Handler Reply
  past : List Stage
  sent : List Message

/-- A session and the jobs under way in it. -/
structure Crew where
  stage : Stage
  jobs : List Job

/-- What may come next: a job begins; something else happens to the session, which leaves the
settings and the schema as they are; or one of the jobs takes a step. -/
inductive Turn where
  | begins (duty : Duty)
  | meanwhile (s : Session)
  | step (i : Nat)

namespace Job

/-- How the session stands behind a step of the job with the number `i`. The second step of a load
puts the schema in place, its third one the settings. -/
def mark (job : Job) (i : Nat) (now : Stage) (s : Session) : Stage where
  session := s
  settingsBy := if job.duty.isLoad ∧ job.past.length = 2 then some i else now.settingsBy
  schemaBy := if job.duty.isLoad ∧ job.past.length = 1 then some i else now.schemaBy

def step? (job : Job) (i : Nat) (now : Stage) : Option (Stage × Job) :=
  match job.rest with
  | .finish _ => none
  | .send message next => some (now, { job with rest := next, sent := job.sent ++ [message] })
  | .access change next =>
      let after := job.mark i now (change now.session)
      some (after, { job with rest := next after.session, past := job.past ++ [after] })

/-- Whether a job has taken the first of the two steps that belong together, and not the second: to
put the schema and the settings in place, or to look at the settings and at the schema. -/
def isHalfway (job : Job) : Bool :=
  job.past.length == 2

/-- Whether one of these two steps comes next. -/
def takesPart (job : Job) : Bool :=
  match job.rest with
  | .access _ _ => job.past.length == 1 || job.past.length == 2
  | .finish _ | .send _ _ => false

def reply? (job : Job) : Option Reply :=
  match job.rest with
  | .finish reply => some reply
  | .access _ _ | .send _ _ => none

def load? (readers : Readers) (job : Job) : Option (Settings × Option Schema) :=
  match job.duty, job.past with
  | .load files, first :: _ => first.session.root.map fun root =>
      ((loadProject readers files root).1.settings,
        (loadSchema readers files (loadProject readers files root).1).1)
  | _, _ => none

end Job

namespace Crew

/-- A turn, if it may come next. -/
def turn? (parser : Parser) (readers : Readers) (c : Crew) : Turn → Option Crew
  | .begins duty => some { c with jobs := c.jobs ++ [⟨duty, duty.handler parser readers, [], []⟩] }
  | .meanwhile s =>
      if s.settings = c.stage.session.settings ∧ s.schema = c.stage.session.schema then
        some { c with stage := { c.stage with session := s } }
      else none
  | .step i => do
      let job ← c.jobs[i]?
      let (stage, job) ← job.step? i c.stage
      return ⟨stage, c.jobs.set i job⟩

/-- Some turns one after the other. -/
def run? (parser : Parser) (readers : Readers) (c : Crew) (turns : List Turn) : Option Crew :=
  turns.foldlM (turn? parser readers) c

/-- Whether the two steps of every load and those of the request with the number `i` stay apart:
none of them is taken while another one of these jobs is between its two. -/
def Apart (i : Nat) (c : Crew) : Turn → Prop
  | .step j => ∀ job ∈ c.jobs[j]?, job.takesPart = true → job.duty.isLoad = true ∨ j = i →
      ∀ k < c.jobs.length, ∀ other ∈ c.jobs[k]?, other.duty.isLoad = true ∨ k = i → k ≠ j →
        other.isHalfway = false
  | .begins _ | .meanwhile _ => True

/-- Whether something holds before every turn. -/
def Along (parser : Parser) (readers : Readers) (holds : Crew → Turn → Prop) :
    Crew → List Turn → Prop
  | _, [] => True
  | c, turn :: rest =>
    holds c turn ∧ ∀ c' ∈ c.turn? parser readers turn, Along parser readers holds c' rest

end Crew

/-- The settings and the schema that were there from the beginning, or that a job loads. -/
def installed (readers : Readers) (start : Session) (jobs : List Job) :
    Option Nat → Option (Settings × Option Schema)
  | none => some (start.settings, start.schema)
  | some i => jobs[i]?.bind (Job.load? readers)

/-- A session with the settings of another one and the schema of a third one. -/
def under (s settings schema : Session) : Session :=
  { s with settings := settings.settings, schema := schema.schema }

section Decidable

instance Crew.decidableApart (i : Nat) (c : Crew) : (turn : Turn) → Decidable (Apart i c turn)
  | .step j => inferInstanceAs (Decidable (∀ job ∈ c.jobs[j]?, job.takesPart = true →
      job.duty.isLoad = true ∨ j = i → ∀ k < c.jobs.length, ∀ other ∈ c.jobs[k]?,
        other.duty.isLoad = true ∨ k = i → k ≠ j → other.isHalfway = false))
  | .begins _ | .meanwhile _ => isTrue trivial

instance Crew.decidableAlong (parser : Parser) (readers : Readers)
    (holds : Crew → Turn → Prop) [∀ c turn, Decidable (holds c turn)] :
    (c : Crew) → (turns : List Turn) → Decidable (Along parser readers holds c turns)
  | _, [] => isTrue trivial
  | c, turn :: rest =>
      have := fun c' => decidableAlong parser readers holds c' rest
      inferInstanceAs
        (Decidable (holds c turn ∧
          ∀ c' ∈ c.turn? parser readers turn, Along parser readers holds c' rest))

end Decidable

/-- Whether a handler that saw the sessions `seen` and sent `sent` only makes changes that `rule`
allows, whatever others do between its steps; and what holds of its answer. -/
def Handler.Obeys {α : Type} (rule : List Session → (Session → Session) → Prop)
    (post : List Session → List Message → α → Prop) :
    Handler α → List Session → List Message → Prop
  | .finish answer, seen, sent => post seen sent answer
  | .access change next, seen, sent =>
      rule seen change ∧ ∀ now, (next (change now)).Obeys rule post (seen ++ [change now]) sent
  | .send message next, seen, sent => next.Obeys rule post seen (sent ++ [message])

namespace Duty

/-- The change that a duty makes when it saw the sessions `seen`: a load puts the schema and then
the settings in place that the files give for the root it saw; nothing else is changed. -/
def Rule (readers : Readers) (duty : Duty) (seen : List Session)
    (change : Session → Session) : Prop :=
  match duty, seen with
  | .load files, [first] => ∃ root, first.root = some root ∧ change = fun s =>
      { s with schema := (loadSchema readers files (loadProject readers files root).1).1 }
  | .load files, [first, _] => ∃ root, first.root = some root ∧ change = fun s =>
      { s with settings := (loadProject readers files root).1.settings }
  | _, _ => change = id

/-- What a request comes to that saw the sessions `seen`: nothing; or what it comes to at once in
the first of them with the settings of the second one and the schema of the third one. -/
def Outcome (parser : Parser) (readers : Readers) (duty : Duty) (seen : List Session)
    (sent : List Message) (answer : Reply) : Prop :=
  (sent = [] ∧ answer = .nothing) ∨
    ∃ first second third more, seen = first :: second :: third :: more ∧
      answer = ((duty.handler parser readers).run (first.under second third)).1 ∧
      sent = ((duty.handler parser readers).run (first.under second third)).2.2

end Duty

section Obeying

variable {α β : Type} {rule : List Session → (Session → Session) → Prop} {seen : List Session}
  {sent : List Message}

theorem Handler.Obeys.bind {h : Handler α} {next : α → Handler β}
    {post : List Session → List Message → β → Prop}
    (hh : h.Obeys rule (fun seen sent answer => (next answer).Obeys rule post seen sent)
      seen sent) :
    (h >>= next).Obeys rule post seen sent := by
  change (h.andThen next).Obeys rule post seen sent
  induction h generalizing seen sent with
  | finish answer => exact hh
  | access change rest ih => exact ⟨hh.1, fun now => ih _ (hh.2 now)⟩
  | send message rest ih => exact ih hh

theorem Handler.Obeys.imp {h : Handler α} {post post' : List Session → List Message → α → Prop}
    (hh : h.Obeys rule post seen sent)
    (himp : ∀ seen sent answer, post seen sent answer → post' seen sent answer) :
    h.Obeys rule post' seen sent := by
  induction h generalizing seen sent with
  | finish answer => exact himp seen sent answer hh
  | access change rest ih => exact ⟨hh.1, fun now => ih _ (hh.2 now)⟩
  | send message rest ih => exact ih hh

theorem obeys_look {post : List Session → List Message → Session → Prop} (hrule : rule seen id)
    (hpost : ∀ now, post (seen ++ [now]) sent now) : look.Obeys rule post seen sent :=
  ⟨hrule, hpost⟩

theorem obeys_change {f : Session → Session} {post : List Session → List Message → Session → Prop}
    (hrule : rule seen f) (hpost : ∀ now, post (seen ++ [f now]) sent (f now)) :
    (change f).Obeys rule post seen sent :=
  ⟨hrule, hpost⟩

theorem obeys_tellAll {log : List Message} {post : List Session → List Message → Unit → Prop}
    (hpost : post seen (sent ++ log) ()) : (tellAll log).Obeys rule post seen sent := by
  induction log generalizing sent with
  | nil =>
      rw [List.append_nil] at hpost
      exact hpost
  | cons message rest ih =>
      refine .bind (h := Handler.tell message) ?_
      change (tellAll rest).Obeys rule post seen (sent ++ [message])
      refine ih ?_
      rw [List.append_assoc]
      exact hpost

variable {parser : Parser} {readers : Readers}

/-- A load looks at the root, and then puts the schema and the settings in place. -/
theorem obeys_load (files : Files Id) :
    ((Duty.load files).handler parser readers).Obeys ((Duty.load files).Rule readers)
      (fun _ _ _ => True) [] [] := by
  refine .bind (.bind (obeys_look rfl fun now => ?_))
  cases hroot : now.root with
  | none => trivial
  | some root =>
      refine .bind (obeys_tellAll (.bind (obeys_tellAll ?_)))
      refine .bind (obeys_change ⟨root, hroot, rfl⟩ fun later => ?_)
      exact .bind (obeys_change ⟨root, hroot, rfl⟩ fun last => trivial)

/-- A validation looks at the document, the settings, the schema and the version of the document. -/
theorem obeys_validate (uri : Text) (version : Nat) :
    ((Duty.validate uri version).handler parser readers).Obeys
      ((Duty.validate uri version).Rule readers)
      ((Duty.validate uri version).Outcome parser readers) [] [] := by
  refine .bind (.bind (obeys_look rfl fun first => ?_))
  cases hdocument : first.document? uri with
  | none => exact Or.inl ⟨rfl, rfl⟩
  | some d =>
      by_cases hversion : d.version = version
      · simp only [hversion, ne_eq, not_true_eq_false, if_false]
        refine .bind (obeys_look rfl fun settled => .bind (obeys_look rfl fun schema => ?_))
        refine .bind (obeys_look rfl fun last => ?_)
        by_cases hlast : last.version? uri = some version
        · simp only [hlast, not_true_eq_false, if_false]
          have hunder : (first.under settled schema).document? uri = some d := hdocument
          have hrun := (publish_of_document? parser hunder).1
          rw [hversion] at hrun
          refine Or.inr ⟨first, settled, schema, [last], rfl, ?_, ?_⟩
          · simp [Duty.handler, run_bind, hrun, Handler.run, pure]
          · simp [Duty.handler, run_bind, hrun, Handler.run, pure]
            rfl
        · simp only [hlast, not_false_eq_true, if_true]
          exact Or.inl ⟨rfl, rfl⟩
      · simp only [hversion, ne_eq, not_false_eq_true, if_true]
        exact Or.inl ⟨rfl, rfl⟩

/-- A completion looks at the document, the settings and the schema. -/
theorem obeys_complete (uri : Text) (p : Position) :
    ((Duty.complete uri p).handler parser readers).Obeys ((Duty.complete uri p).Rule readers)
      ((Duty.complete uri p).Outcome parser readers) [] [] := by
  refine .bind (obeys_look rfl fun first => ?_)
  cases hdocument : first.document? uri with
  | none => exact Or.inl ⟨rfl, rfl⟩
  | some d =>
      cases hoffset : d.text.offset? p with
      | none =>
          simp only [hoffset]
          exact Or.inl ⟨rfl, rfl⟩
      | some offset =>
          simp only [hoffset]
          refine .bind (obeys_look rfl fun settled => .bind (obeys_look rfl fun schema => ?_))
          have hunder : (first.under settled schema).document? uri = some d := hdocument
          refine Or.inr ⟨first, settled, schema, [], rfl, ?_, ?_⟩
          · simp [Duty.handler, Session.complete, look, run_bind, Handler.run, hunder, hoffset,
              pure]
            rfl
          · simp [Duty.handler, Session.complete, look, run_bind, Handler.run, hunder, hoffset,
              pure]

/-- Every duty obeys its rule, and a request has its outcome. -/
theorem obeys_handler (duty : Duty) :
    (duty.handler parser readers).Obeys (duty.Rule readers)
      (fun seen sent answer => duty.isLoad = false → duty.Outcome parser readers seen sent answer)
      [] [] := by
  cases duty with
  | load files => exact (obeys_load files).imp fun _ _ _ _ hload => by contradiction
  | validate uri version => exact (obeys_validate uri version).imp fun _ _ _ h _ => h
  | complete uri p => exact (obeys_complete uri p).imp fun _ _ _ h _ => h

end Obeying

/-- Whether what is left of a job obeys the rule of its duty. -/
def Job.Sound (parser : Parser) (readers : Readers) (job : Job) : Prop :=
  job.rest.Obeys (job.duty.Rule readers)
    (fun seen sent answer =>
      job.duty.isLoad = false → job.duty.Outcome parser readers seen sent answer)
    (job.past.map Stage.session) job.sent

/-- Whether the settings and the schema of a stage are those that it says. -/
structure Stage.Genuine (readers : Readers) (start : Session) (jobs : List Job)
    (stage : Stage) : Prop where
  settings : ∃ load ∈ installed readers start jobs stage.settingsBy, stage.session.settings = load.1
  schema : ∃ load ∈ installed readers start jobs stage.schemaBy, stage.session.schema = load.2

/-- What holds of a crew in every run that began in the session `start`. -/
structure Crew.Sound (parser : Parser) (readers : Readers) (start : Session) (c : Crew) : Prop where
  jobs : ∀ job ∈ c.jobs, job.Sound parser readers
  stage : c.stage.Genuine readers start c.jobs
  past : ∀ job ∈ c.jobs, ∀ stage ∈ job.past, stage.Genuine readers start c.jobs

section Stages

variable {parser : Parser} {readers : Readers} {start : Session} {jobs jobs' : List Job}
  {job job' : Job}
  {stage now after : Stage} {i : Nat}

/-- A stage stays genuine as long as all that was loaded stays so. -/
theorem Stage.Genuine.mono (h : stage.Genuine readers start jobs)
    (hkept : ∀ source, ∀ load ∈ installed readers start jobs source,
      load ∈ installed readers start jobs' source) :
    stage.Genuine readers start jobs' := by
  obtain ⟨⟨first, hfirst, hsettings⟩, ⟨second, hsecond, hschema⟩⟩ := h
  exact ⟨⟨first, hkept _ _ hfirst, hsettings⟩, ⟨second, hkept _ _ hsecond, hschema⟩⟩

/-- A job that goes on has loaded what it had loaded. -/
theorem Job.load?_of_append {more : List Stage} (hduty : job'.duty = job.duty)
    (hpast : job'.past = job.past ++ more) {load : Settings × Option Schema}
    (h : load ∈ job.load? readers) : load ∈ job'.load? readers := by
  obtain ⟨duty, rest, past, sent⟩ := job
  obtain ⟨duty', rest', past', sent'⟩ := job'
  obtain rfl : duty' = duty := hduty
  obtain rfl : past' = past ++ more := hpast
  cases duty' with
  | load files =>
      cases past with
      | nil => contradiction
      | cons first behind => exact h
  | validate uri version => contradiction
  | complete uri p => contradiction

theorem installed_set {more : List Stage} (hjob : jobs[i]? = some job)
    (hduty : job'.duty = job.duty) (hpast : job'.past = job.past ++ more) (source : Option Nat) :
    ∀ load ∈ installed readers start jobs source,
      load ∈ installed readers start (jobs.set i job') source := by
  intro load hload
  cases source with
  | none => exact hload
  | some k =>
      obtain ⟨other, hother, hload⟩ := Option.bind_eq_some_iff.mp hload
      rw [installed, List.getElem?_set]
      by_cases hk : i = k
      · subst hk
        obtain rfl := Option.some.inj (hjob.symm.trans hother)
        have hlength : i < jobs.length := (List.getElem?_eq_some_iff.mp hjob).1
        rw [if_pos rfl, if_pos hlength, Option.bind_some]
        exact Job.load?_of_append hduty hpast hload
      · rw [if_neg hk, hother]
        exact hload

theorem installed_append (more : List Job) (source : Option Nat) :
    ∀ load ∈ installed readers start jobs source,
      load ∈ installed readers start (jobs ++ more) source := by
  intro load hload
  cases source with
  | none => exact hload
  | some k =>
      obtain ⟨other, hother, hload⟩ := Option.bind_eq_some_iff.mp hload
      have hlength : k < jobs.length := (List.getElem?_eq_some_iff.mp hother).1
      rw [installed, List.getElem?_append_left hlength, hother]
      exact hload

/-- A step that obeys the rule of its duty leaves a genuine stage. -/
theorem Stage.Genuine.mark (h : now.Genuine readers start jobs) {change : Session → Session}
    (hrule : job.duty.Rule readers (job.past.map Stage.session) change)
    (hload : ∀ load ∈ job.load? readers, load ∈ installed readers start jobs (some i)) :
    (job.mark i now (change now.session)).Genuine readers start jobs := by
  obtain ⟨duty, rest, past, sent⟩ := job
  cases duty with
  | load files =>
      rcases past with _ | ⟨first, _ | ⟨second, _ | ⟨third, past⟩⟩⟩
      · obtain rfl : change = id := hrule
        exact ⟨h.settings, h.schema⟩
      · obtain ⟨root, hroot, rfl⟩ := hrule
        have hloaded := hload _ (Option.map_eq_some_iff.mpr ⟨root, hroot, rfl⟩)
        exact ⟨h.settings, _, hloaded, rfl⟩
      · obtain ⟨root, hroot, rfl⟩ := hrule
        have hloaded := hload _ (Option.map_eq_some_iff.mpr ⟨root, hroot, rfl⟩)
        exact ⟨⟨_, hloaded, rfl⟩, h.schema⟩
      · obtain rfl : change = id := hrule
        have hlong : ¬ (past.length + 3 = 2) ∧ ¬ (past.length + 3 = 1) := by omega
        refine ⟨?_, ?_⟩
        · simpa [Job.mark, hlong.1] using h.settings
        · simpa [Job.mark, hlong.2] using h.schema
  | validate uri version =>
      obtain rfl : change = id := hrule
      exact ⟨h.settings, h.schema⟩
  | complete uri p =>
      obtain rfl : change = id := hrule
      exact ⟨h.settings, h.schema⟩

/-- A step sends a message, or it is one at the session and is marked. -/
theorem Job.step?_cases (hstep : job.step? i now = some (after, job')) :
    (after = now ∧ ∃ message next, job.rest = .send message next ∧
        job' = { job with rest := next, sent := job.sent ++ [message] }) ∨
      ∃ change next, job.rest = .access change next ∧
        after = job.mark i now (change now.session) ∧
        job' = { job with rest := next after.session, past := job.past ++ [after] } := by
  obtain ⟨duty, rest, past, sent⟩ := job
  cases rest with
  | finish answer => contradiction
  | send message next =>
      obtain ⟨rfl, rfl⟩ := Option.some.inj hstep
      exact Or.inl ⟨rfl, message, next, rfl, rfl⟩
  | access change next =>
      obtain ⟨rfl, rfl⟩ := Option.some.inj hstep
      exact Or.inr ⟨change, next, rfl, rfl, rfl⟩

end Stages

section Crews

variable {parser : Parser} {readers : Readers} {start : Session} {c c' : Crew} {turn : Turn}
  {turns : List Turn}

/-- A crew stays sound when a job goes on and leaves a genuine stage. -/
theorem Crew.Sound.set (h : c.Sound parser readers start) {i : Nat} {job job' : Job} {after : Stage}
    {more : List Stage} (hjob : c.jobs[i]? = some job) (hduty : job'.duty = job.duty)
    (hpast : job'.past = job.past ++ more) (hmore : ∀ stage ∈ more, stage = after)
    (hsound : job'.Sound parser readers)
    (hafter : after.Genuine readers start (c.jobs.set i job')) :
    Crew.Sound parser readers start ⟨after, c.jobs.set i job'⟩ := by
  have hkept : ∀ source, ∀ load ∈ installed readers start c.jobs source,
      load ∈ installed readers start (c.jobs.set i job') source :=
    installed_set hjob hduty hpast
  refine ⟨?_, hafter, ?_⟩
  · intro other hother
    rcases List.mem_or_eq_of_mem_set hother with hold | rfl
    · exact h.jobs other hold
    · exact hsound
  · intro other hother stage hstage
    rcases List.mem_or_eq_of_mem_set hother with hold | rfl
    · exact (h.past other hold stage hstage).mono hkept
    · rw [hpast, List.mem_append] at hstage
      rcases hstage with hbefore | hnew
      · exact (h.past job (List.mem_of_getElem? hjob) stage hbefore).mono hkept
      · rw [hmore stage hnew]
        exact hafter

/-- A step of a job leaves a sound crew. -/
theorem Crew.Sound.step (h : c.Sound parser readers start) {i : Nat} {job job' : Job}
    {after : Stage}
    (hjob : c.jobs[i]? = some job) (hstep : job.step? i c.stage = some (after, job')) :
    Crew.Sound parser readers start ⟨after, c.jobs.set i job'⟩ := by
  have hsound : job.Sound parser readers := h.jobs job (List.mem_of_getElem? hjob)
  rw [Job.Sound] at hsound
  rcases Job.step?_cases hstep with
    ⟨rfl, message, next, hrest, rfl⟩ | ⟨change, next, hrest, rfl, rfl⟩
  · rw [hrest] at hsound
    let job' : Job := { job with rest := next, sent := job.sent ++ [message] }
    have hpast : job'.past = job.past ++ [] := (List.append_nil job.past).symm
    have hkept : ∀ source, ∀ load ∈ installed readers start c.jobs source,
        load ∈ installed readers start (c.jobs.set i job') source :=
      installed_set hjob rfl hpast
    exact h.set hjob rfl hpast (by simp) hsound (h.stage.mono hkept)
  · rw [hrest] at hsound
    obtain ⟨hrule, hnext⟩ := hsound
    let after := job.mark i c.stage (change c.stage.session)
    let job' : Job := { job with rest := next after.session, past := job.past ++ [after] }
    have hkept : ∀ source, ∀ load ∈ installed readers start c.jobs source,
        load ∈ installed readers start (c.jobs.set i job') source :=
      installed_set hjob rfl rfl
    refine h.set hjob rfl rfl (by simp) ?_ ?_
    · have hgoes := hnext c.stage.session
      rw [Job.Sound, List.map_append]
      exact hgoes
    · refine (h.stage.mono hkept).mark hrule fun load hload => ?_
      refine hkept (some i) load ?_
      rw [installed, hjob]
      exact hload

theorem Crew.turn?_step_eq_some {i : Nat} :
    c.turn? parser readers (.step i) = some c' ↔ ∃ job after job', c.jobs[i]? = some job ∧
      job.step? i c.stage = some (after, job') ∧ c' = ⟨after, c.jobs.set i job'⟩ := by
  constructor
  · intro h
    obtain ⟨job, hjob, hrest⟩ := Option.bind_eq_some_iff.mp h
    obtain ⟨⟨after, job'⟩, hstep, hc'⟩ := Option.bind_eq_some_iff.mp hrest
    exact ⟨job, after, job', hjob, hstep, (Option.some.inj hc').symm⟩
  · rintro ⟨job, after, job', hjob, hstep, rfl⟩
    simp [turn?, hjob, hstep]

/-- A crew stays sound from turn to turn. -/
theorem Crew.Sound.next (h : c.Sound parser readers start)
    (hturn : c.turn? parser readers turn = some c') :
    c'.Sound parser readers start := by
  cases turn with
  | begins duty =>
      obtain rfl := Option.some.inj hturn
      have hkept : ∀ source, ∀ load ∈ installed readers start c.jobs source,
          load ∈ installed readers start
            (c.jobs ++ [⟨duty, duty.handler parser readers, [], []⟩]) source :=
        installed_append _
      refine ⟨?_, h.stage.mono hkept, ?_⟩
      · intro job hjob
        rcases List.mem_append.mp hjob with hold | hnew
        · exact h.jobs job hold
        · obtain rfl := List.mem_singleton.mp hnew
          exact obeys_handler duty
      · intro job hjob stage hstage
        rcases List.mem_append.mp hjob with hold | hnew
        · exact (h.past job hold stage hstage).mono hkept
        · obtain rfl := List.mem_singleton.mp hnew
          contradiction
  | meanwhile s =>
      rw [turn?] at hturn
      split at hturn
      · next hsame =>
          obtain rfl := Option.some.inj hturn
          refine ⟨h.jobs, ⟨?_, ?_⟩, h.past⟩
          · obtain ⟨load, hload, heq⟩ := h.stage.settings
            exact ⟨load, hload, hsame.1.trans heq⟩
          · obtain ⟨load, hload, heq⟩ := h.stage.schema
            exact ⟨load, hload, hsame.2.trans heq⟩
      · contradiction
  | step i =>
      obtain ⟨job, after, job', hjob, hstep, rfl⟩ := turn?_step_eq_some.mp hturn
      exact h.step hjob hstep

theorem Crew.run?_cons_eq_some :
    c.run? parser readers (turn :: turns) = some c' ↔
      ∃ d, c.turn? parser readers turn = some d ∧ d.run? parser readers turns = some c' := by
  rw [run?, List.foldlM_cons]
  exact Option.bind_eq_some_iff

/-- A crew is sound in every run. -/
theorem Crew.Sound.run (h : c.Sound parser readers start)
    (hrun : c.run? parser readers turns = some c') :
    c'.Sound parser readers start := by
  induction turns generalizing c with
  | nil =>
      obtain rfl := Option.some.inj hrun
      exact h
  | cons turn rest ih =>
      obtain ⟨d, hturn, hrest⟩ := run?_cons_eq_some.mp hrun
      exact ih (h.next hturn) hrest

end Crews

/-- Whether a job is a load, and how the session stood behind its steps. -/
def Job.view (job : Job) : Bool × List Stage :=
  (job.duty.isLoad, job.past)

/-- What holds in every run in which the steps of the loads and of the request with the number `i`
stay apart, of the jobs that put the settings and the schema in place and of what is seen of all
jobs. Between the two steps of a load the schema is its own, and otherwise the settings and the
schema are of one load; between the two looks of the request both are of the load whose settings it
saw, and behind them the schema it saw is of that load. -/
structure Whole (i : Nat) (settingsBy schemaBy : Option Nat) (views : List (Bool × List Stage)) :
    Prop where
  loading : ∀ (k : Nat) (past : List Stage), views[k]? = some (true, past) → past.length = 2 →
    schemaBy = some k
  settled : (∀ (k : Nat) (past : List Stage), views[k]? = some (true, past) → past.length ≠ 2) →
    settingsBy = schemaBy
  looking : ∀ first second : Stage, views[i]? = some (false, [first, second]) →
    second.settingsBy = settingsBy ∧ second.settingsBy = schemaBy
  looked : ∀ (first second third : Stage) (more : List Stage),
    views[i]? = some (false, first :: second :: third :: more) →
      second.settingsBy = third.schemaBy

namespace Whole

variable {settingsBy schemaBy : Option Nat} {views : List (Bool × List Stage)} {i j : Nat}
  {past : List Stage}

/-- What is seen of the jobs behind a step of one of them. -/
theorem getElem?_set_cases {k : Nat} {view other : Bool × List Stage}
    (h : (views.set j view)[k]? = some other) :
    j = k ∧ view = other ∨ j ≠ k ∧ views[k]? = some other := by
  rw [List.getElem?_set] at h
  split at h
  · next heq =>
      split at h
      · exact Or.inl ⟨heq, Option.some.inj h⟩
      · contradiction
  · next hne => exact Or.inr ⟨hne, h⟩

theorem getElem?_set_of_ne {k : Nat} {view other : Bool × List Stage} (hne : j ≠ k)
    (h : views[k]? = some other) : (views.set j view)[k]? = some other := by
  rw [List.getElem?_set_ne hne, h]

/-- A job that begins. -/
theorem begins (h : Whole i settingsBy schemaBy views) (isLoad : Bool) :
    Whole i settingsBy schemaBy (views ++ [(isLoad, [])]) := by
  have hold {k : Nat} {view : Bool × List Stage} (hview : (views ++ [(isLoad, [])])[k]? = some view)
      (hsome : view.2 ≠ []) : views[k]? = some view := by
    rw [List.getElem?_append] at hview
    split at hview
    · exact hview
    · rw [List.getElem?_singleton] at hview
      split at hview
      · obtain rfl := Option.some.inj hview
        contradiction
      · contradiction
  constructor
  · intro k past hview hpast
    exact h.loading k past (hold hview (by rintro rfl; contradiction)) hpast
  · intro hnone
    refine h.settled fun k past hview => hnone k past ?_
    rw [List.getElem?_append_left (List.getElem?_eq_some_iff.mp hview).1, hview]
  · intro first second hview
    exact h.looking first second (hold hview (List.cons_ne_nil _ _))
  · intro first second third more hview
    exact h.looked first second third more (hold hview (List.cons_ne_nil _ _))

/-- A step of a load, when no other load and not the request is between its two steps. -/
theorem load (h : Whole i settingsBy schemaBy views) (after : Stage)
    (hview : views[j]? = some (true, past))
    (hapart : past.length = 1 ∨ past.length = 2 → ∀ (k : Nat) (view : Bool × List Stage),
      views[k]? = some view → view.1 = true ∨ k = i → k ≠ j → view.2.length ≠ 2) :
    Whole i (if past.length = 2 then some j else settingsBy)
      (if past.length = 1 then some j else schemaBy) (views.set j (true, past ++ [after])) := by
  have hlength : (past ++ [after]).length = past.length + 1 := List.length_append
  have hself : (views.set j (true, past ++ [after]))[j]? = some (true, past ++ [after]) :=
    List.getElem?_set_self (List.getElem?_eq_some_iff.mp hview).1
  constructor
  · intro k other hother hhalfway
    rcases getElem?_set_cases hother with ⟨rfl, heq⟩ | ⟨hne, hold⟩
    · obtain rfl := (Prod.mk.inj heq).2
      rw [if_pos (by omega)]
    · have hnot : past.length ≠ 1 := fun h1 =>
        hapart (Or.inl h1) k _ hold (Or.inl rfl) (Ne.symm hne) hhalfway
      rw [if_neg hnot]
      exact h.loading k other hold hhalfway
  · intro hnone
    have hfirst : past.length ≠ 1 := by
      have hself := hnone j _ hself
      omega
    rw [if_neg hfirst]
    split
    · next hsecond => exact (h.loading j past hview hsecond).symm
    · next hsecond =>
        refine h.settled fun k other hother => ?_
        by_cases hk : j = k
        · subst hk
          obtain rfl := (Prod.mk.inj (Option.some.inj (hview.symm.trans hother))).2
          exact hsecond
        · exact hnone k other (getElem?_set_of_ne hk hother)
  · intro first second hother
    rcases getElem?_set_cases hother with ⟨rfl, heq⟩ | ⟨hne, hold⟩
    · exact absurd (Prod.mk.inj heq).1 (by decide)
    · have hnot (hpart : past.length = 1 ∨ past.length = 2) : False :=
        hapart hpart i _ hold (Or.inr rfl) (Ne.symm hne) rfl
      rw [if_neg fun h2 => hnot (Or.inr h2), if_neg fun h1 => hnot (Or.inl h1)]
      exact h.looking first second hold
  · intro first second third more hother
    rcases getElem?_set_cases hother with ⟨rfl, heq⟩ | ⟨hne, hold⟩
    · exact absurd (Prod.mk.inj heq).1 (by decide)
    · exact h.looked first second third more hold

/-- A step of a request, when no load is between its two steps if the request is that with the
number `i`. -/
theorem request {after : Stage} (h : Whole i settingsBy schemaBy views)
    (hview : views[j]? = some (false, past))
    (hapart : past.length = 1 ∨ past.length = 2 → j = i →
      ∀ (k : Nat) (other : List Stage), views[k]? = some (true, other) → other.length ≠ 2)
    (hsettings : after.settingsBy = settingsBy) (hschema : after.schemaBy = schemaBy) :
    Whole i settingsBy schemaBy (views.set j (false, past ++ [after])) := by
  constructor
  · intro k other hother hhalfway
    rcases getElem?_set_cases hother with ⟨rfl, heq⟩ | ⟨hne, hold⟩
    · exact absurd (Prod.mk.inj heq).1 (by decide)
    · exact h.loading k other hold hhalfway
  · intro hnone
    refine h.settled fun k other hother => hnone k other (getElem?_set_of_ne ?_ hother)
    rintro rfl
    exact absurd (Prod.mk.inj (Option.some.inj (hview.symm.trans hother))).1 (by decide)
  · intro first second hother
    rcases getElem?_set_cases hother with ⟨hself, heq⟩ | ⟨hne, hold⟩
    · have happend : past ++ [after] = [first] ++ [second] := (Prod.mk.inj heq).2
      obtain ⟨rfl, hlast⟩ := List.append_inj' happend rfl
      obtain rfl := List.cons.inj hlast |>.1
      have hone := h.settled fun k other hother => hapart (Or.inl rfl) hself k other hother
      exact ⟨hsettings, hsettings.trans hone⟩
    · exact h.looking first second hold
  · intro first second third more hother
    rcases getElem?_set_cases hother with ⟨rfl, heq⟩ | ⟨hne, hold⟩
    · have happend : past ++ [after] = first :: second :: third :: more := (Prod.mk.inj heq).2
      rcases past with _ | ⟨a, _ | ⟨b, _ | ⟨c, past⟩⟩⟩
      · simp at happend
      · simp at happend
      · simp only [List.cons_append, List.nil_append, List.cons.injEq] at happend
        obtain ⟨rfl, rfl, rfl, -⟩ := happend
        exact (h.looking a b hview).2.trans hschema.symm
      · simp only [List.cons_append, List.cons.injEq] at happend
        obtain ⟨rfl, rfl, rfl, -⟩ := happend
        exact h.looked a b c past hview
    · exact h.looked first second third more hold

end Whole

/-- Whether what is seen of a crew is whole for the request with the number `i`. -/
def Crew.IsWhole (i : Nat) (c : Crew) : Prop :=
  Whole i c.stage.settingsBy c.stage.schemaBy (c.jobs.map Job.view)

section Runs

variable {parser : Parser} {readers : Readers} {start : Session} {c c' : Crew} {turn : Turn}
  {turns : List Turn}
  {i j : Nat} {job job' : Job} {after : Stage}

/-- None of the jobs whose steps stay apart is between its two when another one takes one. -/
theorem Crew.Apart.length_ne (h : Crew.Apart i c (.step j)) (hjob : c.jobs[j]? = some job)
    {change : Session → Session} {next : Session → Handler Reply}
    (hrest : job.rest = .access change next) (hpart : job.past.length = 1 ∨ job.past.length = 2)
    (hminds : job.duty.isLoad = true ∨ j = i) {k : Nat} {view : Bool × List Stage}
    (hview : (c.jobs.map Job.view)[k]? = some view) (hmind : view.1 = true ∨ k = i) (hne : k ≠ j) :
    view.2.length ≠ 2 := by
  have htakes : job.takesPart = true := by
    rw [Job.takesPart, hrest]
    simpa using hpart
  rw [List.getElem?_map] at hview
  obtain ⟨other, hother, rfl⟩ := Option.map_eq_some_iff.mp hview
  have hlength : k < c.jobs.length := (List.getElem?_eq_some_iff.mp hother).1
  have hhalfway := h job hjob htakes hminds k hlength other hother hmind hne
  change other.past.length ≠ 2
  simpa [Job.isHalfway] using hhalfway

/-- A step that stays apart leaves a crew whole. -/
theorem Crew.IsWhole.step (h : Crew.IsWhole i c) (hapart : Crew.Apart i c (.step j))
    (hjob : c.jobs[j]? = some job) (hstep : job.step? j c.stage = some (after, job')) :
    Crew.IsWhole i ⟨after, c.jobs.set j job'⟩ := by
  have hview : (c.jobs.map Job.view)[j]? = some (job.duty.isLoad, job.past) := by
    rw [List.getElem?_map, hjob]
    rfl
  rcases Job.step?_cases hstep with
    ⟨rfl, message, next, hrest, rfl⟩ | ⟨change, next, hrest, rfl, rfl⟩
  · rw [IsWhole, List.map_set]
    obtain ⟨hlength, hget⟩ := List.getElem?_eq_some_iff.mp hview
    have hsame : (c.jobs.map Job.view).set j (job.duty.isLoad, job.past) =
        c.jobs.map Job.view := by
      rw [← hget]
      exact List.set_getElem_self hlength
    exact hsame.symm ▸ h
  · let after := job.mark j c.stage (change c.stage.session)
    rw [IsWhole, List.map_set]
    cases hload : job.duty.isLoad with
    | true =>
        rw [hload] at hview
        have hsettings : after.settingsBy =
            if job.past.length = 2 then some j else c.stage.settingsBy := by
          simp [after, Job.mark, hload]
        have hschema : after.schemaBy =
            if job.past.length = 1 then some j else c.stage.schemaBy := by
          simp [after, Job.mark, hload]
        have hwhole := h.load after hview fun hpart k view hother hmind hne =>
          hapart.length_ne hjob hrest hpart (Or.inl hload) hother hmind hne
        rw [← hsettings, ← hschema] at hwhole
        rw [Job.view, hload]
        exact hwhole
    | false =>
        rw [hload] at hview
        have hsettings : after.settingsBy = c.stage.settingsBy := by
          simp [after, Job.mark, hload]
        have hschema : after.schemaBy = c.stage.schemaBy := by
          simp [after, Job.mark, hload]
        have hwhole := h.request hview ?_ hsettings hschema
        · rw [← hsettings, ← hschema] at hwhole
          rw [Job.view, hload]
          exact hwhole
        · intro hpart hself k other hother
          have hne : k ≠ j := by
            rintro rfl
            exact absurd (Prod.mk.inj (Option.some.inj (hview.symm.trans hother))).1 (by decide)
          exact hapart.length_ne hjob hrest hpart (Or.inr hself) hother (Or.inl rfl) hne

/-- A turn that stays apart leaves a crew whole. -/
theorem Crew.IsWhole.next (h : Crew.IsWhole i c) (hapart : Crew.Apart i c turn)
    (hturn : c.turn? parser readers turn = some c') : Crew.IsWhole i c' := by
  cases turn with
  | begins duty =>
      obtain rfl := Option.some.inj hturn
      rw [IsWhole, List.map_append]
      exact h.begins duty.isLoad
  | meanwhile s =>
      rw [turn?] at hturn
      split at hturn
      · obtain rfl := Option.some.inj hturn
        exact h
      · contradiction
  | step j =>
      obtain ⟨job, after, job', hjob, hstep, rfl⟩ := turn?_step_eq_some.mp hturn
      exact h.step hapart hjob hstep

/-- A crew stays whole in a run whose turns stay apart. -/
theorem Crew.IsWhole.run (h : Crew.IsWhole i c) (hapart : Along parser readers (Apart i) c turns)
    (hrun : c.run? parser readers turns = some c') : Crew.IsWhole i c' := by
  induction turns generalizing c with
  | nil =>
      obtain rfl := Option.some.inj hrun
      exact h
  | cons turn rest ih =>
      obtain ⟨d, hturn, hrest⟩ := run?_cons_eq_some.mp hrun
      exact ih (h.next hapart.1 hturn) (hapart.2 d hturn) hrest

theorem rest_of_reply? {reply : Reply} (h : job.reply? = some reply) :
    job.rest = .finish reply := by
  rw [Job.reply?] at h
  split at h
  · next hrest =>
      obtain rfl := Option.some.inj h
      exact hrest
  · contradiction
  · contradiction

/-- What a request works with, however loads take turns with it. It comes to nothing; or it comes to
what it comes to at once in the session as it first saw it, under the settings that it saw next and
the schema that it saw then. These settings are those of one load as a whole, the last one that had
put its settings in place, and so is the schema that of the last one that had put its schema in
place. Both are the same load in every run in which the two steps of the loads and those of the
request stay apart. -/
theorem request_under_loads
    (hrun : Crew.run? parser readers ⟨⟨start, none, none⟩, []⟩ turns = some c)
    (hjob : c.jobs[i]? = some job) (hload : job.duty.isLoad = false) {reply : Reply}
    (hreply : job.reply? = some reply) :
    (job.sent = [] ∧ reply = .nothing) ∨
      ∃ first second third more, job.past = first :: second :: third :: more ∧
        ((job.duty.handler parser readers).run
            (first.session.under second.session third.session)).1 =
          reply ∧
        ((job.duty.handler parser readers).run
            (first.session.under second.session third.session)).2.2 =
          job.sent ∧
        (∃ load ∈ installed readers start c.jobs second.settingsBy,
          second.session.settings = load.1) ∧
        (∃ load ∈ installed readers start c.jobs third.schemaBy, third.session.schema = load.2) ∧
        (Crew.Along parser readers (Crew.Apart i) ⟨⟨start, none, none⟩, []⟩ turns →
          second.settingsBy = third.schemaBy) := by
  have hstart : Crew.Sound parser readers start ⟨⟨start, none, none⟩, []⟩ := by
    refine ⟨by simp, ⟨⟨_, rfl, rfl⟩, ⟨_, rfl, rfl⟩⟩, by simp⟩
  have hwhole : Crew.IsWhole i ⟨⟨start, none, none⟩, []⟩ :=
    ⟨by simp, fun _ => rfl, by simp, by simp⟩
  have hsound := hstart.run hrun
  have hmem := List.mem_of_getElem? hjob
  have houtcome : job.duty.Outcome parser readers (job.past.map Stage.session) job.sent reply := by
    have hobeys := hsound.jobs job hmem
    rw [Job.Sound, rest_of_reply? hreply] at hobeys
    exact hobeys hload
  rcases houtcome with hnothing | ⟨a, b, d, more, hseen, hanswer, hsent⟩
  · exact Or.inl hnothing
  · obtain ⟨first, behind, hpast, rfl, hbehind⟩ := List.map_eq_cons_iff.mp hseen
    obtain ⟨second, later, rfl, rfl, hlater⟩ := List.map_eq_cons_iff.mp hbehind
    obtain ⟨third, last, rfl, rfl, -⟩ := List.map_eq_cons_iff.mp hlater
    refine Or.inr ⟨first, second, third, last, hpast, hanswer.symm, hsent.symm, ?_, ?_, ?_⟩
    · exact (hsound.past job hmem second (by simp [hpast])).settings
    · exact (hsound.past job hmem third (by simp [hpast])).schema
    · intro hapart
      have hend := hwhole.run hapart hrun
      refine hend.looked first second third last ?_
      rw [List.getElem?_map, hjob, Option.map_some, Job.view, hload, hpast]

/-- A validation begins while a load is under way, and looks at the settings and the schema behind
it. -/
theorem request_under_one_load :
    let parser : Parser := fun _ _ => .error .tooDeep
    let readers : Readers := ⟨fun _ => none, fun _ => none⟩
    let files : Files Id := ⟨fun _ => none, fun _ => false⟩
    let start : Session :=
      { phase := .running, root := some ['/'], documents := [(['a'], ⟨['x'], 1⟩)] }
    let turns : List Turn := [.begins (.load files), .step 0, .begins (.validate ['a'] 1), .step 1,
      .step 0, .step 0, .step 1, .step 1, .step 1, .step 1]
    ∃ c job second third, Crew.run? parser readers ⟨⟨start, none, none⟩, []⟩ turns = some c ∧
      c.jobs[1]? = some job ∧ job.past[1]? = some second ∧ job.past[2]? = some third ∧
      second.settingsBy = third.schemaBy ∧
      ∃ load ∈ installed readers start c.jobs second.settingsBy,
        second.session.settings = load.1 := by
  intro parser readers files start turns
  let c := (Crew.run? parser readers ⟨⟨start, none, none⟩, []⟩ turns).get (by decide +kernel)
  let job := (c.jobs[1]?).get (by decide +kernel)
  have hrun : Crew.run? parser readers ⟨⟨start, none, none⟩, []⟩ turns = some c :=
    (Option.some_get _).symm
  have hjob : c.jobs[1]? = some job := (Option.some_get _).symm
  have hload : job.duty.isLoad = false := by decide +kernel
  have hreply : job.reply? = some .nothing := by decide +kernel
  have hsent : job.sent.length = 1 := by decide +kernel
  rcases request_under_loads hrun hjob hload hreply with
    ⟨hnone, -⟩ | ⟨first, second, third, more, hpast, -, -, hsettings, -, happly⟩
  · rw [hnone] at hsent
    contradiction
  · refine ⟨c, job, second, third, hrun, hjob, ?_, ?_, happly (by decide +kernel), hsettings⟩
    · rw [hpast]
      rfl
    · rw [hpast]
      rfl

/-- A request mixes two loads when their steps do not stay apart: when a load comes between the two
looks of a validation; when a completion looks between the two steps of a load; and when two loads
overlapped before. Each time it has its settings and its schema from different ones. -/
theorem request_mixes_loads :
    let parser : Parser := fun _ _ => .error .tooDeep
    let readers : Readers := ⟨fun _ => none, fun _ => none⟩
    let load : Turn := .begins (.load ⟨fun _ => none, fun _ => false⟩)
    let validate : Turn := .begins (.validate ['a'] 1)
    let complete : Turn := .begins (.complete ['a'] ⟨1, 1⟩)
    let start : Session :=
      { phase := .running, root := some ['/'], documents := [(['a'], ⟨['x'], 1⟩)] }
    let steps (i n : Nat) : List Turn := List.replicate n (.step i)
    let loads (i : Nat) (turns : List Turn) : Option (Option Nat × Option Nat) := do
      let c ← Crew.run? parser readers ⟨⟨start, none, none⟩, []⟩ turns
      let job ← c.jobs[i]?
      let _ ← job.reply?
      return ((← job.past[1]?).settingsBy, (← job.past[2]?).schemaBy)
    let loaded : List Turn := load :: steps 0 3
    loads 1 (loaded ++ validate :: steps 1 2 ++ load :: steps 2 3 ++ steps 1 3) =
        some (some 0, some 2) ∧
      loads 2 (loaded ++ load :: steps 1 2 ++ complete :: steps 2 3 ++ steps 1 1) =
        some (some 0, some 1) ∧
      loads 2 (load :: load :: steps 0 2 ++ steps 1 3 ++ steps 0 1 ++ validate :: steps 2 5) =
        some (some 0, some 1) := by
  decide +kernel

end Runs

end SqlInsight.Session
