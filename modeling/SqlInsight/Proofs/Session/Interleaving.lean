/-
Handlers of a session that take turns: between two steps of one, also between its last look and what
it sends, there may be steps of others. What is published stays in order as long as no other version
is given before a text is stored, and no document moves on before its findings are sent. The
handlers by themselves see to neither.
-/
import SqlInsight.Proofs.Session.Settling

namespace SqlInsight.Session

open Handler (look change)

/-- A handler under way, and the session as it last saw it. -/
structure Task where
  seen : Session
  rest : Handler Unit

/-- One step of a handler: the session then, what is left of the handler, and what it published. -/
def Task.step? (now : Session) (task : Task) : Option (Session × Task × List Publication) :=
  match task.rest with
  | .finish _ => none
  | .access change next => some (change now, ⟨change now, next (change now)⟩, [])
  | .send message next => some (now, ⟨task.seen, next⟩, (message.publication? task.seen).toList)

/-- A session, the handlers under way in it, and what was published so far. -/
structure Pool where
  session : Session
  tasks : List Task
  record : List Publication

/-- What may come next: the editor tells of a document, time passes, a validation that is due
begins, or one of the handlers takes a step. -/
inductive Act where
  | told (e : Event) (files : Files Id)
  | elapsed (time : Nat)
  | fired (timer : Timer)
  | step (i : Nat)

namespace Pool

def begin {α : Type} (p : Pool) (h : Handler α) : Pool :=
  { p with tasks := p.tasks ++ [⟨p.session, h >>= fun _ => pure ()⟩] }

/-- An act, if it may come next. -/
def act? (parser : Parser) (readers : Readers) (p : Pool) : Act → Option Pool
  | .told e files =>
      if e.isNotice then some (p.begin (e.respond parser readers files p.session.phase)) else none
  | .elapsed time => some { p with session := { p.session with now := p.session.now + time } }
  | .fired timer =>
      if timer ∈ p.session.timers ∧ timer.due ≤ p.session.now then
        some (begin { p with session := p.session.withoutTimer timer }
          (publish parser timer.uri timer.version))
      else none
  | .step i => do
      let task ← p.tasks[i]?
      let (session, rest, sent) ← task.step? p.session
      return ⟨session, p.tasks.set i rest, p.record ++ sent⟩

/-- Some acts one after the other. -/
def run? (parser : Parser) (readers : Readers) (p : Pool) (acts : List Act) : Option Pool :=
  acts.foldlM (act? parser readers) p

/-- Whether something holds before every act. -/
def Along (parser : Parser) (readers : Readers) (holds : Pool → Act → Prop) : Pool → List Act → Prop
  | _, [] => True
  | p, act :: rest =>
    holds p act ∧ ∀ p' ∈ p.act? parser readers act, Along parser readers holds p' rest

end Pool

/-- The documents that a change of a session gives a text. -/
def given (now after : Session) : List (Text × Document) :=
  after.documents.filter fun entry => now.document? entry.1 ≠ some entry.2

/-- Whether nothing came in the way of the next step of a handler: no version was given before it
stores a text, and a document is as it was seen when its findings are sent. -/
def Task.Timely (now : Session) (task : Task) : Prop :=
  match task.rest with
  | .finish _ => True
  | .access change _ => given now (change now) = [] ∨ now.lastVersion = task.seen.lastVersion
  | .send message _ => ∀ p ∈ message.publication? task.seen, ∀ d ∈ p.document?,
      now.document? p.uri = some d

/-- Whether a step that comes next is timely. -/
def Pool.Timely (p : Pool) : Act → Prop
  | .step i => ∀ task ∈ p.tasks[i]?, task.Timely p.session
  | .told _ _ | .elapsed _ | .fired _ => True

section Decidable

instance Task.decidableTimely (now : Session) : (task : Task) → Decidable (task.Timely now)
  | ⟨_, .finish _⟩ => isTrue trivial
  | ⟨seen, .access change _⟩ =>
      inferInstanceAs (Decidable (given now (change now) = [] ∨ now.lastVersion = seen.lastVersion))
  | ⟨seen, .send message _⟩ =>
      inferInstanceAs (Decidable (∀ p ∈ message.publication? seen, ∀ d ∈ p.document?,
        now.document? p.uri = some d))

instance Pool.decidableTimely (p : Pool) : (act : Act) → Decidable (p.Timely act)
  | .step i => inferInstanceAs (Decidable (∀ task ∈ p.tasks[i]?, task.Timely p.session))
  | .told _ _ | .elapsed _ | .fired _ => isTrue trivial

instance Pool.decidableAlong (parser : Parser) (readers : Readers)
    (holds : Pool → Act → Prop) [∀ p act, Decidable (holds p act)] :
    (p : Pool) → (acts : List Act) → Decidable (Along parser readers holds p acts)
  | _, [] => isTrue trivial
  | p, act :: rest =>
      have := fun p' => decidableAlong parser readers holds p' rest
      inferInstanceAs
        (Decidable (holds p act ∧
          ∀ p' ∈ p.act? parser readers act, Along parser readers holds p' rest))

end Decidable

/-- A change of the session by a handler: a document that it gives a text has the version that the
handler saw as the last one. -/
structure Keeps (seen now after : Session) : Prop where
  lastVersion_le : now.lastVersion ≤ after.lastVersion
  version_eq : ∀ uri d, after.document? uri = some d → now.document? uri ≠ some d →
    d.version = seen.lastVersion

/-- Whether a handler that last saw the session as `seen` only makes such changes, and publishes no
findings in a document that it saw closed, whatever others do between its steps; and what holds of
its answer. -/
def Handler.Careful {α : Type} : Handler α → Session → (Session → α → Prop) → Prop
  | .finish answer, seen, post => post seen answer
  | .access change next, seen, post =>
      ∀ now, Keeps seen now (change now) ∧ (next (change now)).Careful (change now) post
  | .send message next, seen, post =>
      (∀ p ∈ message.publication? seen, p.document? = none → p.found = []) ∧
        next.Careful seen post

section Careful

variable {α β : Type} {parser : Parser} {readers : Readers} {files : Files Id} {seen : Session}

theorem Handler.Careful.bind {h : Handler α} {next : α → Handler β} {post : Session → β → Prop}
    (hh : h.Careful seen fun s answer => (next answer).Careful s post) :
    (h >>= next).Careful seen post := by
  change (h.andThen next).Careful seen post
  induction h generalizing seen with
  | finish answer => exact hh
  | access change rest ih => exact fun now => ⟨(hh now).1, ih _ (hh now).2⟩
  | send message rest ih => exact ⟨hh.1, ih hh.2⟩

theorem Handler.Careful.imp {h : Handler α} {post post' : Session → α → Prop}
    (hh : h.Careful seen post) (himp : ∀ s answer, post s answer → post' s answer) :
    h.Careful seen post' := by
  induction h generalizing seen with
  | finish answer => exact himp seen answer hh
  | access change rest ih => exact fun now => ⟨(hh now).1, ih _ (hh now).2⟩
  | send message rest ih => exact ⟨hh.1, ih hh.2⟩

/-- One careful handler after another. -/
theorem Handler.Careful.then {h : Handler α} {next : α → Handler β}
    (hh : h.Careful seen fun _ _ => True)
    (hnext : ∀ s answer, (next answer).Careful s fun _ _ => True) :
    (h >>= next).Careful seen fun _ _ => True :=
  .bind (hh.imp fun s answer _ => hnext s answer)

theorem careful_change {f : Session → Session} {post : Session → Session → Prop}
    (hkeeps : ∀ now, Keeps seen now (f now)) (hpost : ∀ now, post (f now) (f now)) :
    (change f).Careful seen post :=
  fun now => ⟨hkeeps now, hpost now⟩

/-- A change that gives no document another text. -/
theorem Keeps.of_document? {now after : Session} (hlast : now.lastVersion ≤ after.lastVersion)
    (hdocument : ∀ uri d, after.document? uri = some d → now.document? uri = some d) :
    Keeps seen now after :=
  ⟨hlast, fun uri d hd hne => absurd (hdocument uri d hd) hne⟩

theorem careful_look {post : Session → Session → Prop} (hpost : ∀ now, post now now) :
    look.Careful seen post :=
  fun now => ⟨.of_document? (Nat.le_refl _) fun _ _ hd => hd, hpost now⟩

theorem careful_store (uri t : Text) : (store uri t).Careful seen fun _ _ => True := by
  refine .bind (careful_change (fun now => ?_) fun now => .bind (careful_change ?_ fun _ => ?_))
  · exact .of_document? (Nat.le_succ _) fun _ _ hd => hd
  · intro later
    refine ⟨Nat.le_refl _, fun other d hd hne => ?_⟩
    rw [document?_withDocument] at hd
    split at hd
    · rw [← Option.some.inj hd]
    · contradiction
  · trivial

theorem careful_publish (uri : Text) (version : Nat) :
    (publish parser uri version).Careful seen fun _ _ => True := by
  refine .bind (careful_look fun now => ?_)
  cases now.document? uri with
  | none => trivial
  | some d =>
      by_cases hversion : d.version = version
      · simp only [hversion, ne_eq, not_true_eq_false, if_false]
        refine .bind (careful_look fun settled => .bind (careful_look fun schema => ?_))
        refine .bind (careful_look fun last => ?_)
        by_cases hlast : last.version? uri = some version
        · simp only [hlast, not_true_eq_false, if_false]
          refine ⟨?_, trivial⟩
          intro p hp hnone
          obtain rfl := Option.mem_some_iff.mp hp
          have hclosed : last.document? uri = none := hnone
          rw [version?, hclosed] at hlast
          contradiction
        · simp only [hlast, not_false_eq_true, if_true]
          trivial
      · simp only [hversion, ne_eq, not_false_eq_true, if_true]
        trivial

theorem careful_tellAll {log : List Message}
    (hlog : ∀ message ∈ log, ∀ s : Session, message.publication? s = none) :
    (tellAll log).Careful seen fun _ _ => True := by
  induction log with
  | nil => trivial
  | cons message rest ih =>
      refine .bind ⟨?_, ih fun m hm => hlog m (List.mem_cons_of_mem message hm)⟩
      intro p hp
      rw [hlog message List.mem_cons_self seen] at hp
      contradiction

theorem careful_reload (readers : Readers) (files : Files Id) :
    (reload readers files).Careful seen fun _ _ => True := by
  refine .bind (careful_look fun now => ?_)
  cases now.root with
  | none => trivial
  | some root =>
      refine .then (careful_tellAll fun message hm s => ?_) fun _ _ =>
        .then (careful_tellAll fun message hm s => ?_) fun _ _ => ?_
      · exact (publication?_of_mem_log readers files s root ⟨{}, root⟩).1 message hm
      · exact (publication?_of_mem_log readers files s root _).2 message hm
      · refine .bind (careful_change (fun now => ?_) fun _ => .bind (careful_change ?_ fun _ => ?_))
        · exact .of_document? (Nat.le_refl _) fun _ _ hd => hd
        · exact fun later => .of_document? (Nat.le_refl _) fun _ _ hd => hd
        · trivial

theorem careful_handler {e : Event} (he : e.isNotice = true) :
    (e.handler parser readers files).Careful seen fun _ _ => True := by
  cases e with
  | opened uri t =>
      exact .then (careful_store uri t) fun _ version =>
        .then (careful_publish uri version) fun _ _ => trivial
  | changed uri texts =>
      rw [Event.handler]
      cases texts.getLast? with
      | none => trivial
      | some t =>
          refine .then (careful_store uri t) fun _ version => .bind (.bind ?_)
          refine careful_change (fun now => ?_) fun _ => trivial
          exact .of_document? (Nat.le_refl _) fun _ _ hd => hd
  | saved uri t =>
      refine .then ?_ fun _ _ => trivial
      cases t with
      | some t =>
          exact .then (careful_store uri t) fun _ version =>
            .then (careful_reload readers files) fun _ _ => careful_publish uri version
      | none =>
          refine .bind (careful_look fun now => ?_)
          cases now.version? uri with
          | none => trivial
          | some version =>
              exact .then (careful_reload readers files) fun _ _ => careful_publish uri version
  | closed uri =>
      refine .bind (careful_change (fun now => ?_) fun now => .bind ⟨?_, trivial⟩)
      · refine .of_document? (Nat.le_refl _) fun other d hd => ?_
        rw [document?_withoutDocument] at hd
        split at hd
        · contradiction
        · exact hd
      · intro p hp _
        obtain rfl := Option.mem_some_iff.mp hp
        rfl
  | _ => contradiction

/-- What is done about a notice is careful in every phase of a session. -/
theorem careful_respond {e : Event} (he : e.isNotice = true) (phase : Phase) :
    (e.respond parser readers files phase).Careful seen fun _ _ => True := by
  cases phase with
  | running =>
      rw [respond_of_running he]
      exact careful_handler he
  | fresh =>
      cases e with
      | elapsed time => contradiction
      | start root => contradiction
      | _ => trivial
  | stopped =>
      cases e with
      | elapsed time => contradiction
      | _ => trivial

end Careful

/-- What holds of a pool in every run whose steps are timely. -/
structure Pool.Sound (p : Pool) : Prop where
  careful : ∀ task ∈ p.tasks, task.rest.Careful task.seen fun _ _ => True
  ordered : ∀ uri, p.session.Ordered p.record uri

section Steps

variable {now after : Session} {task rest : Task} {sent : List Publication} {uri : Text}

/-- A change that is timely gives a document the last version, if any. -/
theorem Keeps.document?_of_timely {seen : Session} (h : Keeps seen now after)
    (htimely : given now after = [] ∨ now.lastVersion = seen.lastVersion) {d : Document}
    (hd : after.document? uri = some d) :
    now.document? uri = some d ∨ d.version = now.lastVersion := by
  by_cases hsame : now.document? uri = some d
  · exact Or.inl hsame
  · right
    rw [h.version_eq uri d hd hsame]
    rcases htimely with hnone | hlast
    · obtain ⟨before, behind, heq, -⟩ := List.lookup_eq_some_iff.mp hd
      have hmem : (uri, d) ∈ given now after := by
        rw [given, heq]
        simp [hsame]
      rw [hnone] at hmem
      contradiction
    · exact hlast.symm

/-- A timely step of a careful handler leaves a careful one and keeps every document in order. -/
theorem Task.step?_spec (record : List Publication) (uri : Text)
    (hcareful : task.rest.Careful task.seen fun _ _ => True)
    (htimely : task.Timely now) (hstep : task.step? now = some (after, rest, sent)) :
    (rest.rest.Careful rest.seen fun _ _ => True) ∧
      (now.Ordered record uri → after.Ordered (record ++ sent) uri) ∧
      (now.document? uri = none → ∀ p ∈ about uri sent, p.found = []) := by
  obtain ⟨seen, handler⟩ := task
  cases handler with
  | finish answer => contradiction
  | access change next =>
      obtain ⟨rfl, rfl, rfl⟩ := Option.some.inj hstep
      obtain ⟨hkeeps, hnext⟩ := hcareful now
      refine ⟨hnext, fun hordered => ?_, by simp [about]⟩
      rw [List.append_nil]
      refine hordered.moved hkeeps.lastVersion_le fun d hd => ?_
      refine (hkeeps.document?_of_timely htimely hd).imp_right fun hversion => ?_
      rw [hversion]
      exact ⟨Nat.le_refl _, hkeeps.lastVersion_le⟩
  | send message next =>
      obtain ⟨rfl, rfl, rfl⟩ := Option.some.inj hstep
      obtain ⟨hempty, hnext⟩ := hcareful
      refine ⟨hnext, fun hordered => ?_, fun hclosed p hp => ?_⟩
      · cases hp : message.publication? seen with
        | none =>
            rw [Option.toList_none, List.append_nil]
            exact hordered
        | some p =>
            exact hordered.published fun huri d hd => huri ▸ htimely p hp d hd
      · obtain ⟨hmem, huri⟩ := List.mem_filter.mp hp
        have hsent := Option.mem_toList.mp hmem
        refine hempty p hsent ?_
        cases hdocument : p.document? with
        | none => rfl
        | some d =>
            have hnow := htimely p hsent d hdocument
            rw [of_decide_eq_true huri, hclosed] at hnow
            contradiction

end Steps

section Pools

variable {parser : Parser} {readers : Readers} {start : Session} {p p' : Pool} {act : Act}
  {acts : List Act}

/-- A handler that begins changes nothing yet. -/
theorem Pool.Sound.begin {α : Type} (hsound : p.Sound) {h : Handler α}
    (hcareful : h.Careful p.session fun _ _ => True) : (p.begin h).Sound := by
  refine ⟨fun task htask => ?_, hsound.ordered⟩
  rcases List.mem_append.mp htask with hold | hnew
  · exact hsound.careful task hold
  · obtain rfl := List.mem_singleton.mp hnew
    exact .then hcareful fun _ _ => trivial

/-- A pool stays sound when only the time or the timers change. -/
theorem Pool.Sound.session (hsound : p.Sound) {s : Session}
    (hdocuments : s.documents = p.session.documents)
    (hlast : s.lastVersion = p.session.lastVersion) :
    Pool.Sound { p with session := s } := by
  refine ⟨hsound.careful, fun uri => (hsound.ordered uri).moved (Nat.le_of_eq hlast.symm) ?_⟩
  intro d hd
  rw [document?, hdocuments] at hd
  exact Or.inl hd

/-- A timely act keeps a pool sound, and publishes no findings in a document that is closed. -/
theorem Pool.Sound.next (hsound : p.Sound) (htimely : p.Timely act)
    (hact : p.act? parser readers act = some p') :
    p'.Sound ∧ ∃ sent, p'.record = p.record ++ sent ∧
      ∀ uri, p.session.document? uri = none → ∀ f ∈ about uri sent, f.found = [] := by
  cases act with
  | told e files =>
      rw [act?] at hact
      split at hact
      · next he =>
          obtain rfl := Option.some.inj hact
          exact ⟨hsound.begin (careful_respond he _), [], by simp [Pool.begin], by simp [about]⟩
      · contradiction
  | elapsed time =>
      obtain rfl := Option.some.inj hact
      exact ⟨hsound.session rfl rfl, [], by simp, by simp [about]⟩
  | fired timer =>
      rw [act?] at hact
      split at hact
      · obtain rfl := Option.some.inj hact
        have hfired : Pool.Sound { p with session := p.session.withoutTimer timer } :=
          hsound.session rfl rfl
        exact ⟨hfired.begin (careful_publish _ _), [], by simp [Pool.begin], by simp [about]⟩
      · contradiction
  | step i =>
      obtain ⟨task, htask, hrest⟩ := Option.bind_eq_some_iff.mp hact
      obtain ⟨⟨session, rest, sent⟩, hstep, hp'⟩ := Option.bind_eq_some_iff.mp hrest
      obtain rfl := Option.some.inj hp'
      have hcareful := hsound.careful task (List.mem_of_getElem? htask)
      have hspec := fun uri => Task.step?_spec p.record uri hcareful (htimely task htask) hstep
      refine ⟨⟨fun other hother => ?_, fun uri => (hspec uri).2.1 (hsound.ordered uri)⟩, sent, rfl,
        fun uri => (hspec uri).2.2⟩
      rcases List.mem_or_eq_of_mem_set hother with hold | rfl
      · exact hsound.careful other hold
      · exact (hspec []).1

theorem Pool.run?_cons_eq_some :
    p.run? parser readers (act :: acts) = some p' ↔
      ∃ q, p.act? parser readers act = some q ∧ q.run? parser readers acts = some p' := by
  rw [run?, List.foldlM_cons]
  exact Option.bind_eq_some_iff

/-- A pool stays sound in a run whose steps are timely. -/
theorem Pool.Sound.run (hsound : p.Sound) (htimely : Along parser readers Timely p acts)
    (hrun : p.run? parser readers acts = some p') : p'.Sound := by
  induction acts generalizing p with
  | nil =>
      obtain rfl := Option.some.inj hrun
      exact hsound
  | cons act rest ih =>
      obtain ⟨q, hact, hrest⟩ := run?_cons_eq_some.mp hrun
      exact ih (hsound.next htimely.1 hact).1 (htimely.2 q hact) hrest

/-- No findings in a document are published while it is closed. -/
theorem Pool.Sound.run_closed (hsound : p.Sound) {uri : Text}
    (htimely : Along parser readers Timely p acts)
    (hclosed : Along parser readers (fun q _ => q.session.document? uri = none) p acts)
    (hrun : p.run? parser readers acts = some p') :
    ∃ sent, p'.record = p.record ++ sent ∧ ∀ f ∈ about uri sent, f.found = [] := by
  induction acts generalizing p with
  | nil =>
      obtain rfl := Option.some.inj hrun
      exact ⟨[], by simp, by simp [about]⟩
  | cons act rest ih =>
      obtain ⟨q, hact, hrest⟩ := run?_cons_eq_some.mp hrun
      obtain ⟨hnext, sent, hrecord, hempty⟩ := hsound.next htimely.1 hact
      obtain ⟨more, hmore, hlater⟩ := ih hnext (htimely.2 q hact) (hclosed.2 q hact) hrest
      refine ⟨sent ++ more, by rw [hmore, hrecord, List.append_assoc], fun f hf => ?_⟩
      rw [about_append, List.mem_append] at hf
      exact hf.elim (hempty uri hclosed.1 f) (hlater f)

/-- A step in the session as the handler last saw it is timely, and so is the next one, if nothing
comes between. -/
theorem Task.timely_of_seen {now : Session} {task : Task} (hseen : task.seen = now) :
    task.Timely now ∧ ∀ after rest sent, task.step? now = some (after, rest, sent) →
      rest.seen = after := by
  obtain ⟨seen, handler⟩ := task
  obtain rfl : seen = now := hseen
  cases handler with
  | finish answer => exact ⟨trivial, fun _ _ _ hstep => by contradiction⟩
  | access change next =>
      refine ⟨Or.inr rfl, fun after rest sent hstep => ?_⟩
      obtain ⟨rfl, rfl, -⟩ := Option.some.inj hstep
      rfl
  | send message next =>
      refine ⟨fun p hp d hd => ?_, fun after rest sent hstep => ?_⟩
      · cases message with
        | publish uri found =>
            obtain rfl := Option.mem_some_iff.mp hp
            exact hd
        | info t => contradiction
        | warning t => contradiction
      · obtain ⟨rfl, rfl, -⟩ := Option.some.inj hstep
        rfl

/-- The steps of a handler are timely when nothing comes between them. -/
theorem Pool.along_timely_replicate {i : Nat} (n : Nat)
    (hseen : ∀ task ∈ p.tasks[i]?, task.seen = p.session) :
    Along parser readers Timely p (List.replicate n (.step i)) := by
  induction n generalizing p with
  | zero => trivial
  | succ n ih =>
      refine ⟨fun task htask => (Task.timely_of_seen (hseen task htask)).1, fun q hact => ih ?_⟩
      obtain ⟨task, htask, hrest⟩ := Option.bind_eq_some_iff.mp hact
      obtain ⟨⟨session, rest, sent⟩, hstep, hq⟩ := Option.bind_eq_some_iff.mp hrest
      obtain rfl := Option.some.inj hq
      intro later hlater
      have hlength : i < p.tasks.length := (List.getElem?_eq_some_iff.mp htask).1
      obtain rfl : rest = later := by
        simpa [hlength] using hlater
      exact (Task.timely_of_seen (hseen task htask)).2 session rest sent hstep

/-- No stale findings win as long as every step is timely: in every such run of handlers that take
turns, begun while no document is open, the versions published for a document never decrease, and
while it is closed nothing but empty lists is published for it. -/
theorem no_stale_findings (hidle : start.Idle)
    (hrun : Pool.run? parser readers ⟨start, [], []⟩ acts = some p)
    (htimely : Pool.Along parser readers Pool.Timely ⟨start, [], []⟩ acts) :
    (∀ uri, (publishedVersions uri p.record).Pairwise (· ≤ ·)) ∧
      ∀ uri more p', p.run? parser readers more = some p' →
        Pool.Along parser readers Pool.Timely p more →
        Pool.Along parser readers (fun q _ => q.session.document? uri = none) p more →
        ∃ sent, p'.record = p.record ++ sent ∧ ∀ f ∈ about uri sent, f.found = [] := by
  have hstart : Pool.Sound ⟨start, [], []⟩ := ⟨by simp, hidle.ordered⟩
  have hsound := hstart.run htimely hrun
  constructor
  · exact fun uri => (hsound.ordered uri).pairwise_le
  · exact fun uri more p' hmore htimely hclosed => hsound.run_closed htimely hclosed hmore

/-- A document is closed while the validation of its change waits, and the validation then comes to
nothing. -/
theorem no_stale_findings_closed :
    let parser : Parser := fun _ _ => .error .tooDeep
    let readers : Readers := ⟨fun _ => none, fun _ => none⟩
    let files : Files Id := ⟨fun _ => none, fun _ => false⟩
    let changed : List Act := [.told (.changed ['a'] ["SELECT 1".toList]) files, .step 0, .step 0,
      .step 0, .told (.closed ['a']) files, .step 1, .step 1]
    let validated : List Act := [.elapsed 500, .fired ⟨['a'], 1, 500⟩, .step 2]
    ∃ p p', Pool.run? parser readers ⟨{ phase := .running }, [], []⟩ changed = some p ∧
      p.run? parser readers validated = some p' ∧
      (publishedVersions ['a'] p.record).Pairwise (· ≤ ·) ∧
      ∃ sent, p'.record = p.record ++ sent ∧ ∀ f ∈ about ['a'] sent, f.found = [] := by
  intro parser readers files changed validated
  let p :=
    (Pool.run? parser readers ⟨{ phase := .running }, [], []⟩ changed).get (by decide +kernel)
  let p' := (p.run? parser readers validated).get (by decide +kernel)
  have hidle : Idle { phase := .running } := ⟨rfl, rfl, rfl⟩
  have hrun : Pool.run? parser readers ⟨{ phase := .running }, [], []⟩ changed = some p :=
    (Option.some_get _).symm
  have hmore : p.run? parser readers validated = some p' := (Option.some_get _).symm
  have hspec := no_stale_findings hidle hrun (by decide +kernel)
  refine ⟨p, p', hrun, hmore, hspec.1 ['a'], ?_⟩
  exact hspec.2 ['a'] validated p' hmore (by decide +kernel) (by decide +kernel)

/-- Steps that are not timely let stale findings win. When a validation has looked at a changed
document for the last time, what it sends may come after the findings in a text that is saved
meanwhile, or after the empty list with which the document is closed. And of two texts that are
saved, the one with the earlier version may be stored last. -/
theorem stale_findings_overtake :
    let parser : Parser := fun _ _ => .error .tooDeep
    let readers : Readers := ⟨fun _ => none, fun _ => none⟩
    let files : Files Id := ⟨fun _ => none, fun _ => false⟩
    let start : Pool := ⟨{ phase := .running }, [], []⟩
    let saved (t : String) : Act := .told (.saved ['a'] (some t.toList)) files
    let steps (i n : Nat) : List Act := List.replicate n (.step i)
    let late : List Act := .told (.changed ['a'] ["SELECT 1".toList]) files :: steps 0 3 ++
      [.elapsed 500, .fired ⟨['a'], 1, 500⟩] ++ steps 1 4
    ((start.run? parser readers (late ++ saved "SELECT 2" :: steps 2 8 ++ [.step 1])).map
        fun p => publishedVersions ['a'] p.record) = some [2, 1] ∧
      ((start.run? parser readers
          (late ++ .told (.closed ['a']) files :: steps 2 2 ++ [.step 1])).map fun p =>
        (p.session.document? ['a'], (about ['a'] p.record).map fun f => f.found.isEmpty)) =
          some (none, [true, false]) ∧
      ((start.run? parser readers (saved "SELECT 1" :: .step 0 :: saved "SELECT 2" :: steps 1 8 ++
          steps 0 7)).map
        fun p => publishedVersions ['a'] p.record) = some [2, 1] := by
  decide +kernel

end Pools

end SqlInsight.Session
