/-
What a reload of the workspace reaches. A document that is saved has the workspace loaded again and
its findings published; those of the other documents are left as they are until these are published
for a reason of their own. So when no validation waits any more, what was published since the reload
is up to date, and any other document still has the findings under the settings and the schema that
were in place when it was last published.
-/
import SqlInsight.Proofs.Session.Settling
import SqlInsight.Reading.Standard

namespace SqlInsight.Session

open Handler (look)

/-- Whether an event only asks or tells of the session itself: the session begins, which is refused
while it is under way, or the editor is ready; or it asks for candidates or statements. -/
def Event.asks : Event → Bool
  | .start _ | .ready | .candidates _ _ | .statements _ => true
  | _ => false

section Asking

variable (parser : Parser) (uri : Text) (s : Session)

/-- Candidates are found without a change, and nothing is published. -/
theorem complete_eq (p : Position) : ((complete parser uri p).run s).2.1 = s ∧
    (complete parser uri p).publications s = [] := by
  cases hdocument : s.document? uri with
  | none => simp [complete, look, run_bind, publications_bind, Handler.run,
      Handler.publications, hdocument, pure]
  | some d =>
      cases hoffset : d.text.offset? p with
      | none => simp [complete, look, run_bind, publications_bind, Handler.run,
          Handler.publications, hdocument, hoffset, pure]
      | some offset => simp [complete, look, run_bind, publications_bind, Handler.run,
          Handler.publications, hdocument, hoffset, pure]

/-- Statements are listed without a change, and nothing is published. -/
theorem listStatements_eq : ((listStatements parser uri).run s).2.1 = s ∧
    (listStatements parser uri).publications s = [] := by
  cases hdocument : s.document? uri with
  | none => simp [listStatements, look, run_bind, publications_bind, Handler.run,
      Handler.publications, hdocument, pure]
  | some d => simp [listStatements, look, run_bind, publications_bind, Handler.run,
      Handler.publications, hdocument, pure]

end Asking

/-- What only asks changes nothing and publishes nothing. -/
theorem asks_eq {parser : Parser} {readers : Readers} {files : Files Id} {s : Session} {e : Event}
    (he : e.asks = true) :
    ((e.respond parser readers files .running).run s).2.1 = s ∧
      (e.respond parser readers files .running).publications s = [] := by
  cases e with
  | start root => exact ⟨rfl, rfl⟩
  | ready => exact ⟨rfl, rfl⟩
  | candidates uri p => exact complete_eq parser uri s p
  | statements uri => exact listStatements_eq parser uri s
  | _ => contradiction

/-- Whether a timer for the version of a document waits. -/
def Waits (s : Session) (uri : Text) (d : Document) : Prop :=
  ∃ timer ∈ s.timers, timer.uri = uri ∧ timer.version = d.version

/-- What happens to a document when the session goes from `s` to `s'`: it stays as it is and so does
a timer for its version; or its findings are published, if it is then open; or a timer for its
version waits, if it is then open. -/
inductive Touch (parser : Parser) (s s' : Session) (published : List Publication) (uri : Text) :
    Prop where
  | untouched (hnothing : about uri published = [])
      (hdocument : s'.document? uri = s.document? uri)
      (htimers : ∀ d, s.document? uri = some d → s.Waits uri d → s'.Waits uri d)
  | published (hsome : about uri published ≠ [])
      (hlast : ∀ d, s'.document? uri = some d →
        (about uri published).getLast? = some (validated parser s' uri d))
  | waiting (hnothing : about uri published = [])
      (hwaits : ∀ d, s'.document? uri = some d → s'.Waits uri d)

section Effects

variable {parser : Parser} {s s' : Session} {published : List Publication}

/-- What an effect comes to for a document is what happens to it. -/
theorem Effect.touch (h : Effect parser s s' published) (uri : Text) :
    Touch parser s s' published uri := by
  cases h.outcome uri with
  | kept hnothing hdocument htimers =>
      refine .untouched hnothing hdocument fun d hd hwaits => ?_
      obtain ⟨timer, hmem, huri, hversion⟩ := hwaits
      have hcurrent : s.version? uri = some timer.version := by
        rw [version?, hd, Option.map_some, hversion]
      exact ⟨timer, htimers timer hmem huri hcurrent, huri, hversion⟩
  | settled d hdocument =>
      have habout : about uri [validated parser s' uri d] = [validated parser s' uri d] :=
        about_singleton rfl
      refine .published (by simp [habout]) fun d' hd' => ?_
      obtain rfl : d = d' := Option.some.inj (hdocument.symm.trans hd')
      rw [habout]
      rfl
  | emptied hdocument =>
      have habout : about uri [⟨uri, [], none⟩] = [⟨uri, [], none⟩] := about_singleton rfl
      refine .published (by simp [habout]) fun d hd => ?_
      rw [hdocument] at hd
      contradiction
  | pending d hdocument htimer =>
      refine .waiting rfl fun d' hd' => ?_
      obtain rfl : d = d' := Option.some.inj (hdocument.symm.trans hd')
      exact htimer

/-- A reload leaves every document and every timer as they are. -/
theorem Touch.of_loaded {readers : Readers} {files : Files Id} {uri : Text}
    (h : Touch parser (loaded readers files s) s' published uri) :
    Touch parser s s' published uri := by
  cases h with
  | untouched hnothing hdocument htimers =>
      rw [document?_loaded] at hdocument
      refine .untouched hnothing hdocument fun d hd hwaits => htimers d ?_ ?_
      · rw [document?_loaded]
        exact hd
      · rw [Waits, timers_loaded]
        exact hwaits
  | published hsome hlast => exact .published hsome hlast
  | waiting hnothing hwaits => exact .waiting hnothing hwaits

end Effects

namespace Course

/-- Whether a move may come next, however the files of the workspace are. -/
def Next (c : Course) : Move → Prop
  | .told e _ => e.isNotice = true ∨ e.asks = true
  | .elapsed _ => True
  | .fired timer => timer ∈ c.session.timers ∧ timer.due ≤ c.session.now

/-- Whether a move may come next that leaves the settings and the schema as they are: if a document
is saved, then the files of the workspace still have them. -/
def NextSteady (readers : Readers) (c : Course) (move : Move) : Prop :=
  c.Next move ∧ ∀ uri t files, move = .told (.saved uri t) files → Steady readers files c.session

/-- A course runs to another by moves that may come next, as `may` says. -/
inductive Runs (parser : Parser) (readers : Readers) (may : Course → Move → Prop) (c : Course) :
    List Move → Course → Prop where
  | refl : Runs parser readers may c [] c
  | step {moves : List Move} {c' : Course} (move : Move) (h : Runs parser readers may c moves c')
      (hmay : may c' move) : Runs parser readers may c (moves ++ [move]) (c'.go parser readers move)

/-- Whether the last publication for a document is that of its text as it stands in a course, and
nothing was published for it since. -/
structure PublishedIn (parser : Parser) (c earlier : Course) (uri : Text) (d : Document) :
    Prop where
  document?_eq : earlier.session.document? uri = some d
  about_eq : about uri earlier.record = about uri c.record
  last_eq : (about uri c.record).getLast? = some (validated parser earlier.session uri d)

/-- Every document waits, or its last publication is that of its text in an earlier course. -/
def Traced (parser : Parser) (readers : Readers) (start c : Course) : Prop :=
  ∀ uri d, c.session.document? uri = some d → c.session.Waits uri d ∨
    ∃ earlier moves more, Runs parser readers Next start moves earlier ∧
      Runs parser readers Next earlier more c ∧ c.PublishedIn parser earlier uri d

/-- How a document may stand in a course behind another one: it waits; or it was published since
and this is up to date; or nothing was published for it since, and it is as it was and did not
wait. -/
inductive Standing (parser : Parser) (base c : Course) (uri : Text) (d : Document) : Prop where
  | waits (h : c.session.Waits uri d)
  | renewed (hmore : about uri c.record ≠ about uri base.record)
      (hlast : (about uri c.record).getLast? = some (validated parser c.session uri d))
  | left (hsame : about uri c.record = about uri base.record)
      (hdocument : base.session.document? uri = some d) (hidle : ¬ base.session.Waits uri d)

section Moves

variable {parser : Parser} {readers : Readers} {c : Course} {move : Move}

/-- A notice has an effect on the session or, if the workspace is loaded again with it, on the
session as it is then. -/
theorem effect_of_notice (parser : Parser) {e : Event} {files : Files Id}
    (hphase : c.session.phase = .running) (he : e.isNotice = true) :
    ∃ base published, Effect parser base (c.go parser readers (.told e files)).session published ∧
      (c.go parser readers (.told e files)).record = c.record ++ published ∧
      (base = c.session ∨ base = loaded readers files c.session ∧ ∃ uri t, e = .saved uri t) := by
  have hgo : c.go parser readers (.told e files) = c.after (e.handler parser readers files) := by
    rw [go, hphase, respond_of_running he]
  rw [hgo]
  cases e with
  | opened uri t => exact ⟨_, _, effect_opened uri t, rfl, Or.inl rfl⟩
  | changed uri texts => exact ⟨_, _, effect_changed uri texts, rfl, Or.inl rfl⟩
  | saved uri t =>
      by_cases hreloads : c.session.Reloads uri t
      · refine ⟨loaded readers files c.session, _, ?_, rfl, Or.inr ⟨rfl, uri, t, rfl⟩⟩
        exact (effect_saved_loaded hreloads).1
      · obtain ⟨hsession, hpublications⟩ := saved_eq hreloads
        refine ⟨c.session, _, ?_, rfl, Or.inl rfl⟩
        rw [after, hsession, hpublications]
        exact .quiet
  | closed uri =>
      refine ⟨c.session, _, ?_, rfl, Or.inl rfl⟩
      rw [after, (closed_eq uri).1, (closed_eq uri).2]
      exact .closed uri
  | _ => contradiction

/-- A move that may come next has an effect on the session or, if the workspace is loaded again
with it, on the session as it is then. -/
theorem effect_of_next (parser : Parser) (hphase : c.session.phase = .running)
    (h : c.Next move) :
    ∃ base published, Effect parser base (c.go parser readers move).session published ∧
      (c.go parser readers move).record = c.record ++ published ∧
      (base = c.session ∨ ∃ uri t files, move = .told (.saved uri t) files ∧
        base = loaded readers files c.session) := by
  cases move with
  | elapsed time =>
      have hallows : c.Allows readers (.elapsed time) := trivial
      obtain ⟨published, heffect, hrecord⟩ := effect_of_allows hphase hallows
      exact ⟨_, published, heffect, hrecord, Or.inl rfl⟩
  | fired timer =>
      have hallows : c.Allows readers (.fired timer) := h
      obtain ⟨published, heffect, hrecord⟩ := effect_of_allows hphase hallows
      exact ⟨_, published, heffect, hrecord, Or.inl rfl⟩
  | told e files =>
      rcases h with he | he
      · obtain ⟨base, published, heffect, hrecord, hbase⟩ := effect_of_notice parser hphase he
        refine ⟨base, published, heffect, hrecord, hbase.imp_right ?_⟩
        rintro ⟨rfl, uri, t, rfl⟩
        exact ⟨uri, t, files, rfl, rfl⟩
      · refine ⟨c.session, _, ?_, rfl, Or.inl rfl⟩
        rw [go, hphase, after, (asks_eq he).1, (asks_eq he).2]
        exact .quiet

/-- What a move does to one document. -/
theorem touch_of_next (parser : Parser) (hphase : c.session.phase = .running)
    (h : c.Next move) (uri : Text) :
    ∃ published, (c.go parser readers move).record = c.record ++ published ∧
      Touch parser c.session (c.go parser readers move).session published uri := by
  obtain ⟨base, published, heffect, hrecord, hbase⟩ := effect_of_next parser hphase h
  refine ⟨published, hrecord, ?_⟩
  rcases hbase with rfl | ⟨other, t, files, rfl, rfl⟩
  · exact heffect.touch uri
  · exact (heffect.touch uri).of_loaded

theorem phase_of_next (hphase : c.session.phase = .running) (h : c.Next move) :
    (c.go parser readers move).session.phase = .running := by
  obtain ⟨base, published, heffect, hrecord, hbase⟩ := effect_of_next parser hphase h
  rw [heffect.unchanged.1]
  rcases hbase with rfl | ⟨other, t, files, rfl, rfl⟩
  · exact hphase
  · rw [phase_loaded, hphase]

/-- A steady move leaves the settings and the schema as they are. -/
theorem validated_of_nextSteady (hphase : c.session.phase = .running)
    (h : c.NextSteady readers move) :
    validated parser (c.go parser readers move).session = validated parser c.session := by
  obtain ⟨base, published, heffect, hrecord, hbase⟩ := effect_of_next parser hphase h.1
  rw [heffect.unchanged.2]
  rcases hbase with rfl | ⟨uri, t, files, rfl, rfl⟩
  · rfl
  · have hsteady : loaded readers files c.session = c.session := h.2 uri t files rfl
    rw [hsteady]

theorem about_go_of_nothing {uri : Text} {published : List Publication}
    (hrecord : (c.go parser readers move).record = c.record ++ published)
    (hnothing : about uri published = []) :
    about uri (c.go parser readers move).record = about uri c.record := by
  rw [hrecord, about_append, hnothing, List.append_nil]

theorem getLast?_about_go {uri : Text} {published : List Publication}
    (hrecord : (c.go parser readers move).record = c.record ++ published)
    (hsome : about uri published ≠ []) :
    (about uri (c.go parser readers move).record).getLast? = (about uri published).getLast? := by
  rw [hrecord, about_append, List.getLast?_append, List.getLast?_eq_some_getLast hsome,
    Option.some_or]

/-- What is published for a document only grows. -/
theorem about_isPrefix_go (hphase : c.session.phase = .running) (hnext : c.Next move)
    (uri : Text) : about uri c.record <+: about uri (c.go parser readers move).record := by
  obtain ⟨published, hrecord, -⟩ := touch_of_next parser hphase hnext uri
  rw [hrecord, about_append]
  exact List.prefix_append _ _

/-- Behind a publication more was published than at any course before. -/
theorem about_go_ne {base : Course} {uri : Text} {published : List Publication}
    (hrecord : (c.go parser readers move).record = c.record ++ published)
    (hsome : about uri published ≠ []) (hgrown : about uri base.record <+: about uri c.record) :
    about uri (c.go parser readers move).record ≠ about uri base.record := by
  intro heq
  rw [hrecord, about_append] at heq
  have hle := hgrown.length_le
  have hpos := List.length_pos_iff.mpr hsome
  rw [← heq, List.length_append] at hle
  omega

/-- Every document is still traced behind a move. -/
theorem Traced.go {start : Course} {moves : List Move} (h : Traced parser readers start c)
    (hruns : Runs parser readers Next start moves c) (hphase : c.session.phase = .running)
    (hnext : c.Next move) : Traced parser readers start (c.go parser readers move) := by
  intro uri d hd
  obtain ⟨published, hrecord, htouch⟩ := touch_of_next parser hphase hnext uri
  cases htouch with
  | untouched hnothing hdocument htimers =>
      have hbefore : c.session.document? uri = some d := hdocument ▸ hd
      have habout := about_go_of_nothing hrecord hnothing
      rcases h uri d hbefore with hwaits | ⟨earlier, first, more, hfirst, hmore, hin⟩
      · exact Or.inl (htimers d hbefore hwaits)
      · refine Or.inr ⟨earlier, first, more ++ [move], hfirst, hmore.step move hnext, ?_⟩
        refine ⟨hin.document?_eq, ?_, ?_⟩
        · rw [habout, hin.about_eq]
        · rw [habout, hin.last_eq]
  | published hsome hlast =>
      refine Or.inr
        ⟨c.go parser readers move, moves ++ [move], [], hruns.step move hnext, .refl, ?_⟩
      refine ⟨hd, rfl, ?_⟩
      rw [getLast?_about_go hrecord hsome, hlast d hd]
  | waiting hnothing hwaits => exact Or.inl (hwaits d hd)

/-- How the documents stand behind the first move from a course. -/
theorem Standing.first (hphase : c.session.phase = .running) (hnext : c.Next move) {uri : Text}
    {d : Document} (hd : (c.go parser readers move).session.document? uri = some d) :
    Standing parser c (c.go parser readers move) uri d := by
  obtain ⟨published, hrecord, htouch⟩ := touch_of_next parser hphase hnext uri
  cases htouch with
  | untouched hnothing hdocument htimers =>
      have hbefore : c.session.document? uri = some d := hdocument ▸ hd
      by_cases hwaits : c.session.Waits uri d
      · exact .waits (htimers d hbefore hwaits)
      · exact .left (about_go_of_nothing hrecord hnothing) hbefore hwaits
  | published hsome hlast =>
      refine .renewed (about_go_ne hrecord hsome List.prefix_rfl) ?_
      rw [getLast?_about_go hrecord hsome, hlast d hd]
  | waiting hnothing hwaits => exact .waits (hwaits d hd)

/-- How the documents stand behind a further move that is steady. -/
theorem Standing.go {base : Course} {uri : Text}
    (h : ∀ d, c.session.document? uri = some d → Standing parser base c uri d)
    (hgrown : about uri base.record <+: about uri c.record)
    (hphase : c.session.phase = .running) (hnext : c.NextSteady readers move) {d : Document}
    (hd : (c.go parser readers move).session.document? uri = some d) :
    Standing parser base (c.go parser readers move) uri d := by
  obtain ⟨published, hrecord, htouch⟩ := touch_of_next parser hphase hnext.1 uri
  cases htouch with
  | untouched hnothing hdocument htimers =>
      have hbefore : c.session.document? uri = some d := hdocument ▸ hd
      have habout := about_go_of_nothing hrecord hnothing
      cases h d hbefore with
      | waits hwaits => exact .waits (htimers d hbefore hwaits)
      | renewed hmore hlast =>
          refine .renewed (habout ▸ hmore) ?_
          rw [habout, hlast, validated_of_nextSteady hphase hnext]
      | left hsame hdocument hidle => exact .left (habout.trans hsame) hdocument hidle
  | published hsome hlast =>
      refine .renewed (about_go_ne hrecord hsome hgrown) ?_
      rw [getLast?_about_go hrecord hsome, hlast d hd]
  | waiting hnothing hwaits => exact .waits (hwaits d hd)

/-- The moves of a run that may come next in any case. -/
theorem Runs.phase {may : Course → Move → Prop} {moves : List Move} {c' : Course}
    (h : Runs parser readers may c moves c') (hmay : ∀ c move, may c move → c.Next move)
    (hphase : c.session.phase = .running) : c'.session.phase = .running := by
  induction h with
  | refl => exact hphase
  | step move hruns hmove ih => exact phase_of_next ih (hmay _ _ hmove)

theorem Runs.traced {start : Course} {moves : List Move}
    (h : Runs parser readers Next start moves c)
    (hstart : Traced parser readers start start) (hphase : start.session.phase = .running) :
    Traced parser readers start c := by
  induction h with
  | refl => exact hstart
  | step move hruns hmove ih => exact ih.go hruns (hruns.phase (fun _ _ h => h) hphase) hmove

theorem Runs.about_isPrefix {may : Course → Move → Prop} {moves : List Move} {c' : Course}
    (h : Runs parser readers may c moves c') (hmay : ∀ c move, may c move → c.Next move)
    (hphase : c.session.phase = .running) (uri : Text) :
    about uri c.record <+: about uri c'.record := by
  induction h with
  | refl => exact List.prefix_rfl
  | step move hruns hmove ih =>
      exact ih.trans (about_isPrefix_go (hruns.phase hmay hphase) (hmay _ _ hmove) uri)

/-- How the documents stand behind a move and further ones that are steady. -/
theorem Runs.standing {base : Course} {moves : List Move} {c' : Course}
    (h : Runs parser readers (NextSteady readers) (base.go parser readers move) moves c')
    (hphase : base.session.phase = .running) (hnext : base.Next move) {uri : Text} {d : Document}
    (hd : c'.session.document? uri = some d) : Standing parser base c' uri d := by
  have hnexts : ∀ c move, NextSteady readers c move → c.Next move := fun c move hmove => hmove.1
  have hrunning : (base.go parser readers move).session.phase = .running :=
    phase_of_next hphase hnext
  have hfirst : about uri base.record <+: about uri (base.go parser readers move).record :=
    about_isPrefix_go hphase hnext uri
  induction h generalizing d with
  | refl => exact .first hphase hnext hd
  | step move hruns hmove ih =>
      have hgrown := hfirst.trans (hruns.about_isPrefix hnexts hrunning uri)
      exact .go (fun d hd => ih hd) hgrown (hruns.phase hnexts hrunning) hmove hd

/-- A document that is saved is published with the reload. -/
theorem about_saved {uri : Text} {t : Option Text} (files : Files Id)
    (hphase : c.session.phase = .running) (hreloads : c.session.Reloads uri t) :
    about uri (c.go parser readers (.told (.saved uri t) files)).record ≠ about uri c.record := by
  obtain ⟨d, hpublications⟩ : ∃ d, ((Event.saved uri t).handler parser readers files).publications
      c.session = [validated parser (loaded readers files c.session) uri d] :=
    (effect_saved_loaded hreloads).2
  have hrecord : (c.go parser readers (.told (.saved uri t) files)).record =
      c.record ++ [validated parser (loaded readers files c.session) uri d] := by
    rw [go, hphase, respond_of_running rfl, after, hpublications]
  have habout : about uri [validated parser (loaded readers files c.session) uri d] =
      [validated parser (loaded readers files c.session) uri d] := about_singleton rfl
  refine about_go_ne hrecord ?_ List.prefix_rfl
  rw [habout]
  exact List.cons_ne_nil _ _

end Moves

end Course

section Reload

open Course

variable {parser : Parser} {readers : Readers} {start : Session} {c c' : Course}
  {moves more : List Move} {uri : Text} {t : Option Text} {files : Files Id}

/-- What a reload reaches. From a session in which no document is open, let the editor tell of
documents in any order while the files of the workspace change at will, until a document is saved
and the workspace loaded again with it; and let no validation wait any more some time later, with
the files as they were then. So the document that was saved was published since; every document
that was published since and is open has its last findings under the settings and the schema that
are in place now; and any other document that is open was not touched since, and has the findings of
its text under those that were in place when it was last published, before the reload. -/
theorem reload_reaches_published (hidle : start.Idle)
    (hruns : Runs parser readers Next ⟨start, []⟩ moves c) (hreloads : c.session.Reloads uri t)
    (hsteady : Runs parser readers (NextSteady readers)
      (c.go parser readers (.told (.saved uri t) files)) more c')
    (hfired : c'.session.timers = []) :
    about uri c'.record ≠ about uri c.record ∧
      ∀ other d, c'.session.document? other = some d →
        (about other c'.record ≠ about other c.record →
          (about other c'.record).getLast? = some (validated parser c'.session other d)) ∧
        (about other c'.record = about other c.record →
          c.session.document? other = some d ∧
            ∃ earlier before between, Runs parser readers Next ⟨start, []⟩ before earlier ∧
              Runs parser readers Next earlier between c ∧
                c'.PublishedIn parser earlier other d) := by
  have hphase : c.session.phase = .running := hruns.phase (fun _ _ h => h) hidle.running
  have hnext : c.Next (.told (.saved uri t) files) := Or.inl rfl
  have hnexts : ∀ c move, NextSteady readers c move → c.Next move := fun c move hmove => hmove.1
  let saved := c.go parser readers (.told (.saved uri t) files)
  have hrunning : saved.session.phase = .running := phase_of_next hphase hnext
  constructor
  · intro heq
    have hfirst : about uri c.record <+: about uri saved.record :=
      about_isPrefix_go hphase hnext uri
    have hlater : about uri saved.record <+: about uri c'.record :=
      hsteady.about_isPrefix hnexts hrunning uri
    rw [heq] at hlater
    exact about_saved files hphase hreloads (hfirst.eq_of_length_le hlater.length_le).symm
  · intro other d hd
    have hstanding : Standing parser c c' other d := hsteady.standing hphase hnext hd
    have hnone : ¬ c'.session.Waits other d := by
      rintro ⟨timer, hmem, -⟩
      rw [hfired] at hmem
      contradiction
    have htraced : Traced parser readers ⟨start, []⟩ c := by
      refine hruns.traced ?_ hidle.running
      intro uri d hd
      rw [hidle.document?_eq_none] at hd
      contradiction
    constructor
    · intro hnew
      cases hstanding with
      | waits hwaits => exact absurd hwaits hnone
      | renewed hmore hlast => exact hlast
      | left hsame hdocument hidle => exact absurd hsame hnew
    · intro hsame
      cases hstanding with
      | waits hwaits => exact absurd hwaits hnone
      | renewed hmore hlast => exact absurd hsame hmore
      | left hsame hdocument hleft =>
          refine ⟨hdocument, ?_⟩
          rcases htraced other d hdocument with hwaits | hearlier
          · exact absurd hwaits hleft
          · obtain ⟨earlier, before, between, hbefore, hbetween, hin⟩ := hearlier
            refine ⟨earlier, before, between, hbefore, hbetween, hin.document?_eq, ?_, ?_⟩
            · rw [hsame, hin.about_eq]
            · rw [hsame, hin.last_eq]

/-- The validation of a change that waits when another document is saved is carried out under the
schema that is in place then: its table is not missing, since there is none any more. -/
theorem reload_reaches_waiting_document :
    let files : Files Id := ⟨fun _ => none, fun _ => false⟩
    let start : Session :=
      { phase := .running, root := some "/w".toList, schema := some ⟨"Shop".toList, [], []⟩ }
    let t : Text := "SELECT Id FROM Users".toList
    let next := go standardParser standardReaders
    let c :=
      next (next ⟨start, []⟩ (.told (.opened ['b'] t) files)) (.told (.changed ['c'] [t]) files)
    let c' := next (next (next c (.told (.saved ['a'] (some t)) files)) (.elapsed 500))
      (.fired ⟨['c'], 2, 500⟩)
    about ['a'] c'.record ≠ about ['a'] c.record ∧
      (about ['c'] c'.record).getLast? =
        some (validated standardParser c'.session ['c'] ⟨t, 2⟩) ∧
      c.session.document? ['b'] = some ⟨t, 1⟩ := by
  intro files start t next c c'
  have hidle : start.Idle := ⟨rfl, rfl, rfl⟩
  have hruns : Runs standardParser standardReaders Next ⟨start, []⟩ _ c :=
    (Runs.refl.step _ (Or.inl rfl)).step _ (Or.inl rfl)
  have hreloads : c.session.Reloads ['a'] (some t) := Or.inl (Option.some_ne_none t)
  let saved := next c (.told (.saved ['a'] (some t)) files)
  have helapsed : saved.NextSteady standardReaders (.elapsed 500) :=
    ⟨trivial, fun uri t files heq => by contradiction⟩
  have hdue : (next saved (.elapsed 500)).NextSteady standardReaders (.fired ⟨['c'], 2, 500⟩) :=
    ⟨⟨by decide +kernel, by decide +kernel⟩, fun uri t files heq => by contradiction⟩
  have hsteady : Runs standardParser standardReaders (NextSteady standardReaders) saved
      [.elapsed 500, .fired ⟨['c'], 2, 500⟩] c' :=
    (Runs.refl.step _ helapsed).step _ hdue
  have hfired : c'.session.timers = [] := by decide +kernel
  obtain ⟨hsaved, hothers⟩ := reload_reaches_published hidle hruns hreloads hsteady hfired
  refine ⟨hsaved, ?_, ?_⟩
  · exact (hothers ['c'] ⟨t, 2⟩ (by decide +kernel)).1 (by decide +kernel)
  · exact ((hothers ['b'] ⟨t, 1⟩ (by decide +kernel)).2 (by decide +kernel)).1

/-- A reload does not reach every document that is open: the table that was missing in another one
is still reported there, although the schema without it is gone. -/
theorem reload_misses_open_document :
    let files : Files Id := ⟨fun _ => none, fun _ => false⟩
    let start : Session :=
      { phase := .running, root := some "/w".toList, schema := some ⟨"Shop".toList, [], []⟩ }
    let t : Text := "SELECT Id FROM Users".toList
    let c := go standardParser standardReaders ⟨start, []⟩ (.told (.opened ['b'] t) files)
    let c' := go standardParser standardReaders c (.told (.saved ['a'] (some t)) files)
    start.Idle ∧ c.session.Reloads ['a'] (some t) ∧ c'.session.timers = [] ∧
      c'.session.document? ['b'] = some ⟨t, 1⟩ ∧
      ((about ['b'] c'.record).map fun p => p.found.map Diagnostic.code) = [[.tableNotFound]] ∧
      (validated standardParser c'.session ['b'] ⟨t, 1⟩).found = [] := by
  intro files start t c c'
  refine ⟨⟨rfl, rfl, rfl⟩, Or.inl (Option.some_ne_none t), ?_⟩
  decide +kernel

end Reload

end SqlInsight.Session
