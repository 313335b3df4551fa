import CalendarRules.Command.Run
import CalendarRules.Proofs.Event.RoundTrip
import CalendarRules.Proofs.Recurrence.Range

/-!
# What a run shows

A command has an answer if all its documents can be read, the type is declared and the library has a
result; the answer is that result (`Command.Answers`).  The steps of a command are taken one after
the other and nothing is shown before the last of them, so a run shows the answer as a whole, in the
file or on standard output but not on both, or nothing at all but why it has failed
(`Invocation.run_refines`).

One thing is no failure of this kind: an occurrence that would end outside the range of instants
(`Command.Aborts`).  It ends the program at once, without a result and without a message.
-/

namespace CalendarRules

/-! ## Documents -/

namespace Surroundings

variable (s : Surroundings)

/-- A file can be read as a value. -/
def Holds {α : Type} (read : String → Except Problem α) (path : String) (a : α) : Prop :=
  ∃ text, s.file? path = some text ∧ read text = .ok a

/-- A file can be read as an event; without a file standard input can. -/
def HoldsEvent (path : Option String) (e : Event) : Prop :=
  match path with
  | some path => s.Holds Event.ofText path e
  | none => ∃ text, s.input? = some text ∧ Event.ofText text = .ok e

/-- The user is any document. -/
def userOfText (text : String) : Except Problem Json := (Document.ofText text).read Source.readJson

variable {s}

theorem load_eq_ok_iff {α : Type} {failure : CommandFailure} {read : String → Except Problem α}
    {text : String} {a : α} : load failure read text = .ok a ↔ read text = .ok a := by
  unfold load
  cases read text with
  | ok b => rw [Except.ok.injEq, Except.ok.injEq]
  | error problem => exact iff_of_false nofun nofun

theorem readFile_eq_ok_iff {path text : String} :
    s.readFile path = .ok text ↔ s.file? path = some text := by
  unfold readFile
  cases s.file? path with
  | some text' => rw [Except.ok.injEq, Option.some_inj]
  | none => exact iff_of_false nofun nofun

theorem readFile_bind_load_eq_ok_iff {α : Type} {failure : CommandFailure}
    {read : String → Except Problem α} {path : String} {a : α} :
    (s.readFile path >>= fun text => load failure read text) = .ok a ↔ s.Holds read path a := by
  rw [Outcome.bind_eq_ok_iff]
  exact exists_congr fun text => and_congr readFile_eq_ok_iff load_eq_ok_iff

theorem loadTypes_eq_ok_iff {path : String} {ds : List Declaration} :
    s.loadTypes path = .ok ds ↔ s.Holds Declaration.listOfText path ds :=
  readFile_bind_load_eq_ok_iff

theorem loadEvent_eq_ok_iff {path : Option String} {e : Event} :
    s.loadEvent path = .ok e ↔ s.HoldsEvent path e := by
  cases path with
  | some path => exact readFile_bind_load_eq_ok_iff
  | none =>
    unfold loadEvent HoldsEvent
    cases s.input? with
    | none => exact iff_of_false nofun nofun
    | some text =>
      constructor
      · exact fun h => ⟨text, rfl, load_eq_ok_iff.1 h⟩
      · rintro ⟨text', heq, h⟩
        cases heq
        exact load_eq_ok_iff.2 h

theorem loadEvents_eq_ok_iff {path : Option String} {es : List Event} :
    s.loadEvents path = .ok es ↔
      ∃ es', Option.Rel (s.Holds Event.listOfText) path es' ∧ es = es'.getD [] := by
  cases path with
  | some path =>
    rw [loadEvents, readFile_bind_load_eq_ok_iff]
    constructor
    · exact fun h => ⟨some es, .some h, rfl⟩
    · rintro ⟨-, h | -, rfl⟩
      exact h
  | none =>
    rw [loadEvents]
    constructor
    · exact fun h => ⟨none, .none, (Except.ok.inj h).symm⟩
    · rintro ⟨-, - | -, rfl⟩
      rfl

theorem loadUser_eq_ok_iff {path : Option String} {user : Option Json} :
    s.loadUser path = .ok user ↔ Option.Rel (s.Holds userOfText) path user := by
  cases path with
  | some path =>
    constructor
    · intro h
      obtain ⟨text, htext, h⟩ := Outcome.bind_eq_ok h
      obtain ⟨u, hu, h⟩ := Outcome.bind_eq_ok h
      cases h
      exact .some ⟨text, readFile_eq_ok_iff.1 htext, load_eq_ok_iff.1 hu⟩
    · rintro (⟨text, htext, hu⟩ | -)
      rw [loadUser, readFile_eq_ok_iff.2 htext, Outcome.ok_bind]
      show (load _ userOfText text >>= fun user => pure (some user)) = _
      rw [load_eq_ok_iff.2 hu]
      rfl
  | none =>
    constructor
    · intro h
      cases h
      exact .none
    · rintro (- | -)
      rfl

theorem loadNow_eq_ok_iff {now : Option String} {t : Option Instant} :
    loadNow now = .ok t ↔ Option.Rel (fun text t => Instant.ofStrict text = .ok t) now t := by
  unfold loadNow
  cases now with
  | some text =>
    constructor
    · intro h
      cases ht : Instant.ofStrict text with
      | ok t' =>
        simp only [ht] at h
        cases h
        exact .some ht
      | error fault =>
        simp only [ht] at h
        cases h
    · rintro (ht | -)
      simp only [ht]
  | none =>
    constructor
    · intro h
      cases h
      exact .none
    · rintro (- | -)
      rfl

end Surroundings

/-- A declaration is the first one of a list that has an identifier. -/
def Declaration.IsFirst (ds : List Declaration) (id : String) (d : Declaration) : Prop :=
  ∃ before after, ds = before ++ d :: after ∧ d.id = id ∧ ∀ d' ∈ before, d'.id ≠ id

theorem Declaration.find_eq_ok_iff {ds : List Declaration} {id : String} {d : Declaration} :
    Declaration.find ds id = .ok d ↔ IsFirst ds id d := by
  have hfind : Declaration.find ds id = .ok d ↔ ds.find? (fun d => d.id == id) = some d := by
    unfold Declaration.find
    cases ds.find? fun d => d.id == id with
    | some d' => rw [Except.ok.injEq, Option.some_inj]
    | none => exact iff_of_false nofun nofun
  rw [hfind, List.find?_eq_some_iff_append]
  simp only [beq_iff_eq, Bool.not_eq_true', beq_eq_false_iff_ne]
  constructor
  · rintro ⟨hid, before, after, heq, hbefore⟩
    exact ⟨before, after, heq, hid, hbefore⟩
  · rintro ⟨before, after, heq, hid, hbefore⟩
    exact ⟨hid, before, after, heq, hbefore⟩

/-- The documents of a target can be read, and its type is declared. -/
structure Target.Finds (t : Target) (s : Surroundings) (d : Declaration) (e : Event)
    (user : Option Json) : Prop where
  event : s.HoldsEvent t.event e
  declaration : ∃ ds, s.Holds Declaration.listOfText t.types ds ∧
    Declaration.IsFirst ds (t.typeId.getD e.type) d
  user : Option.Rel (s.Holds Surroundings.userOfText) t.user user

theorem Target.load_eq_ok_iff {t : Target} {s : Surroundings} {d : Declaration} {e : Event}
    {user : Option Json} : t.load s = .ok (d, e, user) ↔ t.Finds s d e user := by
  constructor
  · intro h
    obtain ⟨ds, hds, h⟩ := Outcome.bind_eq_ok h
    obtain ⟨e', he, h⟩ := Outcome.bind_eq_ok h
    obtain ⟨d', hd, h⟩ := Outcome.bind_eq_ok h
    obtain ⟨user', huser, h⟩ := Outcome.bind_eq_ok h
    cases h
    exact ⟨Surroundings.loadEvent_eq_ok_iff.1 he,
      ⟨ds, Surroundings.loadTypes_eq_ok_iff.1 hds, Declaration.find_eq_ok_iff.1 hd⟩,
      Surroundings.loadUser_eq_ok_iff.1 huser⟩
  · rintro ⟨he, ⟨ds, hds, hd⟩, huser⟩
    rw [load, Surroundings.loadTypes_eq_ok_iff.2 hds, Outcome.ok_bind,
      Surroundings.loadEvent_eq_ok_iff.2 he, Outcome.ok_bind, Declaration.find_eq_ok_iff.2 hd,
      Outcome.ok_bind, Surroundings.loadUser_eq_ok_iff.2 huser]
    rfl

/-! ## Answers -/

theorem Json.prettyText_bool (b : Bool) :
    (Json.bool b).prettyText = if b then "true\n" else "false\n" := by
  cases b <;> rfl

namespace Command

/-- The document that a command answers with, and whether the command is content with it: the result
of the library on the documents that the command is about. -/
inductive Answers [TimeZones] [RuleEngine] (s : Surroundings) : Command → Json → Bool → Prop
  | schemas {types : String} {ds : List Declaration}
      (declarations : s.Holds Declaration.listOfText types ds) :
      Answers s (.schema types none) (Declaration.schemas ds) true
  | schema {types id : String} {ds : List Declaration} {d : Declaration}
      (declarations : s.Holds Declaration.listOfText types ds)
      (first : Declaration.IsFirst ds id d) : Answers s (.schema types (some id)) d.schema true
  | validate {t : Target} {events now : Option String} {d : Declaration} {e : Event}
      {user : Option Json} {others : Option (List Event)} {now' : Option Instant}
      {verdict : Verdict} (target : t.Finds s d e user)
      (scope : Option.Rel (s.Holds Event.listOfText) events others)
      (time : Option.Rel (fun text t => Instant.ofStrict text = .ok t) now now')
      (result : d.validate e { clock := s.clock, now := now', others := others.getD [], user } =
        verdict) :
      Answers s (.validate t events now) verdict.json verdict.valid
  | render {t : Target} {d : Declaration} {e : Event} {user : Option Json}
      (target : t.Finds s d e user) :
      Answers s (.render t) (d.render e (.ofUser s.clock user)).json true
  | can {action : String} {t : Target} {d : Declaration} {e : Event} {user : Option Json}
      (target : t.Finds s d e user) :
      Answers s (.can action t)
        (.bool (d.allows e (.ofUser s.clock user) (Action.ofName action))) true
  | expand {path : Option String} {limit : Option Nat} {e : Event} {os : List Occurrence}
      (event : s.HoldsEvent path e) (occurrences : e.occurrences (limit.getD 500) = .ok os) :
      Answers s (.expand path limit) (.array (os.map Occurrence.json)) true

variable {s : Surroundings} {c : Command}

theorem report_of_answers [TimeZones] [RuleEngine] {answer : Json} {content : Bool}
    (h : c.Answers s answer content) : c.report s = .ok ⟨answer.prettyText, content⟩ := by
  cases h with
  | schemas declarations =>
    rw [report, Surroundings.loadTypes_eq_ok_iff.2 declarations]
    rfl
  | schema declarations first =>
    rw [report, Surroundings.loadTypes_eq_ok_iff.2 declarations, Outcome.ok_bind,
      Declaration.find_eq_ok_iff.2 first]
    rfl
  | validate target scope time result =>
    rw [report, Target.load_eq_ok_iff.2 target, Outcome.ok_bind]
    simp only
    rw [Surroundings.loadEvents_eq_ok_iff.2 ⟨_, scope, rfl⟩, Outcome.ok_bind,
      Surroundings.loadNow_eq_ok_iff.2 time, Outcome.ok_bind, result]
    rfl
  | render target =>
    rw [report, Target.load_eq_ok_iff.2 target]
    rfl
  | can target =>
    rw [report, Target.load_eq_ok_iff.2 target, Json.prettyText_bool]
    rfl
  | expand event occurrences =>
    rw [report, Surroundings.loadEvent_eq_ok_iff.2 event, Outcome.ok_bind]
    simp only [Event.defaultLimit, occurrences]
    rfl

theorem exists_answer_of_report [TimeZones] [RuleEngine] {report : Report}
    (h : c.report s = .ok report) :
    ∃ answer, c.Answers s answer report.succeeded ∧ report.text = answer.prettyText := by
  cases c with
  | schema types id =>
    cases id with
    | none =>
      obtain ⟨ds, hds, h⟩ := Outcome.bind_eq_ok h
      rw [← Except.ok.inj h]
      exact ⟨_, .schemas (Surroundings.loadTypes_eq_ok_iff.1 hds), rfl⟩
    | some id =>
      obtain ⟨ds, hds, h⟩ := Outcome.bind_eq_ok h
      obtain ⟨d, hd, h⟩ := Outcome.bind_eq_ok h
      rw [← Except.ok.inj h]
      exact ⟨_, .schema (Surroundings.loadTypes_eq_ok_iff.1 hds) (Declaration.find_eq_ok_iff.1 hd),
        rfl⟩
  | validate target events now =>
    obtain ⟨⟨d, e, user⟩, htarget, h⟩ := Outcome.bind_eq_ok h
    obtain ⟨others, hothers, h⟩ := Outcome.bind_eq_ok h
    obtain ⟨t, ht, h⟩ := Outcome.bind_eq_ok h
    rw [← Except.ok.inj h]
    obtain ⟨others', hscope, rfl⟩ := Surroundings.loadEvents_eq_ok_iff.1 hothers
    exact ⟨_, .validate (Target.load_eq_ok_iff.1 htarget) hscope
      (Surroundings.loadNow_eq_ok_iff.1 ht) rfl, rfl⟩
  | render target =>
    obtain ⟨⟨d, e, user⟩, htarget, h⟩ := Outcome.bind_eq_ok h
    rw [← Except.ok.inj h]
    exact ⟨_, .render (Target.load_eq_ok_iff.1 htarget), rfl⟩
  | can action target =>
    obtain ⟨⟨d, e, user⟩, htarget, h⟩ := Outcome.bind_eq_ok h
    rw [← Except.ok.inj h]
    exact ⟨_, .can (Target.load_eq_ok_iff.1 htarget), (Json.prettyText_bool _).symm⟩
  | expand path limit =>
    obtain ⟨e, he, h⟩ := Outcome.bind_eq_ok h
    cases hos : e.occurrences (limit.getD Event.defaultLimit) with
    | ok os =>
      simp only [hos] at h
      rw [← Except.ok.inj h]
      exact ⟨_, .expand (Surroundings.loadEvent_eq_ok_iff.1 he) hos, rfl⟩
    | error error =>
      simp only [hos] at h
      cases error <;> cases h

/-! ## Failures -/

/-- Expanding the event of a command runs out of the range of instants. -/
def Aborts [TimeZones] [RuleEngine] (s : Surroundings) : Command → Prop
  | .expand path limit =>
    ∃ e, s.HoldsEvent path e ∧ e.occurrences (limit.getD 500) = .error .outOfRange
  | _ => False

/-- A step that fails with a message, if it fails. -/
def Returns {α : Type} (x : Except CommandFailure α) : Prop := x ≠ .error .outOfRange

namespace Returns

variable {α β : Type}

theorem pure (a : α) : Returns (.ok a) := nofun

theorem bind {x : Except CommandFailure α} {f : α → Except CommandFailure β} (hx : Returns x)
    (hf : ∀ a, Returns (f a)) : Returns (x >>= f) := by
  cases x with
  | ok a => exact hf a
  | error failure =>
    intro h
    cases h
    exact hx rfl

theorem load {failure : CommandFailure} (h : failure ≠ .outOfRange)
    (read : String → Except Problem α) (text : String) :
    Returns (Surroundings.load failure read text) := by
  unfold Surroundings.load
  cases read text with
  | ok a => exact pure a
  | error problem =>
    intro heq
    exact h (Except.error.inj heq)

theorem readFile (path : String) : Returns (s.readFile path) := by
  unfold Surroundings.readFile
  cases s.file? path with
  | some text => exact pure text
  | none => nofun

theorem loadTypes (path : String) : Returns (s.loadTypes path) :=
  (readFile path).bind fun text => load (by nofun) _ text

theorem loadEvent (path : Option String) : Returns (s.loadEvent path) := by
  cases path with
  | some path => exact (readFile path).bind fun text => load (by nofun) _ text
  | none =>
    unfold Surroundings.loadEvent
    cases s.input? with
    | some text => exact load (by nofun) _ text
    | none => nofun

theorem loadEvents (path : Option String) : Returns (s.loadEvents path) := by
  cases path with
  | some path => exact (readFile path).bind fun text => load (by nofun) _ text
  | none => exact pure []

theorem loadUser (path : Option String) : Returns (s.loadUser path) := by
  cases path with
  | some path =>
    exact (readFile path).bind fun text =>
      (load (by nofun) _ text).bind fun user => pure (some user)
  | none => exact pure none

theorem loadNow (now : Option String) : Returns (Surroundings.loadNow now) := by
  unfold Surroundings.loadNow
  cases now with
  | some text =>
    simp only
    cases Instant.ofStrict text <;> nofun
  | none => exact pure none

theorem find (ds : List Declaration) (id : String) : Returns (Declaration.find ds id) := by
  unfold Declaration.find
  cases ds.find? fun d => d.id == id <;> nofun

theorem target (t : Target) : Returns (t.load s) :=
  (loadTypes t.types).bind fun ds => (loadEvent t.event).bind fun e =>
    (find ds _).bind fun d => (loadUser t.user).bind fun user => pure (d, e, user)

end Returns

theorem report_eq_outOfRange_iff [TimeZones] [RuleEngine] :
    c.report s = .error .outOfRange ↔ c.Aborts s := by
  cases c with
  | schema types id =>
    refine iff_of_false ?_ False.elim
    cases id with
    | none => exact (Returns.loadTypes types).bind fun ds => .pure _
    | some id =>
      exact (Returns.loadTypes types).bind fun ds => (Returns.find ds id).bind fun d => .pure _
  | validate target events now =>
    refine iff_of_false ?_ False.elim
    exact (Returns.target target).bind fun _ => (Returns.loadEvents events).bind fun _ =>
      (Returns.loadNow now).bind fun _ => .pure _
  | render target =>
    refine iff_of_false ?_ False.elim
    exact (Returns.target target).bind fun _ => .pure _
  | can action target =>
    refine iff_of_false ?_ False.elim
    exact (Returns.target target).bind fun _ => .pure _
  | expand path limit =>
    constructor
    · intro h
      cases he : s.loadEvent path with
      | error failure =>
        rw [report, he] at h
        cases h
        exact absurd he (Returns.loadEvent path)
      | ok e =>
        refine ⟨e, Surroundings.loadEvent_eq_ok_iff.1 he, ?_⟩
        rw [report, he, Outcome.ok_bind] at h
        cases hos : e.occurrences (limit.getD 500) with
        | ok os =>
          simp only [Event.defaultLimit, hos] at h
          cases h
        | error error =>
          simp only [Event.defaultLimit, hos] at h
          cases error with
          | outOfRange => rfl
          | _ => cases h
    · rintro ⟨e, he, hos⟩
      rw [report, Surroundings.loadEvent_eq_ok_iff.2 he, Outcome.ok_bind]
      simp only [Event.defaultLimit, hos]
      rfl

end Command

/-! ## Runs -/

theorem CommandFailure.exists_outcome_eq {f : CommandFailure} (h : f ≠ .outOfRange) :
    ∃ message, f.outcome = { exitCode := 1, error := some message } := by
  cases f with
  | outOfRange => exact absurd rfl h
  | _ => exact ⟨_, rfl⟩

namespace Invocation

variable {i : Invocation} {s : Surroundings}

/-- The file that the result goes to can be written. -/
def CanWrite (i : Invocation) (s : Surroundings) : Prop :=
  ∀ path ∈ i.output, s.isWritable path = true

section Run

variable [TimeZones] [RuleEngine]

theorem run_of_answers {answer : Json} {content : Bool}
    (h : i.command.Answers s answer content) (hwrite : i.CanWrite s) :
    i.run s = {
      exitCode := if content then 0 else 1
      stdout := i.output.elim answer.prettyText fun _ => ""
      error := none
      written := i.output.map fun path => (path, answer.prettyText) } := by
  unfold run
  rw [Command.report_of_answers h]
  cases hout : i.output with
  | none => rfl
  | some path => exact if_pos (hwrite path hout)

theorem run_of_aborts (h : i.command.Aborts s) : i.run s = { exitCode := 101 } := by
  unfold run
  rw [Command.report_eq_outOfRange_iff.2 h]
  rfl

theorem run_of_fails (h : ¬i.command.Aborts s)
    (hfails : ∀ answer content, i.command.Answers s answer content → ¬i.CanWrite s) :
    ∃ message, i.run s = { exitCode := 1, error := some message } := by
  unfold run
  cases hreport : i.command.report s with
  | error f =>
    refine CommandFailure.exists_outcome_eq ?_
    rintro rfl
    exact h (Command.report_eq_outOfRange_iff.1 hreport)
  | ok report =>
    obtain ⟨answer, hanswer, -⟩ := Command.exists_answer_of_report hreport
    have hwrite := hfails answer _ hanswer
    unfold CanWrite at hwrite
    push Not at hwrite
    obtain ⟨path, hout, hclosed⟩ := hwrite
    simp only [Option.mem_def.1 hout]
    rw [if_neg hclosed]
    exact ⟨_, rfl⟩

end Run

end Invocation

/-- What a command line shows that can be read.  If its command has an answer and the result may be
written, the answer is shown once and as a whole: in the output file if there is one, and then
nothing on standard output, or else on standard output; the exit code is zero, or one if a
validation has an invalid verdict.  If not, nothing is written and nothing shown but a message, and
the exit code is one, unless the program ends at once for the range of instants. -/
theorem Invocation.run_refines [TimeZones] [RuleEngine] {words : List String} {i : Invocation}
    (h : Invocation.ofWords words = .ok i) (s : Surroundings) :
    (∀ answer content, i.command.Answers s answer content →
      (∀ path ∈ i.output, s.isWritable path = true) →
      runWords words s = {
        exitCode := if content then 0 else 1
        stdout := i.output.elim answer.prettyText fun _ => ""
        error := none
        written := i.output.map fun path => (path, answer.prettyText) }) ∧
    (¬i.command.Aborts s →
      (∀ answer content, i.command.Answers s answer content →
        ¬∀ path ∈ i.output, s.isWritable path = true) →
      ∃ message, runWords words s = {
        exitCode := 1
        stdout := ""
        error := some message
        written := none }) ∧
    (i.command.Aborts s → runWords words s = {
      exitCode := 101
      stdout := ""
      error := none
      written := none }) := by
  have hrun : runWords words s = i.run s := by
    unfold runWords
    rw [h]
  rw [hrun]
  exact ⟨fun _ _ => Invocation.run_of_answers, Invocation.run_of_fails, Invocation.run_of_aborts⟩

/-! ## An exhibition that never closes -/

/-- A file with the exhibition in it. -/
def exhibitionFiles : Surroundings where
  file? := fun path => if path = "event.json" then some exhibition.json.text else none
  input? := none
  isWritable := fun _ => true
  clock := exhibition.start

theorem holdsEvent_exhibition : exhibitionFiles.HoldsEvent (some "event.json") exhibition := by
  have hfile : exhibitionFiles.file? "event.json" = some exhibition.json.text := by
    simp [exhibitionFiles]
  have hrange : ∀ r, exhibition.recurring = some r → r.InRange := by
    rintro r ⟨⟩
    refine ⟨⟨by decide, by decide⟩, ?_, nofun, nofun⟩
    rintro i ⟨⟩
    exact ⟨by decide, by decide⟩
  have hextra : (Json.object exhibition.extra).WellFormed ∧
      (Json.object exhibition.extra).depth < Source.maxDepth := by
    refine ⟨Json.wellFormed_object.2 ⟨List.nodup_nil, List.forall_mem_nil _⟩, ?_⟩
    show (Json.object []).depth < Source.maxDepth
    rw [Json.depth, Json.depthOfEntries]
    decide
  have hmetadata : ∀ m, exhibition.metadata ≠ some m := by
    rintro m ⟨⟩
  have hwritable : exhibition.Writable := ⟨hextra, hrange, fun m hm => absurd hm (hmetadata m)⟩
  have hdoubles : exhibition.json.doubles = [] := by
    rfl
  exact ⟨_, hfile, hwritable.ofText_text (Json.doublesReadBack_of_doubles_eq_nil hdoubles)⟩

/-- The first day of the exhibition, which is as long as it is. -/
def exhibitionDay : Occurrence := ⟨exhibition.start, exhibition.finish⟩

theorem occurrences_exhibitionDay : exhibition.occurrences 1 = .ok [exhibitionDay] := by
  have hadmitted : exhibitionRule.admitted (Event.drawnFor exhibitionDays 1) = [1767225600] :=
    RuleSet.admitted_eq_of_found [1767225600] rfl rfl (by decide +kernel)
  rw [Event.occurrences_of_isRead rfl rfl rfl rfl isRead_exhibition hadmitted]
  rfl

/-- The document with the first day of the exhibition. -/
def exhibitionAnswer : Json := .array ([exhibitionDay].map Occurrence.json)

theorem Invocation.run_refines_exhibition :
    Invocation.ofWords ["expand", "--event", "event.json", "--limit", "1", "-o", "days.json"] =
      .ok ⟨.expand (some "event.json") (some 1), some "days.json"⟩ ∧
    Command.Answers exhibitionFiles (.expand (some "event.json") (some 1)) exhibitionAnswer true ∧
    runWords ["expand", "--event", "event.json", "--limit", "1", "-o", "days.json"]
      exhibitionFiles = {
        exitCode := 0
        stdout := ""
        error := none
        written := some ("days.json", exhibitionAnswer.prettyText) } := by
  have hwords : Invocation.ofWords
      ["expand", "--event", "event.json", "--limit", "1", "-o", "days.json"] =
        .ok ⟨.expand (some "event.json") (some 1), some "days.json"⟩ := by
    rfl
  have hanswers : Command.Answers exhibitionFiles (.expand (some "event.json") (some 1))
      exhibitionAnswer true := by
    refine .expand holdsEvent_exhibition ?_
    exact occurrences_exhibitionDay
  exact ⟨hwords, hanswers,
    (Invocation.run_refines hwords exhibitionFiles).1 _ _ hanswers fun _ _ => rfl⟩

/-- Asked for two days, the program ends at once: it neither shows an answer nor fails. -/
theorem Invocation.run_eq_aborted_exhibition :
    Invocation.ofWords ["expand", "--event", "event.json", "--limit", "2"] =
      .ok ⟨.expand (some "event.json") (some 2), none⟩ ∧
    runWords ["expand", "--event", "event.json", "--limit", "2"] exhibitionFiles = {
      exitCode := 101
      stdout := ""
      error := none
      written := none } := by
  have hwords : Invocation.ofWords ["expand", "--event", "event.json", "--limit", "2"] =
      .ok ⟨.expand (some "event.json") (some 2), none⟩ := by
    rfl
  refine ⟨hwords, ?_⟩
  unfold runWords
  rw [hwords]
  exact Invocation.run_of_aborts ⟨exhibition, holdsEvent_exhibition, occurrences_exhibition⟩

end CalendarRules
