import CalendarRules.Recurrence

/-!
# Events

An event of a calendar: what it is called, when it starts and finishes, and a payload with whatever
its type asks for.  Its type is the name of a declaration, and nothing here depends on it.

What an event leaves out is left out again when it is written.  An empty payload is not written, so
that it is the same as none; an empty record of metadata is.
-/

namespace CalendarRules

/-- When an event was made and changed, and whatever else is kept about it. -/
structure EventMetadata where
  createdAt : Option Instant
  updatedAt : Option Instant
  other : Entries

namespace EventMetadata

def read (s : Source) : Except Problem EventMetadata := do
  let createdAt := s.optionalSlot 0 "createdAt" fun x _ => Source.readOption Instant.read x
  let updatedAt := s.optionalSlot 1 "updatedAt" fun x _ => Source.readOption Instant.read x
  let other ← s.readOpenRecord "struct EventMetadata" [createdAt.report, updatedAt.report]
  return ⟨← createdAt.getD none, ← updatedAt.getD none, other⟩

def json (m : EventMetadata) : Json :=
  .object <|
    Entries.optional "createdAt" (m.createdAt.map Instant.json) ++
    Entries.optional "updatedAt" (m.updatedAt.map Instant.json) ++
    m.other

end EventMetadata

structure Event where
  id : String
  /-- The name of the declaration of its type. -/
  type : String
  title : Option String := none
  start : Instant
  finish : Instant
  color : Option String := none
  icon : Option String := none
  /-- The payload. -/
  extra : Entries := []
  timeZone : Option String := none
  allDay : Option Bool := none
  recurring : Option Recurrence := none
  parentEventId : Option String := none
  recurrenceId : Option String := none
  metadata : Option EventMetadata := none

namespace Event

/-! ## Reading and writing -/

def read (s : Source) : Except Problem Event := do
  let id := s.slot 0 "id" fun x _ => x.readString
  let type := s.slot 1 "type" fun x _ => x.readString
  let title := s.optionalSlot 2 "title" fun x _ => Source.readOption Source.readString x
  let start := s.slot 3 "startTime" fun x _ => Instant.read x
  let finish := s.slot 4 "endTime" fun x _ => Instant.read x
  let color := s.optionalSlot 5 "color" fun x _ => Source.readOption Source.readString x
  let icon := s.optionalSlot 6 "icon" fun x _ => Source.readOption Source.readString x
  let extra := s.optionalSlot 7 "extra" fun x _ => x.readEntries
  let timeZone := s.optionalSlot 8 "timeZone" fun x _ => Source.readOption Source.readString x
  let allDay := s.optionalSlot 9 "allDay" fun x _ => Source.readOption Source.readBool x
  let recurring := s.optionalSlot 10 "recurring" fun x _ =>
    Source.readOption (Recurrence.read .text) x
  let parentEventId := s.optionalSlot 11 "parentEventId" fun x _ =>
    Source.readOption Source.readString x
  let recurrenceId := s.optionalSlot 12 "recurrenceId" fun x _ =>
    Source.readOption Source.readString x
  let metadata := s.optionalSlot 13 "metadata" fun x _ => Source.readOption EventMetadata.read x
  s.checkRecord .text "struct Event"
    [id.report, type.report, title.report, start.report, finish.report, color.report, icon.report,
      extra.report, timeZone.report, allDay.report, recurring.report, parentEventId.report,
      recurrenceId.report, metadata.report]
  return {
    id := ← id.get
    type := ← type.get
    title := ← title.getD none
    start := ← start.get
    finish := ← finish.get
    color := ← color.getD none
    icon := ← icon.getD none
    extra := ← extra.getD []
    timeZone := ← timeZone.getD none
    allDay := ← allDay.getD none
    recurring := ← recurring.getD none
    parentEventId := ← parentEventId.getD none
    recurrenceId := ← recurrenceId.getD none
    metadata := ← metadata.getD none }

/-- Reads one event from its text. -/
def ofText (text : String) : Except Problem Event := (Document.ofText text).read read

/-- Reads a list of events from its text. -/
def listOfText (text : String) : Except Problem (List Event) :=
  (Document.ofText text).read (Source.readList read)

def json (e : Event) : Json :=
  .object <|
    [("id", .string e.id), ("type", .string e.type)] ++
    Entries.optional "title" (e.title.map .string) ++
    [("startTime", e.start.json), ("endTime", e.finish.json)] ++
    Entries.optional "color" (e.color.map .string) ++
    Entries.optional "icon" (e.icon.map .string) ++
    Entries.optional "extra" (if e.extra.isEmpty then none else some (.object e.extra)) ++
    Entries.optional "timeZone" (e.timeZone.map .string) ++
    Entries.optional "allDay" (e.allDay.map .bool) ++
    Entries.optional "recurring" (e.recurring.map Recurrence.json) ++
    Entries.optional "parentEventId" (e.parentEventId.map .string) ++
    Entries.optional "recurrenceId" (e.recurrenceId.map .string) ++
    Entries.optional "metadata" (e.metadata.map EventMetadata.json)

/-! ## Building -/

def withTitle (title : String) (e : Event) : Event := { e with title := some title }

/-- Sets a key of the payload. -/
def withExtra (key : String) (value : Json) (e : Event) : Event :=
  { e with extra := Entries.insert key value e.extra }

/-- How long an event takes, in nanoseconds. -/
def length (e : Event) : Int := e.finish.minus e.start

end Event
end CalendarRules
