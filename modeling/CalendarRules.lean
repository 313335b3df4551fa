import CalendarRules.Appearance
import CalendarRules.Binary64
import CalendarRules.Binary64.Numeral
import CalendarRules.Binary64.Shortest
import CalendarRules.Command
import CalendarRules.Command.Arguments
import CalendarRules.Command.Run
import CalendarRules.Declaration
import CalendarRules.Declaration.Behavior
import CalendarRules.Declaration.Constraint
import CalendarRules.Declaration.Display
import CalendarRules.Declaration.Expression
import CalendarRules.Declaration.FieldType
import CalendarRules.Declaration.Literal
import CalendarRules.Declaration.Rule
import CalendarRules.Event
import CalendarRules.Event.Conflict
import CalendarRules.Event.Field
import CalendarRules.Event.Scope
import CalendarRules.Json
import CalendarRules.Json.Fault
import CalendarRules.Json.Number
import CalendarRules.Json.Numeral
import CalendarRules.Json.Parser
import CalendarRules.Json.Path
import CalendarRules.Json.Problem
import CalendarRules.Json.Reading
import CalendarRules.Json.Source
import CalendarRules.Json.Writer
import CalendarRules.Main
import CalendarRules.Permission
import CalendarRules.Power
import CalendarRules.Proofs.Appearance
import CalendarRules.Proofs.Appearance.LastRule
import CalendarRules.Proofs.Appearance.Template
import CalendarRules.Proofs.Binary64.Integer
import CalendarRules.Proofs.Binary64.Order
import CalendarRules.Proofs.Binary64.Rounding
import CalendarRules.Proofs.Binary64.Shortest
import CalendarRules.Proofs.Command
import CalendarRules.Proofs.Command.Schema
import CalendarRules.Proofs.Declaration.Constraint
import CalendarRules.Proofs.Declaration.Display
import CalendarRules.Proofs.Declaration.Expression
import CalendarRules.Proofs.Declaration.FieldType
import CalendarRules.Proofs.Declaration.Lenient
import CalendarRules.Proofs.Declaration.Literal
import CalendarRules.Proofs.Declaration.Origin
import CalendarRules.Proofs.Declaration.Paths
import CalendarRules.Proofs.Declaration.Record
import CalendarRules.Proofs.Declaration.Recurrence
import CalendarRules.Proofs.Declaration.RoundTrip
import CalendarRules.Proofs.Declaration.Rule
import CalendarRules.Proofs.Declaration.TypeForm
import CalendarRules.Proofs.Event.Conflict
import CalendarRules.Proofs.Event.Path
import CalendarRules.Proofs.Event.Payload
import CalendarRules.Proofs.Event.RoundTrip
import CalendarRules.Proofs.Json.Compact
import CalendarRules.Proofs.Json.Entries
import CalendarRules.Proofs.Json.Kept
import CalendarRules.Proofs.Json.Nesting
import CalendarRules.Proofs.Json.Number
import CalendarRules.Proofs.Json.Numeral
import CalendarRules.Proofs.Json.Quoted
import CalendarRules.Proofs.Json.Record
import CalendarRules.Proofs.Json.Replaced
import CalendarRules.Proofs.Json.Restored
import CalendarRules.Proofs.Json.Same
import CalendarRules.Proofs.Json.Unrepeated
import CalendarRules.Proofs.Json.WellFormed
import CalendarRules.Proofs.LastSetting
import CalendarRules.Proofs.Outcome
import CalendarRules.Proofs.Permission
import CalendarRules.Proofs.Recurrence.Acceptance
import CalendarRules.Proofs.Recurrence.Clauses
import CalendarRules.Proofs.Recurrence.Daily
import CalendarRules.Proofs.Recurrence.Exclusions
import CalendarRules.Proofs.Recurrence.Instances
import CalendarRules.Proofs.Recurrence.Lowering
import CalendarRules.Proofs.Recurrence.Periods
import CalendarRules.Proofs.Recurrence.Range
import CalendarRules.Proofs.Recurrence.Recovery
import CalendarRules.Proofs.Recurrence.Refusal
import CalendarRules.Proofs.Recurrence.RuleText
import CalendarRules.Proofs.Recurrence.Series
import CalendarRules.Proofs.Recurrence.Stamp
import CalendarRules.Proofs.Recurrence.WallClock
import CalendarRules.Proofs.Schema
import CalendarRules.Proofs.Text.Decimal
import CalendarRules.Proofs.Text.Opening
import CalendarRules.Proofs.Text.Order
import CalendarRules.Proofs.Text.Spelling
import CalendarRules.Proofs.Time.Clock
import CalendarRules.Proofs.Time.Date
import CalendarRules.Proofs.Time.Daylight
import CalendarRules.Proofs.Time.Instant
import CalendarRules.Proofs.Time.Plain
import CalendarRules.Proofs.Time.Timestamp
import CalendarRules.Proofs.Time.YearlyZone
import CalendarRules.Proofs.Time.Zone
import CalendarRules.Proofs.Validation.Bounds
import CalendarRules.Proofs.Validation.Chronology
import CalendarRules.Proofs.Validation.Dependence
import CalendarRules.Proofs.Validation.Duration
import CalendarRules.Proofs.Validation.Equality
import CalendarRules.Proofs.Validation.Leaves
import CalendarRules.Proofs.Validation.Limits
import CalendarRules.Proofs.Validation.Loosening
import CalendarRules.Proofs.Validation.Membership
import CalendarRules.Proofs.Validation.Midnight
import CalendarRules.Proofs.Validation.Noninterference
import CalendarRules.Proofs.Validation.Presence
import CalendarRules.Proofs.Validation.Remainder
import CalendarRules.Proofs.Validation.Topic
import CalendarRules.Proofs.Validation.WholeDay
import CalendarRules.Proofs.Value.Alike
import CalendarRules.Proofs.Value.Equality
import CalendarRules.Proofs.Value.Integer
import CalendarRules.Proofs.Value.Order
import CalendarRules.Proofs.Value.Scale
import CalendarRules.Recurrence
import CalendarRules.Recurrence.Engine
import CalendarRules.Recurrence.Expansion
import CalendarRules.Recurrence.RuleSet
import CalendarRules.Recurrence.RuleText
import CalendarRules.Recurrence.Series
import CalendarRules.Recurrence.Stamp
import CalendarRules.Schema
import CalendarRules.Text.Blank
import CalendarRules.Text.Digits
import CalendarRules.Text.Invisible
import CalendarRules.Text.Quotation
import CalendarRules.Text.Size
import CalendarRules.Text.Split
import CalendarRules.Time.Date
import CalendarRules.Time.Instant
import CalendarRules.Time.Plain
import CalendarRules.Time.Reading
import CalendarRules.Time.Timestamp
import CalendarRules.Time.YearlyZone
import CalendarRules.Time.Zone
import CalendarRules.Validation
import CalendarRules.Validation.Condition
import CalendarRules.Validation.Limits
import CalendarRules.Validation.Rules
import CalendarRules.Value
import CalendarRules.Value.Comparison
