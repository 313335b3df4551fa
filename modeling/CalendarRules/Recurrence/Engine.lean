import CalendarRules.Time.Instant

/-!
# Engines that expand rules

A rule that has been written down as text is expanded by an engine, which reads any such text.  It
may refuse a text with a message; else it can be asked for instances of the rule, the excluded ones
left out.  What an engine takes and which instances it gives is not settled here.  An expansion
hands it a text, and makes occurrences of the instances that come back.
-/

namespace CalendarRules

/-- What an engine gives for a rule when it is asked for so many instances. -/
abbrev Instances := Nat → List Instant

/-- An engine that expands rules. -/
class RuleEngine where
  /-- The instances of the rule of a text, or the message with which the text is refused. -/
  expand : List Char → Except String Instances
  /-- A text tells time to the second, and so do the instances of its rule. -/
  whole : ∀ {text instances}, expand text = .ok instances → ∀ cap, ∀ t ∈ instances cap, t.nano = 0

end CalendarRules
