import CalendarRules.Proofs.Appearance
import CalendarRules.Proofs.Value.Alike

/-!
# One rule for each property

How an event looks is found by going through all display rules, but it has a description without any
order between properties: each property is what the last rule for it evaluates to, or what it is
without a rule (`Declaration.render_eq_last`).  A rule is evaluated against the event alone, so it
does not matter what other rules have set before.

The other properties are entries of an object, which repeats no key.  Two lists that have the same
rules for each property, in the same order, therefore set the same entries
(`Declaration.agrees_of_rulesFor_eq`).  Only the places of the entries in the object may differ: they
are those of the first rules.
-/

namespace CalendarRules

namespace DisplayRule

/-- The rules for a property in their order. -/
def rulesFor (property : DisplayProperty) (rules : List DisplayRule) : List DisplayRule :=
  rules.filter fun rule => rule.property = property

end DisplayRule

namespace Appearance

/-- Two ways to look that differ at most in the order of the other properties. -/
structure Agrees (a b : Appearance) : Prop where
  title : a.title = b.title
  color : a.color = b.color
  icon : a.icon = b.icon
  description : a.description = b.description
  allDay : a.allDay = b.allDay
  extra : a.extra.Perm b.extra

theorem nodup_keys_set {a : Appearance} (h : (Entries.keys a.extra).Nodup)
    (property : DisplayProperty) (value : Json) :
    (Entries.keys (a.set property value).extra).Nodup := by
  cases property with
  | other name => exact Entries.nodup_keys_insert h name value
  | color | icon | title | description => exact h

end Appearance

namespace Declaration

variable {d : Declaration} {event : Event} {scope : Scope}

/-- The last rule for a property. -/
def lastRuleFor? (d : Declaration) (property : DisplayProperty) : Option DisplayRule :=
  (DisplayRule.rulesFor property d.display).getLast?

/-- The last value for a property is that of the last rule for it. -/
theorem getLast?_valuesFor (property : DisplayProperty) :
    (d.valuesFor event scope property).getLast? =
      (d.lastRuleFor? property).map fun rule => rule.value.evaluate event scope := by
  have hvalues : d.valuesFor event scope property =
      (DisplayRule.rulesFor property d.display).map fun rule => rule.value.evaluate event scope := by
    rw [valuesFor, DisplayRule.rulesFor, ← List.filterMap_eq_map', List.filterMap_filter]
    refine List.filterMap_congr fun rule _ => ?_
    simp only [DisplayRule.valueFor?, decide_eq_true_eq]
  rw [hvalues, List.getLast?_map, lastRuleFor?]

/-! ## What every rule keeps -/

/-- What holds before any rule and is kept by every setting holds in the end. -/
theorem render_induction (holds : Appearance → Prop) (hinitial : holds (d.initialAppearance event))
    (hset : ∀ a property value, holds a → holds (a.set property value)) :
    holds (d.render event scope) :=
  List.foldlRecOn d.display _ hinitial fun a h rule _ => hset a rule.property _ h

theorem nodup_keys_render : (Entries.keys (d.render event scope).extra).Nodup :=
  render_induction (fun a => (Entries.keys a.extra).Nodup) List.nodup_nil
    fun _ property value h => Appearance.nodup_keys_set h property value

theorem allDay_render : (d.render event scope).allDay = event.allDay :=
  render_induction (fun a => a.allDay = event.allDay) rfl fun _ property _ h => by
    cases property <;> exact h

/-! ## Other properties -/

theorem get?_extra_render (name : String) : Entries.get? name (d.render event scope).extra =
    (d.valuesFor event scope (.other name)).getLast? := by
  have h : Entries.get? name (d.render event scope).extra =
      ((d.valuesFor event scope (.other name)).getLast?.map some).getD none :=
    observe_render (fun a => Entries.get? name a.extra) fun a p v => by
      cases p with
      | other name' => simp only [Appearance.set, Entries.get?_insert, DisplayProperty.other.injEq]
      | color | icon | title | description => rfl
  rw [h]
  cases (d.valuesFor event scope (.other name)).getLast? <;> rfl

/-! ## The last rules decide -/

/-- Declarations that differ in their display rules only, and have the same rules for each property
in the same order, show an event alike. -/
theorem agrees_of_rulesFor_eq {rules : List DisplayRule}
    (h : ∀ property, DisplayRule.rulesFor property rules =
      DisplayRule.rulesFor property d.display) :
    (render { d with display := rules } event scope).Agrees (d.render event scope) := by
  have hlast : ∀ property,
      (valuesFor { d with display := rules } event scope property).getLast? =
        (d.valuesFor event scope property).getLast? := by
    intro property
    rw [getLast?_valuesFor, getLast?_valuesFor, lastRuleFor?, lastRuleFor?, h]
  refine ⟨?_, ?_, ?_, ?_, ?_, Entries.perm_of_get? nodup_keys_render nodup_keys_render fun name => ?_⟩
  · rw [title_render, title_render, hlast]
    rfl
  · rw [color_render, color_render, hlast]
  · rw [icon_render, icon_render, hlast]
  · rw [description_render, description_render, hlast]
  · rw [allDay_render, allDay_render]
  · rw [get?_extra_render, get?_extra_render, hlast]

/-- The color, the title and the description are the texts of what the last rules for them evaluate
to, without a rule the common color, the title of the event or else the name of its type, and the
empty text.  The icon is what its last rule evaluates to, if there is one, and the other properties
are the entries that their last rules set.  So display rules may change places as long as those for
one property keep their order. -/
theorem render_eq_last (d : Declaration) (event : Event) (scope : Scope) :
    (d.render event scope).color =
      ((d.lastRuleFor? .color).map fun rule =>
        Appearance.propertyText (rule.value.evaluate event scope)).getD Appearance.defaultColor ∧
    (d.render event scope).title =
      ((d.lastRuleFor? .title).map fun rule =>
        Appearance.propertyText (rule.value.evaluate event scope)).getD
          (event.title.getD d.displayName) ∧
    (d.render event scope).description =
      some (((d.lastRuleFor? .description).map fun rule =>
        Appearance.propertyText (rule.value.evaluate event scope)).getD "") ∧
    (d.render event scope).icon =
      (d.lastRuleFor? .icon).map (fun rule => rule.value.evaluate event scope) ∧
    (∀ name, Entries.get? name (d.render event scope).extra =
      (d.lastRuleFor? (.other name)).map fun rule => rule.value.evaluate event scope) ∧
    (Entries.keys (d.render event scope).extra).Nodup ∧
    (∀ rules, (∀ property, DisplayRule.rulesFor property rules =
        DisplayRule.rulesFor property d.display) →
      (render { d with display := rules } event scope).Agrees (d.render event scope)) := by
  refine ⟨?_, ?_, ?_, ?_, fun name => ?_, nodup_keys_render, fun rules => agrees_of_rulesFor_eq⟩
  · rw [color_render, getLast?_valuesFor, Option.map_map]
    rfl
  · rw [title_render, getLast?_valuesFor, Option.map_map]
    rfl
  · rw [description_render, getLast?_valuesFor, Option.map_map]
    rfl
  · rw [icon_render, getLast?_valuesFor]
  · rw [get?_extra_render, getLast?_valuesFor]

/-- A play: gray and then, if it is sold out, red, with two badges and a title of its own. -/
def play : Declaration where
  id := "play"
  name := "Play"
  display := [⟨.color, .literal (.string "gray")⟩, ⟨.other "badge", .literal (.string "new")⟩,
    ⟨.color, .conditional (.field ⟨["soldOut"]⟩) (.literal (.string "red")) none⟩,
    ⟨.title, .template [.text "Play: ", .field ⟨["title"]⟩]⟩,
    ⟨.other "badge", .literal (.bool true)⟩]

/-- The same rules: the title first, then the badges, then the colors. -/
def playRules : List DisplayRule :=
  [⟨.title, .template [.text "Play: ", .field ⟨["title"]⟩]⟩,
    ⟨.other "badge", .literal (.string "new")⟩, ⟨.other "badge", .literal (.bool true)⟩,
    ⟨.color, .literal (.string "gray")⟩,
    ⟨.color, .conditional (.field ⟨["soldOut"]⟩) (.literal (.string "red")) none⟩]

/-- A sold-out evening. -/
def openingNight : Event where
  id := "1"
  type := "play"
  title := some "Faust"
  start := ⟨20456, 68400, 0, by decide⟩
  finish := ⟨20456, 79200, 0, by decide⟩
  extra := [("soldOut", .bool true)]

/-- The evening is red, its badge is the last one, and the order of the rules does not matter. -/
theorem render_eq_last_play :
    (play.render openingNight { clock := openingNight.start }).color = "red" ∧
    Entries.get? "badge" (play.render openingNight { clock := openingNight.start }).extra =
      some (.bool true) ∧
    (render { play with display := playRules } openingNight { clock := openingNight.start }).Agrees
      (play.render openingNight { clock := openingNight.start }) := by
  obtain ⟨hcolor, -, -, -, hextra, -, hreordered⟩ :=
    render_eq_last play openingNight { clock := openingNight.start }
  have hrules : ∀ property, DisplayRule.rulesFor property playRules =
      DisplayRule.rulesFor property play.display := by
    intro property
    by_cases hbadge : DisplayProperty.other "badge" = property
    · subst hbadge
      rfl
    · cases property <;> simp [DisplayRule.rulesFor, playRules, play, hbadge]
  refine ⟨?_, ?_, hreordered playRules hrules⟩
  · rw [hcolor]
    decide +kernel
  · rw [hextra]
    rfl

end Declaration
end CalendarRules
