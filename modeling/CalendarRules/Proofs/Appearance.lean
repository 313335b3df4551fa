import CalendarRules.Appearance
import CalendarRules.Proofs.LastSetting

/-!
# The rules that decide how an event looks

Display rules are evaluated one after the other, and each sets its property anew.  So a property is
what the last rule for it says, or what it was before any rule (`Declaration.color_render` and its
companions); rules for other properties do not matter to it.

Without evaluation, only rules are looked at that give a text.  Where all rules are of this kind,
and set nothing but color and icon, the event looks as it does with evaluation
(`Declaration.renderLiterals_agrees`).  There has to be a rule for the color: without one, the color
of the event itself is shown before any evaluation, and the common color after it.
-/

namespace CalendarRules

namespace DisplayRule

/-- What a rule sets a property to; a rule for another property sets it to nothing. -/
def valueFor? (event : Event) (scope : Scope) (property : DisplayProperty) (rule : DisplayRule) :
    Option Json :=
  if rule.property = property then some (rule.value.evaluate event scope) else none

/-- The text that a rule gives a property without evaluation. -/
def textFor? (property : DisplayProperty) (rule : DisplayRule) : Option String :=
  match rule.value with
  | .literal (.string s) => if rule.property = property then some s else none
  | _ => none

/-- A rule that gives the color or the icon as a text. -/
structure IsLiteral (rule : DisplayRule) : Prop where
  property : rule.property = .color ∨ rule.property = .icon
  value : ∃ s, rule.value = .literal (.string s)

/-- Evaluation gives a text that is there for what it is. -/
theorem IsLiteral.valueFor?_eq {rule : DisplayRule} (h : rule.IsLiteral) (event : Event)
    (scope : Scope) (property : DisplayProperty) :
    rule.valueFor? event scope property = (rule.textFor? property).map .string := by
  obtain ⟨s, hs⟩ := h.value
  rw [valueFor?, textFor?, hs]
  by_cases hp : rule.property = property
  · rw [if_pos hp]
    simp only [if_pos hp]
    rfl
  · rw [if_neg hp]
    simp only [if_neg hp]
    rfl

end DisplayRule

namespace Declaration

variable {d : Declaration} {event : Event} {scope : Scope}

/-- What the rules for a property set it to, in their order. -/
def valuesFor (d : Declaration) (event : Event) (scope : Scope) (property : DisplayProperty) :
    List Json :=
  d.display.filterMap (DisplayRule.valueFor? event scope property)

/-- The texts that the rules for a property give it without evaluation, in their order. -/
def textsFor (d : Declaration) (property : DisplayProperty) : List String :=
  d.display.filterMap (DisplayRule.textFor? property)

/-! ## The last rule for a property -/

section Render

/-- What a rendered event shows of one property, given what one rule does to it. -/
theorem observe_render {β : Type} (observe : Appearance → β) {shown : Json → β}
    {property : DisplayProperty}
    (h : ∀ a p v, observe (Appearance.set p v a) = if p = property then shown v else observe a) :
    observe (d.render event scope) =
      ((d.valuesFor event scope property).getLast?.map shown).getD
        (observe (d.initialAppearance event)) := by
  refine observe_foldl observe (fun a rule => ?_) d.display _
  rw [h, DisplayRule.valueFor?]
  split <;> rfl

theorem color_render : (d.render event scope).color =
    ((d.valuesFor event scope .color).getLast?.map Appearance.propertyText).getD
      Appearance.defaultColor :=
  observe_render Appearance.color fun a p v => by cases p <;> rfl

theorem title_render : (d.render event scope).title =
    ((d.valuesFor event scope .title).getLast?.map Appearance.propertyText).getD
      (d.titleOf event) :=
  observe_render Appearance.title fun a p v => by cases p <;> rfl

theorem icon_render :
    (d.render event scope).icon = (d.valuesFor event scope .icon).getLast? := by
  have h : (d.render event scope).icon =
      ((d.valuesFor event scope .icon).getLast?.map some).getD none :=
    observe_render Appearance.icon fun a p v => by cases p <;> rfl
  rw [h]
  cases (d.valuesFor event scope .icon).getLast? <;> rfl

theorem description_render : (d.render event scope).description =
    some (((d.valuesFor event scope .description).getLast?.map Appearance.propertyText).getD
      "") := by
  have h : (d.render event scope).description =
      ((d.valuesFor event scope .description).getLast?.map fun v =>
        some (Appearance.propertyText v)).getD (some "") :=
    observe_render Appearance.description fun a p v => by cases p <;> rfl
  rw [h]
  cases (d.valuesFor event scope .description).getLast? <;> rfl

end Render

/-! ## Without evaluation -/

theorem literalText?_eq (property : DisplayProperty) :
    d.literalText? property = (d.textsFor property).getLast? := by
  have h : d.literalText? property = ((d.textsFor property).getLast?.map some).getD none := by
    refine observe_foldl (fun found => found) (fun found rule => ?_) d.display none
    rw [DisplayRule.textFor?]
    cases rule.value with
    | literal value =>
      cases value with
      | string s => by_cases hp : rule.property = property <;> simp [hp]
      | null | bool _ | number _ | array _ | object _ => rfl
    | conditional _ _ _ | template _ => rfl
  rw [h]
  cases (d.textsFor property).getLast? <;> rfl

theorem valuesFor_eq_map (h : ∀ rule ∈ d.display, rule.IsLiteral) (property : DisplayProperty) :
    d.valuesFor event scope property = (d.textsFor property).map .string := by
  rw [valuesFor, textsFor, List.map_filterMap]
  exact List.filterMap_congr fun rule hrule => (h rule hrule).valueFor?_eq event scope property

/-- No rule for a property gives it nothing. -/
theorem valuesFor_eq_nil {property : DisplayProperty}
    (h : ∀ rule ∈ d.display, rule.property ≠ property) :
    d.valuesFor event scope property = [] := by
  rw [valuesFor, List.filterMap_eq_nil_iff]
  exact fun rule hrule => if_neg (h rule hrule)

/-- A declaration whose display rules give nothing but the color and the icon, as texts, and give
the color at least once, shows an event alike with and without evaluation. -/
theorem renderLiterals_agrees (d : Declaration) (event : Event) (scope : Scope)
    (hliteral : ∀ rule ∈ d.display, rule.IsLiteral)
    (hcolor : ∃ rule ∈ d.display, rule.property = .color) :
    (d.renderLiterals event).title = (d.render event scope).title ∧
      (d.renderLiterals event).color = (d.render event scope).color ∧
      (d.renderLiterals event).icon = (d.render event scope).icon ∧
      (d.renderLiterals event).description = (d.render event scope).description := by
  have hnone : ∀ property, property ≠ .color → property ≠ .icon →
      d.valuesFor event scope property = [] := by
    intro property hc hi
    refine valuesFor_eq_nil fun rule hrule heq => ?_
    rcases (hliteral rule hrule).property with hp | hp
    · exact hc (heq.symm.trans hp)
    · exact hi (heq.symm.trans hp)
  refine ⟨?_, ?_, ?_, ?_⟩
  · rw [title_render, hnone .title (by decide) (by decide)]
    rfl
  · obtain ⟨rule, hrule, hp⟩ := hcolor
    obtain ⟨s, hs⟩ := (hliteral rule hrule).value
    have hmem : s ∈ d.textsFor .color :=
      List.mem_filterMap.2 ⟨rule, hrule, by rw [DisplayRule.textFor?, hs]; exact if_pos hp⟩
    obtain ⟨last, hlast⟩ :=
      Option.isSome_iff_exists.1 (List.getLast?_isSome.2 (List.ne_nil_of_mem hmem))
    rw [color_render, valuesFor_eq_map hliteral, List.getLast?_map, hlast, renderLiterals,
      literalText?_eq, hlast]
    rfl
  · rw [icon_render, valuesFor_eq_map hliteral, List.getLast?_map, ← literalText?_eq]
    rfl
  · rw [description_render, hnone .description (by decide) (by decide)]
    rfl

/-- A film whose color is red at first and blue at last, with an icon in between. -/
def coloredFilm : Declaration where
  id := "film"
  name := ""
  display := [⟨.color, .literal (.string "red")⟩, ⟨.icon, .literal (.string "reel")⟩,
    ⟨.color, .literal (.string "blue")⟩]

/-- A film night with a color of its own. -/
def filmNight : Event where
  id := "1"
  type := "film"
  start := ⟨20463, 72000, 0, by decide⟩
  finish := ⟨20463, 82800, 0, by decide⟩
  color := some "black"

/-- The film night is blue, its icon is the reel, and its own color does not matter. -/
theorem renderLiterals_agrees_film :
    (∀ rule ∈ coloredFilm.display, rule.IsLiteral) ∧
      (∃ rule ∈ coloredFilm.display, rule.property = .color) ∧
      (coloredFilm.renderLiterals filmNight).title =
        (coloredFilm.render filmNight { clock := filmNight.start }).title ∧
      (coloredFilm.renderLiterals filmNight).color =
        (coloredFilm.render filmNight { clock := filmNight.start }).color ∧
      (coloredFilm.renderLiterals filmNight).icon =
        (coloredFilm.render filmNight { clock := filmNight.start }).icon ∧
      (coloredFilm.renderLiterals filmNight).description =
        (coloredFilm.render filmNight { clock := filmNight.start }).description := by
  have hliteral : ∀ rule ∈ coloredFilm.display, rule.IsLiteral := by
    simp only [coloredFilm, List.forall_mem_cons]
    exact ⟨⟨.inl rfl, _, rfl⟩, ⟨.inr rfl, _, rfl⟩, ⟨.inl rfl, _, rfl⟩, List.forall_mem_nil _⟩
  have hcolor : ∃ rule ∈ coloredFilm.display, rule.property = .color := ⟨_, .head _, rfl⟩
  exact ⟨hliteral, hcolor,
    renderLiterals_agrees coloredFilm filmNight { clock := filmNight.start } hliteral hcolor⟩

end Declaration
end CalendarRules
