import CalendarRules.Permission
import CalendarRules.Proofs.LastSetting

/-!
# First and last rules for an action

Permissions are known in two ways.  With an event and a user at hand, the first rule for an action
decides.  Without, every flag sets its action anew, so that the last one decides
(`Declaration.allowed_literalPermissions`).

Where all rules for the four actions are flags, the two ways can only differ in which of them they
take: they agree exactly when every action with a rule has the flag of its last rule in its first
(`Declaration.literalPermissions_eq_permissions_iff`).  An action that is forbidden by its first rule
and allowed by its last is forbidden in one way and allowed in the other
(`Declaration.literalPermissions_ne_permissions`).
-/

namespace CalendarRules

/-- The actions that every calendar knows. -/
def Action.known : List Action := [.draggable, .resizable, .editable, .deletable]

namespace Permissions

/-- An action is allowed.  Actions that a calendar need not know have no permission here. -/
def allowed (p : Permissions) : Action → Bool
  | .draggable => p.draggable
  | .resizable => p.resizable
  | .editable => p.editable
  | .deletable => p.deletable
  | .other _ => false

theorem eq_iff {p q : Permissions} : p = q ↔ ∀ a ∈ Action.known, p.allowed a = q.allowed a := by
  constructor
  · rintro rfl a -
    rfl
  · intro h
    simp only [Action.known, List.forall_mem_cons] at h
    obtain ⟨hdrag, hresize, hedit, hdelete, -⟩ := h
    cases p
    cases q
    cases hdrag
    cases hresize
    cases hedit
    cases hdelete
    rfl

theorem allowed_set {a b : Action} (hb : b ∈ Action.known) (flag : Bool) (p : Permissions) :
    (p.set a flag).allowed b = if a = b then flag else p.allowed b := by
  simp only [Action.known, List.mem_cons, List.not_mem_nil, or_false] at hb
  rcases hb with rfl | rfl | rfl | rfl <;> cases a <;> rfl

end Permissions

namespace BehaviorRule

/-- The flag that a rule gives an action without evaluation. -/
def flagFor? (a : Action) (rule : BehaviorRule) : Option Bool :=
  match rule.value with
  | .flag allowed => if rule.action = a then some allowed else none
  | .condition _ => none

theorem flagFor?_eq_some_iff {a : Action} {rule : BehaviorRule} {flag : Bool} :
    rule.flagFor? a = some flag ↔ rule.action = a ∧ rule.value = .flag flag := by
  rw [flagFor?]
  cases rule.value with
  | flag allowed => simp
  | condition e => simp

end BehaviorRule

namespace Declaration

variable {d : Declaration} {event : Event} {scope : Scope} {a : Action}

/-- The flags that the rules for an action give it, in their order. -/
def flagsFor (d : Declaration) (a : Action) : List Bool :=
  d.behavior.filterMap (BehaviorRule.flagFor? a)

theorem mem_flagsFor {flag : Bool} : flag ∈ d.flagsFor a ↔
    ∃ rule ∈ d.behavior, rule.action = a ∧ rule.value = .flag flag := by
  simp only [flagsFor, List.mem_filterMap, BehaviorRule.flagFor?_eq_some_iff]

/-- The rules for the actions that every calendar knows are all flags. -/
def HasFlagsOnly (d : Declaration) : Prop :=
  ∀ rule ∈ d.behavior, rule.action.name ∈ Action.known.map Action.name →
    ∃ allowed, rule.value = .flag allowed

/-! ## The last flag for an action -/

/-- Without evaluation an action has its last flag, or its default. -/
theorem allowed_literalPermissions (ha : a ∈ Action.known) :
    d.literalPermissions.allowed a =
      (d.flagsFor a).getLast?.getD (Permissions.default.allowed a) := by
  have h : d.literalPermissions.allowed a =
      ((d.flagsFor a).getLast?.map fun flag => flag).getD (Permissions.default.allowed a) := by
    refine observe_foldl (fun p : Permissions => p.allowed a) (fun p rule => ?_) d.behavior _
    rw [BehaviorRule.flagFor?]
    cases rule.value with
    | flag allowed =>
      simp only [Permissions.allowed_set ha]
      split <;> rfl
    | condition e => rfl
  rw [h, Option.map_id']

/-! ## The first rule for an action -/

theorem allowed_permissions (ha : a ∈ Action.known) :
    (d.permissions event scope).allowed a =
      d.allowsOr event scope a (Permissions.default.allowed a) := by
  simp only [Action.known, List.mem_cons, List.not_mem_nil, or_false] at ha
  rcases ha with rfl | rfl | rfl | rfl <;> rfl

section Flags

variable (h : d.HasFlagsOnly) (ha : a ∈ Action.known)
include h ha

/-- The first rule for an action is a flag, and so are the others. -/
theorem exists_flag_of_behaviorFor? {value : BehaviorValue} (hvalue : d.behaviorFor? a = some value) :
    ∃ first, value = .flag first := by
  obtain ⟨rule, hrule, rfl⟩ := Option.map_eq_some_iff.1 hvalue
  have hmatch := List.find?_some hrule
  have hname : rule.action.name = a.name := beq_iff_eq.1 hmatch
  exact h rule (List.mem_of_find?_eq_some hrule) (hname ▸ List.mem_map_of_mem ha)

/-- An action without a flag has no rule, and so its default. -/
theorem allowsOr_of_flagsFor_eq_nil (hnil : d.flagsFor a = []) (default : Bool) :
    d.allowsOr event scope a default = default := by
  have hany : ¬ (d.behavior.any fun rule => rule.action = a) = true := by
    rw [List.any_eq_true]
    rintro ⟨rule, hrule, haction⟩
    have haction : rule.action = a := of_decide_eq_true haction
    obtain ⟨flag, hvalue⟩ := h rule hrule (haction ▸ List.mem_map_of_mem ha)
    exact List.ne_nil_of_mem (mem_flagsFor.2 ⟨rule, hrule, haction, hvalue⟩) hnil
  rw [allowsOr, if_neg hany]

/-- An action with a flag has a first rule, and what that says decides. -/
theorem allowsOr_of_mem_flagsFor {flag : Bool} (hflag : flag ∈ d.flagsFor a) (event : Event)
    (scope : Scope) (default : Bool) :
    ∃ first, d.behaviorFor? a = some (.flag first) ∧
      d.allowsOr event scope a default = first := by
  obtain ⟨rule, hrule, haction, -⟩ := mem_flagsFor.1 hflag
  have hany : (d.behavior.any fun rule => rule.action = a) = true :=
    List.any_eq_true.2 ⟨rule, hrule, decide_eq_true haction⟩
  have hsome : (d.behavior.find? fun rule => rule.action.name == a.name).isSome = true :=
    List.find?_isSome.2 ⟨rule, hrule, beq_iff_eq.2 (congrArg Action.name haction)⟩
  obtain ⟨first, hfirst⟩ := Option.isSome_iff_exists.1 hsome
  have hvalue : d.behaviorFor? a = some first.value := congrArg (Option.map _) hfirst
  obtain ⟨allowed, hallowed⟩ := exists_flag_of_behaviorFor? h ha hvalue
  rw [hallowed] at hvalue
  refine ⟨allowed, hvalue, ?_⟩
  rw [allowsOr, if_pos hany, allows, hvalue]
  rfl

end Flags

/-! ## The two ways compared -/

/-- Where the rules for the four actions are flags, evaluation finds the permissions that are known
without it exactly when every action that has a rule has the flag of its last rule in its first. -/
theorem literalPermissions_eq_permissions_iff (d : Declaration) (event : Event) (scope : Scope)
    (h : d.HasFlagsOnly) :
    d.literalPermissions = d.permissions event scope ↔
      ∀ a ∈ Action.known, ∀ flag, (d.flagsFor a).getLast? = some flag →
        d.behaviorFor? a = some (.flag flag) := by
  rw [Permissions.eq_iff]
  refine forall₂_congr fun a ha => ?_
  rw [allowed_literalPermissions ha, allowed_permissions ha]
  cases hlast : (d.flagsFor a).getLast? with
  | none =>
    have hnil : d.flagsFor a = [] := List.getLast?_eq_none_iff.1 hlast
    rw [allowsOr_of_flagsFor_eq_nil h ha hnil]
    simp
  | some last =>
    obtain ⟨first, hfirst, hallows⟩ := allowsOr_of_mem_flagsFor h ha (List.mem_of_getLast? hlast)
      event scope (Permissions.default.allowed a)
    rw [hallows, hfirst]
    simp [eq_comm]

/-- A film that may be edited or not, by one flag after the other. -/
def flaggedFilm (flags : List Bool) : Declaration where
  id := "film"
  name := ""
  behavior := ⟨.other "archive", .condition (.field ⟨["extra"]⟩)⟩ ::
    flags.map fun flag => ⟨.editable, .flag flag⟩

theorem hasFlagsOnly_flaggedFilm (flags : List Bool) : (flaggedFilm flags).HasFlagsOnly := by
  intro rule hrule hname
  rcases List.mem_cons.1 hrule with rfl | hrule
  · exact absurd hname (by decide)
  · obtain ⟨flag, -, rfl⟩ := List.mem_map.1 hrule
    exact ⟨flag, rfl⟩

/-- A night at the cinema. -/
def cinemaNight : Event where
  id := "1"
  type := "film"
  start := ⟨20461, 68400, 0, by decide⟩
  finish := ⟨20461, 79200, 0, by decide⟩

/-- A flag between two of the same kind does not matter: the two ways agree, and so the first rule
for every action has its last flag. -/
theorem literalPermissions_eq_permissions_iff_film :
    (flaggedFilm [false, true, false]).HasFlagsOnly ∧
      (flaggedFilm [false, true, false]).literalPermissions =
        (flaggedFilm [false, true, false]).permissions cinemaNight { clock := cinemaNight.start } ∧
      ∀ a ∈ Action.known, ∀ flag,
        ((flaggedFilm [false, true, false]).flagsFor a).getLast? = some flag →
          (flaggedFilm [false, true, false]).behaviorFor? a = some (.flag flag) :=
  ⟨hasFlagsOnly_flaggedFilm _, by decide,
    (literalPermissions_eq_permissions_iff (flaggedFilm [false, true, false]) cinemaNight
      { clock := cinemaNight.start } (hasFlagsOnly_flaggedFilm _)).1 (by decide)⟩

/-- A film that may not be edited, and may after all, may be edited before evaluation only. -/
theorem literalPermissions_ne_permissions :
    (flaggedFilm [false, true]).HasFlagsOnly ∧
      (flaggedFilm [false, true]).literalPermissions ≠
        (flaggedFilm [false, true]).permissions cinemaNight { clock := cinemaNight.start } :=
  ⟨hasFlagsOnly_flaggedFilm _, by decide⟩

end Declaration
end CalendarRules
