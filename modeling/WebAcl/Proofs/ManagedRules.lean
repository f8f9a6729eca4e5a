import WebAcl.Proofs.FirstOccurrences
import WebAcl.Proofs.NameClashes

/-! # Requests for managed groups

A request for managed groups is a selection with the exclusions of its groups, and most of how it is
written down does not matter: neither the order and the repetitions of the selection, nor exclusions
of groups that are not chosen, nor names that are excluded anyway or twice. What matters is which
groups are chosen and what is effectively excluded from each of them (`Draft.SameRequest`). Two
requests that agree in this make the same draft out of any draft, and two that do not make different
ones (`Draft.apply_managedRules_eq_iff`). -/

namespace WebAcl

namespace Selection

/-- A group is chosen, be it with all groups or by a list that names it. -/
def Chooses : Selection → ManagedGroup → Prop
  | .all, _ => True
  | .only groups, group => group ∈ groups

variable {selection other : Selection} {group : ManagedGroup}

theorem includes_iff : selection.includes group ↔ selection.Chooses group := by
  cases selection with
  | all => exact iff_of_true rfl trivial
  | only groups => exact List.contains_iff_mem

theorem mem_groups : group ∈ selection.groups ↔ selection.Chooses group := by
  have hall : group ∈ ManagedGroup.all := by cases group <;> decide
  rw [groups, List.mem_filter, includes_iff]
  exact and_iff_right hall

/-- The groups of a selection stand in the order that all groups have. -/
theorem groups_sublist : selection.groups.Sublist ManagedGroup.all := List.filter_sublist

/-- Selections that choose the same groups have the same list of groups. -/
theorem groups_congr (h : ∀ group, selection.Chooses group ↔ other.Chooses group) :
    selection.groups = other.groups :=
  List.filter_congr fun group _ =>
    Bool.eq_iff_iff.mpr (includes_iff.trans ((h group).trans includes_iff.symm))

end Selection

namespace Exclusions

/-- **What is effectively excluded** from a group beyond the standing exclusions: the names of its
entry, if it has one, that are not excluded anyway, each once. -/
def Effective (exclusions : Exclusions) (group : ManagedGroup) (kept : List String) : Prop :=
  FirstOccurrences
    (((exclusions.entry group).getD []).filter fun name => name ∉ group.standingExclusions) kept

variable {exclusions others : Exclusions} {group : ManagedGroup}

theorem effective_iff {kept : List String} :
    exclusions.Effective group kept ↔ group.addedNames (exclusions.names group) = kept :=
  eraseDups_eq_iff.symm

theorem effective_congr_iff :
    (∀ kept, exclusions.Effective group kept ↔ others.Effective group kept) ↔
      group.addedNames (exclusions.names group) = group.addedNames (others.names group) := by
  simp only [effective_iff]
  refine ⟨fun h => ((h _).mp rfl).symm, fun h kept => ?_⟩
  rw [h]

end Exclusions

/-- The rule of a group tells what a caller adds to the standing exclusions. -/
theorem ManagedGroup.rule_eq_iff {group : ManagedGroup} {callers others : List String} :
    group.rule callers = group.rule others ↔ group.addedNames callers = group.addedNames others := by
  constructor
  · intro h
    have hexcluded : group.excludedNames callers = group.excludedNames others :=
      Option.some.inj (congrArg Rule.excluded? h)
    rw [excludedNames_eq, excludedNames_eq] at hexcluded
    exact List.append_cancel_left hexcluded
  · intro h
    refine rule_congr ?_
    rw [excludedNames_eq, excludedNames_eq, h]

namespace Draft

/-- **Two requests say the same**: they choose the same groups, and from each of these they
effectively exclude the same rules. -/
structure SameRequest (selection other : Selection) (exclusions others : Exclusions) : Prop where
  chosen : ∀ group, selection.Chooses group ↔ other.Chooses group
  excluded : ∀ group, selection.Chooses group →
    ∀ kept, exclusions.Effective group kept ↔ others.Effective group kept

variable {selection other : Selection} {exclusions others : Exclusions}

/-- The rules that a request asks for. -/
def requested (selection : Selection) (exclusions : Exclusions) : List Rule :=
  selection.groups.map fun group => group.rule (exclusions.names group)

theorem SameRequest.requested_eq (same : SameRequest selection other exclusions others) :
    requested selection exclusions = requested other others := by
  rw [requested, requested, ← Selection.groups_congr same.chosen]
  refine List.map_congr_left fun group hgroup => ?_
  rw [ManagedGroup.rule_eq_iff, ← Exclusions.effective_congr_iff]
  exact same.excluded group (Selection.mem_groups.mp hgroup)

/-- The rules that are asked for tell what was requested: their names tell the groups. -/
theorem sameRequest_of_requested_eq (h : requested selection exclusions = requested other others) :
    SameRequest selection other exclusions others := by
  have hnames := congrArg (List.map (·.name)) h
  rw [requested, requested, List.map_map, List.map_map] at hnames
  have hgroups : selection.groups = other.groups :=
    Function.Injective.list_map (fun _ _ => ManagedGroup.ruleName_inj) hnames
  rw [requested, requested, ← hgroups] at h
  refine ⟨fun group => ?_, fun group hchosen => ?_⟩
  · rw [← Selection.mem_groups, hgroups, Selection.mem_groups]
  · rw [Exclusions.effective_congr_iff, ← ManagedGroup.rule_eq_iff]
    exact List.map_inj_left.mp h group (Selection.mem_groups.mpr hchosen)

/-- **Requests for managed groups.** A request adds one rule for each chosen group behind the blocking
rules, in the order of the groups, and leaves everything else as it was. Two requests have the same
effect on a draft exactly if they choose the same groups and effectively exclude the same rules. -/
theorem apply_managedRules_eq_iff (draft : Draft) (selection : Selection)
    (exclusions : Exclusions) :
    (∃ groups : List ManagedGroup,
      groups.Sublist [.common, .ipReputation, .knownBadInputs, .sqlInjection] ∧
      (∀ group, group ∈ groups ↔ selection.Chooses group) ∧
      draft.apply (.managedRules selection exclusions) =
        { draft with
          blockRules := draft.blockRules ++
            groups.map fun group => group.rule ((exclusions.entry group).getD []) }) ∧
    ∀ other others, draft.apply (.managedRules selection exclusions) =
        draft.apply (.managedRules other others) ↔
      SameRequest selection other exclusions others := by
  refine ⟨⟨selection.groups, Selection.groups_sublist, fun group => Selection.mem_groups, rfl⟩,
    fun other others => ⟨fun h => ?_, fun same => ?_⟩⟩
  · have hblock := congrArg Draft.blockRules h
    exact sameRequest_of_requested_eq (List.append_cancel_left hblock)
  · have hadded := congrArg (draft.blockRules ++ ·) same.requested_eq
    exact congrArg (fun rules => { draft with blockRules := rules }) hadded

end Draft

end WebAcl
