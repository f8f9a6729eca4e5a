import WebAcl.ManagedGroup
import Mathlib.Data.List.Induction
import Mathlib.Data.List.Sort

/-! # First occurrences

Of the names that are excluded from a managed group each stays once, where it occurs for the first
time, and the standing exclusions come before those of a caller. `FirstOccurrences` says which list
this is without the scan that makes it: the members stay, in the order of their first places, and
only one list is like that (`FirstOccurrences.unique`). The scan reads one name after the other and
appends it unless it has it already; either step keeps the invariant (`FirstOccurrences.concat_known`,
`FirstOccurrences.concat_new`).

* `eraseDups_eq_iff`: the scan finds the first occurrences.
* `ManagedGroup.excludedNames_eq`: the standing exclusions, then what a caller adds to them.
* `ManagedGroup.excluded_names`: what is excluded from a group, and which further exclusions change
  nothing. -/

namespace WebAcl

/-- **The first occurrences** among some names: the same names, in the order of the places where each
of them stands first. -/
structure FirstOccurrences (names kept : List String) : Prop where
  same : ∀ name, name ∈ kept ↔ name ∈ names
  ordered : kept.Pairwise fun first second => names.idxOf first < names.idxOf second

namespace FirstOccurrences

variable {names kept other more : List String} {name : String}

/-- A name has one first place, so it is kept once. -/
theorem nodup (h : FirstOccurrences names kept) : kept.Nodup :=
  h.ordered.imp fun hlt heq => absurd (congrArg names.idxOf heq) (Nat.ne_of_lt hlt)

/-- **There is one list of first occurrences.** -/
theorem unique (h : FirstOccurrences names kept) (h' : FirstOccurrences names other) :
    kept = other := by
  have : Std.Irrefl fun first second => names.idxOf first < names.idxOf second :=
    ⟨fun _ => Nat.lt_irrefl _⟩
  have : Std.Antisymm fun first second => names.idxOf first < names.idxOf second :=
    ⟨fun _ _ hlt hgt => absurd hlt (Nat.lt_asymm hgt)⟩
  exact h.ordered.eq_of_mem_iff h'.ordered fun name => (h.same name).trans (h'.same name).symm

/-! ### One more name -/

/-- The first places do not see what comes behind them. -/
theorem ordered_append (h : FirstOccurrences names kept) (more : List String) :
    kept.Pairwise fun first second =>
      (names ++ more).idxOf first < (names ++ more).idxOf second := by
  refine h.ordered.imp_of_mem fun {first second} hfirst hsecond hlt => ?_
  rw [List.idxOf_append_of_mem ((h.same first).mp hfirst),
    List.idxOf_append_of_mem ((h.same second).mp hsecond)]
  exact hlt

/-- A name that was read before changes nothing. -/
theorem concat_known (h : FirstOccurrences names kept) (hname : name ∈ names) :
    FirstOccurrences (names ++ [name]) kept := by
  refine ⟨fun other => ?_, h.ordered_append [name]⟩
  rw [h.same, List.mem_append, List.mem_singleton]
  exact ⟨Or.inl, fun hmem => hmem.elim id fun heq => heq ▸ hname⟩

/-- A new name is the last of the names that are kept. -/
theorem concat_new (h : FirstOccurrences names kept) (hname : name ∉ names) :
    FirstOccurrences (names ++ [name]) (kept ++ [name]) := by
  refine ⟨fun other => ?_, ?_⟩
  · rw [List.mem_append, List.mem_append, h.same]
  · refine List.pairwise_append.mpr ⟨h.ordered_append [name], List.pairwise_singleton _ _, ?_⟩
    intro first hfirst last hlast
    have hmem := (h.same first).mp hfirst
    rw [List.mem_singleton.mp hlast, List.idxOf_append_of_mem hmem,
      List.idxOf_append_of_notMem hname]
    exact Nat.lt_of_lt_of_le (List.idxOf_lt_length_iff.mpr hmem) (Nat.le_add_right _ _)

theorem append_known (h : FirstOccurrences names kept) (hmore : ∀ name ∈ more, name ∈ names) :
    FirstOccurrences (names ++ more) kept := by
  induction more using List.reverseRecOn with
  | nil =>
    rw [List.append_nil]
    exact h
  | append_singleton before last ih =>
    obtain ⟨hbefore, hlast⟩ := List.forall_mem_append.mp hmore
    rw [← List.append_assoc]
    refine (ih hbefore).concat_known (List.mem_append_left _ ?_)
    exact hlast last (List.mem_singleton.mpr rfl)

end FirstOccurrences

/-! ### The scan -/

/-- One step of the scan. -/
theorem eraseDups_concat (names : List String) (name : String) :
    (names ++ [name]).eraseDups =
      if name ∈ names then names.eraseDups else names.eraseDups ++ [name] := by
  rw [List.eraseDups_append, List.removeAll]
  split
  · next hmem => simp [hmem]
  · next hnew => simp [hnew, List.eraseDups_cons]

/-- **The scan finds the first occurrences.** -/
theorem firstOccurrences_eraseDups (names : List String) :
    FirstOccurrences names names.eraseDups := by
  induction names using List.reverseRecOn with
  | nil => exact ⟨fun _ => Iff.rfl, List.Pairwise.nil⟩
  | append_singleton before last ih =>
    rw [eraseDups_concat]
    split
    · next hknown => exact ih.concat_known hknown
    · next hnew => exact ih.concat_new hnew

theorem eraseDups_eq_iff {names kept : List String} :
    names.eraseDups = kept ↔ FirstOccurrences names kept := by
  refine ⟨fun h => h ▸ firstOccurrences_eraseDups names, fun h => ?_⟩
  exact (firstOccurrences_eraseDups names).unique h

/-- Distinct names are their own first occurrences. -/
theorem eraseDups_of_nodup {names : List String} (h : names.Nodup) : names.eraseDups = names := by
  induction names using List.reverseRecOn with
  | nil => rfl
  | append_singleton before last ih =>
    obtain ⟨hbefore, -, hdisjoint⟩ := List.nodup_append.mp h
    have hnew : last ∉ before := fun hmem =>
      hdisjoint last hmem last (List.mem_singleton.mpr rfl) rfl
    rw [eraseDups_concat, if_neg hnew, ih hbefore]

/-! ### Exclusions of a managed group -/

/-- The rules that are excluded from the managed group of a rule. -/
def Rule.excluded? (rule : Rule) : Option (List String) :=
  match rule.statement with
  | .managedGroup group => some group.excluded
  | _ => none

namespace ManagedGroup

variable (group : ManagedGroup) (callers : List String)

/-- What a caller excludes beyond the standing exclusions, each name once. -/
def addedNames : List String :=
  (callers.filter fun name => name ∉ group.standingExclusions).eraseDups

theorem nodup_standingExclusions : group.standingExclusions.Nodup := by
  cases group <;> decide

/-- **The standing exclusions come first**, and then what a caller adds to them. -/
theorem excludedNames_eq :
    group.excludedNames callers = group.standingExclusions ++ group.addedNames callers := by
  have hremove : callers.removeAll group.standingExclusions =
      callers.filter fun name => name ∉ group.standingExclusions :=
    List.filter_congr fun name _ => by simp
  rw [excludedNames, List.eraseDups_append, eraseDups_of_nodup group.nodup_standingExclusions,
    hremove, addedNames]

theorem mem_addedNames {name : String} :
    name ∈ group.addedNames callers ↔ name ∈ callers ∧ name ∉ group.standingExclusions := by
  rw [addedNames, List.mem_eraseDups, List.mem_filter, decide_eq_true_iff]

/-- Of the names that result a caller would add the same again. -/
theorem addedNames_excludedNames :
    group.addedNames (group.excludedNames callers) = group.addedNames callers := by
  have hstanding :
      group.standingExclusions.filter (fun name => name ∉ group.standingExclusions) = [] :=
    List.filter_eq_nil_iff.mpr fun name hname => by simpa using hname
  have hadded : (group.addedNames callers).filter (fun name => name ∉ group.standingExclusions) =
      group.addedNames callers :=
    List.filter_eq_self.mpr fun name hname =>
      decide_eq_true ((group.mem_addedNames callers).mp hname).2
  have hnodup : (group.addedNames callers).Nodup := (firstOccurrences_eraseDups _).nodup
  rw [excludedNames_eq, addedNames, List.filter_append, hstanding, List.nil_append, hadded,
    eraseDups_of_nodup hnodup]

/-- Excluding the names that result excludes nothing else. -/
theorem excludedNames_excludedNames :
    group.excludedNames (group.excludedNames callers) = group.excludedNames callers := by
  rw [excludedNames_eq, addedNames_excludedNames, ← excludedNames_eq]

variable {callers} in
/-- Excluding names that are excluded already changes nothing. -/
theorem excludedNames_append_known {more : List String}
    (h : ∀ name ∈ more, name ∈ group.excludedNames callers) :
    group.excludedNames (callers ++ more) = group.excludedNames callers := by
  have hfirst := firstOccurrences_eraseDups (group.standingExclusions ++ callers)
  have hmore := hfirst.append_known fun name hname => (hfirst.same name).mp (h name hname)
  rw [excludedNames, ← List.append_assoc]
  exact eraseDups_eq_iff.mpr hmore

variable {group callers} in
/-- The rule of a group sees no more of the caller's list than the names that result. -/
theorem rule_congr {others : List String}
    (h : group.excludedNames callers = group.excludedNames others) :
    group.rule callers = group.rule others := by
  rw [rule, rule, h]

/-- **What is excluded from a group**: the standing exclusions and then the caller's, less every later
repeat. The standing exclusions stand in front as they are; to exclude the resulting names once more,
or to exclude some of them in addition, gives the same rule. -/
theorem excluded_names : ∃ kept, (group.rule callers).excluded? = some kept ∧
    (∀ other, FirstOccurrences (group.standingExclusions ++ callers) other ↔ kept = other) ∧
    kept.Nodup ∧
    (∀ name, name ∈ kept ↔ name ∈ group.standingExclusions ∨ name ∈ callers) ∧
    group.standingExclusions <+: kept ∧
    group.rule kept = group.rule callers ∧
    ∀ more, (∀ name ∈ more, name ∈ kept) → group.rule (callers ++ more) = group.rule callers := by
  have hfirst := firstOccurrences_eraseDups (group.standingExclusions ++ callers)
  refine ⟨group.excludedNames callers, rfl, fun other => eraseDups_eq_iff.symm, hfirst.nodup,
    fun name => ?_, ?_, ?_, fun more hmore => ?_⟩
  · rw [excludedNames, hfirst.same, List.mem_append]
  · rw [excludedNames_eq]
    exact List.prefix_append _ _
  · exact rule_congr (group.excludedNames_excludedNames callers)
  · exact rule_congr (group.excludedNames_append_known hmore)

/-- A standing exclusion that is repeated, and a name of the caller's that is. -/
example : common.excludedNames ["CrossSiteScripting_BODY", "GenericRFI_BODY",
      "CrossSiteScripting_BODY"] =
    ["NoUserAgent_HEADER", "SizeRestrictions_BODY", "GenericRFI_BODY",
      "CrossSiteScripting_BODY"] := by decide

end ManagedGroup

end WebAcl
