import WebAcl.Proofs.GeneratedNames
import WebAcl.Proofs.SharedNames
import Mathlib.Data.List.Perm.Basic

/-! # Clashes of generated names

Where no caller chooses a name, two rules share one only if two operations ask for the same thing
(`Operation.Clash`): a blocking throttle twice, whatever its limits; a counting throttle twice with one
limit; a managed group twice; a blocklist twice. A name tells the slot of its rule, so operations
that fill different slots never clash, and a slot's name leaves only the limit of a counting throttle
open. Since an operation gives its own rules different names, the names of a draft are distinct
exactly if no two of its operations clash (`Operation.nodup_names_iff`). -/

namespace WebAcl

variable {σ : Type}

/-! ### Names within a slot -/

/-- A blocking throttle has one name, a counting one has a name for each limit. -/
theorem Preset.ruleName_eq_iff {preset : Preset} {m n : UInt64} :
    preset.ruleName m = preset.ruleName n ↔ preset.queue = .block ∨ m = n := by
  obtain ⟨queue, condition, key⟩ := preset
  cases queue with
  | block => exact iff_of_true rfl (Or.inl rfl)
  | count =>
    have hname : ∀ limit, Preset.ruleName ⟨.count, condition, key⟩ limit =
      Preset.stem ⟨.count, condition, key⟩ ++ Text.decimal limit.toNat := fun _ => rfl
    rw [hname, hname, String.append_right_inj, Text.decimal_inj, UInt64.toNat_inj]
    simp

theorem ManagedGroup.ruleName_inj {first second : ManagedGroup}
    (h : first.ruleName = second.ruleName) : first = second := by
  have hfirst : (Slot.group first).stem.toList <+: first.ruleName.toList := List.prefix_refl _
  have hsecond : (Slot.group second).stem.toList <+: first.ruleName.toList := h ▸ List.prefix_refl _
  exact Slot.group.inj (Slot.eq_of_stem_prefix hfirst hsecond)

namespace Operation

/-! ### The names of an operation -/

/-- The names of the rules that an operation asks for. -/
def names : Operation → List String
  | .managedRules selection _ => selection.groups.map (·.ruleName)
  | .ipRestriction _ => ["IpBlocklist"]
  | .throttle name _ _ _ _ => [name]
  | .responseBody _ _ => []
  | .preset named (some limit) => [named.ruleName limit]
  | .preset _ none => []

/-- An operation under which a caller chooses the name of a rule. -/
def IsNamed : Operation → Prop
  | .throttle _ _ _ _ _ => True
  | _ => False

/-- An operation asks for the rule of a slot, which gets this name. -/
inductive Fills : Operation → Slot → String → Prop where
  | throttle {named : Preset} {limit : UInt64} :
      Fills (.preset named (some limit)) (.throttle named) (named.ruleName limit)
  | group {selection : Selection} {exclusions : Exclusions} {group : ManagedGroup}
      (selected : group ∈ selection.groups) :
      Fills (.managedRules selection exclusions) (.group group) group.ruleName
  | blocklist {addresses : List String} : Fills (.ipRestriction addresses) .blocklist "IpBlocklist"

/-- **Two operations clash** if they ask for the same thing. -/
inductive Clash : Operation → Operation → Prop where
  | blocking {named : Preset} {m n : UInt64} (blocks : named.queue = .block) :
      Clash (.preset named (some m)) (.preset named (some n))
  | counting {named : Preset} {limit : UInt64} (counts : named.queue = .count) :
      Clash (.preset named (some limit)) (.preset named (some limit))
  | group {selection other : Selection} {exclusions otherExclusions : Exclusions}
      {group : ManagedGroup} (first : group ∈ selection.groups) (second : group ∈ other.groups) :
      Clash (.managedRules selection exclusions) (.managedRules other otherExclusions)
  | blocklist {addresses other : List String} :
      Clash (.ipRestriction addresses) (.ipRestriction other)

/-- Some operation clashes with a later one. -/
def Clashes (operations : List Operation) : Prop :=
  ∃ (i j : Nat) (first second : Operation), i < j ∧ operations[i]? = some first ∧
    operations[j]? = some second ∧ Clash first second

variable {config : Config} {arn : String} {operation first second : Operation}

theorem map_name_rules : (operation.rules config arn .count ++
    operation.rules config arn .block).map (·.name) = operation.names := by
  cases operation with
  | managedRules selection exclusions =>
    simp only [rules, reduceCtorEq, if_false, if_true, List.nil_append, List.map_map, names]
    rfl
  | ipRestriction addresses => rfl
  | throttle name limit condition key action => cases action <;> rfl
  | responseBody key body => rfl
  | preset named limit =>
    cases limit with
    | none => rfl
    | some limit =>
      obtain ⟨queue, condition, key⟩ := named
      cases queue <;> rfl

/-- The names that are asked for are those of the operations in turn, up to the order. -/
theorem map_name_asked_perm (config : Config) (arn : String) (operations : List Operation) :
    ((asked config arn operations).map (·.name)).Perm (operations.flatMap names) := by
  have h := (List.flatMap_append_perm operations (rules config arn .count)
    (rules config arn .block)).map (·.name)
  rw [List.map_flatMap] at h
  simp only [map_name_rules] at h
  exact h

theorem mem_names (h : ¬ operation.IsNamed) {name : String} :
    name ∈ operation.names ↔ ∃ slot, operation.Fills slot name := by
  constructor
  · intro hname
    cases operation with
    | managedRules selection exclusions =>
      obtain ⟨group, hgroup, rfl⟩ := List.mem_map.mp hname
      exact ⟨_, .group hgroup⟩
    | ipRestriction addresses =>
      rw [List.mem_singleton.mp hname]
      exact ⟨_, .blocklist⟩
    | throttle _ limit condition key action => exact absurd trivial h
    | responseBody key body => cases hname
    | preset named limit =>
      cases limit with
      | none => cases hname
      | some limit =>
        rw [List.mem_singleton.mp hname]
        exact ⟨_, .throttle⟩
  · rintro ⟨slot, _ | hgroup | _⟩
    · exact List.mem_singleton.mpr rfl
    · exact List.mem_map_of_mem hgroup
    · exact List.mem_singleton.mpr rfl

theorem nodup_names (operation : Operation) : operation.names.Nodup := by
  cases operation with
  | managedRules selection exclusions =>
    have hall : ManagedGroup.all.Nodup := by decide
    exact (hall.filter _).map fun _ _ => ManagedGroup.ruleName_inj
  | ipRestriction addresses => exact List.nodup_singleton _
  | throttle name limit condition key action => exact List.nodup_singleton _
  | responseBody key body => exact List.nodup_nil
  | preset named limit =>
    cases limit with
    | none => exact List.nodup_nil
    | some limit => exact List.nodup_singleton _

/-! ### Two operations -/

theorem Fills.stem_prefix {slot : Slot} {name : String} (h : operation.Fills slot name) :
    slot.stem.toList <+: name.toList := by
  cases h with
  | throttle => exact Slot.stem_prefix_ruleName ..
  | group selected => exact List.prefix_refl _
  | blocklist => exact List.prefix_refl _

/-- Operations that fill slots under one name clash: the name tells the slot. -/
theorem Fills.clash {slot other : Slot} {name : String} (hfirst : first.Fills slot name)
    (hsecond : second.Fills other name) : Clash first second := by
  obtain rfl := Slot.eq_of_stem_prefix hfirst.stem_prefix hsecond.stem_prefix
  generalize hname : name = shared at hsecond
  cases hfirst with
  | @throttle named m =>
    cases hsecond with
    | @throttle _ n =>
      cases hqueue : named.queue with
      | block => exact .blocking hqueue
      | count =>
        rcases Preset.ruleName_eq_iff.mp hname with hblock | rfl
        · rw [hqueue] at hblock
          cases hblock
        · exact .counting hqueue
  | group hselected =>
    cases hsecond with
    | group hother => exact .group hselected hother
  | blocklist =>
    cases hsecond with
    | blocklist => exact .blocklist

theorem Clash.exists_fills (h : Clash first second) :
    ∃ slot name, first.Fills slot name ∧ second.Fills slot name := by
  cases h with
  | @blocking named m n blocks =>
    have hname : named.ruleName m = named.ruleName n := Preset.ruleName_eq_iff.mpr (Or.inl blocks)
    exact ⟨_, _, .throttle, hname ▸ .throttle⟩
  | counting counts => exact ⟨_, _, .throttle, .throttle⟩
  | group hfirst hsecond => exact ⟨_, _, .group hfirst, .group hsecond⟩
  | blocklist => exact ⟨_, _, .blocklist, .blocklist⟩

theorem disjoint_names_iff (hfirst : ¬ first.IsNamed) (hsecond : ¬ second.IsNamed) :
    List.Disjoint first.names second.names ↔ ¬ Clash first second := by
  constructor
  · intro hdisjoint hclash
    obtain ⟨slot, name, hslot, hother⟩ := hclash.exists_fills
    exact hdisjoint ((mem_names hfirst).mpr ⟨slot, hslot⟩) ((mem_names hsecond).mpr ⟨slot, hother⟩)
  · intro hclash name hname hother
    obtain ⟨slot, hslot⟩ := (mem_names hfirst).mp hname
    obtain ⟨other, hother⟩ := (mem_names hsecond).mp hother
    exact hclash (hslot.clash hother)

/-! ### Many operations -/

theorem not_clashes_iff {operations : List Operation} :
    ¬ Clashes operations ↔ operations.Pairwise fun first second => ¬ Clash first second := by
  rw [List.pairwise_iff_getElem]
  constructor
  · intro h i j hi hj hij hclash
    exact h ⟨i, j, _, _, hij, List.getElem?_eq_getElem hi, List.getElem?_eq_getElem hj, hclash⟩
  · rintro h ⟨i, j, first, second, hij, hfirst, hsecond, hclash⟩
    obtain ⟨hi, rfl⟩ := List.getElem?_eq_some_iff.mp hfirst
    obtain ⟨hj, rfl⟩ := List.getElem?_eq_some_iff.mp hsecond
    exact h i j hi hj hij hclash

/-- **Generated names are distinct** exactly if no two operations clash. -/
theorem nodup_names_iff {operations : List Operation} (h : ∀ operation ∈ operations,
    ¬ operation.IsNamed) (config : Config) (arn : String) :
    ((asked config arn operations).map (·.name)).Nodup ↔ ¬ Clashes operations := by
  rw [(map_name_asked_perm config arn operations).nodup_iff, List.nodup_flatMap, not_clashes_iff]
  constructor
  · rintro ⟨-, hpair⟩
    exact hpair.imp_of_mem fun hfirst hsecond =>
      (disjoint_names_iff (h _ hfirst) (h _ hsecond)).mp
  · intro hpair
    exact ⟨fun operation _ => operation.nodup_names, hpair.imp_of_mem fun hfirst hsecond =>
      (disjoint_names_iff (h _ hfirst) (h _ hsecond)).mpr⟩

end Operation

/-! ### The build -/

namespace Draft

open Operation

theorem repeatedNames_ne_nil_iff {operations : List Operation} (generated : ∀ operation ∈ operations,
    ¬ operation.IsNamed) (config : Config) :
    repeatedNames ((new config).run operations).rankedNames ≠ [] ↔ Clashes operations := by
  rw [Ne, repeatedNames_eq_nil, rankedNames_eq, map_name_rules_new config operations "",
    nodup_names_iff generated, not_not]

/-- **Which operations make rules share a name**, where no caller chooses one. The build finds shared
names exactly if two operations clash, before it calls anyone; and without a clash all names are
distinct, whatever the operations and their limits. -/
theorem duplicateRuleName_iff_clashes {operations : List Operation}
    (generated : ∀ operation ∈ operations, ¬ operation.IsNamed) (config : Config)
    (create : Provisioner σ) (state : σ) :
    ((∃ acl names, (((new config).run operations).build create state).result =
          .error (.duplicateRuleName acl names) ∧
        ((new config).run operations).calls create state = []) ↔ Clashes operations) ∧
    (create.LeavesNames →
      ((∃ acl names, (((new config).run operations).build create state).result =
        .error (.duplicateRuleName acl names)) ↔ Clashes operations)) ∧
    (¬ Clashes operations → ((new config).run operations).rankedNames.Nodup) := by
  have hiff := repeatedNames_ne_nil_iff generated config
  refine ⟨?_, fun leaves => ?_, fun h => ?_⟩
  · simp only [unasked_duplicateRuleName_iff, hiff]
    exact ⟨fun ⟨_, _, _, _, h⟩ => h, fun h => ⟨_, _, rfl, rfl, h⟩⟩
  · simp only [duplicateRuleName_iff leaves, hiff]
    exact ⟨fun ⟨_, _, _, _, h⟩ => h, fun h => ⟨_, _, rfl, rfl, h⟩⟩
  · rw [← hiff, not_not] at h
    exact repeatedNames_eq_nil.mp h

/-- A blocking throttle with two limits clashes, a counting one does not. -/
theorem duplicateRuleName_of_two_limits : ∃ blocking counting : List Operation,
    blocking = [.preset ⟨.block, .absent, .ip⟩ (some 100), .allManagedRules,
      .preset ⟨.block, .absent, .ip⟩ (some 200)] ∧
    counting = [.preset ⟨.count, .absent, .ip⟩ (some 100), .allManagedRules,
      .preset ⟨.count, .absent, .ip⟩ (some 200)] ∧
    (∀ operation ∈ blocking, ¬ operation.IsNamed) ∧
    (∀ operation ∈ counting, ¬ operation.IsNamed) ∧
    (∃ acl names, (((new .default).run blocking).build Register.create []).result =
      .error (.duplicateRuleName acl names)) ∧
    ((new .default).run counting).rankedNames.Nodup := by
  refine ⟨_, _, rfl, rfl, ?blocking, ?counting, ?_, ?_⟩
  · simp [IsNamed, allManagedRules]
  · simp [IsNamed, allManagedRules]
  · refine ((duplicateRuleName_iff_clashes ?blocking .default Register.create []).2.1
      Register.onlyRefuses_create.leavesNames).mpr ⟨0, 2, _, _, by decide, rfl, rfl, .blocking rfl⟩
  · refine (duplicateRuleName_iff_clashes ?counting .default Register.create []).2.2 ?_
    rw [not_clashes_iff]
    refine .cons ?_ (.cons ?_ (.cons nofun .nil))
    · rintro second hsecond hclash
      rcases List.mem_cons.mp hsecond with rfl | hsecond
      · cases hclash
      · obtain rfl := List.mem_singleton.mp hsecond
        rcases hclash with hblocks | _
        · cases hblocks
    · rintro second hsecond hclash
      obtain rfl := List.mem_singleton.mp hsecond
      cases hclash

end Draft

end WebAcl
