import WebAcl.Proofs.Building
import WebAcl.Proofs.GeneratedNames
import Mathlib.Data.List.Sort

/-! # The table of response bodies

Two kinds of operations write the table: the registration of a body replaces what was there, and a
named blocking throttle writes only where nothing was. So the table can be read off the operations
one key at a time (`Draft.get?_new`): the last registration counts wherever it stands, and only
without one the throttle whose limit gives the key. Since a key tells its throttle and its limit, it
does not matter which of several throttles came first, and a client that a throttle blocks is told
the limit of that throttle (`Draft.body_of_key`). -/

namespace WebAcl

/-! ### Tables, key by key -/

namespace KeyTable

variable {α : Type}

attribute [ext] KeyTable

theorem get?_eq_some {table : KeyTable α} {key : String} {value : α} :
    table.get? key = some value ↔ (key, value) ∈ table.entries := by
  obtain ⟨entries, ordered⟩ := table
  simp only [get?]
  induction entries with
  | nil => simp
  | cons entry entries ih =>
    obtain ⟨first, old⟩ := entry
    obtain ⟨hhead, htail⟩ := List.pairwise_cons.mp ordered
    by_cases h : key = first
    · subst h
      -- a key stands at the head only, since all later keys are greater
      have hlater : (key, value) ∉ entries := fun hmem => String.lt_irrefl key (hhead _ hmem)
      simp [hlater, eq_comm]
    · rw [lookup_behind h, ih htail]
      simp [h]

/-- **Tables with the same values are equal**, since the order of their entries is fixed. -/
theorem ext_get? {first second : KeyTable α} (h : ∀ key, first.get? key = second.get? key) :
    first = second := by
  have : Std.Irrefl fun a b : String × α => a.1 < b.1 := ⟨fun a => String.lt_irrefl a.1⟩
  have : Std.Antisymm fun a b : String × α => a.1 < b.1 :=
    ⟨fun a b hab hba => absurd hba (String.lt_asymm hab)⟩
  refine KeyTable.ext (first.ordered.eq_of_mem_iff second.ordered ?_)
  rintro ⟨key, value⟩
  rw [← get?_eq_some, ← get?_eq_some, h]

/-- A list that holds the graph of a function answers like it, whatever the order of its entries. -/
theorem lookup_eq_of_mem_iff {entries : List (String × α)} {value? : String → Option α}
    (h : ∀ key value, (key, value) ∈ entries ↔ value? key = some value) (key : String) :
    entries.lookup key = value? key := by
  cases hlookup : entries.lookup key with
  | none =>
    refine (Option.eq_none_iff_forall_ne_some.mpr fun value hvalue => ?_).symm
    have hne := List.lookup_eq_none_iff.mp hlookup _ ((h key value).mpr hvalue)
    simp at hne
  | some value =>
    obtain ⟨before, after, hsplit, -⟩ := List.lookup_eq_some_iff.mp hlookup
    refine ((h key value).mp ?_).symm
    rw [hsplit]
    exact List.mem_append_right _ List.mem_cons_self

/-- Of several values for one key the last one that is inserted stays. -/
theorem get?_foldl_insert (entries : List (String × α)) (table : KeyTable α) (key : String) :
    (entries.foldl (fun table (key, value) => table.insert key value) table).get? key =
      (entries.reverse.lookup key).or (table.get? key) := by
  induction entries generalizing table with
  | nil => rfl
  | cons entry entries ih =>
    obtain ⟨first, value⟩ := entry
    rw [List.foldl_cons, ih, List.reverse_cons, List.lookup_append, get?_insert, Option.or_assoc,
      List.lookup_cons]
    by_cases h : key = first
    · simp [h]
    · simp [h, beq_false_of_ne h]

end KeyTable

/-- The text of a limit, in full. -/
theorem Throttle.explanation_eq (limit : UInt64) : Throttle.explanation limit =
    "Request rate is limited to " ++ Text.decimal limit.toNat ++
      " requests in a 5 minute window." := by
  have hminutes : Text.decimal (Throttle.window.toNat / 60) = "5" := rfl
  have hend : ∀ text : String, text ++ " requests in a " ++ "5" ++ " minute window." =
      text ++ " requests in a 5 minute window." := by
    intro text
    rw [String.append_assoc, String.append_assoc]
    rfl
  unfold Throttle.explanation
  rw [hminutes, hend]

namespace Operation

/-! ### What an operation writes -/

/-- The body that an operation puts under a key, whatever was there. -/
def declared? (key : String) : Operation → Option ResponseBody
  | .responseBody other body => if other = key then some body else none
  | _ => none

/-- The body that an operation puts under a key if nothing was there. -/
def derived? (key : String) : Operation → Option ResponseBody
  | .preset named (some limit) =>
    if named.queue = .block ∧ named.bodyKey limit = key then
      some (.text (Throttle.explanation limit))
    else none
  | _ => none

/-- The body that was last registered under a key. -/
def lastDeclared? (key : String) (operations : List Operation) : Option ResponseBody :=
  operations.reverse.findSome? (declared? key)

/-- The body of the first blocking throttle whose limit gives a key. -/
def firstDerived? (key : String) (operations : List Operation) : Option ResponseBody :=
  operations.findSome? (derived? key)

/-- What stands under a key after these operations: the body that was registered last, wherever the
throttles are; else the text of the limit that gives the key; else nothing. -/
inductive BodyAt (operations : List Operation) (key : String) : Option ResponseBody → Prop where
  | declared {before after : List Operation} {body : ResponseBody}
      (split : operations = before ++ .responseBody key body :: after)
      (last : ∀ other, .responseBody key other ∉ after) : BodyAt operations key (some body)
  | derived {named : Preset} {limit : UInt64}
      (undeclared : ∀ body, .responseBody key body ∉ operations)
      (asked : .preset named (some limit) ∈ operations) (blocks : named.queue = .block)
      (gives : named.bodyKey limit = key) :
      BodyAt operations key (some ⟨"Request rate is limited to " ++ Text.decimal limit.toNat ++
        " requests in a 5 minute window.", .textPlain⟩)
  | absent (undeclared : ∀ body, .responseBody key body ∉ operations)
      (underived : ∀ named limit, .preset named (some limit) ∈ operations →
        named.queue = .block → named.bodyKey limit ≠ key) : BodyAt operations key none

section Reading

variable {key : String} {operations : List Operation} {body : ResponseBody}

theorem declared?_eq_some {operation : Operation} :
    operation.declared? key = some body ↔ operation = .responseBody key body := by
  cases operation with
  | responseBody other otherBody =>
    by_cases h : other = key
    · simp [declared?, h]
    · simp [declared?, h]
  | managedRules selection exclusions => simp [declared?]
  | ipRestriction addresses => simp [declared?]
  | throttle name limit condition key action => simp [declared?]
  | preset named limit => simp [declared?]

theorem declared?_eq_none {operation : Operation} :
    operation.declared? key = none ↔ ∀ body, operation ≠ .responseBody key body := by
  rw [Option.eq_none_iff_forall_ne_some]
  exact forall_congr' fun body => not_congr declared?_eq_some

theorem derived?_eq_some {operation : Operation} :
    operation.derived? key = some body ↔
      ∃ named limit, operation = .preset named (some limit) ∧ named.queue = .block ∧
        named.bodyKey limit = key ∧ body = .text (Throttle.explanation limit) := by
  unfold derived?
  split
  · next named limit =>
    by_cases h : named.queue = .block ∧ named.bodyKey limit = key
    · rw [if_pos h]
      constructor
      · intro hbody
        exact ⟨named, limit, rfl, h.1, h.2, (Option.some.inj hbody).symm⟩
      · rintro ⟨other, n, heq, -, -, rfl⟩
        cases heq
        rfl
    · rw [if_neg h]
      refine ⟨nofun, ?_⟩
      rintro ⟨other, n, heq, hblock, hkey, -⟩
      cases heq
      exact absurd ⟨hblock, hkey⟩ h
  · next hother =>
    refine ⟨nofun, ?_⟩
    rintro ⟨named, limit, rfl, -⟩
    exact absurd rfl (hother named limit)

/-- The last registration is the one behind which there is no other. -/
theorem lastDeclared?_eq_some : lastDeclared? key operations = some body ↔
    ∃ before after, operations = before ++ .responseBody key body :: after ∧
      ∀ other, .responseBody key other ∉ after := by
  rw [lastDeclared?, List.findSome?_eq_some_iff]
  constructor
  · rintro ⟨after, operation, before, hsplit, hop, hafter⟩
    have hop := declared?_eq_some.mp hop
    subst hop
    refine ⟨before.reverse, after.reverse, ?_, fun other hmem => ?_⟩
    · rw [← List.reverse_reverse operations, hsplit]
      simp
    · exact declared?_eq_none.mp (hafter _ (List.mem_reverse.mp hmem)) other rfl
  · rintro ⟨before, after, rfl, hafter⟩
    refine ⟨after.reverse, .responseBody key body, before.reverse, by simp,
      declared?_eq_some.mpr rfl, fun operation hmem => ?_⟩
    refine declared?_eq_none.mpr fun other heq => hafter other ?_
    exact heq ▸ List.mem_reverse.mp hmem

theorem lastDeclared?_eq_none : lastDeclared? key operations = none ↔
    ∀ body, .responseBody key body ∉ operations := by
  rw [lastDeclared?, List.findSome?_eq_none_iff]
  constructor
  · intro h body hmem
    exact declared?_eq_none.mp (h _ (List.mem_reverse.mpr hmem)) body rfl
  · intro h operation hmem
    refine declared?_eq_none.mpr fun body heq => h body ?_
    exact heq ▸ List.mem_reverse.mp hmem

/-- All throttles that give one key have one limit, so the first of them stands for all. -/
theorem firstDerived?_eq_some : firstDerived? key operations = some body ↔
    ∃ named limit, .preset named (some limit) ∈ operations ∧ named.queue = .block ∧
      named.bodyKey limit = key ∧ body = .text (Throttle.explanation limit) := by
  constructor
  · intro h
    obtain ⟨operation, hmem, hop⟩ := List.exists_of_findSome?_eq_some h
    obtain ⟨named, limit, rfl, hblock, hkey, hbody⟩ := derived?_eq_some.mp hop
    exact ⟨named, limit, hmem, hblock, hkey, hbody⟩
  · rintro ⟨named, limit, hmem, hblock, hkey, rfl⟩
    cases hfirst : firstDerived? key operations with
    | none =>
      have hnone := List.findSome?_eq_none_iff.mp hfirst _ hmem
      rw [derived?_eq_some.mpr ⟨named, limit, rfl, hblock, hkey, rfl⟩] at hnone
      cases hnone
    | some body =>
      -- another throttle may come first; it gives the same key, so it has the same limit
      obtain ⟨operation, -, hop⟩ := List.exists_of_findSome?_eq_some hfirst
      obtain ⟨other, n, -, hother, hotherKey, rfl⟩ := derived?_eq_some.mp hop
      obtain ⟨-, rfl⟩ := Preset.bodyKey_inj hother hblock (hotherKey.trans hkey.symm)
      rfl

theorem firstDerived?_eq_none : firstDerived? key operations = none ↔
    ∀ named limit, .preset named (some limit) ∈ operations → named.queue = .block →
      named.bodyKey limit ≠ key := by
  rw [Option.eq_none_iff_forall_ne_some]
  constructor
  · intro h named limit hmem hblock hkey
    exact h _ (firstDerived?_eq_some.mpr ⟨named, limit, hmem, hblock, hkey, rfl⟩)
  · intro h body hbody
    obtain ⟨named, limit, hmem, hblock, hkey, -⟩ := firstDerived?_eq_some.mp hbody
    exact h named limit hmem hblock hkey

/-- Registrations and throttles together say what stands under a key. -/
theorem bodyAt_iff {body? : Option ResponseBody} : BodyAt operations key body? ↔
    (lastDeclared? key operations).or (firstDerived? key operations) = body? := by
  constructor
  · rintro (⟨split, last⟩ | ⟨undeclared, asked, blocks, gives⟩ | ⟨undeclared, underived⟩)
    · rw [lastDeclared?_eq_some.mpr ⟨_, _, split, last⟩]
      rfl
    · rw [lastDeclared?_eq_none.mpr undeclared,
        firstDerived?_eq_some.mpr ⟨_, _, asked, blocks, gives, rfl⟩, Throttle.explanation_eq]
      rfl
    · rw [lastDeclared?_eq_none.mpr undeclared, firstDerived?_eq_none.mpr underived]
      rfl
  · rintro rfl
    cases hlast : lastDeclared? key operations with
    | some body =>
      obtain ⟨before, after, split, last⟩ := lastDeclared?_eq_some.mp hlast
      exact .declared split last
    | none =>
      have undeclared := lastDeclared?_eq_none.mp hlast
      cases hfirst : firstDerived? key operations with
      | some body =>
        obtain ⟨named, limit, asked, blocks, gives, rfl⟩ := firstDerived?_eq_some.mp hfirst
        rw [Throttle.explanation_eq]
        exact .derived undeclared asked blocks gives
      | none => exact .absent undeclared (firstDerived?_eq_none.mp hfirst)

end Reading

end Operation

/-! ### The table that operations leave -/

namespace Draft

open Operation

theorem get?_addPreset (draft : Draft) (named : Preset) (limit : UInt64) (key : String) :
    (draft.addPreset named limit).bodies.get? key =
      (draft.bodies.get? key).or (derived? key (.preset named (some limit))) := by
  unfold addPreset
  rw [bodies_enqueue]
  cases hq : named.queue with
  | count => simp [Preset.body?, derived?, hq]
  | block =>
    simp only [Preset.body?, derived?, hq, true_and, KeyTable.get?_insertNew]
    by_cases hkey : key = named.bodyKey limit
    · subst hkey
      cases draft.bodies.get? (named.bodyKey limit) <;> simp
    · simp [hkey, Ne.symm hkey]

/-- **One operation** replaces an entry, fills a gap, or leaves a key alone. -/
theorem get?_apply (draft : Draft) (operation : Operation) (key : String) :
    (draft.apply operation).bodies.get? key =
      (operation.declared? key).or ((draft.bodies.get? key).or (operation.derived? key)) := by
  cases operation with
  | managedRules selection exclusions => exact (Option.or_none).symm
  | ipRestriction addresses => exact (Option.or_none).symm
  | throttle name limit condition rateKey action =>
    rw [apply, bodies_enqueue]
    exact (Option.or_none).symm
  | responseBody other body =>
    rw [apply, KeyTable.get?_insert]
    by_cases hkey : key = other
    · simp [declared?, hkey]
    · simp [declared?, derived?, hkey, Ne.symm hkey]
  | preset named limit =>
    cases limit with
    | none => exact (Option.or_none).symm
    | some limit => exact get?_addPreset ..

/-- **Many operations**: the last registration comes before what was there, and that before the
throttles. -/
theorem get?_run (draft : Draft) (operations : List Operation) (key : String) :
    (draft.run operations).bodies.get? key =
      (lastDeclared? key operations).or
        ((draft.bodies.get? key).or (firstDerived? key operations)) := by
  induction operations generalizing draft with
  | nil => exact (Option.or_none).symm
  | cons operation operations ih =>
    have hlast : lastDeclared? key (operation :: operations) =
        (lastDeclared? key operations).or (operation.declared? key) := by
      rw [lastDeclared?, List.reverse_cons, List.findSome?_append, List.findSome?_singleton]
      rfl
    have hfirst : firstDerived? key (operation :: operations) =
        (operation.derived? key).or (firstDerived? key operations) := by
      rw [firstDerived?, List.findSome?_cons]
      cases operation.derived? key <;> rfl
    rw [run_cons, ih, get?_apply, hlast, hfirst]
    simp only [Option.or_assoc]

theorem get?_new (config : Config) (operations : List Operation) (key : String) :
    ((new config).run operations).bodies.get? key =
      (lastDeclared? key operations).or (firstDerived? key operations) := by
  rw [get?_run]
  rfl

/-- No rule that blocks is lost. -/
theorem prefix_blockRules_run (draft : Draft) (operations : List Operation) :
    draft.blockRules <+: (draft.run operations).blockRules := by
  induction operations generalizing draft with
  | nil => exact List.prefix_refl _
  | cons operation operations ih =>
    have hstep : draft.blockRules <+: (draft.apply operation).blockRules := by
      rw [blockRules_apply]
      exact List.prefix_append _ _
    exact hstep.trans (ih _)

/-- The rule of a blocking throttle is in the queue of blocking rules. -/
theorem rule_mem_blockRules (config : Config) {operations : List Operation} {named : Preset}
    {limit : UInt64} (asked : .preset named (some limit) ∈ operations)
    (blocks : named.queue = .block) :
    named.rule limit config.userHeader ∈ ((new config).run operations).blockRules := by
  obtain ⟨before, after, rfl⟩ := List.append_of_mem asked
  rw [run_append, run_cons]
  refine (prefix_blockRules_run _ after).subset ?_
  rw [blockRules_apply, config_new]
  refine List.mem_append_right _ ?_
  rw [Operation.rules, if_pos blocks]
  exact List.mem_singleton.mpr rfl

/-- **The body of every key.** It is the one that was registered last; else the text of the limit
from which a blocking throttle derives the key; else there is none. A key tells its throttle and its
limit, so a rule of a blocking throttle answers with the limit that it enforces, unless its key was
registered. -/
theorem body_of_key (config : Config) (operations : List Operation) :
    (∀ key body?, ((new config).run operations).bodies.get? key = body? ↔
      BodyAt operations key body?) ∧
    (∀ first second m n, first.queue = .block → second.queue = .block →
      Preset.bodyKey first m = Preset.bodyKey second n → first = second ∧ m = n) ∧
    ∀ named limit, .preset named (some limit) ∈ operations → named.queue = .block →
      (∀ body, .responseBody (named.bodyKey limit) body ∉ operations) →
      ∃ rule ∈ ((new config).run operations).blockRules,
        rule.name = named.ruleName limit ∧ rule.limit? = some limit ∧
        ∃ key, rule.responseKey? = some key ∧
          ((new config).run operations).bodies.get? key =
            some ⟨"Request rate is limited to " ++ Text.decimal limit.toNat ++
              " requests in a 5 minute window.", .textPlain⟩ := by
  have hbody : ∀ key body?, ((new config).run operations).bodies.get? key = body? ↔
      BodyAt operations key body? := by
    intro key body?
    rw [get?_new, bodyAt_iff]
  refine ⟨hbody, fun first second m n => Preset.bodyKey_inj, ?_⟩
  intro named limit asked blocks undeclared
  have hkey : (named.rule limit config.userHeader).responseKey? = some (named.bodyKey limit) :=
    (Preset.responseKey?_rule_eq_some named limit _).mpr ⟨blocks, rfl⟩
  have hlimit := Preset.limit?_rule named limit config.userHeader
  exact ⟨_, rule_mem_blockRules config asked blocks, rfl, hlimit, _, hkey,
    (hbody _ _).mpr (.derived undeclared asked blocks rfl)⟩

end Draft

end WebAcl
