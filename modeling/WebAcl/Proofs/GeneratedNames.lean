import WebAcl.Draft

/-! # Generated names

The names of rules and the keys of response bodies that are not chosen by a caller begin with fixed
words, and a limit may follow in decimal. No word begins with another one (`PrefixFree`). Hence a
name tells what its rule stands for, and a key tells its throttle and its limit.

* `Slot`: what a rule with a generated name stands for, whatever its limit.
* `Slot.eq_of_stem_prefix`: rules of different slots have different names.
* `Preset.bodyKey_inj`: a key belongs to one blocking throttle and to one limit. -/

namespace WebAcl

/-! ### Words in front of a text -/

/-- No word begins with the word of another member. -/
def PrefixFree {α : Type} (word : α → String) (members : List α) : Prop :=
  ∀ first ∈ members, ∀ second ∈ members,
    (word first).toList <+: (word second).toList → first = second

namespace PrefixFree

variable {α : Type} {word : α → String} {members : List α} {first second : α}

/-- A text begins with one word only. -/
theorem eq_of_prefix (free : PrefixFree word members) (hfirst : first ∈ members)
    (hsecond : second ∈ members) {text : List Char} (h : (word first).toList <+: text)
    (h' : (word second).toList <+: text) : first = second := by
  rcases List.prefix_or_prefix_of_prefix h h' with hprefix | hprefix
  · exact free first hfirst second hsecond hprefix
  · exact (free second hsecond first hfirst hprefix).symm

/-- What follows a word is determined by the text. -/
theorem append_inj (free : PrefixFree word members) (hfirst : first ∈ members)
    (hsecond : second ∈ members) {rest other : String}
    (h : word first ++ rest = word second ++ other) : first = second ∧ rest = other := by
  have hlist : (word first).toList ++ rest.toList = (word second).toList ++ other.toList := by
    simpa using congrArg String.toList h
  have hprefix : (word first).toList <+: (word second).toList ++ other.toList :=
    hlist ▸ List.prefix_append _ _
  obtain rfl := free.eq_of_prefix hfirst hsecond hprefix (List.prefix_append _ _)
  exact ⟨rfl, (String.append_right_inj _).mp h⟩

end PrefixFree

namespace Preset

theorem mem_all (preset : Preset) : preset ∈ all := by
  obtain ⟨_ | _, _ | _, _ | _⟩ := preset <;> decide

theorem mem_ofQueue {preset : Preset} {queue : Queue} :
    preset ∈ ofQueue queue ↔ preset.queue = queue := by
  obtain ⟨own, condition, key⟩ := preset
  cases condition <;> cases key <;> simp [ofQueue]

/-! ### Keys of response bodies -/

theorem prefixFree_bodyStem : PrefixFree bodyStem (ofQueue .block) := by
  unfold PrefixFree
  decide +kernel

/-- **A key tells its throttle and its limit.** -/
theorem bodyKey_inj {first second : Preset} {m n : UInt64} (hfirst : first.queue = .block)
    (hsecond : second.queue = .block) (h : first.bodyKey m = second.bodyKey n) :
    first = second ∧ m = n := by
  rw [bodyKey, bodyKey] at h
  obtain ⟨heq, hdecimal⟩ :=
    prefixFree_bodyStem.append_inj (mem_ofQueue.mpr hfirst) (mem_ofQueue.mpr hsecond) h
  exact ⟨heq, UInt64.toNat_inj.mp (Text.decimal_inj.mp hdecimal)⟩

end Preset

/-! ### Names of rules -/

/-- What a rule with a generated name stands for. -/
inductive Slot where
  | throttle (preset : Preset)
  | group (group : ManagedGroup)
  | blocklist
  deriving DecidableEq

namespace Slot

/-- The slots in the order in which their rules are tried: the counting throttles, the managed
groups, the blocklist, the blocking throttles. -/
def all : List Slot :=
  (Preset.ofQueue .count).map throttle ++ ManagedGroup.all.map group ++ [blocklist] ++
    (Preset.ofQueue .block).map throttle

theorem mem_all (slot : Slot) : slot ∈ all := by
  have hpreset : ∀ preset : Preset, throttle preset ∈ all := by
    rintro ⟨_ | _, _ | _, _ | _⟩ <;> decide
  have hgroup : ∀ managed : ManagedGroup, group managed ∈ all := by
    rintro (_ | _ | _ | _) <;> decide
  cases slot with
  | throttle preset => exact hpreset preset
  | group managed => exact hgroup managed
  | blocklist => decide

theorem nodup_all : all.Nodup := by decide

/-- The words with which the names of a slot's rules begin. -/
def stem : Slot → String
  | throttle preset => preset.stem
  | group managed => managed.ruleName
  | blocklist => "IpBlocklist"

theorem prefixFree_stem : PrefixFree stem all := by
  unfold PrefixFree
  decide +kernel

/-- **A name tells its slot.** -/
theorem eq_of_stem_prefix {first second : Slot} {name : String}
    (h : first.stem.toList <+: name.toList) (h' : second.stem.toList <+: name.toList) :
    first = second :=
  prefixFree_stem.eq_of_prefix (mem_all first) (mem_all second) h h'

theorem stem_prefix_ruleName (preset : Preset) (limit : UInt64) :
    (throttle preset).stem.toList <+: (preset.ruleName limit).toList := by
  obtain ⟨queue, condition, key⟩ := preset
  cases queue with
  | block => exact List.prefix_refl _
  | count =>
    have hname : Preset.ruleName ⟨.count, condition, key⟩ limit =
      Preset.stem ⟨.count, condition, key⟩ ++ Text.decimal limit.toNat := rfl
    rw [hname, String.toList_append]
    exact List.prefix_append _ _

end Slot

end WebAcl
