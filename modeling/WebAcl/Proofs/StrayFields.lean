import WebAcl.Proofs.AcceptedIntents
import WebAcl.Proofs.WrittenIntents

/-! # Fields of other names

What happens to a member whose key is none of the fields. The document itself, the managed groups
and the limits refuse it. The configuration, its visibility and the response bodies pass over it, so
a misspelled field counts as left out and the field keeps its default.

* `Intents.ofJson_stray`: where such a member is refused and where it is passed over. -/

namespace WebAcl

open Json Json.Reader

namespace Json

/-! ### Members under other keys -/

/-- One of the members has a key that is none of the names. -/
def Tree.HasOther (t : Tree) (names : List String) : Prop :=
  match t with
  | .object members => ∃ m ∈ members, ∀ name ∈ names, m.1 ≠ utf16 name
  | _ => False

/-- What is read as a closed record has no other fields. -/
theorem Shape.Gives.not_hasOther {α : Type} {shape : Shape α}
    {kind : Field α → Nat → Tree → (α → α) → Prop} {depth : Nat} {t : Tree} {a : α}
    (h : shape.Gives kind depth t a) (hclosed : shape.isOpen = false) :
    ¬ t.HasOther shape.fieldNames := by
  cases h with
  | object hwalk =>
    rintro ⟨⟨units, value⟩, hmem, hother⟩
    obtain ⟨progress, key, progress', rfl, hstep⟩ := hwalk.step_of_mem hmem
    cases hstep with
    | @field field put hfind =>
      obtain rfl : field.name = key := by simpa using List.find?_some hfind
      exact hother _ (List.mem_map_of_mem (List.mem_of_find?_eq_some hfind)) rfl
    | stray hopen => exact absurd (hopen.symm.trans hclosed) (by decide)
  | list => exact id

end Json

namespace Intents

/-- A member under another key in the document, its managed groups or its limits. -/
inductive RefusedStray (t : Tree) : Prop
  | document : t.HasOther shape.fieldNames → RefusedStray t
  | managedRules {v : Tree} : t.HasField shape.fieldNames "managedRules" v →
      v.HasOther ManagedIntent.shape.fieldNames → RefusedStray t
  | throttle {v : Tree} : t.HasField shape.fieldNames "throttle" v →
      v.HasOther ThrottleLimits.shape.fieldNames → RefusedStray t

theorem not_refusedStray {text : String} {t : Tree} {intents : Intents}
    (ht : t.IsText text.toList) (h : Reader.document read text = .ok intents) :
    ¬ RefusedStray t := by
  have hgives : Gives levels t intents := document_admits read_admits ht h
  rintro (hother | ⟨hfield, hother⟩ | ⟨hfield, hother⟩)
  · exact Shape.Gives.not_hasOther hgives rfl hother
  · obtain ⟨managed, hmanaged⟩ := hgives.managedRules hfield
    cases hmanaged with
    | none => exact hother
    | some _ hmanaged => exact Shape.Gives.not_hasOther hmanaged rfl hother
  · obtain ⟨limits, hlimits⟩ := hgives.throttle hfield
    exact Shape.Gives.not_hasOther hlimits rfl hother

/-- **A member under another key** is refused in the document, its managed groups and its limits,
and passed over in the configuration, its visibility and the response bodies. -/
theorem ofJson_stray {text : String} {t : Tree} (ht : t.IsText text.toList) :
    (RefusedStray t → ∃ fault, ofJson text = .error (.document fault)) ∧
      ∀ intents : Intents, intents.WrittenAs true t → ofJson text = .ok intents := by
  refine ⟨fun hstray => ?_, fun intents h => ofJson_of_writtenAs h ht⟩
  cases hread : Reader.document read text with
  | ok intents => exact absurd hstray (not_refusedStray ht hread)
  | error fault => exact ⟨fault, by rw [ofJson, hread]⟩

/-- A limit under a name that no throttle has. -/
def strayLimitTree : Tree :=
  .object [(utf16 "throttle", .object [(utf16 "userIp", .null)])]

theorem strayLimitTree_isText :
    strayLimitTree.IsText "\x7b\"throttle\":\x7b\"userIp\":null\x7d\x7d".toList := by
  refine ⟨[], _, [], blank_nil, .object (.member (.first blank_nil)
    (unitsWritten_plain (s := "throttle".toList) (by decide)) blank_nil blank_nil
    (.object (.member (.first blank_nil) (unitsWritten_plain (s := "userIp".toList) (by decide))
      blank_nil blank_nil .null (.close blank_nil))) (.close blank_nil)), blank_nil, ?_⟩
  decide

/-- A misspelled limit is refused. -/
theorem ofJson_strayLimit :
    strayLimitTree.IsText "\x7b\"throttle\":\x7b\"userIp\":null\x7d\x7d".toList ∧
      ∃ fault, ofJson "\x7b\"throttle\":\x7b\"userIp\":null\x7d\x7d" = .error (.document fault) :=
  ⟨strayLimitTree_isText, (ofJson_stray strayLimitTree_isText).1
    (.throttle (v := .object [(utf16 "userIp", .null)]) List.mem_cons_self
      ⟨_, List.mem_cons_self, by decide⟩)⟩

/-- A configuration whose scope is misspelled. -/
def misspelledTree : Tree :=
  .object [(utf16 "config", .object [(utf16 "scpoe", .text (utf16 "REGIONAL"))])]

theorem misspelledTree_isText :
    misspelledTree.IsText "\x7b\"config\":\x7b\"scpoe\":\"REGIONAL\"\x7d\x7d".toList := by
  refine ⟨[], _, [], blank_nil, .object (.member (.first blank_nil)
    (unitsWritten_plain (s := "config".toList) (by decide)) blank_nil blank_nil
    (.object (.member (.first blank_nil) (unitsWritten_plain (s := "scpoe".toList) (by decide))
      blank_nil blank_nil (.text (unitsWritten_plain (s := "REGIONAL".toList) (by decide)))
      (.close blank_nil))) (.close blank_nil)), blank_nil, ?_⟩
  decide

theorem misspelledTree_writtenAs : default.WrittenAs true misspelledTree := by
  refine ⟨_, rfl, .first ⟨0, by decide⟩
    ⟨_, rfl, .spare ⟨rfl, by decide⟩ (.close ?_)⟩ (.close ?_)⟩
  · simp [Config.parts, default]
  · simp [parts, default]

/-- A misspelled scope is dropped, and the list gets the scope that nobody asked for. -/
theorem misspelled_scope_dropped :
    misspelledTree.IsText "\x7b\"config\":\x7b\"scpoe\":\"REGIONAL\"\x7d\x7d".toList ∧
      (∃ config, misspelledTree.HasField shape.fieldNames "config" config ∧
        config.HasOther Config.shape.fieldNames) ∧
      ofJson "\x7b\"config\":\x7b\"scpoe\":\"REGIONAL\"\x7d\x7d" = .ok .default :=
  ⟨misspelledTree_isText, ⟨_, List.mem_cons_self, _, List.mem_cons_self, by decide⟩,
    ofJson_of_writtenAs misspelledTree_writtenAs misspelledTree_isText⟩

end Intents

end WebAcl
