import WebAcl.Proofs.Json.Rendering
import WebAcl.Proofs.WrittenIntents
import WebAcl.Template

/-! # Normal forms

Configurations, what they say of visibility, and response bodies are written as well as read. Each
is read off its own rendering, since the rendering gives every part once, in the order of the
declaration, and no default has to step in. So the text that is rendered for what was read off
another text is the normal form of that text.

* `RoundTrips`: values are read off their own renderings, and renderings are normal forms.
* `roundTrips_of_takes`: it is enough that a value is read off the tree of its layout.
* `records_roundTrip`: the three kinds of records. -/

namespace WebAcl

open Json Json.Reader

namespace Json

variable {α : Type}

/-- The text that is rendered for what is read off a text. -/
def normalText (read : Reader α) (layout : α → Document) (lines : Bool) (text : String) :
    Except Fault String :=
  (document read text).map fun a => (layout a).toJson lines

/-- Values are read off their own renderings, and what is rendered after reading is a normal form. -/
structure RoundTrips (read : Reader α) (layout : α → Document) : Prop where
  /-- A rendering is JSON and stands for the layout alone. -/
  decodes : ∀ a lines v, Decodes ((layout a).toJson lines).toList v ↔ v = (layout a).value
  /-- A value is read off its rendering. -/
  own : ∀ a lines, document read ((layout a).toJson lines) = .ok a
  /-- What was read off any text is read once more off its rendering. -/
  again : ∀ text a, document read text = .ok a →
    ∀ lines, document read ((layout a).toJson lines) = .ok a
  /-- A normal form says what the text says, and it is its own normal form. -/
  normal : ∀ lines text form, normalText read layout lines text = .ok form →
    document read form = document read text ∧ normalText read layout lines form = .ok form
  /-- Two texts have the same normal form exactly if they say the same. -/
  unique : ∀ lines text other,
    normalText read layout lines text = normalText read layout lines other ↔
      document read text = document read other

theorem map_inj {ε β : Type} {f : α → β} (hf : ∀ a b, f a = f b → a = b) {x y : Except ε α} :
    x.map f = y.map f ↔ x = y := by
  refine ⟨fun h => ?_, fun h => h ▸ rfl⟩
  cases x with
  | error fault => cases y with
    | error fault' => exact congrArg _ (Except.error.inj h)
    | ok b => cases h
  | ok a => cases y with
    | error fault => cases h
    | ok b => exact congrArg _ (hf a b (Except.ok.inj h))

/-- If values are read off the trees of their layouts, everything else follows. -/
theorem roundTrips_of_takes {read : Reader α} {layout : α → Document}
    (h : ∀ a, read.Takes levels (layout a).tree a) : RoundTrips read layout := by
  have hown : ∀ a lines, document read ((layout a).toJson lines) = .ok a := fun a lines =>
    document_takes (h a) ((layout a).toJson_isText lines)
  refine ⟨fun a lines _ => (layout a).decodes_toJson lines, hown,
    fun _ a _ => hown a, fun lines text form hform => ?_, fun lines text other => ?_⟩
  · cases hread : document read text with
    | error fault =>
      rw [normalText, hread] at hform
      cases hform
    | ok a =>
      rw [normalText, hread] at hform
      obtain rfl : (layout a).toJson lines = form := Except.ok.inj hform
      refine ⟨hown a lines, ?_⟩
      rw [normalText, hown]
      rfl
  · refine map_inj fun a b hsame => ?_
    -- both values are read off the one rendering
    have hread : document read ((layout a).toJson lines) = .ok b := by rw [hsame, hown]
    exact Except.ok.inj ((hown a lines).symm.trans hread)

/-- Members that give every part in order make the object. -/
theorem isObjectOf_of_forall₂ {strays : Bool} {parts : List Part} {members : List (List Nat × Tree)}
    (h : List.Forall₂ (fun part m => m.1 = utf16 part.name ∧ part.form m.2) parts members) :
    IsObjectOf strays parts (.object members) := by
  have hfills : ∀ spare : String → Prop, Fills spare parts members := by
    intro spare
    induction h with
    | nil => exact .close (List.forall_mem_nil _)
    | @cons part m parts members hpart _ ih =>
      obtain ⟨key, t⟩ := m
      obtain ⟨rfl, hform⟩ := hpart
      have hfirst : 0 < (part :: parts).length := List.length_pos_of_ne_nil (List.cons_ne_nil _ _)
      exact .first ⟨0, hfirst⟩ hform ih
  exact ⟨members, rfl, hfills _⟩

end Json

/-! ### Records and their layouts -/

theorem Visibility.isObjectOf_document (visibility : Visibility) (strays : Bool) :
    IsObjectOf strays visibility.parts visibility.document.tree :=
  isObjectOf_of_forall₂ (.cons ⟨rfl, rfl⟩ (.cons ⟨rfl, rfl⟩ (.cons ⟨rfl, rfl⟩ .nil)))

theorem Config.isObjectOf_document (config : Config) (strays : Bool) :
    IsObjectOf strays (config.parts strays) config.document.tree :=
  isObjectOf_of_forall₂ (.cons ⟨rfl, rfl⟩ (.cons ⟨rfl, rfl⟩ (.cons ⟨rfl, rfl⟩ (.cons ⟨rfl, rfl⟩
    (.cons ⟨rfl, config.visibility.isObjectOf_document strays⟩ .nil)))))

theorem ResponseBody.isObjectOf_document (body : ResponseBody) (strays : Bool) :
    IsObjectOf strays body.parts body.document.tree :=
  isObjectOf_of_forall₂ (.cons ⟨rfl, rfl⟩ (.cons ⟨rfl, rfl⟩ .nil))

/-- **Configurations, visibilities and response bodies** are read off their own renderings, whatever
characters their texts hold, and rendering what was read gives a normal form. -/
theorem records_roundTrip : RoundTrips Config.read Config.document ∧
    RoundTrips Visibility.read Visibility.document ∧
    RoundTrips ResponseBody.read ResponseBody.document :=
  ⟨roundTrips_of_takes fun config => Config.read_takes (config.isObjectOf_document false),
    roundTrips_of_takes fun visibility =>
      Visibility.read_takes (visibility.isObjectOf_document false),
    roundTrips_of_takes fun body => ResponseBody.read_takes (body.isObjectOf_document false)⟩

/-- A text with a line end, a quote and a control character. -/
example : document ResponseBody.read ((ResponseBody.text "a\n\"\x00").document.toJson true) =
    .ok (.text "a\n\"\x00") := by
  decide +kernel

end WebAcl
