import WebAcl.Proofs.DistinctKeys
import WebAcl.Proofs.Layout
import WebAcl.Proofs.MessagePack.Rendering

/-! # What renderings say

A template has three renderings: JSON text without blanks, JSON text with lines, and MessagePack.
They stand for one value, that of its layout, in which no object has a key twice. Since the layout
tells everything, each rendering tells its template.

* `Template.renderings_agree`: all renderings stand for the same value.
* `Template.renderings_inj`: templates with the same rendering are equal. -/

namespace WebAcl.Template

open Json MessagePack

/-- A JSON text tells its template: it stands for one value only. -/
theorem toJson_inj {first second : Template} {lines : Bool} :
    first.toJson lines = second.toJson lines ↔ first = second := by
  refine ⟨fun h => document_inj.mp (Document.value_inj ?_), fun h => h ▸ rfl⟩
  have hfirst : Decodes (first.toJson lines).toList first.document.value :=
    (first.document.decodes_toJson lines).mpr rfl
  rw [h] at hfirst
  exact (second.document.decodes_toJson lines).mp hfirst

/-- A template with a nested statement, a table and characters that are escaped; its rate has these
custom keys. -/
def sample (keys : Option (List CustomKey)) : Template where
  ipSets := [⟨"Office", .regional, .ipv6, ["::1"]⟩]
  acl :=
    { name := "edge\n"
      scope := .regional
      visibility := .metricsOnly "\"edge\""
      rules := [⟨0, ⟨"slow", .block none,
        .not (.rateBased ⟨.customKeys, keys, 18446744073709551615, 300⟩ (.ipSet "office")),
        .sampled "slow"⟩⟩]
      bodies := KeyTable.empty.insert "é" (.text "") }

theorem sample_fits : (sample none).document.Fits ∧ (sample (some [])).document.Fits := by
  decide +kernel

/-- **All renderings stand for the same value**, that of the layout, and for no other; no object of
this value has a key twice. -/
theorem renderings_agree (template : Template) (h : template.document.Fits) :
    (∀ lines v, Decodes (template.toJson lines).toList v ↔ v = template.document.value) ∧
      (∀ v, ValueWritten v template.toMessagePack ↔ v = template.document.value) ∧
      template.document.value.KeysDistinct :=
  ⟨fun lines _ => template.document.decodes_toJson lines,
    fun _ => Document.packed_iff h, template.distinct⟩

theorem renderings_agree_sample : (sample none).document.Fits ∧
    (∀ lines v, Decodes ((sample none).toJson lines).toList v ↔ v = (sample none).document.value) ∧
      (∀ v, ValueWritten v (sample none).toMessagePack ↔ v = (sample none).document.value) ∧
      (sample none).document.value.KeysDistinct :=
  ⟨sample_fits.1, renderings_agree (sample none) sample_fits.1⟩

/-- **A rendering tells its template**: templates with the same text, or with the same bytes, are
equal. -/
theorem renderings_inj (first second : Template) :
    (∀ lines, first.toJson lines = second.toJson lines ↔ first = second) ∧
      (first.document.Fits → second.document.Fits →
        (first.toMessagePack = second.toMessagePack ↔ first = second)) := by
  refine ⟨fun _ => toJson_inj, fun hfirst hsecond =>
    ⟨fun h => document_inj.mp (Document.value_inj ?_), fun h => h ▸ rfl⟩⟩
  have hwritten : ValueWritten first.document.value first.toMessagePack :=
    Document.packed_written hfirst
  rw [h] at hwritten
  exact (Document.packed_iff hsecond).mp hwritten

/-- No custom keys and an empty list of them are told apart in every rendering. -/
theorem renderings_inj_sample : (sample none).document.Fits ∧ (sample (some [])).document.Fits ∧
    (∀ lines, (sample none).toJson lines ≠ (sample (some [])).toJson lines) ∧
      (sample none).toMessagePack ≠ (sample (some [])).toMessagePack := by
  have hne : sample none ≠ sample (some []) := fun h =>
    absurd (congrArg (·.acl.rules) h) (by decide)
  obtain ⟨htexts, hbytes⟩ := renderings_inj (sample none) (sample (some []))
  exact ⟨sample_fits.1, sample_fits.2, fun lines h => hne ((htexts lines).mp h),
    fun h => hne ((hbytes sample_fits.1 sample_fits.2).mp h)⟩

end WebAcl.Template
