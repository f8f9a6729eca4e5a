import WebAcl.Name
import WebAcl.Proofs.GeneratedNames

/-! # The languages of names

A name that is not reported is a text of letters, digits and a few signs, not empty and not longer
than its limit: `[A-Za-z0-9_-]{1,128}` for rules and access lists, and for metrics up to 255
characters, among which `#`, `:`, `.` and `/` may be too. The checks decide these two languages over
all texts (`isRuleName_iff`, `isMetricName_iff`).
The first lies within the second (`RuleName.metricName`), so a rule whose metric bears its name is
never reported for the metric alone.

Generated names are words of at most 41 characters, behind which a 64-bit limit has at most 20 digits
(`Preset.ruleName_fits`), so none of them is reported. -/

namespace WebAcl

namespace Name

/-- A letter or a digit of ASCII, or one of these signs. -/
def Letter (signs : List Char) (c : Char) : Prop :=
  'A' ≤ c ∧ c ≤ 'Z' ∨ 'a' ≤ c ∧ c ≤ 'z' ∨ '0' ≤ c ∧ c ≤ '9' ∨ c ∈ signs

/-- A text of letters, digits and signs with at least one and at most `most` characters. -/
structure Word (signs : List Char) (most : Nat) (name : String) : Prop where
  nonempty : 1 ≤ name.length
  short : name.length ≤ most
  letters : ∀ c ∈ name.toList, Letter signs c

/-- **The names of rules and access lists**: `[A-Za-z0-9_-]{1,128}`. -/
def RuleName (name : String) : Prop := Word ['_', '-'] 128 name

/-- **The names of metrics**: up to 255 characters, with four signs more. -/
def MetricName (name : String) : Prop := Word ['_', '-', '#', ':', '.', '/'] 255 name

/-! ### The checks decide the languages -/

section Checks

variable {signs : List Char} {most : Nat} {name : String}

theorem isAlphanum_iff {c : Char} : c.isAlphanum ↔
    'A' ≤ c ∧ c ≤ 'Z' ∨ 'a' ≤ c ∧ c ≤ 'z' ∨ '0' ≤ c ∧ c ≤ '9' := by
  have hupper : c.isUpper ↔ 'A' ≤ c ∧ c ≤ 'Z' := decide_eq_true_iff
  have hlower : c.isLower ↔ 'a' ≤ c ∧ c ≤ 'z' :=
    Bool.and_eq_true_iff.trans (and_congr decide_eq_true_iff decide_eq_true_iff)
  have hdigit : c.isDigit ↔ '0' ≤ c ∧ c ≤ '9' :=
    Bool.and_eq_true_iff.trans (and_congr decide_eq_true_iff decide_eq_true_iff)
  calc c.isAlphanum ↔ (c.isUpper ∨ c.isLower) ∨ c.isDigit :=
        Bool.or_eq_true_iff.trans (or_congr_left Bool.or_eq_true_iff)
    _ ↔ _ := by rw [hupper, hlower, hdigit, or_assoc]

theorem isRuleChar_iff {c : Char} : isRuleChar c ↔ Letter ['_', '-'] c := by
  simp only [isRuleChar, Letter, Bool.or_eq_true, decide_eq_true_iff, isAlphanum_iff, List.mem_cons,
    List.not_mem_nil, or_false, or_assoc]

theorem isMetricChar_iff {c : Char} :
    isMetricChar c ↔ Letter ['_', '-', '#', ':', '.', '/'] c := by
  simp only [isMetricChar, Bool.or_eq_true, decide_eq_true_iff, isRuleChar_iff, Letter, List.mem_cons,
    List.not_mem_nil, or_false, or_assoc]

theorem fits_iff {permitted : Char → Bool} (h : ∀ c, permitted c ↔ Letter signs c) :
    fits permitted most name ↔ Word signs most name := by
  simp only [fits, Bool.and_eq_true, decide_eq_true_iff, List.all_eq_true, String.length_toList, h]
  constructor
  · rintro ⟨⟨hpos, hshort⟩, hletters⟩
    exact ⟨hpos, hshort, hletters⟩
  · rintro ⟨hpos, hshort, hletters⟩
    exact ⟨⟨hpos, hshort⟩, hletters⟩

theorem isRuleName_iff : isRuleName name ↔ RuleName name := fits_iff fun _ => isRuleChar_iff

theorem isMetricName_iff : isMetricName name ↔ MetricName name := fits_iff fun _ => isMetricChar_iff

instance : DecidablePred RuleName := fun _ => decidable_of_iff _ isRuleName_iff

instance : DecidablePred MetricName := fun _ => decidable_of_iff _ isMetricName_iff

end Checks

/-! ### Words within words -/

section Words

variable {signs more : List Char} {most n : Nat} {name rest : String}

theorem Letter.mono (hsigns : signs ⊆ more) {c : Char} (h : Letter signs c) : Letter more c :=
  h.imp_right fun h => h.imp_right fun h => h.imp_right fun hmem => hsigns hmem

/-- More signs and more room keep a word a word. -/
theorem Word.mono (h : Word signs most name) (hsigns : signs ⊆ more) (hmost : most ≤ n) :
    Word more n name :=
  ⟨h.nonempty, Nat.le_trans h.short hmost, fun c hc => (h.letters c hc).mono hsigns⟩

/-- **A rule name is a metric name.** -/
theorem RuleName.metricName (h : RuleName name) : MetricName name :=
  Word.mono h (by decide) (by decide)

theorem Word.append (h : Word signs most name) (hrest : rest.length ≤ n)
    (hletters : ∀ c ∈ rest.toList, Letter signs c) : Word signs (most + n) (name ++ rest) := by
  refine ⟨?_, ?_, fun c hc => ?_⟩
  · rw [String.length_append]
    exact Nat.le_add_right_of_le h.nonempty
  · rw [String.length_append]
    exact Nat.add_le_add h.short hrest
  · rw [String.toList_append, List.mem_append] at hc
    exact hc.elim (h.letters c) (hletters c)

theorem letter_of_mem_decimal {c : Char} (h : c ∈ (Text.decimal n).toList) : Letter signs c := by
  rw [Text.toList_decimal] at h
  have hdigit := Nat.isDigit_of_mem_toDigits (by decide) (by decide) h
  rw [Char.isDigit, Bool.and_eq_true, decide_eq_true_iff, decide_eq_true_iff] at hdigit
  exact Or.inr (Or.inr (Or.inl hdigit))

/-- A number of 64 bits has at most twenty digits. -/
theorem length_decimal_le (limit : UInt64) : (Text.decimal limit.toNat).length ≤ 20 := by
  rw [← String.length_toList, Text.toList_decimal,
    Nat.length_toDigits_le_iff (by decide) (by decide)]
  have hlt := limit.toNat_lt
  omega

end Words

end Name

/-! ### Generated names -/

namespace Slot

theorem word_stem (slot : Slot) : Name.Word ['_', '-'] 41 slot.stem := by
  have hall : ∀ slot ∈ all, Name.fits Name.isRuleChar 41 slot.stem := by decide +kernel
  exact (Name.fits_iff fun _ => Name.isRuleChar_iff).mp (hall slot (mem_all slot))

/-- The name of a slot's rule without a limit. -/
theorem ruleName_stem (slot : Slot) : Name.RuleName slot.stem :=
  slot.word_stem.mono (List.Subset.refl _) (by decide)

end Slot

/-- **The names of throttles** are rule names, whatever the limit. -/
theorem Preset.ruleName_fits (preset : Preset) (limit : UInt64) :
    Name.RuleName (preset.ruleName limit) := by
  obtain ⟨queue, condition, key⟩ := preset
  have hstem := Slot.word_stem (.throttle ⟨queue, condition, key⟩)
  cases queue with
  | block => exact hstem.mono (List.Subset.refl _) (by decide)
  | count =>
    have hword := hstem.append (Name.length_decimal_le limit) fun _ => Name.letter_of_mem_decimal
    exact hword.mono (List.Subset.refl _) (by decide)

end WebAcl
