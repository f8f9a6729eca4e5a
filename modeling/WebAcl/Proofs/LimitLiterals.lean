import WebAcl.Proofs.AcceptedIntents
import WebAcl.Proofs.ShownLimits
import WebAcl.Proofs.WrittenIntents

/-! # Limits as they are written

A limit is written as a number literal, and most literals are none: only digits without sign, point
and exponent are, as long as their value has 64 bits. Such a literal gives the limit of its value, and
everything else in the document stays as it is; any other literal makes the whole document faulty, so
that no limit is ever rounded, wrapped or left out.

* `Literal.IsPlain`, `Literal.number?_eq_natural`: the literals of natural numbers.
* `toDigits_value`: such a literal is the decimal form of its value.
* `Intents.LimitPlace`: where in a document the limit of a throttle stands.
* `Intents.ofJson_limit`: what a literal at such a place comes to. -/

namespace WebAcl

open Json Json.Reader

/-! ### Literals -/

namespace Json

/-- A literal without sign, fraction and exponent. -/
structure Literal.IsPlain (l : Literal) : Prop where
  isNegative : l.isNegative = false
  fraction : l.fraction = []
  exponent : l.exponent = none

theorem Literal.isPlain_iff {l : Literal} :
    l.IsPlain ↔ (l.isInteger && !l.isNegative) = true := by
  obtain ⟨isNegative, whole, fraction, exponent⟩ := l
  rw [Literal.isInteger, Bool.and_eq_true, Bool.and_eq_true, List.isEmpty_iff,
    Option.isNone_iff_eq_none, Bool.not_eq_true']
  exact ⟨fun h => ⟨⟨h.fraction, h.exponent⟩, h.isNegative⟩, fun h => ⟨h.2, h.1.1, h.1.2⟩⟩

/-- A literal denotes a natural number if it is plain and its value has 64 bits. -/
theorem Literal.number?_eq_natural {l : Literal} {n : UInt64} :
    l.number? = some (.natural n) ↔ l.IsPlain ∧ Literal.value l.whole = n.toNat := by
  rw [Literal.isPlain_iff]
  constructor
  · intro h
    rw [Literal.number?] at h
    split at h
    · next hnatural =>
      obtain ⟨hplain, hsmall⟩ := Bool.and_eq_true_iff.mp hnatural
      obtain rfl := Number.natural.inj (Option.some.inj h)
      exact ⟨hplain, (UInt64.toNat_ofNat_of_lt' (of_decide_eq_true hsmall)).symm⟩
    · split at h
      · cases h
      · obtain ⟨magnitude, -, hfloating⟩ := Option.map_eq_some_iff.mp h
        cases hfloating
  · rintro ⟨hplain, hvalue⟩
    rw [Literal.number?, hplain, hvalue, Bool.true_and, if_pos (decide_eq_true n.toNat_lt),
      UInt64.ofNat_toNat]

theorem isWhole_of_written {l : Literal} {s : List Char} (h : (Tree.number l).Written s) :
    IsWhole l.whole := by
  cases h with
  | number h =>
    cases h with
    | parts hwhole => exact hwhole

theorem Literal.value_concat (s : List Char) (c : Char) :
    Literal.value (s ++ [c]) = 10 * Literal.value s + (c.toNat - '0'.toNat) := by
  simp [Literal.value, Nat.ofDigitChars_cons, Nat.ofDigitChars_append]

theorem toDigits_digit {c : Char} (h : c.isDigit = true) :
    c.toNat - '0'.toNat < 10 ∧ Nat.toDigits 10 (c.toNat - '0'.toNat) = [c] := by
  obtain ⟨hlow, hhigh⟩ : 48 ≤ c.toNat ∧ c.toNat ≤ 57 := Char.isDigit_iff_toNat.mp h
  have hlt : c.toNat - 48 < 10 := by omega
  have hchar : ∀ k < 10, Nat.digitChar k = Char.ofNat (48 + k) := by decide
  rw [show '0'.toNat = 48 from rfl, Nat.toDigits_of_lt_base hlt, hchar _ hlt,
    Nat.add_sub_cancel' hlow, Char.ofNat_toNat]
  exact ⟨hlt, rfl⟩

/-- The digits of a literal are those of its value. -/
theorem toDigits_value {s : List Char} (h : IsWhole s) : Nat.toDigits 10 (Literal.value s) = s := by
  rcases h with rfl | ⟨⟨hne, hdigits⟩, hhead⟩
  · decide
  · induction s using List.reverseRecOn with
    | nil => exact absurd rfl hne
    | append_singleton s c ih =>
      obtain ⟨hlt, hdigit⟩ := toDigits_digit (hdigits c (by simp))
      rw [Literal.value_concat]
      by_cases hs : s = []
      · subst hs
        simpa [Literal.value] using hdigit
      · rw [List.head?_append_of_ne_nil _ hs] at hhead
        have hrest := ih hhead hs fun c hc => hdigits c (List.mem_append_left _ hc)
        -- a value of zero would be written with a zero in front
        have hpos : 0 < Literal.value s := by
          refine Nat.pos_of_ne_zero fun hzero => hhead ?_
          rw [← hrest, hzero]
          rfl
        rw [← Nat.toDigits_append_toDigits (by decide) hpos hlt, hrest, hdigit]

end Json

/-! ### Places for limits -/

theorem ThrottleLimits.insert_insert (limits : ThrottleLimits) (preset : Preset)
    (limit limit' : Option UInt64) :
    (limits.insert preset limit).insert preset limit' = limits.insert preset limit' := by
  refine congrArg ThrottleLimits.mk (funext fun wanted => ?_)
  by_cases h : wanted = preset
  · simp [h]
  · simp [h, ThrottleLimits.insert]

/-- A limit in place of what stood there is the only change. -/
theorem ThrottleLimits.swap {depth : Nat} {preset : Preset} {t t' : Tree} {limit : UInt64}
    (h : IsLimit t' limit) :
    ThrottleLimits.shape.Swap ThrottleLimits.FieldGives depth preset.field t t' fun limits =>
      limits.insert preset (some limit) where
  own field hfield hname update hupdate := by
    obtain ⟨other, before, hother, -, rfl⟩ := hupdate
    obtain rfl := Preset.field_inj (hother.symm.trans hname)
    have hnull : t' ≠ .null := by
      obtain ⟨l, rfl, -⟩ := h
      exact nofun
    refine ⟨_, ⟨_, some limit, hname, .some hnull h, rfl⟩, fun limits => ?_⟩
    exact (insert_insert limits _ before (some limit)).symm
  other field hfield hname s update hupdate limits := by
    obtain ⟨other, before, hother, -, rfl⟩ := hupdate
    have hne : preset ≠ other := fun heq => hname (heq ▸ hother)
    exact insert_comm limits hne (some limit) before

namespace Intents

/-- What stands around the limit of a throttle in a document. -/
def LimitPlace (preset : Preset) (fill : Tree → Tree) : Prop :=
  ∃ outer inner, Place shape.fieldNames "throttle" outer ∧
    Place ThrottleLimits.shape.fieldNames preset.field inner ∧ ∀ t, fill t = outer (inner t)

/-- The intents with another limit for a throttle. -/
def withLimit (intents : Intents) (preset : Preset) (limit : UInt64) : Intents :=
  { intents with throttle := intents.throttle.insert preset (some limit) }

theorem swap {depth : Nat} {preset : Preset} {inner : Tree → Tree} {t t' : Tree} {limit : UInt64}
    (hplace : Place ThrottleLimits.shape.fieldNames preset.field inner) (h : IsLimit t' limit) :
    shape.Swap (fun field depth => FieldGives depth field.name) (depth + 1) "throttle" (inner t)
      (inner t') fun intents => intents.withLimit preset limit where
  own field hfield hname update hupdate := by
    rw [hname] at hupdate ⊢
    obtain ⟨limits, hlimits, rfl⟩ := hupdate.of_throttle
    have hswapped := Shape.Gives.swap hlimits hplace (by decide) (ThrottleLimits.swap h)
    exact ⟨_, .throttle hswapped, fun _ => rfl⟩
  other field hfield hname s update hupdate intents := by
    generalize field.name = name at hname hupdate
    cases hupdate with
    | throttle => exact absurd rfl hname
    | _ => rfl

/-- A limit can be put at the place of what stood there. -/
theorem Gives.withLimit {depth : Nat} {preset : Preset} {fill : Tree → Tree} {t t' : Tree}
    {intents : Intents} {limit : UInt64} (h : Gives (depth + 2) (fill t) intents)
    (hplace : LimitPlace preset fill) (hlimit : IsLimit t' limit) :
    Gives (depth + 2) (fill t') (intents.withLimit preset limit) := by
  obtain ⟨outer, inner, houter, hinner, hfill⟩ := hplace
  rw [hfill] at h ⊢
  exact Shape.Gives.swap h houter (by decide) (Intents.swap hinner hlimit)

/-- What stands at the place of a limit is `null` or a limit. -/
theorem Gives.limit {depth : Nat} {preset : Preset} {fill : Tree → Tree} {t : Tree}
    {intents : Intents} (h : Gives (depth + 2) (fill t) intents) (hplace : LimitPlace preset fill) :
    ∃ limit, Optionally (fun _ => IsLimit) depth t limit := by
  obtain ⟨outer, inner, houter, hinner, hfill⟩ := hplace
  rw [hfill] at h
  obtain ⟨limits, hlimits⟩ := h.throttle (houter.hasField _)
  obtain ⟨field, -, -, update, -, limit, -, hlimit, -⟩ :=
    Shape.Gives.holds hlimits hinner.mem (hinner.hasField t)
  exact ⟨limit, hlimit⟩

theorem LimitPlace.isWhole {preset : Preset} {fill : Tree → Tree} (hplace : LimitPlace preset fill)
    {l : Literal} {text : List Char} (ht : (fill (.number l)).IsText text) : IsWhole l.whole := by
  obtain ⟨outer, inner, houter, hinner, hfill⟩ := hplace
  obtain ⟨before, s, behind, -, hs, -⟩ := ht
  rw [hfill] at hs
  obtain ⟨s, hs⟩ := houter.written hs
  obtain ⟨s, hs⟩ := hinner.written hs
  exact isWhole_of_written hs

/-! ### Documents -/

theorem gives_of_ofJson {text : String} {t : Tree} {intents : Intents} (ht : t.IsText text.toList)
    (h : ofJson text = .ok intents) : Gives levels t intents := by
  rw [ofJson] at h
  split at h
  · next hread => exact Except.ok.inj h ▸ document_admits read_admits ht hread
  · cases h

theorem ofJson_withLimit {preset : Preset} {fill : Tree → Tree} (hplace : LimitPlace preset fill)
    {t t' : Tree} {limit : UInt64} {other text : String} {intents : Intents}
    (hother : (fill t).IsText other.toList) (h : ofJson other = .ok intents)
    (ht : (fill t').IsText text.toList) (hlimit : IsLimit t' limit) :
    ofJson text = .ok (intents.withLimit preset limit) := by
  have hgives : Gives levels (fill t') (intents.withLimit preset limit) :=
    (gives_of_ofJson hother h).withLimit hplace hlimit
  rw [ofJson, document_takes hgives.takes ht]

/-- Only literals of natural numbers are accepted at the place of a limit. -/
theorem isPlain_of_ofJson {preset : Preset} {fill : Tree → Tree} (hplace : LimitPlace preset fill)
    {l : Literal} {text : String} {intents : Intents} (ht : (fill (.number l)).IsText text.toList)
    (h : ofJson text = .ok intents) : l.IsPlain ∧ Literal.value l.whole < 2 ^ 64 := by
  obtain ⟨limit, hlimit⟩ := (gives_of_ofJson ht h).limit hplace
  cases hlimit with
  | @some _ n _ hlimit =>
    obtain ⟨_, ⟨⟩, hnumber⟩ := hlimit
    obtain ⟨hplain, hvalue⟩ := Literal.number?_eq_natural.mp hnumber
    exact ⟨hplain, hvalue ▸ n.toNat_lt⟩

/-- **What a literal at the place of a limit comes to.** If it is plain and its value has 64 bits,
then in a document that is otherwise valid, with anything else at this place, it gives the limit of
exactly this value, which has the same digits; nothing else changes, and every rendering of the
template that is built shows this limit. Any other literal makes the document faulty. -/
theorem ofJson_limit {preset : Preset} {fill : Tree → Tree} (hplace : LimitPlace preset fill)
    {l : Literal} {text : String} (ht : (fill (.number l)).IsText text.toList) :
    (l.IsPlain → Literal.value l.whole < 2 ^ 64 →
      ∀ (t : Tree) (other : String) (intents : Intents), (fill t).IsText other.toList →
        ofJson other = .ok intents →
        ∃ limit : UInt64, limit.toNat = Literal.value l.whole ∧
          Text.decimal limit.toNat = String.ofList l.whole ∧
          ofJson text = .ok (intents.withLimit preset limit) ∧
          ∀ template lines, (intents.withLimit preset limit).template.result = .ok template →
            ∃ v, (∀ w, Decodes (template.toJson lines).toList w ↔ w = v) ∧
              (intents.withLimit preset limit).Shows preset limit v) ∧
      (¬ (l.IsPlain ∧ Literal.value l.whole < 2 ^ 64) →
        ∃ fault, ofJson text = .error (.document fault)) := by
  constructor
  · intro hplain hsmall t other intents hother h
    have hvalue : (UInt64.ofNat (Literal.value l.whole)).toNat = Literal.value l.whole :=
      UInt64.toNat_ofNat_of_lt' hsmall
    have hlimit : IsLimit (.number l) (UInt64.ofNat (Literal.value l.whole)) :=
      ⟨l, rfl, Literal.number?_eq_natural.mpr ⟨hplain, hvalue.symm⟩⟩
    refine ⟨_, hvalue, ?_, ofJson_withLimit hplace hother h ht hlimit,
      fun template lines built => shows_of_template (if_pos rfl) built lines⟩
    rw [hvalue, Text.decimal, toDigits_value (hplace.isWhole ht)]
  · intro hnone
    cases hread : Reader.document read text with
    | error fault => exact ⟨fault, by rw [ofJson, hread]⟩
    | ok intents =>
      have h : ofJson text = .ok intents := by rw [ofJson, hread]
      exact absurd (isPlain_of_ofJson hplace ht h) hnone

/-- A document that has nothing but one limit. -/
def loneTree (t : Tree) : Tree :=
  .object [(utf16 "throttle", .object [(utf16 "anonymousUserIp", t)])]

theorem loneTree_isText {t : Tree} {s : List Char} {text : String} (h : t.Written s)
    (htext : text.toList = '{' :: '"' :: ("throttle".toList ++ '"' :: ':' :: '{' :: '"' ::
      ("anonymousUserIp".toList ++ '"' :: ':' :: (s ++ ['}', '}'])))) :
    (loneTree t).IsText text.toList := by
  refine ⟨[], _, [], blank_nil, .object (.member (.first blank_nil)
    (unitsWritten_plain (s := "throttle".toList) (by decide)) blank_nil blank_nil
    (.object (.member (.first blank_nil)
      (unitsWritten_plain (s := "anonymousUserIp".toList) (by decide)) blank_nil blank_nil h
      (.close blank_nil))) (.close blank_nil)), blank_nil, ?_⟩
  simp [htext]

theorem loneTree_place : LimitPlace ⟨.block, .absent, .ip⟩ loneTree :=
  ⟨fun t => .object ([] ++ (utf16 "throttle", t) :: []),
    fun t => .object ([] ++ (utf16 "anonymousUserIp", t) :: []), .member (by decide),
    .member (by decide), fun _ => rfl⟩

theorem loneTree_writtenAs : default.WrittenAs false (loneTree .null) := by
  refine ⟨_, rfl, .first ⟨3, by decide⟩ ⟨_, rfl, .first ⟨2, by decide⟩ .none (.close ?_)⟩
    (.close ?_)⟩
  · simp [ThrottleLimits.parts, Preset.all, Preset.ofQueue, default, ThrottleLimits.none]
  · simp [parts, default]

/-- The largest limit is shown as it is, and the next number is refused. -/
theorem ofJson_limit_largest :
    LimitPlace ⟨.block, .absent, .ip⟩ loneTree ∧
    (loneTree (.natural 18446744073709551615)).IsText
      "\x7b\"throttle\":\x7b\"anonymousUserIp\":18446744073709551615\x7d\x7d".toList ∧
    (loneTree (.natural 18446744073709551616)).IsText
      "\x7b\"throttle\":\x7b\"anonymousUserIp\":18446744073709551616\x7d\x7d".toList ∧
    ∃ intents template v,
      ofJson "\x7b\"throttle\":\x7b\"anonymousUserIp\":18446744073709551615\x7d\x7d" =
        .ok intents ∧
      intents.throttle.limit ⟨.block, .absent, .ip⟩ = some 18446744073709551615 ∧
      intents.template.result = .ok template ∧
      (∀ w, Decodes (template.toJson true).toList w ↔ w = v) ∧
      intents.Shows ⟨.block, .absent, .ip⟩ 18446744073709551615 v ∧
      ∃ fault,
        ofJson "\x7b\"throttle\":\x7b\"anonymousUserIp\":18446744073709551616\x7d\x7d" =
          .error (.document fault) := by
  have hnothing : (loneTree .null).IsText
      "\x7b\"throttle\":\x7b\"anonymousUserIp\":null\x7d\x7d".toList :=
    loneTree_isText .null (by decide)
  have hlargest : (loneTree (.natural 18446744073709551615)).IsText
      "\x7b\"throttle\":\x7b\"anonymousUserIp\":18446744073709551615\x7d\x7d".toList :=
    loneTree_isText (Document.natural_written _) (by decide +kernel)
  have hnext : (loneTree (.natural 18446744073709551616)).IsText
      "\x7b\"throttle\":\x7b\"anonymousUserIp\":18446744073709551616\x7d\x7d".toList :=
    loneTree_isText (Document.natural_written _) (by decide +kernel)
  have hvalue : ∀ n, Literal.value (Nat.toDigits 10 n) = n := fun n =>
    Nat.ofDigitChars_toDigits (by decide) (by decide)
  obtain ⟨limit, hlimit, -, hok, hshows⟩ := (ofJson_limit loneTree_place hlargest).1 ⟨rfl, rfl, rfl⟩
    (by rw [hvalue]; decide) _ _ _ hnothing (ofJson_of_writtenAs loneTree_writtenAs hnothing)
  obtain rfl : limit = 18446744073709551615 :=
    UInt64.toNat_inj.mp (hlimit.trans (hvalue 18446744073709551615))
  obtain ⟨v, hv, hshown⟩ := hshows _ true rfl
  refine ⟨loneTree_place, hlargest, hnext, _, _, v, hok, rfl, rfl, hv, hshown,
    (ofJson_limit loneTree_place hnext).2 ?_⟩
  rintro ⟨-, hsmall⟩
  rw [hvalue] at hsmall
  exact absurd hsmall (by decide)

end Intents

end WebAcl
