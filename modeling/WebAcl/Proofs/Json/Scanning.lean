import WebAcl.Proofs.Json.Grammar
import Mathlib.Data.List.TakeWhile
import Mathlib.Tactic.SplitIfs

/-! # Scanning what is written

The scans below the values of a document go exactly as far as the grammar says. A string is read to
its closing quote if its code units are those of a text (`textBody_written`), and a literal is read
to its last digit (`literal_written`). -/

namespace WebAcl.Json

/-! ### Blanks and words -/

theorem isSpace_of_blank {s : List Char} (h : Blank s) : ∀ c ∈ s, isSpace c = true := by
  intro c hc
  rcases h c hc with rfl | rfl | rfl | rfl <;> rfl

/-- Blanks are skipped up to the first character that is none. -/
theorem skipSpace_blank {blank s : List Char} {c : Char} (h : Blank blank)
    (hc : isSpace c = false) : skipSpace (blank ++ c :: s) = c :: s := by
  rw [skipSpace, List.dropWhile_append_of_pos (isSpace_of_blank h), List.dropWhile_cons_of_neg]
  simp [hc]

theorem skipSpace_eq_nil {s : List Char} (h : Blank s) : skipSpace s = [] :=
  List.dropWhile_eq_nil_iff.mpr (isSpace_of_blank h)

theorem word_append (letters rest : List Char) : word letters (letters ++ rest) = .ok rest := by
  induction letters with
  | nil => rfl
  | cons letter letters ih => simpa [word] using ih

/-! ### Code units -/

/-- The characters of code units, unless a half stands alone. -/
def joined? : List Nat → Option (List Char)
  | [] => some []
  | unit :: units =>
    if isLowHalf unit then none
    else if isHighHalf unit then
      match units with
      | [] => none
      | low :: units =>
        if isLowHalf low then (joined? units).map (joinHalves unit low :: ·) else none
    else (joined? units).map (Char.ofNat unit :: ·)

theorem isLowHalf_iff {n : Nat} : isLowHalf n = true ↔ 0xdc00 ≤ n ∧ n ≤ 0xdfff := by
  simp [isLowHalf]

theorem isHighHalf_iff {n : Nat} : isHighHalf n = true ↔ 0xd800 ≤ n ∧ n ≤ 0xdbff := by
  simp [isHighHalf]

/-- No character is half of a code point. -/
theorem not_half_toNat (c : Char) : c.toNat < 0xd800 ∨ 0xdfff < c.toNat ∧ c.toNat < 0x110000 :=
  c.valid

theorem toNat_ofNat {n : Nat} (h : n.isValidChar) : (Char.ofNat n).toNat = n := by
  rw [Char.ofNat, dif_pos h]
  rfl

theorem joinHalves_split {c : Char} (h : 0x10000 ≤ c.toNat) :
    joinHalves (0xd800 + (c.toNat - 0x10000) / 0x400) (0xdc00 + (c.toNat - 0x10000) % 0x400) =
      c := by
  have hsum : 0x10000 + (0xd800 + (c.toNat - 0x10000) / 0x400 - 0xd800) * 0x400 +
      (0xdc00 + (c.toNat - 0x10000) % 0x400 - 0xdc00) = c.toNat := by
    omega
  rw [joinHalves, hsum, Char.ofNat_toNat]

/-- The code units of a character are joined to that character. -/
theorem joined?_unitsOf (c : Char) (units : List Nat) :
    joined? (unitsOf c ++ units) = (joined? units).map (c :: ·) := by
  have hvalid := not_half_toNat c
  unfold unitsOf
  split_ifs with h
  · have hlow : isLowHalf c.toNat = false := by
      rw [← Bool.not_eq_true, isLowHalf_iff]
      omega
    have hhigh : isHighHalf c.toNat = false := by
      rw [← Bool.not_eq_true, isHighHalf_iff]
      omega
    rw [List.singleton_append, joined?.eq_def]
    simp [hlow, hhigh, Char.ofNat_toNat]
  · have hfirst : isLowHalf (0xd800 + (c.toNat - 0x10000) / 0x400) = false := by
      rw [← Bool.not_eq_true, isLowHalf_iff]
      omega
    have hhigh : isHighHalf (0xd800 + (c.toNat - 0x10000) / 0x400) = true := by
      rw [isHighHalf_iff]
      omega
    have hlow : isLowHalf (0xdc00 + (c.toNat - 0x10000) % 0x400) = true := by
      rw [isLowHalf_iff]
      omega
    rw [List.cons_append, List.singleton_append, joined?.eq_def]
    simp only [hfirst, hhigh, hlow, joinHalves_split (by omega : 0x10000 ≤ c.toNat), if_true]
    rfl

theorem joined?_utf16 (s : String) : joined? (utf16 s) = some s.toList := by
  unfold utf16
  induction s.toList with
  | nil => rfl
  | cons c s ih => rw [List.flatMap_cons, joined?_unitsOf, ih, Option.map_some]

theorem unitsOf_joinHalves {high low : Nat} (hhigh : isHighHalf high = true)
    (hlow : isLowHalf low = true) : unitsOf (joinHalves high low) = [high, low] := by
  rw [isHighHalf_iff] at hhigh
  rw [isLowHalf_iff] at hlow
  have hvalid : (0x10000 + (high - 0xd800) * 0x400 + (low - 0xdc00)).isValidChar :=
    Or.inr ⟨by omega, by omega⟩
  have htoNat : (joinHalves high low).toNat =
      0x10000 + (high - 0xd800) * 0x400 + (low - 0xdc00) := by
    rw [joinHalves, toNat_ofNat hvalid]
  have hsecond : 0xd800 + (0x10000 + (high - 0xd800) * 0x400 + (low - 0xdc00) - 0x10000) / 0x400 =
      high := by
    omega
  have hfirst : 0xdc00 + (0x10000 + (high - 0xd800) * 0x400 + (low - 0xdc00) - 0x10000) % 0x400 =
      low := by
    omega
  rw [unitsOf, htoNat, if_neg (by omega), hsecond, hfirst]

theorem unitsOf_ofNat {n : Nat} (hlow : isLowHalf n = false) (hhigh : isHighHalf n = false)
    (hn : n < 0x10000) : unitsOf (Char.ofNat n) = [n] := by
  rw [← Bool.not_eq_true, isLowHalf_iff] at hlow
  rw [← Bool.not_eq_true, isHighHalf_iff] at hhigh
  have hvalid : n.isValidChar := by
    unfold Nat.isValidChar
    omega
  rw [unitsOf, toNat_ofNat hvalid, if_pos hn]

/-- What is joined has the code units that it was joined from. -/
theorem flatMap_unitsOf_joined? : ∀ {units : List Nat} {s : List Char},
    (∀ unit ∈ units, unit < 0x10000) → joined? units = some s → s.flatMap unitsOf = units
  | [], s, _, h => by
    cases h
    rfl
  | unit :: units, s, hall, h => by
    rw [joined?.eq_def] at h
    simp only at h
    split_ifs at h with hlow hhigh
    · match units, h with
      | low :: units, h =>
        simp only at h
        split_ifs at h with hnext
        obtain ⟨t, ht, rfl⟩ := Option.map_eq_some_iff.mp h
        have ih := flatMap_unitsOf_joined? (fun unit hunit => hall unit (by simp [hunit])) ht
        rw [List.flatMap_cons, unitsOf_joinHalves hhigh hnext, ih]
        rfl
    · obtain ⟨t, ht, rfl⟩ := Option.map_eq_some_iff.mp h
      have ih := flatMap_unitsOf_joined? (fun unit hunit => hall unit (by simp [hunit])) ht
      rw [List.flatMap_cons, ih, unitsOf_ofNat (by simpa using hlow) (by simpa using hhigh)
        (hall unit List.mem_cons_self)]
      rfl

theorem eq_utf16_of_joined? {units : List Nat} {s : List Char}
    (hall : ∀ unit ∈ units, unit < 0x10000) (h : joined? units = some s) :
    units = utf16 (String.ofList s) := by
  rw [utf16, String.toList_ofList, flatMap_unitsOf_joined? hall h]

theorem utf16_inj {s t : String} : utf16 s = utf16 t ↔ s = t := by
  refine ⟨fun h => ?_, fun h => h ▸ rfl⟩
  have := congrArg joined? h
  rwa [joined?_utf16, joined?_utf16, Option.some_inj, String.toList_inj] at this

/-! ### Strings -/

theorem hexValue?_of_isHexDigit {n : Nat} {c : Char} (h : IsHexDigit n c) :
    hexValue? c = some n := by
  have hall : ∀ n < 16, hexValue? (Nat.digitChar n) = some n ∧
      hexValue? (Nat.digitChar n).toUpper = some n := by
    decide
  obtain ⟨hn, rfl | rfl⟩ := h
  · exact (hall n hn).1
  · exact (hall n hn).2

theorem shortEscape?_of_mem {letter c : Char} (h : (letter, c) ∈ shortEscapes) :
    shortEscape? letter = some c ∧ c.toNat < 0x80 := by
  have hall : ∀ p ∈ shortEscapes, shortEscape? p.1 = some p.2 ∧ p.2.toNat < 0x80 := by decide
  exact hall _ h

theorem fourHex_written {k l m n : Nat} {a b c d : Char} (ha : IsHexDigit k a)
    (hb : IsHexDigit l b) (hc : IsHexDigit m c) (hd : IsHexDigit n d) (s : List Char) :
    fourHex (a :: b :: c :: d :: s) = .ok (((k * 16 + l) * 16 + m) * 16 + n, s) := by
  simp only [fourHex, hexValue?_of_isHexDigit ha, hexValue?_of_isHexDigit hb,
    hexValue?_of_isHexDigit hc, hexValue?_of_isHexDigit hd]

theorem unit_lt_of_written {units : List Nat} {s : List Char} (h : UnitsWritten units s) :
    ∀ unit ∈ units, unit < 0x10000 := by
  induction h with
  | nil => nofun
  | @plain c units s _ _ _ _ ih =>
    intro unit hunit
    rcases List.mem_append.mp hunit with h | h
    · have := not_half_toNat c
      unfold unitsOf at h
      split_ifs at h <;> simp at h <;> omega
    · exact ih unit h
  | @short letter c units s hmem _ ih =>
    intro unit hunit
    rcases List.mem_cons.mp hunit with rfl | h
    · have := (shortEscape?_of_mem hmem).2
      omega
    · exact ih unit h
  | @hex k l m n a b c d units s ha hb hc hd _ ih =>
    intro unit hunit
    rcases List.mem_cons.mp hunit with rfl | h
    · have := ha.1
      have := hb.1
      have := hc.1
      have := hd.1
      omega
    · exact ih unit h

theorem unitsOf_of_lt {c : Char} (h : c.toNat < 0x80) : unitsOf c = [c.toNat] := by
  rw [unitsOf, if_pos (by omega)]

/-! One step of a scan between quotes. -/

theorem textFrom_quote (read s : List Char) :
    textFrom read ('"' :: s) = .ok (String.ofList read.reverse, s) := by
  rw [textFrom, if_pos rfl]

theorem textFrom_plain {c : Char} (read s : List Char) (hquote : c ≠ '"') (hslash : c ≠ '\\')
    (hcontrol : ' ' ≤ c) : textFrom read (c :: s) = textFrom (c :: read) s := by
  rw [textFrom, if_neg hquote, if_neg hslash, if_neg (Std.not_lt.mpr hcontrol)]

theorem textFrom_escape {s t : List Char} {c : Char} (read : List Char)
    (h : escape s = .ok (c, t)) : textFrom read ('\\' :: s) = textFrom (c :: read) t := by
  rw [textFrom, if_neg (by decide), if_pos rfl]
  split
  · next heq => cases h.symm.trans heq
  · next heq =>
    cases h.symm.trans heq
    rfl

theorem textFrom_escape_error {s : List Char} {fault : Fault} (read : List Char)
    (h : escape s = .error fault) : textFrom read ('\\' :: s) = .error fault := by
  rw [textFrom, if_neg (by decide), if_pos rfl]
  split
  · next heq =>
    cases h.symm.trans heq
    rfl
  · next heq => cases h.symm.trans heq

theorem escape_hex {k l m n : Nat} {a b c d : Char} (ha : IsHexDigit k a) (hb : IsHexDigit l b)
    (hc : IsHexDigit m c) (hd : IsHexDigit n d) (s : List Char) :
    escape ('u' :: a :: b :: c :: d :: s) =
      if isLowHalf (((k * 16 + l) * 16 + m) * 16 + n) then .error .loneSurrogate
      else if isHighHalf (((k * 16 + l) * 16 + m) * 16 + n) then
        lowHalf (((k * 16 + l) * 16 + m) * 16 + n) s
      else .ok (Char.ofNat (((k * 16 + l) * 16 + m) * 16 + n), s) := by
  have hshort : shortEscape? 'u' = none := rfl
  simp only [escape, hshort, if_true, codePoint, fourHex_written ha hb hc hd]

/-- A first half is completed exactly if the next code unit is a second half. -/
theorem lowHalf_written {units : List Nat} {s : List Char} (h : UnitsWritten units s)
    (high : Nat) (rest : List Char) :
    (∃ low units' s', units = low :: units' ∧ isLowHalf low = true ∧ UnitsWritten units' s' ∧
      s'.length < s.length ∧
      lowHalf high (s ++ '"' :: rest) = .ok (joinHalves high low, s' ++ '"' :: rest)) ∨
    ((∀ low units', units = low :: units' → isLowHalf low = false) ∧
      ∃ fault, lowHalf high (s ++ '"' :: rest) = .error fault) := by
  cases h with
  | nil => exact Or.inr ⟨nofun, .hexEscapeEnd, rfl⟩
  | @plain c units s hquote hslash hcontrol h =>
    refine Or.inr ⟨fun low units' heq => ?_, .hexEscapeEnd, ?_⟩
    · have hvalid := not_half_toNat c
      rw [← Bool.not_eq_true, isLowHalf_iff]
      unfold unitsOf at heq
      split_ifs at heq
      · obtain ⟨rfl, -⟩ := List.cons.inj heq
        omega
      · obtain ⟨rfl, -⟩ := List.cons.inj heq
        omega
    · rw [List.cons_append, lowHalf.eq_def]
      split
      · next heq => cases heq
      · next heq => exact absurd (List.cons.inj heq).1 hslash
      · next heq => exact absurd (List.cons.inj heq).1 hslash
      · rfl
  | @short letter c units s hmem h =>
    have hlt := (shortEscape?_of_mem hmem).2
    have hu : letter ≠ 'u' := by
      rintro rfl
      simp [shortEscapes] at hmem
    refine Or.inr ⟨fun low units' heq => ?_, .hexEscapeEnd, ?_⟩
    · obtain ⟨rfl, -⟩ := List.cons.inj heq
      rw [← Bool.not_eq_true, isLowHalf_iff]
      omega
    · rw [List.cons_append, List.cons_append, lowHalf.eq_def]
      split
      · next heq => cases heq
      · next heq => cases heq
      · next heq => exact absurd (List.cons.inj (List.cons.inj heq).2).1 hu
      · rfl
  | @hex k l m n a b c d units s ha hb hc hd h =>
    have hscan : lowHalf high (('\\' :: 'u' :: a :: b :: c :: d :: s) ++ '"' :: rest) =
        if isLowHalf (((k * 16 + l) * 16 + m) * 16 + n) then
          .ok (joinHalves high (((k * 16 + l) * 16 + m) * 16 + n), s ++ '"' :: rest)
        else .error .loneSurrogate := by
      simp only [List.cons_append, lowHalf, fourHex_written ha hb hc hd]
    rw [hscan]
    cases hlow : isLowHalf (((k * 16 + l) * 16 + m) * 16 + n) with
    | true =>
      refine Or.inl ⟨_, units, s, rfl, hlow, h, ?_, rfl⟩
      simp only [List.length_cons]
      omega
    | false =>
      refine Or.inr ⟨fun low units' heq => ?_, _, rfl⟩
      obtain ⟨rfl, -⟩ := List.cons.inj heq
      exact hlow

/-- Between quotes stands what the code units are joined to, and nothing is read if a half stands
alone. -/
theorem textFrom_written {units : List Nat} {s : List Char} (h : UnitsWritten units s)
    (read rest : List Char) : (textFrom read (s ++ '"' :: rest)).toOption =
      (joined? units).map fun t => (String.ofList (read.reverse ++ t), rest) := by
  cases h with
  | nil => simp [textFrom_quote, joined?, Except.toOption]
  | @plain c units s hquote hslash hcontrol h =>
    rw [List.cons_append, textFrom_plain _ _ hquote hslash hcontrol, textFrom_written h,
      joined?_unitsOf, Option.map_map]
    simp [Function.comp_def]
  | @short letter c units s hmem h =>
    obtain ⟨hshort, hlt⟩ := shortEscape?_of_mem hmem
    have hescape : escape (letter :: (s ++ '"' :: rest)) = .ok (c, s ++ '"' :: rest) := by
      simp only [escape, hshort]
    have hunits := joined?_unitsOf c units
    rw [unitsOf_of_lt hlt] at hunits
    rw [List.cons_append, List.cons_append, textFrom_escape _ hescape, textFrom_written h]
    rw [List.singleton_append] at hunits
    rw [hunits, Option.map_map]
    simp [Function.comp_def]
  | @hex k l m n a b c d units s ha hb hc hd h =>
    have hescape := escape_hex ha hb hc hd (s ++ '"' :: rest)
    generalize ((k * 16 + l) * 16 + m) * 16 + n = unit at hescape ⊢
    rw [joined?.eq_def]
    simp only [List.cons_append]
    split_ifs at hescape ⊢ with hlow hhigh
    · rw [textFrom_escape_error _ hescape]
      rfl
    · rcases lowHalf_written h unit rest with
        ⟨low, units', s', rfl, hsecond, h', hlt, hscan⟩ | ⟨hsecond, fault, hscan⟩
      · have hshorter : s'.length < s.length + 6 := by omega
        rw [textFrom_escape _ (hescape.trans hscan), textFrom_written h']
        simp [hsecond, Function.comp_def]
      · rw [textFrom_escape_error _ (hescape.trans hscan)]
        cases units with
        | nil => rfl
        | cons low units' => simp [hsecond low units' rfl, Except.toOption]
    · rw [textFrom_escape _ hescape, textFrom_written h, Option.map_map]
      simp [Function.comp_def]
termination_by s.length

theorem toOption_eq_some {ε α : Type} {x : Except ε α} {a : α} :
    x.toOption = some a ↔ x = .ok a := by
  cases x <;> simp [Except.toOption]

/-- **A text is read** however it is escaped. -/
theorem textBody_written {t : String} {s : List Char} (h : UnitsWritten (utf16 t) s)
    (rest : List Char) : textBody (s ++ '"' :: rest) = .ok (t, rest) := by
  rw [textBody, ← toOption_eq_some, textFrom_written h, joined?_utf16]
  simp

theorem of_textBody {units : List Nat} {s rest r : List Char} {t : String}
    (h : UnitsWritten units s) (hread : textBody (s ++ '"' :: rest) = .ok (t, r)) :
    units = utf16 t ∧ r = rest := by
  rw [textBody, ← toOption_eq_some, textFrom_written h, Option.map_eq_some_iff] at hread
  obtain ⟨joined, hjoined, heq⟩ := hread
  obtain ⟨rfl, rfl⟩ := Prod.mk.inj heq
  exact ⟨eq_utf16_of_joined? (unit_lt_of_written h) hjoined, rfl⟩

/-! ### Numbers -/

/-- What follows does not go on with a digit. -/
def NoDigit (rest : List Char) : Prop := ∀ c ∈ rest.head?, c.isDigit = false

theorem digits_append {ds rest : List Char} (hds : ∀ c ∈ ds, c.isDigit = true)
    (hrest : NoDigit rest) : digits (ds ++ rest) = (ds, rest) := by
  have hstop : rest.takeWhile Char.isDigit = [] ∧ rest.dropWhile Char.isDigit = rest := by
    cases rest with
    | nil => exact ⟨rfl, rfl⟩
    | cons c rest =>
      have hc : ¬ c.isDigit = true := by simp [hrest c rfl]
      exact ⟨List.takeWhile_cons_of_neg hc, List.dropWhile_cons_of_neg hc⟩
  rw [digits, List.takeWhile_append_of_pos hds, List.dropWhile_append_of_pos hds, hstop.1, hstop.2,
    List.append_nil]

theorem someDigits_written {ds rest : List Char} (hds : IsDigits ds) (hrest : NoDigit rest) :
    someDigits (ds ++ rest) = .ok (ds, rest) := by
  obtain ⟨hne, hall⟩ := hds
  obtain ⟨c, ds, rfl⟩ := List.exists_cons_of_ne_nil hne
  have hread := digits_append hall hrest
  rw [List.cons_append] at hread ⊢
  rw [someDigits, if_pos (hall c List.mem_cons_self), hread]

theorem wholePart_written {whole rest : List Char} (h : IsWhole whole) (hrest : NoDigit rest) :
    wholePart (whole ++ rest) = .ok (whole, rest) := by
  rcases h with rfl | ⟨hdigits, hzero⟩
  · match rest, hrest with
    | [], _ => rfl
    | c :: rest, hrest => simp [wholePart, hrest c rfl]
  · rw [← someDigits_written hdigits hrest, wholePart.eq_def]
    obtain ⟨c, ds, rfl⟩ := List.exists_cons_of_ne_nil hdigits.1
    split
    · next heq =>
      obtain ⟨rfl, -⟩ := List.cons.inj heq
      exact absurd rfl hzero
    · rfl

theorem fractionPart_written {fraction f rest : List Char} (h : FractionWritten fraction f)
    (hrest : NoDigit rest) (hpoint : ∀ c ∈ rest.head?, c ≠ '.') :
    fractionPart (f ++ rest) = .ok (fraction, rest) := by
  cases h with
  | none =>
    rw [List.nil_append, fractionPart.eq_def]
    split
    · exact absurd rfl (hpoint '.' rfl)
    · rfl
  | some hdigits => rw [List.cons_append, fractionPart, someDigits_written hdigits hrest]

theorem exponentPart_written {exponent : Option (Bool × List Char)} {e rest : List Char}
    (h : ExponentWritten exponent e) (hrest : NoDigit rest)
    (hmark : ∀ c ∈ rest.head?, ¬ (c = 'e' ∨ c = 'E')) :
    exponentPart (e ++ rest) = .ok (exponent, rest) := by
  cases h with
  | none =>
    match rest, hmark with
    | [], _ => rfl
    | c :: rest, hmark => rw [List.nil_append, exponentPart, if_neg (hmark c rfl)]
  | @unsigned mark digits hm hdigits =>
    have hsign : exponentSign (digits ++ rest) = (false, digits ++ rest) := by
      obtain ⟨c, ds, rfl⟩ := List.exists_cons_of_ne_nil hdigits.1
      have hc := hdigits.2 c List.mem_cons_self
      rw [List.cons_append, exponentSign.eq_def]
      split
      · next heq =>
        obtain ⟨rfl, -⟩ := List.cons.inj heq
        exact absurd hc (by decide)
      · next heq =>
        obtain ⟨rfl, -⟩ := List.cons.inj heq
        exact absurd hc (by decide)
      · rfl
    rw [List.cons_append, exponentPart, if_pos hm, hsign]
    simp only [someDigits_written hdigits hrest]
  | @plus mark digits hm hdigits =>
    rw [List.cons_append, List.cons_append, exponentPart, if_pos hm, exponentSign]
    simp only [someDigits_written hdigits hrest]
  | @minus mark digits hm hdigits =>
    rw [List.cons_append, List.cons_append, exponentPart, if_pos hm, exponentSign]
    simp only [someDigits_written hdigits hrest]

theorem not_digit_of_ends {rest : List Char} (h : Ends rest) : ∀ c ∈ rest.head?,
    c.isDigit = false ∧ c ≠ '.' ∧ ¬ (c = 'e' ∨ c = 'E') := by
  intro c hc
  rcases h c hc with rfl | rfl | rfl | rfl | rfl | rfl | rfl <;> decide

theorem not_digit_exponent {exponent : Option (Bool × List Char)} {e rest : List Char}
    (h : ExponentWritten exponent e) (hrest : Ends rest) :
    ∀ c ∈ (e ++ rest).head?, c.isDigit = false ∧ c ≠ '.' := by
  intro c hc
  cases h with
  | none => exact ⟨(not_digit_of_ends hrest c hc).1, (not_digit_of_ends hrest c hc).2.1⟩
  | unsigned hm _ | plus hm _ | minus hm _ =>
    cases hc
    rcases hm with rfl | rfl <;> decide

theorem not_digit_fraction {exponent : Option (Bool × List Char)} {fraction f e rest : List Char}
    (hf : FractionWritten fraction f) (he : ExponentWritten exponent e) (hrest : Ends rest) :
    NoDigit (f ++ (e ++ rest)) := by
  intro c hc
  cases hf with
  | none => exact (not_digit_exponent he hrest c hc).1
  | some _ =>
    cases hc
    decide

/-- A digit or a sign stands first. -/
theorem beginsNumber_written {l : Literal} {s : List Char} (h : LiteralWritten l s) :
    ∃ c s', s = c :: s' ∧ beginsNumber c = true := by
  cases h with
  | @parts isNegative whole fraction exponent f e hwhole _ _ =>
    cases isNegative with
    | true => exact ⟨'-', _, rfl, rfl⟩
    | false =>
      rcases hwhole with rfl | ⟨⟨hne, hall⟩, -⟩
      · exact ⟨'0', _, rfl, rfl⟩
      · obtain ⟨c, ds, rfl⟩ := List.exists_cons_of_ne_nil hne
        exact ⟨c, _, rfl, by simp [beginsNumber, hall c List.mem_cons_self]⟩

/-- **A literal is read** to its last digit. -/
theorem literal_written {l : Literal} {s rest : List Char} (h : LiteralWritten l s)
    (hrest : Ends rest) : literal (s ++ rest) = .ok (l, rest) := by
  cases h with
  | @parts isNegative whole fraction exponent f e hwhole hf he =>
    have hunsigned : unsignedLiteral isNegative (whole ++ (f ++ (e ++ rest))) =
        .ok (⟨isNegative, whole, fraction, exponent⟩, rest) := by
      have hpoint := not_digit_exponent he hrest
      have hmark := not_digit_of_ends hrest
      simp only [unsignedLiteral, wholePart_written hwhole (not_digit_fraction hf he hrest),
        fractionPart_written hf (fun c hc => (hpoint c hc).1) (fun c hc => (hpoint c hc).2),
        exponentPart_written he (fun c hc => (hmark c hc).1) (fun c hc => (hmark c hc).2.2)]
    cases isNegative with
    | true => simpa [literal] using hunsigned
    | false =>
      have hminus : ∀ s, whole ++ (f ++ (e ++ rest)) ≠ '-' :: s := by
        intro s heq
        rcases hwhole with rfl | ⟨⟨hne, hall⟩, -⟩
        · cases heq
        · obtain ⟨c, ds, rfl⟩ := List.exists_cons_of_ne_nil hne
          obtain ⟨rfl, -⟩ := List.cons.inj heq
          exact absurd (hall '-' List.mem_cons_self) (by decide)
      simp only [Bool.false_eq_true, if_false, List.nil_append, List.append_assoc]
      rw [literal.eq_def]
      split
      · next heq => exact absurd heq (hminus _)
      · exact hunsigned

/-! ### What stands at the ends of a value -/

/-- A value does not begin with a blank, a comma or a closing bracket. -/
theorem head_written {t : Tree} {s : List Char} (h : t.Written s) :
    ∃ c s', s = c :: s' ∧ isSpace c = false ∧ c ≠ ',' ∧ c ≠ ']' ∧ c ≠ '}' := by
  cases h with
  | number h =>
    obtain ⟨c, s', rfl, hc⟩ := beginsNumber_written h
    refine ⟨c, s', rfl, ?_, ?_⟩
    · by_contra hspace
      rw [Bool.not_eq_false] at hspace
      simp only [isSpace, Bool.or_eq_true, decide_eq_true_eq] at hspace
      rcases hspace with ((rfl | rfl) | rfl) | rfl <;> exact absurd hc (by decide)
    · refine ⟨?_, ?_, ?_⟩ <;>
      · rintro rfl
        exact absurd hc (by decide)
  | _ => exact ⟨_, _, rfl, by decide⟩

theorem ends_blank_append {blank r : List Char} {c : Char} (h : Blank blank)
    (hc : c = ',' ∨ c = ']' ∨ c = '}') : Ends (blank ++ c :: r) := by
  intro d hd
  cases blank with
  | nil =>
    cases hd
    rcases hc with rfl | rfl | rfl <;> simp
  | cons b blank =>
    cases hd
    rcases h d List.mem_cons_self with h | h | h | h <;> simp [h]

theorem ends_items {items : List Tree} {s : List Char} (h : ItemsWritten false items s)
    (rest : List Char) : Ends (s ++ rest) := by
  cases h with
  | close h =>
    rw [List.append_assoc]
    exact ends_blank_append h (by simp)
  | item hlead _ _ =>
    cases hlead with
    | next h _ =>
      rw [List.append_assoc, List.append_assoc]
      exact ends_blank_append h (by simp)

theorem ends_members {members : List (List Nat × Tree)} {s : List Char}
    (h : MembersWritten false members s) (rest : List Char) : Ends (s ++ rest) := by
  cases h with
  | close h =>
    rw [List.append_assoc]
    exact ends_blank_append h (by simp)
  | member hlead _ _ _ _ _ =>
    cases hlead with
    | next h _ =>
      rw [List.append_assoc, List.append_assoc]
      exact ends_blank_append h (by simp)

end WebAcl.Json
