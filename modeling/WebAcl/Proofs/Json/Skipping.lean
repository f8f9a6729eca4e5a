import WebAcl.Proofs.Json.Scanning

/-! # Passing over what is written

The value of a field that nobody asked for is passed over to its end, whatever it is and however
deeply it is nested (`skipValue_written`). The rounds of the scan are counted by the characters that
remain, so the statements say that enough of them are left behind a value. -/

namespace WebAcl.Json

theorem skipText_written {units : List Nat} {s : List Char} (h : UnitsWritten units s)
    (rest : List Char) : skipText (s ++ '"' :: rest) = .ok rest := by
  induction h with
  | nil =>
    rw [List.nil_append, skipText.eq_def]
    simp only [if_true]
  | plain hquote hslash hcontrol _ ih =>
    rw [List.cons_append, skipText.eq_def]
    simp only [hquote, hslash, Std.not_lt.mpr hcontrol, if_false, ih]
  | short hmem _ ih =>
    rw [List.cons_append, List.cons_append, skipText.eq_def]
    simp only [Char.reduceEq, if_false, if_true, (shortEscape?_of_mem hmem).1, Option.isSome_some, ih]
  | @hex k l m n a b c d units s ha hb hc hd _ ih =>
    have hfour := fourHex_written ha hb hc hd (s ++ '"' :: rest)
    simp only [List.cons_append]
    rw [skipText.eq_def]
    simp only [Char.reduceEq, if_false, if_true, show shortEscape? 'u' = none from rfl,
      Option.isSome_none, Bool.false_eq_true]
    split
    · next heq => cases hfour.symm.trans heq
    · next heq =>
      cases hfour.symm.trans heq
      exact ih

/-- A value that is neither a list nor an object is passed over in one round. -/
theorem skipInside_scalar {blank s r : List Char} {c x : Char} {rounds : List Char}
    {frames : List Frame} (hblank : Blank blank) (hspace : isSpace c = false) (hlist : c ≠ '[')
    (hobject : c ≠ '{') (h : skipScalar (c :: s) = .ok r) :
    skipInside (x :: rounds) frames (blank ++ c :: s) = skipBehind rounds frames r := by
  rw [skipInside, skipSpace_blank hblank hspace]
  split
  · next heq => cases heq
  · next heq => exact absurd (List.cons.inj heq).1 hlist
  · next heq => exact absurd (List.cons.inj heq).1 hobject
  · rw [h]

theorem skipScalar_number {l : Literal} {s rest : List Char} (h : LiteralWritten l s)
    (hrest : Ends rest) : skipScalar (s ++ rest) = .ok rest := by
  have hread := literal_written h hrest
  obtain ⟨c, s', rfl, hc⟩ := beginsNumber_written h
  rw [List.cons_append] at hread ⊢
  rw [skipScalar.eq_def]
  split
  · next heq =>
    obtain ⟨rfl, -⟩ := List.cons.inj heq
    exact absurd hc (by decide)
  · next heq =>
    obtain ⟨rfl, -⟩ := List.cons.inj heq
    exact absurd hc (by decide)
  · next heq =>
    obtain ⟨rfl, -⟩ := List.cons.inj heq
    exact absurd hc (by decide)
  · next heq =>
    obtain ⟨rfl, -⟩ := List.cons.inj heq
    exact absurd hc (by decide)
  · next heq =>
    obtain ⟨rfl, rfl⟩ := List.cons.inj heq
    rw [if_pos hc, hread]
  · next heq => cases heq

/-- A key is passed over with the colon behind it. -/
theorem skipKey_written {units : List Nat} {lead k before s : List Char} (hlead : Blank lead)
    (hk : UnitsWritten units k) (hbefore : Blank before) :
    skipKey (lead ++ '"' :: (k ++ '"' :: (before ++ ':' :: s))) = .ok s := by
  simp only [skipKey, skipSpace_blank hlead (by decide : isSpace '"' = false), skipText_written hk,
    skipSpace_blank hbefore (by decide : isSpace ':' = false)]

theorem skipScalar_written {t : Tree} {s rest : List Char} (h : t.Written s)
    (hscalar : t.levels = 0) (hrest : Ends rest) : ∃ c s', s ++ rest = c :: s' ∧
      isSpace c = false ∧ c ≠ '[' ∧ c ≠ '{' ∧ skipScalar (c :: s') = .ok rest := by
  cases h with
  | null => exact ⟨_, _, rfl, by decide, by decide, by decide, rfl⟩
  | true => exact ⟨_, _, rfl, by decide, by decide, by decide, rfl⟩
  | false => exact ⟨_, _, rfl, by decide, by decide, by decide, rfl⟩
  | number h =>
    have hskip := skipScalar_number h hrest
    obtain ⟨c, s', heq, hspace, -⟩ := head_written (.number h)
    obtain ⟨d, s'', heq', hd⟩ := beginsNumber_written h
    obtain ⟨rfl, rfl⟩ := List.cons.inj (heq.symm.trans heq')
    subst heq
    refine ⟨c, s' ++ rest, rfl, hspace, ?_, ?_, hskip⟩ <;>
    · rintro rfl
      exact absurd hd (by decide)
  | @text units s h =>
    refine ⟨'"', s ++ '"' :: rest, by simp, by decide, by decide, by decide, ?_⟩
    rw [skipScalar, skipText_written h]
  | list => cases hscalar
  | object => cases hscalar

/-- Behind a value that is neither a list nor an object the next round goes on. -/
theorem skipInside_of_scalar {t : Tree} {s blank rest rounds : List Char} {frames : List Frame}
    (h : t.Written s) (hscalar : t.levels = 0) (hblank : Blank blank) (hrest : Ends rest)
    (hlong : (blank ++ (s ++ rest)).length ≤ rounds.length) :
    ∃ rounds' : List Char, rest.length ≤ rounds'.length ∧
      skipInside rounds frames (blank ++ (s ++ rest)) = skipBehind rounds' frames rest := by
  obtain ⟨c, s', heq, hspace, hlist, hobject, hskip⟩ := skipScalar_written h hscalar hrest
  obtain ⟨d, s'', rfl, -⟩ := head_written h
  rw [heq] at hlong ⊢
  have hlength := congrArg List.length heq
  simp only [List.length_append, List.length_cons] at hlong hlength
  obtain ⟨x, rounds, rfl⟩ := List.exists_cons_of_length_pos (l := rounds) (by omega)
  rw [List.length_cons] at hlong
  exact ⟨rounds, by omega, skipInside_scalar hblank hspace hlist hobject hskip⟩

mutual

/-- **A value is passed over** to its end, and what is around it is left to be closed. There are
enough rounds as long as there is one for each character that remains. -/
theorem skipInside_written : ∀ {t : Tree} {s : List Char}, t.Written s →
    ∀ {blank rest rounds : List Char} (frames : List Frame), Blank blank → Ends rest →
      (blank ++ (s ++ rest)).length ≤ rounds.length →
      ∃ rounds' : List Char, rest.length ≤ rounds'.length ∧
        skipInside rounds frames (blank ++ (s ++ rest)) = skipBehind rounds' frames rest
  | .null, _, h, _, _, _, _, hblank, hrest, hlong =>
    skipInside_of_scalar h rfl hblank hrest hlong
  | .boolean _, _, h, _, _, _, _, hblank, hrest, hlong =>
    skipInside_of_scalar h rfl hblank hrest hlong
  | .number _, _, h, _, _, _, _, hblank, hrest, hlong =>
    skipInside_of_scalar h rfl hblank hrest hlong
  | .text _, _, h, _, _, _, _, hblank, hrest, hlong =>
    skipInside_of_scalar h rfl hblank hrest hlong
  | .list items, _, .list h, blank, rest, rounds, frames, hblank, _, hlong => by
    simp only [List.length_append, List.length_cons] at hlong
    obtain ⟨x, rounds, rfl⟩ := List.exists_cons_of_length_pos (l := rounds) (by omega)
    match items, h with
    | [], .close (w := inner) hinner =>
      refine ⟨rounds, by simp at hlong; omega, ?_⟩
      simp only [List.append_assoc, List.cons_append, List.nil_append]
      rw [skipInside, skipSpace_blank hblank (by decide)]
      simp only [skipSpace_blank hinner (by decide : isSpace ']' = false)]
    | item :: items, .item (s := s) (r := r) (.first (w := inner) hinner) hs hr =>
      obtain ⟨c, s', rfl, hspace, -, hbracket, -⟩ := head_written hs
      have hstep : skipInside (x :: rounds) frames
          (blank ++ ('[' :: (inner ++ (c :: s' ++ r)) ++ rest)) =
            skipInside rounds (.list :: frames) ([] ++ (c :: s' ++ (r ++ rest))) := by
        simp only [List.append_assoc, List.cons_append, List.nil_append]
        rw [skipInside, skipSpace_blank hblank (by decide)]
        simp only [skipSpace_blank hinner hspace]
        split
        · next heq => cases heq
        · next heq => exact absurd (List.cons.inj heq).1 hbracket
        · rfl
      have hlong' : ([] ++ (c :: s' ++ (r ++ rest))).length ≤ rounds.length := by
        simp only [List.length_append, List.length_cons, List.nil_append] at hlong ⊢
        omega
      obtain ⟨rounds₁, hlong₁, hinside⟩ :=
        skipInside_written hs (.list :: frames) blank_nil (ends_items hr rest) hlong'
      obtain ⟨rounds₂, hlong₂, hbehind⟩ := skipBehind_items hr frames hlong₁
      exact ⟨rounds₂, hlong₂, hstep.trans (hinside.trans hbehind)⟩
  | .object members, _, .object h, blank, rest, rounds, frames, hblank, _, hlong => by
    simp only [List.length_append, List.length_cons] at hlong
    obtain ⟨x, rounds, rfl⟩ := List.exists_cons_of_length_pos (l := rounds) (by omega)
    match members, h with
    | [], .close (w := inner) hinner =>
      refine ⟨rounds, by simp at hlong; omega, ?_⟩
      simp only [List.append_assoc, List.cons_append, List.nil_append]
      rw [skipInside, skipSpace_blank hblank (by decide)]
      simp only [skipSpace_blank hinner (by decide : isSpace '}' = false)]
    | (key, value) :: members, .member (k := k) (v := before) (w := inner) (s := s)
        (r := r) (.first (w := first) hfirst) hk hbefore hinner hs hr =>
      have hstep : skipInside (x :: rounds) frames (blank ++ ('{' :: (first ++ '"' ::
          (k ++ '"' :: (before ++ ':' :: (inner ++ (s ++ r))))) ++ rest)) =
            skipInside rounds (.object :: frames) (inner ++ (s ++ (r ++ rest))) := by
        have hkey := skipKey_written (s := inner ++ (s ++ (r ++ rest))) blank_nil hk hbefore
        rw [List.nil_append] at hkey
        simp only [List.append_assoc, List.cons_append]
        rw [skipInside, skipSpace_blank hblank (by decide)]
        simp only [skipSpace_blank hfirst (by decide : isSpace '"' = false)]
        split
        · next heq => cases heq
        · next heq => cases heq
        · rw [hkey]
      have hlong' : (inner ++ (s ++ (r ++ rest))).length ≤ rounds.length := by
        simp only [List.length_append, List.length_cons] at hlong ⊢
        omega
      obtain ⟨rounds₁, hlong₁, hinside⟩ :=
        skipInside_written hs (.object :: frames) hinner (ends_members hr rest) hlong'
      obtain ⟨rounds₂, hlong₂, hbehind⟩ := skipBehind_members hr frames hlong₁
      exact ⟨rounds₂, hlong₂, hstep.trans (hinside.trans hbehind)⟩

theorem skipBehind_items : ∀ {items : List Tree} {s : List Char}, ItemsWritten false items s →
    ∀ {rest rounds : List Char} (frames : List Frame), (s ++ rest).length ≤ rounds.length →
      ∃ rounds' : List Char, rest.length ≤ rounds'.length ∧
        skipBehind rounds (.list :: frames) (s ++ rest) = skipBehind rounds' frames rest
  | [], _, .close (w := blank) hblank, rest, rounds, frames, hlong => by
    simp only [List.length_append, List.length_cons] at hlong
    obtain ⟨x, rounds, rfl⟩ := List.exists_cons_of_length_pos (l := rounds) (by omega)
    refine ⟨rounds, by simp at hlong; omega, ?_⟩
    rw [List.append_assoc, List.cons_append, List.nil_append, skipBehind,
      skipSpace_blank hblank (by decide)]
    rfl
  | item :: items, _, .item (s := s) (r := r) (.next (v := before) (w := blank) hbefore
      hblank) hs hr, rest, rounds, frames, hlong => by
    simp only [List.length_append, List.length_cons] at hlong
    obtain ⟨x, rounds, rfl⟩ := List.exists_cons_of_length_pos (l := rounds) (by omega)
    have hstep : skipBehind (x :: rounds) (.list :: frames)
        (before ++ ',' :: blank ++ (s ++ r) ++ rest) =
          skipInside rounds (.list :: frames) (blank ++ (s ++ (r ++ rest))) := by
      simp only [List.append_assoc, List.cons_append]
      rw [skipBehind, skipSpace_blank hbefore (by decide)]
      rfl
    have hlong' : (blank ++ (s ++ (r ++ rest))).length ≤ rounds.length := by
      simp only [List.length_append, List.length_cons] at hlong ⊢
      omega
    obtain ⟨rounds₁, hlong₁, hinside⟩ := skipInside_written hs (.list :: frames) hblank (ends_items hr rest) hlong'
    obtain ⟨rounds₂, hlong₂, hbehind⟩ := skipBehind_items hr frames hlong₁
    exact ⟨rounds₂, hlong₂, hstep.trans (hinside.trans hbehind)⟩

theorem skipBehind_members : ∀ {members : List (List Nat × Tree)} {s : List Char},
    MembersWritten false members s →
    ∀ {rest rounds : List Char} (frames : List Frame), (s ++ rest).length ≤ rounds.length →
      ∃ rounds' : List Char, rest.length ≤ rounds'.length ∧
        skipBehind rounds (.object :: frames) (s ++ rest) = skipBehind rounds' frames rest
  | [], _, .close (w := blank) hblank, rest, rounds, frames, hlong => by
    simp only [List.length_append, List.length_cons] at hlong
    obtain ⟨x, rounds, rfl⟩ := List.exists_cons_of_length_pos (l := rounds) (by omega)
    refine ⟨rounds, by simp at hlong; omega, ?_⟩
    rw [List.append_assoc, List.cons_append, List.nil_append, skipBehind,
      skipSpace_blank hblank (by decide)]
    rfl
  | (key, value) :: members, _, .member (k := k) (v := before) (w := inner) (s := s)
      (r := r) (.next (v := first) (w := second) hfirst hsecond) hk hbefore hinner hs hr,
      rest, rounds, frames, hlong => by
    simp only [List.length_append, List.length_cons] at hlong
    obtain ⟨x, rounds, rfl⟩ := List.exists_cons_of_length_pos (l := rounds) (by omega)
    have hstep : skipBehind (x :: rounds) (.object :: frames) (first ++ ',' :: second ++ '"' ::
        (k ++ '"' :: (before ++ ':' :: (inner ++ (s ++ r)))) ++ rest) =
          skipInside rounds (.object :: frames) (inner ++ (s ++ (r ++ rest))) := by
      have hkey := skipKey_written (s := inner ++ (s ++ (r ++ rest))) hsecond hk hbefore
      simp only [List.append_assoc, List.cons_append]
      rw [skipBehind, skipSpace_blank hfirst (by decide)]
      simp only [Frame.closing, Char.reduceEq, if_false, if_true, hkey]
    have hlong' : (inner ++ (s ++ (r ++ rest))).length ≤ rounds.length := by
      simp only [List.length_append, List.length_cons] at hlong ⊢
      omega
    obtain ⟨rounds₁, hlong₁, hinside⟩ :=
      skipInside_written hs (.object :: frames) hinner (ends_members hr rest) hlong'
    obtain ⟨rounds₂, hlong₂, hbehind⟩ := skipBehind_members hr frames hlong₁
    exact ⟨rounds₂, hlong₂, hstep.trans (hinside.trans hbehind)⟩

end

/-- A value that nobody asked for is passed over, whatever it is. -/
theorem skipValue_written {t : Tree} {blank s rest : List Char} (hblank : Blank blank)
    (hs : t.Written s) (hrest : Ends rest) :
    skipValue (blank ++ (s ++ rest)) = .ok rest := by
  obtain ⟨rounds, -, h⟩ := skipInside_written hs [] hblank hrest le_rfl
  rw [skipValue, h, skipBehind]

end WebAcl.Json
