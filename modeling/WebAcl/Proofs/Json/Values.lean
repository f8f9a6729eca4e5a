import WebAcl.Proofs.Json.Reading

/-! # Values of any shape

Where a reader takes whatever there is, it takes every tree for the value of the tree, up to the
number of levels that it may enter. This reader settles what a text stands for: at most one value.

* `Value.read_takes`: a value is read off its tree.
* `Value.read_consistent`: what is read depends on the tree alone.
* `Decodes.unique`: a text stands for one value at most. -/

namespace WebAcl.Json

namespace Value

open Reader

/-- The reader of values within a number of levels, whatever it is told. -/
def within (depth : Nat) : Reader Value := fun _ => readWithin depth

theorem walk_values {reader : Reader Value} {depth : Nat} :
    ∀ {members : List (List Nat × Tree)} {values read : List (String × Value)},
      members.map (·.1) = values.map (utf16 ·.1) →
      List.Forall₂ (reader.Takes depth) (members.map (·.2)) (values.map (·.2)) →
      Walk (Passes (member reader) depth) read members (values.reverse ++ read)
  | [], [], _, _, _ => .nil
  | (units, t) :: members, (key, value) :: values, read, hkeys, .cons hvalue hvalues => by
    obtain ⟨rfl, hothers⟩ := List.cons.inj hkeys
    rw [List.reverse_cons, List.append_assoc]
    exact .cons ⟨_, rfl, hvalue.bind rfl⟩ (walk_values hothers hvalues)

theorem itemLevels_le {depth : Nat} : ∀ {items : List Tree}, itemLevels items ≤ depth →
    ∀ item ∈ items, item.levels ≤ depth
  | item :: items, h, other, hmem => by
    rw [itemLevels] at h
    rcases List.mem_cons.mp hmem with rfl | hmem
    · omega
    · exact itemLevels_le (by omega) other hmem

theorem memberLevels_le {depth : Nat} : ∀ {members : List (List Nat × Tree)},
    memberLevels members ≤ depth → ∀ t ∈ members.map (·.2), t.levels ≤ depth
  | (_, value) :: members, h, t, hmem => by
    rw [memberLevels] at h
    rcases List.mem_cons.mp hmem with rfl | hmem
    · omega
    · exact memberLevels_le (by omega) t hmem

theorem forall₂_takes {reader : Reader Value} {depth : Nat} {items : List Tree}
    {values : List Value} (h : List.Forall₂ Tree.Denotes items values)
    (htakes : ∀ t ∈ items, ∀ value, t.Denotes value → reader.Takes depth t value) :
    List.Forall₂ (reader.Takes depth) items values := by
  induction h with
  | nil => exact .nil
  | cons hitem _ ih =>
    exact .cons (htakes _ List.mem_cons_self _ hitem)
      (ih fun t ht => htakes t (List.mem_cons_of_mem _ ht))

/-- Scalars are read as their values. -/
theorem scalar_takes {depth : Nat} {t : Tree} {value : Value} (h : t.Denotes value)
    (hlevels : t.levels = 0) {given : Nat} : (within depth).Takes given t value := by
  intro blank s rest hblank hs hrest
  rw [within, readWithin.eq_def]
  cases h with
  | null =>
    cases hs with
    | null =>
      have hread := word_append ['u', 'l', 'l'] rest
      simp (disch := decide) only [List.cons_append, List.nil_append, skipSpace_blank hblank]
        at hread ⊢
      rw [hread]
      rfl
  | boolean =>
    cases hs with
    | true =>
      have hread := word_append ['r', 'u', 'e'] rest
      simp (disch := decide) only [List.cons_append, List.nil_append, skipSpace_blank hblank]
        at hread ⊢
      rw [hread]
      rfl
    | false =>
      have hread := word_append ['a', 'l', 's', 'e'] rest
      simp (disch := decide) only [List.cons_append, List.nil_append, skipSpace_blank hblank]
        at hread ⊢
      rw [hread]
      rfl
  | number hn =>
    cases hs with
    | number hl =>
      have hread := number_written hl hrest
      obtain ⟨c, s, rfl, hspace, -⟩ := head_written (.number hl)
      have hc := beginsNumber_of_written hl
      rw [List.cons_append] at hread ⊢
      simp only [skipSpace_blank hblank hspace]
      split
      · next heq => cases heq
      iterate 6
        · next heq =>
          obtain ⟨rfl, -⟩ := List.cons.inj heq
          exact absurd hc (by decide)
      · next heq =>
        obtain ⟨rfl, rfl⟩ := List.cons.inj heq
        rw [if_pos hc, hread, hn]
        rfl
  | text =>
    cases hs with
    | @text _ k hk =>
      have hread := textBody_written hk rest
      simp (disch := decide) only [List.cons_append, List.append_assoc, List.nil_append,
        skipSpace_blank hblank, hread]
      rfl
  | list => cases hlevels
  | object => cases hlevels

theorem within_takes_list {depth : Nat} {items : List Tree} {values : List Value}
    (h : List.Forall₂ ((within depth).Takes depth) items values) {given : Nat} :
    (within (depth + 1)).Takes given (.list items) (.list values) := by
  intro blank s rest hblank hs hrest
  cases hs with
  | @list _ s hs =>
    have hlong := length_items hs
    have hread : elementsFrom (within depth) depth (s ++ rest) true [] (s ++ rest) =
        .ok (values, rest) :=
      elementsFrom_takes h hs (by simp only [List.length_append]; omega)
    rw [within, readWithin.eq_def]
    simp (disch := decide) only [List.cons_append, skipSpace_blank hblank, elements]
    rw [show (fun _ => readWithin depth) = within depth from rfl, hread]
    rfl

theorem within_takes_object {depth : Nat} {members : List (List Nat × Tree)}
    {read : List (String × Value)}
    (h : Walk (Passes (member (within depth)) depth) [] members read) {given : Nat} :
    (within (depth + 1)).Takes given (.object members) (.object read.reverse) := by
  intro blank s rest hblank hs hrest
  cases hs with
  | @object _ s hs =>
    have hlong := length_members hs
    have hread : membersFrom (member (within depth)) depth (s ++ rest) true [] (s ++ rest) =
        .ok (read, rest) :=
      membersFrom_takes h hs (by simp only [List.length_append]; omega)
    rw [within, readWithin.eq_def]
    simp (disch := decide) only [List.cons_append, skipSpace_blank hblank, Reader.members]
    rw [show (fun _ => readWithin depth) = within depth from rfl, hread]
    rfl

/-- **A tree is read as its value** if it has no more levels than may be entered. -/
theorem within_takes {depth : Nat} {t : Tree} {value : Value} (h : t.Denotes value)
    (hlevels : t.levels ≤ depth) {given : Nat} : (within depth).Takes given t value := by
  induction depth generalizing t value given with
  | zero => exact scalar_takes h (by omega)
  | succ depth ih =>
    cases h with
    | list h =>
      exact within_takes_list (forall₂_takes h fun t ht value hvalue =>
        ih hvalue (itemLevels_le (Nat.le_of_succ_le_succ hlevels) t ht))
    | @object members values hkeys h =>
      have hvalues : List.Forall₂ ((within depth).Takes depth) (members.map (·.2))
          (values.map (·.2)) :=
        forall₂_takes h fun t ht value hvalue =>
          ih hvalue (memberLevels_le (Nat.le_of_succ_le_succ hlevels) t ht)
      have hread : (within (depth + 1)).Takes given (.object members)
          (.object (values.reverse ++ []).reverse) := within_takes_object (walk_values hkeys hvalues)
      simpa using hread
    | _ => exact scalar_takes (by constructor <;> assumption) rfl

theorem eq_of_map_ok {α β : Type} {x : Except Fault (α × List Char)} {f : α → β} {b : β}
    {r : List Char} (h : (x.map fun (a, s) => (f a, s)) = .ok (b, r)) :
    ∃ a, x = .ok (a, r) ∧ f a = b := by
  cases x with
  | error _ => cases h
  | ok p =>
    obtain ⟨a, s⟩ := p
    cases h
    exact ⟨a, rfl, rfl⟩

/-- What holds one level further down holds here. -/
theorem within_consistent_step {depth : Nat}
    (h : ∀ inner, depth = inner + 1 → (within inner).Consistent) : (within depth).Consistent := by
  intro given t blank s rest r a hblank hs hrest hread
  obtain ⟨c, s, rfl, hspace, -⟩ := head_written hs
  rw [within, List.cons_append, readWithin.eq_def, skipSpace_blank hblank hspace] at hread
  split at hread
  · next heq => cases heq
  · next heq =>
    obtain ⟨rfl, rfl⟩ := List.cons.inj heq
    obtain ⟨units, k, rfl, rfl, hk⟩ := written_quote hs
    rw [List.append_assoc] at hread
    obtain ⟨text, htext, rfl⟩ := eq_of_map_ok hread
    obtain ⟨rfl, hrest⟩ := of_textBody hk htext
    exact ⟨hrest, scalar_takes .text rfl⟩
  · next heq =>
    obtain ⟨rfl, rfl⟩ := List.cons.inj heq
    obtain ⟨rfl, rfl⟩ := written_n hs
    obtain ⟨rfl, rfl⟩ := Prod.mk.inj (eq_of_map_word hread)
    exact ⟨rfl, scalar_takes .null rfl⟩
  · next heq =>
    obtain ⟨rfl, rfl⟩ := List.cons.inj heq
    obtain ⟨rfl, rfl⟩ := written_t hs
    obtain ⟨rfl, rfl⟩ := Prod.mk.inj (eq_of_map_word hread)
    exact ⟨rfl, scalar_takes .boolean rfl⟩
  · next heq =>
    obtain ⟨rfl, rfl⟩ := List.cons.inj heq
    obtain ⟨rfl, rfl⟩ := written_f hs
    obtain ⟨rfl, rfl⟩ := Prod.mk.inj (eq_of_map_word hread)
    exact ⟨rfl, scalar_takes .boolean rfl⟩
  · next heq =>
    obtain ⟨rfl, rfl⟩ := List.cons.inj heq
    obtain ⟨items, rfl, hitems⟩ := written_list hs
    split at hread
    · cases hread
    · next depth =>
      obtain ⟨values, hvalues, rfl⟩ := eq_of_map_ok hread
      obtain ⟨hrest, values, rfl, htakes⟩ := elementsFrom_admits (h depth rfl) hitems hvalues
      exact ⟨hrest, within_takes_list htakes⟩
  · next heq =>
    obtain ⟨rfl, rfl⟩ := List.cons.inj heq
    obtain ⟨members, rfl, hmembers⟩ := written_object hs
    split at hread
    · cases hread
    · next depth =>
      obtain ⟨read, hmembers', rfl⟩ :=
        eq_of_map_ok (f := fun read => object (List.reverse read)) hread
      have hmember : ∀ read key, ConsistentMember (member (within depth) read key) :=
        fun read key => Or.inr ⟨_, rfl, (h depth rfl).bind fun value => Or.inl ⟨_, rfl⟩⟩
      obtain ⟨hrest, hwalk⟩ :=
        membersFrom_admits (fun read key => (hmember read key).admits) hmembers hmembers'
      exact ⟨hrest, within_takes_object hwalk⟩
  · next heq =>
    obtain ⟨rfl, rfl⟩ := List.cons.inj heq
    split at hread
    · next hc =>
      obtain ⟨l, rfl, hl⟩ := written_number hs hc
      obtain ⟨n, hn, rfl⟩ := eq_of_map_ok hread
      rw [← List.cons_append, number_written hl hrest] at hn
      split at hn
      · next hnumber =>
        cases hn
        exact ⟨rfl, scalar_takes (.number hnumber) rfl⟩
      · cases hn
    · cases hread

theorem within_consistent {depth : Nat} : (within depth).Consistent := by
  induction depth with
  | zero => exact within_consistent_step nofun
  | succ depth ih => exact within_consistent_step fun inner h => Nat.succ.inj h ▸ ih

theorem read_consistent : Value.read.Consistent :=
  fun depth _ _ _ _ _ _ hblank hs hrest hread =>
    @within_consistent depth depth _ _ _ _ _ _ hblank hs hrest hread

theorem read_takes {depth : Nat} {t : Tree} {value : Value} (h : t.Denotes value)
    (hlevels : t.levels ≤ depth) : Value.read.Takes depth t value :=
  @within_takes depth t value h hlevels depth

end Value

/-- **A text stands for one value** at most, since one reader takes every tree it may be. -/
theorem Decodes.unique {text : List Char} {v v' : Value} (h : Decodes text v)
    (h' : Decodes text v') : v = v' := by
  obtain ⟨t, ⟨before, s, behind, hbefore, hs, hbehind, rfl⟩, hv⟩ := h
  obtain ⟨t', ⟨before', s', behind', hbefore', hs', hbehind', htext⟩, hv'⟩ := h'
  have hread := Value.read_takes hv (le_max_left t.levels t'.levels) hbefore hs
    (ends_of_blank hbehind)
  have hread' := Value.read_takes hv' (le_max_right t.levels t'.levels) hbefore' hs'
    (ends_of_blank hbehind')
  rw [htext, hread'] at hread
  exact (Prod.mk.inj (Except.ok.inj hread)).1.symm

end WebAcl.Json
