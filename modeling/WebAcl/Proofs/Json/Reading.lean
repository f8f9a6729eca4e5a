import WebAcl.Proofs.Json.Skipping

/-! # Reading what is written

What a reader does with a tree, however the tree is written: it takes the tree for a value
(`Reader.Takes`), or it may accept only certain trees for a value (`Reader.Admits`). In both cases it
stops behind the tree. Of each reader it is said what it takes and what it admits; for lists and
objects this is what one step keeps, and by induction what their sequence of items or members comes
to. What a reader accepts in one way of writing it takes in all of them (`Reader.Consistent`), so the
value that is read depends on the tree alone. -/

namespace WebAcl.Json

variable {α β σ : Type}

/-! ### The first character of a tree -/

theorem beginsNumber_of_written {l : Literal} {c : Char} {s : List Char}
    (h : LiteralWritten l (c :: s)) : beginsNumber c = true := by
  obtain ⟨d, s', heq, hd⟩ := beginsNumber_written h
  obtain ⟨rfl, -⟩ := List.cons.inj heq
  exact hd

theorem written_quote {t : Tree} {s : List Char} (h : t.Written ('"' :: s)) :
    ∃ units k, t = .text units ∧ s = k ++ ['"'] ∧ UnitsWritten units k := by
  cases h with
  | number h => exact absurd (beginsNumber_of_written h) (by decide)
  | text h => exact ⟨_, _, rfl, rfl, h⟩

theorem written_n {t : Tree} {s : List Char} (h : t.Written ('n' :: s)) :
    t = .null ∧ s = ['u', 'l', 'l'] := by
  cases h with
  | number h => exact absurd (beginsNumber_of_written h) (by decide)
  | null => exact ⟨rfl, rfl⟩

theorem written_t {t : Tree} {s : List Char} (h : t.Written ('t' :: s)) :
    t = .boolean true ∧ s = ['r', 'u', 'e'] := by
  cases h with
  | number h => exact absurd (beginsNumber_of_written h) (by decide)
  | true => exact ⟨rfl, rfl⟩

theorem written_f {t : Tree} {s : List Char} (h : t.Written ('f' :: s)) :
    t = .boolean false ∧ s = ['a', 'l', 's', 'e'] := by
  cases h with
  | number h => exact absurd (beginsNumber_of_written h) (by decide)
  | false => exact ⟨rfl, rfl⟩

theorem written_list {t : Tree} {s : List Char} (h : t.Written ('[' :: s)) :
    ∃ items, t = .list items ∧ ItemsWritten true items s := by
  cases h with
  | number h => exact absurd (beginsNumber_of_written h) (by decide)
  | list h => exact ⟨_, rfl, h⟩

theorem written_object {t : Tree} {s : List Char} (h : t.Written ('{' :: s)) :
    ∃ members, t = .object members ∧ MembersWritten true members s := by
  cases h with
  | number h => exact absurd (beginsNumber_of_written h) (by decide)
  | object h => exact ⟨_, rfl, h⟩

theorem written_number {t : Tree} {c : Char} {s : List Char} (h : t.Written (c :: s))
    (hc : beginsNumber c = true) : ∃ l, t = .number l ∧ LiteralWritten l (c :: s) := by
  cases h with
  | number h => exact ⟨_, rfl, h⟩
  | _ => exact absurd hc (by decide)

namespace Reader

/-- However a tree is written, the reader takes it for `a` and stops behind it. -/
def Takes (reader : Reader α) (depth : Nat) (t : Tree) (a : α) : Prop :=
  ∀ ⦃blank s rest : List Char⦄, Blank blank → t.Written s → Ends rest →
    reader depth (blank ++ (s ++ rest)) = .ok (a, rest)

/-- Of what is written the reader accepts only trees of a kind for a value, and it stops behind
them. -/
def Admits (reader : Reader α) (kind : Nat → Tree → α → Prop) : Prop :=
  ∀ ⦃depth : Nat⦄ ⦃t : Tree⦄ ⦃blank s rest r : List Char⦄ ⦃a : α⦄, Blank blank → t.Written s →
    Ends rest → reader depth (blank ++ (s ++ rest)) = .ok (a, r) → r = rest ∧ kind depth t a

/-- What the reader accepts once it takes however it is written. -/
abbrev Consistent (reader : Reader α) : Prop := reader.Admits reader.Takes

theorem Admits.imp {reader : Reader α} {kind kind' : Nat → Tree → α → Prop}
    (h : reader.Admits kind) (himp : ∀ depth t a, kind depth t a → kind' depth t a) :
    reader.Admits kind' := by
  intro depth t blank s rest r a hblank hs hrest hread
  exact (h hblank hs hrest hread).imp_right (himp depth t a)

theorem bind_apply (reader : Reader α) (next : α → Reader β) (depth : Nat) (s : List Char) :
    (reader >>= next) depth s =
      match reader depth s with
      | .ok (a, s) => next a depth s
      | .error fault => .error fault := rfl

theorem pure_apply (a : α) (depth : Nat) (s : List Char) :
    (pure a : Reader α) depth s = .ok (a, s) := rfl

theorem pure_inj {a b : α} (h : (pure a : Reader α) = pure b) : a = b :=
  (Prod.mk.inj (Except.ok.inj (congrFun (congrFun h 0) []))).1

theorem Takes.bind {reader : Reader α} {next : α → Reader β} {depth : Nat} {t : Tree} {a : α}
    {b : β} (h : reader.Takes depth t a) (hnext : next a = pure b) :
    (reader >>= next).Takes depth t b := by
  intro blank s rest hblank hs hrest
  rw [bind_apply, h hblank hs hrest]
  exact congrFun (congrFun hnext depth) rest

theorem Admits.bind {reader : Reader α} {next : α → Reader β} {kind : Nat → Tree → α → Prop}
    (h : reader.Admits kind)
    (hnext : ∀ a, (∃ b, next a = pure b) ∨ ∃ fault, next a = fail fault) :
    (reader >>= next).Admits fun depth t b => ∃ a, kind depth t a ∧ next a = pure b := by
  intro depth t blank s rest r b hblank hs hrest hread
  rw [bind_apply] at hread
  split at hread
  · next a r' heq =>
    rcases hnext a with ⟨b', hb⟩ | ⟨fault, hfault⟩
    · cases (congrFun (congrFun hb depth) r').symm.trans hread
      obtain ⟨hrest, hkind⟩ := h hblank hs hrest heq
      exact ⟨hrest, a, hkind, hb⟩
    · cases (congrFun (congrFun hfault depth) r').symm.trans hread
  · cases hread

theorem Consistent.bind {reader : Reader α} {next : α → Reader β} (h : reader.Consistent)
    (hnext : ∀ a, (∃ b, next a = pure b) ∨ ∃ fault, next a = fail fault) :
    (reader >>= next).Consistent := by
  refine (Admits.bind h hnext).imp ?_
  rintro depth t b ⟨a, ha, hb⟩
  exact ha.bind hb

/-! ### Scalars -/

theorem string_takes {text : String} {depth : Nat} :
    string.Takes depth (.text (utf16 text)) text := by
  intro blank s rest hblank hs hrest
  cases hs with
  | @text _ k hk =>
    have hread := textBody_written hk rest
    simp (disch := decide) only [string, List.cons_append, List.append_assoc, List.nil_append,
      skipSpace_blank hblank, hread]

theorem string_consistent : string.Consistent := by
  intro depth t blank s rest r a hblank hs hrest h
  obtain ⟨c, s, rfl, hspace, -⟩ := head_written hs
  rw [List.cons_append, string, skipSpace_blank hblank hspace] at h
  split at h
  · cases h
  · next heq =>
    obtain ⟨rfl, rfl⟩ := List.cons.inj heq
    obtain ⟨units, k, rfl, rfl, hk⟩ := written_quote hs
    rw [List.append_assoc] at h
    obtain ⟨rfl, rfl⟩ := of_textBody hk h
    exact ⟨rfl, string_takes⟩
  · cases h

theorem boolean_takes {b : Bool} {depth : Nat} : boolean.Takes depth (.boolean b) b := by
  intro blank s rest hblank hs hrest
  cases hs with
  | true =>
    have hread := word_append ['r', 'u', 'e'] rest
    simp (disch := decide) only [boolean, List.cons_append, List.nil_append,
      skipSpace_blank hblank] at hread ⊢
    rw [hread]
    rfl
  | false =>
    have hread := word_append ['a', 'l', 's', 'e'] rest
    simp (disch := decide) only [boolean, List.cons_append, List.nil_append,
      skipSpace_blank hblank] at hread ⊢
    rw [hread]
    rfl

theorem eq_of_map_word {letters rest r : List Char} {f : List Char → α × List Char} {a : α}
    (h : (word letters (letters ++ rest)).map f = .ok (a, r)) : f rest = (a, r) := by
  rw [word_append] at h
  exact Except.ok.inj h

theorem boolean_consistent : boolean.Consistent := by
  intro depth t blank s rest r a hblank hs hrest h
  obtain ⟨c, s, rfl, hspace, -⟩ := head_written hs
  rw [List.cons_append, boolean, skipSpace_blank hblank hspace] at h
  split at h
  · cases h
  · next heq =>
    obtain ⟨rfl, rfl⟩ := List.cons.inj heq
    obtain ⟨rfl, rfl⟩ := written_t hs
    obtain ⟨rfl, rfl⟩ := Prod.mk.inj (eq_of_map_word h)
    exact ⟨rfl, boolean_takes⟩
  · next heq =>
    obtain ⟨rfl, rfl⟩ := List.cons.inj heq
    obtain ⟨rfl, rfl⟩ := written_f hs
    obtain ⟨rfl, rfl⟩ := Prod.mk.inj (eq_of_map_word h)
    exact ⟨rfl, boolean_takes⟩
  · cases h

theorem unit_takes {depth : Nat} : unit.Takes depth .null () := by
  intro blank s rest hblank hs hrest
  cases hs with
  | null =>
    have hread := word_append ['u', 'l', 'l'] rest
    simp (disch := decide) only [unit, List.cons_append, List.nil_append,
      skipSpace_blank hblank] at hread ⊢
    rw [hread]
    rfl

theorem unit_admits : unit.Admits fun _ t _ => t = .null := by
  intro depth t blank s rest r a hblank hs hrest h
  obtain ⟨c, s, rfl, hspace, -⟩ := head_written hs
  rw [List.cons_append, unit, skipSpace_blank hblank hspace] at h
  split at h
  · cases h
  · next heq =>
    obtain ⟨rfl, rfl⟩ := List.cons.inj heq
    obtain ⟨rfl, rfl⟩ := written_n hs
    exact ⟨(Prod.mk.inj (eq_of_map_word h)).2.symm, rfl⟩
  · cases h

theorem number_written {l : Literal} {s rest : List Char} (h : LiteralWritten l s)
    (hrest : Ends rest) : number (s ++ rest) =
      match l.number? with
      | some n => .ok (n, rest)
      | none => .error .numberOutOfRange := by
  cases hn : l.number? <;> simp only [number, literal_written h hrest, hn]

theorem limit_takes {l : Literal} {n : UInt64} (hn : l.number? = some (.natural n)) {depth : Nat} :
    limit.Takes depth (.number l) n := by
  intro blank s rest hblank hs hrest
  cases hs with
  | number hl =>
    have hread := number_written hl hrest
    obtain ⟨c, s, rfl, hspace, -⟩ := head_written (.number hl)
    rw [List.cons_append] at hread ⊢
    rw [limit, skipSpace_blank hblank hspace]
    simp only [beginsNumber_of_written hl, if_true, hread, hn]

/-- A limit is read off the literals of natural numbers below `2 ^ 64` only. -/
theorem limit_admits :
    limit.Admits fun _ t n => ∃ l : Literal, t = .number l ∧ l.number? = some (.natural n) := by
  intro depth t blank s rest r a hblank hs hrest h
  obtain ⟨c, s, rfl, hspace, -⟩ := head_written hs
  rw [List.cons_append, limit, skipSpace_blank hblank hspace] at h
  simp only at h
  split at h
  · next hc =>
    obtain ⟨l, rfl, hl⟩ := written_number hs hc
    have hread := number_written hl hrest
    rw [List.cons_append] at hread
    rw [hread] at h
    cases hn : l.number? with
    | none =>
      rw [hn] at h
      cases h
    | some n =>
      rw [hn] at h
      cases n with
      | natural n =>
        cases h
        exact ⟨rfl, l, rfl, hn⟩
      | negative n => cases h
      | floating isNegative magnitude => cases h
  · cases h

theorem ignored_takes {depth : Nat} (t : Tree) : ignored.Takes depth t () := by
  intro blank s rest hblank hs hrest
  rw [ignored, skipValue_written hblank hs hrest]
  rfl

theorem ignored_consistent : ignored.Consistent := by
  intro depth t blank s rest r a hblank hs hrest h
  rw [ignored_takes t hblank hs hrest] at h
  cases h
  exact ⟨rfl, ignored_takes t⟩

theorem optional_takes_none {reader : Reader α} {depth : Nat} :
    reader.optional.Takes depth .null none := by
  intro blank s rest hblank hs hrest
  cases hs with
  | null =>
    have hread := word_append ['u', 'l', 'l'] rest
    simp (disch := decide) only [optional, List.cons_append, List.nil_append,
      skipSpace_blank hblank] at hread ⊢
    rw [hread]
    rfl

theorem optional_takes_some {reader : Reader α} {depth : Nat} {t : Tree} {a : α}
    (h : reader.Takes depth t a) (hnull : t ≠ .null) : reader.optional.Takes depth t (some a) := by
  intro blank s rest hblank hs hrest
  have hread := h blank_nil hs hrest
  obtain ⟨c, s, rfl, hspace, -⟩ := head_written hs
  rw [List.nil_append] at hread
  rw [List.cons_append] at hread ⊢
  rw [optional, skipSpace_blank hblank hspace]
  split
  · next heq =>
    obtain ⟨rfl, -⟩ := List.cons.inj heq
    exact absurd (written_n hs).1 hnull
  · rw [hread]
    rfl

/-- What is accepted where nothing may stand. -/
inductive Optionally (kind : Nat → Tree → α → Prop) (depth : Nat) : Tree → Option α → Prop
  | none : Optionally kind depth .null none
  | some {t : Tree} {a : α} : t ≠ .null → kind depth t a → Optionally kind depth t (some a)

theorem optional_admits {reader : Reader α} {kind : Nat → Tree → α → Prop}
    (h : reader.Admits kind) : reader.optional.Admits (Optionally kind) := by
  intro depth t blank s rest r a hblank hs hrest hread
  obtain ⟨c, s, rfl, hspace, -⟩ := head_written hs
  rw [List.cons_append, optional, skipSpace_blank hblank hspace] at hread
  split at hread
  · next heq =>
    obtain ⟨rfl, rfl⟩ := List.cons.inj heq
    obtain ⟨rfl, rfl⟩ := written_n hs
    obtain ⟨rfl, rfl⟩ := Prod.mk.inj (eq_of_map_word hread)
    exact ⟨rfl, .none⟩
  · next hnull =>
    cases hinner : reader depth (c :: (s ++ rest)) with
    | error fault =>
      rw [hinner] at hread
      cases hread
    | ok p =>
      rw [hinner] at hread
      cases hread
      obtain ⟨rfl, hkind⟩ := h blank_nil hs hrest hinner
      refine ⟨rfl, .some ?_ hkind⟩
      rintro rfl
      cases hs with
      | null => exact hnull _ rfl

theorem Optionally.takes {reader : Reader α} {kind : Nat → Tree → α → Prop} {depth : Nat}
    {t : Tree} {a? : Option α} (h : Optionally kind depth t a?)
    (htakes : ∀ a, kind depth t a → reader.Takes depth t a) : reader.optional.Takes depth t a? := by
  cases h with
  | none => exact optional_takes_none
  | some hnull hkind => exact optional_takes_some (htakes _ hkind) hnull

theorem optional_consistent {reader : Reader α} (h : reader.Consistent) :
    reader.optional.Consistent :=
  (optional_admits h).imp fun _ _ _ hkind => hkind.takes fun _ => id

/-! ### Lists -/

theorem nextElement_close {isFirst : Bool} {depth : Nat} {blank : List Char} (h : Blank blank)
    (rest : List Char) :
    nextElement isFirst depth (blank ++ ([']'] ++ rest)) = .ok (false, ']' :: rest) := by
  rw [List.cons_append, nextElement, skipSpace_blank h (by decide)]
  rfl

theorem nextElement_item {isFirst : Bool} {depth : Nat} {t : Tree} {lead s : List Char}
    (hlead : Lead isFirst lead) (hs : t.Written s) (rest : List Char) :
    nextElement isFirst depth (lead ++ (s ++ rest)) = .ok (true, s ++ rest) := by
  obtain ⟨c, s, rfl, hspace, -, hbracket, -⟩ := head_written hs
  cases hlead with
  | first hblank =>
    rw [List.cons_append, nextElement, skipSpace_blank hblank hspace]
    simp only [if_neg hbracket, if_true]
  | next hbefore hblank =>
    rw [List.append_assoc, List.cons_append, nextElement, skipSpace_blank hbefore (by decide)]
    simp only [Char.reduceEq, if_false, if_true, Bool.false_eq_true, List.cons_append,
      skipSpace_blank hblank hspace]
    split
    · next heq => cases heq
    · next heq => exact absurd (List.cons.inj heq).1 hbracket
    · rfl

/-- There are more characters than items. -/
theorem length_items : ∀ {items : List Tree} {isFirst : Bool} {s : List Char},
    ItemsWritten isFirst items s → items.length < s.length
  | [], _, _, .close _ => by simp
  | _ :: _, _, _, .item _ hs hr => by
    obtain ⟨c, s, rfl, -⟩ := head_written hs
    have ih := length_items hr
    simp only [List.length_cons, List.length_append]
    omega

theorem elementsFrom_takes {reader : Reader α} {depth : Nat} {items : List Tree} {as : List α}
    (h : List.Forall₂ (reader.Takes depth) items as) :
    ∀ {isFirst : Bool} {s rest rounds : List Char} {read : List α}, ItemsWritten isFirst items s →
      items.length < rounds.length →
      elementsFrom reader depth rounds isFirst read (s ++ rest) =
        .ok (read.reverse ++ as, rest) := by
  induction h with
  | nil =>
    intro isFirst s rest rounds read hs hlong
    obtain ⟨x, rounds, rfl⟩ := List.exists_cons_of_length_pos (l := rounds) (by omega)
    cases hs with
    | close hblank =>
      rw [List.append_assoc, elementsFrom, nextElement_close hblank]
      simp
  | @cons t a items as hitem _ ih =>
    intro isFirst s rest rounds read hs hlong
    obtain ⟨x, rounds, rfl⟩ := List.exists_cons_of_length_pos (l := rounds) (by omega)
    cases hs with
    | item hlead hs hr =>
      have hread := hitem blank_nil hs (ends_items hr rest)
      rw [List.nil_append] at hread
      rw [List.append_assoc, List.append_assoc, elementsFrom, nextElement_item hlead hs]
      simp only [hread]
      rw [ih hr (by simpa using hlong)]
      simp

theorem elementsFrom_admits {reader : Reader α} {kind : Nat → Tree → α → Prop}
    (h : reader.Admits kind) {depth : Nat} :
    ∀ {items : List Tree} {isFirst : Bool} {s rest r rounds : List Char} {read as : List α},
      ItemsWritten isFirst items s →
      elementsFrom reader depth rounds isFirst read (s ++ rest) = .ok (as, r) →
      r = rest ∧ ∃ values, as = read.reverse ++ values ∧ List.Forall₂ (kind depth) items values
  | _, _, _, _, _, [], _, _, _, hread => by cases hread
  | [], _, _, _, _, _ :: _, _, _, .close hblank, hread => by
    rw [List.append_assoc, elementsFrom, nextElement_close hblank] at hread
    cases hread
    exact ⟨rfl, [], (List.append_nil _).symm, .nil⟩
  | _ :: _, _, _, rest, _, _ :: _, _, _, .item hlead hs hr, hread => by
    rw [List.append_assoc, List.append_assoc, elementsFrom, nextElement_item hlead hs] at hread
    simp only at hread
    split at hread
    · cases hread
    · next a r' heq =>
      obtain ⟨rfl, hkind⟩ := h blank_nil hs (ends_items hr rest) heq
      obtain ⟨hrest, values, rfl, hkinds⟩ := elementsFrom_admits h hr hread
      exact ⟨hrest, a :: values, by simp, .cons hkind hkinds⟩

theorem list_takes {reader : Reader α} {depth : Nat} {items : List Tree} {as : List α}
    (h : List.Forall₂ (reader.Takes depth) items as) :
    (list reader).Takes (depth + 1) (.list items) as := by
  intro blank s rest hblank hs hrest
  cases hs with
  | list hs =>
    have hlong := length_items hs
    rw [List.cons_append, list, skipSpace_blank hblank (by decide)]
    simp only [nested, elements]
    rw [elementsFrom_takes h hs (by simp only [List.length_append]; omega)]
    rfl

theorem list_consistent {reader : Reader α} (h : reader.Consistent) :
    (list reader).Consistent := by
  intro depth t blank s rest r a hblank hs hrest hread
  obtain ⟨c, s, rfl, hspace, -⟩ := head_written hs
  rw [List.cons_append, list, skipSpace_blank hblank hspace] at hread
  split at hread
  · cases hread
  · next heq =>
    obtain ⟨rfl, rfl⟩ := List.cons.inj heq
    obtain ⟨items, rfl, hitems⟩ := written_list hs
    cases depth with
    | zero => cases hread
    | succ depth =>
      obtain ⟨hrest, values, rfl, htakes⟩ := elementsFrom_admits h hitems hread
      exact ⟨hrest, list_takes htakes⟩
  · cases hread

/-! ### Objects -/

theorem nextKey_close {isFirst : Bool} {depth : Nat} {blank : List Char} (h : Blank blank)
    (rest : List Char) : nextKey isFirst depth (blank ++ (['}'] ++ rest)) = .ok (none, rest) := by
  rw [List.cons_append, nextKey, skipSpace_blank h (by decide)]
  rfl

theorem nextKey_member {isFirst : Bool} {depth : Nat} {lead : List Char} (hlead : Lead isFirst lead)
    (s : List Char) : nextKey isFirst depth (lead ++ '"' :: s) =
      (textBody s).map fun (key, s) => (some key, s) := by
  cases hlead with
  | first hblank =>
    rw [nextKey, skipSpace_blank hblank (by decide)]
    rfl
  | next hbefore hblank =>
    rw [List.append_assoc, List.cons_append, nextKey, skipSpace_blank hbefore (by decide)]
    simp (disch := decide) only [Char.reduceEq, if_false, if_true, Bool.false_eq_true,
      skipSpace_blank hblank]

theorem colon_blank {depth : Nat} {blank : List Char} (h : Blank blank) (s : List Char) :
    colon depth (blank ++ ':' :: s) = .ok ((), s) := by
  rw [colon, skipSpace_blank h (by decide)]
  rfl

theorem length_members : ∀ {members : List (List Nat × Tree)} {isFirst : Bool} {s : List Char},
    MembersWritten isFirst members s → members.length < s.length
  | [], _, _, .close _ => by simp
  | _ :: _, _, _, .member _ _ _ _ _ hr => by
    have ih := length_members hr
    simp only [List.length_cons, List.length_append]
    omega

/-- Members gone through one after the other, from `a` to `b`. -/
inductive Walk (step : σ → String → Tree → σ → Prop) : σ → List (List Nat × Tree) → σ → Prop
  | nil {a : σ} : Walk step a [] a
  | cons {a b c : σ} {key : String} {t : Tree} {members : List (List Nat × Tree)} :
      step a key t b → Walk step b members c → Walk step a ((utf16 key, t) :: members) c

theorem Walk.imp {step step' : σ → String → Tree → σ → Prop} {a b : σ}
    {members : List (List Nat × Tree)} (h : Walk step a members b)
    (himp : ∀ a key t b, step a key t b → step' a key t b) : Walk step' a members b := by
  induction h with
  | nil => exact .nil
  | cons hstep _ ih => exact .cons (himp _ _ _ _ hstep) ih

theorem Walk.step_of_mem {step : σ → String → Tree → σ → Prop} {a b : σ}
    {members : List (List Nat × Tree)} (h : Walk step a members b) {units : List Nat} {t : Tree}
    (hmem : (units, t) ∈ members) : ∃ a key b, units = utf16 key ∧ step a key t b := by
  induction h with
  | nil => cases hmem
  | cons hstep _ ih =>
    rcases List.mem_cons.mp hmem with heq | hmem
    · obtain ⟨rfl, rfl⟩ := Prod.mk.inj heq
      exact ⟨_, _, _, rfl, hstep⟩
    · exact ih hmem

/-- The rest of a member is read: behind the colon stands a value that is taken. -/
def Passes (member : σ → String → Reader σ) (depth : Nat) (a : σ) (key : String) (t : Tree) (b : σ) :
    Prop :=
  ∃ reader : Reader σ, (member a key = colon >>= fun _ => reader) ∧ reader.Takes depth t b

theorem membersFrom_takes {member : σ → String → Reader σ} {depth : Nat} {a b : σ}
    {members : List (List Nat × Tree)} (h : Walk (Passes member depth) a members b) :
    ∀ {isFirst : Bool} {s rest rounds : List Char}, MembersWritten isFirst members s →
      members.length < rounds.length →
      membersFrom member depth rounds isFirst a (s ++ rest) = .ok (b, rest) := by
  induction h with
  | nil =>
    intro isFirst s rest rounds hs hlong
    obtain ⟨x, rounds, rfl⟩ := List.exists_cons_of_length_pos (l := rounds) (by omega)
    cases hs with
    | close hblank => rw [List.append_assoc, membersFrom, nextKey_close hblank]
  | @cons a b c key t members hpasses _ ih =>
    intro isFirst s rest rounds hs hlong
    obtain ⟨reader, hmember, htakes⟩ := hpasses
    obtain ⟨x, rounds, rfl⟩ := List.exists_cons_of_length_pos (l := rounds) (by omega)
    cases hs with
    | @member _ _ _ _ lead k before blank s r hlead hk hbefore hblank hs hr =>
      have hread := htakes hblank hs (ends_members hr rest)
      have hvalue : member a key depth (before ++ ':' :: (blank ++ (s ++ (r ++ rest)))) =
          .ok (b, r ++ rest) := by
        rw [hmember, bind_apply, colon_blank hbefore]
        exact hread
      simp only [List.append_assoc, List.cons_append]
      rw [membersFrom, nextKey_member hlead, textBody_written hk]
      simp only [Except.map, hvalue]
      exact ih hr (by simpa using hlong)

/-- The rest of a member is refused, or behind the colon only values of a kind are accepted. -/
def AdmitsMember (member : Reader σ) (kind : Nat → Tree → σ → Prop) : Prop :=
  (∃ fault, member = fail fault) ∨
    ∃ reader : Reader σ, (member = colon >>= fun _ => reader) ∧ reader.Admits kind

theorem membersFrom_admits {member : σ → String → Reader σ}
    {step : Nat → σ → String → Tree → σ → Prop}
    (h : ∀ a key, AdmitsMember (member a key) fun depth => step depth a key) {depth : Nat} :
    ∀ {members : List (List Nat × Tree)} {isFirst : Bool} {s rest r rounds : List Char} {a b : σ},
      MembersWritten isFirst members s →
      membersFrom member depth rounds isFirst a (s ++ rest) = .ok (b, r) →
      r = rest ∧ Walk (step depth) a members b
  | _, _, _, _, _, [], _, _, _, hread => by cases hread
  | [], _, _, _, _, _ :: _, _, _, .close hblank, hread => by
    rw [List.append_assoc, membersFrom, nextKey_close hblank] at hread
    cases hread
    exact ⟨rfl, .nil⟩
  | (units, t) :: members, _, _, rest, r, x :: rounds, a, b,
      .member (k := k) (v := before) (w := blank) (s := s) (r := tail) hlead hk hbefore
        hblank hs hr, hread => by
    simp only [List.append_assoc, List.cons_append] at hread
    rw [membersFrom, nextKey_member hlead] at hread
    cases hkey : textBody (k ++ '"' :: (before ++ ':' :: (blank ++ (s ++ (tail ++ rest))))) with
    | error fault =>
      rw [hkey] at hread
      cases hread
    | ok p =>
      obtain ⟨key, r'⟩ := p
      obtain ⟨rfl, rfl⟩ := of_textBody hk hkey
      rw [hkey] at hread
      simp only [Except.map] at hread
      split at hread
      · cases hread
      · next b' r'' hvalue =>
        rcases h a key with ⟨fault, hfault⟩ | ⟨reader, hreader, hadmits⟩
        · rw [hfault] at hvalue
          cases hvalue
        · rw [hreader, bind_apply, colon_blank hbefore] at hvalue
          obtain ⟨rfl, hstep⟩ := hadmits hblank hs (ends_members hr rest) hvalue
          obtain ⟨hrest, hwalk⟩ := membersFrom_admits h hr hread
          exact ⟨hrest, .cons hstep hwalk⟩

theorem map_takes {member : σ → String → Reader σ} {depth : Nat} {start a : σ}
    {members : List (List Nat × Tree)} (h : Walk (Passes member depth) start members a) :
    (map member start).Takes (depth + 1) (.object members) a := by
  intro blank s rest hblank hs hrest
  cases hs with
  | object hs =>
    have hlong := length_members hs
    rw [List.cons_append, map, skipSpace_blank hblank (by decide)]
    simp only [nested, Reader.members]
    exact membersFrom_takes h hs (by simp only [List.length_append]; omega)

/-- The rest of a member is refused, or what is read behind the colon depends on the tree alone. -/
abbrev ConsistentMember (member : Reader σ) : Prop :=
  (∃ fault, member = fail fault) ∨
    ∃ reader : Reader σ, (member = colon >>= fun _ => reader) ∧ reader.Consistent

theorem ConsistentMember.admits {member : σ → String → Reader σ} {a : σ} {key : String}
    (h : ConsistentMember (member a key)) :
    AdmitsMember (member a key) fun depth => Passes member depth a key := by
  rcases h with hfault | ⟨reader, hreader, hconsistent⟩
  · exact Or.inl hfault
  · exact Or.inr ⟨reader, hreader, hconsistent.imp fun _ _ _ htakes => ⟨reader, hreader, htakes⟩⟩

theorem map_consistent {member : σ → String → Reader σ} {start : σ}
    (h : ∀ a key, ConsistentMember (member a key)) : (map member start).Consistent := by
  intro depth t blank s rest r a hblank hs hrest hread
  obtain ⟨c, s, rfl, hspace, -⟩ := head_written hs
  rw [List.cons_append, map, skipSpace_blank hblank hspace] at hread
  split at hread
  · cases hread
  · next heq =>
    obtain ⟨rfl, rfl⟩ := List.cons.inj heq
    obtain ⟨members, rfl, hmembers⟩ := written_object hs
    cases depth with
    | zero => cases hread
    | succ depth =>
      obtain ⟨hrest, hwalk⟩ :=
        membersFrom_admits (fun a key => (h a key).admits) hmembers hread
      exact ⟨hrest, map_takes hwalk⟩
  · cases hread

/-! ### Words -/

theorem choose_eq {words : List (String × α)} {word : String} {a : α}
    (h : words.lookup word = some a) : choose words word = pure a := by
  rw [choose, h]

theorem choose_cases (words : List (String × α)) (word : String) :
    (∃ a, words.lookup word = some a ∧ choose words word = pure a) ∨
      ∃ fault, choose words word = fail fault := by
  unfold choose
  cases words.lookup word with
  | none => exact Or.inr ⟨_, rfl⟩
  | some a => exact Or.inl ⟨a, rfl, rfl⟩

theorem variant_takes {words : List (String × α)} {word : String} {a : α}
    (h : words.lookup word = some a) {depth : Nat} :
    (variant words).Takes depth (.text (utf16 word)) a := by
  intro blank s rest hblank hs hrest
  cases hs with
  | @text _ k hk =>
    have hread := textBody_written hk rest
    simp (disch := decide) only [variant, List.cons_append, List.append_assoc, List.nil_append,
      skipSpace_blank hblank, hread]
    exact congrFun (congrFun (choose_eq h) depth) rest

theorem closeSingle_close {depth : Nat} {blank : List Char} (h : Blank blank) (rest : List Char) :
    closeSingle depth (blank ++ (['}'] ++ rest)) = .ok ((), rest) := by
  rw [List.cons_append, closeSingle, skipSpace_blank h (by decide)]
  rfl

theorem closeSingle_members {members : List (List Nat × Tree)} {s rest r : List Char} {depth : Nat}
    (h : MembersWritten false members s) (hread : closeSingle depth (s ++ rest) = .ok ((), r)) :
    r = rest ∧ members = [] := by
  cases h with
  | close hblank =>
    rw [List.append_assoc, closeSingle_close hblank] at hread
    cases hread
    exact ⟨rfl, rfl⟩
  | member hlead _ _ _ _ _ =>
    cases hlead with
    | next hbefore _ =>
      rw [List.append_assoc, List.append_assoc, List.cons_append, closeSingle,
        skipSpace_blank hbefore (by decide)] at hread
      cases hread

theorem variantMember_takes {words : List (String × α)} {word : String} {a : α}
    (hword : words.lookup word = some a) {s : List Char}
    (h : MembersWritten true [(utf16 word, .null)] s) (rest : List Char) (depth : Nat) :
    variantMember words depth (s ++ rest) = .ok (a, rest) := by
  cases h with
  | member hlead hk hbefore hblank hs htail =>
    have hunit := @unit_takes depth _ _ _ hblank hs (ends_members htail rest)
    cases htail with
    | close htail =>
      simp only [List.append_assoc, List.cons_append] at hunit ⊢
      rw [variantMember, bind_apply, nextKey_member hlead, textBody_written hk]
      simp only [Except.map, choose_eq hword, bind_apply, pure_apply, colon_blank hbefore, hunit]
      rw [← List.cons_append, closeSingle_close htail]

theorem variantMember_admits {words : List (String × α)} {members : List (List Nat × Tree)}
    {s rest r : List Char} {depth : Nat} {a : α} (h : MembersWritten true members s)
    (hread : variantMember words depth (s ++ rest) = .ok (a, r)) :
    r = rest ∧ ∃ word, words.lookup word = some a ∧ members = [(utf16 word, .null)] := by
  rw [variantMember, bind_apply] at hread
  cases h with
  | close hblank =>
    rw [List.append_assoc, nextKey_close hblank] at hread
    cases hread
  | @member _ units t members lead k before blank s tail hlead hk hbefore hblank hs htail =>
    simp only [List.append_assoc, List.cons_append] at hread
    rw [nextKey_member hlead] at hread
    cases hkey : textBody (k ++ '"' :: (before ++ ':' :: (blank ++ (s ++ (tail ++ rest))))) with
    | error fault =>
      rw [hkey] at hread
      cases hread
    | ok p =>
      obtain ⟨word, r'⟩ := p
      obtain ⟨rfl, rfl⟩ := of_textBody hk hkey
      rw [hkey] at hread
      rcases choose_cases words word with ⟨b, hlookup, hb⟩ | ⟨fault, hfault⟩
      · simp only [Except.map, bind_apply, hb, pure_apply, colon_blank hbefore] at hread
        split at hread
        · next hunit =>
          obtain ⟨rfl, rfl⟩ := unit_admits hblank hs (ends_members htail rest) hunit
          split at hread
          · next hclose =>
            cases hread
            obtain ⟨hrest, rfl⟩ := closeSingle_members htail hclose
            exact ⟨hrest, word, hlookup, rfl⟩
          · cases hread
        · cases hread
      · simp only [Except.map, bind_apply, hfault] at hread
        cases hread

theorem variant_brace (words : List (String × α)) {depth : Nat} {blank : List Char}
    (h : Blank blank) (s : List Char) :
    variant words (depth + 1) (blank ++ '{' :: s) = variantMember words depth s := by
  rw [variant, skipSpace_blank h (by decide)]
  rfl

theorem variant_takes_object {words : List (String × α)} {word : String} {a : α}
    (h : words.lookup word = some a) {depth : Nat} :
    (variant words).Takes (depth + 1) (.object [(utf16 word, .null)]) a := by
  intro blank s rest hblank hs hrest
  cases hs with
  | object hs =>
    rw [List.cons_append, variant_brace words hblank]
    exact variantMember_takes h hs rest depth

/-- What stands in place of the word and is no text is a key that is no string, of whatever kind. -/
theorem variant_of_noText (words : List (String × α)) {depth : Nat} {before blank : List Char}
    {c : Char} (hbefore : Blank before) (hblank : Blank blank) (hspace : isSpace c = false)
    (hquote : c ≠ '"') (hclose : c ≠ '}') (s : List Char) :
    variant words (depth + 1) (before ++ '{' :: (blank ++ c :: s)) = .error .keyNotString := by
  have hkey : nextKey true depth (blank ++ c :: s) = .error .keyNotString := by
    simp only [nextKey, skipSpace_blank hblank hspace, if_neg hclose, if_neg hquote, if_true]
  rw [variant_brace words hbefore, variantMember, bind_apply, hkey]

/-- A number and a word that is cut off. -/
example : document (variant [("a", ())]) " \x7b1:null\x7d" = .error .keyNotString ∧
    document (variant [("a", ())]) "\x7b nul" = .error .keyNotString := by decide +kernel

/-- A text that ends before the word ends in an object. -/
theorem variant_of_end (words : List (String × α)) {depth : Nat} {before blank : List Char}
    (hbefore : Blank before) (hblank : Blank blank) :
    variant words (depth + 1) (before ++ '{' :: blank) = .error .eofInObject := by
  have hkey : nextKey true depth blank = .error .eofInObject := by
    simp only [nextKey, skipSpace_eq_nil hblank]
  rw [variant_brace words hbefore, variantMember, bind_apply, hkey]

theorem variant_consistent (words : List (String × α)) : (variant words).Consistent := by
  intro depth t blank s rest r a hblank hs hrest hread
  obtain ⟨c, s, rfl, hspace, -⟩ := head_written hs
  rw [List.cons_append, variant, skipSpace_blank hblank hspace] at hread
  split at hread
  · cases hread
  · next heq =>
    obtain ⟨rfl, rfl⟩ := List.cons.inj heq
    obtain ⟨units, k, rfl, rfl, hk⟩ := written_quote hs
    rw [List.append_assoc] at hread
    cases hkey : textBody (k ++ (['"'] ++ rest)) with
    | error fault =>
      rw [hkey] at hread
      cases hread
    | ok p =>
      obtain ⟨word, r'⟩ := p
      obtain ⟨rfl, rfl⟩ := of_textBody hk hkey
      rw [hkey] at hread
      rcases choose_cases words word with ⟨b, hlookup, hb⟩ | ⟨fault, hfault⟩
      · cases (congrFun (congrFun hb depth) r').symm.trans hread
        exact ⟨rfl, variant_takes hlookup⟩
      · cases (congrFun (congrFun hfault depth) r').symm.trans hread
  · next heq =>
    obtain ⟨rfl, rfl⟩ := List.cons.inj heq
    obtain ⟨members, rfl, hmembers⟩ := written_object hs
    cases depth with
    | zero => cases hread
    | succ depth =>
      obtain ⟨hrest, word, hlookup, rfl⟩ := variantMember_admits hmembers hread
      exact ⟨hrest, variant_takes_object hlookup⟩
  · cases hread

/-! ### Whole texts -/

theorem document_takes {reader : Reader α} {text : String} {t : Tree} {a : α}
    (h : reader.Takes levels t a) (ht : t.IsText text.toList) : document reader text = .ok a := by
  obtain ⟨before, s, behind, hbefore, hs, hbehind, htext⟩ := ht
  simp only [document, htext, h hbefore hs (ends_of_blank hbehind), skipSpace_eq_nil hbehind,
    List.isEmpty_nil, if_true]

theorem document_admits {reader : Reader α} {kind : Nat → Tree → α → Prop} {text : String}
    {t : Tree} {a : α} (h : reader.Admits kind) (ht : t.IsText text.toList)
    (hread : document reader text = .ok a) : kind levels t a := by
  obtain ⟨before, s, behind, hbefore, hs, hbehind, htext⟩ := ht
  rw [document, htext] at hread
  split at hread
  · cases hread
  · next heq =>
    obtain ⟨-, hkind⟩ := h hbefore hs (ends_of_blank hbehind) heq
    split at hread
    · exact Except.ok.inj hread ▸ hkind
    · cases hread

end Reader

end WebAcl.Json
