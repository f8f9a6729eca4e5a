import WebAcl.Build
import Mathlib.Data.List.Induction
import Mathlib.Data.List.Nodup

/-! # Names that rules share

The scan for shared names goes through the list once and keeps two accumulators, the names it has
seen and those it has found to be repeated. The invariant that ties both to the part behind it is
`Repeats`: the names found are those that occur at least twice there, each once, in the order of
their second occurrences. What comes next is new, or seen once, or found already, and each case
keeps the invariant.

* `repeats_repeatedNames`: the scan finds the repeated names in order.
* `repeatedNames_eq_nil`: it finds nothing exactly if the names are pairwise distinct. -/

namespace WebAcl

/-- A name stands at a place and exactly once before it. -/
def SecondAt (names : List String) (name : String) (place : Nat) : Prop :=
  names[place]? = some name ∧ (names.take place).count name = 1

/-- **The repeated names of a list**: those that occur at least twice, each once, in the order of
their second occurrences. -/
structure Repeats (names repeated : List String) : Prop where
  twice : ∀ name, name ∈ repeated ↔ 2 ≤ names.count name
  once : repeated.Nodup
  ordered : repeated.Pairwise fun first second =>
    ∃ i j, i < j ∧ SecondAt names first i ∧ SecondAt names second j

/-! ### One more name -/

section Concat

variable {before repeated : List String} {name : String}

theorem SecondAt.lt_length {place : Nat} (h : SecondAt before name place) :
    place < before.length := (List.getElem?_eq_some_iff.mp h.1).1

/-- What stands behind a second occurrence does not matter. -/
theorem SecondAt.append {place : Nat} (h : SecondAt before name place) (more : List String) :
    SecondAt (before ++ more) name place := by
  have hlt := h.lt_length
  refine ⟨?_, ?_⟩
  · rw [List.getElem?_append_left hlt]
    exact h.1
  · rw [List.take_append_of_le_length (Nat.le_of_lt hlt)]
    exact h.2

theorem secondAt_length (h : before.count name = 1) :
    SecondAt (before ++ [name]) name before.length := by
  refine ⟨List.getElem?_concat_length, ?_⟩
  rw [List.take_left]
  exact h

theorem count_concat (other : String) :
    (before ++ [name]).count other = before.count other + if name = other then 1 else 0 := by
  rw [List.count_append, List.count_singleton]
  simp only [beq_iff_eq]

theorem exists_secondAt {names : List String} (h : 2 ≤ names.count name) :
    ∃ place, SecondAt names name place := by
  induction names using List.reverseRecOn with
  | nil => simp at h
  | append_singleton before last ih =>
    by_cases hbefore : 2 ≤ before.count name
    · obtain ⟨place, hplace⟩ := ih hbefore
      exact ⟨place, hplace.append _⟩
    · rw [count_concat] at h
      split at h
      · next heq =>
        subst heq
        exact ⟨before.length, secondAt_length (by omega)⟩
      · omega

/-- The order of second occurrences does not see what stands behind them. -/
theorem Repeats.ordered_append (h : Repeats before repeated) (more : List String) :
    repeated.Pairwise fun first second =>
      ∃ i j, i < j ∧ SecondAt (before ++ more) first i ∧ SecondAt (before ++ more) second j := by
  refine h.ordered.imp ?_
  rintro first second ⟨i, j, hij, hfirst, hsecond⟩
  exact ⟨i, j, hij, hfirst.append more, hsecond.append more⟩

/-- A name that is new, or known to be repeated, leaves the repeated names as they are. -/
theorem Repeats.concat_idle (h : Repeats before repeated)
    (hname : name ∉ before ∨ name ∈ repeated) : Repeats (before ++ [name]) repeated := by
  refine ⟨fun other => ?_, h.once, h.ordered_append [name]⟩
  rw [h.twice, count_concat]
  split
  · next heq =>
    subst heq
    rcases hname with hnew | hfound
    · rw [List.count_eq_zero.mpr hnew]
      omega
    · have := (h.twice name).mp hfound
      omega
  · omega

/-- A name that occurs for the second time is repeated, and all others were repeated earlier. -/
theorem Repeats.concat_second (h : Repeats before repeated) (hname : name ∈ before)
    (hfresh : name ∉ repeated) : Repeats (before ++ [name]) (repeated ++ [name]) := by
  have hone : before.count name = 1 := by
    have hpos := List.count_pos_iff.mpr hname
    rw [h.twice] at hfresh
    omega
  refine ⟨fun other => ?_, ?_, ?_⟩
  · rw [List.mem_append, List.mem_singleton, h.twice, count_concat]
    split
    · next heq =>
      subst heq
      simp [hone]
    · next hne => simp [Ne.symm hne]
  · rw [← List.concat_eq_append]
    exact h.once.concat hfresh
  · refine List.pairwise_append.mpr ⟨h.ordered_append [name], List.pairwise_singleton _ _, ?_⟩
    intro other hother last hlast
    obtain ⟨i, hi⟩ := exists_secondAt ((h.twice other).mp hother)
    rw [List.mem_singleton.mp hlast]
    exact ⟨i, before.length, hi.lt_length, hi.append _, secondAt_length hone⟩

end Concat

/-! ### The scan -/

/-- The scan keeps both accumulators in step with the names behind it. -/
theorem repeats_repeatedAfter {before seen found : List String} (names : List String)
    (hseen : ∀ name, name ∈ seen ↔ name ∈ before) (hfound : Repeats before found) :
    Repeats (before ++ names) (repeatedAfter seen found names) := by
  induction names generalizing before seen found with
  | nil =>
    rw [List.append_nil]
    exact hfound
  | cons name names ih =>
    have hstep : before ++ name :: names = (before ++ [name]) ++ names := by simp
    rw [repeatedAfter, hstep]
    by_cases hs : name ∈ seen
    · have hbefore := (hseen name).mp hs
      rw [if_pos hs]
      refine ih (fun other => ?_) ?_
      · rw [hseen, List.mem_append, List.mem_singleton]
        exact ⟨Or.inl, fun h => h.elim id fun heq => heq ▸ hbefore⟩
      · by_cases hf : name ∈ found
        · rw [if_pos hf]
          exact hfound.concat_idle (Or.inr hf)
        · rw [if_neg hf]
          exact hfound.concat_second hbefore hf
    · have hbefore : name ∉ before := fun h => hs ((hseen name).mpr h)
      rw [if_neg hs]
      refine ih (fun other => ?_) (hfound.concat_idle (Or.inl hbefore))
      rw [List.mem_cons, List.mem_append, List.mem_singleton, hseen]
      exact or_comm

/-- **The scan finds the repeated names in order.** -/
theorem repeats_repeatedNames (names : List String) : Repeats names (repeatedNames names) := by
  have hnil : Repeats [] [] := ⟨fun name => by simp, List.nodup_nil, List.Pairwise.nil⟩
  exact repeats_repeatedAfter names (fun _ => Iff.rfl) hnil

/-- Two names that are repeated, the first of them three times. -/
example : repeatedNames ["b", "a", "c", "a", "b", "a"] = ["a", "b"] := by decide

theorem mem_repeatedNames {n : String} {names : List String} :
    n ∈ repeatedNames names ↔ 2 ≤ names.count n :=
  (repeats_repeatedNames names).twice n

/-- **No name is found** exactly if the names are pairwise distinct. -/
theorem repeatedNames_eq_nil {names : List String} : repeatedNames names = [] ↔ names.Nodup := by
  rw [List.nodup_iff_count, List.eq_nil_iff_forall_not_mem]
  refine forall_congr' fun n => ?_
  rw [mem_repeatedNames]
  omega

end WebAcl
