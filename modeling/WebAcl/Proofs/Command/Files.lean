import WebAcl.Command.FileStore
import Mathlib.Data.List.Basic

/-! # What is written is read

A file that was written holds the bytes that were written. Both times the path is walked from the
start, and the walk goes the same way: every folder on the way is still there, since writing takes no
file away, and the place itself has not become a folder, since the new file lies there and nowhere
below (`FileStore.isFolder_put_self`).

* `FileStore.read_write`: what was written is read, under the same path. -/

namespace WebAcl.Command

namespace FileStore

variable {store : FileStore} {place : Location} {bytes : ByteArray}

/-! ### One place -/

theorem lookup_map_replace {files : List (Location × ByteArray)}
    (h : (files.lookup place).isSome) :
    (files.map fun file => if file.1 = place then (place, bytes) else file).lookup place =
      some bytes := by
  induction files with
  | nil => cases h
  | cons file files ih =>
    obtain ⟨other, old⟩ := file
    by_cases heq : other = place
    · subst heq
      simp
    · have hne : (place == other) = false := beq_false_of_ne (Ne.symm heq)
      rw [List.lookup_cons, hne] at h
      rw [List.map_cons, if_neg heq, List.lookup_cons, hne]
      exact ih h

theorem lookup_put_self : (store.put place bytes).files.lookup place = some bytes := by
  unfold put
  split
  · next hold => exact lookup_map_replace hold
  · next hnew =>
    have hnone : store.files.lookup place = none := Option.not_isSome_iff_eq_none.mp hnew
    rw [List.lookup_append, hnone]
    simp

/-- The places of the files after one was written: those before, and the place itself. -/
theorem mem_places_put {location : Location} :
    location ∈ (store.put place bytes).files.map (·.1) ↔
      location ∈ store.files.map (·.1) ∨ location = place := by
  unfold put
  split
  · next hold =>
    have hkept : (store.files.map fun file => if file.1 = place then (place, bytes) else file).map
        (·.1) = store.files.map (·.1) := by
      rw [List.map_map]
      refine List.map_congr_left fun file _ => ?_
      by_cases heq : file.1 = place
      · simp [heq]
      · simp [heq]
    have hplace : place ∈ store.files.map (·.1) := by
      obtain ⟨old, hold⟩ := Option.isSome_iff_exists.mp hold
      obtain ⟨before, after, hsplit, -⟩ := List.lookup_eq_some_iff.mp hold
      simp [hsplit]
    rw [hkept]
    exact ⟨Or.inl, fun h => h.elim id fun heq => heq ▸ hplace⟩
  · simp

/-! ### Folders -/

/-- A folder is told by the places of the files alone. -/
theorem isFolder_iff {other : Location} : store.isFolder other ↔
    other.all (fun name => name = "/" || name = "..") ∨
      ∃ location ∈ store.files.map (·.1), other <+: location ∧ other ≠ location := by
  simp [isFolder, List.any_eq_true]

theorem isFolder_put {other : Location} (h : store.isFolder other) :
    (store.put place bytes).isFolder other := by
  rw [isFolder_iff] at h ⊢
  rcases h with hall | ⟨location, hlocation, hbelow⟩
  · exact Or.inl hall
  · exact Or.inr ⟨location, mem_places_put.mpr (Or.inl hlocation), hbelow⟩

/-- A place is not below itself. -/
theorem isFolder_put_self : (store.put place bytes).isFolder place ↔ store.isFolder place := by
  refine ⟨fun h => ?_, isFolder_put⟩
  rw [isFolder_iff] at h ⊢
  rcases h with hall | ⟨location, hlocation, hprefix, hne⟩
  · exact Or.inl hall
  · rcases mem_places_put.mp hlocation with hold | rfl
    · exact Or.inr ⟨location, hold, hprefix, hne⟩
    · exact absurd rfl hne

theorem entry_eq_folder {other : Location} :
    store.entry other = .folder ↔ store.isFolder other := by
  unfold entry
  split
  · next h => simp [h]
  · next h => split <;> simp [h]

theorem entry_put_self (h : ¬ store.isFolder place) :
    (store.put place bytes).entry place = .file bytes := by
  rw [entry, if_neg (mt isFolder_put_self.mp h), lookup_put_self]

/-! ### Walks -/

theorem enter_eq_ok {here there : Location} {name : String} : store.enter here name = .ok there ↔
    name.utf8ByteSize ≤ nameLimit ∧ there = here.step name ∧ store.isFolder (here.step name) := by
  unfold enter find
  by_cases hlong : nameLimit < name.utf8ByteSize
  · simp [hlong, Nat.not_le_of_lt hlong]
  · rw [if_neg hlong, ← entry_eq_folder]
    cases hentry : store.entry (here.step name) with
    | folder => simp [Nat.le_of_not_lt hlong, eq_comm]
    | file bytes => simp
    | nothing => simp

theorem enter_put {here there : Location} {name : String} (h : store.enter here name = .ok there) :
    (store.put place bytes).enter here name = .ok there := by
  obtain ⟨hshort, rfl, hfolder⟩ := enter_eq_ok.mp h
  exact enter_eq_ok.mpr ⟨hshort, rfl, isFolder_put hfolder⟩

theorem foldlM_enter_put {names : List String} {here there : Location}
    (h : names.foldlM store.enter here = .ok there) :
    names.foldlM (store.put place bytes).enter here = .ok there := by
  induction names generalizing here with
  | nil => exact h
  | cons name names ih =>
    rw [List.foldlM_cons] at h ⊢
    cases hstep : store.enter here name with
    | error fault =>
      rw [hstep] at h
      cases h
    | ok next =>
      rw [hstep] at h
      rw [enter_put hstep]
      exact ih h

theorem folderOf_put {text : String} {folder : Location} (h : store.folderOf text = .ok folder) :
    (store.put place bytes).folderOf text = .ok folder := by
  unfold folderOf at h ⊢
  split at h
  · cases h
  · next hempty =>
    split at h
    · cases h
    · next hlong =>
      rw [if_neg hempty, if_neg hlong]
      exact foldlM_enter_put h

/-! ### Files -/

/-- Where a file was written: behind the folder of its path, where no folder was. -/
theorem write_eq_ok {text : String} {after : FileStore} (h : store.write text bytes = .ok after) :
    ∃ folder, store.folderOf text = .ok folder ∧ ¬ (Path.ofText text).isFolderOnly ∧
      ¬ nameLimit < (Path.ofText text).last.utf8ByteSize ∧
      ¬ store.isFolder (folder.step (Path.ofText text).last) ∧
      after = store.put (folder.step (Path.ofText text).last) bytes := by
  unfold write find at h
  cases hfolder : store.folderOf text with
  | error fault =>
    rw [hfolder] at h
    cases h
  | ok folder =>
    simp only [hfolder] at h
    split at h
    · cases h
    · next honly =>
      by_cases hlong : nameLimit < (Path.ofText text).last.utf8ByteSize
      · rw [if_pos hlong] at h
        cases h
      · rw [if_neg hlong] at h
        have hplace : ¬ store.isFolder (folder.step (Path.ofText text).last) := by
          rw [← entry_eq_folder]
          intro hentry
          rw [hentry] at h
          cases h
        refine ⟨folder, rfl, honly, hlong, hplace, ?_⟩
        cases hentry : store.entry (folder.step (Path.ofText text).last) with
        | folder => exact absurd (entry_eq_folder.mp hentry) hplace
        | file old =>
          rw [hentry] at h
          exact (Except.ok.inj h).symm
        | nothing =>
          rw [hentry] at h
          exact (Except.ok.inj h).symm

/-- **What was written is read**, under the same path. -/
theorem read_write {text : String} {after : FileStore} (h : store.write text bytes = .ok after) :
    after.read text = .ok bytes := by
  obtain ⟨folder, hfolder, honly, hshort, hplace, rfl⟩ := write_eq_ok h
  have hslash : ¬ (Path.ofText text).endsInSlash :=
    fun hends => honly (by simp [Path.isFolderOnly, hends])
  simp only [read, find, folderOf_put hfolder, if_neg hshort, entry_put_self hplace, if_neg hslash]

/-- A file in a folder, written over an older one. -/
example : (FileStore.mk [(["out", "acl.json"], ⟨#[0x7b, 0x7d]⟩)]).write "out/./acl.json" ⟨#[0x31]⟩ =
    .ok ⟨[(["out", "acl.json"], ⟨#[0x31]⟩)]⟩ := by rfl

end FileStore

end WebAcl.Command
