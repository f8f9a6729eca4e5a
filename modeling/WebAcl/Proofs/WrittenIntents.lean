import WebAcl.Proofs.BodyTable
import WebAcl.Proofs.Json.Records
import WebAcl.Proofs.Json.Values
import WebAcl.Intents.Reading

/-! # Intents as they are written

The ways to write intents down, said by their parts: the members of an object stand in any order, a
field with its default may be left out, and what is not asked for is left out or `null`. However
intents are written, they are what is read.

* `Intents.parts`: the parts of a document, and so on down to the limits.
* `Intents.ofJson_written`: every text that writes intents down is read as these intents. -/

namespace WebAcl

open Json Json.Reader

/-! ### Parts -/

/-- Nothing is written `null`, and something as itself. -/
inductive NullOr {α : Type} (form : α → Tree → Prop) : Option α → Tree → Prop
  | none : NullOr form none .null
  | some {a : α} {t : Tree} : form a t → NullOr form (some a) t

/-- A list of texts. -/
def stringsTree (names : List String) : Tree := .list (names.map fun name => .text (utf16 name))

/-- All fields are given. -/
def Visibility.parts (visibility : Visibility) : List Part :=
  [⟨"sampledRequestsEnabled", False, (· = .boolean visibility.sampledRequests)⟩,
    ⟨"cloudWatchMetricsEnabled", False, (· = .boolean visibility.metrics)⟩,
    ⟨"metricName", False, (· = .text (utf16 visibility.metricName))⟩]

/-- Every field has a default. -/
def Config.parts (strays : Bool) (config : Config) : List Part :=
  [⟨"name", config.name = Config.default.name, (· = .text (utf16 config.name))⟩,
    ⟨"scope", config.scope = Config.default.scope, (· = .text (utf16 config.scope.label))⟩,
    ⟨"ipAddressVersion", config.addressVersion = Config.default.addressVersion,
      (· = .text (utf16 config.addressVersion.label))⟩,
    ⟨"userHeader", config.userHeader = Config.default.userHeader,
      (· = .text (utf16 config.userHeader))⟩,
    ⟨"visibility", config.visibility = Config.default.visibility,
      IsObjectOf strays config.visibility.parts⟩]

/-- Both fields are given. -/
def ResponseBody.parts (body : ResponseBody) : List Part :=
  [⟨"content", False, (· = .text (utf16 body.content))⟩,
    ⟨"contentType", False, (· = .text (utf16 body.contentType.label))⟩]

/-- One part for every key. -/
def bodyParts (strays : Bool) (bodies : KeyTable ResponseBody) : List Part :=
  bodies.entries.map fun (key, body) => ⟨key, False, IsObjectOf strays body.parts⟩

/-- One part for every group that has an entry. -/
def Exclusions.parts (exclusions : Exclusions) : List Part :=
  exclusions.entries.map fun (group, names) => ⟨group.label, False, (· = stringsTree names)⟩

/-- All groups by their word, or a list of groups. -/
def Selection.tree : Selection → Tree
  | .all => .text (utf16 "all")
  | .only groups => stringsTree (groups.map (·.label))

/-- Both fields have a default. -/
def ManagedIntent.parts (managed : ManagedIntent) : List Part :=
  [⟨"rules", managed.selection = .all, (· = managed.selection.tree)⟩,
    ⟨"excludedRules", managed.exclusions = .none, IsObjectOf false managed.exclusions.parts⟩]

/-- A limit for each of the eight throttles. -/
def ThrottleLimits.parts (limits : ThrottleLimits) : List Part :=
  Preset.all.map fun preset => ⟨preset.field, limits.limit preset = .none,
    NullOr (fun limit t => t = .natural limit.toNat) (limits.limit preset)⟩

/-- The parts of a document. -/
def Intents.parts (strays : Bool) (intents : Intents) : List Part :=
  [⟨"config", intents.config = .default, IsObjectOf strays (intents.config.parts strays)⟩,
    ⟨"managedRules", intents.managed = none,
      NullOr (fun managed => IsObjectOf false managed.parts) intents.managed⟩,
    ⟨"ipBlocklist", intents.blocklist = none,
      NullOr (fun addresses t => t = stringsTree addresses) intents.blocklist⟩,
    ⟨"throttle", intents.throttle = .none, IsObjectOf false intents.throttle.parts⟩,
    ⟨"customResponseBodies", intents.bodies = .empty,
      IsObjectOf false (bodyParts strays intents.bodies)⟩]

/-- The trees that write intents down. With strays, the configuration, its visibility and the
response bodies may hold members under any other keys. -/
def Intents.WrittenAs (strays : Bool) (intents : Intents) (t : Tree) : Prop :=
  IsObjectOf false (intents.parts strays) t

/-! ### Scalars -/

theorem strings_takes {names : List String} {depth : Nat} :
    (Reader.list Reader.string).Takes (depth + 1) (stringsTree names) names := by
  refine list_takes ?_
  rw [List.forall₂_map_left_iff, List.forall₂_same]
  exact fun _ _ => string_takes

theorem optional_takes_nullOr {α : Type} {reader : Reader α} {form : α → Tree → Prop} {depth : Nat}
    (htakes : ∀ a t, form a t → reader.Takes depth t a) (hnull : ∀ a, ¬ form a .null)
    (a? : Option α) (t : Tree) (h : NullOr form a? t) : reader.optional.Takes depth t a? := by
  cases h with
  | none => exact optional_takes_none
  | some h => exact optional_takes_some (htakes _ _ h) (by rintro rfl; exact hnull _ h)

theorem not_isObjectOf_null {strays : Bool} {parts : List Part} : ¬ IsObjectOf strays parts .null :=
  nofun

theorem lookup_scope (scope : Scope) : Scope.labelled.lookup scope.label = some scope := by
  cases scope <;> decide

theorem lookup_addressVersion (version : AddressVersion) :
    AddressVersion.labelled.lookup version.label = some version := by
  cases version <;> decide

theorem lookup_contentType (kind : ContentType) :
    ContentType.labelled.lookup kind.label = some kind := by
  cases kind <;> decide

theorem lookup_managedGroup (group : ManagedGroup) :
    ManagedGroup.labelled.lookup group.label = some group := by
  cases group <;> decide

/-! ### Records -/

theorem Visibility.read_takes {visibility : Visibility} {strays : Bool} {depth : Nat} {t : Tree}
    (h : IsObjectOf strays visibility.parts t) :
    Visibility.read.Takes (depth + 1) t visibility := by
  refine Visibility.shape.read_takes
    (.cons (Shape.serves_of nofun ?_) (.cons (Shape.serves_of nofun ?_)
      (.cons (Shape.serves_of nofun ?_) .nil))) (by decide) (fun _ => rfl) ?_ ?_ h
  · rintro _ rfl; exact boolean_takes
  · rintro _ rfl; exact boolean_takes
  · rintro _ rfl; exact string_takes
  · simp [Store.Independent, Store.Commute]
  · simp

theorem Config.read_takes {config : Config} {strays : Bool} {depth : Nat} {t : Tree}
    (h : IsObjectOf strays (config.parts strays) t) :
    Config.read.Takes (depth + 2) t config := by
  refine Config.shape.read_takes
    (.cons (Shape.serves_of nofun ?_) (.cons (Shape.serves_of nofun ?_)
      (.cons (Shape.serves_of nofun ?_) (.cons (Shape.serves_of nofun ?_)
        (.cons (Shape.serves_of nofun ?_) .nil))))) (by decide) (fun _ => rfl) ?_ ?_ h
  · rintro _ rfl; exact string_takes
  · rintro _ rfl; exact variant_takes (lookup_scope _)
  · rintro _ rfl; exact variant_takes (lookup_addressVersion _)
  · rintro _ rfl; exact string_takes
  · exact fun _ => Visibility.read_takes
  · simp [Store.Independent, Store.Commute]
  · simp +contextual [Config.shape]

theorem ResponseBody.read_takes {body : ResponseBody} {strays : Bool} {depth : Nat} {t : Tree}
    (h : IsObjectOf strays body.parts t) : ResponseBody.read.Takes (depth + 1) t body := by
  refine ResponseBody.shape.read_takes
    (.cons (Shape.serves_of nofun ?_) (.cons (Shape.serves_of nofun ?_) .nil))
    (by decide) (fun _ => rfl) ?_ ?_ h
  · rintro _ rfl; exact string_takes
  · rintro _ rfl; exact variant_takes (lookup_contentType _)
  · simp [Store.Independent, Store.Commute]
  · simp

/-! ### Tables -/

theorem KeyTable.insert_comm {α : Type} (table : KeyTable α) {key other : String} (h : key ≠ other)
    (value value' : α) : (table.insert key value).insert other value' =
      (table.insert other value').insert key value := by
  refine KeyTable.ext_get? fun wanted => ?_
  simp only [KeyTable.get?_insert]
  by_cases hkey : wanted = key
  · subst hkey
    simp [h]
  · simp [hkey]

/-- A table is what its entries come to, whatever their order. -/
theorem KeyTable.foldl_insert_entries {α : Type} (table : KeyTable α) :
    table.entries.foldl (fun table (key, value) => table.insert key value) KeyTable.empty =
      table := by
  refine KeyTable.ext_get? fun key => ?_
  rw [KeyTable.get?_foldl_insert, KeyTable.get?_empty, Option.or_none]
  exact KeyTable.lookup_eq_of_mem_iff
    (fun key value => by rw [List.mem_reverse, KeyTable.get?_eq_some]) key

/-- The entries with their parts. -/
def bodyStores (strays : Bool) (bodies : KeyTable ResponseBody) :
    List (Store (KeyTable ResponseBody)) :=
  bodies.entries.map fun (key, body) =>
    ⟨⟨key, False, IsObjectOf strays body.parts⟩, fun found => found.insert key body⟩

theorem fill_bodyStores (strays : Bool) (bodies : KeyTable ResponseBody) :
    Store.fill (bodyStores strays bodies) KeyTable.empty = bodies := by
  rw [Store.fill, bodyStores, List.foldl_map]
  exact bodies.foldl_insert_entries

theorem readBodies_takes {bodies : KeyTable ResponseBody} {strays : Bool} {depth : Nat} {t : Tree}
    (h : IsObjectOf false (bodyParts strays bodies) t) :
    readBodies.Takes (depth + 2) t bodies := by
  rw [← fill_bodyStores strays bodies]
  refine map_takes_parts ?_ ?_ ?_ ?_
  · intro store hmem found t hform
    obtain ⟨⟨key, body⟩, -, rfl⟩ := List.mem_map.mp hmem
    exact ⟨_, rfl, (ResponseBody.read_takes hform).bind rfl⟩
  · refine List.pairwise_map.mpr (bodies.ordered.imp fun hlt found => ?_)
    exact KeyTable.insert_comm _ (fun heq => String.lt_irrefl _ (heq ▸ hlt)) _ _
  · intro store hmem
    obtain ⟨⟨key, body⟩, -, rfl⟩ := List.mem_map.mp hmem
    exact False.elim
  · rw [bodyStores, List.map_map]
    exact h

theorem Exclusions.insert_comm (exclusions : Exclusions) {group other : ManagedGroup}
    (h : group ≠ other) (names names' : List String) :
    (exclusions.insert group names).insert other names' =
      (exclusions.insert other names').insert group names := by
  refine congrArg Exclusions.mk (funext fun wanted => ?_)
  by_cases hgroup : wanted = group
  · subst hgroup
    simp [Exclusions.insert, h]
  · simp [Exclusions.insert, hgroup]

/-- What an insertion for every group of a list comes to. -/
theorem Exclusions.entry_foldl_insert (exclusions : Exclusions) (wanted : ManagedGroup) :
    ∀ (groups : List ManagedGroup) (start : Exclusions),
      ((groups.filterMap fun group => (exclusions.entry group).map (group, ·)).foldl
        (fun exclusions (group, names) => exclusions.insert group names) start).entry wanted =
      if wanted ∈ groups then (exclusions.entry wanted).or (start.entry wanted)
      else start.entry wanted
  | [], _ => rfl
  | group :: groups, start => by
    have ih := entry_foldl_insert exclusions wanted groups
    cases hentry : exclusions.entry group with
    | none =>
      rw [List.filterMap_cons_none (by simp [hentry]), ih]
      by_cases h : wanted = group
      · simp [h, hentry]
      · simp [h]
    | some names =>
      rw [List.filterMap_cons_some (by rw [hentry]; rfl), List.foldl_cons, ih]
      by_cases h : wanted = group
      · simp [h, hentry, Exclusions.insert]
      · simp [h, Exclusions.insert]

/-- Exclusions are what their entries come to. -/
theorem Exclusions.foldl_insert_entries (exclusions : Exclusions) :
    exclusions.entries.foldl (fun exclusions (group, names) => exclusions.insert group names)
      .none = exclusions := by
  refine congrArg Exclusions.mk (funext fun wanted => ?_)
  have hwanted : wanted ∈ ManagedGroup.all := by cases wanted <;> decide
  rw [Exclusions.entries, entry_foldl_insert, if_pos hwanted, Exclusions.none, Option.or_none]

/-- The entries with their parts. -/
def Exclusions.stores (exclusions : Exclusions) : List (Store Exclusions) :=
  exclusions.entries.map fun (group, names) =>
    ⟨⟨group.label, False, (· = stringsTree names)⟩, fun found => found.insert group names⟩

theorem Exclusions.fill_stores (exclusions : Exclusions) :
    Store.fill exclusions.stores .none = exclusions := by
  rw [Store.fill, Exclusions.stores, List.foldl_map]
  exact exclusions.foldl_insert_entries

theorem Exclusions.read_takes {exclusions : Exclusions} {depth : Nat} {t : Tree}
    (h : IsObjectOf false exclusions.parts t) : Exclusions.read.Takes (depth + 2) t exclusions := by
  rw [← exclusions.fill_stores]
  refine map_takes_parts ?_ ?_ ?_ ?_
  · intro store hmem found t hform
    obtain ⟨⟨group, names⟩, -, rfl⟩ := List.mem_map.mp hmem
    obtain rfl : t = stringsTree names := hform
    refine ⟨list string >>= fun names => pure (found.insert group names), ?_,
      strings_takes.bind rfl⟩
    simp only [choose_eq (lookup_managedGroup group)]
    rfl
  · refine List.pairwise_map.mpr (List.pairwise_filterMap.mpr ?_)
    refine List.Pairwise.imp ?_ (show ManagedGroup.all.Nodup by decide)
    rintro group other hne _ hentry _ hother found
    obtain ⟨names, -, rfl⟩ := Option.map_eq_some_iff.mp hentry
    obtain ⟨names', -, rfl⟩ := Option.map_eq_some_iff.mp hother
    exact Exclusions.insert_comm _ hne.symm _ _
  · intro store hmem
    obtain ⟨⟨group, names⟩, -, rfl⟩ := List.mem_map.mp hmem
    exact False.elim
  · rw [Exclusions.stores, List.map_map]
    exact h

/-! ### Selections -/

theorem denotes_strings (names : List String) :
    (stringsTree names).Denotes (.list (names.map .text)) := by
  refine .list ?_
  rw [List.forall₂_map_left_iff, List.forall₂_map_right_iff, List.forall₂_same]
  exact fun _ _ => .text

theorem levels_stringsTree (names : List String) : (stringsTree names).levels ≤ 1 := by
  have h : itemLevels (names.map fun name => .text (utf16 name)) = 0 := by
    induction names with
    | nil => rfl
    | cons name names ih => simp [itemLevels, Tree.levels, ih]
  simp [stringsTree, Tree.levels, h]

theorem Selection.ofValue?_only (groups : List ManagedGroup) :
    Selection.ofValue? (.list ((groups.map (·.label)).map .text)) = some (.only groups) := by
  have hgroups : ((groups.map (·.label)).map Value.text).mapM Selection.group? = some groups := by
    induction groups with
    | nil => rfl
    | cons group groups ih =>
      have hgroup : Selection.group? (.text group.label) = some group := lookup_managedGroup group
      simp only [List.map_cons, List.mapM_cons, hgroup, ih]
      rfl
  rw [Selection.ofValue?, if_neg nofun]
  simp only [hgroups, Option.map_some]

theorem Selection.read_takes {selection : Selection} {depth : Nat} :
    Selection.read.Takes (depth + 1) selection.tree selection := by
  cases selection with
  | all => exact (Value.read_takes .text (Nat.zero_le _)).bind rfl
  | only groups =>
    refine (Value.read_takes (denotes_strings _) ((levels_stringsTree _).trans (by omega))).bind ?_
    rw [Selection.ofValue?_only]

theorem ManagedIntent.read_takes {managed : ManagedIntent} {depth : Nat} {t : Tree}
    (h : IsObjectOf false managed.parts t) :
    ManagedIntent.read.Takes (depth + 3) t managed := by
  refine ManagedIntent.shape.read_takes
    (.cons (Shape.serves_of nofun ?_) (.cons (Shape.serves_of nofun ?_) .nil))
    (by decide) (fun h => absurd h (by decide)) ?_ ?_ h
  · rintro _ rfl; exact Selection.read_takes
  · exact fun _ => Exclusions.read_takes
  · simp [Store.Independent, Store.Commute]
  · simp +contextual [ManagedIntent.shape, ManagedIntent.default]

/-! ### Limits -/

theorem ThrottleLimits.insert_comm (limits : ThrottleLimits) {preset other : Preset}
    (h : preset ≠ other) (limit limit' : Option UInt64) :
    (limits.insert preset limit).insert other limit' =
      (limits.insert other limit').insert preset limit := by
  refine congrArg ThrottleLimits.mk (funext fun wanted => ?_)
  by_cases hpreset : wanted = preset
  · subst hpreset
    simp [ThrottleLimits.insert, h]
  · simp [ThrottleLimits.insert, hpreset]

theorem ThrottleLimits.limit_foldl_insert (limits : ThrottleLimits) (wanted : Preset) :
    ∀ (presets : List Preset) (start : ThrottleLimits),
      (presets.foldl (fun found preset => found.insert preset (limits.limit preset)) start).limit
        wanted = if wanted ∈ presets then limits.limit wanted else start.limit wanted
  | [], _ => rfl
  | preset :: presets, start => by
    rw [List.foldl_cons, limit_foldl_insert limits wanted presets]
    by_cases h : wanted = preset
    · simp [h, ThrottleLimits.insert]
    · simp [h, ThrottleLimits.insert]

/-- The eight limits with their parts. -/
def ThrottleLimits.stores (limits : ThrottleLimits) : List (Store ThrottleLimits) :=
  Preset.all.map fun preset =>
    ⟨⟨preset.field, limits.limit preset = .none,
      NullOr (fun limit t => t = .natural limit.toNat) (limits.limit preset)⟩,
      fun found => found.insert preset (limits.limit preset)⟩

theorem ThrottleLimits.fill_stores (limits : ThrottleLimits) :
    Store.fill limits.stores .none = limits := by
  refine congrArg ThrottleLimits.mk (funext fun wanted => ?_)
  have h := limit_foldl_insert limits wanted Preset.all .none
  rwa [if_pos (Preset.mem_all wanted)] at h

theorem ThrottleLimits.read_takes {limits : ThrottleLimits} {depth : Nat} {t : Tree}
    (h : IsObjectOf false limits.parts t) :
    ThrottleLimits.read.Takes (depth + 1) t limits := by
  have hparts : IsObjectOf false (limits.stores.map (·.part)) t := by
    rw [ThrottleLimits.stores, List.map_map]
    exact h
  rw [← limits.fill_stores]
  refine ThrottleLimits.shape.read_takes ?_ (by decide) (fun h => absurd h (by decide)) ?_ ?_ hparts
  · rw [ThrottleLimits.shape, ThrottleLimits.stores, List.forall₂_map_left_iff,
      List.forall₂_map_right_iff, List.forall₂_same]
    refine fun preset _ => Shape.serves_of nofun (optional_takes_nullOr ?_ nofun _)
    rintro limit _ rfl
    exact limit_takes (number?_natural limit)
  · refine List.pairwise_map.mpr (List.Pairwise.imp ?_ (show Preset.all.Nodup by decide))
    exact fun hne found => ThrottleLimits.insert_comm _ (Ne.symm hne) _ _
  · intro store hmem
    obtain ⟨preset, -, rfl⟩ := List.mem_map.mp hmem
    intro hnone
    refine congrArg ThrottleLimits.mk (funext fun wanted => ?_)
    rw [hnone]
    exact ite_self _

/-! ### Documents -/

theorem Intents.read_takes {intents : Intents} {strays : Bool} {depth : Nat} {t : Tree}
    (h : intents.WrittenAs strays t) : Intents.read.Takes (depth + 4) t intents := by
  refine Intents.shape.read_takes
    (.cons (Shape.serves_of nofun ?_) (.cons (Shape.serves_of nofun ?_)
      (.cons (Shape.serves_of nofun ?_) (.cons (Shape.serves_of nofun ?_)
        (.cons (Shape.serves_of nofun ?_) .nil))))) (by decide) (fun h => absurd h (by decide))
    ?_ ?_ h
  · exact fun _ => Config.read_takes
  · exact optional_takes_nullOr (fun _ _ => ManagedIntent.read_takes)
      (fun _ => not_isObjectOf_null) _
  · refine optional_takes_nullOr ?_ nofun _
    rintro _ _ rfl
    exact strings_takes
  · exact fun _ => ThrottleLimits.read_takes
  · exact fun _ => readBodies_takes
  · simp [Store.Independent, Store.Commute]
  · simp +contextual [Intents.shape, Intents.default]

theorem Intents.ofJson_of_writtenAs {intents : Intents} {strays : Bool} {t : Tree} {text : String}
    (h : intents.WrittenAs strays t) (ht : t.IsText text.toList) :
    Intents.ofJson text = .ok intents := by
  have htakes : Intents.read.Takes levels t intents := Intents.read_takes h
  rw [Intents.ofJson, document_takes htakes ht]

/-- **Intents are read off every text that writes them down**: with the members of each object in
any order, with any blanks and escapes, and whether defaults are written out or not. -/
theorem Intents.ofJson_written {intents : Intents} {t : Tree} {text : String}
    (h : intents.WrittenAs false t) (ht : t.IsText text.toList) :
    Intents.ofJson text = .ok intents :=
  Intents.ofJson_of_writtenAs h ht

/-- A name beyond the basic plane, a blocklist of one address, and nothing else. -/
def sampleIntents : Intents :=
  { Intents.default with config := .named "😀", blocklist := some ["::1"] }

/-- The blocklist, no managed groups, and then the name. -/
def sampleTree : Tree :=
  .object [(utf16 "ipBlocklist", stringsTree ["::1"]), (utf16 "managedRules", .null),
    (utf16 "config", .object [(utf16 "name", .text (utf16 "😀"))])]

/-- The name is written by the two halves of its code point. -/
def sampleText : String :=
  "\x7b\"ipBlocklist\" : [\"::1\"],\n\"managedRules\":null, " ++
    "\"config\":\x7b\"name\":\"\\ud83d\\uDE00\"\x7d\x7d"

theorem sampleIntents_writtenAs : sampleIntents.WrittenAs false sampleTree := by
  refine ⟨_, rfl, .first ⟨2, by decide⟩ (.some rfl) (.first ⟨1, by decide⟩ .none
    (.first ⟨0, by decide⟩ ⟨_, rfl, .first ⟨0, by decide⟩ rfl (.close ?_)⟩ (.close ?_)))⟩
  · simp [sampleIntents, Config.named, Config.parts]
  · simp [Intents.parts, sampleIntents, Intents.default]

theorem sampleTree_isText : sampleTree.IsText sampleText.toList := by
  have hblocklist : (stringsTree ["::1"]).Written "[\"::1\"]".toList :=
    .list (.item (.first blank_nil) (.text (unitsWritten_plain (s := "::1".toList) (by decide)))
      (.close blank_nil))
  have hemoji : UnitsWritten (utf16 "😀") "\\ud83d\\uDE00".toList :=
    .hex (k := 13) (l := 8) (m := 3) (n := 13) (by decide) (by decide) (by decide) (by decide)
      (.hex (k := 13) (l := 14) (m := 0) (n := 0) (by decide) (by decide) (by decide) (by decide)
        .nil)
  have hconfig : (Tree.object [(utf16 "name", .text (utf16 "😀"))]).Written
      "\x7b\"name\":\"\\ud83d\\uDE00\"\x7d".toList :=
    .object (.member (.first blank_nil) (unitsWritten_plain (s := "name".toList) (by decide))
      blank_nil blank_nil (.text hemoji) (.close blank_nil))
  refine ⟨[], _, [], blank_nil, .object
    (.member (l := []) (v := [' ']) (w := [' ']) (.first blank_nil)
      (unitsWritten_plain (s := "ipBlocklist".toList) (by decide)) (by decide) (by decide)
      hblocklist
    (.member (.next (w := ['\n']) blank_nil (by decide))
      (unitsWritten_plain (s := "managedRules".toList) (by decide)) blank_nil blank_nil .null
    (.member (.next (w := [' ']) blank_nil (by decide))
      (unitsWritten_plain (s := "config".toList) (by decide)) blank_nil blank_nil hconfig
    (.close blank_nil)))), blank_nil, ?_⟩
  decide

/-- Members out of order, a `null`, an omitted default, blanks and a pair of escapes. -/
theorem Intents.ofJson_sampleText : sampleIntents.WrittenAs false sampleTree ∧
    sampleTree.IsText sampleText.toList ∧ Intents.ofJson sampleText = .ok sampleIntents :=
  ⟨sampleIntents_writtenAs, sampleTree_isText,
    Intents.ofJson_written sampleIntents_writtenAs sampleTree_isText⟩

end WebAcl
