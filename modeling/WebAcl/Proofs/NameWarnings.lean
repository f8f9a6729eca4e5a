import WebAcl.Proofs.NameLanguages
import WebAcl.Proofs.SharedNames
import WebAcl.Proofs.Verdict
import WebAcl.Proofs.WellFormed

/-! # Warnings about names

A build that finds rules with different names looks at every name before it goes on: that of the
list, that of its metric, and then the rules in the order of priority. A rule is reported before its
limit and its response body are checked, so the first defective rule is the last one that is looked
at (`Operation.Examined`). A rule's metric bears the name of the rule, and a rule name is a metric
name, hence a report about the metric always follows one about the rule (`Rule.nameEvents_of_metric`).

The main statement gives all events of a build: the warnings about names, what the provisioner
reports, and the completion. -/

namespace WebAcl

variable {σ : Type}

/-! ### What is to be reported -/

/-- The warnings about the name of a list and the name of its metric. -/
def Config.nameEvents (config : Config) : List Event :=
  (if Name.RuleName config.name then [] else [.nameDoubtful config.name .acl config.name]) ++
    if Name.MetricName config.visibility.metricName then []
    else [.nameDoubtful config.name .metric config.visibility.metricName]

theorem Config.exists_of_mem_nameEvents {config : Config} {event : Event}
    (h : event ∈ config.nameEvents) :
    ∃ kind value, kind ≠ .rule ∧ event = .nameDoubtful config.name kind value := by
  unfold nameEvents at h
  rcases List.mem_append.mp h with h | h
  · split_ifs at h
    · cases h
    · exact ⟨.acl, _, nofun, List.mem_singleton.mp h⟩
  · split_ifs at h
    · cases h
    · exact ⟨.metric, _, nofun, List.mem_singleton.mp h⟩

/-- The warnings about a rule: its name may be none for a rule, and then none for a metric. -/
def Rule.nameEvents (acl : String) (rule : Rule) : List Event :=
  (if Name.RuleName rule.name then [] else [.nameDoubtful acl .rule rule.name]) ++
    if Name.MetricName rule.name then [] else [.nameDoubtful acl .metric rule.name]

/-- A rule whose name is a rule name is not reported. -/
theorem Rule.nameEvents_eq_nil {acl : String} {rule : Rule} (h : Name.RuleName rule.name) :
    rule.nameEvents acl = [] := by
  rw [nameEvents, if_pos h, if_pos h.metricName]
  rfl

/-- **A metric is not reported without its rule**, and directly after it. -/
theorem Rule.nameEvents_of_metric {acl : String} {rule : Rule}
    (h : .nameDoubtful acl .metric rule.name ∈ rule.nameEvents acl) :
    rule.nameEvents acl =
      [.nameDoubtful acl .rule rule.name, .nameDoubtful acl .metric rule.name] := by
  have hrule : ¬ Name.RuleName rule.name := by
    intro hname
    rw [nameEvents_eq_nil hname] at h
    cases h
  by_cases hmetric : Name.MetricName rule.name
  · simp [nameEvents, hrule, hmetric] at h
  · simp [nameEvents, hrule, hmetric]

/-- A warning about a name. -/
def Event.isNameWarning : Event → Bool
  | .nameDoubtful .. => true
  | _ => false

theorem Config.filter_nameEvents (config : Config) :
    config.nameEvents.filter Event.isNameWarning = config.nameEvents := by
  unfold nameEvents
  split_ifs <;> rfl

theorem Rule.filter_nameEvents (acl : String) (rule : Rule) :
    (rule.nameEvents acl).filter Event.isNameWarning = rule.nameEvents acl := by
  unfold nameEvents
  split_ifs <;> rfl

/-- The rules that are looked at: all of them if none has a defect, and otherwise those up to the
first one that has. -/
inductive Operation.Examined (operations : List Operation) (rules : List Rule) :
    List Rule → Prop where
  | all (sound : ∀ rule ∈ rules, ∀ error, ¬ Defect operations rule error) :
      Examined operations rules rules
  | upTo {before after : List Rule} {rule : Rule} {error : AclError}
      (split : rules = before ++ rule :: after)
      (sound : ∀ earlier ∈ before, ∀ other, ¬ Defect operations earlier other)
      (defect : Defect operations rule error) : Examined operations rules (before ++ [rule])

theorem Operation.Examined.subset {operations : List Operation} {rules examined : List Rule}
    (h : Examined operations rules examined) : examined ⊆ rules := by
  cases h with
  | all sound => exact List.Subset.refl _
  | upTo split sound defect =>
    rw [split]
    exact List.append_subset.mpr ⟨List.subset_append_left _ _,
      List.cons_subset.mpr ⟨List.mem_append_right _ List.mem_cons_self, List.nil_subset _⟩⟩

/-- An error that is found before any name is looked at: there is no rule, or rules share a name. -/
inductive AclError.BeforeNames : AclError → Prop where
  | emptyRuleSet (acl : String) : BeforeNames (.emptyRuleSet acl)
  | duplicateRuleName (acl : String) (names : List String) :
      BeforeNames (.duplicateRuleName acl names)

theorem Operation.Defect.not_beforeNames {operations : List Operation} {rule : Rule}
    {error : AclError} (h : Defect operations rule error) : ¬ error.BeforeNames := by
  cases h <;> exact nofun

/-- A provisioner that refuses no IP set with an error that is found before names are looked at. -/
def Provisioner.LeavesChecks (create : Provisioner σ) : Prop :=
  ∀ error after, create.Refuses error after → ¬ error.BeforeNames

theorem Provisioner.OnlyRefuses.leavesChecks {create : Provisioner σ} (h : create.OnlyRefuses) :
    create.LeavesChecks := by
  intro error after hrefuses
  obtain ⟨reason, rfl⟩ := h.eq_provision hrefuses
  exact nofun

/-- The provisioner of a template refuses an IP set as such. -/
theorem Register.leavesChecks_create : Provisioner.LeavesChecks Register.create :=
  Register.onlyRefuses_create.leavesChecks

/-! ### The scan over the rules -/

section Scan

variable {α β : Type}

/-- The scan goes through the whole list or ends with the first entry that stops it. -/
theorem throughFirst_cases (stops : α → Bool) (as : List α) :
    (∀ a ∈ as, stops a = false) ∧ throughFirst stops as = as ∨
      ∃ before a after, as = before ++ a :: after ∧ (∀ b ∈ before, stops b = false) ∧
        stops a = true ∧ throughFirst stops as = before ++ [a] := by
  induction as with
  | nil => exact Or.inl ⟨nofun, rfl⟩
  | cons head as ih =>
    cases hhead : stops head with
    | true =>
      refine Or.inr ⟨[], head, as, rfl, nofun, hhead, ?_⟩
      rw [throughFirst, if_pos hhead]
      rfl
    | false =>
      have hstep : throughFirst stops (head :: as) = head :: throughFirst stops as :=
        if_neg (by simp [hhead])
      rcases ih with ⟨hall, hscan⟩ | ⟨before, a, after, rfl, hbefore, ha, hscan⟩
      · exact Or.inl ⟨List.forall_mem_cons.mpr ⟨hhead, hall⟩, by rw [hstep, hscan]⟩
      · exact Or.inr ⟨head :: before, a, after, rfl, List.forall_mem_cons.mpr ⟨hhead, hbefore⟩, ha,
          by rw [hstep, hscan]; rfl⟩

theorem throughFirst_map (stops : β → Bool) (f : α → β) (as : List α) :
    throughFirst stops (as.map f) = (throughFirst (fun a => stops (f a)) as).map f := by
  induction as with
  | nil => rfl
  | cons head as ih =>
    rw [List.map_cons, throughFirst, throughFirst, ih]
    split <;> rfl

end Scan

namespace Draft

open Operation

variable {draft : Draft} {config : Config} {operations : List Operation}

theorem nameWarning_rule (acl : String) (kind : NameKind) (name : String) :
    nameWarning acl kind Name.isRuleName name =
      if Name.RuleName name then [] else [.nameDoubtful acl kind name] :=
  if_congr Name.isRuleName_iff rfl rfl

theorem nameWarning_metric (acl : String) (kind : NameKind) (name : String) :
    nameWarning acl kind Name.isMetricName name =
      if Name.MetricName name then [] else [.nameDoubtful acl kind name] :=
  if_congr Name.isMetricName_iff rfl rfl

/-- The warnings about a rule that is asked for, whose metric bears its name. -/
theorem nameWarnings_of_mem_asked {arn acl : String} {rule : Rule}
    (h : rule ∈ asked config arn operations) : rule.nameWarnings acl = rule.nameEvents acl := by
  obtain ⟨queue, operation, -, hrule⟩ := mem_asked.mp h
  rw [Rule.nameWarnings, nameWarning_rule, nameWarning_metric, (fits_of_mem_rules hrule).metric,
    Rule.nameEvents]

/-- The scan stops at the first rule that has a defect. -/
theorem examined_throughFirst (rules : List Rule) : Examined operations rules
    (throughFirst (fun rule => (((new config).run operations).defect? rule).isSome) rules) := by
  have hsound : ∀ rule, (((new config).run operations).defect? rule).isSome = false →
      ∀ error, ¬ Defect operations rule error := fun rule hrule =>
    defect?_eq_none_iff.mp (Option.isSome_eq_false_iff.mp hrule |> Option.isNone_iff_eq_none.mp)
  rcases throughFirst_cases
    (fun rule => (((new config).run operations).defect? rule).isSome) rules with
    ⟨hall, hscan⟩ | ⟨before, rule, after, hsplit, hbefore, hrule, hscan⟩
  · rw [hscan]
    exact .all fun rule hmem => hsound rule (hall rule hmem)
  · obtain ⟨error, herror⟩ := Option.isSome_iff_exists.mp hrule
    rw [hscan]
    exact .upTo hsplit (fun earlier hmem => hsound earlier (hbefore earlier hmem))
      (defect?_eq_some.mp herror)

/-- **The review of a draft**, read off the operations. -/
theorem review_new (config : Config) (operations : List Operation) (arn : String) :
    ∃ examined, Examined operations (asked config arn operations) examined ∧
      ((new config).run operations).review =
        config.nameEvents ++ examined.flatMap (·.nameEvents config.name) := by
  have hexamined := @examined_throughFirst config operations (asked config arn operations)
  refine ⟨_, hexamined, ?_⟩
  have hscan : (throughFirst (fun rule => (((new config).run operations).defect? rule).isSome)
      ((new config).run operations).rules).flatMap (·.nameWarnings config.name) =
      (throughFirst (fun rule => (((new config).run operations).defect? rule).isSome)
        (asked config arn operations)).flatMap (·.nameWarnings config.name) := by
    rw [← map_withReference_rules_new config operations arn, throughFirst_map, List.flatMap_map]
    simp only [defect?_withReference]
    rfl
  have hnames : ∀ rules, rules ⊆ asked config arn operations →
      rules.flatMap (·.nameWarnings config.name) = rules.flatMap (·.nameEvents config.name) :=
    fun rules hsub => List.flatMap_congr fun rule hrule => nameWarnings_of_mem_asked (hsub hrule)
  rw [review, config_new, hscan, hnames _ hexamined.subset, nameWarning_rule, nameWarning_metric,
    Config.nameEvents]

/-! ### Whether names are looked at -/

theorem buildWarnings_of_nil (h : draft.rules = []) : draft.buildWarnings = [] := by
  rw [buildWarnings, h]
  rfl

theorem buildWarnings_of_not_nodup (h : ¬ (draft.rules.map (·.name)).Nodup) :
    draft.buildWarnings = [] := by
  rw [buildWarnings]
  split
  · rfl
  · split
    · next hnil => exact absurd (repeatedNames_eq_nil.mp hnil) h
    · rfl

theorem buildWarnings_of_nodup (hne : draft.rules ≠ [])
    (hnodup : (draft.rules.map (·.name)).Nodup) : draft.buildWarnings = draft.review := by
  rw [buildWarnings, if_neg (by simpa using hne), repeatedNames_eq_nil.mpr hnodup]

/-- A build fails without a look at names, and without a call. -/
def Unreviewed (draft : Draft) (create : Provisioner σ) (state : σ) : Prop :=
  draft.calls create state = [] ∧
    ∃ error, error.BeforeNames ∧ (draft.build create state).result = .error error

/-- An error that comes without a call is a configuration error. -/
theorem configurationError?_of_calls {create : Provisioner σ} {state : σ} {error : AclError}
    (hcalls : ((new config).run operations).calls create state = [])
    (h : (((new config).run operations).build create state).result = .error error) :
    ((new config).run operations).configurationError? = some error := by
  rcases build_error h with hconf | ⟨hconf, addresses, hres, -⟩
  · exact hconf
  · rw [calls_new hconf, hres] at hcalls
    cases hcalls

theorem unreviewed_iff (config : Config) (operations : List Operation) (create : Provisioner σ)
    (state : σ) : ((new config).run operations).Unreviewed create state ↔
      ((new config).run operations).rules = [] ∨
        ¬ (((new config).run operations).rules.map (·.name)).Nodup := by
  constructor
  · rintro ⟨hcalls, error, hbefore, hresult⟩
    by_contra hreviewed
    obtain ⟨hne, hnodup⟩ := not_or.mp hreviewed
    -- without either cause an error of the checks is the defect of a rule
    have hfirst := configurationError?_of_calls hcalls hresult
    rw [configurationError?_of_nodup hne (not_not.mp hnodup)] at hfirst
    obtain ⟨rule, -, hrule⟩ := List.exists_of_findSome?_eq_some hfirst
    exact (defect?_eq_some.mp hrule).not_beforeNames hbefore
  · intro hcause
    obtain ⟨error, hbefore, hconf⟩ : ∃ error, error.BeforeNames ∧
        ((new config).run operations).configurationError? = some error := by
      rcases hcause with hnil | hdup
      · exact ⟨_, .emptyRuleSet _, configurationError?_of_nil hnil⟩
      · exact ⟨_, .duplicateRuleName _ _, configurationError?_of_not_nodup hdup⟩
    exact ⟨calls_of_configurationError hconf create state, error, hbefore,
      congrArg Outcome.result (build_of_configurationError hconf create state)⟩

/-- An error of this kind is found before any call, unless a provisioner makes it up. -/
theorem unreviewed_of_leavesChecks {create : Provisioner σ} (leaves : create.LeavesChecks)
    {state : σ} {error : AclError} (hbefore : error.BeforeNames)
    (h : (((new config).run operations).build create state).result = .error error) :
    ((new config).run operations).Unreviewed create state := by
  rcases build_error h with hconf | ⟨-, addresses, -, hcreate⟩
  · exact ⟨calls_of_configurationError hconf create state, error, hbefore, h⟩
  · exact absurd hbefore (leaves error _ ⟨_, _, hcreate, rfl⟩)

/-! ### All events of a build -/

/-- The completion of a build, if it has a result. -/
def completion (draft : Draft) : Except AclError Acl → List Event
  | .ok _ => [draft.completed]
  | .error _ => []

/-- What the provisioner reports while a draft is built. -/
def provided (draft : Draft) (create : Provisioner σ) (state : σ) : List Event :=
  (draft.calls create state).flatMap fun call => (create call.spec state).events

/-- **The events of a build**: the warnings, what the provisioner reports, and the completion. -/
theorem events_build_new (config : Config) (operations : List Operation) (create : Provisioner σ)
    (state : σ) : (((new config).run operations).build create state).events =
      ((new config).run operations).buildWarnings ++
        (((new config).run operations).provided create state ++
          ((new config).run operations).completion
            (((new config).run operations).build create state).result) := by
  cases hconf : ((new config).run operations).configurationError? with
  | some error =>
    rw [provided, calls_of_configurationError hconf, build_of_configurationError hconf]
    exact (List.append_nil _).symm
  | none =>
    rw [provided, calls_new hconf, build_new hconf]
    dsimp only
    refine congrArg _ ?_
    rcases restrictions_cases hconf with hres | ⟨addresses, hres⟩
    · rw [hres]
      rfl
    · rw [hres, List.map_singleton, List.flatMap_singleton, supplied, config_new]
      simp only
      cases (create (blocklistSpec config addresses) state).result with
      | error error => exact (List.append_nil _).symm
      | ok arn => rfl

theorem filter_completion (draft : Draft) (result : Except AclError Acl) :
    (draft.completion result).filter Event.isNameWarning = [] := by
  cases result <;> rfl

theorem events_of_unreviewed {create : Provisioner σ} {state : σ}
    (h : ((new config).run operations).Unreviewed create state) :
    (((new config).run operations).build create state).events = [] := by
  have hwarnings : ((new config).run operations).buildWarnings = [] := by
    rcases (unreviewed_iff ..).mp h with hnil | hdup
    · exact buildWarnings_of_nil hnil
    · exact buildWarnings_of_not_nodup hdup
  obtain ⟨hcalls, error, -, hresult⟩ := h
  rw [events_build_new, hwarnings, provided, hcalls, hresult]
  rfl

/-- **The warnings about names.** A build that fails since there is no rule or since rules share a name
gives none. Every other build, whatever becomes of it, reports the name of the list, the name of its
metric, and each rule up to the first defective one; what else happens is what the provisioner
reports and the completion. A rule's metric is reported directly after the rule or not at all.

Nothing but a call can make a build fail with one of these two errors after names are looked at, and
then the provisioner itself answers with it. -/
theorem name_warnings (config : Config) (operations : List Operation) (create : Provisioner σ)
    (state : σ) (arn : String) :
    (((new config).run operations).Unreviewed create state →
      (((new config).run operations).build create state).events = []) ∧
    (create.LeavesChecks → ∀ error, error.BeforeNames →
      (((new config).run operations).build create state).result = .error error →
      (((new config).run operations).build create state).events = []) ∧
    (¬ ((new config).run operations).Unreviewed create state →
      ∃ examined, Examined operations (asked config arn operations) examined ∧
        (((new config).run operations).build create state).events =
          (config.nameEvents ++ examined.flatMap (·.nameEvents config.name)) ++
            (((new config).run operations).provided create state ++
              ((new config).run operations).completion
                (((new config).run operations).build create state).result) ∧
        (((new config).run operations).build create state).events.filter Event.isNameWarning =
          (config.nameEvents ++ examined.flatMap (·.nameEvents config.name)) ++
            (((new config).run operations).provided create state).filter Event.isNameWarning) ∧
    ∀ acl rule, .nameDoubtful acl .metric rule.name ∈ Rule.nameEvents acl rule →
      Rule.nameEvents acl rule =
        [.nameDoubtful acl .rule rule.name, .nameDoubtful acl .metric rule.name] := by
  refine ⟨events_of_unreviewed, fun leaves error hbefore herror => ?_, fun hreviewed => ?_,
    fun acl rule => Rule.nameEvents_of_metric⟩
  · exact events_of_unreviewed (unreviewed_of_leavesChecks leaves hbefore herror)
  · rw [unreviewed_iff, not_or, not_not] at hreviewed
    obtain ⟨examined, hexamined, hreview⟩ := review_new config operations arn
    have hevents := events_build_new config operations create state
    rw [buildWarnings_of_nodup hreviewed.1 hreviewed.2, hreview] at hevents
    refine ⟨examined, hexamined, hevents, ?_⟩
    rw [hevents]
    simp only [List.filter_append, List.filter_flatMap, Config.filter_nameEvents,
      Rule.filter_nameEvents, filter_completion, List.append_nil]

/-- A list without rules is not looked at, whatever its name. Once it has rules it is reported, and so is
the rule whose name is none for a rule nor for a metric. -/
theorem name_warnings_of_doubtful_list : ∃ (operations : List Operation) (rule : Rule),
    operations = [.ipRestriction ["192.0.2.0/24"], .throttle "a b" 5 .absent .ip .count] ∧
    rule = Throttle.rule "a b" 5 .absent .ip .count "digitraffic-user" ∧
    Provisioner.LeavesChecks Register.create ∧
    ((new (.named "bad name!")).run []).Unreviewed Register.create [] ∧
    (((new (.named "bad name!")).run []).build Register.create []).events = [] ∧
    ¬ ((new (.named "bad name!")).run operations).Unreviewed Register.create [] ∧
    (∃ examined, Examined operations (asked (.named "bad name!") "" operations) examined ∧
      (Config.named "bad name!").nameEvents ++ examined.flatMap (·.nameEvents "bad name!") =
        [.nameDoubtful "bad name!" .acl "bad name!", .nameDoubtful "bad name!" .rule "a b",
          .nameDoubtful "bad name!" .metric "a b"]) ∧
    rule.nameEvents "bad name!" =
      [.nameDoubtful "bad name!" .rule "a b", .nameDoubtful "bad name!" .metric "a b"] := by
  obtain ⟨operations, hoperations⟩ : ∃ operations : List Operation, operations =
    [.ipRestriction ["192.0.2.0/24"], .throttle "a b" 5 .absent .ip .count] := ⟨_, rfl⟩
  have hresult : (((new (.named "bad name!")).run []).build Register.create []).result =
      .error (.emptyRuleSet "bad name!") := rfl
  obtain ⟨-, hleaves, -, -⟩ := name_warnings (.named "bad name!") [] Register.create [] ""
  obtain ⟨-, -, hlooked, hmetric⟩ :=
    name_warnings (.named "bad name!") operations Register.create [] ""
  have hreviewed : ¬ ((new (.named "bad name!")).run operations).Unreviewed Register.create [] := by
    rw [unreviewed_iff, hoperations]
    decide +kernel
  -- the provisioner of a template reports no name
  have hprovided : (provided ((new (.named "bad name!")).run operations) Register.create []).filter
      Event.isNameWarning = [] := by
    rw [hoperations]
    decide +kernel
  obtain ⟨examined, hexamined, -, hwarnings⟩ := hlooked hreviewed
  rw [hprovided, List.append_nil] at hwarnings
  refine ⟨operations, _, hoperations, rfl, Register.leavesChecks_create,
    ⟨rfl, _, .emptyRuleSet _, hresult⟩,
    hleaves Register.leavesChecks_create _ (.emptyRuleSet _) hresult, hreviewed,
    ⟨examined, hexamined, hwarnings.symm.trans ?_⟩, hmetric _ _ (by decide +kernel)⟩
  rw [hoperations]
  decide +kernel

/-- A provisioner may say of a list with a rule that it has none. The build hands this error on, behind
the warning about the name of the list. -/
theorem emptyRuleSet_behind_warning : ∃ (draft : Draft) (create : Provisioner Unit),
    draft = (new (.named "bad name!")).run [.ipRestriction ["192.0.2.0/24"]] ∧
    create = (fun _ _ => ⟨.error (.emptyRuleSet "bad name!"), (), []⟩) ∧
    (draft.build create ()).result = .error (.emptyRuleSet "bad name!") ∧
    (draft.build create ()).events = [.nameDoubtful "bad name!" .acl "bad name!"] ∧
    (draft.calls create ()).length = 1 ∧ ¬ create.LeavesChecks := by
  refine ⟨_, _, rfl, rfl, rfl, by decide +kernel, by decide +kernel, fun leaves => ?_⟩
  exact leaves (.emptyRuleSet "bad name!") ()
    ⟨blocklistSpec (.named "bad name!") [], (), rfl, rfl⟩ (.emptyRuleSet _)

/-- The list is reported for its name and a rule for both of its names; the next rule has no limit, so
the one behind it is not looked at. -/
example : (((new (.named "")).run [.throttle "hits/day" 5 .absent .ip .count,
      .throttle "a b" 5 .absent .ip .count, .throttle "idle" 0 .absent .ip .count,
      .throttle "c d" 5 .absent .ip .count]).build Register.create []).events =
    [.nameDoubtful "" .acl "", .nameDoubtful "" .rule "hits/day", .nameDoubtful "" .rule "a b",
      .nameDoubtful "" .metric "a b"] := by decide +kernel

end Draft

end WebAcl
