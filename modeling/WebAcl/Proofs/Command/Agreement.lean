import WebAcl.Proofs.Renderings
import WebAcl.Proofs.Command.Asking
import WebAcl.Proofs.Command.Files

/-! # Tasks on one file

All tasks on a file do the same until there is a template: they load the document and build its
rules, and if either goes wrong they end with the same report. What is left to do with a template is
different, and goes wrong only where a file is written or should have been named.

* `Fails`: the report of a file that has no template.
* `tasks_agree`: what the tasks on a file have to do with each other. -/

namespace WebAcl.Command

/-! ### Templates of files -/

variable {path : String} {contents : Except FileFault ByteArray} {report : Report}
  {template : Template}

/-- Why a file has no template: the document cannot be loaded, or it can and its rules cannot be
built. -/
inductive Fails (path : String) (contents : Except FileFault ByteArray) : Report → Prop
  | load {error : AclError} (h : loadIntents contents = .error error) :
    Fails path contents (.ofError ("加载意图文档失败：" ++ path) error)
  | build {intents : Intents} {error : AclError} (hload : loadIntents contents = .ok intents)
      (hbuild : intents.template.result = .error error) :
    Fails path contents (.ofError "Web ACL 构建失败" error)

theorem loadTemplate_eq_error : loadTemplate path contents = .error report ↔
    Fails path contents report := by
  unfold loadTemplate
  constructor
  · intro h
    cases hload : loadIntents contents with
    | error error =>
      rw [hload] at h
      exact Except.error.inj h ▸ .load hload
    | ok intents =>
      cases hbuild : intents.template.result with
      | error error =>
        simp only [hload, hbuild] at h
        exact Except.error.inj h ▸ .build hload hbuild
      | ok template =>
        simp only [hload, hbuild] at h
        cases h
  · rintro (hload | ⟨hload, hbuild⟩)
    · simp only [hload]
    · simp only [hload, hbuild]

/-- A file has a template or fails with a report. -/
theorem loadTemplate_cases (path : String) (contents : Except FileFault ByteArray) :
    (∃ report, Fails path contents report) ∨
      ∃ template, loadTemplate path contents = .ok template := by
  cases h : loadTemplate path contents with
  | error report => exact Or.inl ⟨report, loadTemplate_eq_error.mp h⟩
  | ok template => exact Or.inr ⟨template, rfl⟩

theorem not_fails_of_template (h : loadTemplate path contents = .ok template) :
    ¬ Fails path contents report := by
  rw [← loadTemplate_eq_error, h]
  exact nofun

/-! ### Runs -/

section

variable {files : FileStore} {arguments : List String} {task : Task}

theorem run_of_asks (h : Asks arguments task) : run files arguments = Run.ofTask files task := by
  have hrequest : Request.ofArguments? arguments = some (.run task) := h
  rw [run, hrequest]

/-- Without a template, every task ends with the report of its file. -/
theorem run_of_fails (h : Asks arguments task)
    (hfails : Fails task.intents (files.read task.intents) report) :
    run files arguments = ⟨1, "", some report, files⟩ := by
  rw [run_of_asks h, Run.ofTask, Task.answer, loadTemplate_eq_error.mpr hfails]
  rfl

variable (h : Asks arguments task)
  (htemplate : loadTemplate task.intents (files.read task.intents) = .ok template)
include h htemplate

theorem run_of_effect {effect : Effect} (heffect : task.effect template = .ok effect) :
    run files arguments = Run.ofEffect files effect := by
  rw [run_of_asks h, Run.ofTask, Task.answer, htemplate]
  simp only [heffect]

theorem run_of_no_effect (heffect : task.effect template = .error report) :
    run files arguments = ⟨1, "", some report, files⟩ := by
  rw [run_of_asks h, Run.ofTask, Task.answer, htemplate]
  simp only [heffect]
  rfl

end

/-- The lines of a table. -/
theorem table_eq (template : Template) : table template =
    template.acl.name ++ " (" ++ template.acl.scope.label ++ ")\n" ++
      String.join (template.acl.rules.map (·.row ++ "\n")) ++
        (Text.decimal template.acl.rules.length ++ " rules, " ++
          Text.decimal template.acl.bodies.size ++ " custom response bodies, " ++
            Text.decimal template.ipSets.length ++ " IP sets\n") := by
  have hheading : ")\n" = ")" ++ "\n" := rfl
  have hcounts : " IP sets\n" = " IP sets" ++ "\n" := rfl
  simp [table, hheading, hcounts, String.append_assoc, Function.comp_def]

/-- What the tasks on a file have to do with each other, whichever command lines ask for them. There
are such command lines for every task in which no path is empty (`exists_asks_iff`). -/
structure TasksAgree (files : FileStore) (path : String) : Prop where
  /-- The rules are listed if and only if the template is printed; otherwise both end with the same
  report and print nothing. -/
  alike : ∀ (lines : Bool) {checking rendering : List String}, Asks checking (.check path) →
    Asks rendering (.render path none .json lines) →
      ((run files checking).exitCode = 0 ∧ (run files rendering).exitCode = 0) ∨
        ∃ report, run files checking = ⟨1, "", some report, files⟩ ∧
          run files rendering = ⟨1, "", some report, files⟩
  /-- The list is that of the one template whose rendering is printed: its name, its rules in order
  and its counts. -/
  listed : ∀ (lines : Bool) {checking rendering : List String}, Asks checking (.check path) →
    Asks rendering (.render path none .json lines) → (run files checking).exitCode = 0 →
      ∃ template : Template,
        (∀ other : Template,
          (run files rendering).output = other.toJson lines ++ "\n" ↔ other = template) ∧
        (run files checking).output =
          template.acl.name ++ " (" ++ template.acl.scope.label ++ ")\n" ++
            String.join (template.acl.rules.map (·.row ++ "\n")) ++
              (Text.decimal template.acl.rules.length ++ " rules, " ++
                Text.decimal template.acl.bodies.size ++ " custom response bodies, " ++
                  Text.decimal template.ipSets.length ++ " IP sets\n")
  /-- A rendering that is written is the one that is printed, less the end of the line. -/
  written : ∀ (target : String) (lines : Bool) {writing printing : List String},
    Asks writing (.render path (some target) .json lines) →
      Asks printing (.render path none .json lines) → (run files writing).exitCode = 0 →
        ∃ text : String, (run files printing).exitCode = 0 ∧
          (run files printing).output = text ++ "\n" ∧
            (run files writing).files.read target = .ok text.toByteArray
  /-- No task touches a file if there is no template. -/
  untouched : ∀ (task : Task) {arguments : List String} {report : Report}, Asks arguments task →
    task.intents = path → Fails path (files.read path) report →
      run files arguments = ⟨1, "", some report, files⟩
  /-- MessagePack is never printed; that a file should have been named is reported only if there is
  nothing else to report. -/
  unprinted : ∀ (lines : Bool) {arguments : List String},
    Asks arguments (.render path none .messagePack lines) →
      ∃ report, run files arguments = ⟨1, "", some report, files⟩ ∧
        (Fails path (files.read path) report ∨
          (∀ other, ¬ Fails path (files.read path) other) ∧
            report = ⟨"msgpack 格式必须通过 --output 指定输出文件", []⟩)

/-- **Tasks on one file agree**, whatever is in the file and whether or not it is there. -/
theorem tasks_agree (files : FileStore) (path : String) : TasksAgree files path where
  alike lines _ _ hchecking hrendering := by
    obtain ⟨report, hfails⟩ | ⟨template, htemplate⟩ := loadTemplate_cases path (files.read path)
    · exact Or.inr ⟨report, run_of_fails hchecking hfails, run_of_fails hrendering hfails⟩
    · refine Or.inl ⟨?_, ?_⟩
      · rw [run_of_effect hchecking htemplate rfl, Run.ofEffect, Run.printed]
      · rw [run_of_effect hrendering htemplate rfl, Run.ofEffect, Run.printed]
  listed lines _ _ hchecking hrendering hzero := by
    obtain ⟨report, hfails⟩ | ⟨template, htemplate⟩ := loadTemplate_cases path (files.read path)
    · rw [run_of_fails hchecking hfails] at hzero
      cases hzero
    · refine ⟨template, fun other => ?_, ?_⟩
      · rw [run_of_effect hrendering htemplate rfl]
        change template.toJson lines ++ "\n" = other.toJson lines ++ "\n" ↔ _
        rw [String.append_left_inj, Template.toJson_inj, eq_comm]
      · rw [run_of_effect hchecking htemplate rfl]
        exact table_eq template
  written target lines _ _ hwriting hprinting hzero := by
    obtain ⟨report, hfails⟩ | ⟨template, htemplate⟩ := loadTemplate_cases path (files.read path)
    · rw [run_of_fails hwriting hfails] at hzero
      cases hzero
    · rw [run_of_effect hprinting htemplate rfl]
      rw [run_of_effect hwriting htemplate rfl, Run.ofEffect] at hzero ⊢
      refine ⟨template.toJson lines, rfl, rfl, ?_⟩
      cases hwrite : files.write target (template.toJson lines).toByteArray with
      | error fault =>
        rw [hwrite] at hzero
        cases hzero
      | ok after => exact FileStore.read_write hwrite
  untouched task _ _ h hpath hfails := run_of_fails h (hpath ▸ hfails)
  unprinted lines _ h := by
    obtain ⟨report, hfails⟩ | ⟨template, htemplate⟩ := loadTemplate_cases path (files.read path)
    · exact ⟨report, run_of_fails h hfails, Or.inl hfails⟩
    · exact ⟨_, run_of_no_effect h htemplate rfl,
        Or.inr ⟨fun other => not_fails_of_template htemplate, rfl⟩⟩

/-- A document without rules: that a file should have been named is not what is reported. -/
example : (run ⟨[(["acl.json"], "\x7b\x7d".toByteArray)]⟩
    ["render", "--format", "msgpack", "acl.json"]).report =
      some ⟨"Web ACL 构建失败", ["Web ACL WebACL 未定义任何规则"]⟩ := by decide +kernel

end WebAcl.Command
