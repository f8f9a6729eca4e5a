import WebAcl.Command.Run

/-! # Asking for tasks

A task is asked for by many command lines: options may stand anywhere, and their values may be
attached. Whichever it is, no path in the task is empty, since an empty path is refused as soon as it
is read. Any other task can be asked for.

* `Asks`: a command line asks for a task.
* `exists_asks_iff`: a task can be asked for if and only if no path in it is empty. -/

namespace WebAcl.Command

/-- A command line asks for a task. -/
def Asks (arguments : List String) (task : Task) : Prop :=
  Request.ofArguments? arguments = some (.run task)

instance (arguments : List String) (task : Task) : Decidable (Asks arguments task) :=
  inferInstanceAs (Decidable (_ = _))

/-- The file that a task writes. -/
def Task.output? : Task → Option String
  | .render _ output _ _ => output
  | .check _ => none

/-! ### Paths that were read -/

/-- The paths given so far are not empty. -/
structure Settings.NamesFiles (settings : Settings) : Prop where
  intents : settings.intents ≠ some ""
  output : settings.output ≠ some ""

/-- The paths in a task are not empty. -/
structure Task.NamesFiles (task : Task) : Prop where
  intents : task.intents ≠ ""
  output : task.output? ≠ some ""

namespace Settings.NamesFiles

variable {settings after : Settings} {place : Place} {task : Task}

theorem initial : Settings.initial.NamesFiles := ⟨nofun, nofun⟩

/-- An option keeps the file of the task, and gives a path to write only if it is not empty. -/
theorem accept? {switch : Switch} {value : String} (hnames : settings.NamesFiles)
    (h : settings.accept? switch value = some after) : after.NamesFiles := by
  unfold Settings.accept? at h
  split at h
  · cases h
  · cases switch with
    | output =>
      obtain ⟨hvalue, rfl⟩ : value ≠ "" ∧ _ = after := by simpa using h
      exact ⟨hnames.intents, by simpa using hvalue⟩
    | format =>
      simp only at h
      split at h
      · exact Option.some.inj h ▸ ⟨hnames.intents, hnames.output⟩
      · split at h
        · exact Option.some.inj h ▸ ⟨hnames.intents, hnames.output⟩
        · cases h
    | logLevel | pretty | help | version =>
      exact Option.some.inj h ▸ ⟨hnames.intents, hnames.output⟩

theorem file? {path : String} (hnames : settings.NamesFiles)
    (h : settings.file? path = some after) : after.NamesFiles := by
  unfold Settings.file? at h
  split at h
  · cases h
  · next hpath =>
    have hempty : path ≠ "" := fun heq => hpath (by simp [heq])
    exact Option.some.inj h ▸ ⟨by simpa using hempty, hnames.output⟩

theorem request? (hnames : settings.NamesFiles)
    (h : settings.request? place = some (.run task)) : task.NamesFiles := by
  unfold Settings.request? at h
  split at h
  · next path hpath =>
    cases h
    exact ⟨fun heq => hnames.intents (hpath.trans (congrArg some heq)), hnames.output⟩
  · next path hpath =>
    cases h
    exact ⟨fun heq => hnames.intents (hpath.trans (congrArg some heq)), nofun⟩
  · cases h

theorem ofWords? {words : List String} (hnames : settings.NamesFiles)
    (h : ofWords? place settings words = some (.run task)) : task.NamesFiles := by
  induction words generalizing settings with
  | nil => exact hnames.request? h
  | cons word words ih =>
    obtain ⟨next, hfile, hrest⟩ := Option.bind_eq_some_iff.mp h
    exact ih (hnames.file? hfile) hrest

/-- The paths are kept from being empty argument by argument, so those of the task are not. -/
theorem ofTaskArguments? {arguments : List String} (hnames : settings.NamesFiles)
    (h : ofTaskArguments? place settings arguments = some (.run task)) : task.NamesFiles := by
  fun_induction Command.ofTaskArguments? place settings arguments with
  | case1 => exact hnames.request? h
  | case2 settings argument arguments word _ ih =>
    obtain ⟨next, hfile, hrest⟩ := Option.bind_eq_some_iff.mp h
    exact ih next (hnames.file? hfile) hrest
  | case3 => exact hnames.ofWords? h
  -- an option with its value attached, with its value behind it, and without a value
  | case7 _ _ _ _ _ _ _ _ ih | case10 _ _ _ _ _ _ _ _ _ ih | case12 _ _ _ _ _ _ _ ih =>
    obtain ⟨next, haccept, hrest⟩ := Option.bind_eq_some_iff.mp h
    exact ih next (hnames.accept? haccept) hrest
  | case4 | case5 | case6 | case8 | case9 | case11 => cases h

end Settings.NamesFiles

theorem Task.NamesFiles.of_ofTopArguments? {levelGiven : Bool} {arguments : List String} {task : Task}
    (h : ofTopArguments? levelGiven arguments = some (.run task)) : task.NamesFiles := by
  fun_induction ofTopArguments? levelGiven arguments with
  | case2 | case3 => exact Settings.NamesFiles.initial.ofTaskArguments? h
  -- the log level, with its value attached and with its value behind it
  | case13 _ _ _ _ _ _ _ _ _ ih | case16 _ _ _ _ _ _ _ _ _ ih => exact ih h
  | _ => cases h

/-! ### One command line for each task -/

/-- The word for a form. -/
def Format.label : Format → String
  | .json => "json"
  | .messagePack => "msgpack"

/-- A command line that asks for a task: the options with their values attached, then the file. -/
def Task.arguments : Task → List String
  | .render intents output format lines =>
    ["render"] ++ (output.map ("--output=" ++ ·)).toList ++ ["--format=" ++ format.label] ++
      (if lines then ["--pretty"] else []) ++ ["--", intents]
  | .check intents => ["check", "--", intents]

theorem ofArgument_output (path : String) :
    Token.ofArgument .render ("--output=" ++ path) = .switch .output (some path) := by
  simp only [Token.ofArgument, Token.ofLong, String.toList_append]
  simp
  rfl

theorem ofArgument_format (format : Format) :
    Token.ofArgument .render ("--format=" ++ format.label) = .switch .format (some format.label) := by
  cases format <;> rfl

section

variable {place : Place} {settings : Settings} {arguments : List String}

theorem ofTaskArguments?_output {path : String} (hnew : .output ∉ settings.given)
    (hpath : path ≠ "") : ofTaskArguments? .render settings (("--output=" ++ path) :: arguments) =
      ofTaskArguments? .render
        { settings with output := some path, given := .output :: settings.given } arguments := by
  simp [ofTaskArguments?, ofArgument_output, Switch.hasValue, Settings.accept?, hnew, hpath]

theorem ofTaskArguments?_format {format : Format} (hnew : .format ∉ settings.given) :
    ofTaskArguments? .render settings (("--format=" ++ format.label) :: arguments) =
      ofTaskArguments? .render
        { settings with format, given := .format :: settings.given } arguments := by
  rw [ofTaskArguments?, ofArgument_format]
  cases format <;> simp [Switch.hasValue, Settings.accept?, hnew, Format.label]

theorem ofTaskArguments?_pretty (hnew : .pretty ∉ settings.given) :
    ofTaskArguments? .render settings ("--pretty" :: arguments) =
      ofTaskArguments? .render { settings with given := .pretty :: settings.given } arguments := by
  have hargument : Token.ofArgument .render "--pretty" = .switch .pretty none := rfl
  simp [ofTaskArguments?, hargument, Switch.hasValue, Settings.accept?, hnew]

theorem ofTaskArguments?_end {path : String} (hsettings : settings.intents = none)
    (hpath : path ≠ "") : ofTaskArguments? place settings ["--", path] =
      { settings with intents := some path }.request? place := by
  have hargument : Token.ofArgument place "--" = .endOfSwitches := rfl
  simp [ofTaskArguments?, hargument, ofWords?, Settings.file?, hsettings, hpath]

end

theorem asks_arguments {task : Task} (h : task.NamesFiles) : Asks task.arguments task := by
  obtain ⟨hintents, houtput⟩ := h
  cases task with
  | check intents => exact ofTaskArguments?_end rfl hintents
  | render intents output format lines =>
    change intents ≠ "" at hintents
    change output ≠ some "" at houtput
    have hbegin : Request.ofArguments? (Task.render intents output format lines).arguments =
        ofTaskArguments? .render .initial ((output.map ("--output=" ++ ·)).toList ++
          ["--format=" ++ format.label] ++ (if lines then ["--pretty"] else []) ++
            ["--", intents]) := rfl
    rw [Asks, hbegin]
    cases output with
    | none =>
      cases lines <;> simp [Settings.initial, Settings.request?, ofTaskArguments?_format,
        ofTaskArguments?_pretty, ofTaskArguments?_end, hintents]
    | some path =>
      have hpath : path ≠ "" := by simpa using houtput
      cases lines <;> simp [Settings.initial, Settings.request?, ofTaskArguments?_output,
        ofTaskArguments?_format, ofTaskArguments?_pretty, ofTaskArguments?_end, hintents, hpath]

/-- **A task can be asked for if and only if no path in it is empty.** -/
theorem exists_asks_iff {task : Task} : (∃ arguments, Asks arguments task) ↔ task.NamesFiles :=
  ⟨fun ⟨_, h⟩ => .of_ofTopArguments? h, fun h => ⟨task.arguments, asks_arguments h⟩⟩

end WebAcl.Command
