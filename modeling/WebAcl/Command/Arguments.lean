/-! # Arguments

What a user asks for. Options may stand before or behind the file, a value follows its option or is
attached to it, and two hyphens end the options. Everything else is refused: options nobody knows,
options given twice, values that are missing or unknown, and files too many or too few.

* `Request.ofArguments?`: the request of a command line. -/

namespace WebAcl.Command

/-- The form of a rendering. -/
inductive Format where
  | json
  | messagePack
  deriving DecidableEq

/-- What is done with a document. -/
inductive Task where
  /-- The template of the document is rendered, to a file or to the screen. -/
  | render (intents : String) (output : Option String) (format : Format) (lines : Bool)
  /-- The rules of the document are listed. -/
  | check (intents : String)
  deriving DecidableEq

/-- What a user asks for. -/
inductive Request where
  | run (task : Task)
  | version
  | help
  deriving DecidableEq

/-- Where arguments are read: before the name of a task, or behind it. -/
inductive Place where
  | top
  | render
  | check
  deriving DecidableEq

/-- An option. -/
inductive Switch where
  | logLevel
  | output
  | format
  | pretty
  | help
  | version
  deriving DecidableEq

/-- Whether a value belongs to an option. -/
def Switch.hasValue : Switch → Bool
  | .logLevel | .output | .format => true
  | .pretty | .help | .version => false

/-- The long names of the options at a place. -/
def Place.longNames : Place → List (String × Switch)
  | .top => [("log-level", .logLevel), ("help", .help), ("version", .version)]
  | .render =>
    [("log-level", .logLevel), ("output", .output), ("format", .format), ("pretty", .pretty),
      ("help", .help)]
  | .check => [("log-level", .logLevel), ("help", .help)]

/-- The one-letter names of the options at a place. -/
def Place.shortNames : Place → List (Char × Switch)
  | .top => [('h', .help), ('V', .version)]
  | .render => [('o', .output), ('h', .help)]
  | .check => [('h', .help)]

/-- What an argument is. -/
inductive Token where
  | word (text : String)
  | switch (switch : Switch) (attached : Option String)
  | endOfSwitches
  | unknown
  deriving DecidableEq

namespace Token

/-- The option of a long name and a value that may be attached by an equals sign. -/
def ofLong (place : Place) (text : List Char) : Token :=
  let name := String.ofList (text.takeWhile (· ≠ '='))
  let attached :=
    match text.dropWhile (· ≠ '=') with
    | _ :: value => some (String.ofList value)
    | [] => none
  match place.longNames.lookup name with
  | some found => .switch found attached
  | none => .unknown

/-- The option of a letter and a value that may be attached, with or without an equals sign. A
letter that asks for help or the version is answered whatever follows it. -/
def ofShort (place : Place) (letter : Char) (rest : List Char) : Token :=
  match place.shortNames.lookup letter with
  | none => .unknown
  | some found =>
    if found.hasValue then
      match rest with
      | [] => .switch found none
      | '=' :: value => .switch found (some (String.ofList value))
      | value => .switch found (some (String.ofList value))
    else .switch found none

/-- What an argument is at a place. A hyphen alone is a word. -/
def ofArgument (place : Place) (argument : String) : Token :=
  match argument.toList with
  | ['-', '-'] => .endOfSwitches
  | '-' :: '-' :: text => ofLong place text
  | '-' :: letter :: rest => ofShort place letter rest
  | _ => .word argument

/-- Whether an argument is a word. -/
def isWord (place : Place) (argument : String) : Bool :=
  match ofArgument place argument with
  | .word _ => true
  | _ => false

end Token

/-- What was given so far behind the name of a task. -/
structure Settings where
  intents : Option String
  output : Option String
  format : Format
  given : List Switch

namespace Settings

/-- Nothing. -/
def initial : Settings := ⟨none, none, .json, []⟩

/-- The settings with an option and its value. -/
def accept? (settings : Settings) (switch : Switch) (value : String) : Option Settings :=
  if switch ∈ settings.given then none
  else
    let settings := { settings with given := switch :: settings.given }
    match switch with
    | .output => if value = "" then none else some { settings with output := some value }
    | .format =>
      if value = "json" then some { settings with format := .json }
      else if value = "msgpack" then some { settings with format := .messagePack }
      else none
    | _ => some settings

/-- The settings with a file. -/
def file? (settings : Settings) (path : String) : Option Settings :=
  if settings.intents.isSome || path = "" then none else some { settings with intents := some path }

/-- The request of the settings, if a file was given. -/
def request? (place : Place) (settings : Settings) : Option Request :=
  match settings.intents, place with
  | some intents, .render =>
    some (.run (.render intents settings.output settings.format (.pretty ∈ settings.given)))
  | some intents, .check => some (.run (.check intents))
  | _, _ => none

end Settings

/-- The request of the words behind the end of the options. -/
def ofWords? (place : Place) : Settings → List String → Option Request
  | settings, [] => settings.request? place
  | settings, word :: words => do ofWords? place (← settings.file? word) words

/-- The request of the arguments behind the name of a task. -/
def ofTaskArguments? (place : Place) : Settings → List String → Option Request
  | settings, [] => settings.request? place
  | settings, argument :: arguments =>
    match Token.ofArgument place argument with
    | .word word => do ofTaskArguments? place (← settings.file? word) arguments
    | .endOfSwitches => ofWords? place settings arguments
    | .unknown => none
    | .switch .help attached => if attached.isSome then none else some .help
    | .switch switch (some value) =>
      if switch.hasValue then do
        ofTaskArguments? place (← settings.accept? switch value) arguments
      else none
    | .switch switch none =>
      if switch.hasValue then
        match arguments with
        | [] => none
        | value :: arguments =>
          if Token.isWord place value then do
            ofTaskArguments? place (← settings.accept? switch value) arguments
          else none
      else do
        ofTaskArguments? place (← settings.accept? switch "") arguments

/-- Whether help is asked for by name, on everything or on one task. -/
def isHelpTopic : List String → Bool
  | [] => true
  | [topic] => topic = "render" || topic = "check" || topic = "help"
  | _ => false

/-- The request of a command line from the name of the program on, where the log level may have been
given already. -/
def ofTopArguments? (levelGiven : Bool) : List String → Option Request
  | [] => none
  | argument :: arguments =>
    match Token.ofArgument .top argument with
    | .word word =>
      if word = "render" then ofTaskArguments? .render .initial arguments
      else if word = "check" then ofTaskArguments? .check .initial arguments
      else if word = "help" && isHelpTopic arguments then some .help
      else none
    | .endOfSwitches | .unknown => none
    | .switch .help attached => if attached.isSome then none else some .help
    | .switch .version attached => if attached.isSome then none else some .version
    | .switch _ (some _) => if levelGiven then none else ofTopArguments? true arguments
    | .switch _ none =>
      match arguments with
      | [] => none
      | value :: arguments =>
        if levelGiven || !Token.isWord .top value then none else ofTopArguments? true arguments

/-- The request of a command line, unless the command line is refused. -/
def Request.ofArguments? (arguments : List String) : Option Request :=
  ofTopArguments? false arguments

end WebAcl.Command
