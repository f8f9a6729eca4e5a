import WebAcl.Command.Arguments
import WebAcl.Command.FileStore
import WebAcl.Command.Report
import WebAcl.Intents.Reading

/-! # Running a command line

A task reads one document and answers with one effect: a text on the screen or a file. Which it is
does not depend on anything but the bytes of the document, so the same answer is given over real
files and over a store of files.

* `Task.answer`: the effect of a task, or the report of its failure.
* `run`: a command line over a store of files. -/

namespace WebAcl.Command

/-- What a task does in the end. -/
inductive Effect where
  | print (text : String)
  | write (path : String) (bytes : ByteArray)

/-- The name of the program with its version. -/
def versionText : String := "wafacl 0.1.0\n"

/-- How the program is called. -/
def helpText : String :=
  "Usage: wafacl [--log-level <LEVEL>] <COMMAND>\n\n" ++
  "  render <INTENTS> [-o <FILE>] [--format json|msgpack] [--pretty]\n" ++
  "  check <INTENTS>\n"

/-- The document of a file. -/
def loadIntents (contents : Except FileFault ByteArray) : Except AclError Intents :=
  match contents with
  | .error fault => .error (.file fault)
  | .ok bytes =>
    match String.fromUTF8? bytes with
    | some text => Intents.ofJson text
    | none => .error (.file .notText)

/-- The template of a file. -/
def loadTemplate (path : String) (contents : Except FileFault ByteArray) : Except Report Template :=
  match loadIntents contents with
  | .error error => .error (.ofError ("加载意图文档失败：" ++ path) error)
  | .ok intents =>
    match intents.template.result with
    | .error error => .error (.ofError "Web ACL 构建失败" error)
    | .ok template => .ok template

/-- The table of a template: its name, its rules and its counts. -/
def table (template : Template) : String :=
  let acl := template.acl
  let heading := acl.name ++ " (" ++ acl.scope.label ++ ")"
  let counts := Text.decimal acl.rules.length ++ " rules, " ++ Text.decimal acl.bodies.size ++
    " custom response bodies, " ++ Text.decimal template.ipSets.length ++ " IP sets"
  String.join ((heading :: acl.rules.map (·.row) ++ [counts]).map (· ++ "\n"))

/-- The bytes of a list. -/
def bytesOf (bytes : List UInt8) : ByteArray := ⟨bytes.toArray⟩

namespace Task

/-- The file that a task reads. -/
def intents : Task → String
  | .render intents _ _ _ => intents
  | .check intents => intents

/-- What a task does with a template. -/
def effect (template : Template) : Task → Except Report Effect
  | .check _ => .ok (.print (table template))
  | .render _ (some path) .json lines => .ok (.write path (template.toJson lines).toByteArray)
  | .render _ (some path) .messagePack _ => .ok (.write path (bytesOf template.toMessagePack))
  | .render _ none .json lines => .ok (.print (template.toJson lines ++ "\n"))
  | .render _ none .messagePack _ =>
    .error ⟨"msgpack 格式必须通过 --output 指定输出文件", []⟩

/-- **The answer to a task**, given the contents of its file. -/
def answer (task : Task) (contents : Except FileFault ByteArray) : Except Report Effect :=
  match loadTemplate task.intents contents with
  | .error report => .error report
  | .ok template => task.effect template

end Task

/-- The report of a file that cannot be written. -/
def writeReport (path : String) (fault : FileFault) : Report :=
  ⟨"写入文件失败：" ++ path, [fault.message]⟩

/-- How a run of the program ended. -/
structure Run where
  exitCode : Nat
  output : String
  report : Option Report
  files : FileStore

namespace Run

/-- A text on the screen. -/
def printed (files : FileStore) (text : String) : Run := ⟨0, text, none, files⟩

/-- A failure. -/
def failed (files : FileStore) (report : Report) : Run := ⟨1, "", some report, files⟩

/-- A command line that is refused. -/
def refused (files : FileStore) : Run := ⟨2, "", none, files⟩

/-- An effect over a store of files. -/
def ofEffect (files : FileStore) : Effect → Run
  | .print text => printed files text
  | .write path bytes =>
    match files.write path bytes with
    | .ok files => ⟨0, "", none, files⟩
    | .error fault => failed files (writeReport path fault)

/-- A task over a store of files. -/
def ofTask (files : FileStore) (task : Task) : Run :=
  match task.answer (files.read task.intents) with
  | .ok effect => ofEffect files effect
  | .error report => failed files report

end Run

/-- **A command line over a store of files.** -/
def run (files : FileStore) (arguments : List String) : Run :=
  match Request.ofArguments? arguments with
  | some (.run task) => Run.ofTask files task
  | some .version => Run.printed files versionText
  | some .help => Run.printed files helpText
  | none => Run.refused files

end WebAcl.Command
