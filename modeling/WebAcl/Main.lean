import WebAcl.Command.Run

/-! # The program

Reads the file of a task, and prints or writes the answer. What the answer is was settled before. -/

namespace WebAcl.Command

/-- The fault behind a refusal of the operating system. -/
def faultOf : IO.Error → FileFault
  | .noFileOrDirectory .. => .notFound
  | .inappropriateType _ 20 _ => .notDirectory
  | .inappropriateType _ 21 _ => .isDirectory
  | .invalidArgument _ 36 _ => .nameTooLong
  | .inappropriateType _ number reason | .permissionDenied _ number reason
  | .resourceExhausted _ number reason | .invalidArgument _ number reason
  | .alreadyExists _ number reason | .noSuchThing _ number reason
  | .otherError number reason | .resourceBusy number reason | .hardwareFault number reason
  | .illegalOperation number reason | .unsupportedOperation number reason
  | .unsatisfiedConstraints number reason | .interrupted _ number reason
  | .resourceVanished number reason | .protocolError number reason | .timeExpired number reason =>
    .refused reason number.toNat
  | .unexpectedEof | .userError _ => .refused "Input/output error" 5

/-- An action on a file, or its fault. -/
def attempt {α : Type} (action : IO α) : IO (Except FileFault α) := do
  match ← action.toBaseIO with
  | .ok a => return .ok a
  | .error error => return .error (faultOf error)

/-- The bytes of a file. -/
def readFile (path : String) : IO ByteArray := do
  (← IO.FS.Handle.mk path .read).readBinToEnd

/-- Shows a report. -/
def showReport (report : Report) : IO UInt32 := do
  report.lines.forM IO.eprintln
  return 1

/-- Carries out a task. -/
def perform (task : Task) : IO UInt32 := do
  match task.answer (← attempt (readFile task.intents)) with
  | .error report => showReport report
  | .ok (.print text) =>
    IO.print text
    return 0
  | .ok (.write path bytes) =>
    match ← attempt (IO.FS.writeBinFile path bytes) with
    | .ok _ => return 0
    | .error fault => showReport (writeReport path fault)

end WebAcl.Command

open WebAcl.Command in
/-- The command line. -/
def main (arguments : List String) : IO UInt32 := do
  match Request.ofArguments? arguments with
  | some (.run task) => perform task
  | some .version =>
    IO.print versionText
    return 0
  | some .help =>
    IO.print helpText
    return 0
  | none =>
    IO.eprint helpText
    return 2
