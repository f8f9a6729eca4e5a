import WebAcl.AclError

/-! # Error reports

What a user sees of an error: what was being done, then why it failed, then why that failed. A line
about a document ends with the message of its fault; the program adds the place, ` at line L column C`,
which is left out (`Json.Fault.message`). -/

namespace WebAcl.Command

/-- What was being done, and the causes of the failure, the nearest one first. -/
structure Report where
  context : String
  causes : List String
  deriving DecidableEq

namespace Report

/-- The report of an error. -/
def ofError (context : String) (error : AclError) : Report :=
  ⟨context, error.message :: error.cause?.toList⟩

/-- The lines of a text. -/
def linesOf (text : String) : List String :=
  (text.toList.splitOnP (· = '\n')).map String.ofList

/-- The lines of a cause: the first one behind `lead`, the others under it. -/
def indented (lead margin : String) (cause : String) : List String :=
  match linesOf cause with
  | [] => [lead]
  | first :: rest => (lead ++ first) :: rest.map (margin ++ ·)

/-- The lines of several causes, which are numbered. -/
def numbered (place : Nat) : List String → List String
  | [] => []
  | cause :: causes =>
    indented (Text.alignRight 5 (Text.decimal place) ++ ": ") "       " cause ++
      numbered (place + 1) causes

/-- The lines of the causes; a single cause has no number. -/
def causeLines : List String → List String
  | [] => []
  | [cause] => ["", "Caused by:"] ++ indented "    " "    " cause
  | causes => ["", "Caused by:"] ++ numbered 0 causes

/-- The lines of a report. -/
def lines (report : Report) : List String :=
  linesOf ("Error: " ++ report.context) ++ causeLines report.causes

end Report

end WebAcl.Command
