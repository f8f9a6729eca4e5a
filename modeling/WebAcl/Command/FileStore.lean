import WebAcl.AclError

/-! # Files

The files in and below the folder in which the program runs. A folder is there as soon as a file is
in it; writing a file does not make folders. A path is walked name by name, and every name but the
last one must lead to a folder, even if the next name leads back up.

* `Path.ofText`: the names on the way that a text describes.
* `FileStore.folderOf`: the folder that the names before the last one lead to.
* `FileStore.read`, `FileStore.write`: the bytes of a file, and the files after one was written. -/

namespace WebAcl.Command

/-! ### Places and paths -/

/-- Where a file or folder is: the names on the way from the current folder, of which the first ones
may be `..`, or from the root, which counts as the name `/`. -/
abbrev Location : Type := List String

namespace Location

/-- The folder around a place; the root is around itself. -/
def parent (here : Location) : Location :=
  if here = ["/"] then here
  else if here.all (· = "..") then here ++ [".."]
  else here.dropLast

/-- The place that a name leads to. -/
def step (here : Location) (name : String) : Location :=
  if name = "." then here else if name = ".." then here.parent else here ++ [name]

end Location

/-- A path: where it begins, the names of the folders on the way, and the last name, which is `.` if
there is none. -/
structure Path where
  start : Location
  folders : List String
  last : String
  endsInSlash : Bool
  deriving DecidableEq

namespace Path

/-- The names in a text, which are what is between slashes. -/
def names (text : String) : List String :=
  ((text.toList.splitOnP (· = '/')).map String.ofList).filter (· ≠ "")

/-- The path that a text describes. -/
def ofText (text : String) : Path where
  start := if text.toList.head? = some '/' then ["/"] else []
  folders := (names text).dropLast
  last := (names text).getLastD "."
  endsInSlash := text.toList.getLast? = some '/'

/-- The place that a path leads to if nothing is in the way. -/
def location (path : Path) : Location :=
  (path.folders.foldl Location.step path.start).step path.last

/-- Whether a path cannot be that of a file. -/
def isFolderOnly (path : Path) : Bool :=
  path.endsInSlash || path.last = "." || path.last = ".."

end Path

/-- The most bytes that a name may have. -/
def nameLimit : Nat := 255

/-- The most bytes that a path may have. -/
def pathLimit : Nat := 4095

/-! ### The files -/

/-- Files by their places. -/
structure FileStore where
  files : List (Location × ByteArray)

/-- What is at a place. -/
inductive Entry where
  | folder
  | file (bytes : ByteArray)
  | nothing

namespace FileStore

/-- Whether a place is a folder: the current folder, one further up, or one with a file in it. -/
def isFolder (store : FileStore) (place : Location) : Bool :=
  place.all (fun name => name = "/" || name = "..") ||
    store.files.any fun file => place.isPrefixOf file.1 && place ≠ file.1

/-- What is at a place. -/
def entry (store : FileStore) (place : Location) : Entry :=
  if store.isFolder place then .folder
  else
    match store.files.lookup place with
    | some bytes => .file bytes
    | none => .nothing

/-- What a name leads to from a folder, and where that is. -/
def find (store : FileStore) (here : Location) (name : String) :
    Except FileFault (Location × Entry) :=
  if nameLimit < name.utf8ByteSize then .error .nameTooLong
  else .ok (here.step name, store.entry (here.step name))

/-- The folder that a name leads to from a folder. -/
def enter (store : FileStore) (here : Location) (name : String) : Except FileFault Location :=
  match store.find here name with
  | .error fault => .error fault
  | .ok (place, .folder) => .ok place
  | .ok (_, .file _) => .error .notDirectory
  | .ok (_, .nothing) => .error .notFound

/-- The folder that a path leads to before its last name. -/
def folderOf (store : FileStore) (text : String) : Except FileFault Location :=
  if text = "" then .error .notFound
  else if pathLimit < text.utf8ByteSize then .error .nameTooLong
  else (Path.ofText text).folders.foldlM store.enter (Path.ofText text).start

/-- The bytes of a file. -/
def read (store : FileStore) (text : String) : Except FileFault ByteArray :=
  let path := Path.ofText text
  match store.folderOf text with
  | .error fault => .error fault
  | .ok folder =>
    match store.find folder path.last with
    | .error fault => .error fault
    | .ok (_, .folder) => .error .isDirectory
    | .ok (_, .file bytes) => if path.endsInSlash then .error .notDirectory else .ok bytes
    | .ok (_, .nothing) => .error .notFound

/-- The files with the bytes at a place replaced. -/
def put (store : FileStore) (place : Location) (bytes : ByteArray) : FileStore :=
  if (store.files.lookup place).isSome then
    ⟨store.files.map fun file => if file.1 = place then (place, bytes) else file⟩
  else ⟨store.files ++ [(place, bytes)]⟩

/-- The files after one was written. A path that cannot be that of a file is refused before its last
name is looked at. -/
def write (store : FileStore) (text : String) (bytes : ByteArray) : Except FileFault FileStore :=
  let path := Path.ofText text
  match store.folderOf text with
  | .error fault => .error fault
  | .ok folder =>
    if path.isFolderOnly then .error .isDirectory
    else
      match store.find folder path.last with
      | .error fault => .error fault
      | .ok (_, .folder) => .error .isDirectory
      | .ok (place, _) => .ok (store.put place bytes)

end FileStore

end WebAcl.Command
