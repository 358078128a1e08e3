/-!
# A tree of files

A working directory with files and folders under it, enough to tell what opening, reading
and writing by name gives. Of what lies outside only that is there which was put there. The
errors carry the texts and numbers of the system.
-/

namespace Chip8

/-- Why a file operation failed. -/
inductive FileError where
  /-- There is no file or folder of this name. -/
  | notFound
  /-- A file stands where a folder is to be made. -/
  | alreadyExists
  /-- A file stands where the name needs a folder. -/
  | notDirectory
  /-- A folder stands where a file is needed. -/
  | isDirectory
  /-- The name or a part of it is too long. -/
  | nameTooLong
  /-- The name has a character that no name can have. -/
  | nulByte
  | notText
  /-- The operation failed in another way. -/
  | other (text : String)
deriving DecidableEq

namespace FileError

/-- The text of a system error. -/
def numbered (text : String) (number : String) : String :=
  text ++ " (os error " ++ number ++ ")"

def message : FileError → String
  | notFound => numbered "No such file or directory" "2"
  | alreadyExists => numbered "File exists" "17"
  | notDirectory => numbered "Not a directory" "20"
  | isDirectory => numbered "Is a directory" "21"
  | nameTooLong => numbered "File name too long" "36"
  | nulByte => "file name contained an unexpected NUL byte"
  | notText => "stream did not contain valid UTF-8"
  | other text => text

end FileError

/-- What reading an opened file gives. -/
abbrev Source := Except FileError ByteArray

namespace Source

/-- The text that an opened file holds. -/
def text (source : Source) : Except FileError String :=
  match source with
  | .error e => .error e
  | .ok bytes =>
    match String.fromUTF8? bytes with
    | some text => .ok text
    | none => .error .notText

end Source

/-- A place in the tree: the names from the working directory down. For a place outside, the
names begin with `..` for each folder above the working directory, or with the topmost
folder. -/
abbrev Place := List String

/-- Files with their contents, and folders. -/
structure FileTree where
  files : List (Place × ByteArray) := []
  folders : List Place := []

namespace FileTree

/-! ## Paths -/

/-- What stands between the slashes of a path. -/
def pieces (path : String) : List String :=
  path.splitOn "/"

/-- The name of the topmost folder. -/
def top : String := "/"

/-- The parts of a path: what stands between its slashes, after the topmost folder if the
path begins with a slash. -/
def parts (path : String) : List String :=
  if path.startsWith "/" then top :: pieces path else pieces path

/-- Whether a part of a path leads nowhere else. -/
def stays (part : String) : Bool :=
  part = "" || part = "."

/-- The parts of a path without the slashes at its end. -/
def withoutSlash (path : String) : List String :=
  ((parts path).reverse.dropWhile (· = "")).reverse

/-- The path of the folder that holds what a path leads to; empty for a plain name. -/
def parent (path : String) : String :=
  let upper := ((pieces path).reverse.dropWhile stays).drop 1
  "/".intercalate (upper.dropWhile stays).reverse

/-- Checks that a text can be a path. -/
def checkPath (path : String) : Except FileError Unit :=
  if path.toList.contains '\x00' then .error .nulByte
  else if path = "" then .error .notFound
  else if 4095 < path.utf8ByteSize then .error .nameTooLong
  else .ok ()

/-- Whether a name is too long for a file or folder. -/
def isTooLong (name : String) : Bool :=
  255 < name.utf8ByteSize

/-- The place of the folder that holds a place. -/
def above (p : Place) : Place :=
  if p = [top] then p else if p.all (· = "..") then p ++ [".."] else p.dropLast

/-! ## Looking -/

/-- The contents of the file at a place. -/
def file? (t : FileTree) (p : Place) : Option ByteArray :=
  t.files.lookup p

/-- Whether a place is a folder. The working directory and the folders above it are. -/
def isFolder (t : FileTree) (p : Place) : Bool :=
  p.all (· = "..") || p = [top] || t.folders.contains p

/-- Checks that a place is a folder. -/
def checkFolder (t : FileTree) (p : Place) : Except FileError Unit :=
  if t.isFolder p then .ok ()
  else if (t.file? p).isSome then .error .notDirectory
  else .error .notFound

/-- The place that the parts of a path lead to from another place. Only a folder can be
left for another place; what the last part names need not be there. -/
def follow (t : FileTree) (here : Place) : List String → Except FileError Place
  | [] => .ok here
  | part :: rest =>
    match t.checkFolder here with
    | .error e => .error e
    | .ok () =>
      if stays part then t.follow here rest
      else if part = top then t.follow [top] rest
      else if part = ".." then t.follow (above here) rest
      else if isTooLong part then .error .nameTooLong
      else t.follow (here ++ [part]) rest

/-- The folder that the parts of a path lead to. -/
def folderAt (t : FileTree) (parts : List String) : Except FileError Place := do
  let p ← t.follow [] parts
  t.checkFolder p
  pure p

/-- Opens what a path leads to. A folder can be opened but not read. -/
def openFile (t : FileTree) (path : String) : Except FileError Source := do
  checkPath path
  let p ← t.follow [] (parts path)
  if t.isFolder p then .ok (.error .isDirectory)
  else match t.file? p with
    | some bytes => .ok (.ok bytes)
    | none => .error .notFound

/-- Reads the file that a path leads to as text. -/
def readText (t : FileTree) (path : String) : Except FileError String := do
  let source ← t.openFile path
  source.text

/-! ## Writing -/

/-- Puts a file at a place, instead of one that is there. -/
def put (t : FileTree) (p : Place) (bytes : ByteArray) : FileTree :=
  { t with files := (p, bytes) :: t.files.filter (·.1 ≠ p) }

/-- Writes the file that a path leads to. A path that ends with a slash can lead to no file,
whatever its last part is. -/
def write (t : FileTree) (path : String) (bytes : ByteArray) : Except FileError FileTree := do
  checkPath path
  if path.endsWith "/" then
    let _ ← t.folderAt (withoutSlash path).dropLast
    throw .isDirectory
  else
    let p ← t.follow [] (parts path)
    if t.isFolder p then throw .isDirectory else pure (t.put p bytes)

/-- Makes the folder that parts of a path lead to. The last part comes first. -/
def makeFolder (t : FileTree) : List String → Except FileError FileTree
  | [] => .error .alreadyExists
  | name :: upper => do
    let folder ← t.folderAt upper.reverse
    if name = ".." || name = top then throw .alreadyExists
    else if isTooLong name then throw .nameTooLong
    else
      let p := folder ++ [name]
      if t.isFolder p || (t.file? p).isSome then throw .alreadyExists
      else pure { t with folders := p :: t.folders }

/-- The tree with a folder made, or without a change if it was there. -/
def ensureFolder (t : FileTree) (parts : List String) : Except FileError FileTree :=
  match t.makeFolder parts with
  | .ok t => .ok t
  | .error e => if (t.folderAt parts.reverse).isOk then .ok t else .error e

/-- Makes the folder that parts of a path lead to. If the folder above is missing, it is made
first. The last part comes first. -/
def makeAll (t : FileTree) : List String → FileTree × Option FileError
  | [] => (t, none)
  | name :: upper =>
    let attempt (t : FileTree) : FileTree × Option FileError :=
      match t.ensureFolder (name :: upper) with
      | .ok t => (t, none)
      | .error e => (t, some e)
    match attempt t with
    | (_, some .notFound) =>
      match t.makeAll upper with
      | (t, none) => attempt t
      | failed => failed
    | result => result

/-- Makes the folders of a path, as far as they are missing. The empty path needs none. -/
def makeFolders (t : FileTree) (path : String) : FileTree × Option FileError :=
  if path = "" then (t, none)
  else match checkPath path with
    | .ok () => t.makeAll ((parts path).reverse.filter (!stays ·))
    | .error e => (t, some e)

/-- Writes a file and makes the folders that its path needs. -/
def provide (t : FileTree) (path : String) (bytes : ByteArray) : Except FileError FileTree :=
  match t.makeFolders (parent path) with
  | (t, none) => t.write path bytes
  | (_, some e) => .error e

end FileTree

end Chip8
