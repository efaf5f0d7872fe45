/-
  Trees of files and directories.

  A place in a tree is the list of names that leads to it from the root.  Paths are
  walked from a directory, and each step needs a directory to start from.

  * `FileTree.at?` is what stands at a place, `FileTree.put` replaces it;
  * `FileTree.readText` and `FileTree.writeText` read and write files;
  * `FileTree.makeDirectories` makes a directory with those above it.  It may make
    some and fail at another, so it gives the tree together with the fault.
-/
import ApiDigest.FilePath
import ApiDigest.Json
import ApiDigest.Loading.Failure

namespace ApiDigest

/-- A file or a directory. -/
inductive FileTree where
  /-- A file: its text, if its bytes are text. -/
  | file (text : Option String)
  | directory (entries : List (String × FileTree))
deriving Inhabited

namespace FileTree

/-! ## Places -/

/-- What stands at a place. -/
def at? : FileTree → List String → Option FileTree
  | tree, [] => some tree
  | .file _, _ :: _ => none
  | .directory entries, name :: rest =>
    (Fields.get? name entries).bind fun child => child.at? rest

/-- The tree with something else at a place, and with directories that lead to it. -/
def put : FileTree → List String → FileTree → FileTree
  | _, [], new => new
  | .file text, _ :: _, _ => .file text
  | .directory entries, name :: rest, new =>
    let old := (Fields.get? name entries).getD (.directory [])
    .directory (Fields.insert name (old.put rest new) entries)

/-- Where a walk leads.  All but the last step have to lead to directories; whether
    there is anything at the end is left open. -/
def walk (tree : FileTree) : List String → List FilePath.Step → Except FileFault (List String)
  | place, [] => .ok place
  | place, step :: rest =>
    match tree.at? place with
    | none => .error .notFound
    | some (.file _) => .error .notADirectory
    | some (.directory _) =>
      match step with
      | .stay => tree.walk place rest
      | .up => tree.walk place.dropLast rest
      | .into name => tree.walk (place ++ [name]) rest

/-- Where a path leads from a directory. -/
def locate (tree : FileTree) (cwd : List String) (path : String) :
    Except FileFault (List String) :=
  if path = "" then .error .notFound
  else tree.walk (if FilePath.isAbsolute path then [] else cwd) (FilePath.steps path)

/-- What stands where a path leads. -/
def find? (tree : FileTree) (cwd : List String) (path : String) : Option FileTree :=
  match tree.locate cwd path with
  | .ok place => tree.at? place
  | .error _ => none

/-- Whether a path leads to a file. -/
def isFile (tree : FileTree) (cwd : List String) (path : String) : Bool :=
  match tree.find? cwd path with
  | some (.file _) => true
  | _ => false

/-! ## Files -/

/-- The text of the file that a path leads to. -/
def readText (tree : FileTree) (cwd : List String) (path : String) : Except FileFault String :=
  match tree.locate cwd path with
  | .error fault => .error fault
  | .ok place =>
    match tree.at? place with
    | none => .error .notFound
    | some (.directory _) => .error .isADirectory
    | some (.file none) => .error .notText
    | some (.file (some text)) => .ok text

/-- The tree with a text in the file that a path leads to. -/
def writeText (tree : FileTree) (cwd : List String) (path text : String) :
    Except FileFault FileTree :=
  match tree.locate cwd path with
  | .error fault => .error fault
  | .ok place =>
    match tree.at? place with
    | some (.directory _) => .error .isADirectory
    | _ => .ok (tree.put place (.file (some text)))

/-! ## Directories -/

/-- The tree with a new directory at the end of a walk. -/
def makeDirectory (tree : FileTree) (start : List String) (steps : List FilePath.Step) :
    Except FileFault FileTree :=
  match tree.walk start steps with
  | .error fault => .error fault
  | .ok place =>
    match tree.at? place with
    | some _ => .error .alreadyExists
    | none => .ok (tree.put place (.directory []))

/-- Whether a walk leads to a directory. -/
def hasDirectory (tree : FileTree) (start : List String) (steps : List FilePath.Step) : Bool :=
  match tree.walk start steps with
  | .error _ => false
  | .ok place =>
    match tree.at? place with
    | some (.directory _) => true
    | _ => false

/-- The tree with a directory at the end of a walk, made unless it is there. -/
def keepDirectory (tree : FileTree) (start : List String) (steps : List FilePath.Step) :
    Except FileFault FileTree :=
  match tree.makeDirectory start steps with
  | .ok made => .ok made
  | .error fault => if tree.hasDirectory start steps then .ok tree else .error fault

/-- Keeps a directory at the end of a walk; `above` is what making the directories
    above it gives, for when there is nothing to stand in. -/
def keepBelow (tree : FileTree) (start : List String) (steps : List FilePath.Step)
    (above : FileTree × Option FileFault) : FileTree × Option FileFault :=
  match tree.keepDirectory start steps with
  | .ok made => (made, none)
  | .error .notFound =>
    match above with
    | (made, some fault) => (made, some fault)
    | (made, none) =>
      match made.keepDirectory start steps with
      | .ok done => (done, none)
      | .error fault => (made, some fault)
  | .error fault => (tree, some fault)

/-- Makes the directories along a walk, which is given from its last step back. -/
def makeWalk (tree : FileTree) (start : List String) :
    List FilePath.Step → FileTree × Option FileFault
  | [] => (tree, none)
  | last :: before =>
    tree.keepBelow start (last :: before).reverse (tree.makeWalk start before)

/-- Makes the directory that a path names and those above it.  A path that ends in a
    dot wants its directory to be there before. -/
def makeDirectories (tree : FileTree) (cwd : List String) (path : String) :
    FileTree × Option FileFault :=
  let start := if FilePath.isAbsolute path then [] else cwd
  let steps := FilePath.steps (FilePath.trimSlashes path)
  match (steps.filter (· ≠ .stay)).reverse with
  | [] => (tree, none)
  | _ :: before => tree.keepBelow start steps (tree.makeWalk start before)

end FileTree
end ApiDigest
