/-
  Paths of files, as text.

  Empty components and single dots in the middle count for nothing, and so do
  slashes and dots at the end.

  * `FilePath.extension?` is what follows the last dot of the file name;
  * `FilePath.join` puts one path behind another;
  * `FilePath.steps` is how a path is walked.
-/
import ApiDigest.Text

namespace ApiDigest.FilePath

/-- Whether a path starts at the root. -/
def isAbsolute (path : String) : Bool := path.toList.head? = some '/'

/-! ## Names -/

/-- The components of a path, without empty ones and single dots. -/
def components (path : String) : List (List Char) :=
  (Text.pieces (· = '/') path.toList).filter fun part => part ≠ [] && part ≠ ['.']

/-- The last component of a path, if it is a name. -/
def fileName? (path : String) : Option (List Char) :=
  (components path).getLast?.filter fun part => part ≠ ['.', '.']

/-- What follows the last dot of the file name; a dot at its start is part of the
    name. -/
def extension? (path : String) : Option (List Char) :=
  (fileName? path).bind fun name =>
    let after := name.reverse.takeWhile (· ≠ '.')
    let before := name.reverse.dropWhile (· ≠ '.')
    if before.length < 2 then none else some after.reverse

/-- A path behind another; an absolute path stands alone. -/
def join (base path : String) : String :=
  if isAbsolute path then path
  else if base = "" || base.toList.getLast? = some '/' then base ++ path
  else base ++ "/" ++ path

/-! ## Walking -/

/-- A step from a directory. -/
inductive Step where
  /-- To the directory itself. -/
  | stay
  /-- To the directory around it. -/
  | up
  /-- To what it has under a name. -/
  | into (name : String)
deriving DecidableEq, Repr

/-- The step that a component stands for. -/
def Step.ofComponent (part : List Char) : Step :=
  if part = [] || part = ['.'] then .stay
  else if part = ['.', '.'] then .up
  else .into (String.ofList part)

/-- The steps of a path, one a component.  A slash at the end is a step too, because
    only directories may stand before it. -/
def steps (path : String) : List Step :=
  (Text.pieces (· = '/') path.toList).map Step.ofComponent

/-- The path without the slashes at its end. -/
def trimSlashes (path : String) : String :=
  String.ofList (Text.trimEnd (· = '/') path.toList)

end ApiDigest.FilePath
