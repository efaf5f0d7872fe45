/-
  The world that a run happens in.

  * `Notice` is what a run says;
  * `World` is what a run can ask for: files, addresses, and saying something.  The
    computations that use it are the same in every world.
-/
import ApiDigest.Json
import ApiDigest.Loading.Discovery
import ApiDigest.Loading.Failure

namespace ApiDigest

/-! ## Notices -/

/-- What a run says. -/
inductive Notice where
  | help
  | version
  /-- A document is being read. -/
  | reading (input : String)
  /-- The digest has so many operations and schemas. -/
  | counted (operations schemas : Nat)
  /-- The digest is in a file. -/
  | written (path : String)
  /-- A document is looked for under a base address. -/
  | looking (base : String)
  /-- A document was found. -/
  | discovered (found : Discovery.Found)
deriving DecidableEq, Repr

namespace Notice

/-- How the program is used. -/
def usage : List String :=
  ["Extract a flat, generator-ready IR from OpenAPI 3.x and Swagger 2.0 documents",
    "",
    "Usage:",
    "  apigen generate [-i PATH_OR_URL] [-o DIR] [--config FILE] [--compact]",
    "  apigen discover BASE_URL",
    "  apigen help [COMMAND]",
    "  apigen --version"]

/-- The lines of a notice; `elapsed` is the time since the run began. -/
def lines (elapsed : String) : Notice → List String
  | help => usage
  | version => ["apigen 0.1.0"]
  | reading input => ["Reading spec from " ++ input]
  | counted operations schemas =>
    ["Found " ++ toString operations ++ " operations, " ++ toString schemas ++ " schemas"]
  | written path => ["✓ IR written to " ++ path ++ " in " ++ elapsed]
  | looking base => ["Looking for an API spec under " ++ base]
  | discovered found =>
    ["Found " ++ found.dialect.name ++ " spec at " ++ found.url,
      "Generate with: apigen generate -i " ++ found.url]

end Notice

/-- A time in milliseconds, with whole seconds from the first one on. -/
def elapsedText (milliseconds : Nat) : String :=
  if milliseconds < 1000 then toString milliseconds ++ "ms"
  else toString (milliseconds / 1000) ++ "s " ++ toString (milliseconds % 1000) ++ "ms"

/-! ## Worlds -/

/-- What a run can ask for. -/
structure World (m : Type → Type) where
  /-- The working directory. -/
  directory : String
  /-- The text of a file. -/
  readText : String → m (Except FileFault String)
  /-- Whether a path leads to anything. -/
  hasPath : String → m Bool
  /-- Whether a path leads to a file. -/
  hasFile : String → m Bool
  /-- Makes a directory and those above it. -/
  makeDirectories : String → m (Except FileFault Unit)
  /-- Puts a text in a file. -/
  writeText : String → String → m (Except FileFault Unit)
  /-- The document at an address. -/
  fetch : String → m (Except Failure Json)
  /-- Says something. -/
  tell : Notice → m Unit

end ApiDigest
