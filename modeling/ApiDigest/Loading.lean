/-
  Loading a document from a file or an address.

  A text is read in the notation that its place suggests, and the document is brought into
  the one shape that is read: the newer dialect, with pointers to reusable parts replaced.

  * `SourceFormat.read` reads a text in a notation;
  * `Json.normalize` brings a document into shape, or refuses it;
  * `World.load` does both, for what stands at a path or an address.
-/
import ApiDigest.Bundle
import ApiDigest.Dialect
import ApiDigest.FilePath
import ApiDigest.Json.Reader
import ApiDigest.Upgrade
import ApiDigest.World
import ApiDigest.Yaml.Compose
import ApiDigest.Yaml.ToJson

namespace ApiDigest

/-! ## Notations -/

/-- The notation of a text. -/
inductive SourceFormat where
  | json
  | yaml
  /-- Either: JSON if it can be read as that, else YAML. -/
  | either
deriving DecidableEq, Repr

/-- Files that end in `.json` are JSON, in any case of letters; others are YAML. -/
def SourceFormat.ofPath (path : String) : SourceFormat :=
  if (FilePath.extension? path).map Text.lowerAscii = some ['j', 's', 'o', 'n'] then .json
  else .yaml

/-- Whether an input is an address and not a path. -/
def isUrl (input : String) : Bool :=
  Text.startsWith "http://" input || Text.startsWith "https://" input

/-- The value that a text spells in a notation. -/
def SourceFormat.read (text : String) : SourceFormat → Option Json
  | .json => Json.read text
  | .yaml => (Yaml.Value.ofText? text).map Yaml.Value.toJson
  | .either => (Json.read text).or ((Yaml.Value.ofText? text).map Yaml.Value.toJson)

/-- What is said of a text that cannot be read. -/
def SourceFormat.complaint : SourceFormat → String
  | .json => "not a JSON text"
  | _ => "not a YAML document"

/-- The document that a text spells; `origin` says where the text comes from. -/
def Json.ofSource (origin : String) (format : SourceFormat) (text : String) :
    Except Failure Json :=
  match format.read text with
  | some value => .ok value
  | none => .error (.unparsable origin format.complaint)

/-! ## The shape that is read -/

/-- The document in the newer dialect and bundled; documents of unknown dialect are
    refused. -/
def Json.normalize (origin : String) (document : Json) : Except Failure Json :=
  match Dialect.ofJson document with
  | .unknown => .error (.unrecognized origin)
  | .swagger2 => .ok document.upgrade.bundle
  | .openapi3 => .ok document.bundle

/-! ## Loading -/

variable {m : Type → Type} [Monad m]

/-- The document in a file, as it stands. -/
def World.readDocument (world : World m) (path : String) : m (Except Failure Json) := do
  match ← world.readText path with
  | .ok text => return Json.ofSource path (SourceFormat.ofPath path) text
  | .error .notFound => return .error (.notFound path)
  | .error fault => return .error (.unreadable path fault)

/-- The document at an input, an address or a path, in the shape that is read. -/
def World.load (world : World m) (input : String) : m (Except Failure Json) := do
  let raw ← if isUrl input then world.fetch input else world.readDocument input
  return raw.bind (Json.normalize input)

end ApiDigest
