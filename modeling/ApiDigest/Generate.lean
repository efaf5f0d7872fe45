/-
  From a document to a file with its digest.

  * `Complaint` has the reasons for which a command fails, and `Complaint.message` their
    wording;
  * `World.settings` reads the settings file;
  * `World.writeDigest` writes a digest into a directory;
  * `World.generate` does it all: settings, document, digest, file.
-/
import ApiDigest.Digest.Extract
import ApiDigest.Digest.ToJson
import ApiDigest.Document.Reading
import ApiDigest.Json.Printer
import ApiDigest.Loading
import ApiDigest.Settings.Toml

namespace ApiDigest

/-! ## Complaints -/

/-- Why a command failed. -/
inductive Complaint where
  /-- The settings file that was asked for is not there. -/
  | settingsMissing (path : String)
  | settingsUnreadable (path : String) (fault : FileFault)
  | settingsMalformed (path detail : String)
  /-- Nothing says what to read. -/
  | noInput
  | notLoaded (failure : Failure)
  | notADocument (error : Document.Error)
  | noDirectory (path : String) (fault : FileFault)
  | notWritten (path : String) (fault : FileFault)
deriving DecidableEq, Repr

/-- The wording of a complaint. -/
def Complaint.message : Complaint → String
  | settingsMissing path => "Config file not found: " ++ path
  | settingsUnreadable path fault => "Failed to read " ++ path ++ ": " ++ fault.message
  | settingsMalformed path detail => "Failed to parse " ++ path ++ ": " ++ detail
  | noInput => "No input given. Pass --input or set \x60input\x60 in " ++ Settings.fileName ++ "."
  | notLoaded failure => failure.message
  | notADocument error => error.message
  | noDirectory path fault => "Failed to create directory " ++ path ++ ": " ++ fault.message
  | notWritten path fault => "Failed to write " ++ path ++ ": " ++ fault.message

variable {m : Type → Type} [Monad m]

/-! ## Settings -/

/-- The settings in a file. -/
def World.settingsIn (world : World m) (path : String) : m (Except Complaint Settings) := do
  match ← world.readText path with
  | .error fault => return .error (.settingsUnreadable path fault)
  | .ok text =>
    match Settings.ofText? text with
    | some settings => return .ok settings
    | none => return .error (.settingsMalformed path "not a settings file")

/-- The settings in the file that is asked for, which has to be there, or else in the
    one of a directory, if there is one. -/
def World.settings (world : World m) (path? : Option String) (directory : String) :
    m (Except Complaint Settings) := do
  match path? with
  | some path =>
    if ← world.hasPath path then world.settingsIn path
    else return .error (.settingsMissing path)
  | none =>
    let path := FilePath.join directory Settings.fileName
    if ← world.hasFile path then world.settingsIn path else return .ok {}

/-! ## Output -/

/-- The name of the file that a digest is written to. -/
def Digest.fileName : String := "ir.json"

/-- The text of a digest, with a line break at its end. -/
def Digest.text (digest : Digest) (pretty : Bool) : String :=
  (if pretty then digest.toJson.pretty else digest.toJson.compact) ++ "\n"

/-- Writes a digest into a directory, which is made if it is not there, and gives the
    path of the file. -/
def World.writeDigest (world : World m) (digest : Digest) (directory : String) (pretty : Bool) :
    m (Except Complaint String) := do
  match ← world.makeDirectories directory with
  | .error fault => return .error (.noDirectory directory fault)
  | .ok () =>
    let path := FilePath.join directory Digest.fileName
    match ← world.writeText path (digest.text pretty) with
    | .error fault => return .error (.notWritten path fault)
    | .ok () => return .ok path

/-! ## The command -/

/-- What the command line says about a run. -/
structure GenerateFlags where
  input : Option String := none
  output : Option String := none
  /-- The settings file. -/
  config : Option String := none
  /-- Writes the digest on one line. -/
  compact : Bool := false
deriving DecidableEq, Repr, Inhabited

/-- The layer of settings that flags make. -/
def GenerateFlags.settings (flags : GenerateFlags) : Settings where
  input := flags.input
  output := flags.output
  pretty := if flags.compact then some false else none

/-- Where an input is, seen from a directory; addresses stay. -/
def locateInput (directory input : String) : String :=
  if isUrl input then input else FilePath.join directory input

/-- The digest of the document at an input. -/
def World.digest (world : World m) (input : String) : m (Except Complaint Digest) := do
  match ← world.load input with
  | .error failure => return .error (.notLoaded failure)
  | .ok value =>
    match Document.ofJson value with
    | .error error => return .error (.notADocument error)
    | .ok document => return .ok document.digest

/-- Carries out a plan. -/
def World.carryOut (world : World m) (plan : Plan) : m (Except Complaint Digest) := do
  let input := locateInput world.directory plan.input
  world.tell (.reading input)
  match ← world.digest input with
  | .error complaint => return .error complaint
  | .ok digest =>
    world.tell (.counted digest.operations.length digest.schemas.length)
    match ← world.writeDigest digest (FilePath.join world.directory plan.output) plan.pretty with
    | .error complaint => return .error complaint
    | .ok path =>
      world.tell (.written path)
      return .ok digest

/-- Writes the digest of a document as the flags and the settings file say. -/
def World.generate (world : World m) (flags : GenerateFlags) : m (Except Complaint Digest) := do
  match ← world.settings flags.config world.directory with
  | .error complaint => return .error complaint
  | .ok settings =>
    match (settings.overlay flags.settings).plan? with
    | none => return .error .noInput
    | some plan => world.carryOut plan

/-- Looks for a document under a base address. -/
def World.discover (world : World m) (base : String) : m (Except Complaint Unit) := do
  world.tell (.looking base)
  match ← Discovery.discover world.fetch base with
  | .error failure => return .error (.notLoaded failure)
  | .ok found =>
    world.tell (.discovered found)
    return .ok ()

end ApiDigest
