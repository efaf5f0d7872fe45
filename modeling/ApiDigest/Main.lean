/-
  The program.

  The world here is the machine: its files, its clock and its terminal.  There is no
  network client, so addresses cannot be fetched.
-/
import ApiDigest.CommandLine
import ApiDigest.World.Session

namespace ApiDigest.Program

/-- The fault that an error of the system stands for. -/
def faultOf : IO.Error → FileFault
  | .noFileOrDirectory _ _ _ => .notFound
  | .alreadyExists _ _ _ => .alreadyExists
  | .inappropriateType _ code _ => if code = 20 then .notADirectory else .isADirectory
  | error => .other (toString error)

/-- Does something with files, with the fault if it fails. -/
def attempt {α : Type} (action : IO α) : IO (Except FileFault α) := do
  match ← action.toBaseIO with
  | .ok value => return .ok value
  | .error error => return .error (faultOf error)

/-- The text of a file. -/
def readText (path : String) : IO (Except FileFault String) := do
  match ← attempt (IO.FS.readBinFile path) with
  | .error fault => return .error fault
  | .ok bytes =>
    match String.fromUTF8? bytes with
    | some text => return .ok text
    | none => return .error .notText

/-- The machine, for a run that began at a time. -/
def machine (directory : String) (start : Nat) : World IO where
  directory := directory
  readText := readText
  hasPath path := do
    match ← readText path with
    | .error .notFound | .error .notADirectory => return false
    | _ => return true
  hasFile path := do
    match ← readText path with
    | .ok _ | .error .notText => return true
    | .error _ => return false
  makeDirectories path := attempt (IO.FS.createDirAll path)
  writeText path text := attempt (IO.FS.writeFile path text)
  fetch url := return Session.fetchOffline url
  tell notice := do
    let now ← IO.monoMsNow
    for line in notice.lines (elapsedText (now - start)) do
      IO.println line

/-- Runs the program. -/
def run (arguments : List String) : IO UInt32 := do
  let start ← IO.monoMsNow
  let directory := toString (← IO.currentDir)
  let ending ← (machine directory start).run arguments
  match ending with
  | .success => pure ()
  | .failure complaint => IO.eprintln ("error: " ++ complaint.message)
  | .misuse =>
    for line in "error: unexpected arguments" :: "" :: Notice.usage do
      IO.eprintln line
  return ending.code

end ApiDigest.Program

/-- The entry point. -/
def main (arguments : List String) : IO UInt32 := ApiDigest.Program.run arguments
