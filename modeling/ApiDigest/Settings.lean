/-
  What a run is to do.

  Settings come in layers, a file and the command line; each may leave anything
  open.  `Settings.overlay` puts one layer on another, and `Settings.plan?` fills in
  what is still open at the end.
-/
import ApiDigest.Text

namespace ApiDigest

/-- One layer of settings. -/
structure Settings where
  /-- The file or address of the document. -/
  input : Option String := none
  /-- The directory that the digest is written to. -/
  output : Option String := none
  /-- Whether the digest is written with line breaks. -/
  pretty : Option Bool := none
deriving DecidableEq, Repr, Inhabited

/-- Settings with nothing left open. -/
structure Plan where
  input : String
  output : String
  pretty : Bool
deriving DecidableEq, Repr

namespace Settings

/-- The name of the settings file in the working directory. -/
def fileName : String := "apigen.toml"

/-- Where the digest is written unless something else is said. -/
def defaultOutput : String := "./src/api/generated"

/-- A layer with another on top: what the upper one says counts. -/
def overlay (lower upper : Settings) : Settings where
  input := upper.input.or lower.input
  output := upper.output.or lower.output
  pretty := upper.pretty.or lower.pretty

/-- The plan that settings make; there is none without an input, and an input of
    nothing but white space is none. -/
def plan? (settings : Settings) : Option Plan :=
  match settings.input with
  | none => none
  | some input =>
    if Text.isAllBlank input then none
    else some ⟨input, settings.output.getD defaultOutput, settings.pretty.getD true⟩

end Settings
end ApiDigest
