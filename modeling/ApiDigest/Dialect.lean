/-
  The dialects of interface descriptions.

  A document says its dialect by the text of its version: `swagger` starting with
  `2.` or `openapi` starting with `3.`, in this order of precedence.
-/
import ApiDigest.Json
import ApiDigest.Text

namespace ApiDigest

/-- A dialect. -/
inductive Dialect where
  | swagger2
  | openapi3
  | unknown
deriving DecidableEq, Repr

namespace Dialect

/-- The name of a dialect. -/
def name : Dialect → String
  | swagger2 => "swagger2"
  | openapi3 => "openapi3"
  | unknown => "unknown"

/-- Whether documents of the dialect can be read. -/
def isKnown (dialect : Dialect) : Bool := dialect ≠ .unknown

/-- Whether a document has a version that starts in a certain way. -/
def hasVersion (key start : String) (document : Json) : Bool :=
  (document.text? key).any (Text.startsWith start)

/-- The dialect of a document. -/
def ofJson (document : Json) : Dialect :=
  if hasVersion "swagger" "2." document then .swagger2
  else if hasVersion "openapi" "3." document then .openapi3
  else .unknown

end Dialect
end ApiDigest
