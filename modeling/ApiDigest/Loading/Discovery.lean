/-
  Discovery of a document under a base address.

  * `candidates` are the addresses at which documents are usually served, best
    first;
  * `discover` asks for them in turn.
-/
import ApiDigest.Dialect
import ApiDigest.Loading.Failure

namespace ApiDigest.Discovery

/-- The paths at which documents are usually served. -/
def wellKnownPaths : List String :=
  ["/v3/api-docs", "/swagger.json", "/openapi.json", "/api-docs", "/docs/openapi.json"]

/-- A base address without slashes at its end. -/
def trimBase (base : String) : String := String.ofList (Text.trimEnd (· = '/') base.toList)

/-- The candidate addresses under a base address. -/
def candidates (base : String) : List String := wellKnownPaths.map (trimBase base ++ ·)

/-- A document that was found. -/
structure Found where
  url : String
  dialect : Dialect
deriving DecidableEq, Repr

/-- What an answer shows: a document in a known dialect, or nothing. -/
def found? (url : String) : Except Failure Json → Option Found
  | .error _ => none
  | .ok document =>
    let dialect := Dialect.ofJson document
    if dialect.isKnown then some ⟨url, dialect⟩ else none

/-- The first of some addresses that has a document in a known dialect; `fetch` asks
    for an address. -/
def firstFound? {m : Type → Type} [Monad m] (fetch : String → m (Except Failure Json)) :
    List String → m (Option Found)
  | [] => return none
  | url :: rest => do
    match found? url (← fetch url) with
    | some found => return some found
    | none => firstFound? fetch rest

/-- The document under a base address. -/
def discover {m : Type → Type} [Monad m] (fetch : String → m (Except Failure Json))
    (base : String) : m (Except Failure Found) := do
  match ← firstFound? fetch (candidates base) with
  | some found => return .ok found
  | none => return .error (.undiscovered (trimBase base) (candidates base))

end ApiDigest.Discovery
