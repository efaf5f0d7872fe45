/-
  Bundling: replacing pointers to reusable parts by the parts.

  Parameters, request bodies and responses may be pointers into the components of
  the same document.  Each of them is replaced by what it leads to.  Pointers to
  schemas stay, because a digest records them by name.

  * `Bundle.follow` follows pointers for a bounded number of hops;
  * `Json.bundle` changes all places of a document where such pointers may stand.
-/
import ApiDigest.Json
import ApiDigest.Text.Pointer

namespace ApiDigest

namespace Bundle

/-! ## Following pointers -/

/-- The kinds of components that are replaced. -/
def kinds : List String := ["parameters", "requestBodies", "responses"]

/-- The longest chain of pointers that is followed. -/
def maxHops : Nat := 8

/-- The kind and the name behind the beginning of a pointer: the text before the
    first slash and the unescaped text after it. -/
def kindAndName? (rest : String) : Option (String × String) :=
  let chars := rest.toList
  match chars.dropWhile (· ≠ '/') with
  | [] => none
  | _ :: name =>
    some (String.ofList (chars.takeWhile (· ≠ '/')), Pointer.unescape (String.ofList name))

/-- The component that a pointer names. -/
def resolve? (components : List (String × Json)) (pointer : String) : Option Json :=
  match (Text.afterStart? "#/components/" pointer).bind kindAndName? with
  | some (kind, name) =>
    if kind ∈ kinds then (Fields.get? kind components).bind (Json.get? name) else none
  | none => none

/-- The component that a value points at. -/
def target? (components : List (String × Json)) (value : Json) : Option Json :=
  (value.text? "$ref").bind (resolve? components)

/-- What a value leads to after at most the given number of hops. -/
def follow (components : List (String × Json)) : Nat → Json → Json
  | 0, value => value
  | hops + 1, value =>
    match target? components value with
    | some target => follow components hops target
    | none => value

/-- What a value leads to. -/
def inline (components : List (String × Json)) (value : Json) : Json :=
  follow components maxHops value

/-! ## Places of pointers -/

/-- The keys of a path item that hold operations. -/
def methods : List String :=
  ["get", "put", "post", "delete", "options", "head", "patch", "trace"]

/-- Replaces the parameters of a path item or an operation. -/
def inlineParameters (components : List (String × Json)) :
    List (String × Json) → List (String × Json) :=
  Fields.update "parameters" (Json.mapItems (inline components))

/-- Replaces the parameters, the body and the responses of an operation. -/
def inlineOperation (components fields : List (String × Json)) : List (String × Json) :=
  Fields.update "responses" (Json.mapFields (Fields.mapValues (inline components)))
    (Fields.update "requestBody" (inline components) (inlineParameters components fields))

/-- Replaces the parameters of a path item, and everything in its operations. -/
def inlinePathItem (components fields : List (String × Json)) : List (String × Json) :=
  methods.foldl
    (fun fields m => Fields.update m (Json.mapFields (inlineOperation components)) fields)
    (inlineParameters components fields)

end Bundle

/-- The document with the pointers in its paths replaced by what they lead to. -/
def Json.bundle (document : Json) : Json :=
  let components := document.fieldsAt "components"
  document.mapFields
    (Fields.update "paths"
      (Json.mapFields (Fields.mapValues (Json.mapFields (Bundle.inlinePathItem components)))))

end ApiDigest
