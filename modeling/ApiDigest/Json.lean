/-
  JSON values.

  Objects are lists of fields in the order of their first appearance; no key
  occurs twice in a value that was read from text.

  * `Fields.get?` finds the value of a key; `Fields.insert` replaces a value in
    place or appends a field;
  * `Fields.erase` fills the gap that a removed field leaves with the last field,
    so removal changes the order of at most one other field;
  * `Json.mapFields` and `Json.mapItems` change one level.
-/
import ApiDigest.Number.Decimal

namespace ApiDigest

/-! ## Values -/

/-- A number: an integer, or a double for everything else. -/
inductive Json.Number where
  | int (value : Int)
  | double (value : Binary64)
deriving DecidableEq, Inhabited

/-- A JSON value. -/
inductive Json where
  | null
  | bool (value : Bool)
  | num (value : Json.Number)
  | str (value : String)
  | arr (items : List Json)
  | obj (fields : List (String × Json))
deriving Inhabited

/-! ## Fields -/

namespace Fields

variable {α : Type}

/-- The value of the first field with a key. -/
def get? (key : String) : List (String × α) → Option α
  | [] => none
  | (k, v) :: rest => if k = key then some v else get? key rest

/-- Whether a key occurs. -/
def contains (key : String) (fields : List (String × α)) : Bool := (get? key fields).isSome

/-- The keys in order. -/
def keys (fields : List (String × α)) : List String := fields.map Prod.fst

/-- Replaces the value of a key where it stands; a new key goes last. -/
def insert (key : String) (value : α) : List (String × α) → List (String × α)
  | [] => [(key, value)]
  | (k, v) :: rest => if k = key then (k, value) :: rest else (k, v) :: insert key value rest

/-- The fields one after another: of equal keys the first place and the last value stay. -/
def ofList (fields : List (String × α)) : List (String × α) :=
  fields.foldl (fun acc field => insert field.1 field.2 acc) []

/-- Removes a key; the last field moves into its place. -/
def erase (key : String) : List (String × α) → List (String × α)
  | [] => []
  | (k, v) :: rest =>
    if k = key then
      match rest.getLast? with
      | none => []
      | some last => last :: rest.dropLast
    else (k, v) :: erase key rest

/-- The value of a key, and the fields without it. -/
def take (key : String) (fields : List (String × α)) : Option α × List (String × α) :=
  (get? key fields, erase key fields)

/-- Changes the value of a key, if it is there. -/
def update (key : String) (f : α → α) : List (String × α) → List (String × α)
  | [] => []
  | (k, v) :: rest => if k = key then (k, f v) :: rest else (k, v) :: update key f rest

/-- Changes every value. -/
def mapValues {β : Type} (f : α → β) (fields : List (String × α)) : List (String × β) :=
  fields.map fun (k, v) => (k, f v)

/-- Changes every value, dropping the fields where there is no result. -/
def filterMapValues {β : Type} (f : α → Option β) (fields : List (String × α)) :
    List (String × β) :=
  fields.filterMap fun (k, v) => (f v).map fun w => (k, w)

end Fields

/-! ## Looking into values -/

namespace Json

/-- An integer value. -/
def ofInt (n : Int) : Json := .num (.int n)

/-- An optional value; nothing is written as `null`. -/
def ofOption {α : Type} (f : α → Json) (value : Option α) : Json := (value.map f).getD .null

/-- A list of texts. -/
def ofStrings (texts : List String) : Json := .arr (texts.map .str)

/-- The fields of an object. -/
def fields? : Json → Option (List (String × Json))
  | .obj fields => some fields
  | _ => none

/-- The items of an array. -/
def items? : Json → Option (List Json)
  | .arr items => some items
  | _ => none

/-- The text of a string. -/
def str? : Json → Option String
  | .str text => some text
  | _ => none

/-- The truth value of a boolean. -/
def bool? : Json → Option Bool
  | .bool value => some value
  | _ => none

/-- The value of a key of an object. -/
def get? (key : String) (value : Json) : Option Json := value.fields?.bind (Fields.get? key)

/-- The text at a key of an object. -/
def text? (key : String) (value : Json) : Option String := (value.get? key).bind str?

/-- The fields of the object at a key; none when there is no such object. -/
def fieldsAt (key : String) (value : Json) : List (String × Json) :=
  ((value.get? key).bind fields?).getD []

/-- Changes every item of an array; other values stay. -/
def mapItems (f : Json → Json) : Json → Json
  | .arr items => .arr (items.map f)
  | other => other

/-- Changes the fields of an object; other values stay. -/
def mapFields (f : List (String × Json) → List (String × Json)) : Json → Json
  | .obj fields => .obj (f fields)
  | other => other

end Json
end ApiDigest
