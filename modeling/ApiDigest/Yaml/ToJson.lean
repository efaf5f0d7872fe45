/-
  YAML values as JSON.

  Tags are dropped, and doubles that are no finite numbers become null.  Keys that
  are no strings become their text; keys with equal texts fall together, and the
  last value counts at the place of the first.

  * `Value.toJson` is the JSON of a value, and `Value.numberToJson` that of a number;
  * `Value.keyText` is the text of a key.
-/
import ApiDigest.Json
import ApiDigest.Text
import ApiDigest.Yaml.Printer

namespace ApiDigest.Yaml.Value

/-! ## Keys -/

/-- The text of a key: scalars as they are written, collections and tagged values as
    blocks. -/
def keyText : Value → String
  | .string text => text
  | .null => "null"
  | .bool true => "true"
  | .bool false => "false"
  | .int n => toString n
  | .double x => doubleText x
  | value => Text.trimEndBlank (value.blockText?.getD "")

/-! ## Numbers -/

/-- The integer that a number is, if it has at most 63 bits and a sign. -/
def signed? : Value → Option Int
  | .int n => if -0x8000000000000000 ≤ n ∧ n < 0x8000000000000000 then some n else none
  | _ => none

/-- The integer that a number is, if it has at most 64 bits and no sign. -/
def unsigned? : Value → Option Int
  | .int n => if 0 ≤ n ∧ n < 0x10000000000000000 then some n else none
  | _ => none

/-- The double that a number is or that an integer is rounded to. -/
def rounded? : Value → Option Binary64
  | .int n => some (Binary64.ofInt n)
  | .double x => some x
  | _ => none

/-- The JSON of a number: an integer if it has 64 bits, with a sign or without, else a double
    if that is finite. -/
def numberToJson (number : Value) : Json :=
  match number.signed? with
  | some n => .num (.int n)
  | none =>
    match number.unsigned? with
    | some n => .num (.int n)
    | none => .ofOption (fun x => .num (.double x)) (number.rounded?.filter Binary64.isFinite)

/-! ## Values -/

mutual

/-- The JSON of a value. -/
def toJson : Value → Json
  | .null => .null
  | .bool value => .bool value
  | .int n => numberToJson (.int n)
  | .double x => numberToJson (.double x)
  | .string text => .str text
  | .sequence items => .arr (itemsToJson items)
  | .mapping entries => .obj (Fields.ofList (entriesToJson entries))
  | .tagged _ value => toJson value

/-- The JSON of items. -/
def itemsToJson : List Value → List Json
  | [] => []
  | item :: rest => toJson item :: itemsToJson rest

/-- The fields of entries, in order. -/
def entriesToJson : List (Value × Value) → List (String × Json)
  | [] => []
  | (key, value) :: rest => (keyText key, toJson value) :: entriesToJson rest

end

end ApiDigest.Yaml.Value
