/-
  Pointers and null flags of the older dialect.

  * `Upgrade.movePointer` moves a pointer to where its table stands in the newer
    dialect;
  * `Upgrade.move` does so in a whole value, and renames the flag `x-nullable`
    to `nullable` wherever no such flag stands beside it.
-/
import ApiDigest.Json
import ApiDigest.Text.Pointer

namespace ApiDigest.Upgrade

/-- Where the tables of the older dialect stand in the newer one. -/
def movedTables : List (String × String) :=
  [("#/definitions/", "#/components/schemas/"),
    ("#/parameters/", "#/components/parameters/"),
    ("#/responses/", "#/components/responses/")]

/-- A pointer into one of the moved tables, in its new form; others stay. -/
def movePointer (pointer : String) : String :=
  (movedTables.findSome? fun (old, new) =>
    (Text.afterStart? old pointer).map fun name => new ++ name).getD pointer

/-- The value of a `$ref` field, moved. -/
def moveRef : Json → Json
  | .str pointer => .str (movePointer pointer)
  | other => other

/-- Renames `x-nullable` to `nullable`, unless there is such a field already. -/
def renameNullable (fields : List (String × Json)) : List (String × Json) :=
  match Fields.get? "x-nullable" fields with
  | none => fields
  | some flag =>
    let rest := Fields.erase "x-nullable" fields
    if Fields.contains "nullable" rest then rest else Fields.insert "nullable" flag rest

/-- The fields of an object whose values are done already. -/
def moveObject (fields : List (String × Json)) : List (String × Json) :=
  renameNullable (Fields.update "$ref" moveRef fields)

mutual

/-- Moves the pointers in every object inside a value, and renames its null flag. -/
def move : Json → Json
  | .obj fields => .obj (moveObject (moveFields fields))
  | .arr items => .arr (moveItems items)
  | other => other

/-- Does so in the values of fields. -/
def moveFields : List (String × Json) → List (String × Json)
  | [] => []
  | (key, value) :: rest => (key, move value) :: moveFields rest

/-- Does so in items. -/
def moveItems : List Json → List Json
  | [] => []
  | value :: rest => move value :: moveItems rest

end

end ApiDigest.Upgrade
