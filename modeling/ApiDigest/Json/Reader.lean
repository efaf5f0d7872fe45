/-
  JSON values of a text.

  The tokens are read with a stack of the arrays and objects that are still
  open, innermost first.  At most `maxDepth` may be open at once.  Of fields with
  one key the last value counts, at the place of the first.
-/
import ApiDigest.Json.Token

namespace ApiDigest.Json

/-- How many arrays and objects may stand inside one another. -/
def maxDepth : Nat := 127

/-- An open array with its items in reverse, or an open object with its fields
    and the key whose value is being read. -/
inductive Frame where
  | array (items : List Json)
  | object (fields : List (String × Json)) (key : String)

/-- What may come next. -/
inductive Expected where
  /-- A value. -/
  | value
  /-- The first item of an array, or its end. -/
  | firstItem
  /-- A key. -/
  | key
  /-- The first key of an object, or its end. -/
  | firstKey
  | colon
  /-- A comma or the end of what is open. -/
  | next
  /-- Nothing any more: the whole text is this value. -/
  | done (value : Json)

/-- The open containers and what may come next. -/
structure Reader where
  stack : List Frame
  expected : Expected

namespace Reader

/-- Hands a complete value to the innermost container. -/
def supply (value : Json) : List Frame → Reader
  | [] => ⟨[], .done value⟩
  | .array items :: rest => ⟨.array (value :: items) :: rest, .next⟩
  | .object fields key :: rest => ⟨.object (Fields.insert key value fields) key :: rest, .next⟩

/-- Closes the innermost array. -/
def closeArray : List Frame → Option Reader
  | .array items :: rest => some (supply (.arr items.reverse) rest)
  | _ => none

/-- Closes the innermost object. -/
def closeObject : List Frame → Option Reader
  | .object fields _ :: rest => some (supply (.obj fields) rest)
  | _ => none

/-- Opens a container. -/
def push (frame : Frame) (expected : Expected) (stack : List Frame) : Option Reader :=
  if stack.length < maxDepth then some ⟨frame :: stack, expected⟩ else none

/-- A token where a value may stand. -/
def startValue (stack : List Frame) : Token → Option Reader
  | .scalar value => some (supply value stack)
  | .openArray => push (.array []) .firstItem stack
  | .openObject => push (.object [] "") .firstKey stack
  | _ => none

/-- A token where a key may stand. -/
def startKey : List Frame → Token → Option Reader
  | .object fields _ :: rest, .scalar (.str key) => some ⟨.object fields key :: rest, .colon⟩
  | _, _ => none

/-- A token after a complete value inside a container. -/
def continue? (stack : List Frame) : Token → Option Reader
  | .comma =>
    match stack with
    | .array _ :: _ => some ⟨stack, .value⟩
    | .object _ _ :: _ => some ⟨stack, .key⟩
    | [] => none
  | .closeArray => closeArray stack
  | .closeObject => closeObject stack
  | _ => none

/-- One token. -/
def step (reader : Reader) (token : Token) : Option Reader :=
  match reader.expected, token with
  | .value, token => startValue reader.stack token
  | .firstItem, .closeArray => closeArray reader.stack
  | .firstItem, token => startValue reader.stack token
  | .key, token => startKey reader.stack token
  | .firstKey, .closeObject => closeObject reader.stack
  | .firstKey, token => startKey reader.stack token
  | .colon, .colon => some ⟨reader.stack, .value⟩
  | .colon, _ => none
  | .next, token => continue? reader.stack token
  | .done _, _ => none

/-- The value, once it is complete. -/
def value? (reader : Reader) : Option Json :=
  match reader.expected with
  | .done value => some value
  | _ => none

end Reader

/-- The value that a text spells; nothing if the text is not JSON. -/
def read (text : String) : Option Json :=
  (tokens text.toList).bind fun ts => (ts.foldlM Reader.step ⟨[], .value⟩).bind Reader.value?

end ApiDigest.Json
