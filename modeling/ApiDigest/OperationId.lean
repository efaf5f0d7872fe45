/-
  Identifiers for operations that declare none.

  The identifier is read off the method and the path.  Empty segments and
  parameters count for nothing; versions only count after the resource.

  * `/things/search` gives the action and the resource before it;
  * any other path gives the verb of the method and its last resource;
  * a path without a resource gives the method and `Root`.
-/
import ApiDigest.Method
import ApiDigest.Naming

namespace ApiDigest.OperationId

/-! ## Segments -/

/-- The segments of a path that can name something: neither empty nor parameters. -/
def segments (path : List Char) : List (List Char) :=
  (Text.pieces (· = '/') path).filter fun s => !s.isEmpty && !Naming.isParameterChars s

/-- The segments that stand for an action on the resource before them, with the
    word for it. -/
def actions : List (String × String) :=
  [("search", "search"), ("get-by-id", "getById"), ("get-by-ids", "getByIds"),
    ("get-by-query", "getByQuery"), ("upsert", "upsert"), ("delete", "delete"),
    ("create", "create"), ("update", "update")]

/-- The word for the action that a segment stands for. -/
def action? (segment : List Char) : Option String :=
  (actions.find? fun entry => entry.1.toList = segment).map Prod.snd

/-! ## Inference -/

/-- The versions that follow a resource, given in reverse order. -/
def suffix (versions : List (List Char)) : String :=
  String.ofList (versions.reverse.flatMap Naming.pascalChars)

/-- The identifier for the given segments, last segment first. -/
def ofReversed (method : Method) (reversed : List (List Char)) : String :=
  let versions := reversed.takeWhile Naming.isVersionChars
  match reversed.dropWhile Naming.isVersionChars with
  | [] => method.key ++ "Root"
  | last :: before =>
    let between := before.takeWhile Naming.isVersionChars
    match action? last, before.dropWhile Naming.isVersionChars with
    | some action, resource :: _ =>
      action ++ String.ofList (Naming.pascalChars resource) ++ suffix (versions ++ between)
    | _, _ => method.verb ++ String.ofList (Naming.pascalChars last) ++ suffix versions

/-- The identifier for a method and a path. -/
def infer (method : Method) (path : String) : String :=
  ofReversed method (segments path.toList).reverse

end ApiDigest.OperationId
