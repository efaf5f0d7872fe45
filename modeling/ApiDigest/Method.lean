/-
  The request methods that a digest covers.

  * `Method.all` lists them in the order in which the operations of a path are
    visited.
-/

namespace ApiDigest

/-- A request method. -/
inductive Method where
  | get
  | post
  | put
  | delete
  | patch
deriving DecidableEq, Repr

namespace Method

/-- The methods in visiting order. -/
def all : List Method := [.get, .post, .put, .delete, .patch]

/-- The key of a method in a document. -/
def key : Method → String
  | get => "get"
  | post => "post"
  | put => "put"
  | delete => "delete"
  | patch => "patch"

/-- The method as it stands in a request. -/
def name : Method → String
  | get => "GET"
  | post => "POST"
  | put => "PUT"
  | delete => "DELETE"
  | patch => "PATCH"

/-- Whether the method only asks for data. -/
def isQuery : Method → Bool
  | get => true
  | _ => false

/-- The verb that names an operation of the method. -/
def verb (m : Method) : String := if m.isQuery then "list" else m.key

end Method
end ApiDigest
