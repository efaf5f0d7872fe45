/-
  A world without a network, whose files are a tree.

  * `Session` is the state of a run: the tree and what was said;
  * `Session.world` is the world over such states.
-/
import ApiDigest.FileTree
import ApiDigest.Loading.Url
import ApiDigest.World

namespace ApiDigest

/-- The state of a run. -/
structure Session where
  tree : FileTree
  /-- What was said, the last first. -/
  said : List Notice := []

namespace Session

/-- What asking for an address gives where there is no network. -/
def fetchOffline (url : String) : Except Failure Json :=
  match Url.fault? url with
  | some fault => .error (.invalidUrl url fault)
  | none => .error (.unreachable url "no network")

/-- The path of a place. -/
def pathOf (place : List String) : String := "/" ++ String.intercalate "/" place

/-- The world whose working directory is at a place in the tree. -/
def world (cwd : List String) : World (StateM Session) where
  directory := pathOf cwd
  readText path := do return (← get).tree.readText cwd path
  hasPath path := do return ((← get).tree.find? cwd path).isSome
  hasFile path := do return (← get).tree.isFile cwd path
  makeDirectories path session :=
    let (tree, fault) := session.tree.makeDirectories cwd path
    ((match fault with
      | some fault => .error fault
      | none => .ok ()), { session with tree })
  writeText path text session :=
    match session.tree.writeText cwd path text with
    | .ok tree => (.ok (), { session with tree })
    | .error fault => (.error fault, session)
  fetch url := return fetchOffline url
  tell notice := modify fun session => { session with said := notice :: session.said }

end Session
end ApiDigest
