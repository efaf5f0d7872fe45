/-
  From nodes to values.

  An alias stands for the node that its anchor was put before.  Anchors are
  numbered: an anchor gets the number of names that were known before it, and a
  number stands for the last node that got it.

  * `Node.number?` replaces the names of aliases by numbers; a name must be known
    before it is used;
  * `Composer.value?` expands aliases and reads scalars.  Collections may be
    nested `maxDepth` deep, and the number of expansions is bounded, so that a text
    of modest size cannot spell a value without bound;
  * `Value.ofText?` is the value that a text spells.
-/
import ApiDigest.Yaml.Node
import ApiDigest.Yaml.Value
import ApiDigest.Json

namespace ApiDigest.Yaml

/-! ## Numbering anchors -/

/-- A node that aliases may stand for, its number, and how many such nodes were
    started before it. -/
structure Target where
  number : Nat
  serial : Nat
  node : Node Nat

/-- The names of the anchors so far, and the nodes they were put before. -/
structure Anchors where
  numbers : List (String × Nat)
  serial : Nat
  targets : List Target

namespace Anchors

/-- No anchors. -/
def empty : Anchors := ⟨[], 0, []⟩

/-- Gives a number to an anchor, if there is one. -/
def declare (anchors : Anchors) : Option String → Anchors
  | none => anchors
  | some name =>
    { anchors with
      numbers := Fields.insert name anchors.numbers.length anchors.numbers
      serial := anchors.serial + 1 }

/-- The target for a node that starts now, if it has an anchor. -/
def target (anchors : Anchors) (name : Option String) (node : Node Nat) : List Target :=
  (name.map fun _ => ⟨anchors.numbers.length, anchors.serial, node⟩).toList

/-- Adds targets. -/
def add (anchors : Anchors) (targets : List Target) : Anchors :=
  { anchors with targets := targets ++ anchors.targets }

/-- The node that started last among those with a number. -/
def last (number : Nat) : List Target → Option Target
  | [] => none
  | target :: rest =>
    match last number rest with
    | none => if target.number = number then some target else none
    | some other =>
      if target.number = number && other.serial < target.serial then some target else some other

/-- The node that a number stands for. -/
def find? (anchors : Anchors) (number : Nat) : Option (Node Nat) :=
  (last number anchors.targets).map Target.node

end Anchors

namespace Node

mutual

/-- The node with numbers for its aliases, and the anchors known after it. -/
def number? (anchors : Anchors) : Node String → Option (Node Nat × Anchors)
  | .alias name => (Fields.get? name anchors.numbers).map fun number => (.alias number, anchors)
  | .scalar properties text isPlain =>
    let node := .scalar properties text isPlain
    let targets := anchors.target properties.anchor node
    some (node, (anchors.declare properties.anchor).add targets)
  | .sequence properties items =>
    (numberItems? (anchors.declare properties.anchor) items).map fun (items, after) =>
      let node := .sequence properties items
      (node, after.add (anchors.target properties.anchor node))
  | .mapping properties entries =>
    (numberEntries? (anchors.declare properties.anchor) entries).map fun (entries, after) =>
      let node := .mapping properties entries
      (node, after.add (anchors.target properties.anchor node))

/-- Items with numbers for their aliases. -/
def numberItems? (anchors : Anchors) : List (Node String) → Option (List (Node Nat) × Anchors)
  | [] => some ([], anchors)
  | item :: rest =>
    (number? anchors item).bind fun (item, anchors) =>
      (numberItems? anchors rest).map fun (rest, anchors) => (item :: rest, anchors)

/-- Entries with numbers for their aliases. -/
def numberEntries? (anchors : Anchors) :
    List (Node String × Node String) → Option (List (Node Nat × Node Nat) × Anchors)
  | [] => some ([], anchors)
  | (key, value) :: rest =>
    (number? anchors key).bind fun (key, anchors) =>
      (number? anchors value).bind fun (value, anchors) =>
        (numberEntries? anchors rest).map fun (rest, anchors) => ((key, value) :: rest, anchors)

end

/-! ## Size -/

mutual

/-- The size of a node: one for a scalar or an alias, two for a collection and what is
    in it. -/
def size {α : Type} : Node α → Nat
  | .alias _ => 1
  | .scalar _ _ _ => 1
  | .sequence _ items => sizeItems items + 2
  | .mapping _ entries => sizeEntries entries + 2

/-- The size of items. -/
def sizeItems {α : Type} : List (Node α) → Nat
  | [] => 0
  | item :: rest => size item + sizeItems rest

/-- The size of entries. -/
def sizeEntries {α : Type} : List (Node α × Node α) → Nat
  | [] => 0
  | (key, value) :: rest => size key + size value + sizeEntries rest

end

end Node

/-! ## Expansion -/

/-- How deep collections may be nested. -/
def maxDepth : Nat := 128

/-- A value, and how many aliases may still be expanded. -/
abbrev Composed (α : Type) := Option (α × Nat)

namespace Composer

/-- The name of a tag that a document makes up itself: what follows its mark. -/
def localTag? (properties : Properties) : Option String :=
  properties.tag.bind fun tag =>
    match tag.toList with
    | ['!'] => some tag
    | '!' :: name => some (String.ofList name)
    | _ => none

/-- The value of a scalar; a tag counts only if `useTag` says so. -/
def scalar? (useTag : Bool) (properties : Properties) (text : String) (isPlain : Bool) :
    Option Value :=
  match if useTag then properties.tag else none with
  | some tag => Value.ofTagged? tag text
  | none => if isPlain then Value.ofPlain? text else some (.string text)

/-- The values of items, one after another. -/
def items? (value? : Node Nat → Nat → Composed Value) :
    List (Node Nat) → Nat → Composed (List Value)
  | [], left => some ([], left)
  | item :: rest, left =>
    (value? item left).bind fun (v, left) =>
      (items? value? rest left).map fun (vs, left) => (v :: vs, left)

/-- The entries of a mapping, one after another; `earlier` are those before, and no two
    keys may be equal. -/
def entries? (key? value? : Node Nat → Nat → Composed Value) (earlier : List (Value × Value)) :
    List (Node Nat × Node Nat) → Nat → Composed (List (Value × Value))
  | [], left => some (earlier.reverse, left)
  | (key, value) :: rest, left =>
    (key? key left).bind fun (k, left) =>
      if earlier.any fun entry => entry.1.sameAs k then none
      else
        (value? value left).bind fun (v, left) =>
          entries? key? value? ((k, v) :: earlier) rest left

/-- The node meant by a node, and how many aliases may still be expanded. -/
def resolve? (anchors : Anchors) (node : Node Nat) (left : Nat) : Composed (Node Nat) :=
  match node, left with
  | .alias _, 0 => none
  | .alias number, left + 1 => (anchors.find? number).map fun node => (node, left)
  | node, left => some (node, left)

/-- The value of a node inside at most `depth` further collections.  The keys of a tagged
    mapping have no tags of their own, and `inTag` says that a key is one of those. -/
def value? (anchors : Anchors) (depth : Nat) (inTag : Bool) (node : Node Nat) (left : Nat) :
    Composed Value :=
  (resolve? anchors node left).bind fun (target, left) =>
    let inTag := inTag && !(match node with | .alias _ => true | _ => false)
    let properties := match target with
      | .alias _ => .none
      | .scalar p _ _ => p
      | .sequence p _ => p
      | .mapping p _ => p
    let tag := if inTag then none else localTag? properties
    let inTag := inTag || tag.isSome
    let value : Composed Value := match depth, target with
      | _, .alias _ => none
      | _, .scalar p text isPlain => (scalar? (!inTag) p text isPlain).map fun v => (v, left)
      | 0, _ => none
      | depth + 1, .sequence _ items =>
        (items? (value? anchors depth false) items left).map fun (vs, left) => (.sequence vs, left)
      | depth + 1, .mapping _ entries =>
        (entries? (value? anchors depth inTag) (value? anchors depth false) [] entries left).map
          fun (es, left) => (.mapping es, left)
    match tag with
    | none => value
    | some tag => value.map fun (v, left) => (.tagged tag v, left)

end Composer

/-- The value of a node: at most a hundred aliases are expanded for each part of it. -/
def Node.value? (node : Node String) : Option Value :=
  (node.number? .empty).bind fun (node, anchors) =>
    (Composer.value? anchors maxDepth false node (100 * node.size)).map Prod.fst

/-- The value that a text spells; nothing if the text is no single document. -/
def Value.ofText? (text : String) : Option Value :=
  (tokens? text).bind fun tokens => (Node.ofTokens? tokens).bind Node.value?

end ApiDigest.Yaml
