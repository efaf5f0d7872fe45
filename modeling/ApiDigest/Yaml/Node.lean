/-
  The nodes of a YAML document.

  The tokens of a document are put together with a stack of `Context`s: what the
  node that is read next, or was read last, is to its surroundings.  `Mode` says
  what may come next.

  * `complete` hands a node to its context when the token after it is known: a
    sequence without brackets and a pair without braces only end there;
  * `Node.ofTokens?` is the node of the one document of a text.
-/
import ApiDigest.Yaml.Token

namespace ApiDigest.Yaml

/-! ## Nodes -/

/-- What is written before a node: an anchor and a tag. -/
structure Properties where
  anchor : Option String
  tag : Option String
deriving DecidableEq

/-- No anchor and no tag. -/
def Properties.none : Properties := ⟨.none, .none⟩

/-- Whether there is an anchor or a tag. -/
def Properties.isSome (p : Properties) : Bool := p.anchor.isSome || p.tag.isSome

/-- A node of a document; an alias says by an `α` which node it stands for. -/
inductive Node (α : Type) where
  | alias (target : α)
  | scalar (properties : Properties) (text : String) (isPlain : Bool)
  | sequence (properties : Properties) (items : List (Node α))
  | mapping (properties : Properties) (entries : List (Node α × Node α))

/-- The empty plain scalar, which stands where nothing is written. -/
def Node.empty {α : Type} (properties : Properties) : Node α := .scalar properties "" true

/-- A scalar.  The tag `!` says nothing about a scalar and is dropped. -/
def Node.ofScalar {α : Type} (properties : Properties) (text : String) (isPlain : Bool) : Node α :=
  if properties.tag = some "!" then .scalar { properties with tag := .none } text isPlain
  else .scalar properties text isPlain

/-! ## Contexts -/

/-- How a sequence is written. -/
inductive SequenceStyle where
  | block
  /-- As a block, but not deeper than the mapping around it. -/
  | flush
  | flow
deriving DecidableEq

/-- How a mapping is written. -/
inductive MappingStyle where
  | block
  | flow
  /-- As a single pair in a flow sequence. -/
  | pair
deriving DecidableEq

/-- What a node is to its surroundings; items and entries are in reverse. -/
inductive Context where
  /-- An item of a sequence, after the given ones. -/
  | item (style : SequenceStyle) (properties : Properties) (items : List (Node String))
  /-- A key of a mapping, after the given entries; in a flow mapping a key may stand
      without any sign that it is one, and then has no value. -/
  | key (style : MappingStyle) (marked : Bool) (properties : Properties)
    (entries : List (Node String × Node String))
  /-- The value of the last key. -/
  | value (style : MappingStyle) (properties : Properties)
    (entries : List (Node String × Node String)) (key : Node String)

/-- What may come next. -/
inductive Mode where
  /-- Directives or the start of the document. -/
  | start (version : Bool)
  /-- A node, which may also be left out where the context allows it. -/
  | optional
  /-- A node, some of whose properties were read. -/
  | node (properties : Properties)
  /-- The first item or key of the collection in the context, or its end. -/
  | first
  /-- Whatever follows a complete node. -/
  | after (node : Node String)
  /-- Nothing but the end of the text. -/
  | ended (node : Node String)
  | finished (node : Node String)

/-- What may come next, where, and the tag handles that are declared. -/
structure Builder where
  mode : Mode
  contexts : List Context
  handles : List (String × String)

namespace Builder

/-- Changes mode and contexts. -/
def goto (b : Builder) (mode : Mode) (contexts : List Context) : Option Builder :=
  some { b with mode, contexts }

/-! ## Complete nodes -/

/-- A mapping's next key or its end, when an entry is complete. -/
def afterEntry (b : Builder) (style : MappingStyle) (properties : Properties)
    (entries : List (Node String × Node String)) (contexts : List Context) : Token → Option Builder
  | .key =>
    if style = .block then b.goto .optional (.key style true properties entries :: contexts)
    else none
  | .blockEnd =>
    if style = .block then b.goto (.after (.mapping properties entries.reverse)) contexts else none
  | .flowEntry =>
    if style = .flow then b.goto .first (.key style false properties entries :: contexts) else none
  | .flowMappingEnd =>
    if style = .flow then b.goto (.after (.mapping properties entries.reverse)) contexts else none
  | _ => none

/-- Hands a complete node to its context, given the token after it. -/
def complete (b : Builder) (token : Token) (node : Node String) : List Context → Option Builder
  | [] =>
    match token with
    | .documentEnd => b.goto (.ended node) []
    | .streamEnd => b.goto (.finished node) []
    | _ => none
  | .item style properties items :: rest =>
    let items := node :: items
    let sequence := Node.sequence properties items.reverse
    match style, token with
    | .block, .blockEntry => b.goto .optional (.item style properties items :: rest)
    | .block, .blockEnd => b.goto (.after sequence) rest
    | .block, _ => none
    | .flush, .blockEntry => b.goto .optional (.item style properties items :: rest)
    | .flush, token => complete b token sequence rest
    | .flow, .flowEntry => b.goto .first (.item style properties items :: rest)
    | .flow, .flowSequenceEnd => b.goto (.after sequence) rest
    | .flow, _ => none
  | .key style marked properties entries :: rest =>
    if marked && token = .value then
      b.goto .optional (.value style properties entries node :: rest)
    else
      let entries := (node, Node.empty .none) :: entries
      match style with
      | .pair => complete b token (.mapping properties entries.reverse) rest
      | _ => b.afterEntry style properties entries rest token
  | .value style properties entries key :: rest =>
    let entries := (key, node) :: entries
    match style with
    | .pair => complete b token (.mapping properties entries.reverse) rest
    | _ => b.afterEntry style properties entries rest token

/-! ## Starting nodes -/

/-- The tag that a handle and the rest of a tag name. -/
def resolveTag? (b : Builder) (handle rest : String) : Option String :=
  if handle = "" then some rest
  else (b.handles.find? fun entry => entry.1 = handle).map fun entry => entry.2 ++ rest

/-- Whether a node in a context may be a block collection, and whether it may be a
    sequence that is not deeper than the mapping around it. -/
def allows : List Context → Bool × Bool
  | [] => (true, false)
  | .item style _ _ :: _ => (style ≠ .flow, false)
  | .key style _ _ _ :: _ => (style = .block, style = .block)
  | .value style _ _ _ :: _ => (style = .block, style = .block)

/-- A token where a node has to start or go on. -/
def startNode (b : Builder) (properties : Properties) (token : Token) : Option Builder :=
  let (block, flush) := allows b.contexts
  let otherwise :=
    if properties.isSome then b.complete token (Node.empty properties) b.contexts else none
  match token with
  | .alias name =>
    if properties.isSome then otherwise else b.goto (.after (.alias name)) b.contexts
  | .anchor name =>
    if properties.anchor.isSome then otherwise
    else b.goto (.node { properties with anchor := some name }) b.contexts
  | .tag handle rest =>
    if properties.tag.isSome then otherwise
    else
      (b.resolveTag? handle rest).bind fun tag =>
        b.goto (.node { properties with tag := some tag }) b.contexts
  | .scalar text isPlain => b.goto (.after (.ofScalar properties text isPlain)) b.contexts
  | .flowSequenceStart => b.goto .first (.item .flow properties [] :: b.contexts)
  | .flowMappingStart => b.goto .first (.key .flow false properties [] :: b.contexts)
  | .blockSequenceStart =>
    if block then b.goto .first (.item .block properties [] :: b.contexts) else otherwise
  | .blockMappingStart =>
    if block then b.goto .first (.key .block true properties [] :: b.contexts) else otherwise
  | .blockEntry =>
    if flush then b.goto .optional (.item .flush properties [] :: b.contexts) else otherwise
  | _ => otherwise

/-- Whether a token shows that a node was left out. -/
def isLeftOut : List Context → Token → Bool
  | [], token =>
    match token with
    | .version _ _ | .tagHandle _ _ | .documentStart | .documentEnd | .streamEnd => true
    | _ => false
  | .item style _ _ :: _, token =>
    match style with
    | .block => token = .blockEntry || token = .blockEnd
    | .flush => token = .blockEntry || token = .key || token = .value || token = .blockEnd
    | .flow => false
  | .key style _ _ _ :: _, token =>
    match style with
    | .block => token = .key || token = .value || token = .blockEnd
    | .flow => token = .value || token = .flowEntry || token = .flowMappingEnd
    | .pair => false
  | .value style _ _ _ :: _, token =>
    match style with
    | .block => token = .key || token = .value || token = .blockEnd
    | .flow => token = .flowEntry || token = .flowMappingEnd
    | .pair => token = .flowEntry || token = .flowSequenceEnd

/-- A token where a node may be left out.  Where the key of a pair is left out, the
    token that shows it is lost. -/
def startOptional (b : Builder) (token : Token) : Option Builder :=
  match b.contexts with
  | .key .pair _ _ _ :: _ =>
    if token = .value || token = .flowEntry || token = .flowSequenceEnd then
      b.goto (.after (Node.empty .none)) b.contexts
    else b.startNode .none token
  | contexts =>
    if isLeftOut contexts token then b.complete token (Node.empty .none) contexts
    else b.startNode .none token

/-- A token where the first item or key of a collection may stand, or one after a
    comma. -/
def startFirst (b : Builder) (token : Token) : Option Builder :=
  match b.contexts with
  | .item .block properties items :: rest =>
    match token with
    | .blockEntry => b.goto .optional b.contexts
    | .blockEnd => b.goto (.after (.sequence properties items.reverse)) rest
    | _ => none
  | .item .flow properties items :: rest =>
    match token with
    | .flowSequenceEnd => b.goto (.after (.sequence properties items.reverse)) rest
    | .key => b.goto .optional (.key .pair true .none [] :: b.contexts)
    | token => b.startNode .none token
  | .key .block _ properties entries :: rest =>
    match token with
    | .key => b.goto .optional b.contexts
    | .blockEnd => b.goto (.after (.mapping properties entries.reverse)) rest
    | _ => none
  | .key .flow _ properties entries :: rest =>
    match token with
    | .flowMappingEnd => b.goto (.after (.mapping properties entries.reverse)) rest
    | .key => b.goto .optional (.key .flow true properties entries :: rest)
    | token => b.startNode .none token
  | _ => none

/-! ## Documents -/

/-- The handles that every document has, unless it declares them itself. -/
def defaultHandles : List (String × String) := [("!", "!"), ("!!", "tag:yaml.org,2002:")]

/-- A token before the document. -/
def startDocument (b : Builder) (version : Bool) (token : Token) : Option Builder :=
  let declared := version || !b.handles.isEmpty
  let withDefaults : Builder := { b with handles := b.handles ++ defaultHandles }
  match token with
  | .version major minor =>
    if version || major ≠ 1 || (minor ≠ 1 && minor ≠ 2) then none else b.goto (.start true) []
  | .tagHandle handle start =>
    if b.handles.any fun entry => entry.1 = handle then none
    else { b with handles := b.handles ++ [(handle, start)] }.goto (.start version) []
  | .documentStart => withDefaults.goto .optional []
  | .streamEnd => if declared then none else b.goto (.finished (Node.empty .none)) []
  | token => if declared then none else withDefaults.startNode .none token

/-- One token. -/
def step (b : Builder) (token : Token) : Option Builder :=
  match b.mode with
  | .start version => b.startDocument version token
  | .optional => b.startOptional token
  | .node properties => b.startNode properties token
  | .first => b.startFirst token
  | .after node => b.complete token node b.contexts
  | .ended node =>
    match token with
    | .documentEnd => some b
    | .streamEnd => b.goto (.finished node) []
    | _ => none
  | .finished _ => none

end Builder

/-- The node of the one document that tokens make; an empty text is an empty
    scalar. -/
def Node.ofTokens? (tokens : List Token) : Option (Node String) :=
  (tokens.foldlM Builder.step ⟨.start false, [], []⟩).bind fun b =>
    match b.mode with
    | .finished node => some node
    | _ => none

end ApiDigest.Yaml
