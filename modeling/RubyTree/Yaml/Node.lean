import RubyTree.Yaml.Token

/-!
# Nodes

The tree that tokens spell. Where a node is left out, an empty plain scalar stands.

Reading takes two steps at most for each token, so that twice their number bounds its depth.
-/

namespace RubyTree.Yaml

/-- A part of a document. A node may have a name, which references have too; several nodes may share
    one name. -/
inductive Node where
  | scalar (anchor : Option Nat) (tag : Option (List UInt8)) (style : Style) (text : String)
  | sequence (anchor : Option Nat) (items : List Node)
  | mapping (anchor : Option Nat) (entries : List (Node × Node))
  | reference (anchor : Nat)

namespace Node

/-- A node that is left out. -/
def empty : Node := scalar none none .plain ""

/-! ## Counting and finding -/

mutual

/-- How many marks spell a node: one for a scalar or a reference, two for a collection. -/
def size : Node → Nat
  | scalar _ _ _ _ => 1
  | reference _ => 1
  | sequence _ items => 2 + sizeItems items
  | mapping _ entries => 2 + sizeEntries entries

/-- How many marks spell the items of a sequence. -/
def sizeItems : List Node → Nat
  | [] => 0
  | node :: nodes => node.size + sizeItems nodes

/-- How many marks spell the entries of a mapping. -/
def sizeEntries : List (Node × Node) → Nat
  | [] => 0
  | (key, value) :: entries => key.size + value.size + sizeEntries entries

end

mutual

/-- The node with a name; of several the one that begins last. -/
def anchored? (name : Nat) : Node → Option Node
  | scalar anchor tag style text =>
    if anchor = some name then some (scalar anchor tag style text) else none
  | reference _ => none
  | sequence anchor items =>
    (anchoredInItems? name items).or
      (if anchor = some name then some (sequence anchor items) else none)
  | mapping anchor entries =>
    (anchoredInEntries? name entries).or
      (if anchor = some name then some (mapping anchor entries) else none)

/-- The node with a name among the items of a sequence. -/
def anchoredInItems? (name : Nat) : List Node → Option Node
  | [] => none
  | node :: nodes => (anchoredInItems? name nodes).or (node.anchored? name)

/-- The node with a name among the entries of a mapping. -/
def anchoredInEntries? (name : Nat) : List (Node × Node) → Option Node
  | [] => none
  | (key, value) :: entries =>
    ((anchoredInEntries? name entries).or (value.anchored? name)).or (key.anchored? name)

end

/-! ## Properties -/

/-- The name and the tag that are written before a node. -/
structure Properties where
  anchor : Option Nat := none
  tag : Option (List UInt8) := none

/-- A node that has properties may be left out otherwise. -/
def Properties.empty? (properties : Properties) : Option Node :=
  if properties.anchor.isSome || properties.tag.isSome then
    some (scalar properties.anchor properties.tag .plain "")
  else none

/-- The properties at the front of a text, in either order, and what follows them. -/
def properties? (handles : Handles) : List Token → Option (Properties × List Token)
  | .anchor name :: .tag tag :: tokens | .tag tag :: .anchor name :: tokens =>
    (tag.resolve? handles).map fun bytes => (⟨some name, some bytes⟩, tokens)
  | .anchor name :: tokens => some (⟨some name, none⟩, tokens)
  | .tag tag :: tokens => (tag.resolve? handles).map fun bytes => (⟨none, some bytes⟩, tokens)
  | tokens => some ({}, tokens)

/-! ## Reading -/

/-- What a node may be where it stands: in a flow collection no block; at a key or a value of a
    block mapping also a sequence of items that are not indented. -/
inductive Setting where
  | flow
  | block
  | entry
  deriving DecidableEq

/-- The item of a block sequence ends before such tokens. -/
def endsItem : List Token → Bool
  | .item :: _ | .blockEnd :: _ => true
  | _ => false

/-- The key or the value of an entry of a block mapping ends before such tokens. -/
def endsEntry : List Token → Bool
  | .key :: _ | .value :: _ | .blockEnd :: _ => true
  | _ => false

/-- The value of an entry of a flow collection ends before such tokens. -/
def endsFlowEntry : List Token → Bool
  | .comma :: _ | .flowSequenceEnd :: _ | .flowMappingEnd :: _ => true
  | _ => false

mutual

/-- The node at the front of a text, and what follows it. -/
def node? (handles : Handles) : Nat → Setting → List Token → Option (Node × List Token)
  | 0, _, _ => none
  | _, _, .reference name :: tokens => some (reference name, tokens)
  | fuel + 1, setting, tokens =>
    match properties? handles tokens with
    | none => none
    | some (properties, tokens) =>
      match tokens with
      | .scalar text style :: tokens =>
        some (scalar properties.anchor properties.tag style (String.ofList text), tokens)
      | .flowSequence :: tokens =>
        (flowItems? handles fuel [] tokens).map fun (items, rest) =>
          (sequence properties.anchor items, rest)
      | .flowMapping :: tokens =>
        (flowEntries? handles fuel [] tokens).map fun (entries, rest) =>
          (mapping properties.anchor entries, rest)
      | .item :: rest =>
        if setting = .entry then
          (flatItems? handles fuel [] (.item :: rest)).map fun (items, rest) =>
            (sequence properties.anchor items, rest)
        else properties.empty?.map fun node => (node, .item :: rest)
      | .blockSequence :: rest =>
        if setting = .flow then properties.empty?.map fun node => (node, .blockSequence :: rest)
        else (blockItems? handles fuel [] rest).map fun (items, rest) =>
          (sequence properties.anchor items, rest)
      | .blockMapping :: rest =>
        if setting = .flow then properties.empty?.map fun node => (node, .blockMapping :: rest)
        else (blockEntries? handles fuel [] rest).map fun (entries, rest) =>
          (mapping properties.anchor entries, rest)
      | tokens => properties.empty?.map fun node => (node, tokens)

/-- The items of a block sequence up to its end, after those in `items`. -/
def blockItems? (handles : Handles) :
    Nat → List Node → List Token → Option (List Node × List Token)
  | 0, _, _ => none
  | _, items, .blockEnd :: tokens => some (items.reverse, tokens)
  | fuel + 1, items, .item :: tokens => do
    let (node, rest) ← if endsItem tokens then pure (empty, tokens)
      else node? handles fuel .block tokens
    blockItems? handles fuel (node :: items) rest
  | _, _, _ => none

/-- The items of a sequence that is not indented, after those in `items`; it ends before anything
    else than an item. -/
def flatItems? (handles : Handles) :
    Nat → List Node → List Token → Option (List Node × List Token)
  | 0, _, _ => none
  | fuel + 1, items, .item :: tokens => do
    let (node, rest) ← if endsItem tokens || endsEntry tokens then pure (empty, tokens)
      else node? handles fuel .block tokens
    flatItems? handles fuel (node :: items) rest
  | _, items, tokens => some (items.reverse, tokens)

/-- The value of an entry of a block mapping, and what follows it; it may be left out, together with
    its colon. -/
def blockValue? (handles : Handles) : Nat → List Token → Option (Node × List Token)
  | 0, _ => none
  | fuel + 1, .value :: tokens =>
    if endsEntry tokens then some (empty, tokens) else node? handles fuel .entry tokens
  | _, tokens => some (empty, tokens)

/-- The entries of a block mapping up to its end, after those in `entries`. -/
def blockEntries? (handles : Handles) :
    Nat → List (Node × Node) → List Token → Option (List (Node × Node) × List Token)
  | 0, _, _ => none
  | _, entries, .blockEnd :: tokens => some (entries.reverse, tokens)
  | fuel + 1, entries, .key :: tokens => do
    let (key, rest) ← if endsEntry tokens then pure (empty, tokens)
      else node? handles fuel .entry tokens
    let (value, rest) ← blockValue? handles fuel rest
    blockEntries? handles fuel ((key, value) :: entries) rest
  | _, _, _ => none

/-- The value of an entry of a flow collection, and what follows it; it may be left out, together
    with its colon. -/
def flowValue? (handles : Handles) : Nat → List Token → Option (Node × List Token)
  | 0, _ => none
  | fuel + 1, .value :: tokens =>
    if endsFlowEntry tokens then some (empty, tokens) else node? handles fuel .flow tokens
  | _, tokens => some (empty, tokens)

/-- The items of a flow sequence up to its end, after those in `items`. An item that is marked as a
    key is a mapping with one entry; where the key is left out, so is the token after its mark. -/
def flowItems? (handles : Handles) :
    Nat → List Node → List Token → Option (List Node × List Token)
  | 0, _, _ => none
  | _, items, .flowSequenceEnd :: tokens => some (items.reverse, tokens)
  | fuel + 1, items, tokens => do
    let (node, rest) ← match tokens with
      | .key :: tokens =>
        let (key, rest) ← match tokens with
          | .value :: rest | .comma :: rest | .flowSequenceEnd :: rest => pure (empty, rest)
          | tokens => node? handles fuel .flow tokens
        let (value, rest) ← flowValue? handles fuel rest
        pure (mapping none [(key, value)], rest)
      | tokens => node? handles fuel .flow tokens
    match rest with
    | .comma :: rest => flowItems? handles fuel (node :: items) rest
    | .flowSequenceEnd :: rest => some ((node :: items).reverse, rest)
    | _ => none

/-- The entries of a flow mapping up to its end, after those in `entries`. An entry that is not
    marked as a key has no value. -/
def flowEntries? (handles : Handles) :
    Nat → List (Node × Node) → List Token → Option (List (Node × Node) × List Token)
  | 0, _, _ => none
  | _, entries, .flowMappingEnd :: tokens => some (entries.reverse, tokens)
  | fuel + 1, entries, tokens => do
    let (entry, rest) ← match tokens with
      | .key :: tokens =>
        let (key, rest) ← match tokens with
          | .value :: _ | .comma :: _ | .flowMappingEnd :: _ => pure (empty, tokens)
          | tokens => node? handles fuel .flow tokens
        let (value, rest) ← flowValue? handles fuel rest
        pure ((key, value), rest)
      | tokens => (node? handles fuel .flow tokens).map fun (key, rest) => ((key, empty), rest)
    match rest with
    | .comma :: rest => flowEntries? handles fuel (entry :: entries) rest
    | .flowMappingEnd :: rest => some ((entry :: entries).reverse, rest)
    | _ => none

end

/-- The node at the front of a document, and what follows it. -/
def ofTokens? (handles : Handles) (tokens : List Token) : Option (Node × List Token) :=
  node? handles (2 * tokens.length + 2) .block tokens

end Node

end RubyTree.Yaml
