import RubyTree.Value.Reading

/-!
# Hashes

Pairs, double splats and the hashes made of them. A hash written without braces is kept apart, for
its pairs belong to the argument list around it.
-/

namespace RubyTree.Rules

/-- Event `hash`: a hash between braces. -/
def hash (pairs : Value) : Outcome Value := do
  let pairs ← pairs.asNodes "hash pairs"
  return .node ((Node.ofKind .hashLiteral).attachAll pairs)

/-- Event `bare_assoc_hash`: pairs without braces. -/
def bareHash (pairs : Value) : Outcome Value := do
  let pairs ← pairs.asNodes "hash arguments"
  return .node ((Node.ofKind .bareAssocHash).attachAll pairs)

/-- Event `assoc_new`: a key and its value, which may be missing. -/
def pair (key value : Value) : Outcome Value := do
  let key ← key.asNode? "pair key"
  let value ← value.asNode? "pair value"
  return .node (((Node.ofKind .pair).attachAs? "key" key).attachAs? "value" value)

/-- Event `assoc_splat`: a double splat, which may be anonymous. -/
def doubleSplat (contents : Value) : Outcome Value := do
  let contents ← contents.asNode? "double splat argument"
  return .node ((Node.ofKind .hashSplatArgument).attach? contents)

end RubyTree.Rules
