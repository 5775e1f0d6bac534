import LoadTest.Yaml.Token.Basic

/-!
# LoadTest.Yaml.Node.Basic

The tree that a YAML text describes. **A reference stays a reference:** it holds the number of its
anchor, and the document knows the nodes by number, so a node may well refer to itself. A number that
is given again belongs to the node that took it last.
-/

namespace LoadTest.Yaml

/-- A node with its tag, if it has one. -/
inductive Node where
  | scalar (tag : Option String) (style : Style) (text : String)
  | sequence (tag : Option String) (items : List Node)
  | mapping (tag : Option String) (members : List (Node × Node))
  /-- The node whose anchor has a number. -/
  | reference (number : Nat)

namespace Node

/-- The node where nothing is written. -/
def empty : Node := .scalar none .plain ""

instance : Inhabited Node := ⟨empty⟩

mutual

/-- How many marks the node is made of: one for a scalar or a reference, and two for the ends of a
collection. -/
def size : Node → Nat
  | .scalar .. | .reference _ => 1
  | .sequence _ items => sizeItems items + 2
  | .mapping _ members => sizeMembers members + 2

/-- `size` for items. -/
def sizeItems : List Node → Nat
  | [] => 0
  | item :: items => item.size + sizeItems items

/-- `size` for members. -/
def sizeMembers : List (Node × Node) → Nat
  | [] => 0
  | (key, value) :: members => key.size + value.size + sizeMembers members

end

end Node

/-- A tree and the nodes in it that have an anchor, with the numbers of these, in the order in which the
anchors are written. -/
structure Document where
  root : Node
  anchored : Array (Nat × Node)

/-- The node that stands for a node: itself, or what it refers to. -/
def Document.resolve? (document : Document) : Node → Option Node
  | .reference number => (document.anchored.findRev? fun entry => entry.1 == number).map (·.2)
  | node => some node

end LoadTest.Yaml
