import Mathlib.Data.Nat.Notation
import Mathlib.Order.Nat
import LuminalShine.Lib.Scan

/-!
# VDF trees

What both of Steam's formats are read into.  Keys may repeat within a block, so the children
are a list.

## Main definitions

* `Node` — a leaf with a string, or a block with children.
* `Node.levels` — how many blocks lie inside one another.
-/

namespace LuminalShine.Steam

/-- Maximum block-nesting depth. -/
def kMaxVdfDepth : ℕ := 100

/-- One node in a parsed VDF tree. -/
inductive Node where
  | leaf (key value : List UInt8)
  | block (key : List UInt8) (children : List Node)

namespace Node

mutual

/-- The levels of blocks in a node, its own one counted. -/
def levels : Node → ℕ
  | .leaf _ _ => 0
  | .block _ children => levelsAll children + 1

def levelsAll : List Node → ℕ
  | [] => 0
  | node :: nodes => max node.levels (levelsAll nodes)

end

end Node

/-- The loop over a block: from a cursor, the nodes before it and the depth, all nodes and the
cursor behind the block, or a refusal. -/
abbrev BlockReader :=
  List UInt8 → List Node → ℕ → Except Lib.Scan.Fault (Option (List Node × List UInt8))

end LuminalShine.Steam
