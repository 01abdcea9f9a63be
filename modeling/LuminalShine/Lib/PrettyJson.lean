import LuminalShine.Lib.PropertyTree
import Mathlib

/-!
# The length of a JSON text

Property trees are written as JSON with four blanks for each level, an element a line.  A node
without children is a text; the children of a node are an array if none of them has a name, and an
object otherwise.  A character takes at most six bytes, and one that is printed as it is takes
those of its encoding.  A line may end in two bytes.

## Main definitions

* `byteSize`, `quotedSize` — the bytes of a text, bare and as a JSON string.
* `Ptree.prettySize` — the bytes of a file.

## Main results

* `Ptree.elementsSize_le` — elements of a bounded size.
-/

namespace LuminalShine.Lib

/-- `std::string::size` -/
def byteSize (s : String) : ℕ := (s.toList.map Char.utf8Size).sum

/-- Printed as it is: no control character, quotation mark, slash or backslash. -/
def plainChar (c : Char) : Bool :=
  0x20 ≤ c.toNat && c.toNat ≠ 0x22 && c.toNat ≠ 0x2F && c.toNat ≠ 0x5C

def escapedSize (c : Char) : ℕ := if plainChar c then c.utf8Size else 6

/-- A text in quotation marks. -/
def quotedSize (s : String) : ℕ := 2 + (s.toList.map escapedSize).sum

theorem quotedSize_le (s : String) : quotedSize s ≤ 2 + 6 * byteSize s := by
  unfold quotedSize byteSize
  induction s.toList with
  | nil => simp
  | cons c cs ih =>
      have hpos := c.utf8Size_pos
      have hescaped : escapedSize c ≤ 6 * c.utf8Size := by
        unfold escapedSize
        split <;> omega
      simp only [List.map_cons, List.sum_cons]
      omega

theorem quotedSize_of_plain {s : String} (h : ∀ c ∈ s.toList, plainChar c = true) :
    quotedSize s = 2 + byteSize s := by
  have hmap : s.toList.map escapedSize = s.toList.map Char.utf8Size :=
    List.map_congr_left fun c hc => if_pos (h c hc)
  rw [quotedSize, hmap, byteSize]

namespace Ptree

def lineEnd : ℕ := 2

/-- The name of an element with its colon; those of an array have none. -/
def nameSize (array : Bool) (key : String) : ℕ := if array then 0 else quotedSize key + 2

def isArray (children : List (String × Ptree)) : Bool := children.all fun c => c.1 = ""

mutual

/-- A value that stands at this depth. -/
def valueSize (depth : ℕ) : Ptree → ℕ
  | .node data [] => quotedSize data
  | .node _ (c :: cs) =>
      1 + lineEnd + elementsSize depth (isArray (c :: cs)) (c :: cs) + 4 * depth + 1

/-- The elements of a value, each with its indent, its comma and the end of its line. -/
def elementsSize (depth : ℕ) (array : Bool) : List (String × Ptree) → ℕ
  | [] => 0
  | (key, child) :: cs =>
      4 * (depth + 1) + nameSize array key + child.valueSize (depth + 1) + 1 + lineEnd +
        elementsSize depth array cs

end

/-- The file of a tree, which is an object at the top. -/
def prettySize (t : Ptree) : ℕ := 1 + lineEnd + elementsSize 0 false t.children + 1 + lineEnd

theorem valueSize_leaf (depth : ℕ) (data : String) :
    (leaf data).valueSize depth = quotedSize data := by
  rw [leaf, valueSize]

theorem valueSize_le (depth : ℕ) (data : String) (children : List (String × Ptree)) :
    (node data children).valueSize depth ≤ quotedSize data + 1 + lineEnd +
      elementsSize depth (isArray children) children + 4 * depth + 1 := by
  cases children with
  | nil =>
      rw [valueSize]
      omega
  | cons c cs =>
      rw [valueSize]
      omega

/-- Elements that take no more than `bound` each. -/
theorem elementsSize_le {depth bound : ℕ} {array : Bool} {children : List (String × Ptree)}
    (h : ∀ c ∈ children, 4 * (depth + 1) + nameSize array c.1 + c.2.valueSize (depth + 1) + 1 +
      lineEnd ≤ bound) : elementsSize depth array children ≤ children.length * bound := by
  induction children with
  | nil => simp [elementsSize]
  | cons c cs ih =>
      rw [List.forall_mem_cons] at h
      have hrest := ih h.2
      rw [elementsSize, List.length_cons, Nat.add_mul, Nat.one_mul]
      omega

end Ptree

end LuminalShine.Lib
