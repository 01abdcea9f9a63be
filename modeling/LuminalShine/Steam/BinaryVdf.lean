import LuminalShine.Lib.Scan
import LuminalShine.Steam.VdfNode

/-!
# Binary VDF

The reader of `shortcuts.vdf`.  The bytes come from a file that anyone may have written, and
`read_u8` and `read_i32_le` read without looking: what keeps them inside the file is that
their callers ask `has` first.

## Main definitions

* `parseBinary` — the reader; a cursor is what is left of the bytes.
* `BinNode` — a tree as it is written, whose strings have no terminator inside.
* `UnknownTag` — contents of a block in which one of the tags is none of the four.

## Main results

* `parseBinBlockLoop_encodeAll` — what the loop does with nodes that are written in front of
  other bytes, within the depth limit and beyond it.
* `parseBinBlockLoop_append` — a block that is read whole is read the same with more bytes
  behind it.
* `parseBinary_reads` — the reader undoes the writer, refuses what is cut off and what it
  does not know, and is never at fault.
-/

namespace LuminalShine.Steam

open Lib.Scan

/-! ## The reader -/

def kBinTagBlock : UInt8 := 0x00
def kBinTagString : UInt8 := 0x01
def kBinTagInt32 : UInt8 := 0x02
def kBinTagEndBlock : UInt8 := 0x08

def has (c : List UInt8) (n : ℕ) : Bool := n ≤ c.length

def readU8 (c : List UInt8) : Except Fault (UInt8 × List UInt8) := do
  let b ← read c 0
  .ok (b, c.drop 1)

/-- Four bytes as a number, the lowest first. -/
def i32OfLe (a b c d : UInt8) : Int32 :=
  (a.toUInt32 ||| b.toUInt32 <<< 8 ||| c.toUInt32 <<< 16 ||| d.toUInt32 <<< 24).toInt32

def readI32Le (c : List UInt8) : Except Fault (Int32 × List UInt8) := do
  let b₀ ← read c 0
  let b₁ ← read c 1
  let b₂ ← read c 2
  let b₃ ← read c 3
  .ok (i32OfLe b₀ b₁ b₂ b₃, c.drop 4)

/-- A null-terminated string; none if no terminator is found. -/
def readCstr (c : List UInt8) : Except Fault (Option (List UInt8 × List UInt8)) := do
  let stop ← skipWhile (fun c => do .ok ((← read c 0) != 0)) (c.length + 1) c
  if stop.isEmpty then
    .ok none
  else
    .ok (some (c.take (c.length - stop.length), stop.drop 1))

/-- `std::to_string` -/
def decimal (v : Int32) : List UInt8 :=
  (toString v.toInt).toList.map fun ch => UInt8.ofNat ch.toNat

/-- The check that the loop of a block begins with. -/
def parseBinBlock (loop : BlockReader) (c : List UInt8) (depth : ℕ) :
    Except Fault (Option (List Node × List UInt8)) :=
  if kMaxVdfDepth ≤ depth then .ok none else loop c [] depth

/-- The node behind a tag and a key. -/
def parseBinValue (loop : BlockReader) (tag : UInt8) (key : List UInt8) (c : List UInt8)
    (depth : ℕ) : Except Fault (Option (Node × List UInt8)) := do
  if tag = kBinTagBlock then
    match ← parseBinBlock loop c (depth + 1) with
    | none => .ok none
    | some (children, c) => .ok (some (.block key children, c))
  else if tag = kBinTagString then
    match ← readCstr c with
    | none => .ok none
    | some (val, c) => .ok (some (.leaf key val, c))
  else if tag = kBinTagInt32 then
    if !has c 4 then
      .ok none
    else
      let (v, c) ← readI32Le c
      .ok (some (.leaf key (decimal v), c))
  else
    .ok none

/-- The loop of `parse_bin_block`, whose recursion has a round's fuel less. -/
def parseBinBlockLoop : ℕ → BlockReader
  | 0, _, _, _ => .error .outOfFuel
  | fuel + 1, c, out, depth => do
    if !has c 1 then
      .ok none
    else
      let (tag, c) ← readU8 c
      if tag = kBinTagEndBlock then
        .ok (some (out, c))
      else
        match ← readCstr c with
        | none => .ok none
        | some (key, c) =>
          match ← parseBinValue (parseBinBlockLoop fuel) tag key c depth with
          | none => .ok none
          | some (node, c) => parseBinBlockLoop fuel c (out ++ [node]) depth

def parseBinary (content : List UInt8) : Except Fault (Option Node) := do
  if content.isEmpty then
    .ok none
  else if !has content 1 then
    .ok none
  else
    let (tag, c) ← readU8 content
    if tag ≠ kBinTagBlock then
      .ok none
    else
      match ← readCstr c with
      | none => .ok none
      | some (rootKey, c) =>
        match ← parseBinBlock (parseBinBlockLoop (c.length + 1)) c 1 with
        | none => .ok none
        | some (children, _) => .ok (some (.block rootKey children))

/-! ## The writer -/

/-- A string without a terminator inside. -/
abbrev CString := { s : List UInt8 // 0 ∉ s }

/-- A tree as it is written. -/
inductive BinNode where
  | string (key value : CString)
  | int (key : CString) (value : Int32)
  | block (key : CString) (children : List BinNode)

/-- A number as four bytes, the lowest first. -/
def leOfI32 (v : Int32) : List UInt8 :=
  [v.toUInt32.toUInt8, (v.toUInt32 >>> 8).toUInt8, (v.toUInt32 >>> 16).toUInt8,
    (v.toUInt32 >>> 24).toUInt8]

namespace BinNode

mutual

def encode : BinNode → List UInt8
  | .string key value => kBinTagString :: (key.1 ++ 0 :: (value.1 ++ [0]))
  | .int key value => kBinTagInt32 :: (key.1 ++ 0 :: leOfI32 value)
  | .block key children =>
    kBinTagBlock :: (key.1 ++ 0 :: (encodeAll children ++ [kBinTagEndBlock]))

def encodeAll : List BinNode → List UInt8
  | [] => []
  | node :: nodes => node.encode ++ encodeAll nodes

end

mutual

/-- The tree that a reader is to return: the numbers are in decimal form. -/
def toNode : BinNode → Node
  | .string key value => .leaf key.1 value.1
  | .int key value => .leaf key.1 (decimal value)
  | .block key children => .block key.1 (toNodes children)

def toNodes : List BinNode → List Node
  | [] => []
  | node :: nodes => node.toNode :: toNodes nodes

end

/-- Induction over the nodes of a block, into the blocks among them and behind them. -/
theorem forest_induction {motive : List BinNode → Prop} (nil : motive [])
    (string : ∀ key value nodes, motive nodes → motive (.string key value :: nodes))
    (int : ∀ key value nodes, motive nodes → motive (.int key value :: nodes))
    (block : ∀ key children nodes, motive children → motive nodes →
      motive (.block key children :: nodes)) (nodes : List BinNode) : motive nodes :=
  go nodes
where
  go : ∀ nodes, motive nodes
    | [] => nil
    | .string key value :: nodes => string key value nodes (go nodes)
    | .int key value :: nodes => int key value nodes (go nodes)
    | .block key children :: nodes => block key children nodes (go children) (go nodes)

end BinNode

/-! ## Strings and numbers -/

theorem readCstr_append {key : List UInt8} (hkey : 0 ∉ key) (c : List UInt8) :
    readCstr (key ++ 0 :: c) = .ok (some (key, c)) := by
  have hstop : dropTails (fun c => c.headD 0 != 0) (key ++ 0 :: c) = 0 :: c := by
    refine dropTails_append (fun b hb tail => ?_) rfl
    simp only [List.headD_cons, bne_iff_ne, ne_eq]
    rintro rfl
    exact hkey hb
  rw [readCstr, skipWhile_eq (q := fun c => c.headD 0 != 0) (fun _ _ => rfl) (Nat.lt_succ_self _),
    hstop, ok_bind]
  simp

theorem readCstr_of_not_mem {c : List UInt8} (hc : 0 ∉ c) : readCstr c = .ok none := by
  have hstop : dropTails (fun c => c.headD 0 != 0) (c ++ []) = [] := by
    refine dropTails_append (fun b hb tail => ?_) rfl
    simp only [List.headD_cons, bne_iff_ne, ne_eq]
    rintro rfl
    exact hc hb
  rw [List.append_nil] at hstop
  rw [readCstr, skipWhile_eq (q := fun c => c.headD 0 != 0) (fun _ _ => rfl) (Nat.lt_succ_self _),
    hstop, ok_bind]
  rfl

/-- A string is read up to its terminator, and without one there is none. -/
theorem readCstr_cases (c : List UInt8) :
    readCstr c = .ok none ∨
      ∃ key c', 0 ∉ key ∧ c = key ++ 0 :: c' ∧ readCstr c = .ok (some (key, c')) := by
  by_cases hc : 0 ∈ c
  · obtain ⟨key, c', rfl, hkey⟩ := List.eq_append_cons_of_mem hc
    exact .inr ⟨key, c', hkey, rfl, readCstr_append hkey c'⟩
  · exact .inl (readCstr_of_not_mem hc)

theorem setWidth_of_bytes (u : BitVec 32) :
    ((u.setWidth 8).setWidth 32 ||| ((u >>> 8).setWidth 8).setWidth 32 <<< 8 |||
      ((u >>> 16).setWidth 8).setWidth 32 <<< 16 |||
      ((u >>> 24).setWidth 8).setWidth 32 <<< 24) = u := by
  ext i hi
  simp only [BitVec.getElem_or, BitVec.getElem_shiftLeft, BitVec.getElem_setWidth,
    BitVec.getLsbD_setWidth, BitVec.getLsbD_ushiftRight]
  grind

theorem i32OfLe_bytes (v : Int32) :
    i32OfLe v.toUInt32.toUInt8 (v.toUInt32 >>> 8).toUInt8 (v.toUInt32 >>> 16).toUInt8
      (v.toUInt32 >>> 24).toUInt8 = v :=
  congrArg UInt32.toInt32 (UInt32.eq_of_toBitVec_eq (setWidth_of_bytes v.toUInt32.toBitVec))

theorem readI32Le_cons (b₀ b₁ b₂ b₃ : UInt8) (c : List UInt8) :
    readI32Le (b₀ :: b₁ :: b₂ :: b₃ :: c) = .ok (i32OfLe b₀ b₁ b₂ b₃, c) :=
  rfl

/-! ## One node -/

theorem parseBinBlock_of_lt {depth : ℕ} (h : depth < kMaxVdfDepth) (loop : BlockReader)
    (c : List UInt8) : parseBinBlock loop c depth = loop c [] depth := by
  rw [parseBinBlock, if_neg (Nat.not_le_of_lt h)]

theorem parseBinBlock_of_le {depth : ℕ} (h : kMaxVdfDepth ≤ depth) (loop : BlockReader)
    (c : List UInt8) : parseBinBlock loop c depth = .ok none := by
  rw [parseBinBlock, if_pos h]

theorem parseBinValue_block {loop : BlockReader} {key c c' : List UInt8} {children : List Node}
    {depth : ℕ} (h : parseBinBlock loop c (depth + 1) = .ok (some (children, c'))) :
    parseBinValue loop kBinTagBlock key c depth = .ok (some (.block key children, c')) := by
  simp only [parseBinValue, if_true, h, ok_bind]

theorem parseBinValue_no_block {loop : BlockReader} {key c : List UInt8} {depth : ℕ}
    (h : parseBinBlock loop c (depth + 1) = .ok none) :
    parseBinValue loop kBinTagBlock key c depth = .ok none := by
  simp only [parseBinValue, if_true, h, ok_bind]

theorem parseBinValue_string (loop : BlockReader) (key : List UInt8) {val : List UInt8}
    (hval : 0 ∉ val) (c : List UInt8) (depth : ℕ) :
    parseBinValue loop kBinTagString key (val ++ 0 :: c) depth =
      .ok (some (.leaf key val, c)) := by
  rw [parseBinValue, if_neg (by decide), if_pos rfl, readCstr_append hval]
  rfl

theorem parseBinValue_int (loop : BlockReader) (key : List UInt8) (b₀ b₁ b₂ b₃ : UInt8)
    (c : List UInt8) (depth : ℕ) :
    parseBinValue loop kBinTagInt32 key (b₀ :: b₁ :: b₂ :: b₃ :: c) depth =
      .ok (some (.leaf key (decimal (i32OfLe b₀ b₁ b₂ b₃)), c)) := by
  have hhas : has (b₀ :: b₁ :: b₂ :: b₃ :: c) 4 = true := by simp [has]
  rw [parseBinValue, if_neg (by decide), if_neg (by decide), if_pos rfl, hhas, readI32Le_cons]
  rfl

/-- The tags that the reader knows. -/
def knownTags : List UInt8 := [kBinTagBlock, kBinTagString, kBinTagInt32, kBinTagEndBlock]

theorem parseBinValue_unknown {tag : UInt8} (htag : tag ∉ knownTags) (loop : BlockReader)
    (key c : List UInt8) (depth : ℕ) : parseBinValue loop tag key c depth = .ok none := by
  simp only [knownTags, List.mem_cons, List.not_mem_nil, or_false, not_or] at htag
  rw [parseBinValue, if_neg htag.1, if_neg htag.2.1, if_neg htag.2.2.1]

/-- Four bytes are there, or there are not enough for a number. -/
theorem has_four_cases (c : List UInt8) :
    has c 4 = false ∨ ∃ b₀ b₁ b₂ b₃ c', c = b₀ :: b₁ :: b₂ :: b₃ :: c' := by
  rcases c with _ | ⟨b₀, _ | ⟨b₁, _ | ⟨b₂, _ | ⟨b₃, c'⟩⟩⟩⟩
  · exact .inl rfl
  · exact .inl rfl
  · exact .inl rfl
  · exact .inl rfl
  · exact .inr ⟨b₀, b₁, b₂, b₃, c', rfl⟩

/-- What may stand behind a key, and that everything else is refused. -/
theorem parseBinValue_cases (loop : BlockReader) (tag : UInt8) (key c : List UInt8) (depth : ℕ) :
    tag = kBinTagBlock ∨ (tag = kBinTagString ∧ ∃ val c', 0 ∉ val ∧ c = val ++ 0 :: c') ∨
      (tag = kBinTagInt32 ∧ ∃ b₀ b₁ b₂ b₃ c', c = b₀ :: b₁ :: b₂ :: b₃ :: c') ∨
      (tag ≠ kBinTagBlock ∧ parseBinValue loop tag key c depth = .ok none) := by
  by_cases hblock : tag = kBinTagBlock
  · exact .inl hblock
  by_cases hstring : tag = kBinTagString
  · rcases readCstr_cases c with hnone | ⟨val, c', hval, hc, -⟩
    · refine .inr (.inr (.inr ⟨hblock, ?_⟩))
      rw [parseBinValue, if_neg hblock, if_pos hstring, hnone]
      rfl
    · exact .inr (.inl ⟨hstring, val, c', hval, hc⟩)
  by_cases hint : tag = kBinTagInt32
  · rcases has_four_cases c with hhas | hc
    · refine .inr (.inr (.inr ⟨hblock, ?_⟩))
      rw [parseBinValue, if_neg hblock, if_neg hstring, if_pos hint, hhas]
      rfl
    · exact .inr (.inr (.inl ⟨hint, hc⟩))
  · refine .inr (.inr (.inr ⟨hblock, ?_⟩))
    rw [parseBinValue, if_neg hblock, if_neg hstring, if_neg hint]

/-! ## A round of the loop -/

theorem has_one (b : UInt8) (c : List UInt8) : has (b :: c) 1 = true := by simp [has]

theorem parseBinBlockLoop_nil (fuel : ℕ) (out : List Node) (depth : ℕ) :
    parseBinBlockLoop (fuel + 1) [] out depth = .ok none :=
  rfl

theorem parseBinBlockLoop_end (fuel : ℕ) (c : List UInt8) (out : List Node) (depth : ℕ) :
    parseBinBlockLoop (fuel + 1) (kBinTagEndBlock :: c) out depth = .ok (some (out, c)) := by
  rw [parseBinBlockLoop, has_one]
  rfl

section Round

variable {tag : UInt8} (htag : tag ≠ kBinTagEndBlock)
include htag

theorem parseBinBlockLoop_no_key {c : List UInt8} (hc : readCstr c = .ok none) (fuel : ℕ)
    (out : List Node) (depth : ℕ) :
    parseBinBlockLoop (fuel + 1) (tag :: c) out depth = .ok none := by
  simp only [parseBinBlockLoop, has_one, Bool.not_true, Bool.false_eq_true, if_false, readU8,
    read_zero, ok_bind, List.drop_succ_cons, List.drop_zero, if_neg htag, hc]

variable {key : List UInt8} (hkey : 0 ∉ key)
include hkey

theorem parseBinBlockLoop_key (fuel : ℕ) (c : List UInt8) (out : List Node) (depth : ℕ) :
    parseBinBlockLoop (fuel + 1) (tag :: (key ++ 0 :: c)) out depth =
      parseBinValue (parseBinBlockLoop fuel) tag key c depth >>= fun value =>
        value.elim (.ok none) fun next =>
          parseBinBlockLoop fuel next.2 (out ++ [next.1]) depth := by
  simp only [parseBinBlockLoop, has_one, Bool.not_true, Bool.false_eq_true, if_false, readU8,
    read_zero, ok_bind, List.drop_succ_cons, List.drop_zero, if_neg htag, readCstr_append hkey]
  congr 1
  funext value
  cases value with
  | none => rfl
  | some next => rfl

theorem parseBinBlockLoop_no_value {fuel : ℕ} {c : List UInt8} {depth : ℕ}
    (h : parseBinValue (parseBinBlockLoop fuel) tag key c depth = .ok none) (out : List Node) :
    parseBinBlockLoop (fuel + 1) (tag :: (key ++ 0 :: c)) out depth = .ok none := by
  rw [parseBinBlockLoop_key htag hkey, h]
  rfl

theorem parseBinBlockLoop_value {fuel : ℕ} {c c' : List UInt8} {node : Node} {depth : ℕ}
    (h : parseBinValue (parseBinBlockLoop fuel) tag key c depth = .ok (some (node, c')))
    (out : List Node) :
    parseBinBlockLoop (fuel + 1) (tag :: (key ++ 0 :: c)) out depth =
      parseBinBlockLoop fuel c' (out ++ [node]) depth := by
  rw [parseBinBlockLoop_key htag hkey, h]
  rfl

end Round

/-- What the loop finds: nothing, the end marker, a tag without a key, or a tag with a key. -/
theorem round_cases (c : List UInt8) :
    c = [] ∨ (∃ c', c = kBinTagEndBlock :: c') ∨
      (∃ tag c', c = tag :: c' ∧ tag ≠ kBinTagEndBlock ∧ readCstr c' = .ok none) ∨
      ∃ tag key c', c = tag :: (key ++ 0 :: c') ∧ tag ≠ kBinTagEndBlock ∧ 0 ∉ key := by
  cases c with
  | nil => exact .inl rfl
  | cons tag c =>
    by_cases htag : tag = kBinTagEndBlock
    · exact .inr (.inl ⟨c, by rw [htag]⟩)
    rcases readCstr_cases c with hnone | ⟨key, c', hkey, rfl, -⟩
    · exact .inr (.inr (.inl ⟨tag, c, rfl, htag, hnone⟩))
    · exact .inr (.inr (.inr ⟨tag, key, c', rfl, htag, hkey⟩))

/-! ## The reader comes to its end -/

theorem parseBinValue_leaves {loop : BlockReader} {n : ℕ} {tag : UInt8} {key c : List UInt8}
    {depth : ℕ} (hloop : Leaves c.length (loop c [] (depth + 1))) (hn : c.length ≤ n) :
    Leaves n (parseBinValue loop tag key c depth) := by
  rcases parseBinValue_cases loop tag key c depth with
    rfl | ⟨rfl, val, c', hval, rfl⟩ | ⟨rfl, b₀, b₁, b₂, b₃, c', rfl⟩ | ⟨-, hnone⟩
  · by_cases hdepth : depth + 1 < kMaxVdfDepth
    · rw [← parseBinBlock_of_lt hdepth loop c] at hloop
      rcases hloop with hnone | ⟨children, c', hsome, hc'⟩
      · rw [parseBinValue_no_block hnone]
        exact Leaves.none n
      · rw [parseBinValue_block hsome]
        exact Leaves.some _ (by omega)
    · rw [parseBinValue_no_block (parseBinBlock_of_le (by omega) loop c)]
      exact Leaves.none n
  · rw [parseBinValue_string loop key hval]
    refine Leaves.some _ ?_
    simp only [List.length_append, List.length_cons] at hn
    omega
  · rw [parseBinValue_int]
    refine Leaves.some _ ?_
    simp only [List.length_cons] at hn
    omega
  · rw [hnone]
    exact Leaves.none n

/-- A round takes a tag and a key at least, so that more fuel than bytes is enough. -/
theorem parseBinBlockLoop_leaves {fuel : ℕ} {c : List UInt8} (hfuel : c.length < fuel)
    (out : List Node) (depth : ℕ) : Leaves c.length (parseBinBlockLoop fuel c out depth) := by
  induction fuel generalizing c out depth with
  | zero => omega
  | succ fuel ih =>
    rcases round_cases c with
      rfl | ⟨c', rfl⟩ | ⟨tag, c', rfl, htag, hnone⟩ | ⟨tag, key, c', rfl, htag, hkey⟩
    · rw [parseBinBlockLoop_nil]
      exact Leaves.none _
    · rw [parseBinBlockLoop_end]
      exact Leaves.some _ (by simp)
    · rw [parseBinBlockLoop_no_key htag hnone]
      exact Leaves.none _
    · simp only [List.length_cons, List.length_append] at hfuel ⊢
      have hvalue : Leaves c'.length (parseBinValue (parseBinBlockLoop fuel) tag key c' depth) :=
        parseBinValue_leaves (ih (by omega) [] (depth + 1)) (Nat.le_refl _)
      rcases hvalue with hnone | ⟨node, c'', hsome, hc''⟩
      · rw [parseBinBlockLoop_no_value htag hkey hnone]
        exact Leaves.none _
      · rw [parseBinBlockLoop_value htag hkey hsome]
        exact (ih (by omega) _ depth).mono (by omega)

/-! ## More bytes behind a block -/

/-- What `loop` reads whole, `loop'` reads with more bytes behind it. -/
def Extends (loop loop' : BlockReader) : Prop :=
  ∀ c out depth nodes c', loop c out depth = .ok (some (nodes, c')) →
    ∀ more, loop' (c ++ more) out depth = .ok (some (nodes, c' ++ more))

theorem parseBinValue_append {loop loop' : BlockReader} (hloop : Extends loop loop')
    {tag : UInt8} {key c c' : List UInt8} {depth : ℕ} {node : Node}
    (h : parseBinValue loop tag key c depth = .ok (some (node, c'))) (more : List UInt8) :
    parseBinValue loop' tag key (c ++ more) depth = .ok (some (node, c' ++ more)) := by
  rcases parseBinValue_cases loop tag key c depth with
    rfl | ⟨rfl, val, c'', hval, rfl⟩ | ⟨rfl, b₀, b₁, b₂, b₃, c'', rfl⟩ | ⟨-, hnone⟩
  · by_cases hdepth : depth + 1 < kMaxVdfDepth
    · rcases hblock : parseBinBlock loop c (depth + 1) with fault | (_ | ⟨children, c''⟩)
      · rw [parseBinValue, if_pos rfl, hblock] at h
        cases h
      · rw [parseBinValue_no_block hblock] at h
        cases h
      · rw [parseBinValue_block hblock] at h
        cases h
        rw [parseBinBlock_of_lt hdepth] at hblock
        refine parseBinValue_block ?_
        rw [parseBinBlock_of_lt hdepth]
        exact hloop c [] (depth + 1) children c' hblock more
    · rw [parseBinValue_no_block (parseBinBlock_of_le (by omega) loop c)] at h
      cases h
  · rw [parseBinValue_string loop key hval] at h
    cases h
    rw [List.append_assoc, List.cons_append, parseBinValue_string loop' key hval]
  · rw [parseBinValue_int] at h
    cases h
    exact parseBinValue_int loop' key b₀ b₁ b₂ b₃ (c' ++ more) depth
  · rw [hnone] at h
    cases h

/-- A block that is read whole is read the same with more bytes behind it. -/
theorem parseBinBlockLoop_append {fuel fuel' : ℕ} (hle : fuel ≤ fuel') :
    Extends (parseBinBlockLoop fuel) (parseBinBlockLoop fuel') := by
  induction fuel generalizing fuel' with
  | zero =>
    intro c out depth nodes c' h
    cases h
  | succ fuel ih =>
    rcases fuel' with _ | fuel'
    · omega
    intro c out depth nodes c' h more
    rcases round_cases c with
      rfl | ⟨c₁, rfl⟩ | ⟨tag, c₁, rfl, htag, hnone⟩ | ⟨tag, key, c₁, rfl, htag, hkey⟩
    · rw [parseBinBlockLoop_nil] at h
      cases h
    · rw [parseBinBlockLoop_end] at h
      cases h
      exact parseBinBlockLoop_end fuel' (c' ++ more) out depth
    · rw [parseBinBlockLoop_no_key htag hnone] at h
      cases h
    · rw [parseBinBlockLoop_key htag hkey, bind_eq_ok] at h
      rcases h with ⟨_ | ⟨node, c₂⟩, hvalue, h⟩
      · cases h
      · have hext : Extends (parseBinBlockLoop fuel) (parseBinBlockLoop fuel') := ih (by omega)
        rw [List.cons_append, List.append_assoc, List.cons_append,
          parseBinBlockLoop_value htag hkey (parseBinValue_append hext hvalue more)]
        exact hext c₂ _ depth nodes c' h more

/-! ## What is written is read -/

open BinNode

theorem toNodes_levels (key : CString) (children nodes : List BinNode) :
    Node.levelsAll (toNodes (.block key children :: nodes)) =
      max (Node.levelsAll (toNodes children) + 1) (Node.levelsAll (toNodes nodes)) := by
  simp only [toNodes, toNode, Node.levelsAll, Node.levels]

theorem encodeAll_block_append (key : CString) (children nodes : List BinNode) (c : List UInt8) :
    encodeAll (.block key children :: nodes) ++ c =
      kBinTagBlock :: (key.1 ++ 0 :: (encodeAll children ++
        kBinTagEndBlock :: (encodeAll nodes ++ c))) := by
  simp only [encodeAll, encode, List.cons_append, List.append_assoc, List.nil_append]

theorem encodeAll_string_append (key value : CString) (nodes : List BinNode) (c : List UInt8) :
    encodeAll (.string key value :: nodes) ++ c =
      kBinTagString :: (key.1 ++ 0 :: (value.1 ++ 0 :: (encodeAll nodes ++ c))) := by
  simp only [encodeAll, encode, List.cons_append, List.append_assoc, List.nil_append]

theorem encodeAll_int_append (key : CString) (value : Int32) (nodes : List BinNode)
    (c : List UInt8) :
    encodeAll (.int key value :: nodes) ++ c =
      kBinTagInt32 :: (key.1 ++ 0 :: (leOfI32 value ++ (encodeAll nodes ++ c))) := by
  simp only [encodeAll, encode, List.cons_append, List.append_assoc]

theorem parseBinValue_leOfI32 (loop : BlockReader) (key : List UInt8) (value : Int32)
    (c : List UInt8) (depth : ℕ) :
    parseBinValue loop kBinTagInt32 key (leOfI32 value ++ c) depth =
      .ok (some (.leaf key (decimal value), c)) := by
  have h := parseBinValue_int loop key value.toUInt32.toUInt8 (value.toUInt32 >>> 8).toUInt8
    (value.toUInt32 >>> 16).toUInt8 (value.toUInt32 >>> 24).toUInt8 c depth
  rwa [i32OfLe_bytes] at h

/-- The children of a block within the limit are read up to the block's end marker. -/
theorem parseBinBlockLoop_encodeAll (nodes : List BinNode) {fuel : ℕ} {c : List UInt8}
    (hfuel : (encodeAll nodes ++ c).length < fuel) (out : List Node) {depth : ℕ}
    (hdepth : depth < kMaxVdfDepth) :
    (depth + Node.levelsAll (toNodes nodes) < kMaxVdfDepth →
        ∃ fuel', c.length < fuel' ∧
          parseBinBlockLoop fuel (encodeAll nodes ++ c) out depth =
            parseBinBlockLoop fuel' c (out ++ toNodes nodes) depth) ∧
      (kMaxVdfDepth ≤ depth + Node.levelsAll (toNodes nodes) →
        parseBinBlockLoop fuel (encodeAll nodes ++ c) out depth = .ok none) := by
  induction nodes using forest_induction generalizing fuel c out depth with
  | nil =>
    constructor
    · intro _
      exact ⟨fuel, hfuel, by rw [toNodes, List.append_nil]; rfl⟩
    · intro hle
      simp only [toNodes, Node.levelsAll] at hle
      omega
  | string key value nodes ih =>
    rcases fuel with _ | fuel
    · omega
    rw [encodeAll_string_append] at hfuel ⊢
    simp only [List.length_cons, List.length_append] at hfuel
    have hrest : (encodeAll nodes ++ c).length < fuel := by
      rw [List.length_append]
      omega
    rw [parseBinBlockLoop_value (by decide) key.2 (parseBinValue_string _ key.1 value.2 _ depth)]
    have hnodes := ih hrest (out ++ [.leaf key.1 value.1]) hdepth
    simpa [toNodes, toNode, Node.levelsAll, Node.levels] using hnodes
  | int key value nodes ih =>
    rcases fuel with _ | fuel
    · omega
    rw [encodeAll_int_append] at hfuel ⊢
    simp only [List.length_cons, List.length_append] at hfuel
    have hrest : (encodeAll nodes ++ c).length < fuel := by
      rw [List.length_append]
      omega
    rw [parseBinBlockLoop_value (by decide) key.2 (parseBinValue_leOfI32 _ key.1 value _ depth)]
    have hnodes := ih hrest (out ++ [.leaf key.1 (decimal value)]) hdepth
    simpa [toNodes, toNode, Node.levelsAll, Node.levels] using hnodes
  | block key children nodes ihChildren ihNodes =>
    rcases fuel with _ | fuel
    · omega
    rw [encodeAll_block_append] at hfuel ⊢
    rw [toNodes_levels]
    simp only [List.length_cons, List.length_append] at hfuel
    have hrest : (encodeAll nodes ++ c).length < fuel := by
      rw [List.length_append]
      omega
    have hinner : (encodeAll children ++ kBinTagEndBlock :: (encodeAll nodes ++ c)).length <
        fuel := by
      simp only [List.length_cons, List.length_append]
      omega
    -- The block itself is read or refused by the limit, whatever comes behind it.
    by_cases hlevels : depth + 1 + Node.levelsAll (toNodes children) < kMaxVdfDepth
    · have hblock : parseBinBlock (parseBinBlockLoop fuel)
          (encodeAll children ++ kBinTagEndBlock :: (encodeAll nodes ++ c)) (depth + 1) =
            .ok (some (toNodes children, encodeAll nodes ++ c)) := by
        rw [parseBinBlock_of_lt (by omega)]
        rcases (ihChildren hinner [] (by omega)).1 hlevels with ⟨_ | fuel', hfuel', hloop⟩
        · omega
        · rw [hloop, parseBinBlockLoop_end, List.nil_append]
      rw [parseBinBlockLoop_value (by decide) key.2 (parseBinValue_block hblock)]
      have hnodes := ihNodes hrest (out ++ [.block key.1 (toNodes children)]) hdepth
      rw [List.append_assoc] at hnodes
      constructor
      · intro hlt
        exact hnodes.1 (by omega)
      · intro hle
        exact hnodes.2 (by omega)
    · have hblock : parseBinBlock (parseBinBlockLoop fuel)
          (encodeAll children ++ kBinTagEndBlock :: (encodeAll nodes ++ c)) (depth + 1) =
            .ok none := by
        by_cases hnext : depth + 1 < kMaxVdfDepth
        · rw [parseBinBlock_of_lt hnext]
          exact (ihChildren hinner [] hnext).2 (by omega)
        · exact parseBinBlock_of_le (by omega) _ _
      rw [parseBinBlockLoop_no_value (by decide) key.2 (parseBinValue_no_block hblock)]
      constructor
      · intro hlt
        omega
      · intro _
        rfl

/-! ## Unknown tags -/

/-- Contents of a block in which a tag is none of the four, in the block itself or in one
inside it.  What stands behind that tag may be anything. -/
inductive UnknownTag : List UInt8 → Prop
  | here (nodes : List BinNode) {tag : UInt8} (htag : tag ∉ knownTags) (rest : List UInt8) :
    UnknownTag (encodeAll nodes ++ tag :: rest)
  | inside (nodes : List BinNode) (key : CString) {bytes : List UInt8} (h : UnknownTag bytes) :
    UnknownTag (encodeAll nodes ++ kBinTagBlock :: (key.1 ++ 0 :: bytes))

theorem parseBinBlockLoop_unknown_cons {tag : UInt8} (htag : tag ∉ knownTags) (fuel : ℕ)
    (rest : List UInt8) (out : List Node) (depth : ℕ) :
    parseBinBlockLoop (fuel + 1) (tag :: rest) out depth = .ok none := by
  have hne : tag ≠ kBinTagEndBlock := by
    rintro rfl
    exact htag (by decide)
  rcases readCstr_cases rest with hnone | ⟨key, c, hkey, rfl, -⟩
  · exact parseBinBlockLoop_no_key hne hnone fuel out depth
  · exact parseBinBlockLoop_no_value hne hkey (parseBinValue_unknown htag _ key c depth) out

theorem UnknownTag.refused {bytes : List UInt8} (h : UnknownTag bytes) {fuel : ℕ}
    (hfuel : bytes.length < fuel) (out : List Node) {depth : ℕ} (hdepth : depth < kMaxVdfDepth) :
    parseBinBlockLoop fuel bytes out depth = .ok none := by
  induction h generalizing fuel out depth with
  | here nodes htag rest =>
    have hnodes := parseBinBlockLoop_encodeAll nodes hfuel out hdepth
    by_cases hlevels : depth + Node.levelsAll (toNodes nodes) < kMaxVdfDepth
    · rcases hnodes.1 hlevels with ⟨_ | fuel', hfuel', hloop⟩
      · omega
      · rw [hloop, parseBinBlockLoop_unknown_cons htag]
    · exact hnodes.2 (by omega)
  | inside nodes key h ih =>
    have hnodes := parseBinBlockLoop_encodeAll nodes hfuel out hdepth
    by_cases hlevels : depth + Node.levelsAll (toNodes nodes) < kMaxVdfDepth
    · rcases hnodes.1 hlevels with ⟨_ | fuel', hfuel', hloop⟩
      · omega
      · simp only [List.length_cons, List.length_append] at hfuel'
        rw [hloop]
        refine parseBinBlockLoop_no_value (by decide) key.2 (parseBinValue_no_block ?_) _
        by_cases hnext : depth + 1 < kMaxVdfDepth
        · rw [parseBinBlock_of_lt hnext]
          exact ih (by omega) [] hnext
        · exact parseBinBlock_of_le (by omega) _ _
    · exact hnodes.2 (by omega)

/-! ## The whole file -/

theorem parseBinary_root {key : List UInt8} (hkey : 0 ∉ key) (c : List UInt8) :
    parseBinary (kBinTagBlock :: (key ++ 0 :: c)) =
      parseBinBlockLoop (c.length + 1) c [] 1 >>= fun block =>
        .ok (block.map fun next => .block key next.1) := by
  have hblock : parseBinBlock (parseBinBlockLoop (c.length + 1)) c 1 =
      parseBinBlockLoop (c.length + 1) c [] 1 := parseBinBlock_of_lt (by decide) _ c
  simp only [parseBinary, List.isEmpty_cons, Bool.false_eq_true, if_false, has_one, Bool.not_true,
    readU8, read_zero, ok_bind, List.drop_succ_cons, List.drop_zero, ne_eq, not_true_eq_false,
    readCstr_append hkey, hblock]
  congr 1
  funext block
  cases block with
  | none => rfl
  | some next => rfl

/-- A file begins with a tag and a key for its root, or it is refused. -/
theorem parseBinary_cases (content : List UInt8) :
    parseBinary content = .ok none ∨
      ∃ key c, 0 ∉ key ∧ content = kBinTagBlock :: (key ++ 0 :: c) := by
  cases content with
  | nil => exact .inl rfl
  | cons tag c =>
    by_cases htag : tag = kBinTagBlock
    · rcases readCstr_cases c with hnone | ⟨key, c', hkey, rfl, -⟩
      · left
        simp only [parseBinary, List.isEmpty_cons, Bool.false_eq_true, if_false, has_one,
          Bool.not_true, readU8, read_zero, ok_bind, List.drop_succ_cons, List.drop_zero,
          ne_eq, htag, not_true_eq_false, hnone]
      · exact .inr ⟨key, c', hkey, by rw [htag]⟩
    · left
      simp only [parseBinary, List.isEmpty_cons, Bool.false_eq_true, if_false, has_one,
        Bool.not_true, readU8, read_zero, ok_bind, ne_eq, htag, not_false_eq_true, if_true]

theorem parseBinary_total (content : List UInt8) : ∃ result, parseBinary content = .ok result := by
  rcases parseBinary_cases content with hnone | ⟨key, c, hkey, rfl⟩
  · exact ⟨none, hnone⟩
  · rw [parseBinary_root hkey]
    rcases parseBinBlockLoop_leaves (Nat.lt_succ_self c.length) [] 1 with
      hnone | ⟨children, c', hsome, -⟩
    · exact ⟨none, by rw [hnone]; rfl⟩
    · exact ⟨some (.block key children), by rw [hsome]; rfl⟩

theorem encode_block_append (key : CString) (children : List BinNode) (rest : List UInt8) :
    encode (.block key children) ++ rest =
      kBinTagBlock :: (key.1 ++ 0 :: (encodeAll children ++ kBinTagEndBlock :: rest)) := by
  simp only [encode, List.cons_append, List.append_assoc, List.nil_append]

/-- The contents of the root, with whatever stands behind its end marker. -/
theorem parseBinBlockLoop_root (children : List BinNode) (rest : List UInt8) :
    parseBinBlockLoop ((encodeAll children ++ kBinTagEndBlock :: rest).length + 1)
        (encodeAll children ++ kBinTagEndBlock :: rest) [] 1 =
      .ok (if 1 + Node.levelsAll (toNodes children) < kMaxVdfDepth then
        some (toNodes children, rest) else none) := by
  have hroot := parseBinBlockLoop_encodeAll children
    (Nat.lt_succ_self (encodeAll children ++ kBinTagEndBlock :: rest).length) []
    (show 1 < kMaxVdfDepth by decide)
  by_cases hlevels : 1 + Node.levelsAll (toNodes children) < kMaxVdfDepth
  · rw [if_pos hlevels]
    rcases hroot.1 hlevels with ⟨_ | fuel', hfuel', hloop⟩
    · omega
    · rw [hloop, parseBinBlockLoop_end, List.nil_append]
  · rw [if_neg hlevels]
    exact hroot.2 (by omega)

theorem parseBinary_encode (key : CString) (children : List BinNode) (rest : List UInt8)
    (hlevels : (toNode (.block key children)).levels < kMaxVdfDepth) :
    parseBinary (encode (.block key children) ++ rest) =
      .ok (some (toNode (.block key children))) := by
  simp only [toNode, Node.levels] at hlevels
  rw [encode_block_append, parseBinary_root key.2, parseBinBlockLoop_root, if_pos (by omega)]
  rfl

example :
    parseBinary [0, 115, 0, 1, 110, 0, 118, 0, 2, 105, 0, 255, 255, 255, 255, 8, 7] =
      .ok (some (.block [115] [.leaf [110] [118], .leaf [105] [45, 49]])) :=
  rfl

/-- What is cut off is refused: were it read, the whole would be read with the rest of it left
over, and of the whole nothing is left over. -/
theorem parseBinary_strict_prefix (key : CString) (children : List BinNode)
    {front : List UInt8} (hfront : front <+: encode (.block key children))
    (hne : front ≠ encode (.block key children)) : parseBinary front = .ok none := by
  rcases hfront with ⟨more, hmore⟩
  rcases parseBinary_cases front with hnone | ⟨key', c, hkey', rfl⟩
  · exact hnone
  have hwhole := encode_block_append key children []
  rw [List.append_nil, ← hmore, List.cons_append, List.append_assoc, List.cons_append,
    List.cons.injEq] at hwhole
  have hkeys : readCstr (key' ++ 0 :: (c ++ more)) =
      .ok (some (key.1, encodeAll children ++ [kBinTagEndBlock])) := by
    rw [hwhole.2]
    exact readCstr_append key.2 _
  rw [readCstr_append hkey'] at hkeys
  simp only [Except.ok.injEq, Option.some.injEq, Prod.mk.injEq] at hkeys
  rw [parseBinary_root hkey']
  rcases parseBinBlockLoop_leaves (Nat.lt_succ_self c.length) [] 1 with
    hnone | ⟨nodes, c', hsome, -⟩
  · rw [hnone]
    rfl
  · have hle : c.length + 1 ≤ (c ++ more).length + 1 := by
      rw [List.length_append]
      omega
    have hread := parseBinBlockLoop_append hle c [] 1 nodes c' hsome more
    rw [hkeys.2, parseBinBlockLoop_root] at hread
    simp only [Except.ok.injEq, ite_eq_iff, reduceCtorEq, and_false, or_false, Option.some.injEq,
      Prod.mk.injEq, List.nil_eq, List.append_eq_nil_iff] at hread
    refine absurd ?_ hne
    rw [← hmore, hread.2.2.2, List.append_nil]

/-! ## What the reader promises -/

/-- A reader that undoes the writer and takes nothing else of its kind. -/
structure ReadsBinary (parse : List UInt8 → Except Fault (Option Node)) : Prop where
  /-- Within the depth limit the tree comes back, whatever stands behind it. -/
  whole : ∀ key children rest, (toNode (.block key children)).levels < kMaxVdfDepth →
    parse (encode (.block key children) ++ rest) = .ok (some (toNode (.block key children)))
  /-- What is cut off anywhere is refused. -/
  cutOff : ∀ key children front, front <+: encode (.block key children) →
    front ≠ encode (.block key children) → parse front = .ok none
  unknownRoot : ∀ tag rest, tag ∉ knownTags → parse (tag :: rest) = .ok none
  unknownInside : ∀ (key : CString) bytes, UnknownTag bytes →
    parse (kBinTagBlock :: (key.1 ++ 0 :: bytes)) = .ok none
  /-- No byte string leads to a read behind the end or to a loop without one. -/
  total : ∀ content, ∃ result, parse content = .ok result

theorem parseBinary_reads : ReadsBinary parseBinary where
  whole key children rest hlevels := parseBinary_encode key children rest hlevels
  cutOff key children _ hfront hne := parseBinary_strict_prefix key children hfront hne
  unknownRoot tag rest htag := by
    rcases parseBinary_cases (tag :: rest) with hnone | ⟨key, c, -, hcons⟩
    · exact hnone
    · rw [List.cons.injEq] at hcons
      refine absurd ?_ htag
      rw [hcons.1]
      decide
  unknownInside key bytes h := by
    rw [parseBinary_root key.2, h.refused (Nat.lt_succ_self _) [] (by decide)]
    rfl
  total content := parseBinary_total content

end LuminalShine.Steam
