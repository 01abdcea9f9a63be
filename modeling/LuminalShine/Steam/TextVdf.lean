import LuminalShine.Lib.Scan
import LuminalShine.Steam.VdfNode

/-!
# Text VDF

The reader of `libraryfolders.vdf` and `appmanifest_*.acf`: tokens in quotes or without,
comments, and blocks in braces by recursive descent.

## Main definitions

* `parse` — the reader; a cursor is what is left of the text, and `peek`, `peek2` and `next`
  look whether anything is left.
* `Gap`, `Escaped`, `Body` — the ways to write a tree down with quoted strings.

## Main results

* `skipWhitespace_gap`, `parseToken_quoted` — a gap is skipped, a quoted string is read.
* `parseBlockLoop_body` — the contents of a block, by induction on how they are written.
* `parse_reads` — every way to write a tree down is read as the tree, and the reader is never
  at fault.
-/

namespace LuminalShine.Steam

open Lib.Scan

/-! ## Characters -/

def tab : UInt8 := 9
def newline : UInt8 := 10
def quote : UInt8 := 34
def star : UInt8 := 42
def slash : UInt8 := 47
def backslash : UInt8 := 92
def openBrace : UInt8 := 123
def closeBrace : UInt8 := 125

/-- `std::isspace` -/
def isSpace (b : UInt8) : Bool := b = 32 || (9 ≤ b && b ≤ 13)

/-! ## The cursor -/

def peek (c : List UInt8) : Except Fault UInt8 :=
  if c.isEmpty then .ok 0 else read c 0

def peek2 (c : List UInt8) : Except Fault UInt8 :=
  if 1 < c.length then read c 1 else .ok 0

def next (c : List UInt8) : Except Fault (UInt8 × List UInt8) :=
  if c.isEmpty then .ok (0, c) else do
    let b ← read c 0
    .ok (b, c.drop 1)

/-! ## Tokens -/

def skipSpaces (c : List UInt8) : Except Fault (List UInt8) :=
  skipWhile (fun c => do .ok (isSpace (← peek c))) (c.length + 1) c

def skipLine (c : List UInt8) : Except Fault (List UInt8) :=
  skipWhile (fun c => do .ok ((← peek c) != newline)) (c.length + 1) c

def skipComment (c : List UInt8) : Except Fault (List UInt8) :=
  skipWhile (fun c => do .ok !((← peek c) == star && (← peek2 c) == slash)) (c.length + 1) c

def skipWhitespaceLoop : ℕ → List UInt8 → Except Fault (List UInt8)
  | 0, _ => .error .outOfFuel
  | fuel + 1, c => do
    let c ← skipSpaces c
    let first ← peek c
    let second ← peek2 c
    if first = slash ∧ second = slash then
      let c ← skipLine c
      skipWhitespaceLoop fuel c
    else if first = slash ∧ second = star then
      let (_, c) ← next c
      let (_, c) ← next c
      let c ← skipComment c
      if c.isEmpty then
        skipWhitespaceLoop fuel c
      else
        let (_, c) ← next c
        let (_, c) ← next c
        skipWhitespaceLoop fuel c
    else
      .ok c

/-- Skip whitespace, `//` line comments and block comments. -/
def skipWhitespace (c : List UInt8) : Except Fault (List UInt8) :=
  skipWhitespaceLoop (c.length + 1) c

/-- What the character behind a backslash stands for. -/
def unescape (esc : UInt8) : UInt8 :=
  if esc = 110 then newline
  else if esc = 116 then tab
  else if esc = 114 then 13
  else if esc = backslash then backslash
  else if esc = quote then quote
  else esc

def quotedLoop : ℕ → List UInt8 → List UInt8 → Except Fault (Option (List UInt8 × List UInt8))
  | 0, _, _ => .error .outOfFuel
  | fuel + 1, c, out => do
    if c.isEmpty then
      .ok none
    else
      let (ch, c) ← next c
      if ch = quote then
        .ok (some (out, c))
      else if ch = backslash ∧ !c.isEmpty then
        let (esc, c) ← next c
        quotedLoop fuel c (out ++ [unescape esc])
      else
        quotedLoop fuel c (out ++ [ch])

def parseQuoted (c : List UInt8) : Except Fault (Option (List UInt8 × List UInt8)) := do
  if (← peek c) ≠ quote then
    .ok none
  else
    let (_, c) ← next c
    quotedLoop (c.length + 1) c []

def endsBareword (ch : UInt8) : Bool :=
  ch = quote || ch = openBrace || ch = closeBrace || isSpace ch

def barewordLoop : ℕ → List UInt8 → List UInt8 → Except Fault (List UInt8 × List UInt8)
  | 0, _, _ => .error .outOfFuel
  | fuel + 1, c, out => do
    if c.isEmpty then
      .ok (out, c)
    else if endsBareword (← peek c) then
      .ok (out, c)
    else
      let (ch, c) ← next c
      barewordLoop fuel c (out ++ [ch])

def parseBareword (c : List UInt8) : Except Fault (Option (List UInt8 × List UInt8)) := do
  if c.isEmpty then
    .ok none
  else if endsBareword (← peek c) then
    .ok none
  else
    let (out, c) ← barewordLoop (c.length + 1) c []
    if out.isEmpty then .ok none else .ok (some (out, c))

def parseToken (c : List UInt8) : Except Fault (Option (List UInt8 × List UInt8)) := do
  let c ← skipWhitespace c
  if (← peek c) = quote then parseQuoted c else parseBareword c

/-! ## Blocks -/

/-- The check that the loop of a block begins with. -/
def parseBlock (loop : BlockReader) (c : List UInt8) (depth : ℕ) :
    Except Fault (Option (List Node × List UInt8)) :=
  if kMaxVdfDepth ≤ depth then .ok none else loop c [] depth

/-- The brace that ends a block, and what stands behind it. -/
def closeBlock (key : List UInt8) (children : List Node) (c : List UInt8) :
    Except Fault (Option (Node × List UInt8)) := do
  let c ← skipWhitespace c
  if (← peek c) ≠ closeBrace then
    .ok none
  else
    let (_, c) ← next c
    .ok (some (.block key children, c))

def parseValueForKey (loop : BlockReader) (key c : List UInt8) (depth : ℕ) :
    Except Fault (Option (Node × List UInt8)) := do
  let c ← skipWhitespace c
  if (← peek c) = openBrace then
    if kMaxVdfDepth ≤ depth then
      .ok none
    else
      let (_, c) ← next c
      match ← parseBlock loop c (depth + 1) with
      | none => .ok none
      | some (children, c) => closeBlock key children c
  else
    match ← parseToken c with
    | none => .ok none
    | some (value, c) => .ok (some (.leaf key value, c))

/-- The loop of `parse_block`, whose recursion has a round's fuel less. -/
def parseBlockLoop : ℕ → BlockReader
  | 0, _, _, _ => .error .outOfFuel
  | fuel + 1, c, out, depth => do
    let c ← skipWhitespace c
    if c.isEmpty || (← peek c) == closeBrace then
      .ok (some (out, c))
    else
      match ← parseToken c with
      | none => .ok none
      | some (key, c) =>
        match ← parseValueForKey (parseBlockLoop fuel) key c depth with
        | none => .ok none
        | some (node, c) => parseBlockLoop fuel c (out ++ [node]) depth

def parse (content : List UInt8) : Except Fault (Option Node) := do
  let c ← skipWhitespace content
  match ← parseToken c with
  | none => .ok none
  | some (key, c) =>
    let c ← skipWhitespace c
    if (← peek c) ≠ openBrace then
      .ok none
    else
      let (_, c) ← next c
      match ← parseBlock (parseBlockLoop (c.length + 1)) c 1 with
      | none => .ok none
      | some (children, c) =>
        match ← closeBlock key children c with
        | none => .ok none
        | some (root, _) => .ok (some root)

/-! ## What the cursor shows -/

@[simp] theorem peek_cons (b : UInt8) (c : List UInt8) : peek (b :: c) = .ok b := rfl

@[simp] theorem next_cons (b : UInt8) (c : List UInt8) : next (b :: c) = .ok (b, c) := rfl

@[simp] theorem peek2_cons_cons (a b : UInt8) (c : List UInt8) : peek2 (a :: b :: c) = .ok b := by
  simp [peek2]

theorem peek_eq (c : List UInt8) : peek c = .ok (c.headD 0) := by
  cases c with
  | nil => rfl
  | cons b c => rfl

theorem peek2_eq (c : List UInt8) : peek2 c = .ok (c.tail.headD 0) := by
  rcases c with _ | ⟨a, _ | ⟨b, c⟩⟩
  · rfl
  · rfl
  · exact peek2_cons_cons a b c

theorem next_eq (c : List UInt8) : next c = .ok (c.headD 0, c.tail) := by
  cases c with
  | nil => rfl
  | cons b c => rfl

theorem eq_cons_of_headD {c : List UInt8} {b : UInt8} (hb : b ≠ 0) (h : c.headD 0 = b) :
    c = b :: c.tail := by
  cases c with
  | nil => exact absurd h.symm hb
  | cons a c =>
    rw [List.headD_cons] at h
    rw [h, List.tail_cons]

/-! ## Whitespace and comments -/

theorem skipSpaces_eq (c : List UInt8) :
    skipSpaces c = .ok (dropTails (fun c => isSpace (c.headD 0)) c) :=
  skipWhile_eq (fun _ _ => rfl) (Nat.lt_succ_self _)

theorem skipLine_eq (c : List UInt8) :
    skipLine c = .ok (dropTails (fun c => c.headD 0 != newline) c) :=
  skipWhile_eq (fun _ _ => rfl) (Nat.lt_succ_self _)

theorem skipComment_eq (c : List UInt8) :
    skipComment c =
      .ok (dropTails (fun c => !(c.headD 0 == star && c.tail.headD 0 == slash)) c) := by
  refine skipWhile_eq (fun a c => ?_) (Nat.lt_succ_self _)
  rw [peek_cons, ok_bind, peek2_eq, ok_bind]
  rfl

/-- Between two rounds a comment has gone, so that more fuel than characters is enough. -/
theorem skipWhitespaceLoop_total {fuel : ℕ} {c : List UInt8} (hfuel : c.length < fuel) :
    ∃ c', skipWhitespaceLoop fuel c = .ok c' ∧ c'.length ≤ c.length := by
  induction fuel generalizing c with
  | zero => omega
  | succ fuel ih =>
    have hspaces := length_dropTails_le (fun c => isSpace (c.headD 0)) c
    simp only [skipWhitespaceLoop, skipSpaces_eq, ok_bind, peek_eq, peek2_eq, skipLine_eq, next_eq,
      skipComment_eq]
    generalize dropTails (fun c => isSpace (c.headD 0)) c = c₁ at hspaces ⊢
    split
    next hline =>
      have hcons := eq_cons_of_headD (by decide) hline.1
      have hdrop : (dropTails (fun c => c.headD 0 != newline) c₁).length < c₁.length := by
        rw [hcons]
        exact length_dropTails_lt rfl
      rcases ih (Nat.lt_of_lt_of_le hdrop (by omega)) with ⟨c', hok, hle⟩
      exact ⟨c', hok, by omega⟩
    next =>
      split
      next hblock =>
        have hcons := eq_cons_of_headD (by decide) hblock.1
        have hcons' := eq_cons_of_headD (by decide) hblock.2
        have hlen := congrArg List.length hcons
        have hlen' := congrArg List.length hcons'
        rw [List.length_cons] at hlen hlen'
        have hdrop := length_dropTails_le
          (fun c => !(c.headD 0 == star && c.tail.headD 0 == slash)) c₁.tail.tail
        generalize dropTails (fun c => !(c.headD 0 == star && c.tail.headD 0 == slash))
          c₁.tail.tail = c₂ at hdrop ⊢
        split
        · rcases ih (show c₂.length < fuel by omega) with ⟨c', hok, hle⟩
          exact ⟨c', hok, by omega⟩
        · have htails : c₂.tail.tail.length ≤ c₂.length := by
            simp only [List.length_tail]
            omega
          rcases ih (show c₂.tail.tail.length < fuel by omega) with ⟨c', hok, hle⟩
          exact ⟨c', hok, by omega⟩
      next => exact ⟨c₁, rfl, hspaces⟩

theorem skipWhitespace_total (c : List UInt8) :
    ∃ c', skipWhitespace c = .ok c' ∧ c'.length ≤ c.length :=
  skipWhitespaceLoop_total (Nat.lt_succ_self _)

/-- Whitespace and line comments. -/
inductive Gap : List UInt8 → Prop
  | nil : Gap []
  | white {b : UInt8} {gap : List UInt8} (hb : isSpace b = true) (h : Gap gap) : Gap (b :: gap)
  | comment {text gap : List UInt8} (htext : newline ∉ text) (h : Gap gap) :
    Gap (slash :: slash :: (text ++ newline :: gap))

theorem skipWhitespaceLoop_white {b : UInt8} (hb : isSpace b = true) (fuel : ℕ)
    (c : List UInt8) :
    skipWhitespaceLoop (fuel + 1) (b :: c) = skipWhitespaceLoop (fuel + 1) c := by
  simp only [skipWhitespaceLoop, skipSpaces_eq, dropTails, List.headD_cons, hb, if_true]

theorem skipWhitespaceLoop_comment {text : List UInt8} (htext : newline ∉ text) (fuel : ℕ)
    (c : List UInt8) :
    skipWhitespaceLoop (fuel + 1) (slash :: slash :: (text ++ newline :: c)) =
      skipWhitespaceLoop fuel (newline :: c) := by
  have hspaces : dropTails (fun c => isSpace (c.headD 0))
      (slash :: slash :: (text ++ newline :: c)) = slash :: slash :: (text ++ newline :: c) := by
    rw [dropTails, List.headD_cons, if_neg (by decide)]
  have hline : dropTails (fun c => c.headD 0 != newline)
      (slash :: slash :: text ++ newline :: c) = newline :: c := by
    refine dropTails_append (fun b hb tail => ?_) rfl
    rw [List.headD_cons, bne_iff_ne]
    rintro rfl
    rcases List.mem_cons.mp hb with hslash | hb
    · exact absurd hslash (by decide)
    rcases List.mem_cons.mp hb with hslash | hb
    · exact absurd hslash (by decide)
    · exact htext hb
  rw [List.cons_append, List.cons_append] at hline
  simp only [skipWhitespaceLoop, skipSpaces_eq, hspaces, ok_bind, peek_cons, peek2_cons_cons,
    and_self, if_true, skipLine_eq, hline]

theorem skipWhitespaceLoop_stop {b : UInt8} (hb : isSpace b = false) (hslash : b ≠ slash)
    (fuel : ℕ) (c : List UInt8) : skipWhitespaceLoop (fuel + 1) (b :: c) = .ok (b :: c) := by
  have hspaces : dropTails (fun c => isSpace (c.headD 0)) (b :: c) = b :: c := by
    rw [dropTails, List.headD_cons, hb, if_neg Bool.false_ne_true]
  simp only [skipWhitespaceLoop, skipSpaces_eq, hspaces, ok_bind, peek_cons, peek2_eq, hslash,
    false_and, if_false]

theorem skipWhitespaceLoop_gap {gap : List UInt8} (hgap : Gap gap) {b : UInt8}
    (hb : isSpace b = false) (hslash : b ≠ slash) {fuel : ℕ} {c : List UInt8}
    (hfuel : (gap ++ b :: c).length < fuel) :
    skipWhitespaceLoop fuel (gap ++ b :: c) = .ok (b :: c) := by
  induction hgap generalizing fuel with
  | nil =>
    rcases fuel with _ | fuel
    · omega
    · exact skipWhitespaceLoop_stop hb hslash fuel c
  | @white b' gap hb' h ih =>
    rcases fuel with _ | fuel
    · omega
    · rw [List.cons_append, List.length_cons] at hfuel
      rw [List.cons_append, skipWhitespaceLoop_white hb']
      exact ih (by omega)
  | @comment text gap htext h ih =>
    rcases fuel with _ | _ | fuel
    · omega
    · simp only [List.cons_append, List.length_cons] at hfuel
      omega
    · simp only [List.cons_append, List.append_assoc, List.length_cons, List.length_append]
        at hfuel ⊢
      rw [skipWhitespaceLoop_comment htext, skipWhitespaceLoop_white (by decide)]
      refine ih ?_
      simp only [List.length_cons, List.length_append]
      omega

/-- What a token, a block or the end of a block begins with is not skipped. -/
theorem skipWhitespace_gap {gap : List UInt8} (hgap : Gap gap) {b : UInt8}
    (hb : isSpace b = false) (hslash : b ≠ slash) (c : List UInt8) :
    skipWhitespace (gap ++ b :: c) = .ok (b :: c) :=
  skipWhitespaceLoop_gap hgap hb hslash (Nat.lt_succ_self _)

/-! ## Quoted strings and words -/

theorem quotedLoop_leaves {fuel : ℕ} {c : List UInt8} (hfuel : c.length < fuel)
    (out : List UInt8) : Leaves c.length (quotedLoop fuel c out) := by
  induction fuel generalizing c out with
  | zero => omega
  | succ fuel ih =>
    cases c with
    | nil => exact Leaves.none _
    | cons ch c =>
      rw [List.length_cons] at hfuel ⊢
      simp only [quotedLoop, List.isEmpty_cons, Bool.false_eq_true, if_false, next_cons, ok_bind]
      split
      · exact Leaves.some _ (by omega)
      · split
        next hescape =>
          cases c with
          | nil => exact absurd hescape.2 (by decide)
          | cons esc c =>
            rw [List.length_cons] at hfuel ⊢
            exact (ih (show c.length < fuel by omega) _).mono (by omega)
        next => exact (ih (by omega) _).mono (by omega)

theorem parseQuoted_leaves {n : ℕ} {c : List UInt8} (hn : c.length ≤ n + 1) :
    Leaves n (parseQuoted c) := by
  cases c with
  | nil => exact Leaves.none n
  | cons b c =>
    rw [List.length_cons] at hn
    simp only [parseQuoted, peek_cons, ok_bind, next_cons]
    split
    · exact Leaves.none n
    · exact (quotedLoop_leaves (Nat.lt_succ_self _) []).mono (by omega)

theorem barewordLoop_total {fuel : ℕ} {c : List UInt8} (hfuel : c.length < fuel)
    (out : List UInt8) :
    ∃ word c', barewordLoop fuel c out = .ok (word, c') ∧ c'.length ≤ c.length := by
  induction fuel generalizing c out with
  | zero => omega
  | succ fuel ih =>
    cases c with
    | nil => exact ⟨out, [], rfl, Nat.le_refl _⟩
    | cons ch c =>
      rw [List.length_cons] at hfuel ⊢
      simp only [barewordLoop, List.isEmpty_cons, Bool.false_eq_true, if_false, peek_cons, ok_bind,
        next_cons]
      split
      · exact ⟨out, ch :: c, rfl, Nat.le_refl _⟩
      · rcases ih (by omega : c.length < fuel) (out ++ [ch]) with ⟨word, c', hok, hle⟩
        exact ⟨word, c', hok, by omega⟩

theorem parseBareword_leaves {n : ℕ} {c : List UInt8} (hn : c.length ≤ n + 1) :
    Leaves n (parseBareword c) := by
  cases c with
  | nil => exact Leaves.none n
  | cons ch c =>
    rw [List.length_cons] at hn
    simp only [parseBareword, List.isEmpty_cons, Bool.false_eq_true, if_false, peek_cons, ok_bind]
    split
    next => exact Leaves.none n
    next hfirst =>
      rcases barewordLoop_total (Nat.lt_succ_self c.length) [ch] with ⟨word, c', hok, hle⟩
      have hloop : barewordLoop ((ch :: c).length + 1) (ch :: c) [] = .ok (word, c') := by
        rw [List.length_cons, barewordLoop, List.isEmpty_cons, if_neg Bool.false_ne_true,
          peek_cons, ok_bind, if_neg hfirst]
        exact hok
      rw [hloop, ok_bind]
      split
      · exact Leaves.none n
      · exact Leaves.some _ (show c'.length ≤ n by omega)

/-- A token takes a character at least. -/
theorem parseToken_leaves {n : ℕ} {c : List UInt8} (hn : c.length ≤ n + 1) :
    Leaves n (parseToken c) := by
  rcases skipWhitespace_total c with ⟨c', hskip, hle⟩
  rw [parseToken, hskip, ok_bind, peek_eq, ok_bind]
  split
  · exact parseQuoted_leaves (by omega)
  · exact parseBareword_leaves (by omega)

/-- The characters that have an escape, and what it is written with. -/
def escapes : List (UInt8 × UInt8) :=
  [(quote, quote), (backslash, backslash), (newline, 110), (tab, 116)]

theorem unescape_of_mem {b esc : UInt8} (h : (b, esc) ∈ escapes) : unescape esc = b := by
  revert h
  simp only [escapes, List.mem_cons, List.not_mem_nil, or_false, Prod.mk.injEq]
  rintro (⟨rfl, rfl⟩ | ⟨rfl, rfl⟩ | ⟨rfl, rfl⟩ | ⟨rfl, rfl⟩)
  · decide
  · decide
  · decide
  · decide

/-- A string as it is written between quotes. -/
inductive Escaped : List UInt8 → List UInt8 → Prop
  | nil : Escaped [] []
  | plain {b : UInt8} {s text : List UInt8} (hquote : b ≠ quote) (hback : b ≠ backslash)
    (h : Escaped s text) : Escaped (b :: s) (b :: text)
  | escape {b esc : UInt8} {s text : List UInt8} (hesc : (b, esc) ∈ escapes)
    (h : Escaped s text) : Escaped (b :: s) (backslash :: esc :: text)

theorem quotedLoop_escaped {s text : List UInt8} (h : Escaped s text) {fuel : ℕ}
    {c : List UInt8} (hfuel : (text ++ quote :: c).length < fuel) (out : List UInt8) :
    quotedLoop fuel (text ++ quote :: c) out = .ok (some (out ++ s, c)) := by
  induction h generalizing fuel out with
  | nil =>
    rcases fuel with _ | fuel
    · omega
    · rw [List.append_nil]
      rfl
  | @plain b s text hquote hback h ih =>
    rcases fuel with _ | fuel
    · omega
    · rw [List.cons_append, List.length_cons] at hfuel
      simp only [List.cons_append, quotedLoop, List.isEmpty_cons, Bool.false_eq_true, if_false,
        next_cons, ok_bind, hquote, hback, false_and]
      rw [ih (by omega), List.append_assoc, List.cons_append, List.nil_append]
  | @escape b esc s text hesc h ih =>
    rcases fuel with _ | fuel
    · omega
    · rw [List.cons_append, List.cons_append, List.length_cons, List.length_cons] at hfuel
      have hback : backslash ≠ quote := by decide
      simp only [List.cons_append, quotedLoop, List.isEmpty_cons, Bool.false_eq_true, if_false,
        next_cons, ok_bind, hback, Bool.not_false, and_self, if_true, unescape_of_mem hesc]
      rw [ih (by omega), List.append_assoc, List.cons_append, List.nil_append]

/-- A string in quotes. -/
def quoted (text : List UInt8) : List UInt8 := quote :: (text ++ [quote])

theorem parseQuoted_quoted {s text : List UInt8} (h : Escaped s text) (c : List UInt8) :
    parseQuoted (quoted text ++ c) = .ok (some (s, c)) := by
  rw [quoted, List.cons_append, List.append_assoc, List.cons_append, List.nil_append, parseQuoted,
    peek_cons, ok_bind, if_neg (by decide), next_cons, ok_bind]
  exact quotedLoop_escaped h (Nat.lt_succ_self _) []

theorem parseToken_quoted {gap s text : List UInt8} (hgap : Gap gap) (h : Escaped s text)
    (c : List UInt8) : parseToken (gap ++ (quoted text ++ c)) = .ok (some (s, c)) := by
  have hskip : skipWhitespace (gap ++ (quoted text ++ c)) = .ok (quoted text ++ c) :=
    skipWhitespace_gap hgap (by decide) (by decide) (text ++ [quote] ++ c)
  have hpeek : peek (quoted text ++ c) = .ok quote := rfl
  rw [parseToken, hskip, ok_bind, hpeek, ok_bind, if_pos rfl]
  exact parseQuoted_quoted h c

/-! ## The reader comes to its end -/

theorem parseBlock_of_lt {depth : ℕ} (h : depth < kMaxVdfDepth) (loop : BlockReader)
    (c : List UInt8) : parseBlock loop c depth = loop c [] depth := by
  rw [parseBlock, if_neg (Nat.not_le_of_lt h)]

theorem parseBlock_of_le {depth : ℕ} (h : kMaxVdfDepth ≤ depth) (loop : BlockReader)
    (c : List UInt8) : parseBlock loop c depth = .ok none := by
  rw [parseBlock, if_pos h]

theorem closeBlock_leaves (key : List UInt8) (children : List Node) (c : List UInt8) :
    Leaves c.length (closeBlock key children c) := by
  rcases skipWhitespace_total c with ⟨c', hskip, hle⟩
  rw [closeBlock, hskip, ok_bind, peek_eq, ok_bind]
  split
  · exact Leaves.none _
  · rw [next_eq, ok_bind]
    refine Leaves.some _ ?_
    rw [List.length_tail]
    omega

theorem parseValueForKey_leaves {loop : BlockReader} {c : List UInt8} {depth : ℕ}
    (hloop : ∀ c', c'.length < c.length → Leaves c'.length (loop c' [] (depth + 1)))
    (key : List UInt8) : Leaves c.length (parseValueForKey loop key c depth) := by
  rcases skipWhitespace_total c with ⟨c₁, hskip, hle⟩
  rw [parseValueForKey, hskip, ok_bind, peek_eq, ok_bind]
  split
  next hopen =>
    have hlen := congrArg List.length (eq_cons_of_headD (by decide) hopen)
    rw [List.length_cons] at hlen
    split
    · exact Leaves.none _
    · rw [next_eq, ok_bind]
      dsimp only
      by_cases hdepth : depth + 1 < kMaxVdfDepth
      · rw [parseBlock_of_lt hdepth]
        rcases hloop c₁.tail (by omega) with hnone | ⟨children, c₂, hsome, hc₂⟩
        · rw [hnone]
          exact Leaves.none _
        · rw [hsome]
          exact (closeBlock_leaves key children c₂).mono (by omega)
      · rw [parseBlock_of_le (by omega)]
        exact Leaves.none _
  next =>
    rcases parseToken_leaves (Nat.le_succ_of_le hle) with hnone | ⟨value, c₂, hsome, hc₂⟩
    · rw [hnone]
      exact Leaves.none _
    · rw [hsome]
      exact Leaves.some _ hc₂

/-- A round takes a key at least, so that more fuel than characters is enough. -/
theorem parseBlockLoop_leaves {fuel : ℕ} {c : List UInt8} (hfuel : c.length < fuel)
    (out : List Node) (depth : ℕ) : Leaves c.length (parseBlockLoop fuel c out depth) := by
  induction fuel generalizing c out depth with
  | zero => omega
  | succ fuel ih =>
    rcases skipWhitespace_total c with ⟨c₁, hskip, hle⟩
    rw [parseBlockLoop, hskip, ok_bind, peek_eq, ok_bind]
    split
    · exact Leaves.some _ hle
    next hmore =>
      have hpos : 0 < c₁.length := by
        rcases c₁ with _ | ⟨b, c₁⟩
        · exact absurd rfl hmore
        · exact Nat.succ_pos _
      rcases parseToken_leaves (show c₁.length ≤ c₁.length - 1 + 1 by omega) with
        hnone | ⟨key, c₂, hsome, hc₂⟩
      · rw [hnone]
        exact Leaves.none _
      · rw [hsome, ok_bind]
        have hvalue : Leaves c₂.length
            (parseValueForKey (parseBlockLoop fuel) key c₂ depth) :=
          parseValueForKey_leaves (fun c' hc' => ih (by omega) [] (depth + 1)) key
        rcases hvalue with hnone | ⟨node, c₃, hnode, hc₃⟩
        · dsimp only
          rw [hnone]
          exact Leaves.none _
        · dsimp only
          rw [hnode]
          exact (ih (show c₃.length < fuel by omega) _ depth).mono (by omega)

theorem parse_total (content : List UInt8) : ∃ result, parse content = .ok result := by
  rcases skipWhitespace_total content with ⟨c, hskip, -⟩
  rw [parse, hskip, ok_bind]
  rcases parseToken_leaves (Nat.le_succ c.length) with hnone | ⟨key, c₁, hsome, -⟩
  · exact ⟨none, by rw [hnone]; rfl⟩
  rcases skipWhitespace_total c₁ with ⟨c₂, hskip', -⟩
  rw [hsome, ok_bind]
  dsimp only
  rw [hskip', ok_bind, peek_eq, ok_bind]
  split
  · exact ⟨none, rfl⟩
  rw [next_eq, ok_bind]
  dsimp only
  rw [parseBlock_of_lt (by decide)]
  rcases parseBlockLoop_leaves (Nat.lt_succ_self c₂.tail.length) [] 1 with
    hnone | ⟨children, c₃, hchildren, -⟩
  · exact ⟨none, by rw [hnone]; rfl⟩
  rw [hchildren, ok_bind]
  dsimp only
  rcases closeBlock_leaves key children c₃ with hnone | ⟨root, c₄, hroot, -⟩
  · exact ⟨none, by rw [hnone]; rfl⟩
  · exact ⟨some root, by rw [hroot]; rfl⟩

/-! ## What is written is read -/

/-- The contents of a block with gaps between the tokens. -/
inductive Body : List Node → List UInt8 → Prop
  | nil : Body [] []
  | leaf {g₁ k g₂ v text key value : List UInt8} {nodes : List Node} (h₁ : Gap g₁)
    (hkey : Escaped key k) (h₂ : Gap g₂) (hvalue : Escaped value v) (h : Body nodes text) :
    Body (.leaf key value :: nodes) (g₁ ++ (quoted k ++ (g₂ ++ (quoted v ++ text))))
  | block {g₁ k g₂ inner g₃ text key : List UInt8} {children nodes : List Node} (h₁ : Gap g₁)
    (hkey : Escaped key k) (h₂ : Gap g₂) (hchildren : Body children inner) (h₃ : Gap g₃)
    (h : Body nodes text) :
    Body (.block key children :: nodes)
      (g₁ ++ (quoted k ++ (g₂ ++ openBrace :: (inner ++ (g₃ ++ closeBrace :: text)))))

/-- A tree as a text, whatever stands behind its last brace. -/
inductive Document : Node → List UInt8 → Prop
  | intro {g₁ k g₂ inner g₃ key : List UInt8} {children : List Node} (h₁ : Gap g₁)
    (hkey : Escaped key k) (h₂ : Gap g₂) (hchildren : Body children inner) (h₃ : Gap g₃)
    (rest : List UInt8) :
    Document (.block key children)
      (g₁ ++ (quoted k ++ (g₂ ++ openBrace :: (inner ++ (g₃ ++ closeBrace :: rest)))))

theorem skipWhitespace_quoted {gap : List UInt8} (hgap : Gap gap) (text c : List UInt8) :
    skipWhitespace (gap ++ (quoted text ++ c)) = .ok (quoted text ++ c) :=
  skipWhitespace_gap hgap (by decide) (by decide) (text ++ [quote] ++ c)

theorem peek_quoted (text c : List UInt8) : peek (quoted text ++ c) = .ok quote :=
  rfl

theorem closeBlock_close (key : List UInt8) (children : List Node) (c : List UInt8) :
    closeBlock key children (closeBrace :: c) = .ok (some (.block key children, c)) := by
  have hskip : skipWhitespace (closeBrace :: c) = .ok (closeBrace :: c) :=
    skipWhitespace_gap Gap.nil (by decide) (by decide) c
  rw [closeBlock, hskip, ok_bind, peek_cons, ok_bind, if_neg (not_not_intro rfl)]
  rfl

theorem parseValueForKey_string (loop : BlockReader) (key : List UInt8)
    {gap value v : List UInt8} (hgap : Gap gap) (hvalue : Escaped value v) (c : List UInt8)
    (depth : ℕ) :
    parseValueForKey loop key (gap ++ (quoted v ++ c)) depth =
      .ok (some (.leaf key value, c)) := by
  have htoken : parseToken (quoted v ++ c) = .ok (some (value, c)) :=
    parseToken_quoted Gap.nil hvalue c
  rw [parseValueForKey, skipWhitespace_quoted hgap, ok_bind, peek_quoted, ok_bind,
    if_neg (by decide), htoken]
  rfl

theorem parseValueForKey_block {loop : BlockReader} (key : List UInt8) {gap c c' : List UInt8}
    (hgap : Gap gap) {depth : ℕ} (hdepth : depth + 1 < kMaxVdfDepth) {children : List Node}
    (h : loop c [] (depth + 1) = .ok (some (children, closeBrace :: c'))) :
    parseValueForKey loop key (gap ++ openBrace :: c) depth =
      .ok (some (.block key children, c')) := by
  rw [parseValueForKey, skipWhitespace_gap hgap (by decide) (by decide), ok_bind, peek_cons,
    ok_bind, if_pos rfl, if_neg (by omega), next_cons, ok_bind]
  dsimp only
  rw [parseBlock_of_lt hdepth, h, ok_bind]
  exact closeBlock_close key children c'

theorem parseBlockLoop_close {gap : List UInt8} (hgap : Gap gap) (fuel : ℕ) (c : List UInt8)
    (out : List Node) (depth : ℕ) :
    parseBlockLoop (fuel + 1) (gap ++ closeBrace :: c) out depth =
      .ok (some (out, closeBrace :: c)) := by
  rw [parseBlockLoop, skipWhitespace_gap hgap (by decide) (by decide)]
  rfl

/-- A round over a key in quotes and a value that is read. -/
theorem parseBlockLoop_entry {gap key k : List UInt8} (hgap : Gap gap) (hkey : Escaped key k)
    {fuel : ℕ} {c c' : List UInt8} {node : Node} {depth : ℕ}
    (h : parseValueForKey (parseBlockLoop fuel) key c depth = .ok (some (node, c')))
    (out : List Node) :
    parseBlockLoop (fuel + 1) (gap ++ (quoted k ++ c)) out depth =
      parseBlockLoop fuel c' (out ++ [node]) depth := by
  have htoken : parseToken (quoted k ++ c) = .ok (some (key, c)) :=
    parseToken_quoted Gap.nil hkey c
  have hmore : ¬(((quoted k ++ c).isEmpty || quote == closeBrace) = true) := Bool.false_ne_true
  rw [parseBlockLoop, skipWhitespace_quoted hgap, ok_bind, peek_quoted, ok_bind, if_neg hmore,
    htoken, ok_bind]
  dsimp only
  rw [h]
  rfl

/-- The contents of a block are read up to the brace that ends it. -/
theorem parseBlockLoop_body {nodes : List Node} {text : List UInt8} (hbody : Body nodes text)
    {gap : List UInt8} (hgap : Gap gap) {fuel : ℕ} {c : List UInt8}
    (hfuel : (text ++ (gap ++ closeBrace :: c)).length < fuel) (out : List Node) {depth : ℕ}
    (hdepth : depth + Node.levelsAll nodes < kMaxVdfDepth) :
    parseBlockLoop fuel (text ++ (gap ++ closeBrace :: c)) out depth =
      .ok (some (out ++ nodes, closeBrace :: c)) := by
  induction hbody generalizing gap fuel c out depth with
  | nil =>
    rcases fuel with _ | fuel
    · omega
    · rw [List.nil_append, List.append_nil, parseBlockLoop_close hgap]
  | @leaf g₁ k g₂ v text key value nodes h₁ hkey h₂ hvalue h ih =>
    rcases fuel with _ | fuel
    · omega
    · have hrest : (text ++ (gap ++ closeBrace :: c)).length < fuel := by
        simp only [List.length_append, List.length_cons, quoted] at hfuel ⊢
        omega
      simp only [Node.levelsAll, Node.levels, Nat.zero_max] at hdepth
      simp only [List.append_assoc]
      rw [parseBlockLoop_entry h₁ hkey (parseValueForKey_string _ key h₂ hvalue _ depth),
        ih hgap hrest _ hdepth, List.append_assoc, List.cons_append, List.nil_append]
  | @block g₁ k g₂ inner g₃ text key children nodes h₁ hkey h₂ hchildren h₃ h ihChildren ih =>
    rcases fuel with _ | fuel
    · omega
    · have hrest : (text ++ (gap ++ closeBrace :: c)).length < fuel := by
        simp only [List.length_append, List.length_cons, quoted] at hfuel ⊢
        omega
      have hinner : (inner ++ (g₃ ++ closeBrace :: (text ++ (gap ++ closeBrace :: c)))).length <
          fuel := by
        simp only [List.length_append, List.length_cons, quoted] at hfuel ⊢
        omega
      simp only [Node.levelsAll, Node.levels] at hdepth
      have hblock := ihChildren h₃ hinner [] (show depth + 1 + _ < kMaxVdfDepth by omega)
      simp only [List.append_assoc, List.cons_append]
      rw [parseBlockLoop_entry h₁ hkey (parseValueForKey_block key h₂ (by omega) hblock),
        ih hgap hrest _ (by omega), List.nil_append, List.append_assoc, List.cons_append,
        List.nil_append]

theorem parse_document {root : Node} {text : List UInt8} (h : Document root text)
    (hlevels : root.levels < kMaxVdfDepth) : parse text = .ok (some root) := by
  rcases h with ⟨h₁, hkey, h₂, hchildren, h₃, rest⟩
  rename_i g₁ k g₂ inner g₃ key children
  rw [Node.levels] at hlevels
  have htoken := parseToken_quoted Gap.nil hkey
    (g₂ ++ openBrace :: (inner ++ (g₃ ++ closeBrace :: rest)))
  have hbody := parseBlockLoop_body hchildren h₃
    (Nat.lt_succ_self (inner ++ (g₃ ++ closeBrace :: rest)).length) []
    (show 1 + _ < kMaxVdfDepth by omega)
  rw [List.nil_append] at htoken hbody
  rw [parse, skipWhitespace_quoted h₁, ok_bind, htoken, ok_bind]
  dsimp only
  rw [skipWhitespace_gap h₂ (by decide) (by decide), ok_bind, peek_cons, ok_bind,
    if_neg (not_not_intro rfl), next_cons, ok_bind]
  dsimp only
  rw [parseBlock_of_lt (by decide), hbody, ok_bind]
  dsimp only
  rw [closeBlock_close]
  rfl

/-- `"a" //x⏎{"k" "v\""}` -/
example : parse [34, 97, 34, 32, 47, 47, 120, 10, 123, 34, 107, 34, 9, 34, 118, 92, 34, 34, 125] =
    .ok (some (.block [97] [.leaf [107] [118, 34]])) :=
  rfl

/-- A reader of texts that is never at fault. -/
structure ReadsText (parse : List UInt8 → Except Fault (Option Node)) : Prop where
  /-- Within the depth limit the tree comes back, however it is written. -/
  document : ∀ root text, Document root text → root.levels < kMaxVdfDepth →
    parse text = .ok (some root)
  /-- No text leads to a read behind the end or to a loop without one. -/
  total : ∀ content, ∃ result, parse content = .ok result

theorem parse_reads : ReadsText parse where
  document _ _ h hlevels := parse_document h hlevels
  total content := parse_total content

end LuminalShine.Steam
