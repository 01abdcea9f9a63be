import LuminalShine.Lib.Access
import Mathlib.Algebra.Group.Nat.Defs

/-!
# Splitting the text of a request

`cmd_setup` and the first half of `cmd_announce` of `src/rtsp.cpp`: SETUP looks for the stream's
type between `=` and `/` of the target, ANNOUNCE splits its payload into lines and attributes.
Every byte that is looked at and every view that is formed is recorded.

SETUP goes on one past what its first search returns.  Where the target has no `=`, that is
one past the target's end, and the length of the type is minus one.

`std::find` over a range whose ends are the wrong way round looks at nothing and returns the
last end.  The parser of a request ends its strings with a zero.

## Main definitions

* `Request` — what the handlers get of a request.
* `cmdSetup`, `cmdAnnounce` — the source's functions.

## Main results

* `safe_cmdSetup_iff` — which targets are scanned within their bounds.
* `fine_cmdAnnounce` — every payload is split within its bounds.
-/

namespace LuminalShine.Rtsp.Requests

open LuminalShine.Lib

abbrev Bytes := List UInt8

/-! ## Strings -/

/-- `std::string_view::npos` -/
def npos : ℕ := 2 ^ 64 - 1

/-- A difference of pointers as a `size_t`. -/
def distance (start finish : ℕ) : ℕ := (finish + 2 ^ 64 - start) % 2 ^ 64

/-- Form a view of `size` bytes from `offset` on. -/
def form (view : View) (offset size : ℕ) : Traced View :=
  ⟨[⟨view.start + offset, size, view.buffer.length⟩], view.sub offset size⟩

/-- `std::find` over a range of a view. -/
def find (view : View) (value : UInt8) (first last : ℕ) : Traced ℕ :=
  if first < last then do
    let byte ← view.read first 1
    if byte = [value] then pure first else find view value (first + 1) last
  else pure last
termination_by last - first

/-- `std::string_view::find` -/
def findChar (view : View) (value : UInt8) : Traced ℕ := do
  let pos ← find view value 0 view.size
  pure (if pos < view.size then pos else npos)

/-- `std::string_view::substr`; none where it throws. -/
def substr (view : View) (offset count : ℕ) : Traced (Option View) :=
  if view.size < offset then pure none
  else do
    let sub ← form view offset (min count (view.size - offset))
    pure (some sub)

/-- A comparison with a text. -/
def isText (view : View) (text : Bytes) : Traced Bool :=
  if view.size = text.length then do
    let bytes ← view.read 0 view.size
    pure (bytes = text)
  else pure false

/-! ## Requests -/

/-- What the handlers get of a request.  A length is an `int`. -/
structure Request where
  target : Bytes
  payload : Bytes
  targetFits : target.length < 2 ^ 31
  payloadFits : payload.length < 2 ^ 31

/-- The target of a request, in front of the zero that ends it. -/
def Request.targetView (req : Request) : View :=
  ⟨req.target ++ [0], 0, req.target.length⟩

/-- `payload` -/
def Request.payloadView (req : Request) : View := View.whole req.payload

/-- The streams that are set up. -/
inductive Stream
  | audio
  | video
  | control
  deriving DecidableEq, Repr

/-- Which stream a type names, if any. -/
def selectStream (type : View) : Traced (Option Stream) := do
  if ← isText type [97, 117, 100, 105, 111] then pure (some .audio)
  else if ← isText type [118, 105, 100, 101, 111] then pure (some .video)
  else if ← isText type [99, 111, 110, 116, 114, 111, 108] then pure (some .control)
  else pure none

/-- `cmd_setup`: the stream that the reply is about; without one it is `cmd_not_found`'s. -/
def cmdSetup (req : Request) : Traced (Option Stream) := do
  let target := req.targetView
  let equals ← find target 61 0 target.size
  let start := equals + 1
  let finish ← find target 47 start target.size
  let type ← form target start (distance start finish)
  selectStream type

/-- The `whitespace` of `cmd_announce`. -/
def isBreak (byte : Bytes) : Bool := byte = [10] || byte = [13]

/-- The inner loop over the lines: it skips further breaks. -/
def skipBreaks (payload : View) (pos : ℕ) : Traced {next : ℕ // pos ≤ next} :=
  if pos < payload.size then do
    let byte ← payload.read pos 1
    if isBreak byte then do
      let next ← skipBreaks payload (pos + 1)
      pure ⟨next.val, Nat.le_of_succ_le next.property⟩
    else pure ⟨pos, Nat.le_refl pos⟩
  else pure ⟨pos, Nat.le_refl pos⟩
termination_by payload.size - pos

/-- The loop over the lines; what follows the last break is not one. -/
def splitLines (payload : View) (pos start : ℕ) : Traced (List View) :=
  if pos < payload.size then do
    let byte ← payload.read pos 1
    if isBreak byte then do
      let line ← form payload start (distance start pos)
      let next ← skipBreaks payload (pos + 1)
      let rest ← splitLines payload next.val next.val
      pure (line :: rest)
    else splitLines payload (pos + 1) start
  else pure []
termination_by payload.size - pos
decreasing_by
  · have := next.property
    omega
  · omega

/-- What the lines have given. -/
structure Sdp where
  client : Option View
  args : List (Bytes × Bytes)
  duplicatePyrowaveFeatureAttribute : Bool

/-- `is_pyrowave_feature_attribute`; the names are the parameters of the stream's video. -/
def isPyrowaveFeatureAttribute (name : Bytes) : Bool :=
  name = "x-ss-video[0].pyrowaveAdaptiveFec".toUTF8.toList ||
    name = "x-ss-video[0].pyrowaveAdaptiveBitrate".toUTF8.toList

/-- `val.back() == ' '`, and the view without it. -/
def trimBack (name : Bytes) (val : View) : Traced (Option View) :=
  if isPyrowaveFeatureAttribute name ∨ val.size = 0 then pure (some val)
  else do
    let back ← val.read (val.size - 1) 1
    if back = [32] then substr val 0 (val.size - 1) else pure (some val)

/-- `args.emplace`: the first value of a name stays. -/
def Sdp.emplace (sdp : Sdp) (name val : Bytes) : Sdp :=
  if (sdp.args.lookup name).isSome then
    { sdp with
      duplicatePyrowaveFeatureAttribute :=
        sdp.duplicatePyrowaveFeatureAttribute || isPyrowaveFeatureAttribute name }
  else { sdp with args := sdp.args ++ [(name, val)] }

/-- An attribute: what stands before its colon and what stands behind it. -/
def readAttribute (sdp : Sdp) (line : View) : Traced (Option Sdp) := do
  let pos ← findChar line 58
  let name ← substr line 2 (distance 2 pos)
  let val ← substr line ((pos + 1) % 2 ^ 64) npos
  match name, val with
  | some name, some val => do
      let key ← name.read 0 name.size
      match ← trimBack key val with
      | some val => do
          let text ← val.read 0 val.size
          pure (some (sdp.emplace key text))
      | none => pure none
  | _, _ => pure none

/-- One line. -/
def readLine (sdp : Sdp) (line : View) : Traced (Option Sdp) := do
  match ← substr line 0 2 with
  | none => pure none
  | some type => do
      if ← isText type [115, 61] then do
        let client ← substr line 2 npos
        pure (client.map fun client => { sdp with client := some client })
      else if ← isText type [97, 61] then readAttribute sdp line
      else pure (some sdp)

/-- The loop over the lines. -/
def readLines (sdp : Sdp) : List View → Traced (Option Sdp)
  | [] => pure (some sdp)
  | line :: rest => do
      match ← readLine sdp line with
      | none => pure none
      | some sdp => readLines sdp rest

/-- `cmd_announce`, up to its arguments; none where it throws. -/
def cmdAnnounce (req : Request) : Traced (Option Sdp) := do
  let lines ← splitLines req.payloadView 0 0
  readLines { client := none, args := [], duplicatePyrowaveFeatureAttribute := false } lines

/-! ## What the strings' functions touch -/

/-- The view lies in its buffer. -/
def Within (view : View) : Prop := view.start + view.size ≤ view.buffer.length

theorem safe_form {view : View} (h : Within view) {offset size : ℕ}
    (hle : offset + size ≤ view.size) : (form view offset size).Safe := by
  rw [Traced.Safe, form, List.forall_mem_singleton]
  simp only [Within] at h
  intro i hi
  dsimp only at hi ⊢
  omega

theorem within_form {view : View} (h : Within view) {offset size : ℕ}
    (hle : offset + size ≤ view.size) : Within (form view offset size).val := by
  simp only [Within, form, View.sub] at h ⊢
  omega

theorem size_form (view : View) (offset size : ℕ) : (form view offset size).val.size = size := rfl

theorem Within.safe_read {view : View} (h : Within view) {offset len : ℕ}
    (hle : offset + len ≤ view.size) : (view.read offset len).Safe := by
  simp only [Within] at h
  exact View.safe_read_of_le (by omega)

theorem distance_of_le {start finish : ℕ} (hle : start ≤ finish) (hlt : finish < 2 ^ 64) :
    distance start finish = finish - start := by
  rw [distance, show finish + 2 ^ 64 - start = finish - start + 2 ^ 64 by omega,
    Nat.add_mod_right, Nat.mod_eq_of_lt (by omega)]

/-- One past the end is too far by the whole address space but one. -/
theorem distance_succ {start : ℕ} : distance (start + 1) start = 2 ^ 64 - 1 := by
  rw [distance, show start + 2 ^ 64 - (start + 1) = 2 ^ 64 - 1 by omega]
  exact Nat.mod_eq_of_lt (by omega)

theorem safe_find {view : View} (h : Within view) (value : UInt8) {first last : ℕ}
    (hlast : last ≤ view.size) : (find view value first last).Safe := by
  induction first using find.induct last with
  | case1 first hlt ih =>
      rw [find, if_pos hlt, Traced.safe_bind]
      refine ⟨h.safe_read (by omega), ?_⟩
      split_ifs
      · exact Traced.safe_pure _
      · exact ih
  | case2 first hge =>
      rw [find, if_neg hge]
      exact Traced.safe_pure _

/-- Where a search in a valid range ends. -/
theorem val_find_mem (view : View) (value : UInt8) {first last : ℕ} (hle : first ≤ last) :
    first ≤ (find view value first last).val ∧ (find view value first last).val ≤ last := by
  induction first using find.induct last with
  | case1 first hlt ih =>
      rw [find, if_pos hlt, Traced.val_bind]
      split_ifs
      · exact ⟨Nat.le_refl _, hle⟩
      · rcases ih hlt with ⟨hfirst, hlast⟩
        exact ⟨by omega, hlast⟩
  | case2 first hge =>
      rw [find, if_neg hge]
      exact ⟨hle, Nat.le_refl _⟩

/-- A search ends before the end exactly if the byte is in its range. -/
theorem val_find_lt {view : View} (value : UInt8) {first last : ℕ} :
    (find view value first last).val < last ↔
      ∃ i, first ≤ i ∧ i < last ∧ (view.read i 1).val = [value] := by
  induction first using find.induct last with
  | case1 first hlt ih =>
      rw [find, if_pos hlt, Traced.val_bind]
      by_cases hbyte : (view.read first 1).val = [value]
      · rw [if_pos hbyte]
        exact iff_of_true hlt ⟨first, Nat.le_refl _, hlt, hbyte⟩
      · rw [if_neg hbyte, ih]
        constructor
        · rintro ⟨i, hi, hlast, hvalue⟩
          exact ⟨i, by omega, hlast, hvalue⟩
        · rintro ⟨i, hi, hlast, hvalue⟩
          refine ⟨i, ?_, hlast, hvalue⟩
          have : i ≠ first := fun heq => hbyte (heq ▸ hvalue)
          omega
  | case2 first hge =>
      rw [find, if_neg hge, Traced.val_pure]
      refine iff_of_false (Nat.lt_irrefl _) ?_
      rintro ⟨i, hi, hlast, -⟩
      omega

theorem safe_isText {view : View} (h : Within view) (text : Bytes) : (isText view text).Safe := by
  rw [isText]
  split_ifs
  · rw [Traced.safe_bind]
    exact ⟨h.safe_read (by omega), Traced.safe_pure _⟩
  · exact Traced.safe_pure _

theorem safe_selectStream {type : View} (h : Within type) : (selectStream type).Safe := by
  simp only [selectStream, Traced.safe_bind]
  refine ⟨safe_isText h _, ?_⟩
  split_ifs
  · exact Traced.safe_pure _
  · refine (Traced.safe_bind _ _).mpr ⟨safe_isText h _, ?_⟩
    split_ifs
    · exact Traced.safe_pure _
    · refine (Traced.safe_bind _ _).mpr ⟨safe_isText h _, ?_⟩
      split_ifs <;> exact Traced.safe_pure _

/-! ## SETUP -/

theorem within_targetView (req : Request) : Within req.targetView := by
  simp [Within, Request.targetView]

/-- A byte of the target is read where it stands. -/
theorem read_targetView (req : Request) {i : ℕ} (hi : i < req.target.length) (value : UInt8) :
    (req.targetView.read i 1).val = [value] ↔ req.target[i]? = some value := by
  rw [View.val_read, Request.targetView, Nat.zero_add, List.drop_append_of_le_length (by omega),
    List.drop_eq_getElem_cons hi, List.cons_append, List.take_succ_cons, List.take_zero,
    List.getElem?_eq_getElem hi, Option.some.injEq, List.cons.injEq]
  simp

/-- The first search of SETUP finds an `=` if there is one. -/
theorem val_find_target (req : Request) (value : UInt8) :
    (find req.targetView value 0 req.targetView.size).val < req.targetView.size ↔
      value ∈ req.target := by
  rw [val_find_lt, List.mem_iff_getElem?]
  constructor
  · rintro ⟨i, -, hi, hvalue⟩
    exact ⟨i, (read_targetView req hi value).mp hvalue⟩
  · rintro ⟨i, hvalue⟩
    have hi : i < req.target.length := (List.getElem?_eq_some_iff.mp hvalue).1
    exact ⟨i, Nat.zero_le _, hi, (read_targetView req hi value).mpr hvalue⟩

/-- **SETUP.**  The scan keeps to the target exactly if the target has an `=`. -/
theorem safe_cmdSetup_iff (req : Request) : (cmdSetup req).Safe ↔ 61 ∈ req.target := by
  have hwithin := within_targetView req
  have hsize : req.targetView.size < 2 ^ 31 := req.targetFits
  rw [← val_find_target]
  simp only [cmdSetup, Traced.safe_bind]
  constructor
  · rintro ⟨-, -, hform, -⟩
    by_contra hnone
    have hend : (find req.targetView 61 0 req.targetView.size).val = req.targetView.size := by
      have := (val_find_mem req.targetView 61 (Nat.zero_le req.targetView.size)).2
      omega
    have hfinish : (find req.targetView 47 (req.targetView.size + 1) req.targetView.size).val =
        req.targetView.size := by
      rw [find, if_neg (by omega), Traced.val_pure]
    rw [hend, hfinish, distance_succ, Traced.Safe, form, List.forall_mem_singleton,
      Access.inBounds_iff (show 0 < 2 ^ 64 - 1 by decide)] at hform
    simp only [Request.targetView, List.length_append, List.length_singleton] at hform
    omega
  · intro hlt
    have hrange := val_find_mem req.targetView 47
      (show (find req.targetView 61 0 req.targetView.size).val + 1 ≤ req.targetView.size by omega)
    have hform : (find req.targetView 61 0 req.targetView.size).val + 1 +
        distance ((find req.targetView 61 0 req.targetView.size).val + 1)
          (find req.targetView 47 ((find req.targetView 61 0 req.targetView.size).val + 1)
            req.targetView.size).val ≤ req.targetView.size := by
      rw [distance_of_le hrange.1 (by omega)]
      omega
    exact ⟨safe_find hwithin 61 (Nat.le_refl _), safe_find hwithin 47 (Nat.le_refl _),
      safe_form hwithin hform, safe_selectStream (within_form hwithin hform)⟩

/-! ## ANNOUNCE -/

theorem safe_skipBreaks {payload : View} (h : Within payload) (pos : ℕ) :
    (skipBreaks payload pos).Safe := by
  induction pos using skipBreaks.induct payload with
  | case1 pos hlt ih =>
      rw [skipBreaks, if_pos hlt, Traced.safe_bind]
      refine ⟨h.safe_read (by omega), ?_⟩
      split_ifs
      · exact (Traced.safe_bind _ _).mpr ⟨ih, Traced.safe_pure _⟩
      · exact Traced.safe_pure _
  | case2 pos hge =>
      rw [skipBreaks, if_neg hge]
      exact Traced.safe_pure _

theorem val_skipBreaks_le {payload : View} {pos : ℕ} (hle : pos ≤ payload.size) :
    (skipBreaks payload pos).val.val ≤ payload.size := by
  induction pos using skipBreaks.induct payload with
  | case1 pos hlt ih =>
      rw [skipBreaks, if_pos hlt, Traced.val_bind]
      split_ifs
      · exact ih hlt
      · exact hle
  | case2 pos hge =>
      rw [skipBreaks, if_neg hge]
      exact hle

/-- **The lines.**  They are split within the payload, and each is a part of it. -/
theorem splitLines_within {payload : View} (h : Within payload) (hfits : payload.size < 2 ^ 31)
    {pos start : ℕ} (hpos : pos ≤ payload.size) (hstart : start ≤ pos) :
    (splitLines payload pos start).Safe ∧
      ∀ line ∈ (splitLines payload pos start).val, Within line ∧ line.size < 2 ^ 31 := by
  induction pos, start using splitLines.induct payload with
  | case1 pos start hlt ihbreak ihnext =>
      rw [splitLines, if_pos hlt]
      simp only [Traced.safe_bind, Traced.val_bind]
      have hread : (payload.read pos 1).Safe := h.safe_read (by omega)
      by_cases hbreak : isBreak (payload.read pos 1).val = true
      · have hsize : distance start pos = pos - start := distance_of_le hstart (by omega)
        have hline : start + distance start pos ≤ payload.size := by omega
        have hskip : (skipBreaks payload (pos + 1)).val.val ≤ payload.size :=
          val_skipBreaks_le hlt
        rcases ihbreak (skipBreaks payload (pos + 1)).val hskip (Nat.le_refl _) with
          ⟨hsafe, hlines⟩
        simp only [if_pos hbreak, Traced.safe_bind, Traced.val_bind, Traced.val_pure,
          List.mem_cons, forall_eq_or_imp]
        refine ⟨⟨hread, safe_form h hline, safe_skipBreaks h _, hsafe, Traced.safe_pure _⟩,
          ⟨within_form h hline, ?_⟩, hlines⟩
        rw [size_form]
        omega
      · rcases ihnext hlt (by omega) with ⟨hsafe, hlines⟩
        simp only [if_neg hbreak]
        exact ⟨⟨hread, hsafe⟩, hlines⟩
  | case2 pos start hge =>
      rw [splitLines, if_neg hge]
      exact ⟨Traced.safe_pure _, by simp⟩

/-- A part of a view that starts within it is formed within it. -/
theorem substr_within {view : View} (h : Within view) {offset : ℕ} (count : ℕ)
    (hle : offset ≤ view.size) :
    (substr view offset count).Safe ∧ ∃ sub, (substr view offset count).val = some sub ∧
      Within sub ∧ sub.size = min count (view.size - offset) := by
  have hform : offset + min count (view.size - offset) ≤ view.size := by omega
  rw [substr, if_neg (by omega), Traced.safe_bind]
  exact ⟨⟨safe_form h hform, Traced.safe_pure _⟩, _, rfl, within_form h hform, rfl⟩

theorem size_of_isText {view : View} {text : Bytes} (h : (isText view text).val = true) :
    view.size = text.length := by
  rw [isText] at h
  split_ifs at h with hsize
  exact hsize

/-- Nothing outside the buffers is touched, and nothing is thrown. -/
def Fine {α : Type} (x : Traced (Option α)) : Prop := x.Safe ∧ x.val.isSome

theorem fine_trimBack {val : View} (h : Within val) (name : Bytes) :
    (trimBack name val).Safe ∧ ∃ sub, (trimBack name val).val = some sub ∧ Within sub := by
  rw [trimBack]
  split_ifs with hkept
  · exact ⟨Traced.safe_pure _, val, rfl, h⟩
  · rw [not_or] at hkept
    rcases substr_within h (val.size - 1) (show 0 ≤ val.size from Nat.zero_le _) with
      ⟨hsafe, sub, hsub, hwithin, -⟩
    rw [Traced.safe_bind, Traced.val_bind]
    split_ifs
    · exact ⟨⟨h.safe_read (by omega), hsafe⟩, sub, hsub, hwithin⟩
    · exact ⟨⟨h.safe_read (by omega), Traced.safe_pure _⟩, val, rfl, h⟩

theorem findChar_within {line : View} (h : Within line) (hfits : line.size < 2 ^ 31)
    (value : UInt8) :
    (findChar line value).Safe ∧ ((findChar line value).val + 1) % 2 ^ 64 ≤ line.size := by
  rw [findChar, Traced.safe_bind, Traced.val_bind, Traced.val_pure]
  refine ⟨⟨safe_find h value (Nat.le_refl _), Traced.safe_pure _⟩, ?_⟩
  split_ifs with hfound
  · rw [Nat.mod_eq_of_lt (by omega)]
    omega
  · rw [npos, Nat.sub_add_cancel (by omega), Nat.mod_self]
    exact Nat.zero_le _

theorem fine_readAttribute {line : View} (h : Within line) (hfits : line.size < 2 ^ 31)
    (htype : 2 ≤ line.size) (sdp : Sdp) : Fine (readAttribute sdp line) := by
  rcases findChar_within h hfits 58 with ⟨hfind, hcolon⟩
  rcases substr_within h (distance 2 (findChar line 58).val) htype with
    ⟨hname, name, hnameVal, hnameWithin, -⟩
  rcases substr_within h npos hcolon with ⟨hval, val, hvalVal, hvalWithin, -⟩
  rcases fine_trimBack hvalWithin (name.read 0 name.size).val with
    ⟨htrim, trimmed, htrimVal, htrimWithin⟩
  simp only [Fine, readAttribute, Traced.safe_bind, Traced.val_bind, hnameVal, hvalVal, htrimVal]
  exact ⟨⟨hfind, hname, hval, hnameWithin.safe_read (by omega), htrim,
    htrimWithin.safe_read (by omega), Traced.safe_pure _⟩, rfl⟩

theorem fine_readLine {line : View} (h : Within line) (hfits : line.size < 2 ^ 31) (sdp : Sdp) :
    Fine (readLine sdp line) := by
  rcases substr_within h 2 (show 0 ≤ line.size from Nat.zero_le _) with
    ⟨htype, type, htypeVal, htypeWithin, htypeSize⟩
  simp only [Fine, readLine, Traced.safe_bind, Traced.val_bind, htypeVal]
  by_cases hs : (isText type [115, 61]).val = true
  · have hsize := size_of_isText hs
    simp only [List.length_cons, List.length_nil] at hsize
    rcases substr_within h npos (show 2 ≤ line.size by omega) with ⟨hclient, client, hclientVal, -⟩
    simp only [if_pos hs, Traced.safe_bind, Traced.val_bind, Traced.val_pure, hclientVal]
    exact ⟨⟨htype, safe_isText htypeWithin _, hclient, Traced.safe_pure _⟩, rfl⟩
  · simp only [if_neg hs, Traced.safe_bind, Traced.val_bind]
    by_cases ha : (isText type [97, 61]).val = true
    · have hsize := size_of_isText ha
      simp only [List.length_cons, List.length_nil] at hsize
      rcases fine_readAttribute h hfits (by omega) sdp with ⟨hsafe, hsome⟩
      simp only [if_pos ha]
      exact ⟨⟨htype, safe_isText htypeWithin _, safe_isText htypeWithin _, hsafe⟩, hsome⟩
    · simp only [if_neg ha]
      exact ⟨⟨htype, safe_isText htypeWithin _, safe_isText htypeWithin _, Traced.safe_pure _⟩,
        rfl⟩

theorem fine_readLines {lines : List View}
    (h : ∀ line ∈ lines, Within line ∧ line.size < 2 ^ 31) (sdp : Sdp) :
    Fine (readLines sdp lines) := by
  induction lines generalizing sdp with
  | nil => exact ⟨Traced.safe_pure _, rfl⟩
  | cons line lines ih =>
      rw [List.forall_mem_cons] at h
      rcases fine_readLine h.1.1 h.1.2 sdp with ⟨hsafe, hsome⟩
      rcases Option.isSome_iff_exists.mp hsome with ⟨next, hnext⟩
      rcases ih h.2 next with ⟨hrest, hrestSome⟩
      simp only [Fine, readLines, Traced.safe_bind, Traced.val_bind, hnext]
      exact ⟨⟨hsafe, hrest⟩, hrestSome⟩

/-- **ANNOUNCE.**  Whatever its payload is, it is split within its bounds. -/
theorem fine_cmdAnnounce (req : Request) : Fine (cmdAnnounce req) := by
  have hwithin : Within req.payloadView := by simp [Within, Request.payloadView, View.whole]
  rcases splitLines_within hwithin req.payloadFits (Nat.zero_le _) (Nat.le_refl 0) with
    ⟨hsafe, hlines⟩
  rcases fine_readLines hlines
    { client := none, args := [], duplicatePyrowaveFeatureAttribute := false } with ⟨hrest, hsome⟩
  simp only [Fine, cmdAnnounce, Traced.safe_bind, Traced.val_bind]
  exact ⟨⟨hsafe, hrest⟩, hsome⟩

/-! ## Requests -/

/-- What both handlers owe a request: no byte and no view outside its buffers, and an end. -/
structure InBounds (req : Request) : Prop where
  setup : (cmdSetup req).Safe
  announce : Fine (cmdAnnounce req)

/-- **Requests.**  A request is split within its bounds exactly if its target has an `=`. -/
theorem setup_inBounds_iff (req : Request) : InBounds req ↔ 61 ∈ req.target := by
  rw [← safe_cmdSetup_iff]
  exact ⟨fun h => h.setup, fun h => ⟨h, fine_cmdAnnounce req⟩⟩

/-- A target of one slash. -/
theorem slash_not_inBounds : ¬∀ req : Request, InBounds req := by
  intro h
  have hsetup := (h ⟨[47], [], by decide, by decide⟩).setup
  revert hsetup
  rw [safe_cmdSetup_iff]
  decide

end LuminalShine.Rtsp.Requests
