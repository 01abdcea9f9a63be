import LuminalShine.Config.Text
import Mathlib.Data.List.TakeWhile

/-!
# A printed option read back

What `parse_option` of `src/config.cpp` makes of a line `name = value` that one of the
handlers of `src/confighttp.cpp` printed, whatever follows it.  The line gives its name and
value back, and the reader stops at its end, exactly when both are clean.

## Main definitions

* `CleanName`, `CleanValue` — the names and the values that survive.
* `printLine` — a line of the file.

## Main results

* `parseOption_clean` — a clean line is read back.
* `cleanValue_of_parseOption` — only a clean value is.
* `parseOption_some` — what every option that is read has.
* `parseOption_subset` — where its characters come from.
-/

namespace LuminalShine.Config

/-! ## What survives -/

/-- A name without line ends, comments and equals signs that begins and ends at no blank. -/
def CleanName (name : List Char) : Prop :=
  name ≠ [] ∧ (∀ ch ∈ name, ch ≠ '=' ∧ ch ≠ '#' ∧ endline ch = false) ∧
    (∀ ch ∈ name.head?, spaceTab ch = false) ∧ ∀ ch ∈ name.getLast?, spaceTab ch = false

instance (name : List Char) : Decidable (CleanName name) :=
  inferInstanceAs (Decidable (_ ∧ _))

/-- Either the rest of a line that begins at no blank, or a list whose bracket is closed by
its last character; the line end stands for what follows. -/
def cleanShape : List Char → Bool
  | [] => false
  | ch :: rest =>
      if ch = '[' then skipList 1 (rest ++ ['\n']) = ['\n']
      else !spaceTab ch && (ch :: rest).all (!endline ·)

def CleanValue (value : List Char) : Prop := '#' ∉ value ∧ cleanShape value = true

instance (value : List Char) : Decidable (CleanValue value) :=
  inferInstanceAs (Decidable (_ ∧ _))

/-- `name << " = " << value << std::endl` -/
def printLine (name value : List Char) : List Char :=
  name ++ ' ' :: '=' :: ' ' :: (value ++ ['\n'])

/-! ## Characters up to a stop -/

section Stop

variable {α : Type*} {p : α → Bool} {a : α}

theorem takeWhile_append_stop (h : p a = false) (xs ys : List α) :
    (xs ++ a :: ys).takeWhile p = xs.takeWhile p := by
  induction xs with
  | nil => simp [h]
  | cons x xs ih => cases hx : p x <;> simp [hx, ih]

theorem dropWhile_append_stop (h : p a = false) (xs ys : List α) :
    (xs ++ a :: ys).dropWhile p = xs.dropWhile p ++ a :: ys := by
  induction xs with
  | nil => simp [h]
  | cons x xs ih => cases hx : p x <;> simp [hx, ih]

/-- A list is empty behind its kind, or has a first element of another. -/
theorem eq_takeWhile_append (p : α → Bool) (xs : List α) :
    (∀ x ∈ xs, p x = true) ∨
      ∃ front a back, xs = front ++ a :: back ∧ (∀ x ∈ front, p x = true) ∧ p a = false := by
  induction xs with
  | nil => exact Or.inl (by simp)
  | cons x xs ih =>
      cases hx : p x with
      | false => exact Or.inr ⟨[], x, xs, rfl, by simp, hx⟩
      | true =>
          rcases ih with hall | ⟨front, a, back, rfl, hfront, ha⟩
          · exact Or.inl (by simpa [hx] using hall)
          · exact Or.inr ⟨x :: front, a, back, rfl, by simpa [hx] using hfront, ha⟩

end Stop

theorem dropTrailing_append_cons {p : Char → Bool} {ch : Char} (h : p ch = false)
    (front back : List Char) :
    dropTrailing p (front ++ ch :: back) = front ++ ch :: dropTrailing p back := by
  have hrev : (front ++ ch :: back).reverse = back.reverse ++ ch :: front.reverse := by simp
  rw [dropTrailing, hrev, dropWhile_append_stop h]
  simp [dropTrailing]

theorem dropTrailing_eq_nil {p : Char → Bool} {text : List Char} (h : ∀ ch ∈ text, p ch = true) :
    dropTrailing p text = [] := by
  have hnil : text.reverse.dropWhile p = [] := List.dropWhile_eq_nil_iff.mpr (by simpa using h)
  rw [dropTrailing, hnil]
  rfl

/-- Trimming the end leaves a front, and its last character is of another kind. -/
theorem prefix_dropTrailing (p : Char → Bool) (text : List Char) :
    dropTrailing p text <+: text := by
  rw [← List.reverse_suffix, dropTrailing, List.reverse_reverse]
  exact List.dropWhile_suffix p

theorem dropTrailing_getLast (p : Char → Bool) (text : List Char) :
    ∀ ch ∈ (dropTrailing p text).getLast?, p ch = false := by
  intro ch hch
  rw [dropTrailing, List.getLast?_reverse] at hch
  have hhead := List.head?_dropWhile_not p text.reverse
  rw [Option.mem_def] at hch
  simpa [hch] using hhead

theorem stripComments_eq_self {text : List Char} (h : '#' ∉ text) :
    stripComments false text = text := by
  induction text with
  | nil => rfl
  | cons ch text ih =>
      rw [List.mem_cons, not_or] at h
      simp [stripComments, Ne.symm h.1, ih h.2]

theorem stripComments_append {front : List Char} (h : '#' ∉ front) (back : List Char) :
    stripComments false (front ++ back) = front ++ stripComments false back := by
  induction front with
  | nil => rfl
  | cons ch front ih =>
      rw [List.mem_cons, not_or] at h
      simp [stripComments, Ne.symm h.1, ih h.2]

theorem notMem_stripComments (inComment : Bool) (text : List Char) :
    '#' ∉ stripComments inComment text := by
  induction text generalizing inComment with
  | nil => simp [stripComments]
  | cons ch text ih =>
      unfold stripComments
      split
      · exact ih true
      split
      · exact ih true
      · case isFalse hne => simp [ih false, Ne.symm hne]

/-! ## Reading a line -/

variable {name value rest : List Char}

theorem CleanName.dropWhile (h : CleanName name) (text : List Char) :
    (name ++ text).dropWhile whitespace = name ++ text := by
  cases name with
  | nil => exact absurd rfl h.1
  | cons ch name =>
      have hblank := h.2.2.1 ch rfl
      have hend := (h.2.1 ch List.mem_cons_self).2.2
      exact List.dropWhile_cons_of_neg (by simp [whitespace, hblank, hend])

theorem CleanName.trimmed (h : CleanName name) :
    stripComments false (dropTrailing spaceTab (name ++ [' '])) = name := by
  have hlast : name.getLast h.1 ∈ name.getLast? := List.getLast_mem_getLast? h.1
  have htrim : dropTrailing spaceTab (name ++ [' ']) = name := by
    rw [← List.dropLast_append_getLast h.1, List.append_assoc]
    exact dropTrailing_append_cons (h.2.2.2 _ hlast) _ _
  rw [htrim]
  exact stripComments_eq_self fun hmem => (h.2.1 _ hmem).2.1 rfl

/-- The end of `parse_option`: `text` begins at the value, and `line` is the line's part. -/
def readValue (name line endl text : List Char) : List Char × Option (String × String) :=
  match text with
  | '[' :: items =>
      let endl := skipList 1 items
      if endl = [] ∧ items = [] then (endl, none)
      else
        let value := ('[' :: items).take (items.length + 1 - endl.length)
        (endl, some (String.ofList name, String.ofList (stripComments false value)))
  | _ => (endl, some (String.ofList name, String.ofList (stripComments false line)))

theorem readValue_of_ne {ch : Char} (h : ch ≠ '[') (name line endl text : List Char) :
    readValue name line endl (ch :: text) =
      (endl, some (String.ofList name, String.ofList (stripComments false line))) := by
  unfold readValue
  split
  · case h_1 items heq => exact absurd (List.cons.inj heq).1 h
  · rfl

/-- The reader finds the name and, behind `skipped` blanks, the value. -/
theorem parseOption_printLine (hname : CleanName name) (hcomment : '#' ∉ value)
    {skipped : ℕ} (rest : List Char)
    (hskipped : ∀ option,
      option = dropTrailing whitespace (' ' :: value.takeWhile (!endline ·)) →
      option.length - (option.dropWhile spaceTab).length = skipped)
    (hlt : skipped ≤ (value.takeWhile (!endline ·)).length) :
    parseOption (printLine name value ++ rest) =
      readValue name ((' ' :: value.takeWhile (!endline ·)).drop skipped)
        (value.dropWhile (!endline ·) ++ '\n' :: rest)
        ((' ' :: (value ++ '\n' :: rest)).drop skipped) := by
  have htext : (printLine name value ++ rest).dropWhile whitespace =
      name ++ ' ' :: '=' :: ' ' :: (value ++ '\n' :: rest) := by
    have happend : printLine name value ++ rest =
        name ++ ' ' :: '=' :: ' ' :: (value ++ '\n' :: rest) := by simp [printLine]
    rw [happend]
    exact hname.dropWhile _
  have hfront : ∀ ch ∈ name ++ [' ', '=', ' '], (!endline ch) = true := by
    intro ch hch
    rcases List.mem_append.mp hch with hch | hch
    · simp [(hname.2.1 ch hch).2.2]
    · simp only [List.mem_cons, List.not_mem_nil, or_false] at hch
      rcases hch with rfl | rfl | rfl <;> rfl
  have hsplit : name ++ ' ' :: '=' :: ' ' :: (value ++ '\n' :: rest) =
      (name ++ [' ', '=', ' ']) ++ (value ++ '\n' :: rest) := by simp
  have hline : (name ++ ' ' :: '=' :: ' ' :: (value ++ '\n' :: rest)).takeWhile (!endline ·) =
      name ++ ' ' :: '=' :: ' ' :: value.takeWhile (!endline ·) := by
    rw [hsplit, List.takeWhile_append_of_pos hfront, takeWhile_append_stop (by rfl)]
    simp
  have hendl : (name ++ ' ' :: '=' :: ' ' :: (value ++ '\n' :: rest)).dropWhile (!endline ·) =
      value.dropWhile (!endline ·) ++ '\n' :: rest := by
    rw [hsplit, List.dropWhile_append_of_pos hfront, dropWhile_append_stop (by rfl)]
  have hnocomment : (name ++ ' ' :: '=' :: ' ' :: value.takeWhile (!endline ·)).takeWhile
      (· ≠ '#') = name ++ ' ' :: '=' :: ' ' :: value.takeWhile (!endline ·) := by
    rw [List.takeWhile_eq_self_iff]
    intro ch hch
    simp only [List.mem_append, List.mem_cons] at hch
    rcases hch with hch | rfl | rfl | rfl | hch
    · simp [(hname.2.1 ch hch).2.1]
    · rfl
    · rfl
    · rfl
    · have hmem := (List.takeWhile_prefix (fun ch => !endline ch)).subset hch
      simpa using fun heq : ch = '#' => hcomment (heq ▸ hmem)
  have hoption : dropTrailing whitespace
      (name ++ ' ' :: '=' :: ' ' :: value.takeWhile (!endline ·)) =
      (name ++ [' ']) ++ '=' :: dropTrailing whitespace (' ' :: value.takeWhile (!endline ·)) := by
    rw [← dropTrailing_append_cons (by rfl)]
    simp
  have hname' : ((name ++ [' ']) ++ '=' :: dropTrailing whitespace
      (' ' :: value.takeWhile (!endline ·))).takeWhile (· ≠ '=') = name ++ [' '] := by
    rw [takeWhile_append_stop (by rfl), List.takeWhile_eq_self_iff]
    intro ch hch
    rcases List.mem_append.mp hch with hch | hch
    · simp [(hname.2.1 ch hch).1]
    · rw [List.mem_singleton.mp hch]
      rfl
  unfold parseOption
  simp only [htext, hline, hendl, hnocomment, hoption, hname']
  have hskip := hskipped _ rfl
  generalize dropTrailing whitespace (' ' :: value.takeWhile (!endline ·)) = option at hskip ⊢
  have hlen : (option.dropWhile spaceTab).length ≤ option.length :=
    (List.dropWhile_suffix spaceTab).length_le
  have hbehind : ∀ text : List Char,
      (name ++ ' ' :: '=' :: text).drop (name.length + 2 + skipped) = text.drop skipped := by
    intro text
    have hassoc : name ++ ' ' :: '=' :: text = (name ++ [' ', '=']) ++ text := by simp
    rw [hassoc, ← List.drop_drop, List.drop_left' (by simp)]
  have hoptionBehind : ((name ++ [' ']) ++ '=' :: option).drop ((name ++ [' ']).length + 1) =
      option := by
    rw [List.drop_append]
    simp
  have hbegin : ((name ++ [' ']) ++ '=' :: option).length - (option.dropWhile spaceTab).length =
      name.length + 2 + skipped := by
    simp only [List.length_append, List.length_cons, List.length_nil]
    omega
  rw [hoptionBehind, hbegin, hbehind, hbehind, hname.trimmed]
  rw [if_neg (by simp), if_neg (by simp; omega)]
  rfl
/-- A value whose first line is blank is read with the blank in front of it. -/
theorem parseOption_blank (hname : CleanName name) (hcomment : '#' ∉ value)
    (hblank : ∀ ch ∈ value.takeWhile (!endline ·), spaceTab ch = true) (rest : List Char) :
    (parseOption (printLine name value ++ rest)).2 =
      some (String.ofList name, String.ofList (' ' :: value.takeWhile (!endline ·))) := by
  have hnocomment : '#' ∉ ' ' :: value.takeWhile (!endline ·) := by
    intro hmem
    rcases List.mem_cons.mp hmem with heq | hmem
    · cases heq
    · exact hcomment ((List.takeWhile_prefix _).subset hmem)
  have hskipped : ∀ option,
      option = dropTrailing whitespace (' ' :: value.takeWhile (!endline ·)) →
      option.length - (option.dropWhile spaceTab).length = 0 := by
    intro option hoption
    rw [hoption, dropTrailing_eq_nil]
    · rfl
    · intro ch hch
      rcases List.mem_cons.mp hch with rfl | hch
      · rfl
      · simp [whitespace, hblank ch hch]
  rw [parseOption_printLine hname hcomment rest hskipped (Nat.zero_le _)]
  rw [List.drop_zero, List.drop_zero, readValue_of_ne (by decide),
    stripComments_eq_self hnocomment]

/-- A value is read from its first character that is not blank. -/
theorem parseOption_rest (hname : CleanName name) {blanks back : List Char} {ch : Char}
    (hcomment : '#' ∉ blanks ++ ch :: back) (hblanks : ∀ blank ∈ blanks, spaceTab blank = true)
    (hch : whitespace ch = false) (rest : List Char) :
    parseOption (printLine name (blanks ++ ch :: back) ++ rest) =
      readValue name (ch :: back.takeWhile (!endline ·))
        (back.dropWhile (!endline ·) ++ '\n' :: rest) (ch :: (back ++ '\n' :: rest)) := by
  have hline : ∀ blank ∈ blanks, (!endline blank) = true := by
    intro blank hblank
    have h := hblanks blank hblank
    simp only [spaceTab, Bool.or_eq_true, decide_eq_true_eq] at h
    rcases h with rfl | rfl <;> rfl
  have hends : spaceTab ch = false ∧ endline ch = false := by
    simpa [whitespace] using hch
  have htake : (blanks ++ ch :: back).takeWhile (!endline ·) =
      blanks ++ ch :: back.takeWhile (!endline ·) := by
    rw [List.takeWhile_append_of_pos hline, List.takeWhile_cons_of_pos (by simp [hends.2])]
  have hdrop : (blanks ++ ch :: back).dropWhile (!endline ·) = back.dropWhile (!endline ·) := by
    rw [List.dropWhile_append_of_pos hline, List.dropWhile_cons_of_pos (by simp [hends.2])]
  have hskipped : ∀ option,
      option = dropTrailing whitespace (' ' :: (blanks ++ ch :: back).takeWhile (!endline ·)) →
      option.length - (option.dropWhile spaceTab).length = blanks.length + 1 := by
    intro option hoption
    have hcons : ' ' :: (blanks ++ ch :: back.takeWhile (!endline ·)) =
        (' ' :: blanks) ++ ch :: back.takeWhile (!endline ·) := rfl
    rw [hoption, htake, hcons, dropTrailing_append_cons hch, List.dropWhile_append_of_pos,
      List.dropWhile_cons_of_neg (by simp [hends.1])]
    · simp only [List.length_append, List.length_cons]
      omega
    · intro blank hblank
      rcases List.mem_cons.mp hblank with rfl | hblank
      · rfl
      · exact hblanks blank hblank
  rw [parseOption_printLine hname hcomment rest hskipped (by simp [htake]), htake, hdrop]
  simp

/-! ## Lists -/

theorem skipList_length_le (stack : ℕ) (text : List Char) :
    (skipList stack text).length ≤ text.length := by
  induction text generalizing stack with
  | nil => cases stack <;> simp [skipList]
  | cons ch text ih =>
      cases stack with
      | zero => simp [skipList]
      | succ stack =>
          rw [skipList, List.length_cons]
          exact Nat.le_succ_of_le (ih _)

theorem skipList_suffix (stack : ℕ) (text : List Char) : skipList stack text <:+ text := by
  induction text generalizing stack with
  | nil => cases stack <;> simp [skipList]
  | cons ch text ih =>
      cases stack with
      | zero => simp [skipList]
      | succ stack =>
          rw [skipList]
          exact (ih _).trans (List.suffix_cons ch text)

/-- Whether a list is closed by its last character does not depend on what follows. -/
theorem skipList_append_iff (stack : ℕ) (items : List Char) (ch : Char) (rest : List Char) :
    skipList stack (items ++ ch :: rest) = ch :: rest ↔
      skipList stack (items ++ [ch]) = [ch] := by
  induction items generalizing stack with
  | nil =>
      cases stack with
      | zero => simp [skipList]
      | succ stack =>
          have hshort : ∀ text, skipList (stack + 1) (ch :: text) ≠ ch :: text := by
            intro text heq
            have hlen := skipList_length_le
              (if ch = '[' then stack + 2 else if ch = ']' then stack else stack + 1) text
            rw [skipList] at heq
            rw [heq, List.length_cons] at hlen
            omega
          simp [hshort]
  | cons item items ih =>
      cases stack with
      | zero =>
          have hlong : ∀ text, skipList 0 (item :: items ++ ch :: text) ≠ ch :: text := by
            intro text heq
            have hlen := congrArg List.length heq
            simp only [skipList, List.cons_append, List.length_cons, List.length_append] at hlen
            omega
          simp only [hlong]
      | succ stack => simpa only [List.cons_append, skipList] using ih _

/-! ## Clean lines -/

/-- A list is read up to the bracket that closes it. -/
theorem readValue_list (name line endl items : List Char) (h : items ≠ []) :
    readValue name line endl ('[' :: items) =
      (skipList 1 items, some (String.ofList name, String.ofList (stripComments false
        (('[' :: items).take (items.length + 1 - (skipList 1 items).length))))) := by
  simp [readValue, h]

/-- **A clean line is read back**, and the reader stops at its end. -/
theorem parseOption_clean (hname : CleanName name) (hvalue : CleanValue value)
    (rest : List Char) :
    parseOption (printLine name value ++ rest) =
      ('\n' :: rest, some (String.ofList name, String.ofList value)) := by
  obtain ⟨hcomment, hshape⟩ := hvalue
  cases value with
  | nil => cases hshape
  | cons ch back =>
      have hread := fun hch => @parseOption_rest name hname [] back ch hcomment (by simp) hch rest
      simp only [List.nil_append] at hread
      by_cases hlist : ch = '['
      · subst hlist
        have hclosed : skipList 1 (back ++ '\n' :: rest) = '\n' :: rest :=
          (skipList_append_iff 1 back '\n' rest).mpr (by simpa [cleanShape] using hshape)
        have htake : ('[' :: (back ++ '\n' :: rest)).take
            ((back ++ '\n' :: rest).length + 1 - ('\n' :: rest).length) = '[' :: back := by
          have hlen : (back ++ '\n' :: rest).length + 1 - ('\n' :: rest).length =
              ('[' :: back).length := by
            simp only [List.length_append, List.length_cons]
            omega
          rw [hlen, ← List.cons_append, List.take_left]
        rw [hread (by rfl), readValue_list _ _ _ _ (by simp), hclosed, htake,
          stripComments_eq_self hcomment]
      · simp only [cleanShape, if_neg hlist, List.all_cons, Bool.and_eq_true,
          Bool.not_eq_true'] at hshape
        obtain ⟨hblank, hend, hback⟩ := hshape
        have hline : ∀ c ∈ back, (!endline c) = true := List.all_eq_true.mp hback
        rw [hread (by simp [whitespace, hblank, hend]), readValue_of_ne hlist,
          List.takeWhile_eq_self_iff.mpr hline, List.dropWhile_eq_nil_iff.mpr hline,
          stripComments_eq_self hcomment]
        rfl

/-- A list that is read back is closed by its last character. -/
theorem skipList_of_readValue {line endl back : List Char} (hcomment : '#' ∉ '[' :: back)
    {read : String} {rest : List Char}
    (hread : (readValue name line endl ('[' :: (back ++ '\n' :: rest))).2 =
      some (read, String.ofList ('[' :: back))) :
    skipList 1 (back ++ '\n' :: rest) = '\n' :: rest := by
  rw [readValue_list _ _ _ _ (by simp)] at hread
  obtain ⟨front, hfront⟩ := skipList_suffix 1 (back ++ '\n' :: rest)
  have htake : ('[' :: (back ++ '\n' :: rest)).take ((back ++ '\n' :: rest).length + 1 -
      (skipList 1 (back ++ '\n' :: rest)).length) = '[' :: front := by
    have hlen : (back ++ '\n' :: rest).length + 1 -
        (skipList 1 (back ++ '\n' :: rest)).length = ('[' :: front).length := by
      have hlength := congrArg List.length hfront
      simp only [List.length_append, List.length_cons] at hlength ⊢
      omega
    rw [hlen]
    conv_lhs => rw [← hfront]
    rw [← List.cons_append, List.take_left]
  rw [htake] at hread
  have hstrip : stripComments false ('[' :: front) = '[' :: back :=
    String.ofList_injective (Prod.mk.inj (Option.some.inj hread)).2
  have hcons : stripComments false ('[' :: front) = '[' :: stripComments false front := rfl
  rw [hcons, List.cons.injEq] at hstrip
  have hback : '#' ∉ back := fun hmem => hcomment (List.mem_cons_of_mem _ hmem)
  rcases List.append_eq_append_iff.mp hfront with ⟨more, hmore, hendl⟩ | ⟨more, hmore, hendl⟩
  · -- the bracket is closed inside the value, so at its end
    have hclean : '#' ∉ front := fun hmem =>
      hback (by rw [hmore]; exact List.mem_append_left _ hmem)
    rw [stripComments_eq_self hclean] at hstrip
    have hnil : more = [] := by simpa [hmore] using hstrip.2
    rw [hendl, hnil]
    rfl
  · -- otherwise it swallows the line end
    rw [hmore, stripComments_append hback] at hstrip
    cases more with
    | nil => exact hendl.symm
    | cons ch more =>
        rw [List.cons_append, List.cons.injEq] at hendl
        rw [← hendl.1] at hstrip
        have hcons : stripComments false ('\n' :: more) = '\n' :: stripComments false more := rfl
        simp [hcons] at hstrip

/-- What is read begins with the character it is read from. -/
theorem readValue_head {line endl text : List Char} {ch : Char} (h : ch ≠ '#') {read : String}
    {value : List Char}
    (hread : (readValue name (ch :: line) endl (ch :: text)).2 =
      some (read, String.ofList value)) :
    ∃ rest, value = ch :: rest := by
  unfold readValue at hread
  split at hread
  · case h_1 items heq =>
      obtain ⟨rfl, rfl⟩ := List.cons.inj heq
      dsimp only at hread
      split at hread
      · cases hread
      · have hvalue := String.ofList_injective (Prod.mk.inj (Option.some.inj hread)).2
        cases hlen : text.length + 1 - (skipList 1 text).length with
        | zero => have := skipList_length_le 1 text; omega
        | succ n => exact ⟨_, by rw [← hvalue, hlen]; rfl⟩
  · have hvalue := String.ofList_injective (Prod.mk.inj (Option.some.inj hread)).2
    exact ⟨stripComments false line, by rw [← hvalue]; simp [stripComments, h]⟩

/-- **Only a clean value is read back.** -/
theorem cleanValue_of_parseOption (hname : CleanName name) (hcomment : '#' ∉ value)
    {read : String} {rest : List Char}
    (hread : (parseOption (printLine name value ++ rest)).2 = some (read, String.ofList value)) :
    CleanValue value := by
  refine ⟨hcomment, ?_⟩
  have hsplit : value.takeWhile (!endline ·) ++ value.dropWhile (!endline ·) = value :=
    List.takeWhile_append_dropWhile
  rcases eq_takeWhile_append spaceTab (value.takeWhile (!endline ·)) with
    hblank | ⟨blanks, ch, back, hline, hblanks, hch⟩
  · -- the blank before the value is read too
    rw [parseOption_blank hname hcomment hblank] at hread
    have hvalue : ' ' :: value.takeWhile (!endline ·) = value :=
      String.ofList_injective (Prod.mk.inj (Option.some.inj hread)).2
    have hall : value.takeWhile (!endline ·) = value := by
      rw [List.takeWhile_eq_self_iff]
      intro c hc
      rw [← hvalue] at hc
      rcases List.mem_cons.mp hc with rfl | hc
      · rfl
      · have hspace := hblank c hc
        simp only [spaceTab, Bool.or_eq_true, decide_eq_true_eq] at hspace
        rcases hspace with rfl | rfl <;> rfl
    rw [hall] at hvalue
    simpa using congrArg List.length hvalue
  · have hends : (!endline ch) = true := by
      have hmem : ch ∈ value.takeWhile (!endline ·) := by simp [hline]
      exact List.mem_takeWhile_imp (p := fun c => !endline c) hmem
    generalize value.dropWhile (!endline ·) = behind at hsplit
    rw [hline, List.append_assoc, List.cons_append] at hsplit
    subst hsplit
    rw [parseOption_rest hname hcomment hblanks (by simpa [whitespace, hch] using hends)] at hread
    have hback : '#' ∉ ch :: (back ++ behind) := fun hmem =>
      hcomment (List.mem_append_right _ hmem)
    have hblanksNil : blanks = [] := by
      obtain ⟨text, htext⟩ := readValue_head (by rintro rfl; exact hback List.mem_cons_self) hread
      cases blanks with
      | nil => rfl
      | cons blank blanks =>
          have hspace := hblanks blank List.mem_cons_self
          rw [(List.cons.inj htext).1, hch] at hspace
          cases hspace
    subst hblanksNil
    by_cases hlist : ch = '['
    · subst hlist
      have hclosed := skipList_of_readValue hback hread
      simpa [cleanShape] using (skipList_append_iff 1 _ '\n' rest).mp hclosed
    · rw [readValue_of_ne hlist, stripComments_eq_self] at hread
      · have hvalue : ch :: (back ++ behind).takeWhile (!endline ·) = ch :: (back ++ behind) :=
          String.ofList_injective (Prod.mk.inj (Option.some.inj hread)).2
        have hline := List.takeWhile_eq_self_iff.mp (List.cons.inj hvalue).2
        simp only [List.nil_append, cleanShape, if_neg hlist, hch, List.all_cons, hends]
        simpa [or_imp, forall_and] using hline
      · intro hmem
        rcases List.mem_cons.mp hmem with rfl | hmem
        · exact hback List.mem_cons_self
        · exact hback (List.mem_cons_of_mem _ ((List.takeWhile_prefix _).subset hmem))

/-- Whatever the value, the line gives its name. -/
theorem exists_parseOption (hname : CleanName name) (hcomment : '#' ∉ value) (rest : List Char) :
    ∃ read, (parseOption (printLine name value ++ rest)).2 = some (String.ofList name, read) := by
  rcases eq_takeWhile_append spaceTab (value.takeWhile (!endline ·)) with
    hblank | ⟨blanks, ch, back, hline, hblanks, hch⟩
  · exact ⟨_, parseOption_blank hname hcomment hblank rest⟩
  · have hends : (!endline ch) = true :=
      List.mem_takeWhile_imp (p := fun c => !endline c) (l := value) (by simp [hline])
    have hsplit : blanks ++ ch :: (back ++ value.dropWhile (!endline ·)) = value := by
      rw [← List.cons_append, ← List.append_assoc, ← hline, List.takeWhile_append_dropWhile]
    rw [← hsplit] at hcomment ⊢
    rw [parseOption_rest hname hcomment hblanks (by simpa [whitespace, hch] using hends)]
    by_cases hlist : ch = '['
    · subst hlist
      exact ⟨_, congrArg Prod.snd (readValue_list _ _ _ _ (by simp))⟩
    · exact ⟨_, congrArg Prod.snd (readValue_of_ne hlist _ _ _ _)⟩

/-! ## Every option -/

/-- A name that starts an option is clean once it is trimmed. -/
theorem cleanName_trimmed (text : List Char) {name : List Char}
    (hpre : name <+: text.dropWhile whitespace)
    (hne : name ≠ [])
    (hplain : ∀ ch ∈ name, ch ≠ '=' ∧ ch ≠ '#' ∧ endline ch = false) :
    CleanName (stripComments false (dropTrailing spaceTab name)) := by
  obtain ⟨back, hback⟩ := hpre
  cases name with
  | nil => exact absurd rfl hne
  | cons ch name =>
      have hhead := List.head?_dropWhile_not whitespace text
      rw [← hback, List.cons_append, List.head?_cons] at hhead
      have hch : whitespace ch = false := by simpa using hhead
      have hblank : spaceTab ch = false := (Bool.or_eq_false_iff.mp hch).1
      have htrim : dropTrailing spaceTab (ch :: name) = ch :: dropTrailing spaceTab name :=
        dropTrailing_append_cons hblank [] name
      have hsub : ∀ c ∈ dropTrailing spaceTab (ch :: name), c ∈ ch :: name := fun c hc =>
        (prefix_dropTrailing spaceTab (ch :: name)).subset hc
      rw [stripComments_eq_self fun hmem => (hplain _ (hsub _ hmem)).2.1 rfl]
      refine ⟨by simp [htrim], fun c hc => hplain c (hsub c hc), ?_, ?_⟩
      · rw [htrim]
        simpa using hblank
      · exact dropTrailing_getLast spaceTab (ch :: name)

/-- **Every option has a clean name and no comment**, whatever it is read from. -/
theorem parseOption_some {text endl : List Char} {read : String × String}
    (h : parseOption text = (endl, some read)) :
    CleanName read.1.toList ∧ '#' ∉ read.2.toList := by
  unfold parseOption at h
  dsimp only at h
  have hoption : dropTrailing whitespace (((text.dropWhile whitespace).takeWhile
      (!endline ·)).takeWhile (· ≠ '#')) <+: ((text.dropWhile whitespace).takeWhile
      (!endline ·)).takeWhile (· ≠ '#') := prefix_dropTrailing _ _
  generalize dropTrailing whitespace (((text.dropWhile whitespace).takeWhile
      (!endline ·)).takeWhile (· ≠ '#')) = option at h hoption
  split at h
  · cases h
  case isFalse hname =>
  have hclean : CleanName (stripComments false
      (dropTrailing spaceTab (option.takeWhile (· ≠ '=')))) := by
    refine cleanName_trimmed text ?_ (fun hnil => hname (Or.inr hnil)) ?_
    · exact (((List.takeWhile_prefix _).trans hoption).trans (List.takeWhile_prefix _)).trans
        (List.takeWhile_prefix _)
    · intro ch hch
      have hmem := hoption.subset ((List.takeWhile_prefix _).subset hch)
      have hline := (List.takeWhile_prefix _).subset hmem
      refine ⟨?_, ?_, ?_⟩
      · simpa using List.mem_takeWhile_imp (p := fun c => decide (c ≠ '=')) hch
      · simpa using List.mem_takeWhile_imp (p := fun c => decide (c ≠ '#')) hmem
      · simpa using List.mem_takeWhile_imp (p := fun c => !endline c) hline
  split at h
  · cases h
  split at h
  · split at h
    · cases h
    · rw [← Option.some.inj (Prod.mk.inj h).2]
      simpa only [String.toList_ofList] using ⟨hclean, notMem_stripComments _ _⟩
  · rw [← Option.some.inj (Prod.mk.inj h).2]
    simpa only [String.toList_ofList] using ⟨hclean, notMem_stripComments _ _⟩

/-! ## Where an option comes from -/

theorem stripComments_sublist (inComment : Bool) (text : List Char) :
    (stripComments inComment text).Sublist text := by
  induction text generalizing inComment with
  | nil => exact List.Sublist.refl []
  | cons ch text ih =>
      rw [stripComments]
      split
      · exact (ih true).cons ch
      split
      · exact (ih true).cons ch
      · exact (ih false).cons_cons ch

/-- The reader goes on in the text. -/
theorem parseOption_suffix (text : List Char) : (parseOption text).1 <:+ text := by
  have hendl : (text.dropWhile whitespace).dropWhile (!endline ·) <:+ text :=
    (List.dropWhile_suffix _).trans (List.dropWhile_suffix _)
  rw [parseOption]
  dsimp only
  split
  · exact hendl
  split
  · exact hendl
  split
  · case h_1 items heq =>
      have hitems : items <:+ text :=
        ((heq ▸ List.suffix_cons '[' items).trans (List.drop_suffix _ _)).trans
          (List.dropWhile_suffix _)
      have hskip := (skipList_suffix 1 items).trans hitems
      split <;> exact hskip
  · exact hendl

/-- The characters of an option are characters of the text. -/
theorem parseOption_subset {text endl : List Char} {read : String × String}
    (h : parseOption text = (endl, some read)) :
    read.1.toList ⊆ text ∧ read.2.toList ⊆ text := by
  have htext : text.dropWhile whitespace ⊆ text := (List.dropWhile_suffix _).subset
  have hline : (text.dropWhile whitespace).takeWhile (!endline ·) ⊆ text :=
    List.Subset.trans (List.takeWhile_prefix _).subset htext
  have hstrip : ∀ inner : List Char, inner ⊆ text → stripComments false inner ⊆ text :=
    fun inner hinner => List.Subset.trans (stripComments_sublist false inner).subset hinner
  have hname : dropTrailing spaceTab ((dropTrailing whitespace (((text.dropWhile
      whitespace).takeWhile (!endline ·)).takeWhile (· ≠ '#'))).takeWhile (· ≠ '=')) ⊆ text :=
    List.Subset.trans ((((prefix_dropTrailing _ _).trans (List.takeWhile_prefix _)).trans
      (prefix_dropTrailing _ _)).trans (List.takeWhile_prefix _)).subset hline
  rw [parseOption] at h
  dsimp only at h
  split at h
  · cases h
  split at h
  · cases h
  split at h
  · case h_1 items heq =>
      split at h
      · cases h
      · have hitems : '[' :: items ⊆ text := by
          rw [← heq]
          exact List.Subset.trans (List.drop_suffix _ _).subset htext
        rw [← Option.some.inj (Prod.mk.inj h).2]
        simp only [String.toList_ofList]
        exact ⟨hstrip _ hname, hstrip _ (List.Subset.trans (List.take_prefix _ _).subset hitems)⟩
  · rw [← Option.some.inj (Prod.mk.inj h).2]
    simp only [String.toList_ofList]
    exact ⟨hstrip _ hname, hstrip _ (List.Subset.trans (List.drop_suffix _ _).subset hline)⟩

end LuminalShine.Config
