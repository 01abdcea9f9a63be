import LuminalShine.Lib.Run
import Mathlib.Data.List.Basic

/-!
# Brackets

Whatever is opened has to be closed, the last one first, and at certain points only certain
things may be open.  A trace of marks is checked by a stack: it is accepted as long as every
closing mark closes the top and every demand holds of all that is open.  In an accepted trace
what was opened has been closed once or is still on the stack.
-/

namespace LuminalShine.Lib.Brackets

variable {α : Type*}

/-- `demands p` is a point where all that is open satisfies `p`. -/
inductive Mark (α : Type*) where
  | opens (item : α)
  | closes (item : α)
  | demands (p : α → Bool)

/-- The items that are opened, and those that are closed. -/
def opened : Mark α → Option α
  | .opens item => some item
  | .closes _ | .demands _ => none

def closed : Mark α → Option α
  | .closes item => some item
  | .opens _ | .demands _ => none

variable [DecidableEq α]

def check (stack : List α) : Mark α → Option (List α)
  | .opens item => some (item :: stack)
  | .closes item => if stack.head? = some item then some stack.tail else none
  | .demands p => if stack.all p = true then some stack else none

/-- The stack after the marks, unless one of them is refused. -/
def scan (stack : List α) (marks : List (Mark α)) : Option (List α) := run check stack marks

variable {stack stack' : List α}

@[simp] theorem scan_nil (stack : List α) : scan stack [] = some stack := rfl

@[simp] theorem scan_opens (item : α) (marks : List (Mark α)) :
    scan stack (.opens item :: marks) = scan (item :: stack) marks := rfl

@[simp] theorem scan_closes (item : α) (marks : List (Mark α)) :
    scan (item :: stack) (.closes item :: marks) = scan stack marks := by
  simp [scan, run_cons, check]

theorem scan_demands_of_all {p : α → Bool} (hp : stack.all p = true) (marks : List (Mark α)) :
    scan stack (.demands p :: marks) = scan stack marks := by
  simp [scan, run_cons, check, hp]

theorem scan_demands_of_not_all {p : α → Bool} (hp : stack.all p = false)
    (marks : List (Mark α)) : scan stack (.demands p :: marks) = none := by
  simp [scan, run_cons, check, hp]

theorem scan_append (marks marks' : List (Mark α)) :
    scan stack (marks ++ marks') = (scan stack marks).bind fun stack => scan stack marks' := by
  induction marks generalizing stack with
  | nil => rfl
  | cons mark marks ih =>
      simp only [scan, List.cons_append, run_cons, Option.bind_assoc]
      congr 1
      funext stack
      exact ih

theorem scan_append_of_eq_some {marks : List (Mark α)} (h : scan stack marks = some stack')
    (marks' : List (Mark α)) : scan stack (marks ++ marks') = scan stack' marks' := by
  rw [scan_append, h, Option.bind_some]

/-- **Once each.**  What was opened has been closed or is still open. -/
theorem count_opened [BEq α] [LawfulBEq α] {marks : List (Mark α)}
    (h : scan stack marks = some stack') (item : α) :
    (marks.filterMap opened).count item + stack.count item =
      (marks.filterMap closed).count item + stack'.count item := by
  induction marks generalizing stack with
  | nil =>
      rw [scan_nil, Option.some.injEq] at h
      simp [h]
  | cons mark marks ih =>
      cases mark with
      | opens other =>
          have hrest := ih (h : scan (other :: stack) marks = some stack')
          simp only [List.count_cons] at hrest
          simp only [List.filterMap_cons, opened, closed, List.count_cons]
          omega
      | closes other =>
          cases stack with
          | nil => simp [scan, run_cons, check] at h
          | cons top stack =>
              by_cases htop : top = other
              · subst htop
                rw [scan_closes] at h
                have hrest := ih h
                simp only [List.filterMap_cons, opened, closed, List.count_cons]
                omega
              · simp [scan, run_cons, check, htop] at h
      | demands p =>
          cases hp : stack.all p with
          | true =>
              rw [scan_demands_of_all hp] at h
              exact ih h
          | false =>
              rw [scan_demands_of_not_all hp] at h
              cases h

end LuminalShine.Lib.Brackets
