import Mathlib

/-!
# Comparators that may fail to order

A comparator returns a negative number, zero or a positive number.  Nothing makes it
transitive.  Where it is not, three values lie in a ring, and a description of all such rings
is carried through the ways in which comparators are put together.

## Main definitions

* `OrdersOn` — the comparator is a total preorder on a set.
* `Knotted` — `Knot` describes the rings of the comparator, and no others.
* `firstBy`, `lexCompare` — by a key first; lists from the front.

## Main results

* `Knotted.ordersOn_iff` — a comparator orders a set iff there is no knot in it.
* `Knotted.firstBy`, `Knotted.lex` — the knots of the compound comparators.
-/

namespace LuminalShine.Lib

variable {α β κ : Type}

/-- The comparator is a total preorder on `s`. -/
structure OrdersOn (cmp : α → α → ℤ) (s : Set α) : Prop where
  swap : ∀ a ∈ s, ∀ b ∈ s, cmp a b = -cmp b a
  self : ∀ a ∈ s, cmp a a = 0
  trans : ∀ a ∈ s, ∀ b ∈ s, ∀ c ∈ s, cmp a b ≤ 0 → cmp b c ≤ 0 → cmp a c ≤ 0

/-- A knot is a ring that is strict in two places, and every ring that is strict in one place
is a knot in one of its turns. -/
structure Knotted (cmp : α → α → ℤ) (Knot : α → α → α → Prop) : Prop where
  swap : ∀ a b, cmp a b = -cmp b a
  knot : ∀ {a b c}, Knot a b c → cmp a b ≤ 0 ∧ cmp b c < 0 ∧ cmp c a < 0
  ring : ∀ {a b c}, cmp a b ≤ 0 → cmp b c ≤ 0 → cmp c a ≤ 0 →
    (cmp a b = 0 ∧ cmp b c = 0 ∧ cmp c a = 0) ∨ Knot a b c ∨ Knot b c a ∨ Knot c a b

namespace Knotted

variable {cmp : α → α → ℤ} {Knot : α → α → α → Prop}

theorem self (h : Knotted cmp Knot) (a : α) : cmp a a = 0 := by
  have hswap := h.swap a a
  omega

/-- A comparator orders a set iff there is no knot in the set. -/
theorem ordersOn_iff (h : Knotted cmp Knot) (s : Set α) :
    OrdersOn cmp s ↔ ∀ a ∈ s, ∀ b ∈ s, ∀ c ∈ s, ¬ Knot a b c := by
  constructor
  · intro horders a ha b hb c hc hknot
    have hring := h.knot hknot
    have htrans := horders.trans a ha b hb c hc hring.1 (by omega)
    have hswap := h.swap a c
    omega
  · intro hnone
    refine ⟨fun a _ b _ => h.swap a b, fun a _ => h.self a, ?_⟩
    intro a ha b hb c hc hab hbc
    by_contra hac
    have hswap := h.swap a c
    rcases h.ring hab hbc (by omega) with htied | hknot | hknot | hknot
    · omega
    · exact hnone a ha b hb c hc hknot
    · exact hnone b hb c hc a ha hknot
    · exact hnone c hc a ha b hb hknot

theorem of_iff (h : Knotted cmp Knot) {Knot' : α → α → α → Prop}
    (hiff : ∀ a b c, Knot a b c ↔ Knot' a b c) : Knotted cmp Knot' := by
  have heq : Knot = Knot' := by
    funext a b c
    exact propext (hiff a b c)
  rwa [← heq]

/-- The comparator on what a function returns. -/
theorem comap (h : Knotted cmp Knot) (f : β → α) :
    Knotted (fun a b => cmp (f a) (f b)) (fun a b c => Knot (f a) (f b) (f c)) where
  swap a b := h.swap (f a) (f b)
  knot hknot := h.knot hknot
  ring hab hbc hca := h.ring hab hbc hca

end Knotted

/-! ## A key before a comparator -/

section FirstBy

variable [LinearOrder κ]

/-- The greater key is greater; between equal keys `cmp` decides. -/
def firstBy (key : α → κ) (cmp : α → α → ℤ) (a b : α) : ℤ :=
  if key a = key b then cmp a b else if key a < key b then -1 else 1

theorem firstBy_of_eq {key : α → κ} {a b : α} (h : key a = key b) (cmp : α → α → ℤ) :
    firstBy key cmp a b = cmp a b := by
  rw [firstBy, if_pos h]

theorem firstBy_of_lt {key : α → κ} {a b : α} (h : key a < key b) (cmp : α → α → ℤ) :
    firstBy key cmp a b = -1 := by
  rw [firstBy, if_neg (ne_of_lt h), if_pos h]

theorem firstBy_of_gt {key : α → κ} {a b : α} (h : key b < key a) (cmp : α → α → ℤ) :
    firstBy key cmp a b = 1 := by
  rw [firstBy, if_neg (ne_of_gt h), if_neg (lt_asymm h)]

theorem firstBy_eq_ite (key : α → κ) (cmp : α → α → ℤ) (a b : α) :
    firstBy key cmp a b =
      if key a ≠ key b then if key a < key b then -1 else 1 else cmp a b := by
  rw [firstBy, ite_not]

theorem key_le_of_firstBy {key : α → κ} {cmp : α → α → ℤ} {a b : α}
    (h : firstBy key cmp a b ≤ 0) : key a ≤ key b := by
  by_contra hlt
  rw [firstBy_of_gt (lt_of_not_ge hlt)] at h
  omega

theorem Knotted.firstBy {cmp : α → α → ℤ} {Knot : α → α → α → Prop} (h : Knotted cmp Knot)
    (key : α → κ) :
    Knotted (firstBy key cmp) (fun a b c => key a = key b ∧ key b = key c ∧ Knot a b c) where
  swap a b := by
    rcases lt_trichotomy (key a) (key b) with hlt | heq | hgt
    · rw [firstBy_of_lt hlt, firstBy_of_gt hlt]
    · rw [firstBy_of_eq heq, firstBy_of_eq heq.symm]
      exact h.swap a b
    · rw [firstBy_of_gt hgt, firstBy_of_lt hgt]
      rfl
  knot := by
    rintro a b c ⟨hab, hbc, hknot⟩
    rw [firstBy_of_eq hab, firstBy_of_eq hbc, firstBy_of_eq (hab.trans hbc).symm]
    exact h.knot hknot
  ring := by
    intro a b c hab hbc hca
    have hle₁ := key_le_of_firstBy hab
    have hle₂ := key_le_of_firstBy hbc
    have hle₃ := key_le_of_firstBy hca
    have heq₁ : key a = key b := le_antisymm hle₁ (le_trans hle₂ hle₃)
    have heq₂ : key b = key c := le_antisymm hle₂ (le_trans hle₃ hle₁)
    have heq₃ : key c = key a := (heq₁.trans heq₂).symm
    rw [firstBy_of_eq heq₁] at hab ⊢
    rw [firstBy_of_eq heq₂] at hbc ⊢
    rw [firstBy_of_eq heq₃] at hca ⊢
    rcases h.ring hab hbc hca with htied | hknot | hknot | hknot
    · exact .inl htied
    · exact .inr (.inl ⟨heq₁, heq₂, hknot⟩)
    · exact .inr (.inr (.inl ⟨heq₂, heq₃, hknot⟩))
    · exact .inr (.inr (.inr ⟨heq₃, heq₁, hknot⟩))

end FirstBy

/-! ## Lists from the front -/

/-- Lists entry by entry; where one of them ends, it is the smaller. -/
def lexCompare (cmp : α → α → ℤ) : List α → List α → ℤ
  | [], [] => 0
  | [], _ :: _ => -1
  | _ :: _, [] => 1
  | a :: l, b :: m => if cmp a b = 0 then lexCompare cmp l m else cmp a b

theorem lexCompare_cons_nil (cmp : α → α → ℤ) (a : α) (l : List α) :
    lexCompare cmp (a :: l) [] = 1 := rfl

/-- Where three lists part, their entries are a knot.  If the first two of these tie, what
follows does not set them apart the other way. -/
inductive LexKnot (cmp : α → α → ℤ) (Knot : α → α → α → Prop) : List α → List α → List α → Prop
  | here {a b c : α} {l m n : List α} (h : Knot a b c)
    (hrest : cmp a b = 0 → lexCompare cmp l m ≤ 0) : LexKnot cmp Knot (a :: l) (b :: m) (c :: n)
  | behind {a b c : α} {l m n : List α} (hab : cmp a b = 0) (hbc : cmp b c = 0)
    (hca : cmp c a = 0) (h : LexKnot cmp Knot l m n) :
    LexKnot cmp Knot (a :: l) (b :: m) (c :: n)

theorem LexKnot.ne_nil {cmp : α → α → ℤ} {Knot : α → α → α → Prop} {l m n : List α}
    (h : LexKnot cmp Knot l m n) : l ≠ [] ∧ m ≠ [] ∧ n ≠ [] := by
  cases h with
  | here h hrest => exact ⟨List.cons_ne_nil _ _, List.cons_ne_nil _ _, List.cons_ne_nil _ _⟩
  | behind hab hbc hca h =>
    exact ⟨List.cons_ne_nil _ _, List.cons_ne_nil _ _, List.cons_ne_nil _ _⟩

section Lex

variable {cmp : α → α → ℤ}

theorem lexCompare_of_tied {a b : α} (h : cmp a b = 0) (l m : List α) :
    lexCompare cmp (a :: l) (b :: m) = lexCompare cmp l m := by
  rw [lexCompare, if_pos h]

theorem lexCompare_of_ne {a b : α} (h : cmp a b ≠ 0) (l m : List α) :
    lexCompare cmp (a :: l) (b :: m) = cmp a b := by
  rw [lexCompare, if_neg h]

theorem head_nonpos_of_lexCompare {a b : α} {l m : List α}
    (h : lexCompare cmp (a :: l) (b :: m) ≤ 0) : cmp a b ≤ 0 := by
  by_cases htied : cmp a b = 0
  · omega
  · rwa [lexCompare_of_ne htied] at h

theorem lexCompare_swap (hswap : ∀ a b, cmp a b = -cmp b a) (l m : List α) :
    lexCompare cmp l m = -lexCompare cmp m l := by
  induction l generalizing m with
  | nil =>
    cases m with
    | nil => rfl
    | cons b m => rfl
  | cons a l ih =>
    cases m with
    | nil => rfl
    | cons b m =>
      have hab := hswap a b
      by_cases htied : cmp a b = 0
      · rw [lexCompare_of_tied htied, lexCompare_of_tied (by omega)]
        exact ih m
      · rw [lexCompare_of_ne htied, lexCompare_of_ne (by omega)]
        exact hab

theorem LexKnot.strict {Knot : α → α → α → Prop} (h : Knotted cmp Knot) {l m n : List α}
    (hknot : LexKnot cmp Knot l m n) :
    lexCompare cmp l m ≤ 0 ∧ lexCompare cmp m n < 0 ∧ lexCompare cmp n l < 0 := by
  induction hknot with
  | @here a b c l m n habc hrest =>
    have hring := h.knot habc
    rw [lexCompare_of_ne (by omega : cmp b c ≠ 0), lexCompare_of_ne (by omega : cmp c a ≠ 0)]
    refine ⟨?_, hring.2⟩
    by_cases htied : cmp a b = 0
    · rw [lexCompare_of_tied htied]
      exact hrest htied
    · rw [lexCompare_of_ne htied]
      exact hring.1
  | behind hab hbc hca _ ih =>
    rwa [lexCompare_of_tied hab, lexCompare_of_tied hbc, lexCompare_of_tied hca]

theorem LexKnot.here_of_nonpos {Knot : α → α → α → Prop} {a b c : α} {l m n : List α}
    (h : Knot a b c) (hle : lexCompare cmp (a :: l) (b :: m) ≤ 0) :
    LexKnot cmp Knot (a :: l) (b :: m) (c :: n) := by
  refine .here h fun htied => ?_
  rwa [lexCompare_of_tied htied] at hle

/-- In a ring of lists the first entries are a ring, and where they tie the rests are one. -/
theorem LexKnot.ring {Knot : α → α → α → Prop} (h : Knotted cmp Knot) {l m n : List α}
    (hlm : lexCompare cmp l m ≤ 0) (hmn : lexCompare cmp m n ≤ 0)
    (hnl : lexCompare cmp n l ≤ 0) :
    (lexCompare cmp l m = 0 ∧ lexCompare cmp m n = 0 ∧ lexCompare cmp n l = 0) ∨
      LexKnot cmp Knot l m n ∨ LexKnot cmp Knot m n l ∨ LexKnot cmp Knot n l m := by
  induction l generalizing m n with
  | nil =>
    cases n with
    | nil =>
      cases m with
      | nil => exact .inl ⟨rfl, rfl, rfl⟩
      | cons b m =>
        rw [lexCompare_cons_nil] at hmn
        omega
    | cons c n =>
      rw [lexCompare_cons_nil] at hnl
      omega
  | cons a l ih =>
    cases m with
    | nil =>
      rw [lexCompare_cons_nil] at hlm
      omega
    | cons b m =>
      cases n with
      | nil =>
        rw [lexCompare_cons_nil] at hmn
        omega
      | cons c n =>
        rcases h.ring (head_nonpos_of_lexCompare hlm) (head_nonpos_of_lexCompare hmn)
          (head_nonpos_of_lexCompare hnl) with ⟨hab, hbc, hca⟩ | hknot | hknot | hknot
        · rw [lexCompare_of_tied hab] at hlm ⊢
          rw [lexCompare_of_tied hbc] at hmn ⊢
          rw [lexCompare_of_tied hca] at hnl ⊢
          rcases ih hlm hmn hnl with htied | hrest | hrest | hrest
          · exact .inl htied
          · exact .inr (.inl (.behind hab hbc hca hrest))
          · exact .inr (.inr (.inl (.behind hbc hca hab hrest)))
          · exact .inr (.inr (.inr (.behind hca hab hbc hrest)))
        · exact .inr (.inl (LexKnot.here_of_nonpos hknot hlm))
        · exact .inr (.inr (.inl (LexKnot.here_of_nonpos hknot hmn)))
        · exact .inr (.inr (.inr (LexKnot.here_of_nonpos hknot hnl)))

theorem Knotted.lex {Knot : α → α → α → Prop} (h : Knotted cmp Knot) :
    Knotted (lexCompare cmp) (LexKnot cmp Knot) where
  swap := lexCompare_swap h.swap
  knot hknot := hknot.strict h
  ring := LexKnot.ring h

end Lex

end LuminalShine.Lib
