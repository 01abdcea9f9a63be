import LuminalShine.Lib.Brackets
import Mathlib.Data.Bool.Count

/-!
# Contexts shared by reference

A `shared_t` holds one object in place: the first `ptr_t` constructs it, the last one to let go
destroys it, and it can be constructed again.  Handles are copied, moved and assigned; a handle
whose owner is null stands for a construction that was refused.

* `Shared`, `Shared.ref`, `Shared.release`, `Shared.step` — the count, the handles, and the calls
  of the construct and destruct functions;
* `Shared.Sound` — the count is the number of handles with an owner;
* `shared_lifecycle` — constructions and destructions alternate, and the object is alive exactly
  while some handle has an owner.
-/

namespace LuminalShine.Safe

open LuminalShine.Lib

/-- A `shared_t` with its handles, one `true` for each that has an owner, and the calls made so
far: a construction may only run while nothing is alive. -/
structure Shared where
  count : ℕ
  handles : List Bool
  calls : List (Brackets.Mark Unit)

namespace Shared

def start : Shared := ⟨0, [], []⟩

/-- Nothing may be alive. -/
def vacant : Brackets.Mark Unit := .demands fun _ => false

/-- `shared_t::ref`; `built` is what the construct function says. -/
def ref (s : Shared) (built : Bool) : Shared × Bool :=
  if s.count = 0 then
    if built then
      ({ s with count := s.count + 1, calls := s.calls ++ [vacant, .opens ()] }, true)
    else ({ s with calls := s.calls ++ [vacant] }, false)
  else ({ s with count := s.count + 1 }, true)

/-- `ptr_t::release` of handle `i`. -/
def release (s : Shared) (i : ℕ) : Shared :=
  { count := s.count - 1
    handles := s.handles.set i false
    calls := if s.count - 1 = 0 then s.calls ++ [.closes ()] else s.calls }

def add (s : Shared) (owner : Bool) : Shared := { s with handles := s.handles ++ [owner] }

end Shared

/-- The operations on handles: a reference from the owner, the three constructors, the move
assignment, the destructor, and an explicit release. -/
inductive SharedOp
  | ref (built : Bool)
  | default
  | copy (j : ℕ) (built : Bool)
  | move (j : ℕ)
  | assign (i j : ℕ)
  | destroy (i : ℕ)
  | release (i : ℕ)

namespace Shared

/-- `if (owner) release()`, of the destructor and of the assignment. -/
def drop (s : Shared) (i : ℕ) : Shared := if s.handles[i]? = some true then s.release i else s

/-- `none` is an operation on a handle that is not there, or a release of a null handle. -/
def step (s : Shared) : SharedOp → Option Shared
  | .ref built => some ((s.ref built).1.add (s.ref built).2)
  | .default => some (s.add false)
  | .copy j built => s.handles[j]?.map fun owner =>
    if owner then (s.ref built).1.add true else s.add false
  | .move j => s.handles[j]?.map fun owner =>
    { s with handles := s.handles.set j false ++ [owner] }
  | .assign i j =>
    if i < s.handles.length ∧ j < s.handles.length then
      let s := s.drop i
      some { s with handles := (s.handles.set j false).set i (s.handles.getD j false) }
    else none
  | .destroy i => if i < s.handles.length then some (s.drop i) else none
  | .release i => if s.handles[i]? = some true then some (s.release i) else none

/-- The count is that of the handles with an owner, and the object is alive while there is
one. -/
structure Sound (s : Shared) : Prop where
  count : s.count = s.handles.count true
  calls : Brackets.scan [] s.calls = some (if s.count = 0 then [] else [()])

variable {s : Shared}

theorem sound_start : start.Sound := ⟨rfl, rfl⟩

theorem Sound.add_false (h : s.Sound) : (s.add false).Sound :=
  ⟨by simp [Shared.add, h.count], h.calls⟩

theorem Sound.ref (h : s.Sound) (built : Bool) : ((s.ref built).1.add (s.ref built).2).Sound := by
  have hcalls := h.calls
  rw [Shared.ref]
  by_cases hzero : s.count = 0
  · rw [if_pos hzero] at hcalls ⊢
    have hvacant : Brackets.scan [] (s.calls ++ [vacant]) = some [] := by
      rw [Brackets.scan_append_of_eq_some hcalls]
      rfl
    cases built
    · exact ⟨by simp [Shared.add, h.count], by simpa [Shared.add, hzero] using hvacant⟩
    · refine ⟨by simp [Shared.add, h.count], ?_⟩
      have hopened : Brackets.scan [] (s.calls ++ [vacant, .opens ()]) = some [()] := by
        rw [Brackets.scan_append_of_eq_some hcalls]
        rfl
      simpa [Shared.add] using hopened
  · rw [if_neg hzero] at hcalls ⊢
    exact ⟨by simp [Shared.add, h.count], by simpa [Shared.add] using hcalls⟩

/-- Writing one handle moves the count by what the handle was and becomes. -/
theorem count_set_add {l : List Bool} {i : ℕ} {old : Bool} (hi : l[i]? = some old) (new : Bool) :
    (l.set i new).count true + old.toNat = l.count true + new.toNat := by
  obtain ⟨hlt, rfl⟩ := List.getElem?_eq_some_iff.mp hi
  rw [List.count_set hlt]
  cases howner : l[i] with
  | false => cases new <;> simp
  | true =>
      have hpos : 0 < l.count true := List.count_pos_iff.mpr (howner ▸ List.getElem_mem hlt)
      cases new <;> simp only [beq_self_eq_true, if_true, Bool.toNat_true, Bool.toNat_false]
      · simp
        omega
      · omega

theorem Sound.count_ne_zero (h : s.Sound) {i : ℕ} (hi : s.handles[i]? = some true) :
    s.count ≠ 0 := by
  have hset := count_set_add hi false
  rw [Bool.toNat_true, Bool.toNat_false] at hset
  rw [h.count]
  omega

/-- Letting go of an owner: the last one destroys what is alive. -/
theorem Sound.release (h : s.Sound) {i : ℕ} (hi : s.handles[i]? = some true) :
    (s.release i).Sound := by
  have hcount := count_set_add hi false
  have hcalls := h.calls
  rw [if_neg (h.count_ne_zero hi)] at hcalls
  constructor
  · rw [Bool.toNat_true, Bool.toNat_false] at hcount
    simp only [Shared.release, h.count]
    omega
  · by_cases hlast : s.count - 1 = 0
    · simp only [Shared.release, if_pos hlast]
      rw [Brackets.scan_append_of_eq_some hcalls]
      rfl
    · simpa only [Shared.release, if_neg hlast] using hcalls

theorem Sound.drop (h : s.Sound) (i : ℕ) : (s.drop i).Sound := by
  rw [Shared.drop]
  split
  · exact h.release ‹_›
  · exact h

theorem length_drop (i : ℕ) : (s.drop i).handles.length = s.handles.length := by
  rw [Shared.drop]
  split <;> simp [Shared.release]

/-- After the release of an assignment the handle is null. -/
theorem getElem?_drop {i : ℕ} (hi : i < s.handles.length) :
    (s.drop i).handles[i]? = some false := by
  rw [Shared.drop]
  by_cases howner : s.handles[i]? = some true
  · rw [if_pos howner]
    simp [Shared.release, hi]
  · rw [if_neg howner, List.getElem?_eq_getElem hi] at *
    simpa using howner

/-- A null handle takes the place of another. -/
theorem count_swap {l : List Bool} {i j : ℕ} (hi : l[i]? = some false) (hj : j < l.length) :
    ((l.set j false).set i (l.getD j false)).count true = l.count true := by
  have hget : l[j]? = some (l.getD j false) := by
    rw [List.getD_eq_getElem?_getD, List.getElem?_eq_getElem hj, Option.getD_some]
  have hfirst := count_set_add hget false
  have hnull : (l.set j false)[i]? = some false := by
    by_cases hij : j = i
    · subst hij
      simp [hj]
    · rw [List.getElem?_set_ne hij, hi]
  have hsecond := count_set_add hnull (l.getD j false)
  rw [Bool.toNat_false] at hfirst hsecond
  omega

/-- Handles may change places: what counts is how many have an owner. -/
theorem Sound.of_count (h : s.Sound) {handles : List Bool}
    (hcount : handles.count true = s.handles.count true) :
    ({ s with handles := handles } : Shared).Sound :=
  ⟨h.count.trans hcount.symm, h.calls⟩

theorem Sound.step (h : s.Sound) {op : SharedOp} {s' : Shared} (hstep : s.step op = some s') :
    s'.Sound := by
  cases op with
  | ref built =>
      rw [Shared.step, Option.some.injEq] at hstep
      exact hstep ▸ h.ref built
  | default =>
      rw [Shared.step, Option.some.injEq] at hstep
      exact hstep ▸ h.add_false
  | copy j built =>
      rw [Shared.step, Option.map_eq_some_iff] at hstep
      obtain ⟨owner, hj, rfl⟩ := hstep
      cases owner
      · exact h.add_false
      · have howner : (s.ref built).2 = true := by simp [Shared.ref, h.count_ne_zero hj]
        simpa only [howner, if_true] using h.ref built
  | move j =>
      rw [Shared.step, Option.map_eq_some_iff] at hstep
      obtain ⟨owner, hj, rfl⟩ := hstep
      apply h.of_count
      have hset := count_set_add hj false
      rw [List.count_append]
      cases owner <;> simpa using hset
  | assign i j =>
      rw [Shared.step, Option.ite_none_right_eq_some, Option.some.injEq] at hstep
      obtain ⟨⟨hi, hj⟩, rfl⟩ := hstep
      exact (h.drop i).of_count (count_swap (getElem?_drop hi) (by rwa [length_drop]))
  | destroy i =>
      rw [Shared.step, Option.ite_none_right_eq_some, Option.some.injEq] at hstep
      exact hstep.2 ▸ h.drop i
  | release i =>
      rw [Shared.step, Option.ite_none_right_eq_some, Option.some.injEq] at hstep
      exact hstep.2 ▸ h.release hstep.1

/-- Every marked call is one of the object. -/
theorem sound_of_ops {ops : List SharedOp} (hrun : run Shared.step start ops = some s) : s.Sound :=
  run_invariant (fun _ _ _ h hstep => h.step hstep) sound_start hrun

end Shared

/-- **One object at a time.**  However handles are made, copied, moved, assigned and destroyed,
and whichever constructions are refused: constructions and destructions alternate, no
construction starts while the object is alive, and the object is alive exactly while some
handle has an owner. -/
theorem shared_lifecycle {ops : List SharedOp} {s : Shared}
    (hrun : run Shared.step .start ops = some s) :
    Brackets.scan [] s.calls = some (if true ∈ s.handles then [()] else []) ∧
      s.count = s.handles.count true := by
  have h := Shared.sound_of_ops hrun
  refine ⟨?_, h.count⟩
  rw [h.calls, h.count]
  by_cases howner : true ∈ s.handles
  · rw [if_pos howner, if_neg (List.count_pos_iff.mpr howner).ne']
  · rw [if_neg howner, if_pos (List.count_eq_zero.mpr howner)]

/-- A refused construction, a copy that outlives its original, and an assignment to itself. -/
theorem shared_lifecycle_copies :
    ∃ s : Shared, run Shared.step .start
        [.ref false, .ref true, .copy 1 true, .destroy 1, .assign 2 2, .ref true] = some s ∧
      s.count = s.handles.count true :=
  ⟨_, rfl, (shared_lifecycle (rfl : run Shared.step .start
    [.ref false, .ref true, .copy 1 true, .destroy 1, .assign 2 2, .ref true] = some _)).2⟩

end LuminalShine.Safe
