import Mathlib.Data.List.Basic
import Mathlib.Data.Nat.Notation

/-!
# Reads through pointers

A view is a pointer and a size into a buffer, and like a `std::string_view` it may promise
more bytes than the buffer has.  A computation that reads through views records every
access with the size of the buffer it goes to, so that "no byte outside the buffer is read"
is a property of what it recorded.

## Main definitions

* `View` — a pointer and a size.
* `Traced` — computations that record their accesses.
* `Safe` — every byte they read is inside its buffer; `safe_bind` and `safe_read` compute it.
-/

namespace LuminalShine.Lib

/-- `len` bytes are read at `offset` of a buffer of `limit` bytes. -/
structure Access where
  offset : ℕ
  len : ℕ
  limit : ℕ
  deriving DecidableEq, Repr

/-- Every byte of the access is inside the buffer. -/
def Access.InBounds (access : Access) : Prop :=
  ∀ i < access.len, access.offset + i < access.limit

instance : DecidablePred Access.InBounds :=
  fun access => inferInstanceAs (Decidable (∀ i < access.len, access.offset + i < access.limit))

theorem Access.inBounds_iff {access : Access} (hlen : 0 < access.len) :
    access.InBounds ↔ access.offset + access.len ≤ access.limit := by
  constructor
  · intro h
    have hlast := h (access.len - 1) (by omega)
    omega
  · intro h i hi
    omega

/-- A pointer into a buffer and a size; nothing ties the size to the buffer. -/
structure View where
  buffer : List UInt8
  start : ℕ
  size : ℕ
  deriving DecidableEq, Repr

/-- The view of a whole buffer. -/
def View.whole (buffer : List UInt8) : View := ⟨buffer, 0, buffer.length⟩

/-- `size` bytes from `offset` on, without a check. -/
def View.sub (view : View) (offset size : ℕ) : View :=
  ⟨view.buffer, view.start + offset, size⟩

/-- The view ends where its buffer ends. -/
def View.ToEnd (view : View) : Prop := view.start + view.size = view.buffer.length

theorem View.toEnd_whole (buffer : List UInt8) : (View.whole buffer).ToEnd :=
  Nat.zero_add _

theorem View.ToEnd.sub {view : View} (h : view.ToEnd) {offset : ℕ} (hle : offset ≤ view.size) :
    (view.sub offset (view.size - offset)).ToEnd := by
  have hend : view.start + view.size = view.buffer.length := h
  change view.start + offset + (view.size - offset) = view.buffer.length
  omega

/-- A value and the accesses made to compute it. -/
structure Traced (α : Type) where
  accesses : List Access
  val : α
  deriving DecidableEq, Repr

namespace Traced

variable {α β : Type}

instance : Monad Traced where
  pure a := ⟨[], a⟩
  bind x f := ⟨x.accesses ++ (f x.val).accesses, (f x.val).val⟩

/-- Every byte read is inside its buffer. -/
def Safe (x : Traced α) : Prop := ∀ access ∈ x.accesses, access.InBounds

instance (x : Traced α) : Decidable x.Safe :=
  inferInstanceAs (Decidable (∀ access ∈ x.accesses, access.InBounds))

@[simp] theorem safe_pure (a : α) : (pure a : Traced α).Safe := nofun

@[simp] theorem val_pure (a : α) : (pure a : Traced α).val = a := rfl

@[simp] theorem safe_bind (x : Traced α) (f : α → Traced β) :
    (x >>= f).Safe ↔ x.Safe ∧ (f x.val).Safe :=
  List.forall_mem_append

/-- A branch is safe if both sides are, each under its condition. -/
theorem safe_ite {p : Prop} [Decidable p] {x y : Traced α} (hx : p → x.Safe)
    (hy : ¬ p → y.Safe) : (if p then x else y).Safe := by
  by_cases hp : p
  · rw [if_pos hp]
    exact hx hp
  · rw [if_neg hp]
    exact hy hp

@[simp] theorem val_bind (x : Traced α) (f : α → Traced β) : (x >>= f).val = (f x.val).val := rfl

end Traced

/-- Read `len` bytes at `offset` of a view. -/
def View.read (view : View) (offset len : ℕ) : Traced (List UInt8) :=
  ⟨[⟨view.start + offset, len, view.buffer.length⟩],
    (view.buffer.drop (view.start + offset)).take len⟩

@[simp] theorem View.val_read (view : View) (offset len : ℕ) :
    (view.read offset len).val = (view.buffer.drop (view.start + offset)).take len := rfl

theorem View.safe_read {view : View} {offset len : ℕ} (hlen : 0 < len) :
    (view.read offset len).Safe ↔ view.start + offset + len ≤ view.buffer.length := by
  rw [Traced.Safe, View.read, List.forall_mem_singleton]
  exact Access.inBounds_iff hlen

/-- Write bytes at `offset` of a view: the buffer after that. -/
def View.write (view : View) (offset : ℕ) (bytes : List UInt8) : Traced (List UInt8) :=
  ⟨[⟨view.start + offset, bytes.length, view.buffer.length⟩],
    view.buffer.take (view.start + offset) ++ bytes ++
      view.buffer.drop (view.start + offset + bytes.length)⟩

theorem View.safe_write {view : View} {offset : ℕ} {bytes : List UInt8} (hne : bytes ≠ []) :
    (view.write offset bytes).Safe ↔
      view.start + offset + bytes.length ≤ view.buffer.length := by
  rw [Traced.Safe, View.write, List.forall_mem_singleton]
  exact Access.inBounds_iff (List.length_pos_of_ne_nil hne)

/-- A write inside the buffer keeps its length. -/
theorem View.length_write {view : View} {offset : ℕ} {bytes : List UInt8}
    (h : view.start + offset + bytes.length ≤ view.buffer.length) :
    (view.write offset bytes).val.length = view.buffer.length := by
  simp only [View.write, List.length_append, List.length_take, List.length_drop]
  omega

/-- What a buffer holds is read as well from a longer one. -/
theorem View.val_read_append {buffer : List UInt8} (rest : List UInt8) {offset len : ℕ}
    (h : offset + len ≤ buffer.length) :
    ((View.whole (buffer ++ rest)).read offset len).val =
      ((View.whole buffer).read offset len).val := by
  simp only [View.val_read, View.whole, Nat.zero_add]
  rw [List.drop_append_of_le_length (by omega), List.take_append_of_le_length]
  rw [List.length_drop]
  omega

/-- A write keeps what is in front of it. -/
theorem View.val_read_write_of_le {buffer bytes : List UInt8} {offset k len : ℕ}
    (hle : k + len ≤ offset) (h : offset ≤ buffer.length) :
    ((View.whole ((View.whole buffer).write offset bytes).val).read k len).val =
      ((View.whole buffer).read k len).val := by
  have htake : (buffer.take offset).length = offset := List.length_take_of_le h
  simp only [View.write, View.whole, Nat.zero_add, List.append_assoc]
  rw [View.val_read, View.val_read, Nat.zero_add, List.drop_append_of_le_length (by omega),
    List.take_append_of_le_length (by rw [List.length_drop]; omega), List.drop_take,
    List.take_take, Nat.min_eq_left (by omega)]

/-- What is written is read back. -/
theorem View.val_read_write {buffer bytes : List UInt8} {offset k len : ℕ}
    (hle : k + len ≤ bytes.length) (h : offset ≤ buffer.length) :
    ((View.whole ((View.whole buffer).write offset bytes).val).read (offset + k) len).val =
      (bytes.drop k).take len := by
  have htake : (buffer.take offset).length = offset := List.length_take_of_le h
  simp only [View.write, View.whole, Nat.zero_add, List.append_assoc]
  rw [View.val_read, Nat.zero_add, List.drop_append, List.drop_of_length_le (by omega),
    List.nil_append, htake, Nat.add_sub_cancel_left, List.drop_append_of_le_length (by omega),
    List.take_append_of_le_length (by rw [List.length_drop]; omega)]

theorem View.length_read {buffer : List UInt8} {len : ℕ} (h : len ≤ buffer.length) :
    ((View.whole buffer).read 0 len).val.length = len := by
  simp only [View.val_read, View.whole, Nat.zero_add, List.drop_zero]
  exact List.length_take_of_le h

/-- A buffer that the start of another one is copied to is read there as that one is. -/
theorem View.val_read_copy (dest : List UInt8) {src : List UInt8} {size k len : ℕ}
    (hle : k + len ≤ size) (h : size ≤ src.length) :
    ((View.whole ((View.whole dest).write 0 ((View.whole src).read 0 size).val).val).read k
        len).val =
      ((View.whole src).read k len).val := by
  have hbytes : k + len ≤ ((View.whole src).read 0 size).val.length := by
    rw [View.length_read h]
    exact hle
  have hread := View.val_read_write hbytes (Nat.zero_le dest.length)
  rw [Nat.zero_add] at hread
  rw [hread]
  simp only [View.val_read, View.whole, Nat.zero_add, List.drop_zero, List.drop_take,
    List.take_take, Nat.min_eq_left (show len ≤ size - k by omega)]

/-- Within a view that ends with its buffer, a read is checked against the size. -/
theorem View.ToEnd.safe_read {view : View} (h : view.ToEnd) {offset len : ℕ} (hlen : 0 < len) :
    (view.read offset len).Safe ↔ offset + len ≤ view.size := by
  rw [View.safe_read hlen, ← h]
  omega

theorem View.safe_read_of_le {view : View} {offset len : ℕ}
    (hle : view.start + offset + len ≤ view.buffer.length) : (view.read offset len).Safe := by
  rw [Traced.Safe, View.read, List.forall_mem_singleton]
  intro i hi
  dsimp only at hi ⊢
  omega

/-- A read of no more than the view has left. -/
theorem View.ToEnd.safe_read_of_le {view : View} (h : view.ToEnd) {offset len : ℕ}
    (hle : offset + len ≤ view.size) : (view.read offset len).Safe := by
  refine View.safe_read_of_le ?_
  rw [← h]
  omega

end LuminalShine.Lib
