import Mathlib

/-!
# Mutable objects

A heap gives every reference its object. New objects get the next reference, so that an object is told from all
others by its reference; two names for one object are two equal references.
-/

namespace OrgLittle.Lib

/-- Objects of the type `α`. The references below `next` are in use. -/
structure Heap (α : Type*) where
  get : ℕ → α
  next : ℕ

namespace Heap

variable {α : Type*} (h : Heap α)

/-- A new object. -/
def alloc (a : α) : Heap α × ℕ := (⟨Function.update h.get h.next a, h.next + 1⟩, h.next)

/-- An object is overwritten. -/
def set (r : ℕ) (a : α) : Heap α := { h with get := Function.update h.get r a }

@[simp] theorem alloc_ref (a : α) : (h.alloc a).2 = h.next := rfl

@[simp] theorem alloc_next (a : α) : (h.alloc a).1.next = h.next + 1 := rfl

@[simp] theorem set_next (r : ℕ) (a : α) : (h.set r a).next = h.next := rfl

@[simp] theorem get_alloc_self (a : α) : (h.alloc a).1.get h.next = a := Function.update_self ..

@[simp] theorem get_set_self (r : ℕ) (a : α) : (h.set r a).get r = a := Function.update_self ..

variable {h}

theorem get_alloc_of_lt {r : ℕ} (hr : r < h.next) (a : α) : (h.alloc a).1.get r = h.get r :=
  Function.update_of_ne (Nat.ne_of_lt hr) _ _

theorem get_set_of_ne {r r' : ℕ} (hr : r' ≠ r) (a : α) : (h.set r a).get r' = h.get r' :=
  Function.update_of_ne hr _ _

/-- An object that is overwritten by what it is. -/
theorem set_eq_self {r : ℕ} {a : α} (hr : h.get r = a) : h.set r a = h := by
  rw [set, ← hr, Function.update_eq_self]

/-- No object in use has changed from one heap to the other. -/
structure Extends (h h' : Heap α) : Prop where
  next_le : h.next ≤ h'.next
  get_eq : ∀ r < h.next, h'.get r = h.get r

theorem Extends.refl (h : Heap α) : h.Extends h := ⟨le_rfl, fun _ _ => rfl⟩

theorem Extends.trans {h' h'' : Heap α} (hext : h.Extends h') (hext' : h'.Extends h'') : h.Extends h'' where
  next_le := hext.next_le.trans hext'.next_le
  get_eq r hr := (hext'.get_eq r (hr.trans_le hext.next_le)).trans (hext.get_eq r hr)

theorem Extends.alloc {h' : Heap α} (hext : h.Extends h') (a : α) : h.Extends (h'.alloc a).1 :=
  hext.trans ⟨Nat.le_succ _, fun _ hr => get_alloc_of_lt hr a⟩

theorem Extends.set {h' : Heap α} (hext : h.Extends h') {r : ℕ} (hr : h.next ≤ r) (a : α) :
    h.Extends (h'.set r a) where
  next_le := hext.next_le
  get_eq r' hr' := (get_set_of_ne (hr'.trans_le hr).ne a).trans (hext.get_eq r' hr')

end Heap

end OrgLittle.Lib
