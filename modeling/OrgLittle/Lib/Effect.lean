import Mathlib
/-!
# Blocks that change a state and may raise an exception

The body of a `try`: it changes an object step by step, and an exception leaves the object as it is at
that point. `Block.wp b Q E s` says that `Q` holds of the result and the state if `b` returns, and `E` of
the exception and the state if it does not.
-/

namespace OrgLittle.Lib

universe u

/-- A block that works on a state `σ`. -/
abbrev Block (ε σ α : Type u) := ExceptT ε (StateM σ) α

namespace Block

variable {ε σ α β : Type u}

/-- A call that has no effect on the state. -/
def call (c : Except ε α) : Block ε σ α := ExceptT.mk fun s => (c, s)

/-- A statement that changes the state. -/
def update (f : σ → σ) : Block ε σ PUnit := ExceptT.mk fun s => (.ok ⟨⟩, f s)

/-- `try { b } catch { return r }`. -/
def orElse (r : α) (b : Block ε σ α) : StateM σ α := do
  match ← b.run with
  | .ok a => pure a
  | .error _ => pure r

/-- The weakest precondition. -/
def wp (b : Block ε σ α) (Q : α → σ → Prop) (E : ε → σ → Prop) (s : σ) : Prop :=
  match b.run.run s with
  | (.ok a, s') => Q a s'
  | (.error e, s') => E e s'

theorem run_bind (b : Block ε σ α) (f : α → Block ε σ β) (s : σ) :
    (b >>= f).run.run s = match b.run.run s with
      | (.ok a, s') => (f a).run.run s'
      | (.error e, s') => (.error e, s') := by
  rw [ExceptT.run_bind, StateT.run_bind]
  show (match b.run.run s with | (a, s') => _ : Id _) = _
  rcases b.run.run s with ⟨e | a, s'⟩
  · rfl
  · rfl

theorem run_orElse (r : α) (b : Block ε σ α) (s : σ) :
    (b.orElse r).run s = match b.run.run s with
      | (.ok a, s') => (a, s')
      | (.error _, s') => (r, s') := by
  rw [orElse, StateT.run_bind]
  show (match b.run.run s with | (a, s') => _ : Id _) = _
  rcases b.run.run s with ⟨e | a, s'⟩
  · rfl
  · rfl

section rules

variable {Q : α → σ → Prop} {E : ε → σ → Prop} {s : σ}

@[simp] theorem wp_pure {a : α} : wp (pure a) Q E s ↔ Q a s := Iff.rfl

@[simp] theorem wp_update {f : σ → σ} {Q : PUnit → σ → Prop} : wp (update f) Q E s ↔ Q ⟨⟩ (f s) :=
  Iff.rfl

@[simp] theorem wp_get {Q : σ → σ → Prop} : wp (get : Block ε σ σ) Q E s ↔ Q s s := Iff.rfl

@[simp] theorem wp_call {c : Except ε α} :
    wp (call c) Q E s ↔ (∀ a, c = .ok a → Q a s) ∧ ∀ e, c = .error e → E e s := by
  rcases c with e | a
  · show E e s ↔ _
    simp
  · show Q a s ↔ _
    simp

/-- An exception. -/
theorem wp_call_error {e : ε} (h : E e s) : wp (call (.error e)) Q E s := h

@[simp] theorem wp_bind {b : Block ε σ α} {f : α → Block ε σ β} {Q : β → σ → Prop} :
    wp (b >>= f) Q E s ↔ wp b (fun a => wp (f a) Q E) E s := by
  unfold wp
  rw [run_bind]
  rcases b.run.run s with ⟨e | a, s'⟩
  · rfl
  · rfl

@[simp] theorem wp_map {b : Block ε σ α} {f : α → β} {Q : β → σ → Prop} :
    wp (f <$> b) Q E s ↔ wp b (fun a => Q (f a)) E s := by
  rw [map_eq_pure_bind, wp_bind]
  rfl

/-- What a block establishes implies what is asked of it. -/
theorem wp_mono {b : Block ε σ α} {Q' : α → σ → Prop} {E' : ε → σ → Prop} (h : wp b Q E s)
    (hQ : ∀ a s', Q a s' → Q' a s') (hE : ∀ e s', E e s' → E' e s') : wp b Q' E' s := by
  revert h
  unfold wp
  rcases b.run.run s with ⟨e | a, s'⟩
  · exact hE e s'
  · exact hQ a s'

theorem wp_of_forall {b : Block ε σ α} (hQ : ∀ a s, Q a s) (hE : ∀ e s, E e s) : wp b Q E s := by
  unfold wp
  rcases b.run.run s with ⟨e | a, s'⟩
  · exact hE e s'
  · exact hQ a s'

/-- The rule for `try`. -/
theorem wp_orElse {r : α} {b : Block ε σ α} :
    Q ((b.orElse r).run s).1 ((b.orElse r).run s).2 ↔ wp b Q (fun _ => Q r) s := by
  unfold wp
  rw [run_orElse]
  rcases b.run.run s with ⟨e | a, s'⟩
  · rfl
  · rfl

end rules

end Block

end OrgLittle.Lib
