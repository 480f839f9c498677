import OrgLittle.Lib.Machine

/-!
# One machine as another one describes it

`Simulates` says that two machines, started in related states, have the same outputs and stay related, input by input.
What is then known of the runs of the one holds of the other.
-/

namespace OrgLittle.Lib.Machine

variable {σ σ' ι ο : Type*}

/-- A step from related states has the same outputs and ends in related states. -/
def Simulates (m : Machine σ ι ο) (m' : Machine σ' ι ο) (R : σ → σ' → Prop) : Prop :=
  ∀ s s' i, R s s' → R (m.step s i).1 (m'.step s' i).1 ∧ (m.step s i).2 = (m'.step s' i).2

variable {m : Machine σ ι ο} {m' : Machine σ' ι ο} {R : σ → σ' → Prop}

theorem Simulates.run (h : Simulates m m' R) {s : σ} {s' : σ'} (hs : R s s') (is : List ι) :
    R (m.run s is) (m'.run s' is) := by
  induction is generalizing s s' with
  | nil => exact hs
  | cons i is ih => exact ih (h s s' i hs).1

theorem Simulates.outputs (h : Simulates m m' R) {s : σ} {s' : σ'} (hs : R s s') (is : List ι) :
    m.outputs s is = m'.outputs s' is := by
  induction is generalizing s s' with
  | nil => rfl
  | cons i is ih => rw [outputs_cons, outputs_cons, (h s s' i hs).2, ih (h s s' i hs).1]

/-- Conditions that agree on related states hold along the same inputs. -/
theorem Simulates.along_iff (h : Simulates m m' R) {C : σ → ι → Prop} {C' : σ' → ι → Prop}
    (hC : ∀ s s' i, R s s' → (C s i ↔ C' s' i)) {s : σ} {s' : σ'} (hs : R s s') (is : List ι) :
    m.Along C s is ↔ m'.Along C' s' is := by
  induction is generalizing s s' with
  | nil => simp
  | cons i is ih => rw [along_cons, along_cons, hC s s' i hs, ih (h s s' i hs).1]

end OrgLittle.Lib.Machine
