import Mathlib

/-!
# Deterministic machines and their runs

A machine takes one input at a time and answers with a new state and a list of outputs. `Along C s is`
says that `C` holds of every step of the run of `is` from `s`. Safety results have one shape:
an invariant is kept by every step that meets a condition, so every run whose steps meet the condition
has, at every step, whatever the invariant and the condition imply (`Along.of_invariant`).
-/

namespace OrgLittle.Lib

/-- A deterministic machine with states `σ`, inputs `ι` and outputs `ο`. -/
structure Machine (σ ι ο : Type*) where
  step : σ → ι → σ × List ο

namespace Machine

variable {σ ι ο : Type*} (m : Machine σ ι ο)

/-- The state after a run. -/
def run (s : σ) : List ι → σ
  | [] => s
  | i :: is => run (m.step s i).1 is

/-- The outputs of a run, in order. -/
def outputs (s : σ) : List ι → List ο
  | [] => []
  | i :: is => (m.step s i).2 ++ outputs (m.step s i).1 is

/-- `C` holds of the state and the input of every step of the run. -/
def Along (C : σ → ι → Prop) (s : σ) : List ι → Prop
  | [] => True
  | i :: is => C s i ∧ Along C (m.step s i).1 is

@[simp] theorem run_nil (s : σ) : m.run s [] = s := rfl

@[simp] theorem run_cons (s : σ) (i : ι) (is : List ι) :
    m.run s (i :: is) = m.run (m.step s i).1 is := rfl

@[simp] theorem outputs_nil (s : σ) : m.outputs s [] = [] := rfl

@[simp] theorem outputs_cons (s : σ) (i : ι) (is : List ι) :
    m.outputs s (i :: is) = (m.step s i).2 ++ m.outputs (m.step s i).1 is := rfl

@[simp] theorem along_nil (C : σ → ι → Prop) (s : σ) : m.Along C s [] := trivial

@[simp] theorem along_cons (C : σ → ι → Prop) (s : σ) (i : ι) (is : List ι) :
    m.Along C s (i :: is) ↔ C s i ∧ m.Along C (m.step s i).1 is := Iff.rfl

/-- A run can be cut anywhere. -/
theorem run_append (s : σ) (is js : List ι) : m.run s (is ++ js) = m.run (m.run s is) js := by
  induction is generalizing s with
  | nil => rfl
  | cons i is ih => exact ih _

/-- So can what is seen of it. -/
theorem outputs_append (s : σ) (is js : List ι) :
    m.outputs s (is ++ js) = m.outputs s is ++ m.outputs (m.run s is) js := by
  induction is generalizing s with
  | nil => rfl
  | cons i is ih => simp [ih, List.append_assoc]

/-- The run from `s` to `s'` has no output. -/
def Passes (s : σ) (is : List ι) (s' : σ) : Prop := m.run s is = s' ∧ m.outputs s is = []

/-- A state that every input leaves as it is, without output. -/
def Absorbing (s : σ) : Prop := ∀ i, m.step s i = (s, [])

variable {m}

/-- Silent stretches add up. -/
theorem Passes.append {s s' s'' : σ} {is js : List ι} (h : m.Passes s is s')
    (h' : m.Passes s' js s'') : m.Passes s (is ++ js) s'' := by
  refine ⟨?_, ?_⟩
  · rw [run_append, h.1, h'.1]
  · rw [outputs_append, h.1, h.2, h'.2, List.append_nil]

theorem Passes.of_step {s s' : σ} {i : ι} (h : m.step s i = (s', [])) : m.Passes s [i] s' := by
  refine ⟨?_, ?_⟩
  · rw [run_cons, h, run_nil]
  · rw [outputs_cons, h, outputs_nil, List.append_nil]

/-- A silent stretch may be left out. -/
theorem Passes.run_append {s s' : σ} {is : List ι} (h : m.Passes s is s') (js : List ι) :
    m.run s (is ++ js) = m.run s' js := by
  rw [Machine.run_append, h.1]

theorem Passes.outputs_append {s s' : σ} {is : List ι} (h : m.Passes s is s') (js : List ι) :
    m.outputs s (is ++ js) = m.outputs s' js := by
  rw [Machine.outputs_append, h.1, h.2, List.nil_append]

/-- A condition on the inputs alone. -/
theorem along_of_forall {P : ι → Prop} (s : σ) {is : List ι} (h : ∀ i ∈ is, P i) :
    m.Along (fun _ i => P i) s is := by
  induction is generalizing s with
  | nil => trivial
  | cons i is ih => exact ⟨h i List.mem_cons_self, ih _ fun j hj => h j (List.mem_cons_of_mem i hj)⟩

/-- Nothing leaves an absorbing state. -/
theorem Absorbing.run {s : σ} (h : m.Absorbing s) (is : List ι) : m.run s is = s := by
  induction is with
  | nil => rfl
  | cons i is ih => rw [run_cons, h i, ih]

theorem Absorbing.outputs {s : σ} (h : m.Absorbing s) (is : List ι) : m.outputs s is = [] := by
  induction is with
  | nil => rfl
  | cons i is ih => rw [outputs_cons, h i, ih, List.append_nil]

/-- An invariant that every step meeting `C` keeps holds at the end of every run along `C`. -/
theorem Along.run_invariant {C : σ → ι → Prop} {Inv : σ → Prop}
    (hstep : ∀ s i, Inv s → C s i → Inv (m.step s i).1) {s : σ} {is : List ι}
    (h : m.Along C s is) (hs : Inv s) : Inv (m.run s is) := by
  induction is generalizing s with
  | nil => exact hs
  | cons i is ih => exact ih h.2 (hstep s i hs h.1)

/-- The invariant rule: what the invariant and the condition imply of one step holds along the run. -/
theorem Along.of_invariant {C P : σ → ι → Prop} {Inv : σ → Prop}
    (hstep : ∀ s i, Inv s → C s i → Inv (m.step s i).1)
    (hP : ∀ s i, Inv s → C s i → P s i) {s : σ} {is : List ι}
    (h : m.Along C s is) (hs : Inv s) : m.Along P s is := by
  induction is generalizing s with
  | nil => trivial
  | cons i is ih => exact ⟨hP s i hs h.1, ih h.2 (hstep s i hs h.1)⟩

/-- The invariant rule for the state together with all outputs so far. -/
theorem Along.outputs_invariant {C : σ → ι → Prop} {Inv : σ → List ο → Prop}
    (hstep : ∀ s log i, Inv s log → C s i → Inv (m.step s i).1 (log ++ (m.step s i).2)) {s : σ}
    {log : List ο} {is : List ι} (h : m.Along C s is) (hs : Inv s log) :
    Inv (m.run s is) (log ++ m.outputs s is) := by
  induction is generalizing s log with
  | nil => simpa using hs
  | cons i is ih =>
    rw [run_cons, outputs_cons, ← List.append_assoc]
    exact ih h.2 (hstep s log i hs h.1)

/-- Two conditions that agree wherever the invariant holds hold along the same runs, if the steps that meet the
second keep the invariant. -/
theorem along_congr_of_kept {C D : σ → ι → Prop} {Inv : σ → Prop}
    (hstep : ∀ s i, Inv s → D s i → Inv (m.step s i).1) (h : ∀ s i, Inv s → (C s i ↔ D s i)) {s : σ}
    (hs : Inv s) (is : List ι) : m.Along C s is ↔ m.Along D s is := by
  induction is generalizing s with
  | nil => simp
  | cons i is ih =>
    rw [along_cons, along_cons, h s i hs]
    exact and_congr_right fun hD => ih (hstep s i hs hD)

/-- Two conditions that agree at every step that starts in the invariant hold along the same runs. -/
theorem along_congr_of_invariant {C D : σ → ι → Prop} {Inv : σ → Prop}
    (hstep : ∀ s i, Inv s → Inv (m.step s i).1) (h : ∀ s i, Inv s → (C s i ↔ D s i)) {s : σ}
    (hs : Inv s) (is : List ι) : m.Along C s is ↔ m.Along D s is :=
  along_congr_of_kept (fun s i hs _ => hstep s i hs) h hs is

/-- Two conditions that agree at every step hold along the same runs. -/
theorem along_congr {C D : σ → ι → Prop} (h : ∀ s i, C s i ↔ D s i) (s : σ) (is : List ι) :
    m.Along C s is ↔ m.Along D s is :=
  along_congr_of_invariant (fun _ _ _ => trivial) (fun s i (_ : True) => h s i) trivial is

/-! ## History variables -/

variable {η : Type*} (m)

/-- The machine with a history variable beside its state. The steps update it and do not read it. -/
def withHistory (next : η → σ → ι → η) : Machine (σ × η) ι ο where
  step p i := (((m.step p.1 i).1, next p.2 p.1 i), (m.step p.1 i).2)

end Machine

end OrgLittle.Lib
