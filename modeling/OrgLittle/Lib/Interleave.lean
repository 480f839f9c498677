import OrgLittle.Lib.Machine

/-!
# Parties that share a state

`interleave` runs one machine for every party, with a state of its own and a state that all of them share. As long as a
party is `Hidden`, its steps neither read nor change what is shared: the others do not notice it
(`Hidden.run_others`), and it does not notice them (`Hidden.run_own`). Two machines that agree on the parties as they
are in the end have the same interleavings (`interleave_congr`).
-/

namespace OrgLittle.Lib.Machine

variable {κ σ τ ι ο : Type*} [DecidableEq κ]

/-- The machine of all parties: any of them may take the next step. -/
def interleave (m : Machine (σ × τ) ι ο) : Machine ((κ → σ) × τ) (κ × ι) (κ × ο) where
  step st i :=
    let out := m.step (st.1 i.1, st.2) i.2
    ((Function.update st.1 i.1 out.1.1, out.1.2), out.2.map fun o => (i.1, o))

/-- What concerns one party. -/
def own {α : Type*} (k : κ) (xs : List (κ × α)) : List α := (xs.filter fun x => x.1 = k).map Prod.snd

/-- What concerns the other parties. -/
def others {α : Type*} (k : κ) (xs : List (κ × α)) : List (κ × α) := xs.filter fun x => x.1 ≠ k

section lists

variable {α : Type*} {k j : κ}

@[simp] theorem own_nil : own k ([] : List (κ × α)) = [] := rfl

@[simp] theorem others_nil : others k ([] : List (κ × α)) = [] := rfl

@[simp] theorem own_append (xs ys : List (κ × α)) : own k (xs ++ ys) = own k xs ++ own k ys := by
  rw [own, List.filter_append, List.map_append, own, own]

@[simp] theorem others_append (xs ys : List (κ × α)) : others k (xs ++ ys) = others k xs ++ others k ys :=
  List.filter_append xs ys

/-- An entry of `k` is one of its own. -/
theorem own_cons_self (x : α) (xs : List (κ × α)) : own k ((k, x) :: xs) = x :: own k xs := by simp [own]

/-- An entry of another is not. -/
theorem own_cons_of_ne (h : j ≠ k) (x : α) (xs : List (κ × α)) : own k ((j, x) :: xs) = own k xs := by
  simp [own, h]

/-- An entry of `k` is not one of the others. -/
theorem others_cons_self (x : α) (xs : List (κ × α)) : others k ((k, x) :: xs) = others k xs := by simp [others]

/-- An entry of another is. -/
theorem others_cons_of_ne (h : j ≠ k) (x : α) (xs : List (κ × α)) :
    others k ((j, x) :: xs) = (j, x) :: others k xs := by
  simp [others, h]

@[simp] theorem own_map_self (xs : List α) : own k (xs.map fun x => (k, x)) = xs := by
  induction xs with
  | nil => rfl
  | cons x xs ih => rw [List.map_cons, own_cons_self, ih]

theorem own_map_of_ne (h : j ≠ k) (xs : List α) : own k (xs.map fun x => (j, x)) = [] := by
  induction xs with
  | nil => rfl
  | cons x xs ih => rw [List.map_cons, own_cons_of_ne h, ih]

@[simp] theorem others_map_self (xs : List α) : others k (xs.map fun x => (k, x)) = [] := by
  induction xs with
  | nil => rfl
  | cons x xs ih => rw [List.map_cons, others_cons_self, ih]

theorem others_map_of_ne (h : j ≠ k) (xs : List α) : others k (xs.map fun x => (j, x)) = xs.map fun x => (j, x) := by
  induction xs with
  | nil => rfl
  | cons x xs ih => rw [List.map_cons, others_cons_of_ne h, ih]

/-- The entries of `k`. -/
theorem mem_own {x : α} {xs : List (κ × α)} : x ∈ own k xs ↔ (k, x) ∈ xs := by
  simp [own]

/-- They are counted among all. -/
theorem count_own [DecidableEq α] (x : α) (xs : List (κ × α)) : (own k xs).count x = xs.count (k, x) := by
  induction xs with
  | nil => rfl
  | cons y xs ih =>
    obtain ⟨j, y⟩ := y
    by_cases hj : j = k
    · subst hj
      rw [own_cons_self, List.count_cons, List.count_cons, ih]
      simp
    · rw [own_cons_of_ne hj, List.count_cons, ih]
      simp [hj]

/-- Lists in which every party has the same elements have the same elements. -/
theorem perm_of_own {xs ys : List (κ × α)} [DecidableEq α] (h : ∀ k, (own k xs).Perm (own k ys)) : xs.Perm ys :=
  List.perm_iff_count.mpr fun (k, x) => by rw [← count_own, ← count_own, (h k).count_eq]

/-- What is picked from the elements of one party. -/
theorem own_filterMap {β : Type*} (g : α → Option β) (xs : List (κ × α)) :
    own k (xs.filterMap fun x => (g x.2).map fun y => (x.1, y)) = (own k xs).filterMap g := by
  induction xs with
  | nil => rfl
  | cons x xs ih =>
    obtain ⟨j, x⟩ := x
    by_cases hj : j = k
    · subst hj
      rw [own_cons_self, List.filterMap_cons, List.filterMap_cons]
      cases g x with
      | none => exact ih
      | some y => exact (own_cons_self ..).trans (congrArg _ ih)
    · rw [own_cons_of_ne hj, List.filterMap_cons]
      cases g x with
      | none => exact ih
      | some y => exact (own_cons_of_ne hj ..).trans ih

/-- Where two pickings give the same for every party, they give the same elements for all. -/
theorem filterMap_perm_of_own {β : Type*} [DecidableEq β] {g h : α → Option β} {xs : List (κ × α)}
    (heq : ∀ k, (own k xs).filterMap g = (own k xs).filterMap h) :
    ((xs.map Prod.snd).filterMap g).Perm ((xs.map Prod.snd).filterMap h) := by
  have hpicked (g : α → Option β) : (xs.map Prod.snd).filterMap g
      = (xs.filterMap fun x => (g x.2).map fun y => (x.1, y)).map Prod.snd := by
    rw [List.filterMap_map, List.map_filterMap]
    refine List.filterMap_congr fun x _ => ?_
    cases h : g x.2 <;> simp [h]
  rw [hpicked, hpicked]
  refine (perm_of_own fun k => ?_).map Prod.snd
  rw [own_filterMap, own_filterMap, heq]

end lists

section step

variable (m : Machine (σ × τ) ι ο)

/-- A step of `k` changes its own state and the shared one. -/
theorem interleave_run_cons (f : κ → σ) (t : τ) (k : κ) (i : ι) (is : List (κ × ι)) :
    m.interleave.run (f, t) ((k, i) :: is)
      = m.interleave.run (Function.update f k (m.step (f k, t) i).1.1, (m.step (f k, t) i).1.2) is := rfl

/-- What is put out in it bears the name of `k`. -/
theorem interleave_outputs_cons (f : κ → σ) (t : τ) (k : κ) (i : ι) (is : List (κ × ι)) :
    m.interleave.outputs (f, t) ((k, i) :: is)
      = (m.step (f k, t) i).2.map (fun o => (k, o))
        ++ m.interleave.outputs (Function.update f k (m.step (f k, t) i).1.1, (m.step (f k, t) i).1.2) is := rfl

/-- Steps of one party only are those of its machine. -/
theorem interleave_run_alone (f : κ → σ) (t : τ) (k : κ) (is : List ι) :
    m.interleave.run (f, t) (is.map fun i => (k, i))
      = (Function.update f k (m.run (f k, t) is).1, (m.run (f k, t) is).2) := by
  induction is generalizing f t with
  | nil => exact Prod.ext (Function.update_eq_self k f).symm rfl
  | cons i is ih =>
    rw [List.map_cons, interleave_run_cons, ih, Function.update_self, Function.update_idem]
    rfl

end step

/-! ## Invariants -/

section invariant

variable {m : Machine (σ × τ) ι ο} {P : ι → Prop} {I : τ → List (κ × ο) → Prop} {L : κ → σ → τ → List (κ × ο) → Prop}

/-- An invariant of what is shared and one of each party, with the outputs so far: a step of a party keeps both, and it
keeps those of the other parties. -/
theorem interleave_invariants
    (hstep : ∀ k s t log i, P i → I t log → L k s t log →
      I (m.step (s, t) i).1.2 (log ++ (m.step (s, t) i).2.map fun o => (k, o))
        ∧ L k (m.step (s, t) i).1.1 (m.step (s, t) i).1.2 (log ++ (m.step (s, t) i).2.map fun o => (k, o))
        ∧ ∀ j, j ≠ k → ∀ s', L j s' t log →
          L j s' (m.step (s, t) i).1.2 (log ++ (m.step (s, t) i).2.map fun o => (k, o)))
    {f : κ → σ} {t : τ} {log : List (κ × ο)} {is : List (κ × ι)} (hP : ∀ i ∈ is, P i.2) (hI : I t log)
    (hL : ∀ k, L k (f k) t log) :
    I (m.interleave.run (f, t) is).2 (log ++ m.interleave.outputs (f, t) is)
      ∧ ∀ k, L k ((m.interleave.run (f, t) is).1 k) (m.interleave.run (f, t) is).2
          (log ++ m.interleave.outputs (f, t) is) := by
  induction is generalizing f t log with
  | nil => simpa using ⟨hI, hL⟩
  | cons i is ih =>
    obtain ⟨k, i⟩ := i
    rw [List.forall_mem_cons] at hP
    obtain ⟨hI', hk, hothers⟩ := hstep k (f k) t log i hP.1 hI (hL k)
    rw [interleave_run_cons, interleave_outputs_cons, ← List.append_assoc]
    refine ih hP.2 hI' fun j => ?_
    by_cases hj : j = k
    · rw [hj, Function.update_self]
      exact hk
    · rw [Function.update_of_ne hj]
      exact hothers j hj (f j) (hL j)

/-- The invariant of what is shared. -/
theorem interleave_invariant
    (hstep : ∀ k s t log i, P i → I t log → L k s t log →
      I (m.step (s, t) i).1.2 (log ++ (m.step (s, t) i).2.map fun o => (k, o))
        ∧ L k (m.step (s, t) i).1.1 (m.step (s, t) i).1.2 (log ++ (m.step (s, t) i).2.map fun o => (k, o))
        ∧ ∀ j, j ≠ k → ∀ s', L j s' t log →
          L j s' (m.step (s, t) i).1.2 (log ++ (m.step (s, t) i).2.map fun o => (k, o)))
    {f : κ → σ} {t : τ} {log : List (κ × ο)} {is : List (κ × ι)} (hP : ∀ i ∈ is, P i.2) (hI : I t log)
    (hL : ∀ k, L k (f k) t log) :
    I (m.interleave.run (f, t) is).2 (log ++ m.interleave.outputs (f, t) is) :=
  (interleave_invariants hstep hP hI hL).1

end invariant

/-! ## A property that a party once has for good -/

/-- What holds of a party after a step held before it. -/
def Backward (m : Machine (σ × τ) ι ο) (Q : σ → Prop) : Prop := ∀ s t i, Q (m.step (s, t) i).1.1 → Q s

/-- What holds of a state in the end held of it in the beginning. -/
theorem Backward.of_run {m : Machine (σ × τ) ι ο} {Q : σ → Prop} (h : m.Backward Q) {k : κ} {f : κ → σ} {t : τ}
    {is : List (κ × ι)} (hQ : Q ((m.interleave.run (f, t) is).1 k)) : Q (f k) := by
  induction is generalizing f t with
  | nil => exact hQ
  | cons i is ih =>
    obtain ⟨j, i⟩ := i
    have hnext := ih hQ
    by_cases hj : j = k
    · subst hj
      rw [Function.update_self] at hnext
      exact h _ _ _ hnext
    · rwa [Function.update_of_ne (Ne.symm hj)] at hnext

/-- The same for a machine that runs alone. -/
theorem Backward.of_run_alone {m : Machine (σ × τ) ι ο} {Q : σ → Prop} (h : m.Backward Q) {st : σ × τ} {is : List ι}
    (hQ : Q (m.run st is).1) : Q st.1 := by
  induction is generalizing st with
  | nil => exact hQ
  | cons i is ih => exact h _ _ _ (ih hQ)

/-! ## Hidden parties -/

/-- While `Q` holds of a party, it neither reads nor changes what is shared, and once it does not, it never will again.
The step that ends it is still hidden. -/
structure Hidden (m : Machine (σ × τ) ι ο) (Q : σ → Prop) : Prop where
  back : m.Backward Q
  keeps : ∀ s t i, Q s → (m.step (s, t) i).1.2 = t
  blind : ∀ s t t' i, Q s → (m.step (s, t) i).1.1 = (m.step (s, t') i).1.1 ∧ (m.step (s, t) i).2 = (m.step (s, t') i).2

section hidden

variable {m : Machine (σ × τ) ι ο} {Q : σ → Prop} {k : κ}

/-- Without the inputs of a party, its state makes no difference to the others. -/
theorem run_others_congr {f f' : κ → σ} (hf : ∀ j, j ≠ k → f j = f' j) (t : τ) (is : List (κ × ι)) :
    (m.interleave.run (f, t) (others k is)).2 = (m.interleave.run (f', t) (others k is)).2
      ∧ (∀ j, j ≠ k → (m.interleave.run (f, t) (others k is)).1 j = (m.interleave.run (f', t) (others k is)).1 j)
      ∧ m.interleave.outputs (f, t) (others k is) = m.interleave.outputs (f', t) (others k is) := by
  induction is generalizing f f' t with
  | nil => exact ⟨rfl, hf, rfl⟩
  | cons i is ih =>
    obtain ⟨j, i⟩ := i
    by_cases hj : j = k
    · rw [hj, others_cons_self]
      exact ih hf t
    · have hnext (l : κ) (hl : l ≠ k) : Function.update f j (m.step (f j, t) i).1.1 l
          = Function.update f' j (m.step (f' j, t) i).1.1 l := by
        rw [← hf j hj]
        by_cases hlj : l = j
        · rw [hlj, Function.update_self, Function.update_self]
        · rw [Function.update_of_ne hlj, Function.update_of_ne hlj, hf l hl]
      rw [others_cons_of_ne hj, interleave_run_cons, interleave_run_cons, interleave_outputs_cons,
        interleave_outputs_cons, ← hf j hj]
      rw [← hf j hj] at hnext
      obtain ⟨hshared, hlocal, hout⟩ := ih hnext (m.step (f j, t) i).1.2
      exact ⟨hshared, hlocal, by rw [hout]⟩

/-- A party that stays hidden can be left out: the others end in the same states with the same outputs. -/
theorem Hidden.run_others (h : m.Hidden Q) {f : κ → σ} {t : τ} {is : List (κ × ι)}
    (hQ : Q ((m.interleave.run (f, t) is).1 k)) :
    (m.interleave.run (f, t) is).2 = (m.interleave.run (f, t) (others k is)).2
      ∧ (∀ j, j ≠ k → (m.interleave.run (f, t) is).1 j = (m.interleave.run (f, t) (others k is)).1 j)
      ∧ others k (m.interleave.outputs (f, t) is) = m.interleave.outputs (f, t) (others k is) := by
  induction is generalizing f t with
  | nil => exact ⟨rfl, fun _ _ => rfl, rfl⟩
  | cons i is ih =>
    obtain ⟨j, i⟩ := i
    have hnow := h.back.of_run hQ
    rw [interleave_run_cons] at hQ
    obtain ⟨hshared, hlocal, hout⟩ := ih hQ
    by_cases hj : j = k
    · subst hj
      have hkeeps := h.keeps _ t i hnow
      have hoff (l : κ) (hl : l ≠ j) : Function.update f j (m.step (f j, t) i).1.1 l = f l :=
        Function.update_of_ne hl _ _
      have hcongr := run_others_congr (m := m) hoff t is
      rw [hkeeps] at hshared hlocal hout
      rw [interleave_run_cons, interleave_outputs_cons, others_cons_self, others_append, others_map_self,
        List.nil_append, hkeeps]
      exact ⟨hshared.trans hcongr.1, fun l hl => (hlocal l hl).trans (hcongr.2.1 l hl), hout.trans hcongr.2.2⟩
    · rw [interleave_run_cons, interleave_outputs_cons, others_cons_of_ne hj, others_append, others_map_of_ne hj]
      exact ⟨hshared, hlocal, congrArg _ hout⟩

/-- A party that stays hidden runs as if it were alone, whatever is shared. -/
theorem Hidden.run_own (h : m.Hidden Q) {f : κ → σ} {t : τ} {is : List (κ × ι)}
    (hQ : Q ((m.interleave.run (f, t) is).1 k)) (t' : τ) :
    (m.interleave.run (f, t) is).1 k = (m.run (f k, t') (own k is)).1
      ∧ own k (m.interleave.outputs (f, t) is) = m.outputs (f k, t') (own k is) := by
  induction is generalizing f t with
  | nil => exact ⟨rfl, rfl⟩
  | cons i is ih =>
    obtain ⟨j, i⟩ := i
    have hnow := h.back.of_run hQ
    rw [interleave_run_cons] at hQ
    obtain ⟨hrun, hout⟩ := ih hQ
    by_cases hj : j = k
    · subst hj
      have hblind := h.blind _ t t' i hnow
      have hnext : ((m.step (f j, t) i).1.1, t') = (m.step (f j, t') i).1 :=
        Prod.ext hblind.1 (h.keeps _ t' i hnow).symm
      rw [Function.update_self, hnext] at hrun hout
      rw [interleave_run_cons, interleave_outputs_cons, own_cons_self, own_append, own_map_self, hblind.2]
      exact ⟨hrun, congrArg _ hout⟩
    · rw [Function.update_of_ne (Ne.symm hj)] at hrun hout
      rw [interleave_run_cons, interleave_outputs_cons, own_cons_of_ne hj, own_append, own_map_of_ne hj,
        List.nil_append]
      exact ⟨hrun, hout⟩

end hidden

/-! ## Machines that agree -/

/-- Two machines that agree on a party as it is in the end have the same run of it. -/
theorem run_congr {m m' : Machine (σ × τ) ι ο} {Q : σ → Prop} (hback : m.Backward Q)
    (hagree : ∀ s t i, Q s → m.step (s, t) i = m'.step (s, t) i) {st : σ × τ} {is : List ι}
    (hQ : Q (m.run st is).1) : m.run st is = m'.run st is ∧ m.outputs st is = m'.outputs st is := by
  induction is generalizing st with
  | nil => exact ⟨rfl, rfl⟩
  | cons i is ih =>
    have hstep : m.step st i = m'.step st i :=
      hagree _ st.2 i (hback.of_run_alone (show Q (m.run st (i :: is)).1 from hQ))
    obtain ⟨hrun, hout⟩ := ih hQ
    rw [run_cons, run_cons, outputs_cons, outputs_cons, ← hstep]
    exact ⟨hrun, by rw [hout]⟩

/-- Two machines that agree on every party as it is in the end have the same interleavings. -/
theorem interleave_congr {m m' : Machine (σ × τ) ι ο} {Q : σ → Prop} (hback : m.Backward Q)
    (hagree : ∀ s t i, Q s → m.step (s, t) i = m'.step (s, t) i) {f : κ → σ} {t : τ} {is : List (κ × ι)}
    (hQ : ∀ k, Q ((m.interleave.run (f, t) is).1 k)) :
    m.interleave.run (f, t) is = m'.interleave.run (f, t) is
      ∧ m.interleave.outputs (f, t) is = m'.interleave.outputs (f, t) is := by
  induction is generalizing f t with
  | nil => exact ⟨rfl, rfl⟩
  | cons i is ih =>
    obtain ⟨k, i⟩ := i
    have hstep := hagree _ t i (hback.of_run (hQ k))
    rw [interleave_run_cons] at hQ
    obtain ⟨hrun, hout⟩ := ih hQ
    rw [interleave_run_cons, interleave_run_cons, interleave_outputs_cons, interleave_outputs_cons, ← hstep]
    exact ⟨hrun, by rw [hout]⟩

end OrgLittle.Lib.Machine
