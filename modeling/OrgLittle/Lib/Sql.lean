import Mathlib

/-!
# Tables

A table is a list of rows. An `UPDATE` changes the rows that its condition selects and keeps the others,
and a comparison with `NULL` selects nothing, also when both sides are `NULL`. `ORDER BY` puts `NULL` last
and keeps the order of rows with equal keys.
-/

namespace OrgLittle.Lib.Sql

/-- `=` on columns that may be `NULL`. -/
def sqlEq {α : Type*} [DecidableEq α] : Option α → Option α → Bool
  | some a, some b => a = b
  | _, _ => false

theorem sqlEq_iff {α : Type*} [DecidableEq α] {a b : Option α} :
    sqlEq a b = true ↔ a.isSome = true ∧ a = b := by
  cases a <;> cases b <;> simp [sqlEq]

section Table

variable {ρ : Type*}

/-- `UPDATE ... SET f WHERE p`. -/
def updateWhere (p : ρ → Bool) (f : ρ → ρ) (rows : List ρ) : List ρ :=
  rows.map fun row => if p row then f row else row

theorem mem_updateWhere {p : ρ → Bool} {f : ρ → ρ} {rows : List ρ} {row : ρ} :
    row ∈ updateWhere p f rows ↔ ∃ row' ∈ rows, (if p row' then f row' else row') = row :=
  List.mem_map

/-- A column that the `UPDATE` does not set keeps its values. -/
theorem map_updateWhere {κ : Type*} (column : ρ → κ) (p : ρ → Bool) (f : ρ → ρ)
    (h : ∀ row, column (f row) = column row) (rows : List ρ) :
    (updateWhere p f rows).map column = rows.map column := by
  rw [updateWhere, List.map_map]
  refine List.map_congr_left fun row _ => ?_
  rw [Function.comp_apply]
  split_ifs
  · exact h row
  · rfl

end Table

/-! ## Joins -/

section Join

variable {ρ ρ' κ : Type*} [DecidableEq κ]

/-- `SELECT ... FROM a, b WHERE a.k = b.k'`. -/
def joinOn (k : ρ → κ) (k' : ρ' → κ) (a : List ρ) (b : List ρ') : List (ρ × ρ') :=
  a.flatMap fun x => (b.filter fun y => k' y = k x).map fun y => (x, y)

/-- A row that is looked up by a unique key. -/
theorem filter_key {k' : ρ' → κ} {b : List ρ'} (hb : (b.map k').Nodup) {y : ρ'} (hy : y ∈ b) :
    (b.filter fun z => k' z = k' y) = [y] := by
  induction b with
  | nil => cases hy
  | cons z b ih =>
    rw [List.map_cons, List.nodup_cons] at hb
    rcases List.mem_cons.mp hy with rfl | hy
    · have hnone : (b.filter fun z => k' z = k' y) = [] := by
        refine List.filter_eq_nil_iff.mpr fun z hz heq => hb.1 ?_
        rw [← of_decide_eq_true heq]
        exact List.mem_map_of_mem hz
      rw [List.filter_cons, if_pos (decide_eq_true rfl), hnone]
    · have hne : k' z ≠ k' y := fun heq => hb.1 (heq ▸ List.mem_map_of_mem hy)
      rw [List.filter_cons, if_neg (by simpa using hne), ih hb.2 hy]

/-- A join in which every row of the first table has its partner in the second, under a unique key. -/
theorem joinOn_eq_map {τ : Type*} {k : ρ → κ} {k' : ρ' → κ} {b : List ρ'} (hb : (b.map k').Nodup) (fst : τ → ρ)
    (snd : τ → ρ') {l : List τ} (h : ∀ t ∈ l, snd t ∈ b ∧ k' (snd t) = k (fst t)) :
    joinOn k k' (l.map fst) b = l.map fun t => (fst t, snd t) := by
  induction l with
  | nil => rfl
  | cons t l ih =>
    obtain ⟨hmem, hkey⟩ := h t List.mem_cons_self
    have hl := ih fun t' ht' => h t' (List.mem_cons_of_mem t ht')
    rw [joinOn] at hl
    rw [joinOn, List.map_cons, List.flatMap_cons, hl, ← hkey, filter_key hb hmem]
    rfl

end Join

/-! ## `ORDER BY` -/

section OrderBy

variable {ρ ρ' κ : Type*} [LinearOrder κ]

/-- The order of keys that may be `NULL`. -/
def nullsLast : Option κ → Option κ → Prop
  | _, none => True
  | none, some _ => False
  | some a, some b => a ≤ b

instance (a b : Option κ) : Decidable (nullsLast a b) :=
  match a, b with
  | _, none => isTrue trivial
  | none, some _ => isFalse not_false
  | some a, some b => inferInstanceAs (Decidable (a ≤ b))

theorem nullsLast_total (a b : Option κ) : nullsLast a b ∨ nullsLast b a := by
  rcases a with _ | a <;> rcases b with _ | b
  · exact Or.inl trivial
  · exact Or.inr trivial
  · exact Or.inl trivial
  · exact le_total a b

theorem nullsLast_trans {a b c : Option κ} (hab : nullsLast a b) (hbc : nullsLast b c) : nullsLast a c := by
  rcases c with _ | c
  · trivial
  · rcases b with _ | b
    · exact hbc.elim
    · rcases a with _ | a
      · exact hab.elim
      · exact le_trans (a := a) (b := b) (c := c) hab hbc

/-- `ORDER BY key`. -/
def orderBy (key : ρ → Option κ) (rows : List ρ) : List ρ :=
  rows.insertionSort fun a b => nullsLast (key a) (key b)

theorem orderBy_perm (key : ρ → Option κ) (rows : List ρ) : (orderBy key rows).Perm rows :=
  List.perm_insertionSort _ rows

theorem orderBy_pairwise (key : ρ → Option κ) (rows : List ρ) :
    (orderBy key rows).Pairwise fun a b => nullsLast (key a) (key b) := by
  have : Std.Total fun a b : ρ => nullsLast (key a) (key b) := ⟨fun a b => nullsLast_total (key a) (key b)⟩
  have : IsTrans ρ fun a b => nullsLast (key a) (key b) := ⟨fun _ _ _ => nullsLast_trans⟩
  exact List.pairwise_insertionSort _ rows

/-- Ordering rows that are made from others. -/
theorem orderBy_map (f : ρ → ρ') (key : ρ' → Option κ) (rows : List ρ) :
    orderBy key (rows.map f) = (orderBy (fun a => key (f a)) rows).map f :=
  (List.map_insertionSort _ _ f rows fun _ _ _ _ => Iff.rfl).symm

end OrderBy

end OrgLittle.Lib.Sql
