import Mathlib

/-!
# Paths of a file system

A path is a list of components. Resolving a path against a directory walks through its components, and `..`
goes back to the parent, where the root is its own parent. Reduced by itself, a relative path first goes up
some levels and then down (`reduce`), and that decides whether it ends below the directory that it starts
from (`prefix_resolve_iff`).
-/

namespace OrgLittle.Lib.Path

section Resolve

variable {α : Type*} [DecidableEq α] (up : α)

/-- One component of a walk: `up` goes to the parent, any other to a child. -/
def walk (dir : List α) (c : α) : List α := if c = up then dir.dropLast else dir ++ [c]

/-- The directory that a path leads to. -/
def resolve (dir path : List α) : List α := path.foldl (walk up) dir

/-- How many levels a path goes up and the components that it then goes down. -/
structure Reduced (α : Type*) where
  levels : ℕ
  down : List α

/-- One more component of a reduced path. -/
def Reduced.walk (r : Reduced α) (c : α) : Reduced α :=
  if c = up then
    if r.down = [] then ⟨r.levels + 1, []⟩ else ⟨r.levels, r.down.dropLast⟩
  else ⟨r.levels, r.down ++ [c]⟩

/-- A path reduced by itself. -/
def reduce (path : List α) : Reduced α := path.foldl (Reduced.walk up) ⟨0, []⟩

/-- The directory that a reduced path leads to. -/
def Reduced.from (r : Reduced α) (dir : List α) : List α := dir.take (dir.length - r.levels) ++ r.down

theorem Reduced.walk_from (r : Reduced α) (dir : List α) (c : α) :
    Path.walk up (r.from dir) c = (r.walk up c).from dir := by
  unfold Path.walk Reduced.walk Reduced.from
  split_ifs with hup hdown
  · rw [hdown, List.append_nil, List.append_nil, List.dropLast_eq_take, List.take_take,
      List.length_take]
    congr 1
    dsimp only
    omega
  · rw [List.dropLast_append_of_ne_nil hdown]
  · rw [List.append_assoc]

theorem foldl_walk_from (path : List α) (r : Reduced α) (dir : List α) :
    path.foldl (walk up) (r.from dir) = (path.foldl (Reduced.walk up) r).from dir := by
  induction path generalizing r with
  | nil => rfl
  | cons c path ih => rw [List.foldl_cons, Reduced.walk_from, ih, List.foldl_cons]

/-- A path may be reduced before it is resolved. -/
theorem resolve_eq (dir path : List α) : resolve up dir path = (reduce up path).from dir := by
  have hdir : dir = (⟨0, []⟩ : Reduced α).from dir := by
    rw [Reduced.from, Nat.sub_zero, List.take_length, List.append_nil]
  have hfold := foldl_walk_from up path ⟨0, []⟩ dir
  rw [← hdir] at hfold
  exact hfold

/-- A path ends below the directory that it starts from exactly if it comes back down on the way that it
went up. -/
theorem prefix_resolve_iff (dir path : List α) :
    dir <+: resolve up dir path
      ↔ dir.drop (dir.length - (reduce up path).levels) <+: (reduce up path).down := by
  have hdir := List.take_append_drop (dir.length - (reduce up path).levels) dir
  rw [resolve_eq, Reduced.from]
  conv_lhs => lhs; rw [← hdir]
  rw [List.prefix_append_right_inj]

end Resolve

section Split

variable {α : Type*} [DecidableEq α] (sep : α)

/-- The parts of a text between the separators. -/
def split : List α → List (List α)
  | [] => [[]]
  | c :: s =>
    if c = sep then [] :: split s
    else
      match split s with
      | [] => [[c]]
      | part :: parts => (c :: part) :: parts

theorem split_ne_nil (s : List α) : split sep s ≠ [] := by
  cases s with
  | nil => exact List.cons_ne_nil _ _
  | cons c s =>
    unfold split
    split_ifs
    · exact List.cons_ne_nil _ _
    · split
      · exact List.cons_ne_nil _ _
      · exact List.cons_ne_nil _ _

theorem split_append (s t : List α) : split sep (s ++ sep :: t) = split sep s ++ split sep t := by
  induction s with
  | nil =>
    show split sep (sep :: t) = [] :: split sep t
    rw [split, if_pos rfl]
  | cons c s ih =>
    rw [List.cons_append, split, ih, split]
    split_ifs
    · rfl
    · obtain ⟨part, parts, hparts⟩ := List.exists_cons_of_ne_nil (split_ne_nil sep s)
      rw [hparts]
      rfl

/-- The first part, with what is in front of it. -/
theorem split_cons (c : α) (s : List α) :
    ∃ part parts, split sep s = part :: parts
      ∧ split sep (c :: s) = if c = sep then [] :: part :: parts else (c :: part) :: parts := by
  obtain ⟨part, parts, hparts⟩ := List.exists_cons_of_ne_nil (split_ne_nil sep s)
  exact ⟨part, parts, hparts, by rw [split, hparts]⟩

section dots

variable {sep} {c : α}

omit [DecidableEq α] in
theorem cons_cons_infix_cons (a b x : α) (s : List α) :
    [a, b] <:+: x :: s ↔ x = a ∧ s.head? = some b ∨ [a, b] <:+: s := by
  rw [List.infix_cons_iff, List.cons_prefix_cons, eq_comm (a := a)]
  refine or_congr_left (and_congr_right fun _ => ?_)
  cases s with
  | nil => simp
  | cons y s => simp [List.cons_prefix_cons, eq_comm]

theorem head?_split_tail (hc : c ≠ sep) (s : List α) :
    (((split sep s).head?.bind List.head?) = some c ↔ s.head? = some c)
      ∧ ((∃ part ∈ (split sep s).tail, part.head? = some c) ↔ [sep, c] <:+: s) := by
  induction s with
  | nil => simp [split]
  | cons x s ih =>
    obtain ⟨part, parts, hsplit, hcons⟩ := split_cons sep x s
    rw [hsplit] at ih
    rw [hcons, cons_cons_infix_cons]
    split_ifs with hx
    · subst hx
      refine ⟨by simp [hc.symm], ?_⟩
      rw [← ih.1, ← ih.2]
      simp
    · refine ⟨by simp, ?_⟩
      rw [← ih.2]
      simp [hx]

/-- A part begins with `c` exactly if the text does, or a separator with `c` behind it is somewhere in the text. -/
theorem exists_head?_split (hc : c ≠ sep) (s : List α) :
    (∃ part ∈ split sep s, part.head? = some c) ↔ s.head? = some c ∨ [sep, c] <:+: s := by
  obtain ⟨hhead, htail⟩ := head?_split_tail hc s
  obtain ⟨part, parts, hparts⟩ := List.exists_cons_of_ne_nil (split_ne_nil sep s)
  rw [hparts] at hhead htail ⊢
  rw [← hhead, ← htail]
  simp

/-- A part ends with `c` exactly if the text does, or a separator with `c` before it is somewhere in the text. -/
theorem exists_getLast?_split (hc : c ≠ sep) (s : List α) :
    (∃ part ∈ split sep s, part.getLast? = some c) ↔ s.getLast? = some c ∨ [c, sep] <:+: s := by
  induction s with
  | nil => simp [split]
  | cons x s ih =>
    obtain ⟨part, parts, hsplit, hcons⟩ := split_cons sep x s
    rw [hsplit] at ih
    rw [hcons, cons_cons_infix_cons]
    split_ifs with hx
    · subst hx
      have hlast : (x :: s).getLast? = some c ↔ s.getLast? = some c := by
        cases s with
        | nil => simp [hc.symm]
        | cons y s => rw [List.getLast?_cons_cons]
      rw [hlast, or_iff_right (show ¬ (x = c ∧ s.head? = some x) from fun h => hc h.1.symm), ← ih]
      simp
    · cases s with
      | nil =>
        cases hsplit
        simp
      | cons y s =>
        rw [List.getLast?_cons_cons]
        obtain ⟨part', parts', -, hcons'⟩ := split_cons sep y s
        rw [hsplit] at hcons'
        split_ifs at hcons' with hy
        · cases hcons'
          simp only [List.mem_cons, exists_eq_or_imp, List.getLast?_singleton, List.getLast?_nil, reduceCtorEq,
            false_or, Option.some.injEq, List.head?_cons, hy, and_true] at ih ⊢
          rw [ih, or_left_comm]
        · cases hcons'
          rw [or_iff_right (show ¬ (x = c ∧ (y :: s).head? = some sep) from fun h => hy (Option.some.inj h.2)), ← ih]
          simp only [List.mem_cons, exists_eq_or_imp, List.getLast?_cons_cons]

end dots

end Split

section Resolve

variable {α : Type*} [DecidableEq α] {up : α}

/-- A path that never goes up is a way down. -/
theorem resolve_of_notMem {path : List α} (h : up ∉ path) (dir : List α) : resolve up dir path = dir ++ path := by
  induction path generalizing dir with
  | nil => exact (List.append_nil dir).symm
  | cons c path ih =>
    rw [List.mem_cons, not_or] at h
    rw [resolve, List.foldl_cons, walk, if_neg (Ne.symm h.1)]
    exact (ih h.2 (dir ++ [c])).trans (List.append_assoc dir [c] path)

end Resolve

end OrgLittle.Lib.Path
