import Mathlib

/-!
# Globs

A glob is a list of marks: a letter, any one letter, or any text. `Matches` says which texts it stands for.
`settle` is the glob that a matcher reads which forgets "any text" as soon as "any one letter" follows; it never
matches more than the glob itself (`Matches.of_settle`), and just as much where no such pair occurs
(`matches_settle_iff`).
-/

namespace OrgLittle.Lib.Glob

/-- A mark of a glob. -/
inductive Mark (α : Type*)
  | lit (c : α)
  | one
  | many
deriving DecidableEq

section Matching

variable {α : Type*} (same : α → α → Prop)

/-- The texts of a glob, where a letter of the text need only be `same` as the letter of the glob. -/
inductive Matches : List (Mark α) → List α → Prop
  | nil : Matches [] []
  | lit {c d : α} {g : List (Mark α)} {s : List α} : same d c → Matches g s → Matches (.lit c :: g) (d :: s)
  | one {d : α} {g : List (Mark α)} {s : List α} : Matches g s → Matches (.one :: g) (d :: s)
  | stop {g : List (Mark α)} {s : List α} : Matches g s → Matches (.many :: g) s
  | more {d : α} {g : List (Mark α)} {s : List α} : Matches (.many :: g) s → Matches (.many :: g) (d :: s)

variable {same} {g : List (Mark α)} {s : List α}

@[simp] theorem matches_nil_iff : Matches same [] s ↔ s = [] :=
  ⟨fun h => by cases h; rfl, fun h => h ▸ .nil⟩

/-- `?` takes one letter. -/
theorem matches_one_iff : Matches same (.one :: g) s ↔ ∃ d t, s = d :: t ∧ Matches same g t := by
  constructor
  · rintro (_ | _ | h)
    exact ⟨_, _, rfl, h⟩
  · rintro ⟨d, t, rfl, h⟩
    exact .one h

/-- A letter takes one that is the same. -/
theorem matches_lit_iff {c : α} :
    Matches same (.lit c :: g) s ↔ ∃ d t, s = d :: t ∧ same d c ∧ Matches same g t := by
  constructor
  · rintro (_ | ⟨hc, h⟩)
    exact ⟨_, _, rfl, hc, h⟩
  · rintro ⟨d, t, rfl, hc, h⟩
    exact .lit hc h

/-- Any text may be passed over. -/
theorem Matches.append (u : List α) (h : Matches same (.many :: g) s) : Matches same (.many :: g) (u ++ s) := by
  induction u with
  | nil => exact h
  | cons d u ih => exact .more ih

theorem matches_many_nil (s : List α) : Matches same [.many] s := by
  rw [← List.append_nil s]
  exact .append s (.stop .nil)

/-- "Any text" passes over the letters up to some place. -/
theorem matches_many_iff : Matches same (.many :: g) s ↔ ∃ k, Matches same g (s.drop k) := by
  constructor
  · intro h
    generalize hm : Mark.many :: g = m at h
    induction h with
    | nil | lit | one => cases hm
    | stop h =>
      cases hm
      exact ⟨0, h⟩
    | more _ ih =>
      obtain ⟨k, hk⟩ := ih hm
      exact ⟨k + 1, hk⟩
  · rintro ⟨k, hk⟩
    rw [← List.take_append_drop k s]
    exact .append _ (.stop hk)

/-- A run of letters stands for one piece of the text. -/
theorem matches_text_iff (w : List α) :
    Matches same (w.map .lit ++ g) s
      ↔ List.Forall₂ same (s.take w.length) w ∧ Matches same g (s.drop w.length) := by
  induction w generalizing s with
  | nil => simp
  | cons c w ih =>
    rw [List.map_cons, List.cons_append, matches_lit_iff]
    constructor
    · rintro ⟨d, t, rfl, hc, h⟩
      obtain ⟨hw, hg⟩ := ih.mp h
      exact ⟨.cons hc hw, hg⟩
    · rintro ⟨hw, hg⟩
      cases s with
      | nil => simp at hw
      | cons d t =>
        obtain ⟨hc, hw⟩ := List.forall₂_cons.mp hw
        exact ⟨d, t, rfl, hc, ih.mpr ⟨hw, hg⟩⟩

/-- Where a glob matches less than another behind any mark, "any text" in front of both keeps that. -/
theorem Matches.many_mono {g' : List (Mark α)} (hg : ∀ t, Matches same g t → Matches same g' t)
    (h : Matches same (.many :: g) s) : Matches same (.many :: g') s := by
  obtain ⟨k, hk⟩ := matches_many_iff.mp h
  exact matches_many_iff.mpr ⟨k, hg _ hk⟩

/-- "Any text" twice is "any text". -/
theorem matches_many_many_iff : Matches same (.many :: .many :: g) s ↔ Matches same (.many :: g) s := by
  refine ⟨fun h => ?_, .stop⟩
  obtain ⟨k, hk⟩ := matches_many_iff.mp h
  obtain ⟨l, hl⟩ := matches_many_iff.mp hk
  rw [List.drop_drop] at hl
  exact matches_many_iff.mpr ⟨_, hl⟩

end Matching

/-! ## Globs read with a flag -/

section Settle

variable {α : Type*}

/-- The glob behind an "any text", which is of no effect before "any one letter" or another "any text". -/
def passing : List (Mark α) → List (Mark α)
  | .one :: g => .one :: g
  | .many :: g => .many :: g
  | g => .many :: g

/-- A glob without the "any text" marks that are of no effect. -/
def settle : List (Mark α) → List (Mark α)
  | [] => []
  | .lit c :: g => .lit c :: settle g
  | .one :: g => .one :: settle g
  | .many :: g => passing (settle g)

@[simp] theorem settle_nil : settle ([] : List (Mark α)) = [] := rfl

@[simp] theorem settle_lit (c : α) (g : List (Mark α)) : settle (.lit c :: g) = .lit c :: settle g := rfl

@[simp] theorem settle_one (g : List (Mark α)) : settle (.one :: g) = .one :: settle g := rfl

theorem settle_many (g : List (Mark α)) : settle (.many :: g) = passing (settle g) := rfl

@[simp] theorem passing_passing (g : List (Mark α)) : passing (passing g) = passing g := by
  rcases g with _ | ⟨_ | _ | _, g⟩ <;> rfl

@[simp] theorem settle_many_many (g : List (Mark α)) : settle (.many :: .many :: g) = settle (.many :: g) := by
  rw [settle_many, settle_many, passing_passing]

@[simp] theorem settle_many_one (g : List (Mark α)) : settle (.many :: .one :: g) = .one :: settle g := rfl

@[simp] theorem settle_many_lit (c : α) (g : List (Mark α)) :
    settle (.many :: .lit c :: g) = .many :: .lit c :: settle g := rfl

/-- Text settles as it is. -/
theorem settle_text (w : List α) (g : List (Mark α)) : settle (w.map .lit ++ g) = w.map .lit ++ settle g := by
  induction w with
  | nil => rfl
  | cons c w ih => rw [List.map_cons, List.cons_append, settle_lit, ih, List.cons_append]

/-- `*` in front of text stays. -/
theorem settle_many_text {w : List α} (hw : w ≠ []) (g : List (Mark α)) :
    settle (.many :: (w.map .lit ++ g)) = .many :: (w.map .lit ++ settle g) := by
  obtain ⟨c, w, rfl⟩ := List.exists_cons_of_ne_nil hw
  rw [List.map_cons, List.cons_append, settle_many_lit, settle_text, List.cons_append]

variable {same : α → α → Prop} {g : List (Mark α)} {s : List α}

/-- A `*` that has been passed on can be put back in front. -/
theorem Matches.of_passing (h : Matches same (passing g) s) : Matches same (.many :: g) s := by
  rcases g with _ | ⟨_ | _ | _, g⟩
  · exact h
  · exact h
  · exact .stop h
  · exact .stop h

/-- A settled glob matches no more than the glob. -/
theorem Matches.of_settle (h : Matches same (settle g) s) : Matches same g s := by
  induction g generalizing s with
  | nil => exact h
  | cons m g ih =>
    match m with
    | .lit c =>
      obtain ⟨d, t, rfl, hc, ht⟩ := matches_lit_iff.mp h
      exact .lit hc (ih ht)
    | .one =>
      obtain ⟨d, t, rfl, ht⟩ := matches_one_iff.mp h
      exact .one (ih ht)
    | .many => exact h.of_passing.many_mono fun t => ih

/-- Where "any one letter" never stands directly behind "any text", a settled glob matches what the glob
matches. -/
theorem matches_settle_iff (hg : ¬ [Mark.many, Mark.one] <:+: g) : Matches same (settle g) s ↔ Matches same g s := by
  refine ⟨.of_settle, fun h => ?_⟩
  induction g generalizing s with
  | nil => exact h
  | cons m g ih =>
    have ih' (t : List α) (ht : Matches same g t) : Matches same (settle g) t :=
      ih (fun hin => hg (hin.trans (List.suffix_cons m g).isInfix)) ht
    match m with
    | .lit c =>
      obtain ⟨d, t, rfl, hc, ht⟩ := matches_lit_iff.mp h
      exact .lit hc (ih' t ht)
    | .one =>
      obtain ⟨d, t, rfl, ht⟩ := matches_one_iff.mp h
      exact .one (ih' t ht)
    | .many =>
      have hmany : Matches same (.many :: settle g) s := h.many_mono ih'
      rcases g with _ | ⟨c | _ | _, g⟩
      · exact hmany
      · exact hmany
      · exact absurd ⟨[], g, rfl⟩ hg
      · -- the settled rest begins with "any text" or with the mark that made it useless
        rw [settle_many_many]
        exact ih' s (matches_many_many_iff.mp h)

end Settle

end OrgLittle.Lib.Glob
