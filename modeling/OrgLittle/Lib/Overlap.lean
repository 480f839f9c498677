import Mathlib

/-!
# How far a pattern has got in a stream

`overlap p s` is the length of the longest prefix of `p` that is a suffix of `s`: what a matcher has to remember of
the stream `s` when it looks for `p`. It can be brought forward one element at a time from itself alone
(`overlap_concat`).
-/

namespace OrgLittle.Lib

variable {α : Type*} [DecidableEq α]

/-- The length of the longest prefix of `p` that is a suffix of `s`. -/
def overlap (p s : List α) : ℕ := Nat.findGreatest (fun j => p.take j <:+ s) p.length

theorem overlap_le (p s : List α) : overlap p s ≤ p.length := Nat.findGreatest_le p.length

theorem take_overlap_suffix (p s : List α) : p.take (overlap p s) <:+ s :=
  Nat.findGreatest_spec (P := fun j => p.take j <:+ s) (Nat.zero_le p.length)
    (by rw [List.take_zero]; exact List.nil_suffix)

theorem le_overlap {p s : List α} {j : ℕ} (hj : j ≤ p.length) (h : p.take j <:+ s) : j ≤ overlap p s :=
  Nat.le_findGreatest hj h

theorem overlap_eq_length_iff {p s : List α} : overlap p s = p.length ↔ p <:+ s := by
  constructor
  · intro h
    have hsuffix := take_overlap_suffix p s
    rwa [h, List.take_length] at hsuffix
  · intro h
    refine le_antisymm (overlap_le p s) (le_overlap (le_refl _) ?_)
    rwa [List.take_length]

theorem overlap_nil (p : List α) : overlap p [] = 0 := by
  have hnil := List.suffix_nil.mp (take_overlap_suffix p [])
  have hlength := congrArg List.length hnil
  rw [List.length_take, Nat.min_eq_left (overlap_le p [])] at hlength
  exact hlength

omit [DecidableEq α] in
/-- A prefix that ends with the last element of the stream is a prefix from before and that element. -/
theorem take_succ_suffix_concat {p s : List α} {b : α} {j : ℕ} (hj : j < p.length) :
    p.take (j + 1) <:+ s ++ [b] ↔ p.take j <:+ s ∧ p[j] = b := by
  rw [List.take_succ_eq_append_getElem hj]
  constructor
  · rintro ⟨front, hfront⟩
    rw [← List.append_assoc] at hfront
    obtain ⟨hs, hb⟩ := List.append_inj' hfront rfl
    exact ⟨⟨front, hs⟩, (List.cons.inj hb).1⟩
  · rintro ⟨⟨front, rfl⟩, rfl⟩
    exact ⟨front, by rw [List.append_assoc]⟩

/-- The overlap with a longer stream depends on the old overlap and the new element only. -/
theorem overlap_concat (p s : List α) (b : α) :
    overlap p (s ++ [b]) = overlap p (p.take (overlap p s) ++ [b]) := by
  apply le_antisymm
  · apply le_overlap (overlap_le p _)
    have hsuffix := take_overlap_suffix p (s ++ [b])
    have hle := overlap_le p (s ++ [b])
    cases hm : overlap p (s ++ [b]) with
    | zero => rw [List.take_zero]; exact List.nil_suffix
    | succ m =>
      rw [hm] at hsuffix hle
      have hlt : m < p.length := hle
      rw [take_succ_suffix_concat hlt] at hsuffix ⊢
      refine ⟨?_, hsuffix.2⟩
      have hm' := le_overlap hlt.le hsuffix.1
      refine List.suffix_of_suffix_length_le hsuffix.1 (take_overlap_suffix p s) ?_
      rw [List.length_take, List.length_take]
      omega
  · apply le_overlap (overlap_le p _)
    obtain ⟨front, hfront⟩ := take_overlap_suffix p s
    refine (take_overlap_suffix p _).trans ⟨front, ?_⟩
    rw [← List.append_assoc, hfront]

/-- The next element of the pattern makes the overlap longer by one. -/
theorem overlap_concat_of_eq {p s : List α} {b : α} (hlt : overlap p s < p.length) (h : p[overlap p s] = b) :
    overlap p (s ++ [b]) = overlap p s + 1 := by
  apply le_antisymm
  · have hsuffix := take_overlap_suffix p (s ++ [b])
    have hle := overlap_le p (s ++ [b])
    cases hm : overlap p (s ++ [b]) with
    | zero => exact Nat.zero_le _
    | succ m =>
      rw [hm] at hsuffix hle
      have hlt' : m < p.length := hle
      exact Nat.succ_le_succ (le_overlap hlt'.le ((take_succ_suffix_concat hlt').mp hsuffix).1)
  · exact le_overlap hlt ((take_succ_suffix_concat hlt).mpr ⟨take_overlap_suffix p s, h⟩)

end OrgLittle.Lib
