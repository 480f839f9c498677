import OrgLittle.Java.LetterCase
import OrgLittle.Lib.QuickSort

/-!
# `_stringQSort`

Strings are sorted without regard to case, by a quicksort on their array. The loops stand as in the code, for any case
mapping of the UTF-16 units; `sortStrings_eq` leads them back to the quicksort of the library. The file names of a
directory are sorted with the mappings of `Character` (`sort`).
-/

namespace OrgLittle.Util.StringQSort

open OrgLittle.Java OrgLittle.Lib

section Loops

variable (toUpperCase toLowerCase : UInt16 → UInt16)

/-- `compareToIgnoreCase`, on the UTF-16 units of two strings. -/
def compareToIgnoreCase : List UInt16 → List UInt16 → ℤ
  | [], t => -(t.length : ℤ)
  | s, [] => (s.length : ℤ)
  | c1 :: s, c2 :: t =>
    if c1 = c2 then compareToIgnoreCase s t
    else if toUpperCase c1 = toUpperCase c2 then compareToIgnoreCase s t
    else if toLowerCase (toUpperCase c1) = toLowerCase (toUpperCase c2) then compareToIgnoreCase s t
    else ((toLowerCase (toUpperCase c1)).toNat : ℤ) - ((toLowerCase (toUpperCase c2)).toNat : ℤ)

/-- What is compared of a unit. -/
def foldedUnit (c : UInt16) : ℕ := (toLowerCase (toUpperCase c)).toNat

/-- What is compared of a string. -/
def foldedUnits (s : List UInt16) : List ℕ := s.map (foldedUnit toUpperCase toLowerCase)

variable {n : ℕ}

/-- The loop `while (buffer[i].compareToIgnoreCase(pivot) < 0) i++`. -/
def scanI (buffer : Fin n → List UInt16) (pivot : List UInt16) (i : ℕ) : ℕ → Option (Fin n)
  | 0 => none
  | fuel + 1 =>
    if h : i < n then
      if compareToIgnoreCase toUpperCase toLowerCase (buffer ⟨i, h⟩) pivot < 0 then
        scanI buffer pivot (i + 1) fuel
      else some ⟨i, h⟩
    else none

/-- The loop `while (buffer[j].compareToIgnoreCase(pivot) > 0) j--`, from the index in front of `j`. -/
def scanJ (buffer : Fin n → List UInt16) (pivot : List UInt16) : ℕ → Option (Fin n)
  | 0 => none
  | j + 1 =>
    if h : j < n then
      if compareToIgnoreCase toUpperCase toLowerCase (buffer ⟨j, h⟩) pivot > 0 then scanJ buffer pivot j
      else some ⟨j, h⟩
    else none

/-- `exchangebuffer`. -/
def exchangebuffer (buffer : Fin n → List UInt16) (i j : Fin n) : Fin n → List UInt16 :=
  Function.update (Function.update buffer i (buffer j)) j (buffer i)

/-- The loop `while (i <= j)`. The index `j` of the code stands in front of the one here. -/
def exchangeLoop (pivot : List UInt16) :
    ℕ → (Fin n → List UInt16) → ℕ → ℕ → Option ((Fin n → List UInt16) × ℕ × ℕ)
  | 0, _, _, _ => none
  | fuel + 1, buffer, i, j =>
    if i < j then
      (scanI toUpperCase toLowerCase buffer pivot i n).bind fun i =>
        (scanJ toUpperCase toLowerCase buffer pivot j).bind fun j =>
          if i ≤ j then exchangeLoop pivot fuel (exchangebuffer buffer i j) (i + 1) j
          else some (buffer, i, j + 1)
    else some (buffer, i, j)

/-- `quickSort`. An index outside of the array stops the run, and so does a recursion deeper than `fuel`. -/
def quickSort : ℕ → (Fin n → List UInt16) → ℕ → ℕ → Option (Fin n → List UInt16)
  | 0, _, _, _ => none
  | fuel + 1, buffer, lowerIndex, higherIndex =>
    if h : lowerIndex + (higherIndex - lowerIndex) / 2 < n then
      (exchangeLoop toUpperCase toLowerCase (buffer ⟨lowerIndex + (higherIndex - lowerIndex) / 2, h⟩)
          (higherIndex + 2 - lowerIndex) buffer lowerIndex (higherIndex + 1)).bind fun (buffer, i, j) =>
        (if lowerIndex + 1 < j then quickSort fuel buffer lowerIndex (j - 1) else some buffer).bind
          fun buffer => if i < higherIndex then quickSort fuel buffer i higherIndex else some buffer
    else none

/-- `sort`. -/
def sortStrings (array : List (List UInt16)) : Option (List (List UInt16)) :=
  if array = [] then some array
  else (quickSort toUpperCase toLowerCase array.length array.get 0 (array.length - 1)).map List.ofFn

/-! ### The comparison -/

variable {toUpperCase toLowerCase}

theorem compareToIgnoreCase_cons (c d : UInt16) (s t : List UInt16) :
    compareToIgnoreCase toUpperCase toLowerCase (c :: s) (d :: t)
      = if foldedUnit toUpperCase toLowerCase c = foldedUnit toUpperCase toLowerCase d then
          compareToIgnoreCase toUpperCase toLowerCase s t
        else (foldedUnit toUpperCase toLowerCase c : ℤ) - foldedUnit toUpperCase toLowerCase d := by
  have hfold : toLowerCase (toUpperCase c) = toLowerCase (toUpperCase d)
      ↔ foldedUnit toUpperCase toLowerCase c = foldedUnit toUpperCase toLowerCase d :=
    UInt16.toNat_inj.symm
  rw [compareToIgnoreCase]
  by_cases hunit : c = d
  · rw [if_pos hunit, if_pos (by rw [hunit])]
  · rw [if_neg hunit]
    by_cases hupper : toUpperCase c = toUpperCase d
    · rw [if_pos hupper, if_pos (by rw [foldedUnit, foldedUnit, hupper])]
    · rw [if_neg hupper]
      exact if_congr hfold rfl rfl

/-- The comparison is the order of the folded units. -/
theorem compareToIgnoreCase_neg_iff (s t : List UInt16) :
    compareToIgnoreCase toUpperCase toLowerCase s t < 0
      ↔ foldedUnits toUpperCase toLowerCase s < foldedUnits toUpperCase toLowerCase t := by
  induction s generalizing t with
  | nil =>
    cases t with
    | nil => exact iff_of_false (lt_irrefl _) (lt_irrefl _)
    | cons d t =>
      refine iff_of_true ?_ (List.nil_lt_cons _ _)
      rw [compareToIgnoreCase, List.length_cons]
      omega
  | cons c s ih =>
    cases t with
    | nil =>
      refine iff_of_false ?_ (List.not_lt_nil _)
      rw [compareToIgnoreCase, List.length_cons]
      · omega
      · exact List.cons_ne_nil c s
    | cons d t =>
      rw [compareToIgnoreCase_cons, foldedUnits, foldedUnits, List.map_cons, List.map_cons, List.cons_lt_cons_iff]
      split
      · rename_i heq
        rw [ih t, foldedUnits, foldedUnits]
        exact ⟨fun h => .inr ⟨heq, h⟩, fun h => h.elim (fun hlt => absurd heq hlt.ne) And.right⟩
      · rename_i hne
        constructor
        · intro h
          exact .inl (by omega)
        · rintro (hlt | ⟨heq, -⟩)
          · omega
          · exact absurd heq hne

/-- Turned around it changes its sign. -/
theorem compareToIgnoreCase_swap (s t : List UInt16) :
    compareToIgnoreCase toUpperCase toLowerCase t s = -compareToIgnoreCase toUpperCase toLowerCase s t := by
  induction s generalizing t with
  | nil =>
    cases t with
    | nil => rfl
    | cons d t =>
      rw [compareToIgnoreCase, compareToIgnoreCase, neg_neg]
      exact List.cons_ne_nil d t
  | cons c s ih =>
    cases t with
    | nil =>
      rw [compareToIgnoreCase, compareToIgnoreCase]
      exact List.cons_ne_nil c s
    | cons d t =>
      rw [compareToIgnoreCase_cons, compareToIgnoreCase_cons]
      by_cases heq : foldedUnit toUpperCase toLowerCase c = foldedUnit toUpperCase toLowerCase d
      · rw [if_pos heq, if_pos heq.symm, ih]
      · rw [if_neg heq, if_neg (Ne.symm heq), neg_sub]

theorem compareToIgnoreCase_pos_iff (s t : List UInt16) :
    compareToIgnoreCase toUpperCase toLowerCase s t > 0
      ↔ foldedUnits toUpperCase toLowerCase t < foldedUnits toUpperCase toLowerCase s := by
  rw [← compareToIgnoreCase_neg_iff, compareToIgnoreCase_swap s t]
  omega

theorem compareToIgnoreCase_le_iff (s t : List UInt16) :
    compareToIgnoreCase toUpperCase toLowerCase s t ≤ 0
      ↔ foldedUnits toUpperCase toLowerCase s ≤ foldedUnits toUpperCase toLowerCase t := by
  exact not_lt.symm.trans ((not_congr (compareToIgnoreCase_pos_iff s t)).trans not_lt)

/-! ### The loops are those of the library -/

/-- An exchange is a transposition. -/
theorem exchangebuffer_eq (buffer : Fin n → List UInt16) (i j : Fin n) :
    exchangebuffer buffer i j = buffer ∘ Equiv.swap i j := by
  funext k
  rw [Function.comp_apply, Equiv.swap_apply_def, exchangebuffer]
  by_cases hj : k = j
  · subst hj
    by_cases hi : k = i
    · rw [Function.update_self, if_pos hi, hi]
    · rw [Function.update_self, if_neg hi, if_pos rfl]
  · rw [Function.update_of_ne hj, if_neg hj]
    by_cases hi : k = i
    · rw [hi, Function.update_self, if_pos rfl]
    · rw [Function.update_of_ne hi, if_neg hi]

/-- The first inner loop is `scanUp` of the library. -/
theorem scanI_eq (buffer : Fin n → List UInt16) (pivot : List UInt16) (i fuel : ℕ) :
    scanI toUpperCase toLowerCase buffer pivot i fuel
      = QuickSort.scanUp (foldedUnits toUpperCase toLowerCase) buffer
          (foldedUnits toUpperCase toLowerCase pivot) i fuel := by
  induction fuel generalizing i with
  | zero => rfl
  | succ fuel ih =>
    rw [scanI, QuickSort.scanUp]
    by_cases h : i < n
    · rw [dif_pos h, dif_pos h]
      have hiff := @compareToIgnoreCase_neg_iff toUpperCase toLowerCase (buffer ⟨i, h⟩) pivot
      by_cases hneg : compareToIgnoreCase toUpperCase toLowerCase (buffer ⟨i, h⟩) pivot < 0
      · rw [if_pos hneg, if_pos (hiff.mp hneg), ih]
      · rw [if_neg hneg, if_neg (mt hiff.mpr hneg)]
    · rw [dif_neg h, dif_neg h]

/-- The second is `scanDown`. -/
theorem scanJ_eq (buffer : Fin n → List UInt16) (pivot : List UInt16) (j : ℕ) :
    scanJ toUpperCase toLowerCase buffer pivot j
      = QuickSort.scanDown (foldedUnits toUpperCase toLowerCase) buffer
          (foldedUnits toUpperCase toLowerCase pivot) j := by
  induction j with
  | zero => rfl
  | succ j ih =>
    rw [scanJ, QuickSort.scanDown]
    by_cases h : j < n
    · rw [dif_pos h, dif_pos h]
      have hiff := @compareToIgnoreCase_pos_iff toUpperCase toLowerCase (buffer ⟨j, h⟩) pivot
      by_cases hpos : compareToIgnoreCase toUpperCase toLowerCase (buffer ⟨j, h⟩) pivot > 0
      · rw [if_pos hpos, if_pos (hiff.mp hpos), ih]
      · rw [if_neg hpos, if_neg (mt hiff.mpr hpos)]
    · rw [dif_neg h, dif_neg h]

/-- The outer loop is `partition`. -/
theorem exchangeLoop_eq (pivot : List UInt16) (fuel : ℕ) (buffer : Fin n → List UInt16) (i j : ℕ) :
    exchangeLoop toUpperCase toLowerCase pivot fuel buffer i j
      = QuickSort.partition (foldedUnits toUpperCase toLowerCase)
          (foldedUnits toUpperCase toLowerCase pivot) fuel buffer i j := by
  induction fuel generalizing buffer i j with
  | zero => rfl
  | succ fuel ih =>
    simp only [exchangeLoop, QuickSort.partition, scanI_eq, scanJ_eq, exchangebuffer_eq, ih]

/-- So the recursion is that of the library. -/
theorem quickSort_eq (fuel : ℕ) (buffer : Fin n → List UInt16) (lowerIndex higherIndex : ℕ) :
    quickSort toUpperCase toLowerCase fuel buffer lowerIndex higherIndex
      = QuickSort.quickSort (foldedUnits toUpperCase toLowerCase) fuel buffer lowerIndex higherIndex := by
  induction fuel generalizing buffer lowerIndex higherIndex with
  | zero => rfl
  | succ fuel ih =>
    simp only [quickSort, QuickSort.quickSort, exchangeLoop_eq, ih]

/-- `sortStrings` is the library's `sort` with folded units as keys. -/
theorem sortStrings_eq (array : List (List UInt16)) :
    sortStrings toUpperCase toLowerCase array = QuickSort.sort (foldedUnits toUpperCase toLowerCase) array := by
  rw [sortStrings, QuickSort.sort, quickSort_eq]

end Loops

/-- `sort` ends with all indices in the array, which then holds the same strings, none of them greater than the next,
whatever the upper and the lower case of the units are. -/
theorem sortStrings_correct (toUpperCase toLowerCase : UInt16 → UInt16) (array : List (List UInt16)) :
    ∃ sorted, sortStrings toUpperCase toLowerCase array = some sorted ∧ sorted.Perm array
      ∧ sorted.IsChain fun s t => compareToIgnoreCase toUpperCase toLowerCase s t ≤ 0 := by
  obtain ⟨sorted, hsort, hperm, hordered⟩ := QuickSort.sort_spec (foldedUnits toUpperCase toLowerCase) array
  refine ⟨sorted, (sortStrings_eq array).trans hsort, hperm, ?_⟩
  simp only [compareToIgnoreCase_le_iff]
  exact hordered.isChain

/-! ## The names of files -/

theorem sort_isSome (array : List JString) :
    (sortStrings Character.toUpperCase Character.toLowerCase (array.map utf16)).isSome = true := by
  obtain ⟨sorted, hsort, -⟩ := QuickSort.sort_spec
    (foldedUnits Character.toUpperCase Character.toLowerCase) (array.map utf16)
  rw [sortStrings_eq, hsort, Option.isSome_some]

/-- `sort` of file names. No index leaves the array. -/
def sort (array : List JString) : List JString :=
  ((sortStrings Character.toUpperCase Character.toLowerCase (array.map utf16)).get (sort_isSome array)).map ofUtf16

/-- The names are those of the array, and none is greater than a later one. -/
theorem sort_spec (array : List JString) :
    (sort array).Perm array ∧ (sort array).Pairwise fun s t => folded s ≤ folded t := by
  obtain ⟨sorted, hsort, hperm, hordered⟩ := QuickSort.sort_spec
    (foldedUnits Character.toUpperCase Character.toLowerCase) (array.map utf16)
  have hsorted : sort array = sorted.map ofUtf16 := by
    simp only [sort, (sortStrings_eq _).trans hsort, Option.get_some]
  have hback : (array.map utf16).map ofUtf16 = array := by
    rw [List.map_map, Function.LeftInverse.comp_eq_id ofUtf16_utf16, List.map_id]
  rw [hsorted, List.pairwise_map]
  refine ⟨hback ▸ hperm.map ofUtf16, hordered.imp_of_mem fun {s t} hs ht hle => ?_⟩
  obtain ⟨name, -, rfl⟩ := List.mem_map.mp (hperm.mem_iff.mp hs)
  obtain ⟨name', -, rfl⟩ := List.mem_map.mp (hperm.mem_iff.mp ht)
  rw [ofUtf16_utf16, ofUtf16_utf16]
  exact hle

theorem sort_perm (array : List JString) : (sort array).Perm array := (sort_spec array).1

end OrgLittle.Util.StringQSort
