import Mathlib

/-!
# Quicksort in place

Quicksort on the cells of an array, with the pivot in the middle and two indices that run towards each other. An
index that leaves the array stops the run (`none`); so does a recursion that is deeper than the array is long.
`sort_spec` says that neither happens, and that the cells are rearranged in order.
-/

namespace OrgLittle.Lib.QuickSort

variable {α κ : Type*} [LinearOrder κ] {n : ℕ}

/-! ## The algorithm -/

section algorithm

variable (key : α → κ)

/-- The first cell from `i` on that is not below the pivot. -/
def scanUp (b : Fin n → α) (pivot : κ) (i : ℕ) : ℕ → Option (Fin n)
  | 0 => none
  | fuel + 1 =>
    if h : i < n then
      if key (b ⟨i, h⟩) < pivot then scanUp b pivot (i + 1) fuel else some ⟨i, h⟩
    else none

/-- The last cell in front of `j` that is not above the pivot. -/
def scanDown (b : Fin n → α) (pivot : κ) : ℕ → Option (Fin n)
  | 0 => none
  | j + 1 =>
    if h : j < n then
      if pivot < key (b ⟨j, h⟩) then scanDown b pivot j else some ⟨j, h⟩
    else none

/-- The loop that exchanges cells; the upper index stands in front of `j`. -/
def partition (pivot : κ) : ℕ → (Fin n → α) → ℕ → ℕ → Option ((Fin n → α) × ℕ × ℕ)
  | 0, _, _, _ => none
  | fuel + 1, b, i, j =>
    if i < j then
      (scanUp key b pivot i n).bind fun i =>
        (scanDown key b pivot j).bind fun j =>
          if i ≤ j then partition pivot fuel (b ∘ Equiv.swap i j) (i + 1) j
          else some (b, i, j + 1)
    else some (b, i, j)

/-- The cells from `lo` to `hi`. -/
def quickSort : ℕ → (Fin n → α) → ℕ → ℕ → Option (Fin n → α)
  | 0, _, _, _ => none
  | fuel + 1, b, lo, hi =>
    if h : lo + (hi - lo) / 2 < n then
      (partition key (key (b ⟨lo + (hi - lo) / 2, h⟩)) (hi + 2 - lo) b lo (hi + 1)).bind fun (b, i, j) =>
        (if lo + 1 < j then quickSort fuel b lo (j - 1) else some b).bind fun b =>
          if i < hi then quickSort fuel b i hi else some b
    else none

/-- All cells. -/
def sort (l : List α) : Option (List α) :=
  if l = [] then some l else (quickSort key l.length l.get 0 (l.length - 1)).map List.ofFn

end algorithm

/-! ## Rearranged cells -/

/-- The cells from `lo` on and in front of `stop` change places, the others stay. -/
def Rearranged (lo stop : ℕ) (b b' : Fin n → α) : Prop :=
  ∃ σ : Equiv.Perm (Fin n), (∀ k : Fin n, k < lo ∨ stop ≤ k → σ k = k) ∧ b' = b ∘ σ

namespace Rearranged

variable {lo stop : ℕ} {b b' b'' : Fin n → α}

theorem refl (lo stop : ℕ) (b : Fin n → α) : Rearranged lo stop b b := ⟨1, fun _ _ => rfl, rfl⟩

/-- Rearrangements compose. -/
theorem trans (h : Rearranged lo stop b b') (h' : Rearranged lo stop b' b'') : Rearranged lo stop b b'' := by
  obtain ⟨σ, hσ, rfl⟩ := h
  obtain ⟨τ, hτ, rfl⟩ := h'
  refine ⟨σ * τ, fun k hk => ?_, rfl⟩
  rw [Equiv.Perm.mul_apply, hτ k hk, hσ k hk]

/-- A part may be seen as a part of a larger one. -/
theorem mono {lo' stop' : ℕ} (h : Rearranged lo stop b b') (hlo : lo' ≤ lo) (hstop : stop ≤ stop') :
    Rearranged lo' stop' b b' := by
  obtain ⟨σ, hσ, rfl⟩ := h
  exact ⟨σ, fun k hk => hσ k (by omega), rfl⟩

/-- An exchange inside the part is a rearrangement of it. -/
theorem swap {i j : Fin n} (hi : lo ≤ i) (hij : i ≤ j) (hj : j < stop) :
    Rearranged lo stop b (b ∘ Equiv.swap i j) := by
  refine ⟨Equiv.swap i j, fun k hk => Equiv.swap_apply_of_ne_of_ne ?_ ?_, rfl⟩
  · rintro rfl
    omega
  · rintro rfl
    omega

/-- Nothing changes outside of the part. -/
theorem outside (h : Rearranged lo stop b b') {k : Fin n} (hk : k < lo ∨ stop ≤ k) : b' k = b k := by
  obtain ⟨σ, hσ, rfl⟩ := h
  rw [Function.comp_apply, hσ k hk]

/-- What holds of all cells of the part still holds of them. -/
theorem forall_inside (h : Rearranged lo stop b b') {P : α → Prop}
    (hP : ∀ k : Fin n, lo ≤ k → k < stop → P (b k)) : ∀ k : Fin n, lo ≤ k → k < stop → P (b' k) := by
  obtain ⟨σ, hσ, rfl⟩ := h
  intro k hlo hstop
  by_cases hin : lo ≤ (σ k : ℕ) ∧ (σ k : ℕ) < stop
  · exact hP (σ k) hin.1 hin.2
  · have hfix : σ (σ k) = σ k := hσ (σ k) (by omega)
    rw [Function.comp_apply, σ.injective hfix]
    exact hP k hlo hstop

/-- The whole is permuted. -/
theorem perm (h : Rearranged lo stop b b') : (List.ofFn b').Perm (List.ofFn b) := by
  obtain ⟨σ, -, rfl⟩ := h
  exact σ.ofFn_comp_perm b

end Rearranged

/-! ## The scans -/

section scans

variable {key : α → κ} {b : Fin n → α} {pivot : κ}

/-- The first scan stops at or before any place whose key is not smaller than the pivot. -/
theorem scanUp_spec {i fuel : ℕ} {k : Fin n} (hik : i ≤ k) (hk : pivot ≤ key (b k)) (hfuel : k < i + fuel) :
    ∃ i' : Fin n, scanUp key b pivot i fuel = some i' ∧ i ≤ i' ∧ i' ≤ k ∧ pivot ≤ key (b i')
      ∧ ∀ m : Fin n, i ≤ m → m < i' → key (b m) < pivot := by
  induction fuel generalizing i with
  | zero => omega
  | succ fuel ih =>
    have hi : i < n := by omega
    rw [scanUp, dif_pos hi]
    split_ifs with hlt
    · have hne : i ≠ k := by
        rintro rfl
        exact absurd hlt (not_lt.mpr hk)
      obtain ⟨i', hscan, hii', hi'k, hpivot, hbelow⟩ := ih (i := i + 1) (by omega) (by omega)
      refine ⟨i', hscan, by omega, hi'k, hpivot, fun m him hmi' => ?_⟩
      rcases Nat.eq_or_lt_of_le him with heq | him
      · obtain rfl : (⟨i, hi⟩ : Fin n) = m := Fin.ext heq
        exact hlt
      · exact hbelow m him hmi'
    · exact ⟨⟨i, hi⟩, rfl, le_refl i, hik, not_lt.mp hlt, fun m him hmi => absurd him (not_le.mpr hmi)⟩

/-- The second scan stops at or behind any place whose key is not larger. -/
theorem scanDown_spec {j : ℕ} (hj : j ≤ n) {k : Fin n} (hkj : k < j) (hk : key (b k) ≤ pivot) :
    ∃ j' : Fin n, scanDown key b pivot j = some j' ∧ j' < j ∧ k ≤ j' ∧ key (b j') ≤ pivot
      ∧ ∀ m : Fin n, j' < m → m < j → pivot < key (b m) := by
  induction j with
  | zero => omega
  | succ j ih =>
    have hjn : j < n := hj
    rw [scanDown, dif_pos hjn]
    split_ifs with hlt
    · have hne : (k : ℕ) ≠ j := by
        rintro rfl
        exact absurd hlt (not_lt.mpr hk)
      obtain ⟨j', hscan, hj'j, hkj', hpivot, habove⟩ := ih (by omega) (by omega)
      refine ⟨j', hscan, by omega, hkj', hpivot, fun m hj'm hmj => ?_⟩
      rcases Nat.eq_or_lt_of_le (Nat.le_of_lt_succ hmj) with heq | hmj
      · obtain rfl : (⟨j, hjn⟩ : Fin n) = m := Fin.ext heq.symm
        exact hlt
      · exact habove m hj'm hmj
    · exact ⟨⟨j, hjn⟩, rfl, Nat.lt_succ_self j, Nat.le_of_lt_succ hkj, not_lt.mp hlt,
        fun m hjm hmj => absurd hjm (not_lt.mpr (Nat.le_of_lt_succ hmj))⟩

end scans

/-! ## The partition -/

section partition

variable {key : α → κ} {pivot : κ} {lo stop : ℕ} {b : Fin n → α} {i j : ℕ}

/-- The state at the head of the loop. Both scans find a cell to stop at; before the first exchange that is the cell of
the pivot. -/
structure Loop (key : α → κ) (pivot : κ) (lo stop : ℕ) (b : Fin n → α) (i j : ℕ) : Prop where
  lo_le : lo ≤ i
  le_stop : j ≤ stop
  low : ∀ k : Fin n, lo ≤ k → k < i → key (b k) ≤ pivot
  high : ∀ k : Fin n, j ≤ k → k < stop → pivot ≤ key (b k)
  up : i < j → ∃ k : Fin n, i ≤ k ∧ k < stop ∧ pivot ≤ key (b k)
  down : i < j → ∃ k : Fin n, lo ≤ k ∧ k < j ∧ key (b k) ≤ pivot
  moved : (lo < i ∧ j < stop) ∨ ∃ k : Fin n, i ≤ k ∧ k < j ∧ key (b k) = pivot

/-- What the loop ends with. -/
structure Split (key : α → κ) (pivot : κ) (lo stop : ℕ) (b : Fin n → α) (i j : ℕ) : Prop where
  lo_lt : lo < i
  lt_stop : j < stop
  crossed : j ≤ i
  low : ∀ k : Fin n, lo ≤ k → k < i → key (b k) ≤ pivot
  high : ∀ k : Fin n, j ≤ k → k < stop → pivot ≤ key (b k)

/-- Once the indices have crossed, the part is split. -/
theorem Loop.split_of_crossed (h : Loop key pivot lo stop b i j) (hij : j ≤ i) :
    Split key pivot lo stop b i j := by
  rcases h.moved with ⟨hlo, hstop⟩ | ⟨k, hik, hkj, -⟩
  · exact ⟨hlo, hstop, hij, h.low, h.high⟩
  · omega

section round

variable {i' j' : Fin n} (h : Loop key pivot lo stop b i j) (hii' : i ≤ i') (hj'j : j' < j)
  (hbelow : ∀ m : Fin n, i ≤ m → m < i' → key (b m) < pivot)
  (habove : ∀ m : Fin n, j' < m → m < j → pivot < key (b m))

include h hii' hj'j hbelow habove

/-- The scans have passed each other. -/
theorem Loop.split_of_scans (hcrossed : ¬ i' ≤ j') : Split key pivot lo stop b i' (j' + 1) := by
  have hmoved : lo < i ∧ j < stop := by
    refine h.moved.resolve_right ?_
    rintro ⟨k, hik, hkj, hk⟩
    have hi'k : i' ≤ k := not_lt.mp fun hlt => absurd (hbelow k hik hlt) (by rw [hk]; exact lt_irrefl pivot)
    have hkj' : k ≤ j' := not_lt.mp fun hlt => absurd (habove k hlt hkj) (by rw [hk]; exact lt_irrefl pivot)
    exact hcrossed (hi'k.trans hkj')
  refine ⟨by omega, by omega, by omega, fun k hlo hk => ?_, fun k hk hstop => ?_⟩
  · by_cases hki : k < i
    · exact h.low k hlo hki
    · exact (hbelow k (by omega) hk).le
  · by_cases hkj : j ≤ k
    · exact h.high k hkj hstop
    · exact (habove k (by omega) (by omega)).le

/-- One exchange. -/
theorem Loop.exchange (hi' : pivot ≤ key (b i')) (hj' : key (b j') ≤ pivot) (hij : i' ≤ j') :
    Loop key pivot lo stop (b ∘ Equiv.swap i' j') (i' + 1) j' := by
  have hij' : (i' : ℕ) ≤ j' := hij
  have hlo := h.lo_le
  have hstop := h.le_stop
  have hat : (b ∘ Equiv.swap i' j') i' = b j' := congrArg b (Equiv.swap_apply_left i' j')
  have hat' : (b ∘ Equiv.swap i' j') j' = b i' := congrArg b (Equiv.swap_apply_right i' j')
  have hne (k : Fin n) (hki : k ≠ i') (hkj : k ≠ j') : (b ∘ Equiv.swap i' j') k = b k :=
    congrArg b (Equiv.swap_apply_of_ne_of_ne hki hkj)
  refine ⟨by omega, by omega, fun k hlok hki => ?_, fun k hjk hkstop => ?_, fun hlt => ?_, fun hlt => ?_,
    .inl ⟨by omega, by omega⟩⟩
  · by_cases hk : k = i'
    · rw [hk, hat]
      exact hj'
    · have hki' : (k : ℕ) < i' := lt_of_le_of_ne (Nat.le_of_lt_succ hki) fun h => hk (Fin.ext h)
      rw [hne k hk (by rintro rfl; omega)]
      by_cases hik : k < i
      · exact h.low k hlok hik
      · exact (hbelow k (by omega) hki').le
  · by_cases hk : k = j'
    · rw [hk, hat']
      exact hi'
    · have hjk' : (j' : ℕ) < k := lt_of_le_of_ne hjk fun h => hk (Fin.ext h.symm)
      rw [hne k (by rintro rfl; omega) hk]
      by_cases hkj : j ≤ k
      · exact h.high k hkj hkstop
      · exact (habove k hjk' (by omega)).le
  · exact ⟨j', by omega, by omega, by rw [hat']; exact hi'⟩
  · exact ⟨i', by omega, by omega, by rw [hat]; exact hj'⟩

end round

/-- By induction on the distance of the indices, which shrinks with every exchange. -/
theorem partition_spec (hstop : stop ≤ n) {fuel : ℕ} (h : Loop key pivot lo stop b i j) (hfuel : j - i < fuel) :
    ∃ b' i' j', partition key pivot fuel b i j = some (b', i', j') ∧ Rearranged lo stop b b'
      ∧ Split key pivot lo stop b' i' j' := by
  induction fuel generalizing b i j with
  | zero => omega
  | succ fuel ih =>
    rw [partition]
    split_ifs with hij
    · obtain ⟨k, hik, hkstop, hk⟩ := h.up hij
      obtain ⟨i', hup, hii', hi'k, hi', hbelow⟩ := scanUp_spec hik hk (by omega : (k : ℕ) < i + n)
      obtain ⟨m, hlom, hmj, hm⟩ := h.down hij
      obtain ⟨j', hdown, hj'j, hmj', hj', habove⟩ := scanDown_spec (h.le_stop.trans hstop) hmj hm
      rw [hup, Option.bind_some, hdown, Option.bind_some]
      split_ifs with hcross
      · have hle : (i' : ℕ) ≤ j' := hcross
        have hlo := h.lo_le
        have hjstop := h.le_stop
        obtain ⟨b', i'', j'', hrun, hrearranged, hsplit⟩ :=
          ih (h.exchange hii' hj'j hbelow habove hi' hj' hcross) (by omega)
        exact ⟨b', i'', j'', hrun, (Rearranged.swap (by omega) hcross (by omega)).trans hrearranged, hsplit⟩
      · exact ⟨b, i', j' + 1, rfl, .refl lo stop b, h.split_of_scans hii' hj'j hbelow habove hcross⟩
    · exact ⟨b, i, j, rfl, .refl lo stop b, h.split_of_crossed (not_lt.mp hij)⟩

end partition

/-! ## The order -/

section order

variable {key : α → κ} {b b' : Fin n → α} {lo stop : ℕ}

/-- The cells from `lo` on and in front of `stop` are in order. -/
def Ordered (key : α → κ) (lo stop : ℕ) (b : Fin n → α) : Prop :=
  ∀ k m : Fin n, lo ≤ k → k ≤ m → m < stop → key (b k) ≤ key (b m)

theorem ordered_of_le (h : stop ≤ lo + 1) : Ordered key lo stop b := by
  intro k m hlo hkm hstop
  have hkm' : (k : ℕ) ≤ m := hkm
  rw [show k = m from Fin.ext (by omega)]

/-- Two parts in order, with everything between them equal to the pivot. -/
theorem ordered_of_split {pivot : κ} {i j : ℕ} (hsplit : Split key pivot lo stop b i j)
    (hleft : Ordered key lo j b) (hright : Ordered key i stop b) : Ordered key lo stop b := by
  intro k m hlo hkm hstop
  have hkm' : (k : ℕ) ≤ m := hkm
  by_cases hmj : m < j
  · exact hleft k m hlo hkm hmj
  · by_cases hik : i ≤ k
    · exact hright k m hik hkm hstop
    · -- the pivot stands between the two cells
      exact (hsplit.low k hlo (by omega)).trans (hsplit.high m (by omega) hstop)

/-- A part that is rearranged in itself keeps the pivot where it stands. -/
theorem Split.rearrange {pivot : κ} {i j lo' stop' : ℕ} (hsplit : Split key pivot lo stop b i j)
    (h : Rearranged lo' stop' b b') (hpart : lo ≤ lo' ∧ stop' ≤ j ∨ i ≤ lo' ∧ stop' ≤ stop) :
    Split key pivot lo stop b' i j := by
  have hcrossed := hsplit.crossed
  refine ⟨hsplit.lo_lt, hsplit.lt_stop, hcrossed, ?_, ?_⟩
  · rcases hpart with ⟨hlo, hstop⟩ | ⟨hlo, hstop⟩
    · exact (h.mono hlo (hstop.trans hcrossed)).forall_inside (P := fun x => key x ≤ pivot) hsplit.low
    · intro k hk hki
      rw [h.outside (by omega)]
      exact hsplit.low k hk hki
  · rcases hpart with ⟨hlo, hstop⟩ | ⟨hlo, hstop⟩
    · intro k hjk hk
      rw [h.outside (by omega)]
      exact hsplit.high k hjk hk
    · exact (h.mono (hcrossed.trans hlo) hstop).forall_inside (P := fun x => pivot ≤ key x) hsplit.high

theorem loop_start {hi : ℕ} {k : Fin n} (hlo : lo ≤ k) (hhi : k ≤ hi) :
    Loop key (key (b k)) lo (hi + 1) b lo (hi + 1) :=
  ⟨le_refl lo, le_refl _, fun _ h h' => absurd h (not_le.mpr h'), fun _ h h' => absurd h (not_le.mpr h'),
    fun _ => ⟨k, hlo, Nat.lt_succ_of_le hhi, le_refl _⟩, fun _ => ⟨k, hlo, Nat.lt_succ_of_le hhi, le_refl _⟩,
    .inr ⟨k, hlo, Nat.lt_succ_of_le hhi, rfl⟩⟩

variable (key) in
/-- By induction on the length of the part: both halves are sorted, and all of the left one is below the right one. -/
theorem quickSort_spec {fuel hi : ℕ} (hlo : lo ≤ hi) (hhi : hi < n) (hfuel : hi - lo < fuel) :
    ∃ b', quickSort key fuel b lo hi = some b' ∧ Rearranged lo (hi + 1) b b' ∧ Ordered key lo (hi + 1) b' := by
  induction fuel generalizing b lo hi with
  | zero => omega
  | succ fuel ih =>
    have hmid : lo + (hi - lo) / 2 < n := by omega
    have hloop : Loop key (key (b ⟨lo + (hi - lo) / 2, hmid⟩)) lo (hi + 1) b lo (hi + 1) :=
      loop_start (Nat.le_add_right _ _) (by dsimp only; omega)
    have hturns : hi + 1 - lo < hi + 2 - lo := by omega
    obtain ⟨b₁, i, j, hpartition, hrearranged₁, hsplit₁⟩ := partition_spec hhi hloop hturns
    have hstop := hsplit₁.lt_stop
    have hlo' := hsplit₁.lo_lt
    have hcrossed := hsplit₁.crossed
    -- the part in front of the pivot
    obtain ⟨b₂, hleft, hrearranged₂, hordered₂⟩ : ∃ b₂,
        (if lo + 1 < j then quickSort key fuel b₁ lo (j - 1) else some b₁) = some b₂
          ∧ Rearranged lo j b₁ b₂ ∧ Ordered key lo j b₂ := by
      split_ifs with hj
      · have hlow : lo ≤ j - 1 := by omega
        obtain ⟨b₂, hrun, hrearranged, hordered⟩ := ih (b := b₁) hlow (by omega) (by omega)
        rw [show j - 1 + 1 = j by omega] at hrearranged hordered
        exact ⟨b₂, hrun, hrearranged, hordered⟩
      · exact ⟨b₁, rfl, .refl lo j b₁, ordered_of_le (by omega)⟩
    -- the part behind it
    obtain ⟨b₃, hright, hrearranged₃, hordered₃⟩ : ∃ b₃,
        (if i < hi then quickSort key fuel b₂ i hi else some b₂) = some b₃
          ∧ Rearranged i (hi + 1) b₂ b₃ ∧ Ordered key i (hi + 1) b₃ := by
      split_ifs with hi'
      · exact ih hi'.le hhi (by omega)
      · exact ⟨b₂, rfl, .refl i (hi + 1) b₂, ordered_of_le (by omega)⟩
    refine ⟨b₃, ?_, ?_, ?_⟩
    · rw [quickSort, dif_pos hmid, hpartition, Option.bind_some]
      dsimp only
      rw [hleft, Option.bind_some, hright]
    · exact (hrearranged₁.trans (hrearranged₂.mono (le_refl lo) hstop.le)).trans
        (hrearranged₃.mono hlo'.le (le_refl _))
    · have hsplit₃ := (hsplit₁.rearrange hrearranged₂ (.inl ⟨le_refl lo, le_refl j⟩)).rearrange hrearranged₃
        (.inr ⟨le_refl i, le_refl _⟩)
      refine ordered_of_split hsplit₃ (fun k m hk hkm hm => ?_) hordered₃
      have hkm' : (k : ℕ) ≤ m := hkm
      rw [hrearranged₃.outside (by omega), hrearranged₃.outside (by omega)]
      exact hordered₂ k m hk hkm hm

/-- Sorting ends, and gives the same cells in order. -/
theorem sort_spec (key : α → κ) (l : List α) :
    ∃ l', sort key l = some l' ∧ l'.Perm l ∧ l'.Pairwise fun x y => key x ≤ key y := by
  rw [sort]
  split_ifs with hl
  · exact ⟨l, rfl, .refl l, hl ▸ .nil⟩
  · have hlength : 0 < l.length := List.length_pos_of_ne_nil hl
    have hlast : l.length - 1 < l.length := by omega
    obtain ⟨b, hrun, hrearranged, hordered⟩ :=
      quickSort_spec key (b := l.get) (Nat.zero_le _) hlast (by omega : _ < l.length)
    refine ⟨List.ofFn b, by rw [hrun]; rfl, ?_, ?_⟩
    · have hperm := hrearranged.perm
      rwa [List.ofFn_get] at hperm
    · rw [List.pairwise_ofFn]
      intro k m hkm
      exact hordered k m (Nat.zero_le _) hkm.le (by omega)

end order

end OrgLittle.Lib.QuickSort
