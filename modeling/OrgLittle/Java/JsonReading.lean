import OrgLittle.Java.JsonText

/-!
# What is read from a JSON text

Every round of the reader takes a unit that is not `0` from the text, so no text is left unfinished. What is read can be
in a `JSONObject`: the keys of each object differ, and a `Long` is a number that is not an `int`.
-/

namespace OrgLittle.Java.JsonText

variable {D : Type*}

/-- A value as it is read into a `JSONObject`: with the doubles for which `ok` holds, and a `Long` only where the number
is too large for an `Integer`. -/
inductive Value.WellFormed (ok : D → Prop) : Value D → Prop
  | null : WellFormed ok .null
  | bool (b : Bool) : WellFormed ok (.bool b)
  | integer {n : ℤ} (hlo : -2 ^ 31 ≤ n) (hhi : n < 2 ^ 31) : WellFormed ok (.integer n)
  | long {n : ℤ} (hlo : -2 ^ 63 ≤ n) (hhi : n < 2 ^ 63) (hlarge : ¬ (-2 ^ 31 ≤ n ∧ n < 2 ^ 31)) :
      WellFormed ok (.long n)
  | double {d : D} (h : ok d) : WellFormed ok (.double d)
  | string (s : JText) : WellFormed ok (.string s)
  | array {items : List (Value D)} (h : ∀ value ∈ items, WellFormed ok value) : WellFormed ok (.array items)
  | object {members : List (JText × Value D)} (hkeys : (members.map Prod.fst).Nodup)
      (h : ∀ member ∈ members, WellFormed ok member.2) : WellFormed ok (.object members)

variable {runtime : Runtime D}

/-- A double that some text stands for. -/
def Runtime.Read (runtime : Runtime D) (d : D) : Prop := ∃ s, runtime.valueOf s = some d

/-- A number that is read is an `Integer` or a `Long` by its size. -/
theorem wellFormed_boxed {ok : D → Prop} {n : ℤ} (hlo : -2 ^ 63 ≤ n) (hhi : n < 2 ^ 63) :
    (boxed n : Value D).WellFormed ok := by
  unfold boxed
  split_ifs with hsmall
  · exact .integer hsmall.1 hsmall.2
  · exact .long hlo hhi hsmall

/-- What a word stands for is well-formed. -/
theorem stringToValue_wellFormed (s : JText) : (stringToValue runtime s).WellFormed runtime.Read := by
  unfold stringToValue
  split
  · exact .bool true
  split
  · exact .bool false
  split
  · exact .null
  split
  · exact .string _
  split
  · split
    · cases hd : runtime.valueOf _ with
      | none => exact .string _
      | some d => exact .double ⟨_, hd⟩
    · cases hn : canonicalLong _ with
      | none => exact .string _
      | some n =>
        have hrange := (Option.filter_eq_some_iff.mp hn).2
        simp only [decide_eq_true_eq] at hrange
        exact wellFormed_boxed hrange.2.1 hrange.2.2
  · exact .string _

/-! ## What the tokener takes -/

/-- The units that are not taken for the end of the text. -/
def weight (x : JText) : ℕ := x.countP (· ≠ 0)

@[simp] theorem weight_nil : weight [] = 0 := rfl

theorem weight_cons (c : UInt16) (x : JText) : weight (c :: x) = weight x + if c = 0 then 0 else 1 := by
  simp [weight, List.countP_cons]

theorem weight_le_cons (c : UInt16) (x : JText) : weight x ≤ weight (c :: x) := by
  rw [weight_cons]
  exact Nat.le_add_right _ _

theorem weight_cons_of_ne {c : UInt16} (h : c ≠ 0) (x : JText) : weight (c :: x) = weight x + 1 := by
  rw [weight_cons, if_neg h]

theorem weight_le_length (x : JText) : weight x ≤ x.length := List.countP_le_length

theorem weight_back_nextClean (x : JText) : weight (back (nextClean x).1 (nextClean x).2) ≤ weight x := by
  induction x with
  | nil => exact Nat.le_refl 0
  | cons c rest ih =>
    rw [nextClean]
    split_ifs
    · exact Nat.le_refl _
    · exact ih.trans (weight_le_cons c rest)

/-- What is left behind a unit that is not the end is lighter. -/
theorem weight_nextClean {x rest : JText} {c : UInt16} (h : nextClean x = (c, rest)) (hc : c ≠ 0) :
    weight rest + 1 ≤ weight x := by
  have hback := weight_back_nextClean x
  rw [h] at hback
  rw [← weight_cons_of_ne hc]
  exact hback

/-- What is left of a text weighs no more than the text. -/
theorem weight_le_of_suffix {x y : JText} (h : x <:+ y) : weight x ≤ weight y := h.sublist.countP_le

/-- A quoted text is read off the front. -/
theorem nextString_suffix (quote : UInt16) (x : JText) :
    ∀ s rest, nextString quote x = .ok (s, rest) → rest <:+ x := by
  fun_induction nextString quote x with
  | case6 c₁ c₂ c₃ c₄ rest hend u hhex hquote ih =>
    intro s rest' h
    obtain ⟨⟨s', rest''⟩, hread, heq⟩ := exists_of_map h
    cases heq
    exact (ih _ _ hread).trans ⟨[unit '\\', unit 'u', c₁, c₂, c₃, c₄], rfl⟩
  | case9 e rest he u hu hquote ih =>
    intro s rest' h
    obtain ⟨⟨s', rest''⟩, hread, heq⟩ := exists_of_map h
    cases heq
    exact (ih _ _ hread).trans ⟨[unit '\\', e], rfl⟩
  | case10 rest =>
    intro s rest' h
    cases h
    exact ⟨[quote], rfl⟩
  | case11 c rest hend hslash hquote ih =>
    intro s rest' h
    obtain ⟨⟨s', rest''⟩, hread, heq⟩ := exists_of_map h
    cases heq
    exact (ih _ _ hread).trans ⟨[c], rfl⟩
  | _ => nofun

/-- A plain unit is not the end of the text. -/
theorem ne_zero_of_isPlain {c : UInt16} (h : isPlain c = true) : c ≠ 0 := by
  rintro rfl
  exact absurd h (by decide)

/-- A word is taken off the front. -/
theorem weight_nextWord (x : JText) : weight (nextWord x).2 + (nextWord x).1.length = weight x := by
  induction x with
  | nil => rfl
  | cons c rest ih =>
    rw [nextWord]
    split
    · next hplain =>
      rw [weight_cons_of_ne (ne_zero_of_isPlain hplain), ← ih]
      rfl
    · rfl

/-! ## Rounds -/

/-- What is read is well-formed, the text behind it is lighter than `w`, and nothing is left unfinished. -/
def Progress (runtime : Runtime D) (w : ℕ) : Except JSONException (Value D × JText) → Prop
  | .ok (value, rest) => value.WellFormed runtime.Read ∧ weight rest < w
  | .error e => e ≠ .unfinished

theorem Progress.mono {w w' : ℕ} (h : w ≤ w') {r : Except JSONException (Value D × JText)}
    (hr : Progress runtime w r) : Progress runtime w' r := by
  cases r with
  | error e => exact hr
  | ok read => exact ⟨hr.1, hr.2.trans_le h⟩

/-- Quoted texts need no rounds. -/
theorem nextString_finished (quote : UInt16) (x : JText) : nextString quote x ≠ .error .unfinished := by
  fun_induction nextString quote x with
  | case6 c₁ c₂ c₃ c₄ rest hend u hhex hquote ih => cases h : nextString quote rest <;> simp_all [Except.map]
  | case9 e rest he u hu hquote ih => cases h : nextString quote rest <;> simp_all [Except.map]
  | case11 c rest hend hslash hquote ih => cases h : nextString quote rest <;> simp_all [Except.map]
  | _ => nofun

/-- The texts that a reader gets through in this many rounds, if it needs `extra` of them besides those for units. -/
def Gets (runtime : Runtime D) (extra fuel : ℕ) (reader : JText → Except JSONException (Value D × JText)) : Prop :=
  ∀ x, 3 * weight x + extra ≤ fuel → Progress runtime (weight x) (reader x)

section rounds

variable {fuel : ℕ}

/-- A value is read if the two constructors read what they get. -/
theorem nextValue_gets (hobject : Gets runtime 1 fuel (newJSONObject runtime fuel))
    (harray : Gets runtime 1 fuel (newJSONArray runtime fuel)) :
    Gets runtime 2 (fuel + 1) (nextValue runtime (fuel + 1)) := by
  intro x hfuel
  have hback := weight_back_nextClean x
  rw [nextValue]
  rcases hclean : nextClean x with ⟨c, rest⟩
  rw [hclean] at hback
  dsimp only
  split_ifs with hquote hopen hopenArray hmissing
  · -- a text in quotes
    have hc : c ≠ 0 := by rcases hquote with rfl | rfl <;> decide
    have hrest := weight_nextClean hclean hc
    cases hread : nextString c rest with
    | error e => exact fun he => nextString_finished c rest (he ▸ hread)
    | ok read =>
      have hle := weight_le_of_suffix (nextString_suffix c rest read.1 read.2 hread)
      exact ⟨.string _, by omega⟩
  · exact (hobject _ (by omega)).mono hback
  · exact (harray _ (by omega)).mono hback
  · exact nofun
  · have hword := weight_nextWord (back c rest)
    have hpos : 0 < (nextWord (back c rest)).1.length := by
      refine List.length_pos_iff.mpr fun hnil => hmissing ?_
      rw [hnil]
      rfl
    exact ⟨stringToValue_wellFormed _, by dsimp only at hback ⊢; omega⟩

/-- An object is read if its loop is. -/
theorem newJSONObject_gets (hloop : Gets runtime 3 fuel (readMembers runtime fuel [])) :
    Gets runtime 1 (fuel + 1) (newJSONObject runtime (fuel + 1)) := by
  intro x hfuel
  rw [newJSONObject]
  rcases hclean : nextClean x with ⟨c, rest⟩
  dsimp only
  split_ifs with hopen
  · have hrest := weight_nextClean hclean (hopen ▸ by decide)
    exact (hloop _ (by omega)).mono (by omega)
  · exact nofun

/-- An array is read if its loop is. -/
theorem newJSONArray_gets (hloop : Gets runtime 3 fuel (readItems runtime fuel [])) :
    Gets runtime 1 (fuel + 1) (newJSONArray runtime (fuel + 1)) := by
  intro x hfuel
  rw [newJSONArray]
  rcases hclean : nextClean x with ⟨c, rest⟩
  dsimp only
  split
  · next hopen =>
    have hrest := weight_nextClean hclean (hopen ▸ by decide)
    have hback := weight_back_nextClean rest
    rcases hclean' : nextClean rest with ⟨c', rest'⟩
    rw [hclean'] at hback
    dsimp only at hback ⊢
    split_ifs with hclose
    · have hrest' := weight_nextClean hclean' (hclose ▸ by decide)
      exact ⟨.array nofun, by omega⟩
    · exact (hloop _ (by omega)).mono (by omega)
  · exact nofun

/-- The members that an object can hold. -/
def Holdable (runtime : Runtime D) (members : List (JText × Value D)) : Prop :=
  (members.map Prod.fst).Nodup ∧ ∀ member ∈ members, member.2.WellFormed runtime.Read

/-- Another member with another key keeps an object in order. -/
theorem Holdable.putOnce {members members' : List (JText × Value D)} {key : JText} {value : Value D}
    (h : Holdable runtime members) (hvalue : value.WellFormed runtime.Read)
    (hput : JsonText.putOnce members key value = .ok members') : Holdable runtime members' := by
  unfold JsonText.putOnce at hput
  split_ifs at hput with hkey
  rw [← Except.ok.inj hput]
  constructor
  · rw [List.map_append]
    refine List.nodup_append.mpr ⟨h.1, List.nodup_singleton _, ?_⟩
    rintro k hk k' hk' rfl
    rw [List.map_singleton, List.mem_singleton] at hk'
    subst hk'
    exact hkey hk
  · intro member hmember
    rcases List.mem_append.mp hmember with hmember | hmember
    · exact h.2 member hmember
    · exact List.mem_singleton.mp hmember ▸ hvalue

/-- `putOnce` needs no rounds. -/
theorem putOnce_finished (members : List (JText × Value D)) (key : JText) (value : Value D) :
    putOnce members key value ≠ .error .unfinished := by
  unfold putOnce
  split_ifs <;> nofun

/-- Behind a value, the rest of a reader has less text to get through. -/
theorem Progress.bind {w : ℕ} {r : Except JSONException (Value D × JText)} (h : Progress runtime w r)
    {w' : ℕ} {f : Value D × JText → Except JSONException (Value D × JText)}
    (hf : ∀ value rest, value.WellFormed runtime.Read → weight rest < w → Progress runtime w' (f (value, rest))) :
    Progress runtime w' (r >>= f) := by
  cases r with
  | error e => exact h
  | ok read => exact hf read.1 read.2 h.1 h.2

/-- The loop goes on with the member, or with an exception. -/
theorem progress_putOnce {members : List (JText × Value D)} {key : JText} {value : Value D}
    (h : Holdable runtime members) (hvalue : value.WellFormed runtime.Read) {w : ℕ}
    {f : List (JText × Value D) → Except JSONException (Value D × JText)}
    (hf : ∀ members', Holdable runtime members' → Progress runtime w (f members')) :
    Progress runtime w (putOnce members key value >>= f) := by
  cases hput : putOnce members key value with
  | error e => exact fun he => putOnce_finished members key value (he ▸ hput)
  | ok members' => exact hf members' (h.putOnce hvalue hput)

/-- What stands behind an entry: the closing bracket, or a separator with the closing bracket or the next entry. -/
theorem progress_separated {w : ℕ} {x : JText} {value : Value D} (hwell : value.WellFormed runtime.Read)
    (separator : UInt16 → Prop) [DecidablePred separator] (hseparator : ¬ separator 0) {close : UInt16}
    (hclose : close ≠ 0) {more : JText → Except JSONException (Value D × JText)} {message : String}
    (hmore : ∀ y, weight y < weight x → Progress runtime w (more y)) (hx : weight x ≤ w) :
    Progress runtime w
      (let (c, rest) := nextClean x
      if separator c then
        let (c, rest) := nextClean rest
        if c = close then .ok (value, rest) else more (back c rest)
      else if c = close then .ok (value, rest)
      else .error (.syntaxError message)) := by
  rcases hclean : nextClean x with ⟨c, rest⟩
  dsimp only
  split
  · next hc =>
    have hrest := weight_nextClean hclean (fun h => hseparator (h ▸ hc))
    have hback := weight_back_nextClean rest
    rcases hclean' : nextClean rest with ⟨c', rest'⟩
    rw [hclean'] at hback
    dsimp only at hback ⊢
    split
    · next hc' =>
      have hrest' := weight_nextClean hclean' (hc' ▸ hclose)
      exact ⟨hwell, by omega⟩
    · exact hmore _ (by omega)
  · split
    · next hc =>
      have hrest := weight_nextClean hclean (hc ▸ hclose)
      exact ⟨hwell, by omega⟩
    · exact nofun

/-- A round of the loop of an object, if the values and the rest of the loop are read. -/
theorem readMembers_gets (hvalue : Gets runtime 2 fuel (nextValue runtime fuel))
    (hloop : ∀ members, Holdable runtime members → Gets runtime 3 fuel (readMembers runtime fuel members))
    (members : List (JText × Value D)) (hmembers : Holdable runtime members) :
    Gets runtime 3 (fuel + 1) (readMembers runtime (fuel + 1) members) := by
  intro x hfuel
  have hback := weight_back_nextClean x
  rw [readMembers]
  rcases hclean : nextClean x with ⟨c, rest⟩
  rw [hclean] at hback
  dsimp only at hback ⊢
  split
  · exact nofun
  split
  · next hclose =>
    have hrest := weight_nextClean hclean (hclose ▸ by decide)
    exact ⟨.object hmembers.1 hmembers.2, hrest⟩
  refine (hvalue (back c rest) (by omega)).bind fun key rest₁ _ hlt₁ => ?_
  rcases hclean₁ : nextClean rest₁ with ⟨c₁, rest₂⟩
  dsimp only
  split
  · next hcolon =>
    have hlt₂ := weight_nextClean hclean₁ (hcolon ▸ by decide)
    refine (hvalue rest₂ (by omega)).bind fun value rest₃ hwell hlt₃ => ?_
    refine progress_putOnce hmembers hwell fun members' hmembers' => ?_
    refine progress_separated (.object hmembers'.1 hmembers'.2) (fun c => c = unit ';' ∨ c = unit ',') (by decide)
      (by decide) (fun y hy => ?_) (show weight rest₃ ≤ weight x by omega)
    have hy : weight y < weight rest₃ := hy
    exact (hloop members' hmembers' y (by omega)).mono (by omega)
  · exact nofun

/-- A round of the loop of an array. -/
theorem readItems_gets (hvalue : Gets runtime 2 fuel (nextValue runtime fuel))
    (hloop : ∀ items : List (Value D), (∀ value ∈ items, value.WellFormed runtime.Read) →
      Gets runtime 3 fuel (readItems runtime fuel items))
    (items : List (Value D)) (hitems : ∀ value ∈ items, value.WellFormed runtime.Read) :
    Gets runtime 3 (fuel + 1) (readItems runtime (fuel + 1) items) := by
  intro x hfuel
  have hback := weight_back_nextClean x
  rw [readItems]
  rcases hclean : nextClean x with ⟨c, rest⟩
  rw [hclean] at hback
  dsimp only at hback ⊢
  -- an entry that is left out takes nothing, but the comma behind it does
  have hentry : Progress runtime (weight x + 1)
      (if c = unit ',' then .ok (.null, back c rest) else nextValue runtime fuel (back c rest)) := by
    split
    · exact ⟨.null, by omega⟩
    · exact (hvalue (back c rest) (by omega)).mono (by omega)
  refine hentry.bind fun value rest₁ hwell hlt₁ => ?_
  have hitems' : ∀ item ∈ items ++ [value], item.WellFormed runtime.Read := by
    intro item hitem
    rcases List.mem_append.mp hitem with hitem | hitem
    · exact hitems item hitem
    · exact List.mem_singleton.mp hitem ▸ hwell
  refine progress_separated (.array hitems') (fun c => c = unit ',') (by decide) (by decide) (fun y hy => ?_)
    (show weight rest₁ ≤ weight x by omega)
  have hy : weight y < weight rest₁ := hy
  exact (hloop _ hitems' y (by omega)).mono (by omega)

theorem holdable_nil : Holdable runtime [] := ⟨List.nodup_nil, nofun⟩

/-- Three rounds for each unit are enough for every reader. -/
theorem gets (runtime : Runtime D) (fuel : ℕ) :
    Gets runtime 2 fuel (nextValue runtime fuel)
      ∧ Gets runtime 1 fuel (newJSONObject runtime fuel)
      ∧ Gets runtime 1 fuel (newJSONArray runtime fuel)
      ∧ (∀ members, Holdable runtime members → Gets runtime 3 fuel (readMembers runtime fuel members))
      ∧ ∀ items : List (Value D), (∀ value ∈ items, value.WellFormed runtime.Read) →
        Gets runtime 3 fuel (readItems runtime fuel items) := by
  induction fuel with
  | zero =>
    have hnone : ∀ extra reader, 0 < extra → Gets runtime extra 0 reader := by
      intro extra reader hextra x hfuel
      omega
    exact ⟨hnone _ _ (by decide), hnone _ _ (by decide), hnone _ _ (by decide), fun _ _ => hnone _ _ (by decide),
      fun _ _ => hnone _ _ (by decide)⟩
  | succ fuel ih =>
    obtain ⟨hvalue, hobject, harray, hmembers, hitems⟩ := ih
    refine ⟨?_, ?_, ?_, readMembers_gets hvalue hmembers, readItems_gets hvalue hitems⟩
    · exact nextValue_gets hobject harray
    · exact newJSONObject_gets (hmembers [] holdable_nil)
    · exact newJSONArray_gets (hitems [] nofun)

end rounds

/-! ## Whole texts -/

/-- A text is read as a value that a `JSONObject` can hold, or it is refused. -/
def Settled (runtime : Runtime D) : Except JSONException (Value D) → Prop
  | .ok value => value.WellFormed runtime.Read
  | .error e => e ≠ .unfinished

/-- What needs no more rounds is settled. -/
theorem Progress.settled {w : ℕ} {r : Except JSONException (Value D × JText)} (h : Progress runtime w r) :
    Settled runtime (r.map Prod.fst) := by
  cases r with
  | error e => exact h
  | ok read => exact h.1

/-- Both constructors get through every text. What they have read has no key twice in an object, no number outside
`long`, and no `Double` that no text stands for. -/
theorem parse_settled (runtime : Runtime D) (source : JText) :
    Settled runtime (parseJSONObject runtime source) ∧ Settled runtime (parseJSONArray runtime source) := by
  have hrounds : 3 * weight source + 1 ≤ rounds source := by
    have hle := weight_le_length source
    unfold rounds
    omega
  obtain ⟨-, hobject, harray, -⟩ := gets runtime (rounds source)
  exact ⟨(hobject source hrounds).settled, (harray source hrounds).settled⟩

end OrgLittle.Java.JsonText
