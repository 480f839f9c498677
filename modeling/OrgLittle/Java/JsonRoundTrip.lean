import OrgLittle.Java.JsonReading

/-!
# What is written is read again

With any indentation, the text of an object or an array is read as the same members and values in the same order. A
value is read from the front of what is left, and the reader then stands where `nextClean` finds what comes behind it.
-/

namespace OrgLittle.Java.JsonText

/-! ## Units -/

/-- A unit has the number of its character. -/
theorem toNat_unit {c : Char} (h : c.toNat < 2 ^ 16) : (unit c).toNat = c.toNat := by
  rw [unit, UInt16.toNat_ofNat', Nat.mod_eq_of_lt h]

/-- The character of a unit is the one it was made from. -/
theorem char_unit {c : Char} (h : c.toNat < 2 ^ 16) : Char.ofNat (unit c).toNat = c := by
  rw [toNat_unit h, Char.ofNat_toNat]

/-- White space in front of a value. -/
def Blank (pad : JText) : Prop := ∀ c ∈ pad, c ≠ 0 ∧ c ≤ unit ' '

theorem blank_nil : Blank [] := nofun

/-- Blanks behind blanks are blank. -/
theorem Blank.append {pad pad' : JText} (h : Blank pad) (h' : Blank pad') : Blank (pad ++ pad') := by
  intro c hc
  rcases List.mem_append.mp hc with hc | hc
  · exact h c hc
  · exact h' c hc

theorem blank_spaces (indent : Int32) : Blank (spaces indent) := by
  intro c hc
  rw [List.eq_of_mem_replicate hc]
  decide

theorem blank_newline (indentFactor : Int32) : Blank (newline indentFactor) := by
  unfold newline
  split_ifs
  · intro c hc
    rw [List.mem_singleton.mp hc]
    decide
  · exact blank_nil

/-- `nextClean` passes over blanks. -/
theorem nextClean_blank {pad : JText} (h : Blank pad) (x : JText) : nextClean (pad ++ x) = nextClean x := by
  induction pad with
  | nil => rfl
  | cons c pad ih =>
    obtain ⟨hne, hle⟩ := h c List.mem_cons_self
    have hskip : ¬ (c = 0 ∨ unit ' ' < c) := not_or.mpr ⟨hne, UInt16.not_lt.mpr hle⟩
    rw [List.cons_append, nextClean, if_neg hskip]
    exact ih fun d hd => h d (List.mem_cons_of_mem _ hd)

/-- `nextClean` takes a unit that is no blank. -/
theorem nextClean_solid {c : UInt16} (h : unit ' ' < c) (rest : JText) : nextClean (c :: rest) = (c, rest) := by
  rw [nextClean, if_pos (.inr h)]

section

variable {D : Type*} (runtime : Runtime D)

/-- `nextValue` reads nothing that `nextClean` skips. -/
theorem nextValue_congr {x y : JText} (h : nextClean x = nextClean y) (fuel : ℕ) :
    nextValue runtime fuel x = nextValue runtime fuel y := by
  cases fuel with
  | zero => rfl
  | succ fuel => rw [nextValue, nextValue, h]

end

/-! ## Strings -/

/-- Digits are read one part after the other. -/
theorem hexFrom_append (v : ℕ) (s t : JText) : hexFrom v (s ++ t) = (hexFrom v s).bind fun w => hexFrom w t := by
  induction s generalizing v with
  | nil => rfl
  | cons c s ih =>
    simp only [List.cons_append, hexFrom, Option.bind_assoc]
    exact congrArg _ (funext fun d => ih _)

/-- The digits that are written are read as what they stand for. -/
theorem digit16_digitChar : ∀ d < 16, digit16 (unit (Nat.digitChar d)) = some d := by decide

/-- A number that is written in digits is read again. -/
theorem hexFrom_toDigits (n : ℕ) : hexFrom 0 (units (Nat.toDigits 16 n)) = some n := by
  induction n using Nat.strong_induction_on with
  | _ n ih =>
    rcases Nat.lt_or_ge n 16 with hlt | hge
    · rw [Nat.toDigits_of_lt_base hlt]
      simp [units, hexFrom, digit16_digitChar n hlt]
    · rw [Nat.toDigits_of_base_le (by decide) hge, units, List.map_append, hexFrom_append]
      have hhigh := ih (n / 16) (by omega)
      rw [units] at hhigh
      simp only [hhigh, Option.bind_some, List.map_cons, List.map_nil, hexFrom,
        digit16_digitChar (n % 16) (Nat.mod_lt n (by decide))]
      exact congrArg some (Nat.div_add_mod n 16)

/-- Zeros in front change nothing. -/
theorem hexFrom_zeros (k : ℕ) (s : JText) : hexFrom 0 (List.replicate k (unit '0') ++ s) = hexFrom 0 s := by
  induction k with
  | zero => rfl
  | succ k ih =>
    rw [List.replicate_succ, List.cons_append, hexFrom, show digit16 (unit '0') = some 0 from by decide]
    exact ih

/-- The four digits of a unit give the unit. -/
theorem hexFrom_toHex (c : UInt16) : hexFrom 0 (toHex c) = some c.toNat := by
  rw [toHex, List.leftpad, units, List.map_append, List.map_replicate, hexFrom_zeros]
  exact hexFrom_toDigits c.toNat

/-- Four digits, as `nextString` takes them. -/
theorem length_toHex (c : UInt16) : (toHex c).length = 4 := by
  have hle : (Nat.toDigits 16 c.toNat).length ≤ 4 := Nat.toDigits_length 16 c.toNat 4 (by decide) c.toNat_lt
  rw [toHex, units, List.length_map, List.length_leftpad, Nat.max_eq_left hle]

/-- What is written of a number are digits. -/
theorem exists_of_mem_toDigits {n : ℕ} {x : Char} (h : x ∈ Nat.toDigits 16 n) : ∃ d < 16, x = Nat.digitChar d := by
  induction n using Nat.strong_induction_on with
  | _ n ih =>
    rcases Nat.lt_or_ge n 16 with hlt | hge
    · rw [Nat.toDigits_of_lt_base hlt] at h
      exact ⟨n, hlt, List.mem_singleton.mp h⟩
    · rw [Nat.toDigits_of_base_le (by decide) hge] at h
      rcases List.mem_append.mp h with h | h
      · exact ih (n / 16) (by omega) h
      · exact ⟨n % 16, Nat.mod_lt n (by decide), List.mem_singleton.mp h⟩

/-- The units of a hexadecimal number are digits. -/
theorem exists_of_mem_toHex {c u : UInt16} (h : u ∈ toHex c) : ∃ d < 16, u = unit (Nat.digitChar d) := by
  obtain ⟨x, hx, rfl⟩ := List.mem_map.mp h
  rcases List.mem_append.mp hx with hx | hx
  · exact ⟨0, by decide, congrArg unit (List.eq_of_mem_replicate hx)⟩
  · obtain ⟨d, hd, rfl⟩ := exists_of_mem_toDigits hx
    exact ⟨d, hd, rfl⟩

/-- No digit is the end of the text or a sign. -/
theorem not_special_digitChar : ∀ d < 16, unit (Nat.digitChar d) ≠ 0 ∧ unit (Nat.digitChar d) ≠ unit '-'
    ∧ unit (Nat.digitChar d) ≠ unit '+' := by decide

/-- The four units behind `\u`. -/
theorem toHex_eq (c : UInt16) : ∃ c₁ c₂ c₃ c₄, toHex c = [c₁, c₂, c₃, c₄] ∧ 0 ∉ [c₁, c₂, c₃, c₄]
    ∧ parseHex [c₁, c₂, c₃, c₄] = some c := by
  have hlength := length_toHex c
  have hdigit : ∀ u ∈ toHex c, u ≠ 0 ∧ u ≠ unit '-' ∧ u ≠ unit '+' := by
    intro u hu
    obtain ⟨d, hd, rfl⟩ := exists_of_mem_toHex hu
    exact not_special_digitChar d hd
  have hvalue := hexFrom_toHex c
  match toHex c, hlength, hdigit, hvalue with
  | [c₁, c₂, c₃, c₄], _, hdigit, hvalue =>
    refine ⟨c₁, c₂, c₃, c₄, rfl, fun h => (hdigit 0 h).1 rfl, ?_⟩
    obtain ⟨-, hminus, hplus⟩ := hdigit c₁ List.mem_cons_self
    rw [parseHex, if_neg hminus, if_neg hplus, hvalue, Option.map_some, UInt16.ofNat_toNat]

section

variable {D : Type*}

/-- A unit that is written with `\u` is read back. -/
theorem nextString_hex (c : UInt16) (x : JText) :
    nextString (unit '"') (units ['\\', 'u'] ++ toHex c ++ x)
      = (nextString (unit '"') x).map fun (s, rest) => (c :: s, rest) := by
  obtain ⟨c₁, c₂, c₃, c₄, htoHex, hzero, hparse⟩ := toHex_eq c
  rw [htoHex]
  show nextString (unit '"') (unit '\\' :: unit 'u' :: c₁ :: c₂ :: c₃ :: c₄ :: x) = _
  rw [nextString.eq_def]
  dsimp only
  rw [if_neg (by decide), if_pos rfl, if_pos rfl, if_neg hzero, hparse]

/-- An escape of one unit. -/
theorem nextString_unescape {e c : UInt16} (hne : e ≠ unit 'u') (h : unescape e = some c) (x : JText) :
    nextString (unit '"') (unit '\\' :: e :: x) = (nextString (unit '"') x).map fun (s, rest) => (c :: s, rest) := by
  rw [nextString.eq_def]
  dsimp only
  rw [if_neg (by decide), if_pos rfl, if_neg hne, h]

/-- A unit that stands for itself. -/
theorem nextString_plain {c : UInt16} (hend : ¬ (c = 0 ∨ c = unit '\n' ∨ c = unit '\r')) (hslash : c ≠ unit '\\')
    (hquote : c ≠ unit '"') (x : JText) :
    nextString (unit '"') (c :: x) = (nextString (unit '"') x).map fun (s, rest) => (c :: s, rest) := by
  rw [nextString.eq_def]
  dsimp only
  rw [if_neg hend, if_neg hslash, if_neg hquote]

/-- Each unit that `quote` writes, in whatever way, is read back. -/
theorem nextString_escape (b c : UInt16) (x : JText) :
    nextString (unit '"') (escape b c ++ x) = (nextString (unit '"') x).map fun (s, rest) => (c :: s, rest) := by
  unfold escape
  split
  · next h =>
    rcases h with rfl | rfl
    · exact nextString_unescape (by decide) (by decide) x
    · exact nextString_unescape (by decide) (by decide) x
  split
  · next h =>
    subst h
    split
    · exact nextString_unescape (by decide) (by decide) x
    · exact nextString_plain (by decide) (by decide) (by decide) x
  split
  · next h => exact h ▸ nextString_unescape (by decide) (by decide) x
  split
  · next h => exact h ▸ nextString_unescape (by decide) (by decide) x
  split
  · next h => exact h ▸ nextString_unescape (by decide) (by decide) x
  split
  · next h => exact h ▸ nextString_unescape (by decide) (by decide) x
  split
  · next h => exact h ▸ nextString_unescape (by decide) (by decide) x
  split
  · exact nextString_hex c x
  · next hescaped _ _ _ hline _ hreturn hcontrol =>
    have hzero : c ≠ 0 := by
      rintro rfl
      exact hcontrol (by decide)
    obtain ⟨hslash, hquote⟩ := not_or.mp hescaped
    exact nextString_plain (by tauto) hslash hquote x

/-- What `quote` writes of a text is read up to the closing quote. -/
theorem nextString_escapeFrom (b : UInt16) (s rest : JText) :
    nextString (unit '"') (escapeFrom b s ++ unit '"' :: rest) = .ok (s, rest) := by
  induction s generalizing b with
  | nil =>
    rw [escapeFrom, List.nil_append, nextString.eq_def]
    dsimp only
    rw [if_neg (by decide), if_neg (by decide), if_pos rfl]
  | cons c s ih =>
    rw [escapeFrom, List.append_assoc, nextString_escape, ih]
    rfl

end

/-! ## Texts without quotes -/

/-- A unit of a text that is read as it stands. -/
def BareUnit (c : UInt16) : Prop := isPlain c = true ∧ c ≠ unit ' ' ∧ c ≠ unit '\''

instance (c : UInt16) : Decidable (BareUnit c) := inferInstanceAs (Decidable (_ ∧ _))

/-- A text that is read as it stands. -/
def Bare (text : JText) : Prop := text ≠ [] ∧ ∀ c ∈ text, BareUnit c

/-- Behind some blanks stands a unit that ends a text without quotes. -/
def Stops (x : JText) : Prop := ∃ k c y, x = List.replicate k (unit ' ') ++ c :: y ∧ isPlain c = false

/-- A unit of a text without quotes is no blank. -/
theorem BareUnit.lt {c : UInt16} (h : BareUnit c) : unit ' ' < c := by
  have hle : unit ' ' ≤ c := of_decide_eq_true (Bool.and_eq_true_iff.mp h.1).1
  exact UInt16.lt_of_le_of_ne hle (Ne.symm h.2.1)

/-- A plain unit does not end a text without quotes. -/
theorem notMem_delimiters {c : UInt16} (h : isPlain c = true) : c ∉ delimiters := by
  have hnot := (Bool.and_eq_true_iff.mp h).2
  simpa using hnot

theorem blank_replicate (k : ℕ) : Blank (List.replicate k (unit ' ')) := by
  intro c hc
  rw [List.eq_of_mem_replicate hc]
  decide

/-- Such a text does not begin with a blank. -/
theorem dropWhile_bare {text : JText} (h : Bare text) (x : JText) :
    (text ++ x).dropWhile (· ≤ unit ' ') = text ++ x := by
  cases text with
  | nil => exact absurd rfl h.1
  | cons c text =>
    have hsolid : ¬ c ≤ unit ' ' := UInt16.not_le.mpr (h.2 c List.mem_cons_self).lt
    rw [List.cons_append, List.dropWhile_cons_of_neg (by simpa using hsolid)]

/-- `trim` takes off the blanks behind such a text, and nothing of it. -/
theorem trim_bare {text : JText} (h : Bare text) (k : ℕ) : trim (text ++ List.replicate k (unit ' ')) = text := by
  have hreverse : Bare text.reverse :=
    ⟨fun hnil => h.1 (List.reverse_eq_nil_iff.mp hnil), fun c hc => h.2 c (List.mem_reverse.mp hc)⟩
  have hblank : ∀ c ∈ List.replicate k (unit ' '), decide (c ≤ unit ' ') = true := by
    intro c hc
    rw [List.eq_of_mem_replicate hc]
    decide
  have hkept := dropWhile_bare hreverse []
  rw [List.append_nil] at hkept
  rw [trim, dropWhile_bare h, List.reverse_append, List.reverse_replicate, List.dropWhile_append_of_pos hblank,
    hkept, List.reverse_reverse]

/-- The loop over a text without quotes ends at the first unit that is not plain. -/
theorem nextWord_plain {word : JText} (h : ∀ c ∈ word, isPlain c = true) {c : UInt16} (hc : isPlain c = false)
    (y : JText) : nextWord (word ++ c :: y) = (word, c :: y) := by
  induction word with
  | nil =>
    rw [List.nil_append, nextWord, if_neg (by simp [hc])]
    rfl
  | cons d word ih =>
    rw [List.cons_append, nextWord, if_pos (h d List.mem_cons_self), ih fun e he => h e (List.mem_cons_of_mem _ he)]

section

variable {D : Type*} (runtime : Runtime D)

/-- A text without quotes is read to its end, and `stringToValue` says what it is. -/
theorem nextValue_bare {text x : JText} (h : Bare text) (hx : Stops x) (fuel : ℕ) :
    ∃ rest, nextValue runtime (fuel + 1) (text ++ x) = .ok (stringToValue runtime text, rest)
      ∧ nextClean rest = nextClean x := by
  obtain ⟨k, d, y, rfl, hd⟩ := hx
  have hword : nextWord (text ++ (List.replicate k (unit ' ') ++ d :: y))
      = (text ++ List.replicate k (unit ' '), d :: y) := by
    rw [← List.append_assoc]
    refine nextWord_plain (fun c hc => ?_) hd y
    rcases List.mem_append.mp hc with hc | hc
    · exact (h.2 c hc).1
    · rw [List.eq_of_mem_replicate hc]
      decide
  refine ⟨d :: y, ?_, (nextClean_blank (blank_replicate k) _).symm⟩
  have htrim := trim_bare h k
  obtain ⟨hne, hplain⟩ := h
  match text, hne with
  | c :: text, _ =>
    obtain ⟨hc, hblank, hsingle⟩ := hplain c List.mem_cons_self
    have hdelimiter := notMem_delimiters hc
    have hquote : ¬ (c = unit '"' ∨ c = unit '\'') := not_or.mpr ⟨fun heq => hdelimiter (heq ▸ by decide), hsingle⟩
    have hopen : c ≠ unit '{' := fun heq => hdelimiter (heq ▸ by decide)
    have hopenArray : c ≠ unit '[' := fun heq => hdelimiter (heq ▸ by decide)
    rw [nextValue, List.cons_append, nextClean_solid (hplain c List.mem_cons_self).lt]
    dsimp only
    rw [if_neg hquote, if_neg hopen, if_neg hopenArray, back, ← List.cons_append, hword]
    dsimp only
    rw [htrim, if_neg (List.cons_ne_nil c text)]

/-! ## Numbers -/

/-- What holds of `-` and of the ten digits holds of the units of a number. -/
theorem forall_numeral {P : UInt16 → Prop} (hminus : P (unit '-')) (hdigit : ∀ d < 10, P (UInt16.ofNat (48 + d)))
    {n : ℤ} : ∀ u ∈ units (intToString n), P u := by
  intro u hu
  obtain ⟨c, hc, rfl⟩ := List.mem_map.mp hu
  rcases numeral_of_mem_intToString hc with rfl | hc
  · exact hminus
  · obtain ⟨hlo, hhi⟩ : 48 ≤ c.toNat ∧ c.toNat ≤ 57 := Char.isDigit_iff_toNat.mp hc
    have hunit : unit c = UInt16.ofNat (48 + (c.toNat - 48)) := by rw [Nat.add_sub_cancel' hlo, unit]
    exact hunit ▸ hdigit (c.toNat - 48) (by omega)

theorem intToString_ne_nil (n : ℤ) : intToString n ≠ [] := by
  unfold intToString
  split_ifs
  · exact List.cons_ne_nil _ _
  · exact Nat.toDigits_ne_nil

/-- A number is written without quotes. -/
theorem bare_intToString (n : ℤ) : Bare (units (intToString n)) :=
  ⟨fun h => intToString_ne_nil n (List.map_eq_nil_iff.mp h), forall_numeral (by decide) (by decide)⟩

theorem chars_units {s : JString} (h : ∀ c ∈ s, c.toNat < 128) : (units s).map (fun c => Char.ofNat c.toNat) = s := by
  rw [units, List.map_map]
  refine (List.map_congr_left fun c hc => ?_).trans (List.map_id s)
  exact char_unit ((h c hc).trans (by decide))

/-- The text of a `long` is its only text. -/
theorem canonicalLong_intToString {n : ℤ} (hlo : -2 ^ 63 ≤ n) (hhi : n < 2 ^ 63) :
    canonicalLong (units (intToString n)) = some n := by
  have hascii : ∀ c ∈ intToString n, c.toNat < 128 := fun c hc => toNat_lt_of_mem_intToString hc
  rw [canonicalLong, chars_units hascii, parseSigned_intToString, Option.filter_some, if_pos]
  exact decide_eq_true ⟨rfl, hlo, hhi⟩

/-- A text is not a word if its first unit is not in the word. -/
theorem isWord_eq_false {word : String} {c : UInt16} (h : foldUnit c ∉ (units word.toList).map foldUnit)
    (text : JText) : ¬ isWord word (c :: text) = true := by
  intro hword
  rw [isWord, beq_iff_eq] at hword
  exact h (hword ▸ List.mem_cons_self)

/-- Only zero has a text that could be that of a negative zero. -/
theorem units_intToString_ne (n : ℤ) : units (intToString n) ≠ units ['-', '0'] := by
  intro h
  have hascii : ∀ c ∈ intToString n, c.toNat < 128 := fun c hc => toNat_lt_of_mem_intToString hc
  have htext := congrArg (fun text : JText => text.map fun c => Char.ofNat c.toNat) h
  rw [chars_units hascii, chars_units (by simp)] at htext
  have hzero := congrArg parseSigned htext
  rw [parseSigned_intToString, show parseSigned ['-', '0'] = some 0 from by decide] at hzero
  rw [Option.some.inj hzero] at htext
  exact absurd htext (by decide)

/-- A number that is written is read as an `Integer` or as a `Long`. -/
theorem stringToValue_intToString {n : ℤ} (hlo : -2 ^ 63 ≤ n) (hhi : n < 2 ^ 63) :
    stringToValue runtime (units (intToString n)) = boxed n := by
  have hlong := canonicalLong_intToString hlo hhi
  have hne := units_intToString_ne n
  have hmem : ∀ u ∈ units (intToString n), (u ≠ unit '.' ∧ u ≠ unit 'e' ∧ u ≠ unit 'E')
      ∧ ((unit '0' ≤ u ∧ u ≤ unit '9') ∨ u = unit '-')
      ∧ foldUnit u ∉ (units "true".toList).map foldUnit ∧ foldUnit u ∉ (units "false".toList).map foldUnit
      ∧ foldUnit u ∉ (units "null".toList).map foldUnit := forall_numeral (by decide) (by decide)
  match units (intToString n), (bare_intToString n).1, hlong, hne, hmem with
  | c :: text, _, hlong, hne, hmem =>
    obtain ⟨-, hinitial, htrue, hfalse, hnull⟩ := hmem c List.mem_cons_self
    have hpoint : ¬ (unit '.' ∈ c :: text ∨ unit 'e' ∈ c :: text ∨ unit 'E' ∈ c :: text
        ∨ c :: text = units ['-', '0']) := by
      rintro (h | h | h | h)
      · exact (hmem _ h).1.1 rfl
      · exact (hmem _ h).1.2.1 rfl
      · exact (hmem _ h).1.2.2 rfl
      · exact hne h
    rw [stringToValue, if_neg (isWord_eq_false htrue text), if_neg (isWord_eq_false hfalse text),
      if_neg (isWord_eq_false hnull text)]
    rw [if_pos hinitial, if_neg hpoint, hlong]
    rfl

end

/-! ## Entries -/

section

variable {D : Type*} (runtime : Runtime D) (indentFactor : Int32)

/-- A double whose text is read as the same double. The text of one without a fraction is that of an integer. -/
def Runtime.Kept (runtime : Runtime D) (d : D) : Prop :=
  Bare (numberToString runtime d) ∧ stringToValue runtime (numberToString runtime d) = .double d

/-- A double whose text is that of an integer with a point and a zero is read as the integer. -/
theorem stringToValue_whole {d : D} {n : ℤ} (h : runtime.toString d = units (intToString n) ++ units ['.', '0'])
    (hlo : -2 ^ 63 ≤ n) (hhi : n < 2 ^ 63) : stringToValue runtime (numberToString runtime d) = boxed n := by
  have hunit : ∀ u ∈ units (intToString n), u ≠ unit '.' ∧ u ≠ unit 'e' ∧ u ≠ unit 'E' :=
    forall_numeral (by decide) (by decide)
  have hpoint : unit '.' ∉ units (intToString n) := fun hmem => (hunit _ hmem).1 rfl
  have hidx : 0 < (units (intToString n) ++ units ['.', '0']).idxOf (unit '.') := by
    rw [List.idxOf_append_of_notMem hpoint]
    have hpos := List.length_pos_iff.mpr (bare_intToString n).1
    omega
  have hplain {c : Char} (hc : unit c ∉ units ['.', '0']) (hne : unit c ∉ units (intToString n)) :
      unit c ∉ units (intToString n) ++ units ['.', '0'] :=
    fun hmem => (List.mem_append.mp hmem).elim hne hc
  have hwritten : numberToString runtime d = units (intToString n) := by
    rw [numberToString, h]
    dsimp only
    rw [if_pos ⟨hidx, by simp [units], hplain (by decide) fun hmem => (hunit _ hmem).2.1 rfl,
      hplain (by decide) fun hmem => (hunit _ hmem).2.2 rfl⟩]
    have hreverse : (units (intToString n) ++ units ['.', '0']).reverse
        = unit '0' :: unit '.' :: (units (intToString n)).reverse := by
      simp [units]
    rw [hreverse, List.dropWhile_cons_of_pos (by decide), List.dropWhile_cons_of_neg (by decide), List.head?_cons,
      if_pos rfl, List.tail_cons, List.reverse_reverse]
  rw [hwritten]
  exact stringToValue_intToString runtime hlo hhi

/-- A unit that a written value begins with. -/
def Opens (c : UInt16) : Prop := unit ' ' < c ∧ c ≠ unit ',' ∧ c ≠ unit ']' ∧ c ≠ unit '}'

instance (c : UInt16) : Decidable (Opens c) := inferInstanceAs (Decidable (_ ∧ _))

/-- A value may begin with what can stand bare. -/
theorem BareUnit.opens {c : UInt16} (h : BareUnit c) : Opens c := by
  have hdelimiter := notMem_delimiters h.1
  exact ⟨h.lt, fun heq => hdelimiter (heq ▸ by decide), fun heq => hdelimiter (heq ▸ by decide),
    fun heq => hdelimiter (heq ▸ by decide)⟩

/-- A text without quotes begins a value. -/
theorem Bare.opens {text : JText} (h : Bare text) : ∃ c rest, text = c :: rest ∧ Opens c := by
  match text, h with
  | c :: rest, h => exact ⟨c, rest, rfl, (h.2 c List.mem_cons_self).opens⟩

theorem bareUnit_letter : ∀ c ∈ ['t', 'r', 'u', 'e', 'f', 'a', 'l', 's', 'n'], BareUnit (unit c) := by
  intro c hc
  fin_cases hc <;> decide

theorem bare_letters {word : JString} (hne : word ≠ []) (h : word ⊆ ['t', 'r', 'u', 'e', 'f', 'a', 'l', 's', 'n']) :
    Bare (units word) := by
  refine ⟨fun hnil => hne (List.map_eq_nil_iff.mp hnil), fun u hu => ?_⟩
  obtain ⟨c, hc, rfl⟩ := List.mem_map.mp hu
  exact bareUnit_letter c (h hc)

theorem bare_null : Bare (units ['n', 'u', 'l', 'l']) := bare_letters (by decide) (by decide)

theorem bare_bool (b : Bool) : Bare (units (if b then ['t', 'r', 'u', 'e'] else ['f', 'a', 'l', 's', 'e'])) := by
  cases b <;> exact bare_letters (by decide) (by decide)

/-- What is written of a value begins a value: it has no comma and no bracket that ends something in front. -/
theorem opens_writeValue {value : Value D} (h : value.WellFormed runtime.Kept) (indent : Int32) :
    ∃ c rest, writeValue runtime indentFactor indent value = c :: rest ∧ Opens c := by
  cases h with
  | null => exact bare_null.opens
  | bool b => exact (bare_bool b).opens
  | integer hlo hhi => exact (bare_intToString _).opens
  | long hlo hhi hlarge => exact (bare_intToString _).opens
  | double hd => exact hd.1.opens
  | string s => exact ⟨_, _, by rw [writeValue, quote], by decide⟩
  | array hitems => exact ⟨_, _, by rw [writeValue], by decide⟩
  | object hkeys hmembers => exact ⟨_, _, by rw [writeValue], by decide⟩

/-- A written value is read from the front of a text. -/
def Reads (value : Value D) : Prop :=
  ∀ (indent : Int32) (rest : JText) (fuel : ℕ), Stops rest →
    3 * weight (writeValue runtime indentFactor indent value ++ rest) + 2 ≤ fuel →
      ∃ behind, nextValue runtime fuel (writeValue runtime indentFactor indent value ++ rest) = .ok (value, behind)
        ∧ nextClean behind = nextClean rest

/-- The measure of a text is the sum of that of its parts. -/
theorem weight_append (x y : JText) : weight (x ++ y) = weight x + weight y := List.countP_append

/-- The entries behind the first one. -/
def more (pad : JText) (texts : List JText) : JText := texts.flatMap fun text => unit ',' :: (pad ++ text)

/-- Commas between entries that are on lines of their own. -/
theorem intercalate_pad (pad text : JText) (texts : List JText) :
    [unit ','].intercalate ((text :: texts).map fun text => pad ++ text) = pad ++ text ++ more pad texts := by
  induction texts generalizing text with
  | nil => simp [more]
  | cons text' texts ih =>
    rw [List.map_cons, List.map_cons, List.intercalate_cons_cons, ← List.map_cons, ih]
    simp [more]

/-- Behind the last entry there is white space, with a line end or blanks in front. -/
def Closes (behind : JText) : Prop :=
  Blank behind ∧ ∀ c rest, isPlain c = false → Stops (behind ++ c :: rest)

/-- Behind the last entry there may be nothing. -/
theorem closes_nil : Closes [] := ⟨blank_nil, fun c rest hc => ⟨0, c, rest, rfl, hc⟩⟩

/-- The line of a closing bracket. -/
theorem closes_indented (indent : Int32) : Closes (newline indentFactor ++ spaces indent) := by
  refine ⟨(blank_newline _).append (blank_spaces _), fun c rest hc => ?_⟩
  unfold newline
  split_ifs
  · exact ⟨0, unit '\n', _, rfl, by decide⟩
  · exact ⟨_, c, rest, rfl, hc⟩

/-- A written array or object with entries, whatever the indentation. -/
theorem layout_cons (indent : Int32) (text : JText) (texts : List JText) :
    ∃ pad behind, Blank pad ∧ Closes behind
      ∧ layout indentFactor indent (text :: texts) = pad ++ text ++ more pad texts ++ behind := by
  cases texts with
  | nil => exact ⟨[], [], blank_nil, closes_nil, by simp [layout, more]⟩
  | cons text' texts =>
    refine ⟨newline indentFactor ++ spaces (indent + indentFactor), newline indentFactor ++ spaces indent,
      (blank_newline _).append (blank_spaces _), closes_indented _ _, ?_⟩
    rw [layout.eq_def]
    dsimp only
    rw [intercalate_pad, List.append_assoc _ (newline indentFactor)]

variable {indentFactor}

/-- The front of a text with entries: the reader is where the entry begins. -/
theorem nextClean_opens {text : JText} (h : ∃ c rest, text = c :: rest ∧ Opens c) (x : JText) :
    ∃ c rest, nextClean (text ++ x) = (c, rest) ∧ back c rest = text ++ x ∧ Opens c := by
  obtain ⟨c, rest, rfl, hc⟩ := h
  exact ⟨c, rest ++ x, nextClean_solid hc.1 _, rfl, hc⟩

variable (indentFactor)

/-- Behind an entry comes what a text without quotes ends at. -/
theorem stops_more (pad : JText) {behind : JText} (hbehind : Closes behind) (texts : List JText) (close : UInt16)
    (hclose : isPlain close = false) (rest : JText) : Stops (more pad texts ++ (behind ++ close :: rest)) := by
  cases texts with
  | nil => exact hbehind.2 close rest hclose
  | cons text texts => exact ⟨0, unit ',', _, rfl, by decide⟩

/-- The loop of an array, up to the unit behind an item. -/
theorem readItems_value {value : Value D} (hwell : value.WellFormed runtime.Kept)
    (hreads : Reads runtime indentFactor value) (read : List (Value D)) (inner : Int32) {x : JText} (hx : Stops x)
    (fuel : ℕ) (hfuel : 3 * weight (writeValue runtime indentFactor inner value ++ x) + 2 ≤ fuel) :
    readItems runtime (fuel + 1) read (writeValue runtime indentFactor inner value ++ x)
      = if (nextClean x).1 = unit ',' then
          if (nextClean (nextClean x).2).1 = unit ']' then
            .ok (.array (read ++ [value]), (nextClean (nextClean x).2).2)
          else readItems runtime fuel (read ++ [value])
            (back (nextClean (nextClean x).2).1 (nextClean (nextClean x).2).2)
        else if (nextClean x).1 = unit ']' then .ok (.array (read ++ [value]), (nextClean x).2)
        else .error (.syntaxError "Expected a ',' or ']'") := by
  obtain ⟨c, tail, hclean, hback, hopens⟩ := nextClean_opens (opens_writeValue runtime indentFactor hwell inner) x
  obtain ⟨next, hread, hnext⟩ := hreads inner x fuel hx hfuel
  rw [readItems, hclean]
  dsimp only
  rw [if_neg hopens.2.1, hback, hread]
  dsimp only [bind, Except.bind]
  rw [hnext]

/-- The loop of an array reads all items that are left, and the closing bracket behind them. -/
theorem readItems_written {inner : Int32} {pad behind : JText} (hpad : Blank pad) (hbehind : Closes behind)
    (rest : JText) {items : List (Value D)} (hwell : ∀ item ∈ items, item.WellFormed runtime.Kept)
    (hreads : ∀ item ∈ items, Reads runtime indentFactor item) {value : Value D}
    (hvalue : value.WellFormed runtime.Kept)
    (hreadsValue : Reads runtime indentFactor value) (read : List (Value D)) (fuel : ℕ)
    (hfuel : 3 * weight (writeValue runtime indentFactor inner value
      ++ (more pad (writeItems runtime indentFactor inner items) ++ (behind ++ unit ']' :: rest))) + 3 ≤ fuel) :
    readItems runtime fuel read (writeValue runtime indentFactor inner value
      ++ (more pad (writeItems runtime indentFactor inner items) ++ (behind ++ unit ']' :: rest)))
        = .ok (.array (read ++ value :: items), rest) := by
  induction items generalizing value read fuel with
  | nil =>
    obtain ⟨fuel, rfl⟩ : ∃ f, fuel = f + 1 := ⟨fuel - 1, by omega⟩
    have hx := stops_more pad hbehind (writeItems runtime indentFactor inner []) (unit ']') (by decide) rest
    rw [readItems_value runtime indentFactor hvalue hreadsValue read inner hx fuel (by omega), writeItems, more,
      List.flatMap_nil, List.nil_append, nextClean_blank hbehind.1, nextClean_solid (by decide)]
    rfl
  | cons item items ih =>
    obtain ⟨fuel, rfl⟩ : ∃ f, fuel = f + 1 := ⟨fuel - 1, by omega⟩
    have hx := stops_more pad hbehind (writeItems runtime indentFactor inner (item :: items)) (unit ']') (by decide)
      rest
    have hitem := hwell item List.mem_cons_self
    rw [readItems_value runtime indentFactor hvalue hreadsValue read inner hx fuel (by omega)]
    have hmore : more pad (writeItems runtime indentFactor inner (item :: items)) ++ (behind ++ unit ']' :: rest)
        = unit ',' :: (pad ++ (writeValue runtime indentFactor inner item
          ++ (more pad (writeItems runtime indentFactor inner items) ++ (behind ++ unit ']' :: rest)))) := by
      simp [writeItems, more]
    obtain ⟨c, tail, hclean, hback, hopens⟩ := nextClean_opens (opens_writeValue runtime indentFactor hitem inner)
      (more pad (writeItems runtime indentFactor inner items) ++ (behind ++ unit ']' :: rest))
    rw [hmore, weight_append, weight_cons_of_ne (by decide), weight_append] at hfuel
    rw [hmore, nextClean_solid (by decide)]
    dsimp only
    rw [if_pos rfl, nextClean_blank hpad, hclean]
    dsimp only
    rw [if_neg hopens.2.2.1, hback, ih (fun v hv => hwell v (List.mem_cons_of_mem _ hv))
      (fun v hv => hreads v (List.mem_cons_of_mem _ hv)) hitem (hreads item List.mem_cons_self) _ fuel (by omega),
      List.append_assoc]
    rfl

/-- A quoted text is read as a string. -/
theorem nextValue_quote (s x : JText) (fuel : ℕ) :
    nextValue runtime (fuel + 1) (quote s ++ x) = .ok (.string s, x) := by
  rw [quote, List.cons_append, List.append_assoc, nextValue, nextClean_solid (by decide)]
  dsimp only
  rw [if_pos (.inl rfl), List.singleton_append, nextString_escapeFrom]
  rfl

/-- A written member. -/
def memberText (inner : Int32) (key : JText) (value : Value D) : JText :=
  quote key ++ unit ':' ::
    ((if 0 < indentFactor then [unit ' '] else []) ++ writeValue runtime indentFactor inner value)

/-- A member begins with a value, which is its key. -/
theorem opens_memberText (inner : Int32) (key : JText) (value : Value D) :
    ∃ c rest, memberText runtime indentFactor inner key value = c :: rest ∧ Opens c :=
  ⟨unit '"', _, rfl, by decide⟩

/-- The loop of an object, up to the unit behind a member. -/
theorem readMembers_member {key : JText} {value : Value D} (hreads : Reads runtime indentFactor value)
    {members : List (JText × Value D)} (hkey : key ∉ members.map Prod.fst) (inner : Int32) {x : JText} (hx : Stops x)
    (fuel : ℕ) (hfuel : 3 * weight (memberText runtime indentFactor inner key value ++ x) + 2 ≤ fuel) :
    readMembers runtime (fuel + 1) members (memberText runtime indentFactor inner key value ++ x)
      = if (nextClean x).1 = unit ';' ∨ (nextClean x).1 = unit ',' then
          if (nextClean (nextClean x).2).1 = unit '}' then
            .ok (.object (members ++ [(key, value)]), (nextClean (nextClean x).2).2)
          else readMembers runtime fuel (members ++ [(key, value)])
            (back (nextClean (nextClean x).2).1 (nextClean (nextClean x).2).2)
        else if (nextClean x).1 = unit '}' then .ok (.object (members ++ [(key, value)]), (nextClean x).2)
        else .error (.syntaxError "Expected a ',' or '\x7d'") := by
  obtain ⟨c, tail, hclean, hback, hopens⟩ := nextClean_opens (opens_memberText runtime indentFactor inner key value) x
  have hzero : c ≠ 0 := by
    rintro rfl
    exact absurd hopens.1 (by decide)
  have hblank : Blank (if 0 < indentFactor then [unit ' '] else []) := by
    split_ifs
    · exact blank_replicate 1
    · exact blank_nil
  rw [readMembers, hclean]
  dsimp only
  rw [if_neg hzero, if_neg hopens.2.2.2, hback]
  rw [memberText, weight_append, weight_append, weight_cons_of_ne (by decide), weight_append] at hfuel
  obtain ⟨next, hread, hnext⟩ := hreads inner x fuel hx (by rw [weight_append]; omega)
  obtain ⟨fuel, rfl⟩ : ∃ f, fuel = f + 1 := ⟨fuel - 1, by omega⟩
  rw [memberText, List.append_assoc, nextValue_quote]
  dsimp only [bind, Except.bind]
  rw [List.cons_append, nextClean_solid (by decide)]
  dsimp only
  rw [if_pos rfl, List.append_assoc, nextValue_congr runtime (nextClean_blank hblank _), hread]
  dsimp only
  rw [putOnce, Value.toString, if_neg hkey]
  dsimp only
  rw [hnext]

/-- A key that is still to be read was not read before. -/
theorem key_notMem {read left : List (JText × Value D)} {key : JText} {value : Value D}
    (h : ((read ++ (key, value) :: left).map Prod.fst).Nodup) : key ∉ read.map Prod.fst := by
  rw [List.map_append, List.map_cons] at h
  exact fun hmem => (List.nodup_append.mp h).2.2 key hmem key List.mem_cons_self rfl

/-- The loop of an object reads all members that are left, and the closing bracket behind them. -/
theorem readMembers_written {inner : Int32} {pad behind : JText} (hpad : Blank pad) (hbehind : Closes behind)
    (rest : JText) {left : List (JText × Value D)} (hreads : ∀ member ∈ left, Reads runtime indentFactor member.2)
    {key : JText} {value : Value D} (hreadsValue : Reads runtime indentFactor value) {read : List (JText × Value D)}
    (hkeys : ((read ++ (key, value) :: left).map Prod.fst).Nodup) (fuel : ℕ)
    (hfuel : 3 * weight (memberText runtime indentFactor inner key value
      ++ (more pad (writeMembers runtime indentFactor inner left) ++ (behind ++ unit '}' :: rest))) + 3 ≤ fuel) :
    readMembers runtime fuel read (memberText runtime indentFactor inner key value
      ++ (more pad (writeMembers runtime indentFactor inner left) ++ (behind ++ unit '}' :: rest)))
        = .ok (.object (read ++ (key, value) :: left), rest) := by
  induction left generalizing key value read fuel with
  | nil =>
    obtain ⟨fuel, rfl⟩ : ∃ f, fuel = f + 1 := ⟨fuel - 1, by omega⟩
    have hx := stops_more pad hbehind (writeMembers runtime indentFactor inner []) (unit '}') (by decide) rest
    have hkey := key_notMem hkeys
    rw [readMembers_member runtime indentFactor hreadsValue hkey inner hx fuel (by omega), writeMembers, more,
      List.flatMap_nil, List.nil_append, nextClean_blank hbehind.1, nextClean_solid (by decide)]
    rfl
  | cons member left ih =>
    obtain ⟨fuel, rfl⟩ : ∃ f, fuel = f + 1 := ⟨fuel - 1, by omega⟩
    obtain ⟨key', value'⟩ := member
    have hx := stops_more pad hbehind (writeMembers runtime indentFactor inner ((key', value') :: left)) (unit '}')
      (by decide) rest
    have hkey := key_notMem hkeys
    rw [readMembers_member runtime indentFactor hreadsValue hkey inner hx fuel (by omega)]
    have hmore : more pad (writeMembers runtime indentFactor inner ((key', value') :: left))
          ++ (behind ++ unit '}' :: rest)
        = unit ',' :: (pad ++ (memberText runtime indentFactor inner key' value'
          ++ (more pad (writeMembers runtime indentFactor inner left) ++ (behind ++ unit '}' :: rest)))) := by
      simp [writeMembers, more, memberText]
    obtain ⟨c, tail, hclean, hback, hopens⟩ := nextClean_opens (opens_memberText runtime indentFactor inner key' value')
      (more pad (writeMembers runtime indentFactor inner left) ++ (behind ++ unit '}' :: rest))
    rw [hmore, weight_append, weight_cons_of_ne (by decide), weight_append] at hfuel
    have hkeys' : ((read ++ [(key, value)] ++ (key', value') :: left).map Prod.fst).Nodup := by
      rwa [List.append_assoc]
    rw [hmore, nextClean_solid (by decide)]
    dsimp only
    rw [if_pos (.inr rfl), nextClean_blank hpad, hclean]
    dsimp only
    rw [if_neg hopens.2.2.2, hback, ih (fun m hm => hreads m (List.mem_cons_of_mem _ hm))
      (show Reads runtime indentFactor value' from hreads _ List.mem_cons_self) hkeys' fuel (by omega),
      List.append_assoc]
    rfl

/-! ## Values -/

/-- The loop of an object passes over blanks. -/
theorem readMembers_blank {pad : JText} (hpad : Blank pad) (fuel : ℕ) (members : List (JText × Value D)) (x : JText) :
    readMembers runtime fuel members (pad ++ x) = readMembers runtime fuel members x := by
  cases fuel with
  | zero => rfl
  | succ fuel => rw [readMembers, readMembers, nextClean_blank hpad]

/-- An opening bracket leads to the constructor of arrays. -/
theorem nextValue_array (indent : Int32) (items : List (Value D)) (rest : JText) (fuel : ℕ) :
    nextValue runtime (fuel + 1) (writeValue runtime indentFactor indent (.array items) ++ rest)
      = newJSONArray runtime fuel (writeValue runtime indentFactor indent (.array items) ++ rest) := by
  rw [writeValue, List.cons_append, nextValue, nextClean_solid (by decide)]
  dsimp only
  rw [if_neg (by decide), if_neg (by decide), if_pos rfl, back]

/-- An opening brace leads to the constructor of objects. -/
theorem nextValue_object (indent : Int32) (members : List (JText × Value D)) (rest : JText) (fuel : ℕ) :
    nextValue runtime (fuel + 1) (writeValue runtime indentFactor indent (.object members) ++ rest)
      = newJSONObject runtime fuel (writeValue runtime indentFactor indent (.object members) ++ rest) := by
  rw [writeValue, List.cons_append, nextValue, nextClean_solid (by decide)]
  dsimp only
  rw [if_neg (by decide), if_pos rfl, back]

/-- The constructor reads a written array, if each of its items is read. -/
theorem newJSONArray_written {items : List (Value D)} (hwell : ∀ item ∈ items, item.WellFormed runtime.Kept)
    (hreads : ∀ item ∈ items, Reads runtime indentFactor item) (indent : Int32) (rest : JText) (fuel : ℕ)
    (hfuel : 3 * weight (writeValue runtime indentFactor indent (.array items) ++ rest) + 1 ≤ fuel) :
    newJSONArray runtime fuel (writeValue runtime indentFactor indent (.array items) ++ rest)
      = .ok (.array items, rest) := by
  obtain ⟨fuel, rfl⟩ : ∃ f, fuel = f + 1 := ⟨fuel - 1, by omega⟩
  rw [writeValue, List.cons_append, weight_cons_of_ne (by decide)] at hfuel
  rw [writeValue, List.cons_append, newJSONArray, nextClean_solid (by decide)]
  dsimp only
  rw [if_pos rfl]
  cases items with
  | nil =>
    rw [writeItems, layout, List.nil_append, List.singleton_append, nextClean_solid (by decide)]
    rfl
  | cons item items =>
    set inner := innerIndent indentFactor indent (item :: items).length
    obtain ⟨pad, behind, hpad, hbehind, hlayout⟩ :=
      layout_cons indentFactor indent (writeValue runtime indentFactor inner item)
        (writeItems runtime indentFactor inner items)
    have hitem := hwell item List.mem_cons_self
    obtain ⟨c, tail, hclean, hback, hopens⟩ := nextClean_opens (opens_writeValue runtime indentFactor hitem inner)
      (more pad (writeItems runtime indentFactor inner items) ++ (behind ++ unit ']' :: rest))
    have htext : layout indentFactor indent (writeItems runtime indentFactor inner (item :: items)) ++ [unit ']']
        ++ rest = pad ++ (writeValue runtime indentFactor inner item
          ++ (more pad (writeItems runtime indentFactor inner items) ++ (behind ++ unit ']' :: rest))) := by
      rw [writeItems, hlayout]
      simp
    rw [htext, weight_append] at hfuel
    rw [htext, nextClean_blank hpad, hclean]
    dsimp only
    rw [if_neg hopens.2.2.1, hback]
    exact readItems_written runtime indentFactor hpad hbehind rest (fun v hv => hwell v (List.mem_cons_of_mem _ hv))
      (fun v hv => hreads v (List.mem_cons_of_mem _ hv)) hitem (hreads item List.mem_cons_self) [] fuel (by omega)

/-- The constructor reads a written object, if each of its values is read and no key comes twice. -/
theorem newJSONObject_written {members : List (JText × Value D)} (hkeys : (members.map Prod.fst).Nodup)
    (hreads : ∀ member ∈ members, Reads runtime indentFactor member.2) (indent : Int32) (rest : JText) (fuel : ℕ)
    (hfuel : 3 * weight (writeValue runtime indentFactor indent (.object members) ++ rest) + 1 ≤ fuel) :
    newJSONObject runtime fuel (writeValue runtime indentFactor indent (.object members) ++ rest)
      = .ok (.object members, rest) := by
  obtain ⟨fuel, rfl⟩ : ∃ f, fuel = f + 1 := ⟨fuel - 1, by omega⟩
  rw [writeValue, List.cons_append, weight_cons_of_ne (by decide)] at hfuel
  rw [writeValue, List.cons_append, newJSONObject, nextClean_solid (by decide)]
  dsimp only
  rw [if_pos rfl]
  cases members with
  | nil =>
    obtain ⟨fuel, rfl⟩ : ∃ f, fuel = f + 1 := ⟨fuel - 1, by omega⟩
    rw [writeMembers, layout, List.nil_append, List.singleton_append, readMembers, nextClean_solid (by decide)]
    rfl
  | cons member members =>
    obtain ⟨key, value⟩ := member
    set inner := innerIndent indentFactor indent ((key, value) :: members).length
    obtain ⟨pad, behind, hpad, hbehind, hlayout⟩ := layout_cons indentFactor indent
      (memberText runtime indentFactor inner key value) (writeMembers runtime indentFactor inner members)
    have htext : layout indentFactor indent (writeMembers runtime indentFactor inner ((key, value) :: members))
        ++ [unit '}'] ++ rest = pad ++ (memberText runtime indentFactor inner key value
          ++ (more pad (writeMembers runtime indentFactor inner members) ++ (behind ++ unit '}' :: rest))) := by
      rw [writeMembers, ← memberText, hlayout]
      simp
    rw [htext, weight_append] at hfuel
    rw [htext, readMembers_blank runtime hpad]
    exact readMembers_written runtime indentFactor hpad hbehind rest (fun m hm => hreads m (List.mem_cons_of_mem _ hm))
      (show Reads runtime indentFactor value from hreads _ List.mem_cons_self) hkeys fuel (by omega)

/-- A value whose text has no quotes. -/
theorem reads_bare {value : Value D} {text : JText}
    (hwrite : ∀ indent, writeValue runtime indentFactor indent value = text) (htext : Bare text)
    (hvalue : stringToValue runtime text = value) : Reads runtime indentFactor value := by
  intro indent rest fuel hrest hfuel
  obtain ⟨fuel, rfl⟩ : ∃ f, fuel = f + 1 := ⟨fuel - 1, by omega⟩
  rw [hwrite, ← hvalue]
  exact nextValue_bare runtime htext hrest fuel

/-- Every well-formed value is read from its text, by induction on the value. -/
theorem reads_of_wellFormed {value : Value D} (h : value.WellFormed runtime.Kept) :
    Reads runtime indentFactor value := by
  induction h with
  | null => exact reads_bare runtime indentFactor (fun _ => rfl) bare_null rfl
  | bool b => exact reads_bare runtime indentFactor (fun _ => rfl) (bare_bool b) (by cases b <;> rfl)
  | integer hlo hhi =>
    have hvalue := stringToValue_intToString runtime (le_trans (by decide) hlo) (lt_trans hhi (by decide))
    rw [boxed, if_pos ⟨hlo, hhi⟩] at hvalue
    exact reads_bare runtime indentFactor (fun _ => rfl) (bare_intToString _) hvalue
  | long hlo hhi hlarge =>
    have hvalue := stringToValue_intToString runtime hlo hhi
    rw [boxed, if_neg hlarge] at hvalue
    exact reads_bare runtime indentFactor (fun _ => rfl) (bare_intToString _) hvalue
  | double hd => exact reads_bare runtime indentFactor (fun _ => rfl) hd.1 hd.2
  | string s =>
    intro indent rest fuel hrest hfuel
    obtain ⟨fuel, rfl⟩ : ∃ f, fuel = f + 1 := ⟨fuel - 1, by omega⟩
    exact ⟨rest, nextValue_quote runtime s rest fuel, rfl⟩
  | array hwell ih =>
    intro indent rest fuel hrest hfuel
    obtain ⟨fuel, rfl⟩ : ∃ f, fuel = f + 1 := ⟨fuel - 1, by omega⟩
    refine ⟨rest, ?_, rfl⟩
    rw [nextValue_array, newJSONArray_written runtime indentFactor hwell ih indent rest fuel (by omega)]
  | object hkeys hwell ih =>
    intro indent rest fuel hrest hfuel
    obtain ⟨fuel, rfl⟩ : ∃ f, fuel = f + 1 := ⟨fuel - 1, by omega⟩
    refine ⟨rest, ?_, rfl⟩
    rw [nextValue_object, newJSONObject_written runtime indentFactor hkeys ih indent rest fuel (by omega)]

variable {runtime}

/-- The rounds that the constructors get are enough. -/
theorem weight_le_rounds (x : JText) : 3 * weight (x ++ []) + 1 ≤ rounds x := by
  have hle := weight_le_length x
  rw [List.append_nil, rounds]
  omega

/-- An object is read as it was written. -/
theorem parseJSONObject_written (indent : Int32) {members : List (JText × Value D)}
    (h : (Value.object members).WellFormed runtime.Kept) :
    parseJSONObject runtime (writeValue runtime indentFactor indent (.object members)) = .ok (.object members) := by
  cases h with
  | object hkeys hwell =>
    have hobject := newJSONObject_written runtime indentFactor hkeys
      (fun member hmember => reads_of_wellFormed runtime indentFactor (hwell member hmember)) indent [] _
      (weight_le_rounds _)
    rw [List.append_nil] at hobject
    rw [parseJSONObject, hobject]
    rfl

/-- An array is read as it was written. -/
theorem parseJSONArray_written (indent : Int32) {items : List (Value D)}
    (h : (Value.array items).WellFormed runtime.Kept) :
    parseJSONArray runtime (writeValue runtime indentFactor indent (.array items)) = .ok (.array items) := by
  cases h with
  | array hwell =>
    have harray := newJSONArray_written runtime indentFactor hwell
      (fun item hitem => reads_of_wellFormed runtime indentFactor (hwell item hitem)) indent [] _ (weight_le_rounds _)
    rw [List.append_nil] at harray
    rw [parseJSONArray, harray]
    rfl

/-- The text of an object or of an array is read as the object or the array, with any indentation and with the members
in the order they were written in. -/
theorem parse_write (indent : Int32) {members : List (JText × Value D)}
    (hmembers : (Value.object members).WellFormed runtime.Kept) {items : List (Value D)}
    (hitems : (Value.array items).WellFormed runtime.Kept) :
    parseJSONObject runtime (writeValue runtime indentFactor indent (.object members)) = .ok (.object members)
      ∧ parseJSONArray runtime (writeValue runtime indentFactor indent (.array items)) = .ok (.array items) :=
  ⟨parseJSONObject_written indentFactor indent hmembers, parseJSONArray_written indentFactor indent hitems⟩

end

/-- `Double`, as far as the value 1.5 goes. -/
def oneAndHalf : Runtime Unit where
  valueOf s := if s = units ['1', '.', '5'] then some () else none
  toString _ := units ['1', '.', '5']
  keys keys := keys

/-- An item of every kind. -/
def sampleItems : List (Value Unit) :=
  [.null, .bool true, .integer (-12), .long (2 ^ 31), .double (), .string (units ['<', '/', '\n']), .array [],
    .object [([], .null)]]

/-- 1.5 is kept. -/
theorem kept_oneAndHalf : oneAndHalf.Kept () := by
  have htext : numberToString oneAndHalf () = units ['1', '.', '5'] := by decide
  have hunit : ∀ c ∈ ['1', '.', '5'], BareUnit (unit c) := by
    intro c hc
    fin_cases hc <;> decide
  refine ⟨⟨htext ▸ by decide, htext ▸ fun u hu => ?_⟩, rfl⟩
  obtain ⟨c, hc, rfl⟩ := List.mem_map.mp hu
  exact hunit c hc

theorem wellFormed_sampleItems {ok : Unit → Prop} (h : ok ()) : (Value.array sampleItems).WellFormed ok := by
  refine .array fun item hitem => ?_
  fin_cases hitem
  · exact .null
  · exact .bool true
  · exact .integer (by decide) (by decide)
  · exact .long (by decide) (by decide) (by decide)
  · exact .double h
  · exact .string _
  · exact .array nofun
  · refine .object (List.nodup_singleton _) fun member hmember => ?_
    rw [List.mem_singleton.mp hmember]
    exact .null

theorem wellFormed_sampleMembers :
    (Value.object [(units ['a'], .array sampleItems), ([], .null)]).WellFormed oneAndHalf.Kept := by
  refine .object (by decide) fun member hmember => ?_
  fin_cases hmember
  · exact wellFormed_sampleItems kept_oneAndHalf
  · exact .null

/-- With an indentation of two. -/
theorem parse_write_sample :
    parseJSONObject oneAndHalf (writeValue oneAndHalf 2 0 (.object [(units ['a'], .array sampleItems), ([], .null)]))
        = .ok (.object [(units ['a'], .array sampleItems), ([], .null)])
      ∧ parseJSONArray oneAndHalf (writeValue oneAndHalf 2 0 (.array sampleItems)) = .ok (.array sampleItems) :=
  parse_write 2 0 wellFormed_sampleMembers (wellFormed_sampleItems kept_oneAndHalf)

end OrgLittle.Java.JsonText
