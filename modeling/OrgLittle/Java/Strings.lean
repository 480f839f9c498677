import OrgLittle.Java.Text

/-!
# More of `java.lang` and `java.util` for texts

What the request and command parsers use beyond `Java.Text`: `indexOf`, `trim`, `StringTokenizer`, numbers and
`Long.parseLong`.
-/

namespace OrgLittle.Java

/-! ## `String` and `Character` -/

/-- `String.indexOf` of a character; `none` stands for `-1`. -/
def indexOf (c : Char) (s : JString) : Option ℕ := s.idxOf? c

/-- `indexOf` finds the first place. -/
theorem indexOf_append {c : Char} {s : JString} (h : c ∉ s) (t : JString) :
    indexOf c (s ++ c :: t) = some s.length := by
  rw [indexOf, List.idxOf?_eq_some_iff]
  refine ⟨by simp, by simp, fun j hj heq => h ?_⟩
  rw [List.getElem_append_left hj] at heq
  exact heq ▸ List.getElem_mem hj

theorem indexOf_eq_none {c : Char} {s : JString} : indexOf c s = none ↔ c ∉ s :=
  List.idxOf?_eq_none_iff

/-- Lists are cut at the first occurrence of a value in one way only. -/
theorem append_cons_inj {α : Type*} {c : α} {s s' t t' : List α} (hs : c ∉ s) (hs' : c ∉ s')
    (h : s ++ c :: t = s' ++ c :: t') : s = s' ∧ t = t' := by
  induction s generalizing s' with
  | nil =>
    cases s' with
    | nil => exact ⟨rfl, (List.cons.inj h).2⟩
    | cons d s' => exact absurd ((List.cons.inj h).1 ▸ List.mem_cons_self) hs'
  | cons d s ih =>
    cases s' with
    | nil => exact absurd ((List.cons.inj h).1 ▸ List.mem_cons_self) hs
    | cons d' s' =>
      obtain ⟨hhead, htail⟩ := List.cons.inj h
      obtain ⟨hfirst, hrest⟩ := ih (fun hmem => hs (List.mem_cons_of_mem d hmem))
        (fun hmem => hs' (List.mem_cons_of_mem d' hmem)) htail
      exact ⟨by rw [hhead, hfirst], hrest⟩

/-- A character that `String.trim` takes away. -/
def isTrimmed (c : Char) : Bool := c.toNat ≤ 32

/-- `String.trim`. -/
def trim (s : JString) : JString := ((s.dropWhile isTrimmed).reverse.dropWhile isTrimmed).reverse

/-- `Character.isWhitespace`: the space separators that are not non-breaking, the line and paragraph
separators, and some control characters. -/
def isWhitespace (c : Char) : Bool :=
  let n := c.toNat
  (9 ≤ n && n ≤ 13) || (28 ≤ n && n ≤ 32) || n = 0x1680
    || (0x2000 ≤ n && n ≤ 0x200a && n ≠ 0x2007) || n = 0x2028 || n = 0x2029 || n = 0x205f || n = 0x3000

/-! ## `StringTokenizer` -/

/-- The tokens of `StringTokenizer(s, delim)`: the runs of characters that are no delimiters. -/
def stringTokens (delim s : JString) : List JString :=
  (s.splitOnP fun c => c ∈ delim).filter fun token => token ≠ []

section stringTokens

variable {delim : JString}

theorem stringTokens_single {s : JString} (hne : s ≠ []) (hs : ∀ c ∈ s, c ∉ delim) :
    stringTokens delim s = [s] := by
  rw [stringTokens, List.splitOnP_eq_singleton fun c hc => decide_eq_false (hs c hc)]
  simp [hne]

/-- The first token ends at the first delimiter. -/
theorem stringTokens_append {d : Char} (hd : d ∈ delim) {s : JString} (hne : s ≠ [])
    (hs : ∀ c ∈ s, c ∉ delim) (t : JString) :
    stringTokens delim (s ++ d :: t) = s :: stringTokens delim t := by
  have hsep : decide (d ∈ delim) = true := decide_eq_true hd
  rw [stringTokens, List.splitOnP_append_cons s t hsep,
    List.splitOnP_eq_singleton fun c hc => decide_eq_false (hs c hc)]
  simp [hne, stringTokens]

/-- Tokens joined by a delimiter are read back. -/
theorem stringTokens_intercalate {d : Char} (hd : d ∈ delim) {tokens : List JString}
    (hne : ∀ token ∈ tokens, token ≠ []) (htokens : ∀ token ∈ tokens, ∀ c ∈ token, c ∉ delim) :
    stringTokens delim ([d].intercalate tokens) = tokens := by
  induction tokens with
  | nil => rfl
  | cons token tokens ih =>
    have htoken := htokens token List.mem_cons_self
    have hne0 := hne token List.mem_cons_self
    cases tokens with
    | nil => rw [List.intercalate_singleton, stringTokens_single hne0 htoken]
    | cons next tokens =>
      rw [List.intercalate_cons_cons, List.append_assoc, List.singleton_append,
        stringTokens_append hd hne0 htoken,
        ih (fun x hx => hne x (List.mem_cons_of_mem token hx))
          fun x hx => htokens x (List.mem_cons_of_mem token hx)]

theorem mem_of_mem_intercalate {d c : Char} {tokens : List JString} (h : c ∈ [d].intercalate tokens) :
    c = d ∨ ∃ token ∈ tokens, c ∈ token := by
  induction tokens with
  | nil => cases h
  | cons token tokens ih =>
    cases tokens with
    | nil =>
      rw [List.intercalate_singleton] at h
      exact .inr ⟨token, List.mem_cons_self, h⟩
    | cons next tokens =>
      rw [List.intercalate_cons_cons, List.append_assoc, List.mem_append, List.mem_append,
        List.mem_singleton] at h
      rcases h with htoken | hd | hrest
      · exact .inr ⟨token, List.mem_cons_self, htoken⟩
      · exact .inl hd
      · rcases ih hrest with hd | ⟨t, ht, hc⟩
        · exact .inl hd
        · exact .inr ⟨t, List.mem_cons_of_mem token ht, hc⟩

theorem mem_intercalate_of_mem {d c : Char} {tokens : List JString} {token : JString} (htoken : token ∈ tokens)
    (hc : c ∈ token) : c ∈ [d].intercalate tokens := by
  induction tokens with
  | nil => cases htoken
  | cons first tokens ih =>
    cases tokens with
    | nil =>
      rw [List.intercalate_singleton, ← List.mem_singleton.mp htoken]
      exact hc
    | cons next tokens =>
      rw [List.intercalate_cons_cons]
      rcases List.mem_cons.mp htoken with rfl | htoken
      · exact List.mem_append_left _ (List.mem_append_left _ hc)
      · exact List.mem_append_right _ (ih htoken)

end stringTokens

/-! ## Numbers -/

/-- A number with leading zeros. -/
def digits (width v : ℕ) : JString := List.leftpad width '0' (Nat.toDigits 10 v)

theorem ofDigitChars_digits (width v : ℕ) : Nat.ofDigitChars 10 (digits width v) 0 = v := by
  rw [digits, List.leftpad, Nat.ofDigitChars_append, Nat.ofDigitChars_replicate_zero, Nat.mul_zero,
    Nat.ofDigitChars_ten_toDigits]

theorem isDigit_of_mem_toDigits {v : ℕ} {c : Char} (h : c ∈ Nat.toDigits 10 v) : c.isDigit = true :=
  Nat.isDigit_of_mem_toDigits (by decide) (by decide) h

theorem isDigit_of_mem_digits {width v : ℕ} {c : Char} (h : c ∈ digits width v) : c.isDigit = true := by
  rcases List.mem_append.mp h with hpad | hdigits
  · rw [(List.mem_replicate.mp hpad).2]
    rfl
  · exact isDigit_of_mem_toDigits hdigits

/-- Padding fills the width. -/
theorem length_digits {width v : ℕ} (hwidth : 0 < width) (hv : v < 10 ^ width) : (digits width v).length = width := by
  have hle : (Nat.toDigits 10 v).length ≤ width := (Nat.length_toDigits_le_iff (by decide) hwidth).mpr hv
  rw [digits, List.length_leftpad, Nat.max_eq_left hle]

theorem notMem_digits {width v : ℕ} {c : Char} (hc : c.isDigit = false) : c ∉ digits width v := by
  intro hmem
  rw [isDigit_of_mem_digits hmem] at hc
  cases hc

theorem intToString_of_nonneg {v : ℤ} (hv : 0 ≤ v) : intToString v = Nat.toDigits 10 v.natAbs := by
  rw [intToString, if_neg (by omega)]

theorem notMem_toDigits {v : ℕ} {c : Char} (hc : c.isDigit = false) : c ∉ Nat.toDigits 10 v := by
  intro hmem
  rw [isDigit_of_mem_toDigits hmem] at hc
  cases hc

/-! ## `Long` -/

/-- `Long.parseLong`; `none` is a `NumberFormatException`. -/
def parseLong (s : JString) : Option ℤ :=
  (parseSigned s).filter fun n => -2 ^ 63 ≤ n ∧ n < 2 ^ 63

theorem parseLong_toDigits {n : ℕ} (h : n < 2 ^ 63) : parseLong (Nat.toDigits 10 n) = some (n : ℤ) := by
  rw [parseLong, parseSigned_of_parseDigits (parseDigits_toDigits n), Option.filter_some,
    if_pos (decide_eq_true ⟨by omega, by omega⟩)]

/-- A text with a character that is neither a digit nor a sign is no number. -/
theorem parseLong_eq_none {s : JString} {c : Char} (hmem : c ∈ s) (hdigit : c.isDigit = false)
    (hplus : c ≠ '+') (hminus : c ≠ '-') : parseLong s = none := by
  have hnot (ds : JString) (hc : c ∈ ds) : parseDigits ds = none := by
    rw [parseDigits, if_neg]
    rintro ⟨-, hall⟩
    rw [List.all_eq_true] at hall
    exact absurd (hall c hc) (by simp [hdigit])
  have hsigned : parseSigned s = none := by
    unfold parseSigned
    split
    · rw [hnot _ (List.mem_of_ne_of_mem hminus hmem), Option.map_none]
    · rw [hnot _ (List.mem_of_ne_of_mem hplus hmem), Option.map_none]
    · rw [hnot _ hmem, Option.map_none]
  rw [parseLong, hsigned, Option.filter_none]

/-! ## Arrays -/

/-- The front of an array behind which `bytes` are stored. -/
theorem take_stored {α : Type*} {value bytes : List α} {count : ℕ} (h : count ≤ value.length) :
    (value.take count ++ bytes ++ value.drop (count + bytes.length)).take (count + bytes.length)
      = value.take count ++ bytes := by
  have hlength : (value.take count ++ bytes).length = count + bytes.length := by
    rw [List.length_append, List.length_take, Nat.min_eq_left h]
  rw [← hlength, List.take_left]

/-- Writing over a part of an array leaves its length. -/
theorem length_stored {α : Type*} {value bytes : List α} {count : ℕ} (h : count + bytes.length ≤ value.length) :
    (value.take count ++ bytes ++ value.drop (count + bytes.length)).length = value.length := by
  rw [List.length_append, List.length_append, List.length_take, List.length_drop]
  omega

end OrgLittle.Java
