import OrgLittle.Lib.Glob
import OrgLittle.Util.StringWildCard

/-!
# What a mask stands for

`wildcardMatch` keeps its place in the mask, its place in the text and a flag that a `*` was read. Such a place
accepts the rest of the text if the rest of the mask, as a settled glob, matches it (`Accepts`); one try and the
stack that it leaves accept just what its place accepted (`scan_accepts_iff`). So the search with its stack is
exact, for the mask in which a `*` before a `?` is of no effect (`matchesMask_eq_true_iff`).
-/

namespace OrgLittle.Util

open OrgLittle.Java OrgLittle.Lib OrgLittle.Lib.Glob

namespace StringCase

/-- The `char`s that are the same in a comparison. -/
def same : StringCase → UInt16 → UInt16 → Prop
  | .SENSITIVE => (· = ·)
  | .INSENSITIVE => fun c d => foldUnit c = foldUnit d

/-- The region matches if its units are the same as those searched for, in the sense of `case`. -/
theorem checkRegionMatches_iff (case : StringCase) (str : JText) (i : ℕ) (search : JText) :
    case.checkRegionMatches str i search = true
      ↔ List.Forall₂ case.same ((str.drop i).take search.length) search := by
  unfold checkRegionMatches same
  match case with
  | .SENSITIVE => simp
  | .INSENSITIVE =>
    simp only [decide_eq_true_eq]
    rw [← List.forall₂_eq_eq_eq, List.forall₂_map_left_iff, List.forall₂_map_right_iff]

/-- A region that matches lies in the text. -/
theorem length_le_of_checkRegionMatches {case : StringCase} {str search : JText} {i : ℕ} (hsearch : search ≠ [])
    (h : case.checkRegionMatches str i search = true) : i + search.length ≤ str.length := by
  have hpos := List.length_pos_iff.mpr hsearch
  have hlen := ((checkRegionMatches_iff case str i search).mp h).length_eq
  rw [List.length_take, List.length_drop] at hlen
  omega

/-- Where nothing is found, no region matches. -/
theorem checkIndexOf_eq_none {case : StringCase} {str search : JText} {start : ℕ} (hsearch : search ≠ [])
    (h : case.checkIndexOf str start search = none) {i : ℕ} (hi : start ≤ i) :
    ¬ case.checkRegionMatches str i search = true := by
  intro hmatch
  have hlen := length_le_of_checkRegionMatches hsearch hmatch
  have hall := List.find?_eq_none.mp h i (List.mem_range.mpr (by omega))
  simp [hi, hmatch] at hall

/-- Where something is found, the region matches. -/
theorem checkRegionMatches_of_checkIndexOf {case : StringCase} {str search : JText} {start i : ℕ}
    (h : case.checkIndexOf str start search = some i) : case.checkRegionMatches str i search = true := by
  have hfound := List.find?_some h
  exact (of_decide_eq_true hfound).2

/-- `checkIndexOf` finds the first place. -/
theorem le_of_checkIndexOf {case : StringCase} {str search : JText} {start i : ℕ} (hsearch : search ≠ [])
    (h : case.checkIndexOf str start search = some i) {j : ℕ} (hj : start ≤ j)
    (hmatch : case.checkRegionMatches str j search = true) : i ≤ j := by
  obtain ⟨-, before, after, hsplit, hbefore⟩ := List.find?_eq_some_iff_append.mp h
  have hlen := length_le_of_checkRegionMatches hsearch hmatch
  have hmem : j ∈ before ++ i :: after := hsplit ▸ List.mem_range.mpr (by omega)
  have hsorted : (before ++ i :: after).Pairwise (· < ·) := hsplit ▸ List.pairwise_lt_range
  rcases List.mem_append.mp hmem with hj' | hj'
  · have hnot := hbefore j hj'
    simp [hj, hmatch] at hnot
  · obtain rfl | hj' := List.mem_cons.mp hj'
    · exact le_rfl
    · exact ((List.pairwise_cons.mp (List.pairwise_append.mp hsorted).2.1).1 j hj').le

end StringCase

namespace StringWildCard

/-! ## Tokens and marks -/

/-- The mark of a character of a mask. -/
def mark (c : UInt16) : Mark UInt16 := if c = unit '?' then .one else if c = unit '*' then .many else .lit c

/-- The glob that a mask is written for. -/
def glob (mask : JText) : List (Mark UInt16) := mask.map mark

/-- Every other unit stands for itself. -/
theorem mark_letter {c : UInt16} (hc : ¬ (c = unit '?' ∨ c = unit '*')) : mark c = .lit c := by
  obtain ⟨hone, hmany⟩ := not_or.mp hc
  rw [mark, if_neg hone, if_neg hmany]

@[simp] theorem glob_nil : glob [] = [] := rfl

@[simp] theorem glob_cons (c : UInt16) (mask : JText) : glob (c :: mask) = mark c :: glob mask := rfl

/-- A text without wildcards is a run of letters. -/
theorem glob_text {w : JText} (hw : unit '?' ∉ w ∧ unit '*' ∉ w) : glob w = w.map .lit := by
  refine List.map_congr_left fun c hc => mark_letter ?_
  rintro (rfl | rfl)
  · exact hw.1 hc
  · exact hw.2 hc

/-- The marks of a token. -/
def tokenGlob (token : JText) : List (Mark UInt16) :=
  if token = anyChar then [.one] else if token = anyText then [.many] else token.map .lit

/-- A token without wildcards stands for itself. -/
theorem tokenGlob_of_text {w : JText} (hw : unit '?' ∉ w ∧ unit '*' ∉ w) : tokenGlob w = w.map .lit := by
  rw [tokenGlob, if_neg, if_neg]
  · rintro rfl
    exact hw.2 (List.mem_singleton_self _)
  · rintro rfl
    exact hw.1 (List.mem_singleton_self _)

/-- The marks of a list of tokens. -/
def tokensGlob (tokens : List JText) : List (Mark UInt16) := tokens.flatMap tokenGlob

@[simp] theorem tokensGlob_nil : tokensGlob [] = [] := rfl

@[simp] theorem tokensGlob_cons (w : JText) (wcs : List JText) :
    tokensGlob (w :: wcs) = tokenGlob w ++ tokensGlob wcs := rfl

@[simp] theorem tokensGlob_concat (wcs : List JText) (w : JText) :
    tokensGlob (wcs ++ [w]) = tokensGlob wcs ++ tokenGlob w := by
  rw [tokensGlob, List.flatMap_append, List.flatMap_singleton, tokensGlob]

/-! ## The tokens say what the mask says -/

/-- The tokens when the buffer ends. -/
def flush (list : List JText) (buffer : JText) : List JText :=
  if buffer = [] then list else list ++ [buffer]

theorem splitLoop_nil (list : List JText) (buffer : JText) : splitLoop list buffer [] = flush list buffer := rfl

/-- `?` ends the text before it and is a token of its own. -/
theorem splitLoop_one (list : List JText) (buffer text : JText) :
    splitLoop list buffer (unit '?' :: text) = splitLoop (flush list buffer ++ [anyChar]) [] text := rfl

/-- `*` does so too, but a second one next to it is dropped. -/
theorem splitLoop_many (list : List JText) (buffer text : JText) :
    splitLoop list buffer (unit '*' :: text)
      = if (flush list buffer).getLast? = some anyText then splitLoop (flush list buffer) [] text
        else splitLoop (flush list buffer ++ [anyText]) [] text := rfl

/-- Any other letter is gathered. -/
theorem splitLoop_letter (list : List JText) (buffer text : JText) {c : UInt16} (hc : ¬ (c = unit '?' ∨ c = unit '*')) :
    splitLoop list buffer (c :: text) = splitLoop list (buffer ++ [c]) text := by
  rw [splitLoop, if_neg hc]

/-- The text in the buffer becomes a token. -/
theorem tokensGlob_flush (list : List JText) {buffer : JText} (hb : unit '?' ∉ buffer ∧ unit '*' ∉ buffer) :
    tokensGlob (flush list buffer) = tokensGlob list ++ buffer.map .lit := by
  unfold flush
  split_ifs with hnil
  · rw [hnil, List.map_nil, List.append_nil]
  · rw [tokensGlob_concat, tokenGlob_of_text hb]

/-- No token is empty. -/
theorem nil_notMem_flush {list : List JText} (hlist : [] ∉ list) (buffer : JText) : [] ∉ flush list buffer := by
  unfold flush
  split_ifs with hnil
  · exact hlist
  · simp [hlist, Ne.symm hnil]

/-- What stands before two globs that are settled alike makes no difference. -/
theorem settle_append_congr {g g' : List (Mark UInt16)} (h : settle g = settle g') (before : List (Mark UInt16)) :
    settle (before ++ g) = settle (before ++ g') := by
  induction before with
  | nil => exact h
  | cons m before ih =>
    match m with
    | .lit c => exact congrArg (Mark.lit c :: ·) ih
    | .one => exact congrArg (Mark.one :: ·) ih
    | .many => exact congrArg passing ih

/-- The tokens say what the mask says, by induction on the mask. -/
theorem settle_tokensGlob_splitLoop (list : List JText) (buffer text : JText)
    (hb : unit '?' ∉ buffer ∧ unit '*' ∉ buffer) :
    settle (tokensGlob (splitLoop list buffer text)) = settle (tokensGlob list ++ buffer.map .lit ++ glob text) := by
  induction text generalizing list buffer with
  | nil => rw [splitLoop_nil, tokensGlob_flush list hb, glob_nil, List.append_nil]
  | cons c text ih =>
    have hnil : unit '?' ∉ ([] : JText) ∧ unit '*' ∉ ([] : JText) := by simp
    by_cases hwild : c = unit '?' ∨ c = unit '*'
    · rw [← tokensGlob_flush list hb]
      obtain rfl | rfl := hwild
      · rw [splitLoop_one, ih _ _ hnil, tokensGlob_concat, List.map_nil, List.append_nil, List.append_assoc]
        rfl
      · rw [splitLoop_many]
        split_ifs with hlast
        · -- a second `*` adds no token
          obtain ⟨before, hbefore⟩ := List.getLast?_eq_some_iff.mp hlast
          rw [ih _ _ hnil, hbefore, tokensGlob_concat, List.map_nil, List.append_nil, List.append_assoc,
            List.append_assoc]
          exact (settle_append_congr (settle_many_many (glob text)) _).symm
        · rw [ih _ _ hnil, tokensGlob_concat, List.map_nil, List.append_nil, List.append_assoc]
          rfl
    · have hb' : unit '?' ∉ buffer ++ [c] ∧ unit '*' ∉ buffer ++ [c] := by
        rw [not_or] at hwild
        simp [hb, Ne.symm hwild.1, Ne.symm hwild.2]
      rw [splitLoop_letter _ _ _ hwild, ih _ _ hb', glob_cons, mark_letter hwild]
      simp

/-- The tokens of a mask are settled as the mask is. -/
theorem settle_splitOnTokens (mask : JText) : settle (tokensGlob (splitOnTokens mask)) = settle (glob mask) := by
  unfold splitOnTokens
  split_ifs with hplain
  · rw [tokensGlob_cons, tokensGlob_nil, List.append_nil, tokenGlob_of_text hplain, glob_text hplain]
  · rw [settle_tokensGlob_splitLoop [] [] mask (by simp)]
    rfl

/-- No token of a mask is empty. -/
theorem nil_notMem_splitLoop {list : List JText} (hlist : [] ∉ list) (buffer text : JText) :
    [] ∉ splitLoop list buffer text := by
  induction text generalizing list buffer with
  | nil => exact nil_notMem_flush hlist buffer
  | cons c text ih =>
    by_cases hwild : c = unit '?' ∨ c = unit '*'
    · have hflush := nil_notMem_flush hlist buffer
      obtain rfl | rfl := hwild
      · rw [splitLoop_one]
        exact ih (by simp [hflush, anyChar]) []
      · rw [splitLoop_many]
        split_ifs
        · exact ih hflush []
        · exact ih (by simp [hflush, anyText]) []
    · rw [splitLoop_letter _ _ _ hwild]
      exact ih hlist _

/-- Only the empty mask has an empty token. -/
theorem nil_notMem_splitOnTokens {mask : JText} (hmask : mask ≠ []) : [] ∉ splitOnTokens mask := by
  unfold splitOnTokens
  split_ifs
  · simp [Ne.symm hmask]
  · exact nil_notMem_splitLoop (by simp) [] mask

/-! ## A try and its stack -/

/-- The glob that is left at a place: a `*` that was read stands before the tokens that are left. -/
def leftGlob (wcs : List JText) (anyChars : Bool) : List (Mark UInt16) :=
  settle (if anyChars then .many :: tokensGlob wcs else tokensGlob wcs)

/-- The text behind a place matches the tokens that are left. -/
def Accepts (case : StringCase) (filename : JText) (wcs : List JText) (textIdx : ℕ) (anyChars : Bool) : Prop :=
  Matches case.same (leftGlob wcs anyChars) (filename.drop textIdx)

/-- Some place of the stack accepts the text. -/
def StackAccepts (case : StringCase) (filename : JText) (backtrack : List Place) : Prop :=
  ∃ p ∈ backtrack, Accepts case filename p.1 p.2 true

/-- What holds of every place that the search comes to. -/
structure GoodPlace (filename : JText) (wcs : List JText) (textIdx : ℕ) (anyChars : Bool) : Prop where
  texts : [] ∉ wcs
  inside : textIdx ≤ filename.length
  done : anyChars = true → wcs = [] → textIdx = filename.length

/-- The places of a stack are good. -/
def GoodStack (filename : JText) (backtrack : List Place) : Prop :=
  ∀ p ∈ backtrack, GoodPlace filename p.1 p.2 true

section Places

variable {case : StringCase} {filename : JText} {wcs : List JText} {textIdx : ℕ} {anyChars : Bool}

/-- What is left of a mask that goes on with `?`. -/
theorem leftGlob_one (wcs : List JText) (anyChars : Bool) :
    leftGlob (anyChar :: wcs) anyChars = .one :: leftGlob wcs false := by
  cases anyChars <;> rfl

/-- What is left of a mask that goes on with `*`. -/
theorem leftGlob_many (wcs : List JText) (anyChars : Bool) :
    leftGlob (anyText :: wcs) anyChars = leftGlob wcs true := by
  match anyChars with
  | true => exact settle_many_many (tokensGlob wcs)
  | false => rfl

/-- A text that must come next. -/
theorem leftGlob_text {w : JText} (hone : w ≠ anyChar) (hmany : w ≠ anyText) (wcs : List JText) :
    leftGlob (w :: wcs) false = w.map .lit ++ leftGlob wcs false := by
  simp only [leftGlob, tokensGlob_cons, tokenGlob, if_neg hone, if_neg hmany, Bool.false_eq_true, if_false,
    settle_text]

/-- A text that may come anywhere behind. -/
theorem leftGlob_search {w : JText} (hw : w ≠ []) (hone : w ≠ anyChar) (hmany : w ≠ anyText)
    (wcs : List JText) : leftGlob (w :: wcs) true = .many :: (w.map .lit ++ leftGlob wcs false) := by
  simp only [leftGlob, tokensGlob_cons, tokenGlob, if_neg hone, if_neg hmany, Bool.false_eq_true, if_false, if_true,
    settle_many_text hw]

/-- At the end of the mask the name must be at its end. -/
theorem accepts_nil_iff (hgood : GoodPlace filename [] textIdx anyChars) :
    Accepts case filename [] textIdx anyChars ↔ textIdx = filename.length := by
  have hinside := hgood.inside
  match anyChars with
  | true => exact iff_of_true (matches_many_nil _) (hgood.done rfl rfl)
  | false =>
    unfold Accepts leftGlob
    rw [if_neg Bool.false_ne_true, tokensGlob_nil, settle_nil, matches_nil_iff, List.drop_eq_nil_iff]
    omega

/-- `?` takes one unit. -/
theorem accepts_one_iff :
    Accepts case filename (anyChar :: wcs) textIdx anyChars
      ↔ textIdx < filename.length ∧ Accepts case filename wcs (textIdx + 1) false := by
  unfold Accepts
  rw [leftGlob_one, matches_one_iff]
  constructor
  · rintro ⟨d, t, hdrop, h⟩
    have hlt : textIdx < filename.length := by
      rw [← List.drop_eq_nil_iff.not.trans not_le, hdrop]
      exact List.cons_ne_nil d t
    rw [List.drop_eq_getElem_cons hlt, List.cons.injEq] at hdrop
    exact ⟨hlt, hdrop.2 ▸ h⟩
  · rintro ⟨hlt, h⟩
    exact ⟨_, _, List.drop_eq_getElem_cons hlt, h⟩

/-- `*` goes on wherever what follows it can be found. -/
theorem accepts_many_iff :
    Accepts case filename (anyText :: wcs) textIdx anyChars
      ↔ Accepts case filename wcs (if wcs = [] then filename.length else textIdx) true := by
  unfold Accepts
  rw [leftGlob_many]
  split_ifs with hwcs
  · rw [hwcs]
    exact iff_of_true (matches_many_nil _) (matches_many_nil _)
  · rfl

/-- A text must be in its place. -/
theorem accepts_text_iff {w : JText} (hone : w ≠ anyChar) (hmany : w ≠ anyText) :
    Accepts case filename (w :: wcs) textIdx false
      ↔ case.checkRegionMatches filename textIdx w = true ∧ Accepts case filename wcs (textIdx + w.length) false := by
  unfold Accepts
  rw [leftGlob_text hone hmany, matches_text_iff, List.drop_drop, StringCase.checkRegionMatches_iff]

/-- A text behind `*` may be in any place. -/
theorem accepts_search_iff {w : JText} (hw : w ≠ []) (hone : w ≠ anyChar) (hmany : w ≠ anyText) :
    Accepts case filename (w :: wcs) textIdx true
      ↔ ∃ i, textIdx ≤ i ∧ case.checkRegionMatches filename i w = true
          ∧ Accepts case filename wcs (i + w.length) false := by
  unfold Accepts
  rw [leftGlob_search hw hone hmany, matches_many_iff]
  simp only [matches_text_iff, List.drop_drop, StringCase.checkRegionMatches_iff]
  constructor
  · rintro ⟨k, h⟩
    exact ⟨textIdx + k, Nat.le_add_right _ _, h⟩
  · rintro ⟨i, hi, h⟩
    obtain ⟨k, rfl⟩ := Nat.exists_eq_add_of_le hi
    exact ⟨k, h⟩

/-- Behind a `*`, a text stands at its first place or at a later one. -/
theorem accepts_search_first {w : JText} (hw : w ≠ []) (hone : w ≠ anyChar) (hmany : w ≠ anyText) {found : ℕ}
    (hfound : case.checkIndexOf filename textIdx w = some found) :
    Accepts case filename (w :: wcs) textIdx true
      ↔ Accepts case filename wcs (found + w.length) false ∨ Accepts case filename (w :: wcs) (found + 1) true := by
  have hmatch := StringCase.checkRegionMatches_of_checkIndexOf hfound
  have hstart := (StringCase.checkIndexOf_bounds hfound).1
  rw [accepts_search_iff hw hone hmany, accepts_search_iff hw hone hmany]
  constructor
  · rintro ⟨i, hi, hi', h⟩
    obtain rfl | hlt := (StringCase.le_of_checkIndexOf hw hfound hi hi').eq_or_lt
    · exact .inl h
    · exact .inr ⟨i, hlt, hi', h⟩
  · rintro (h | ⟨i, hi, hi', h⟩)
    · exact ⟨found, hstart, hmatch, h⟩
    · exact ⟨i, by omega, hi', h⟩

/-- A search may begin at the first place of its text. -/
theorem accepts_search_from {w : JText} (hw : w ≠ []) (hone : w ≠ anyChar) (hmany : w ≠ anyText) {found : ℕ}
    (hfound : case.checkIndexOf filename textIdx w = some found) :
    Accepts case filename (w :: wcs) textIdx true ↔ Accepts case filename (w :: wcs) found true := by
  have hstart := (StringCase.checkIndexOf_bounds hfound).1
  rw [accepts_search_iff hw hone hmany, accepts_search_iff hw hone hmany]
  constructor
  · rintro ⟨i, hi, hi', h⟩
    exact ⟨i, StringCase.le_of_checkIndexOf hw hfound hi hi', hi', h⟩
  · rintro ⟨i, hi, hi', h⟩
    exact ⟨i, hstart.trans hi, hi', h⟩

/-- A text that is not found anywhere cannot be there. -/
theorem not_accepts_search {w : JText} (hw : w ≠ []) (hone : w ≠ anyChar) (hmany : w ≠ anyText)
    (hfound : case.checkIndexOf filename textIdx w = none) :
    ¬ Accepts case filename (w :: wcs) textIdx true := by
  rw [accepts_search_iff hw hone hmany]
  rintro ⟨i, hi, hi', -⟩
  exact StringCase.checkIndexOf_eq_none hw hfound hi hi'

@[simp] theorem stackAccepts_nil : ¬ StackAccepts case filename [] := by
  rintro ⟨p, hp, -⟩
  exact List.not_mem_nil hp

@[simp] theorem stackAccepts_cons (p : Place) (backtrack : List Place) :
    StackAccepts case filename (p :: backtrack)
      ↔ Accepts case filename p.1 p.2 true ∨ StackAccepts case filename backtrack := by
  simp [StackAccepts]

/-- What a try leaves: it came to the end of the text, or one of the places that it stacked accepts. -/
theorem scan_accepts_iff (hgood : GoodPlace filename wcs textIdx anyChars) {backtrack : List Place} :
    ((scan case filename wcs textIdx anyChars backtrack).1 = some filename.length
        ∨ StackAccepts case filename (scan case filename wcs textIdx anyChars backtrack).2)
      ↔ Accepts case filename wcs textIdx anyChars ∨ StackAccepts case filename backtrack := by
  induction wcs generalizing textIdx anyChars backtrack with
  | nil => rw [scan, accepts_nil_iff hgood, Option.some_inj]
  | cons w wcs ih =>
    obtain ⟨htexts, hinside, -⟩ := hgood
    obtain ⟨hw, htexts⟩ := not_or.mp (List.mem_cons.not.mp htexts)
    rw [scan]
    split_ifs with hone hend hmany hlast hany hmatch
    · simp only [false_or]
      rw [hone, accepts_one_iff, or_iff_right (fun h => by omega)]
    · rw [ih ⟨htexts, by omega, by simp⟩, hone, accepts_one_iff, and_iff_right (by omega)]
    · rw [ih ⟨htexts, le_rfl, fun _ _ => rfl⟩, hmany, accepts_many_iff, if_pos hlast]
    · rw [ih ⟨htexts, hinside, fun _ hnil => absurd hnil hlast⟩, hmany, accepts_many_iff, if_neg hlast]
    · rw [hany]
      split
      · next hfound =>
        simp only [reduceCtorEq, false_or]
        rw [or_iff_right (not_accepts_search (Ne.symm hw) hone hmany hfound)]
      · next found hfound =>
        have hlen := StringCase.length_le_of_checkRegionMatches (Ne.symm hw)
          (StringCase.checkRegionMatches_of_checkIndexOf hfound)
        have hplace : GoodPlace filename wcs (found + w.length) false := ⟨htexts, hlen, by simp⟩
        rw [accepts_search_first (Ne.symm hw) hone hmany hfound]
        split
        · next hnone =>
          rw [ih hplace, or_iff_left (not_accepts_search (Ne.symm hw) hone hmany hnone)]
        · next again hagain =>
          rw [ih hplace, stackAccepts_cons, accepts_search_from (Ne.symm hw) hone hmany hagain, or_assoc]
    · rw [Bool.not_eq_true] at hany
      have hlen := StringCase.length_le_of_checkRegionMatches (Ne.symm hw) hmatch
      rw [ih ⟨htexts, hlen, by simp⟩, hany, accepts_text_iff hone hmany, and_iff_right hmatch]
    · rw [Bool.not_eq_true] at hany
      simp only [false_or]
      rw [hany, accepts_text_iff hone hmany, or_iff_right (fun h => hmatch h.1)]

variable (case) in
/-- The scan pushes good places only. -/
theorem goodStack_scan (hgood : GoodPlace filename wcs textIdx anyChars) {backtrack : List Place}
    (hstack : GoodStack filename backtrack) :
    GoodStack filename (scan case filename wcs textIdx anyChars backtrack).2 := by
  induction wcs generalizing textIdx anyChars backtrack with
  | nil => exact hstack
  | cons w wcs ih =>
    obtain ⟨htexts, hinside, -⟩ := hgood
    obtain ⟨hw, htexts'⟩ := not_or.mp (List.mem_cons.not.mp htexts)
    rw [scan]
    split_ifs with hone hend hmany hlast hany hmatch
    · exact hstack
    · exact ih ⟨htexts', by omega, by simp⟩ hstack
    · exact ih ⟨htexts', le_rfl, fun _ _ => rfl⟩ hstack
    · exact ih ⟨htexts', hinside, fun _ hnil => absurd hnil hlast⟩ hstack
    · split
      · exact hstack
      · next found hfound =>
        have hlen := StringCase.length_le_of_checkRegionMatches (Ne.symm hw)
          (StringCase.checkRegionMatches_of_checkIndexOf hfound)
        split
        · exact ih ⟨htexts', hlen, by simp⟩ hstack
        · next again hagain =>
          refine ih ⟨htexts', hlen, by simp⟩ (List.forall_mem_cons.mpr ⟨?_, hstack⟩)
          exact ⟨htexts, (StringCase.checkIndexOf_bounds hagain).2, fun _ hnil => absurd hnil (List.cons_ne_nil w wcs)⟩
    · exact ih ⟨htexts', StringCase.length_le_of_checkRegionMatches (Ne.symm hw) hmatch, by simp⟩ hstack
    · exact hstack

end Places

/-! ## The search -/

/-- Without a place to go back to, the answer is no. -/
theorem backtrackLoop_of_empty {case : StringCase} {filename : JText} {wcs : List JText} {textIdx : ℕ}
    {anyChars : Bool} {backtrack : List Place}
    (hfound : ¬ (scan case filename wcs textIdx anyChars backtrack).1 = some filename.length)
    (hempty : (scan case filename wcs textIdx anyChars backtrack).2 = []) :
    backtrackLoop case filename wcs textIdx anyChars backtrack = false := by
  rw [backtrackLoop, if_neg hfound]
  split
  · rfl
  · next hcons =>
    rw [hempty] at hcons
    exact absurd hcons.symm (List.cons_ne_nil _ _)

/-- With a place to go back to, the scan goes on from the one that was pushed last. -/
theorem backtrackLoop_of_cons {case : StringCase} {filename : JText} {wcs wcs' : List JText} {textIdx textIdx' : ℕ}
    {anyChars : Bool} {backtrack backtrack' : List Place}
    (hfound : ¬ (scan case filename wcs textIdx anyChars backtrack).1 = some filename.length)
    (hpop : (scan case filename wcs textIdx anyChars backtrack).2 = (wcs', textIdx') :: backtrack') :
    backtrackLoop case filename wcs textIdx anyChars backtrack
      = backtrackLoop case filename wcs' textIdx' true backtrack' := by
  rw [backtrackLoop, if_neg hfound]
  split
  · next hnil =>
    rw [hpop] at hnil
    exact absurd hnil (List.cons_ne_nil _ _)
  · next hcons =>
    rw [hpop] at hcons
    cases hcons
    rfl

/-- The search finds a match exactly if its place or a place on its stack accepts the text. -/
theorem backtrackLoop_eq_true_iff {case : StringCase} {filename : JText} {wcs : List JText} {textIdx : ℕ}
    {anyChars : Bool} {backtrack : List Place} (hgood : GoodPlace filename wcs textIdx anyChars)
    (hstack : GoodStack filename backtrack) :
    backtrackLoop case filename wcs textIdx anyChars backtrack = true
      ↔ Accepts case filename wcs textIdx anyChars ∨ StackAccepts case filename backtrack := by
  induction wcs, textIdx, anyChars, backtrack using backtrackLoop.induct case filename with
  | case1 wcs textIdx anyChars backtrack hfound =>
    rw [backtrackLoop, if_pos hfound, ← scan_accepts_iff hgood]
    exact iff_of_true rfl (.inl hfound)
  | case2 wcs textIdx anyChars backtrack hfound hempty =>
    rw [backtrackLoop_of_empty hfound hempty, ← scan_accepts_iff hgood, hempty]
    simp [hfound]
  | case3 wcs textIdx anyChars backtrack hfound wcs' textIdx' backtrack' hpop ih =>
    have hleft := goodStack_scan case hgood hstack
    rw [hpop, GoodStack, List.forall_mem_cons] at hleft
    rw [backtrackLoop_of_cons hfound hpop, ih hleft.1 hleft.2, ← scan_accepts_iff hgood, hpop, stackAccepts_cons,
      or_iff_right hfound]

/-- The empty mask has one token, which is empty. -/
theorem backtrackLoop_empty (filename : JText) (case : StringCase) :
    backtrackLoop case filename (splitOnTokens []) 0 false [] = true ↔ filename = [] := by
  have hmatch : case.checkRegionMatches filename 0 [] = true :=
    (StringCase.checkRegionMatches_iff case filename 0 []).mpr (by simp)
  have hscan : scan case filename (splitOnTokens []) 0 false [] = (some 0, []) := by
    simp [splitOnTokens, scan, anyChar, anyText, hmatch]
  by_cases hname : filename = []
  · subst hname
    rw [backtrackLoop, hscan]
    simp
  · rw [backtrackLoop_of_empty (by simp [hscan, eq_comm, hname]) (by rw [hscan])]
    simp [hname]

/-- `wildcardMatch` for texts that are not `null`, in terms of globs. -/
theorem matchesMask_eq_true_iff (filename mask : JText) (case : StringCase) :
    matchesMask filename mask case = true ↔ Matches case.same (settle (glob mask)) filename := by
  unfold matchesMask
  split_ifs with hany
  · rw [hany]
    exact iff_of_true rfl (matches_many_nil filename)
  · by_cases hmask : mask = []
    · rw [hmask, glob_nil, settle_nil, matches_nil_iff]
      exact backtrackLoop_empty filename case
    · have hgood : GoodPlace filename (splitOnTokens mask) 0 false :=
        ⟨nil_notMem_splitOnTokens hmask, Nat.zero_le _, by simp⟩
      rw [backtrackLoop_eq_true_iff hgood (by simp [GoodStack]), or_iff_left stackAccepts_nil, ← settle_splitOnTokens]
      rfl

/-- A mask matches the texts of its glob, where a `*` is of no effect if it stands directly before a `?`. -/
theorem wildcardMatch_eq_true_iff (filename mask : Option JText) (case : StringCase) :
    wildcardMatch filename mask case = true
      ↔ (filename = none ∧ mask = none)
        ∨ ∃ name text, filename = some name ∧ mask = some text
            ∧ Matches case.same (settle (glob text)) name := by
  cases filename <;> cases mask <;> simp [wildcardMatch, matchesMask_eq_true_iff]

theorem mark_eq_one {c : UInt16} (h : mark c = .one) : c = unit '?' := by
  unfold mark at h
  split_ifs at h with hone
  exact hone

theorem mark_eq_many {c : UInt16} (h : mark c = .many) : c = unit '*' := by
  unfold mark at h
  split_ifs at h with hone hmany
  exact hmany

/-- "Any text" before "any one letter" comes from a `*` before a `?`. -/
theorem infix_of_infix_glob {mask : JText} (h : [Mark.many, Mark.one] <:+: glob mask) :
    [unit '*', unit '?'] <:+: mask := by
  obtain ⟨pair, hpair, hmarks⟩ := List.infix_map_iff.mp h
  obtain ⟨c, rest, rfl, hc, hrest⟩ := List.map_eq_cons_iff.mp hmarks.symm
  obtain ⟨d, rest', rfl, hd, hnil⟩ := List.map_eq_cons_iff.mp hrest
  rwa [List.map_eq_nil_iff.mp hnil, mark_eq_many hc, mark_eq_one hd] at hpair

/-- A mask never matches more than it is written for, and just that if no `*` stands directly before a `?`. -/
theorem matchesMask_sound_complete (filename mask : JText) (case : StringCase) :
    (matchesMask filename mask case = true → Matches case.same (glob mask) filename)
      ∧ (¬ [unit '*', unit '?'] <:+: mask → Matches case.same (glob mask) filename →
        matchesMask filename mask case = true) := by
  rw [matchesMask_eq_true_iff]
  exact ⟨.of_settle, fun hmask => (matches_settle_iff fun h => hmask (infix_of_infix_glob h)).mpr⟩

end StringWildCard

end OrgLittle.Util
