import OrgLittle.Java.LetterCase

/-!
# `stringWildCard.wildcardMatch`

A mask is cut into texts, `?` and `*`. The search goes by UTF-16 units, so a `?` stands for one of them. The tokens are
matched from left to right; after a `*` the next text is taken at its first place, and the place after that is kept on
a stack for a later try. The tries end because each one leaves only later places of its token and places of the tokens
behind it (`stackWeight_scan_lt`).
-/

namespace OrgLittle.Util

open OrgLittle.Java

/-! ## `stringCase` -/

/-- `stringCase`. -/
inductive StringCase
  | SENSITIVE | INSENSITIVE
deriving DecidableEq

namespace StringCase

/-- `checkRegionMatches`. -/
def checkRegionMatches (case : StringCase) (str : JText) (i : ℕ) (search : JText) : Bool :=
  let region := (str.drop i).take search.length
  match case with
  | .SENSITIVE => region = search
  | .INSENSITIVE => region.map foldUnit = search.map foldUnit

/-- `checkIndexOf`; `none` is -1. -/
def checkIndexOf (case : StringCase) (str : JText) (start : ℕ) (search : JText) : Option ℕ :=
  (List.range (str.length + 1 - search.length)).find? fun i =>
    start ≤ i ∧ case.checkRegionMatches str i search

theorem checkIndexOf_bounds {case : StringCase} {str search : JText} {start i : ℕ}
    (h : case.checkIndexOf str start search = some i) : start ≤ i ∧ i ≤ str.length := by
  have hmem := List.mem_range.mp (List.mem_of_find?_eq_some h)
  have hfound := List.find?_some h
  exact ⟨(of_decide_eq_true hfound).1, by omega⟩

end StringCase

/-! ## `stringWildCard` -/

namespace StringWildCard

/-- The token for any character. -/
def anyChar : JText := [unit '?']

/-- The token for any text. -/
def anyText : JText := [unit '*']

/-- The loop of `splitOnTokens`, with the tokens so far and the text in the buffer. -/
def splitLoop (list : List JText) (buffer : JText) : JText → List JText
  | [] => if buffer = [] then list else list ++ [buffer]
  | c :: text =>
    if c = unit '?' ∨ c = unit '*' then
      let list := if buffer = [] then list else list ++ [buffer]
      if c = unit '?' then splitLoop (list ++ [anyChar]) [] text
      else if list.getLast? = some anyText then splitLoop list [] text
      else splitLoop (list ++ [anyText]) [] text
    else splitLoop list (buffer ++ [c]) text

/-- `splitOnTokens`. -/
def splitOnTokens (text : JText) : List JText :=
  if unit '?' ∉ text ∧ unit '*' ∉ text then [text] else splitLoop [] [] text

example : splitOnTokens (utf16 "a?b**c".toList)
    = [[unit 'a'], anyChar, [unit 'b'], anyText, [unit 'c']] := by decide

/-- A place to go on from: the tokens that are left, and the index in the text. -/
abbrev Place := List JText × ℕ

/-- The inner loop: the tokens are matched from `textIdx` on. The result is the index behind them, `none` after a
`break`, and the stack. -/
def scan (case : StringCase) (filename : JText) :
    List JText → ℕ → Bool → List Place → Option ℕ × List Place
  | [], textIdx, _, backtrack => (some textIdx, backtrack)
  | w :: wcs, textIdx, anyChars, backtrack =>
    if w = anyChar then
      if textIdx + 1 > filename.length then (none, backtrack)
      else scan case filename wcs (textIdx + 1) false backtrack
    else if w = anyText then
      scan case filename wcs (if wcs = [] then filename.length else textIdx) true backtrack
    else if anyChars then
      match case.checkIndexOf filename textIdx w with
      | none => (none, backtrack)
      | some found =>
        match case.checkIndexOf filename (found + 1) w with
        | none => scan case filename wcs (found + w.length) false backtrack
        | some again => scan case filename wcs (found + w.length) false ((w :: wcs, again) :: backtrack)
    else if case.checkRegionMatches filename textIdx w then
      scan case filename wcs (textIdx + w.length) false backtrack
    else (none, backtrack)

/-! ### The tries end -/

/-- How much work a place can still be, for a text of length `n`. -/
def placeWeight (n : ℕ) (p : Place) : ℕ := (n + 2 - min p.2 (n + 1)) * (n + 3) ^ p.1.length

/-- The work that is left on the stack. -/
def stackWeight (n : ℕ) (backtrack : List Place) : ℕ := (backtrack.map (placeWeight n)).sum

@[simp] theorem stackWeight_cons (n : ℕ) (p : Place) (backtrack : List Place) :
    stackWeight n (p :: backtrack) = placeWeight n p + stackWeight n backtrack := by
  simp [stackWeight]

theorem placeWeight_le (n : ℕ) (p : Place) : placeWeight n p ≤ (n + 2) * (n + 3) ^ p.1.length :=
  Nat.mul_le_mul_right _ (by omega)

theorem pow_le_placeWeight (n : ℕ) (p : Place) : (n + 3) ^ p.1.length ≤ placeWeight n p :=
  Nat.le_mul_of_pos_left _ (by omega)

/-- A later place of the same token is less work. -/
theorem placeWeight_later {n i j : ℕ} (wcs : List JText) (hij : i < j) (hj : j ≤ n) :
    placeWeight n (wcs, j) + (n + 3) ^ wcs.length ≤ placeWeight n (wcs, i) := by
  have hcount : (n + 2 - min j (n + 1)) + 1 ≤ n + 2 - min i (n + 1) := by omega
  calc placeWeight n (wcs, j) + (n + 3) ^ wcs.length
      = ((n + 2 - min j (n + 1)) + 1) * (n + 3) ^ wcs.length := by rw [placeWeight]; ring
    _ ≤ (n + 2 - min i (n + 1)) * (n + 3) ^ wcs.length := Nat.mul_le_mul_right _ hcount

/-- One try leaves at most one place for each of its tokens. -/
theorem stackWeight_scan_le (case : StringCase) (filename : JText) (wcs : List JText) (textIdx : ℕ)
    (anyChars : Bool) (backtrack : List Place) :
    stackWeight filename.length (scan case filename wcs textIdx anyChars backtrack).2
      < stackWeight filename.length backtrack + (filename.length + 3) ^ (wcs.length + 1) := by
  induction wcs generalizing textIdx anyChars backtrack with
  | nil => simp [scan]
  | cons w wcs ih =>
    have hpow : (filename.length + 3) ^ (wcs.length + 1) ≤ (filename.length + 3) ^ ((w :: wcs).length + 1) :=
      Nat.pow_le_pow_right (by omega) (by simp)
    have hstop : stackWeight filename.length backtrack
        < stackWeight filename.length backtrack + (filename.length + 3) ^ ((w :: wcs).length + 1) :=
      Nat.lt_add_of_pos_right (by positivity)
    have hgo : ∀ t any, stackWeight filename.length (scan case filename wcs t any backtrack).2
        < stackWeight filename.length backtrack + (filename.length + 3) ^ ((w :: wcs).length + 1) :=
      fun t any => (ih t any backtrack).trans_le (Nat.add_le_add_left hpow _)
    rw [scan]
    split_ifs
    · exact hstop
    · exact hgo _ _
    · exact hgo _ _
    · exact hgo _ _
    · split
      · exact hstop
      · split
        · exact hgo _ _
        · next found hfound again hagain =>
          have hpush := placeWeight_le filename.length (w :: wcs, again)
          refine (ih _ _ _).trans_le ?_
          rw [stackWeight_cons]
          simp only [List.length_cons, pow_succ] at hpush ⊢
          nlinarith
    · exact hgo _ _
    · exact hstop

/-- A try leaves less work than there was at its place. -/
theorem stackWeight_scan_lt (case : StringCase) (filename : JText) (wcs : List JText) (textIdx : ℕ)
    (anyChars : Bool) (backtrack : List Place) :
    stackWeight filename.length (scan case filename wcs textIdx anyChars backtrack).2
      < stackWeight filename.length ((wcs, textIdx) :: backtrack) := by
  have hpos := pow_le_placeWeight filename.length (wcs, textIdx)
  rw [stackWeight_cons]
  cases wcs with
  | nil =>
    have hone : 0 < (filename.length + 3) ^ ([] : List JText).length := by positivity
    rw [scan]
    simp only at hpos ⊢
    omega
  | cons w wcs =>
    have hstop : 0 < (filename.length + 3) ^ (w :: wcs).length := by positivity
    have hgo := fun t any b => stackWeight_scan_le case filename wcs t any b
    simp only [List.length_cons] at hpos hstop
    rw [scan]
    split_ifs
    · simp only
      omega
    · have hrest := hgo (textIdx + 1) false backtrack
      omega
    · have hrest := hgo filename.length true backtrack
      omega
    · have hrest := hgo textIdx true backtrack
      omega
    · split
      · simp only
        omega
      · next found hfound =>
        split
        · have hrest := hgo (found + w.length) false backtrack
          omega
        · next again hagain =>
          -- the place that is pushed lies behind the one that was found
          have hbounds := StringCase.checkIndexOf_bounds hagain
          have hlater : textIdx < again := by
            have hstart := StringCase.checkIndexOf_bounds hfound
            omega
          have hweight := placeWeight_later (w :: wcs) hlater hbounds.2
          have hrest := hgo (found + w.length) false ((w :: wcs, again) :: backtrack)
          rw [stackWeight_cons] at hrest
          simp only [List.length_cons] at hweight
          omega
    · have hrest := hgo (textIdx + w.length) false backtrack
      omega
    · simp only
      omega

/-- The loop around the stack. -/
def backtrackLoop (case : StringCase) (filename : JText) (wcs : List JText) (textIdx : ℕ)
    (anyChars : Bool) (backtrack : List Place) : Bool :=
  if (scan case filename wcs textIdx anyChars backtrack).1 = some filename.length then true
  else
    match _h : (scan case filename wcs textIdx anyChars backtrack).2 with
    | [] => false
    | (wcs', textIdx') :: backtrack' => backtrackLoop case filename wcs' textIdx' true backtrack'
termination_by stackWeight filename.length ((wcs, textIdx) :: backtrack)
decreasing_by
  rw [← _h]
  exact stackWeight_scan_lt case filename wcs textIdx anyChars backtrack

/-- `wildcardMatch` for texts that are not `null`. -/
def matchesMask (filename mask : JText) (case : StringCase) : Bool :=
  if mask = anyText then true else backtrackLoop case filename (splitOnTokens mask) 0 false []

/-- `wildcardMatch`. -/
def wildcardMatch (filename mask : Option JText) (case : StringCase) : Bool :=
  match filename, mask with
  | none, none => true
  | some filename, some mask => matchesMask filename mask case
  | _, _ => false

end StringWildCard

end OrgLittle.Util
