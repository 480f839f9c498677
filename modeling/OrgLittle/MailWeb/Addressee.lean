import OrgLittle.Java.Strings
import OrgLittle.MailWeb.Alarm

/-!
# The addressee of an alarm

`alarmSender.send` looks for the organisational unit in the subject of the certificate. Its loop runs over
the components of the subject, but what it splits at `=` is the whole subject every time. So only the first
key is ever compared, and what follows it is the first value only if there is no second component
(`alarmUic_eq_iff`).
-/

namespace OrgLittle.Java

/-! ## `String.split` of joined parts -/

section split

variable {d : Char} {sep : JString}

theorem splitParts_skip (sep part pre s : JString) :
    splitParts sep pre.length part (pre ++ s) = splitParts sep 0 part s := by
  induction pre with
  | nil => rfl
  | cons c pre ih =>
    rw [List.length_cons, List.cons_append, splitParts]
    exact ih

/-- Up to the first character of the separator everything belongs to the part. -/
theorem splitParts_append {s : JString} (hs : d ∉ s) (part t : JString) :
    splitParts (d :: sep) 0 part (s ++ t) = splitParts (d :: sep) 0 (part ++ s) t := by
  induction s generalizing part with
  | nil => rw [List.nil_append, List.append_nil]
  | cons c s ih =>
    rw [List.mem_cons, not_or] at hs
    have hstart : startsWith (c :: (s ++ t)) (d :: sep) = false := by
      simp [startsWith, List.isPrefixOf, hs.1]
    rw [List.cons_append, splitParts]
    simp only [hstart, Bool.false_eq_true, if_false]
    rw [ih hs.2, List.append_assoc, List.singleton_append]

theorem splitParts_last {s : JString} (hs : d ∉ s) (part : JString) :
    splitParts (d :: sep) 0 part s = [part ++ s] := by
  have happend : splitParts (d :: sep) 0 part (s ++ []) = splitParts (d :: sep) 0 (part ++ s) [] :=
    splitParts_append hs part []
  rwa [List.append_nil] at happend

/-- At the separator the part ends. -/
theorem splitParts_sep {s : JString} (hs : d ∉ s) (part t : JString) :
    splitParts (d :: sep) 0 part (s ++ (d :: sep ++ t)) = (part ++ s) :: splitParts (d :: sep) 0 [] t := by
  have hstart : startsWith (d :: (sep ++ t)) (d :: sep) = true := by
    rw [startsWith, List.isPrefixOf_iff_prefix]
    exact ⟨t, rfl⟩
  rw [splitParts_append hs, List.cons_append, splitParts]
  simp only [hstart, if_true]
  rw [List.length_cons, Nat.add_sub_cancel, splitParts_skip]

theorem splitParts_intercalate {first : JString} {parts : List JString} (hparts : ∀ s ∈ first :: parts, d ∉ s) :
    splitParts (d :: sep) 0 [] ((d :: sep).intercalate (first :: parts)) = first :: parts := by
  induction parts generalizing first with
  | nil =>
    rw [List.intercalate_singleton]
    exact splitParts_last (hparts first List.mem_cons_self) []
  | cons next parts ih =>
    rw [List.intercalate_cons_cons, List.append_assoc,
      splitParts_sep (hparts first List.mem_cons_self), List.nil_append,
      ih fun s hs => hparts s (List.mem_cons_of_mem first hs)]

/-- Only empty parts at the end are dropped. -/
theorem split_of_parts {s first second : JString} {parts : List JString}
    (hparts : splitParts sep 0 [] s = first :: second :: parts) (hsecond : second ≠ []) :
    ∃ kept, split sep s = first :: second :: kept := by
  have hreverse : (first :: second :: parts).reverse = parts.reverse ++ [second, first] := by simp
  have hdrop : (parts.reverse ++ [second, first]).dropWhile List.isEmpty
      = parts.reverse.dropWhile List.isEmpty ++ [second, first] := by
    rw [List.dropWhile_append]
    split_ifs with hempty
    · rw [List.isEmpty_iff.mp hempty, List.dropWhile_cons_of_neg (by simpa using hsecond)]
      rfl
    · rfl
  refine ⟨(parts.reverse.dropWhile List.isEmpty).reverse, ?_⟩
  rw [split, hparts]
  show ((first :: second :: parts).reverse.dropWhile List.isEmpty).reverse = _
  rw [hreverse, hdrop, List.reverse_append]
  rfl

end split

end OrgLittle.Java

namespace OrgLittle.MailWeb

open OrgLittle.Java

/-! ## Subjects -/

/-- A component of a subject: a key and a value without the characters that separate them. -/
structure Component where
  key : JString
  value : JString
  key_plain : ',' ∉ key ∧ '=' ∉ key
  value_plain : ',' ∉ value ∧ '=' ∉ value

namespace Component

def text (c : Component) : JString := c.key ++ '=' :: c.value

def isOU (c : Component) : Bool := equalsIgnoreCase "OU".toList c.key

theorem comma_notMem_text (c : Component) : ',' ∉ c.text := by
  simp [text, c.key_plain.1, c.value_plain.1]

theorem text_ne_nil (c : Component) : c.text ≠ [] := by simp [text]

end Component

/-- A subject with these components. -/
def subjectText (dn : List Component) : JString := ", ".toList.intercalate (dn.map (·.text))

/-- The addressee that an alarm should have: the value of the first component whose key is `OU`. -/
def organizationalUnit (dn : List Component) : JString := ((dn.find? (·.isOU)).map (·.value)).getD []

variable (first : Component) (rest : List Component)

theorem splitParts_subject : splitParts ", ".toList 0 [] (subjectText (first :: rest))
    = (first :: rest).map (·.text) := by
  have hparts : ∀ s ∈ (first :: rest).map (·.text), ',' ∉ s := by
    intro s hs
    obtain ⟨c, -, rfl⟩ := List.mem_map.mp hs
    exact c.comma_notMem_text
  exact splitParts_intercalate hparts

/-- The loop runs at least once. -/
theorem split_subject : ∃ fld, split ", ".toList (subjectText (first :: rest)) = first.text :: fld := by
  have hparts := splitParts_subject first rest
  cases rest with
  | nil =>
    refine ⟨[], ?_⟩
    rw [split, hparts]
    rfl
  | cons second rest =>
    obtain ⟨kept, hsplit⟩ := split_of_parts hparts second.text_ne_nil
    exact ⟨second.text :: kept, hsplit⟩

/-! ## What is compared with `OU` -/

/-- With one component the parts are its key and its value. -/
theorem splitParts_eq_single : splitParts "=".toList 0 [] (subjectText [first]) = [first.key, first.value] := by
  have htext : subjectText [first] = first.key ++ (['='] ++ first.value) := by
    simp [subjectText, Component.text]
  rw [htext]
  show splitParts ['='] 0 [] _ = _
  rw [splitParts_sep first.key_plain.2, splitParts_last first.value_plain.2]
  rfl

/-- With more components the second part goes on to the second key. -/
theorem splitParts_eq_cons (second : Component) : ∃ parts,
    splitParts "=".toList 0 [] (subjectText (first :: second :: rest))
      = first.key :: (first.value ++ ", ".toList ++ second.key) :: parts := by
  obtain ⟨tail, htail⟩ : ∃ tail, subjectText (second :: rest) = second.key ++ (['='] ++ tail) := by
    cases rest with
    | nil => exact ⟨second.value, by simp [subjectText, Component.text]⟩
    | cons third rest =>
      refine ⟨second.value ++ ", ".toList ++ subjectText (third :: rest), ?_⟩
      simp [subjectText, List.intercalate_cons_cons, Component.text]
  have hcons : subjectText (first :: second :: rest)
      = first.key ++ (['='] ++ ((first.value ++ ", ".toList ++ second.key) ++ (['='] ++ tail))) := by
    have hsecond : subjectText (first :: second :: rest)
        = first.text ++ ", ".toList ++ subjectText (second :: rest) := by
      simp [subjectText, List.intercalate_cons_cons]
    rw [hsecond, htail]
    simp [Component.text]
  have hplain : '=' ∉ first.value ++ ", ".toList ++ second.key := by
    simp [first.value_plain.2, second.key_plain.2]
  refine ⟨splitParts ['='] 0 [] tail, ?_⟩
  rw [hcons]
  show splitParts ['='] 0 [] _ = _
  rw [splitParts_sep first.key_plain.2, splitParts_sep hplain]
  rfl

/-- One turn of the loop, with the parts of the subject. -/
theorem uicLoop_cons {user key : JString} {f : List JString} (hsplit : split "=".toList user = key :: f)
    (part : JString) (fld : List JString) : uicLoop user (part :: fld)
      = if equalsIgnoreCase "OU".toList key = true then (f.head?.elim (.error .indexOutOfBounds) .ok)
        else uicLoop user fld := by
  rw [uicLoop, hsplit]
  cases f <;> rfl

/-- No turn finds what the first one does not find. -/
theorem uicLoop_eq {user key : JString} {f : List JString} (hsplit : split "=".toList user = key :: f)
    (part : JString) (fld : List JString) : uicLoop user (part :: fld)
      = if equalsIgnoreCase "OU".toList key = true then (f.head?.elim (.error .indexOutOfBounds) .ok)
        else .ok [] := by
  induction fld generalizing part with
  | nil =>
    rw [uicLoop_cons hsplit]
    rfl
  | cons next fld ih =>
    rw [uicLoop_cons hsplit, ih next]
    split_ifs <;> rfl

/-- What the whole loop finds depends on the parts of the subject at `=`. -/
theorem alarmUic_of_split {key : JString} {f : List JString}
    (hsplit : split "=".toList (subjectText (first :: rest)) = key :: f) :
    alarmUic (some (subjectText (first :: rest)))
      = if equalsIgnoreCase "OU".toList key = true then (f.head?.elim (.error .indexOutOfBounds) .ok)
        else .ok [] := by
  obtain ⟨fld, hfld⟩ := split_subject first rest
  rw [alarmUic, hfld, uicLoop_eq hsplit]

/-- With several components the first value is never found alone. -/
theorem alarmUic_cons (second : Component) : alarmUic (some (subjectText (first :: second :: rest)))
    = .ok (if first.isOU = true then first.value ++ ", ".toList ++ second.key else []) := by
  obtain ⟨parts, hparts⟩ := splitParts_eq_cons first rest second
  obtain ⟨kept, hsplit⟩ := split_of_parts hparts (by simp)
  rw [alarmUic_of_split first (second :: rest) hsplit, Component.isOU]
  split_ifs <;> rfl

theorem alarmUic_single (hvalue : first.value ≠ []) :
    alarmUic (some (subjectText [first])) = .ok (if first.isOU = true then first.value else []) := by
  obtain ⟨kept, hsplit⟩ := split_of_parts (splitParts_eq_single first) hvalue
  rw [alarmUic_of_split first [] hsplit, Component.isOU]
  split_ifs <;> rfl

/-- An empty value is dropped by `split`, and with it an empty key. -/
theorem alarmUic_single_empty (hvalue : first.value = []) : alarmUic (some (subjectText [first]))
    = if first.isOU = true ∨ first.key = [] then .error .indexOutOfBounds else .ok [] := by
  by_cases hkey : first.key = []
  · have hsplit : split "=".toList (subjectText [first]) = [] := by
      rw [split, splitParts_eq_single, hvalue, hkey]
      rfl
    obtain ⟨fld, hfld⟩ := split_subject first []
    rw [alarmUic, hfld, uicLoop, hsplit, if_pos (Or.inr hkey)]
  · have hsplit : split "=".toList (subjectText [first]) = [first.key] := by
      rw [split, splitParts_eq_single, hvalue]
      show ([[], first.key].dropWhile List.isEmpty).reverse = _
      rw [List.dropWhile_cons_of_pos rfl, List.dropWhile_cons_of_neg (by simpa using hkey)]
      rfl
    rw [alarmUic_of_split first [] hsplit, Component.isOU]
    simp only [hkey, or_false]
    rfl

/-! ## The addressee -/

/-- The subjects whose addressee `send` finds: a single `OU` with a value, or a subject whose first key is
another one, if there is no addressee to find. -/
def Findable : Prop :=
  if first.isOU = true then rest = [] ∧ first.value ≠ []
  else (rest = [] → first.key ≠ [] ∨ first.value ≠ []) ∧ ∀ c ∈ rest.find? (·.isOU), c.value = []

/-- `send` finds the addressee exactly for the subjects of `Findable`. -/
theorem alarmUic_eq_iff :
    alarmUic (some (subjectText (first :: rest))) = .ok (organizationalUnit (first :: rest))
      ↔ Findable first rest := by
  have hunit : organizationalUnit (first :: rest)
      = if first.isOU = true then first.value else organizationalUnit rest := by
    unfold organizationalUnit
    rw [List.find?_cons]
    cases first.isOU <;> rfl
  rw [hunit, Findable]
  cases rest with
  | nil =>
    by_cases hvalue : first.value = []
    · rw [alarmUic_single_empty first hvalue]
      by_cases hOU : first.isOU = true
      · simp [hOU, hvalue]
      · by_cases hkey : first.key = [] <;> simp [hOU, hvalue, hkey, organizationalUnit]
    · rw [alarmUic_single first hvalue]
      by_cases hOU : first.isOU = true <;> simp [hOU, hvalue, organizationalUnit]
  | cons second rest =>
    rw [alarmUic_cons first rest second]
    by_cases hOU : first.isOU = true
    · simp [hOU]
    · rw [if_neg hOU, if_neg hOU, if_neg hOU]
      rw [organizationalUnit]
      cases hfind : (second :: rest).find? (·.isOU) with
      | none => simp
      | some c => simp [eq_comm]

/-- The unit stands behind the name. -/
theorem alarmUic_misses_second :
    ¬ ∀ (first : Component) (rest : List Component),
      alarmUic (some (subjectText (first :: rest))) = .ok (organizationalUnit (first :: rest)) := by
  intro h
  have hname := h ⟨"CN".toList, "a".toList, by decide, by decide⟩
    [⟨"OU".toList, "4511111111".toList, by decide, by decide⟩]
  exact absurd hname (by decide)

end OrgLittle.MailWeb
