import OrgLittle.Java.Text

/-!
# `query`: texts in SQL statements

`SQL_Mask_I` goes through a buffer and inserts a quotation mark in front of each one that it meets, while the buffer
grows. What it gives, between quotation marks, is one literal of SQL.
-/

namespace OrgLittle.Util.Query

open OrgLittle.Java

/-! ## The loop -/

theorem length_insertIdx_quote {buf : JString} {i : ℕ} (h : i < buf.length) :
    (buf.insertIdx i '\'').length = buf.length + 1 := List.length_insertIdx_of_le_length h.le _

/-- The loop of `SQL_Mask_I`, from the index `i` on. The rest of the buffer gets shorter, although the buffer grows. -/
def maskLoop (buf : JString) (i : ℕ) : JString :=
  if h : i < buf.length then
    if buf[i] = '\'' then maskLoop (buf.insertIdx i '\'') (i + 1 + 1) else maskLoop buf (i + 1)
  else buf
termination_by buf.length - i
decreasing_by
  · rw [length_insertIdx_quote h]
    omega
  · omega

/-- `SQL_Mask_I`. -/
def SQL_Mask_I (s : JString) : JString := maskLoop s 0

/-- Every quotation mark twice. -/
def doubled (s : JString) : JString := s.flatMap fun c => if c = '\'' then ['\'', '\''] else [c]

theorem doubled_cons (c : Char) (s : JString) :
    doubled (c :: s) = (if c = '\'' then ['\'', '\''] else [c]) ++ doubled s := List.flatMap_cons

theorem insertIdx_append (front rest : JString) (c : Char) :
    (front ++ rest).insertIdx front.length c = front ++ c :: rest := by
  induction front with
  | nil => rfl
  | cons x front ih => exact congrArg (x :: ·) ih

/-- The loop leaves what is in front of the index, and doubles the quotation marks behind it. -/
theorem maskLoop_append (front rest : JString) : maskLoop (front ++ rest) front.length = front ++ doubled rest := by
  induction rest generalizing front with
  | nil =>
    rw [maskLoop, dif_neg (by rw [List.append_nil]; exact lt_irrefl _)]
    rfl
  | cons c rest ih =>
    have hlt : front.length < (front ++ c :: rest).length := by
      rw [List.length_append, List.length_cons]
      omega
    have hat : (front ++ c :: rest)[front.length] = c := by
      rw [List.getElem_append_right (le_refl _)]
      simp only [Nat.sub_self, List.getElem_cons_zero]
    rw [maskLoop, dif_pos hlt, hat, doubled_cons]
    split_ifs with hc
    · -- The new mark and the old one both stand in front of the index now.
      subst hc
      have hinsert : (front ++ '\'' :: rest).insertIdx front.length '\'' = (front ++ ['\'', '\'']) ++ rest := by
        rw [insertIdx_append, List.append_assoc]
        rfl
      have hlength : front.length + 1 + 1 = (front ++ ['\'', '\'']).length := by
        rw [List.length_append]
        rfl
      rw [hinsert, hlength, ih, List.append_assoc]
    · have hsplit : front ++ c :: rest = (front ++ [c]) ++ rest := by
        rw [List.append_assoc, List.singleton_append]
      have hlength : front.length + 1 = (front ++ [c]).length := by
        rw [List.length_append, List.length_singleton]
      rw [hsplit, hlength, ih, List.append_assoc]

theorem SQL_Mask_I_eq (s : JString) : SQL_Mask_I s = doubled s := maskLoop_append [] s

/-! ## Literals -/

/-- The contents of a literal, up to the quotation mark that ends it, and what is behind that. -/
def literalTail : JString → Option (JString × JString)
  | [] => none
  | '\'' :: '\'' :: s => (literalTail s).map fun r => ('\'' :: r.1, r.2)
  | '\'' :: s => some ([], s)
  | c :: s => (literalTail s).map fun r => (c :: r.1, r.2)

/-- The literal at the beginning of a text: its value, and what is behind it. -/
def literal : JString → Option (JString × JString)
  | '\'' :: s => literalTail s
  | _ => none

/-- A text with each quotation mark twice is read as a whole, unless another mark follows the one that ends it. -/
theorem literalTail_doubled (s : JString) {rest : JString} (hrest : rest.head? ≠ some '\'') :
    literalTail (doubled s ++ '\'' :: rest) = some (s, rest) := by
  induction s with
  | nil =>
    change literalTail ('\'' :: rest) = some ([], rest)
    cases rest with
    | nil => rfl
    | cons c rest =>
      rw [literalTail]
      rintro t ⟨⟩
      exact hrest rfl
  | cons c s ih =>
    rw [doubled_cons]
    split_ifs with hc
    · rw [hc, List.append_assoc]
      change literalTail ('\'' :: '\'' :: (doubled s ++ '\'' :: rest)) = _
      rw [literalTail, ih]
      rfl
    · change literalTail (c :: (doubled s ++ '\'' :: rest)) = _
      rw [literalTail, ih]
      · rfl
      · rintro t rfl
        exact fun _ => hc rfl
      · exact hc

/-- A masked text between quotation marks is one literal of SQL, whatever follows in the statement. -/
theorem literal_masked (s : JString) {rest : JString} (hrest : rest.head? ≠ some '\'') :
    literal ('\'' :: (SQL_Mask_I s ++ '\'' :: rest)) = some (s, rest) := by
  rw [SQL_Mask_I_eq]
  exact literalTail_doubled s hrest

/-- Every quotation mark is doubled and nothing else is changed, and the masked text stands for the text. -/
theorem masking_correct :
    (∀ s, SQL_Mask_I s = doubled s ∧ literal ('\'' :: (SQL_Mask_I s ++ ['\''])) = some (s, []))
      ∧ Function.Injective SQL_Mask_I := by
  have hliteral (s : JString) : literal ('\'' :: (SQL_Mask_I s ++ ['\''])) = some (s, []) := by
    apply literal_masked
    rintro ⟨⟩
  refine ⟨fun s => ⟨SQL_Mask_I_eq s, hliteral s⟩, fun s t h => ?_⟩
  have hs := hliteral s
  rw [h, hliteral t] at hs
  exact (congrArg Prod.fst (Option.some.inj hs)).symm

end OrgLittle.Util.Query
