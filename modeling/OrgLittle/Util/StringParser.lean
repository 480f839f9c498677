import OrgLittle.Java.Text

/-!
# `org.little.util.string.stringParser`

A `StringTokenizer` that also returns its delimiters, with the delimiters dropped again: the list is
the maximal runs of characters outside the separator set.
-/

namespace OrgLittle.Util.StringParser

open OrgLittle.Java

/-- All tokens of `StringTokenizer(string, delim, true)`: every delimiter is a token of its own. -/
def tokens (delim : JString) : JString → List JString
  | [] => []
  | c :: s =>
    if c ∈ delim then [c] :: tokens delim s
    else
      -- a run goes on into the next token unless that token is a delimiter
      match tokens delim s with
      | (d :: t) :: ts => if d ∈ delim then [c] :: (d :: t) :: ts else (c :: d :: t) :: ts
      | ts => [c] :: ts

/-- `getList`: the tokens that do not start with a separator. -/
def getList (string token : JString) : List JString :=
  (tokens token string).filter fun ss =>
    match ss with
    | [] => true
    | c :: _ => c ∉ token

example : getList "MAIL  FROM:<a>\r".toList " \r\n".toList = ["MAIL".toList, "FROM:<a>".toList] := by
  decide

/-! ## Where the words come from -/

theorem flatten_tokens (delim s : JString) : (tokens delim s).flatten = s := by
  induction s with
  | nil => rfl
  | cons c s ih =>
    rw [tokens]
    split_ifs with hc
    · rw [List.flatten_cons, ih]
      rfl
    · split
      · rename_i d t ts htokens
        rw [htokens] at ih
        split_ifs <;> simp [← ih]
      · rw [List.flatten_cons, ih]
        rfl

theorem tokens_ne_nil {delim s w : JString} (h : w ∈ tokens delim s) : w ≠ [] := by
  induction s generalizing w with
  | nil => cases h
  | cons c s ih =>
    rw [tokens] at h
    split_ifs at h with hc
    · rcases List.mem_cons.mp h with rfl | h
      · exact List.cons_ne_nil _ _
      · exact ih h
    · split at h
      · rename_i d t ts htokens
        split_ifs at h with hd
        · rcases List.mem_cons.mp h with rfl | h
          · exact List.cons_ne_nil _ _
          · exact ih (htokens ▸ h)
        · rcases List.mem_cons.mp h with rfl | h
          · exact List.cons_ne_nil _ _
          · exact ih (by rw [htokens]; exact List.mem_cons_of_mem _ h)
      · rcases List.mem_cons.mp h with rfl | h
        · exact List.cons_ne_nil _ _
        · exact ih h

/-- A word is not empty and not longer than the text. -/
theorem length_of_mem_getList {string token w : JString} (h : w ∈ getList string token) :
    0 < w.length ∧ w.length ≤ string.length := by
  have hmem : w ∈ tokens token string := (List.mem_filter.mp h).1
  refine ⟨List.length_pos_iff.mpr (tokens_ne_nil hmem), ?_⟩
  have hsub := (List.sublist_flatten_of_mem hmem).length_le
  rwa [flatten_tokens] at hsub

/-- A token is a separator or has none in it. -/
theorem tokens_separated {delim s w : JString} (h : w ∈ tokens delim s) :
    (∃ c ∈ delim, w = [c]) ∨ ∀ c ∈ w, c ∉ delim := by
  induction s generalizing w with
  | nil => cases h
  | cons c s ih =>
    rw [tokens] at h
    split_ifs at h with hc
    · rcases List.mem_cons.mp h with rfl | h
      · exact .inl ⟨c, hc, rfl⟩
      · exact ih h
    · have hsingle : ∀ x ∈ [c], x ∉ delim := by
        intro x hx
        rw [List.mem_singleton.mp hx]
        exact hc
      split at h
      · rename_i d t ts htokens
        have hrest {x : JString} (hx : x ∈ (d :: t) :: ts) := ih (htokens ▸ hx)
        split_ifs at h with hd
        · rcases List.mem_cons.mp h with rfl | h
          · exact .inr hsingle
          · exact hrest h
        · rcases List.mem_cons.mp h with rfl | h
          · rcases hrest List.mem_cons_self with ⟨e, he, heq⟩ | hfree
            · exact absurd ((List.cons.inj heq).1 ▸ he) hd
            · exact .inr (List.forall_mem_cons.mpr ⟨hc, hfree⟩)
          · exact hrest (List.mem_cons_of_mem _ h)
      · rcases List.mem_cons.mp h with rfl | h
        · exact .inr hsingle
        · exact ih h

/-- A word has no separator in it. -/
theorem notMem_of_mem_getList {string token w : JString} (h : w ∈ getList string token) : ∀ c ∈ w, c ∉ token := by
  obtain ⟨hmem, hkeep⟩ := List.mem_filter.mp h
  rcases tokens_separated hmem with ⟨c, hc, rfl⟩ | hfree
  · exact absurd hc (of_decide_eq_true hkeep)
  · exact hfree

/-! ## Reading words that are followed by a separator -/

section Words

variable {delim : JString}

/-- A run of characters outside the separator set ends at the next separator. -/
theorem tokens_word {w : JString} (hne : w ≠ []) (hw : ∀ c ∈ w, c ∉ delim) {d : Char}
    (hd : d ∈ delim) (s : JString) :
    tokens delim (w ++ d :: s) = w :: [d] :: tokens delim s := by
  induction w with
  | nil => exact absurd rfl hne
  | cons c w ih =>
    have hc : c ∉ delim := hw c List.mem_cons_self
    cases w with
    | nil => simp [tokens, hc, hd]
    | cons c' w =>
      have hc' : c' ∉ delim := hw c' (by simp)
      rw [List.cons_append, tokens, if_neg hc,
        ih (List.cons_ne_nil c' w) fun x hx => hw x (List.mem_cons_of_mem c hx)]
      simp [hc']

theorem getList_separator {d : Char} (hd : d ∈ delim) (s : JString) :
    getList (d :: s) delim = getList s delim := by
  simp [getList, tokens, hd]

theorem getList_word {w : JString} (hne : w ≠ []) (hw : ∀ c ∈ w, c ∉ delim) {d : Char}
    (hd : d ∈ delim) (s : JString) : getList (w ++ d :: s) delim = w :: getList s delim := by
  obtain ⟨c, w, rfl⟩ := List.exists_cons_of_ne_nil hne
  have hc : c ∉ delim := hw c List.mem_cons_self
  rw [getList, tokens_word hne hw hd]
  simp [getList, hc, hd]

/-- Words joined by a separator, with separators after the last one, are read back one by one. -/
theorem getList_intercalate {words : List JString} (hne : ∀ w ∈ words, w ≠ [])
    (hwords : ∀ w ∈ words, ∀ c ∈ w, c ∉ delim) {d e : Char} (hd : d ∈ delim) (he : e ∈ delim)
    (s : JString) :
    getList ([d].intercalate words ++ e :: s) delim = words ++ getList s delim := by
  induction words with
  | nil => exact getList_separator he s
  | cons w words ih =>
    have hw := hwords w List.mem_cons_self
    have hw0 := hne w List.mem_cons_self
    cases words with
    | nil =>
      rw [List.intercalate_singleton, getList_word hw0 hw he]
      rfl
    | cons w' words =>
      have hrest := ih (fun x hx => hne x (List.mem_cons_of_mem w hx))
        fun x hx => hwords x (List.mem_cons_of_mem w hx)
      rw [List.intercalate_cons_cons, List.append_assoc, List.append_assoc, List.singleton_append,
        getList_word hw0 hw hd, hrest, ← List.cons_append]

end Words

end OrgLittle.Util.StringParser
