import OrgLittle.Java.JsonRoundTrip

/-!
# Texts that can be put into a page

`quote` writes `<\/` for `</` and escapes every control character, so a written text can stand in a page and on lines of
its own.
-/

namespace OrgLittle.Java.JsonText

/-- A control character. -/
def IsControl (c : UInt16) : Prop := c < unit ' ' ∨ (0x7f ≤ c ∧ c < 0xa0)

/-- A character that ends a line or a paragraph. -/
def IsSeparator (c : UInt16) : Prop := c = 0x2028 ∨ c = 0x2029

/-- What `quote` writes with `\u` or with a letter. It leaves `DEL` as it is. -/
def NeedsEscape (c : UInt16) : Prop := c < unit ' ' ∨ (0x80 ≤ c ∧ c < 0xa0) ∨ (0x2000 ≤ c ∧ c < 0x2100)

instance (c : UInt16) : Decidable (NeedsEscape c) := inferInstanceAs (Decidable (_ ∨ _))

/-- Neither a control character, line feeds and `DEL` apart, nor a separator, nor the start of a closing tag. -/
def Embeddable (x : JText) : Prop :=
  (∀ c ∈ x, IsControl c ∨ IsSeparator c → c = unit '\n' ∨ c = 0x7f) ∧ ¬ [unit '<', unit '/'] <:+: x

/-- What is not escaped is no control character but `DEL`. -/
theorem needsEscape_of_isControl {c : UInt16} (h : IsControl c ∨ IsSeparator c) (hdel : c ≠ 0x7f) : NeedsEscape c := by
  rcases h with (h | ⟨hlo, hhi⟩) | rfl | rfl
  · exact .inl h
  · refine .inr (.inl ⟨?_, hhi⟩)
    rw [UInt16.le_iff_toNat_le] at hlo ⊢
    have hne : c.toNat ≠ 0x7f := fun heq => hdel (UInt16.toNat_inj.mp heq)
    change 0x7f ≤ c.toNat at hlo
    change 0x80 ≤ c.toNat
    omega
  · decide
  · decide

/-- No closing tag starts between two units. -/
def Apart (b c : UInt16) : Prop := ¬ (b = unit '<' ∧ c = unit '/')

/-- A text that can be put behind any other without a closing tag between them. -/
structure Safe (x : JText) : Prop where
  shown : ∀ c ∈ x, c = unit '\n' ∨ ¬ NeedsEscape c
  chain : x.IsChain Apart
  head : x.head? ≠ some (unit '/')

/-- A safe text can be embedded. -/
theorem Safe.embeddable {x : JText} (h : Safe x) : Embeddable x := by
  refine ⟨fun c hc hcontrol => ?_, fun hinfix => ?_⟩
  · by_cases hdel : c = 0x7f
    · exact .inr hdel
    · exact .inl ((h.shown c hc).resolve_right (not_not_intro (needsEscape_of_isControl hcontrol hdel)))
  have hpair := h.chain.infix hinfix
  exact (List.isChain_cons_cons.mp hpair).1 ⟨rfl, rfl⟩

/-- Two safe texts, one behind the other, make no closing tag. -/
theorem Safe.append {x y : JText} (hx : Safe x) (hy : Safe y) : Safe (x ++ y) := by
  refine ⟨fun c hc => (List.mem_append.mp hc).elim (hx.shown c) (hy.shown c), ?_, ?_⟩
  · refine List.isChain_append.mpr ⟨hx.chain, hy.chain, ?_⟩
    rintro b - c hc ⟨-, rfl⟩
    exact hy.head hc
  · cases x with
    | nil => exact hy.head
    | cons c x => exact hx.head

theorem safe_nil : Safe [] := ⟨nofun, List.isChain_nil, nofun⟩

/-- Units that are neither escaped nor a slash. -/
theorem safe_of_forall {x : JText} (h : ∀ c ∈ x, (c = unit '\n' ∨ ¬ NeedsEscape c) ∧ c ≠ unit '/') : Safe x := by
  induction x with
  | nil => exact safe_nil
  | cons c x ih =>
    obtain ⟨hshown, hslash⟩ := h c List.mem_cons_self
    have hx := ih fun d hd => h d (List.mem_cons_of_mem _ hd)
    refine ⟨fun e he => (h e he).1, hx.chain.cons ?_, fun hhead => hslash (Option.some.inj hhead)⟩
    rintro _ hd ⟨-, rfl⟩
    exact hx.head hd

/-- A unit that needs no escape and is no slash. -/
theorem safe_singleton {c : UInt16} (hshown : c = unit '\n' ∨ ¬ NeedsEscape c) (hslash : c ≠ unit '/') : Safe [c] :=
  safe_of_forall fun _ hd => List.mem_singleton.mp hd ▸ ⟨hshown, hslash⟩

/-! ## Quoted texts -/

/-- Digits need no escape. -/
theorem not_control_digitChar : ∀ d < 16, ¬ NeedsEscape (unit (Nat.digitChar d)) ∧ unit (Nat.digitChar d) ≠ unit '/'
    ∧ unit (Nat.digitChar d) ≠ unit '<' := by decide

/-- An escape of a unit: it begins with a backslash and does not end with `<`. -/
structure Escaped (x : JText) : Prop where
  safe : Safe x
  head : x.head? = some (unit '\\')
  last : x.getLast? ≠ some (unit '<')

/-- An escape of two units. -/
theorem escaped_pair {c : UInt16} (hc : ¬ NeedsEscape c) (hne : c ≠ unit '<') : Escaped [unit '\\', c] := by
  refine ⟨⟨fun _ hd => .inr ?_, List.isChain_pair.mpr fun h => absurd h.1 (by decide), fun h => ?_⟩, rfl,
    fun h => hne (Option.some.inj h)⟩
  rotate_left
  · exact absurd (Option.some.inj h) (by decide)
  rcases List.mem_cons.mp hd with rfl | hd
  · decide
  · exact List.mem_singleton.mp hd ▸ hc

/-- A unit that is written with `\u` is an escape. -/
theorem escaped_hex (c : UInt16) : Escaped (units ['\\', 'u'] ++ toHex c) := by
  have hunit : ∀ u ∈ units ['\\', 'u'] ++ toHex c, ¬ NeedsEscape u ∧ u ≠ unit '/' ∧ u ≠ unit '<' := by
    intro u hu
    rcases List.mem_append.mp hu with hu | hu
    · fin_cases hu <;> decide
    · obtain ⟨d, hd, rfl⟩ := exists_of_mem_toHex hu
      exact not_control_digitChar d hd
  exact ⟨safe_of_forall fun u hu => ⟨.inr (hunit u hu).1, (hunit u hu).2.1⟩, rfl,
    fun h => (hunit _ (List.mem_of_getLast? h)).2.2 rfl⟩

/-- A unit stands for itself, or its escape can be put anywhere. -/
theorem escape_cases (b c : UInt16) :
    (escape b c = [c] ∧ ¬ NeedsEscape c ∧ Apart b c) ∨ Escaped (escape b c) := by
  unfold escape
  split
  · next h => rcases h with rfl | rfl <;> exact .inr (escaped_pair (by decide) (by decide))
  split
  · next h =>
    subst h
    split
    · exact .inr (escaped_pair (by decide) (by decide))
    · next hb => exact .inl ⟨rfl, by decide, fun h => hb h.1⟩
  split
  · exact .inr (escaped_pair (by decide) (by decide))
  split
  · exact .inr (escaped_pair (by decide) (by decide))
  split
  · exact .inr (escaped_pair (by decide) (by decide))
  split
  · exact .inr (escaped_pair (by decide) (by decide))
  split
  · exact .inr (escaped_pair (by decide) (by decide))
  split
  · exact .inr (escaped_hex c)
  · next hslash _ _ _ _ _ hcontrol => exact .inl ⟨rfl, hcontrol, fun h => hslash h.2⟩

/-- What `quote` writes needs no escape any more. -/
theorem shown_escapeFrom (b : UInt16) (s : JText) : ∀ c ∈ escapeFrom b s, c = unit '\n' ∨ ¬ NeedsEscape c := by
  induction s generalizing b with
  | nil => nofun
  | cons c s ih =>
    intro d hd
    rcases List.mem_append.mp hd with hd | hd
    · rcases escape_cases b c with ⟨heq, hcontrol, -⟩ | hescaped
      · rw [heq] at hd
        exact .inr (List.mem_singleton.mp hd ▸ hcontrol)
      · exact hescaped.safe.shown d hd
    · exact ih c d hd

/-- Behind the unit `a` that was written last. Only `<` itself is written as `<`. -/
theorem chain_escapeFrom {a b : UInt16} (hab : a = unit '<' → b = unit '<') (s : JText) :
    (a :: (escapeFrom b s ++ [unit '"'])).IsChain Apart := by
  induction s generalizing a b with
  | nil => exact List.isChain_pair.mpr fun h => absurd h.2 (by decide)
  | cons c s ih =>
    rw [escapeFrom, List.append_assoc]
    rcases escape_cases b c with ⟨heq, -, hapart⟩ | hescaped
    · rw [heq]
      exact List.isChain_cons_cons.mpr ⟨fun h => hapart ⟨hab h.1, h.2⟩, ih id⟩
    · have hnext : (escapeFrom c s ++ [unit '"']).IsChain Apart := (ih (a := 0) fun h => absurd h (by decide)).tail
      refine (hescaped.safe.chain.append hnext fun _ hd _ _ h => hescaped.last (h.1 ▸ hd)).cons ?_
      rintro d hd ⟨-, rfl⟩
      rw [List.head?_append, hescaped.head] at hd
      exact absurd (Option.some.inj hd) (by decide)

/-- A quoted text is safe: a slash behind `<` is escaped. -/
theorem safe_quote (s : JText) : Safe (quote s) := by
  refine ⟨fun c hc => ?_, chain_escapeFrom (fun h => absurd h (by decide)) s,
    fun h => absurd (Option.some.inj h) (by decide)⟩
  rcases List.mem_cons.mp hc with rfl | hc
  · exact .inr (by decide)
  · rcases List.mem_append.mp hc with hc | hc
    · exact shown_escapeFrom 0 s c hc
    · exact .inr (List.mem_singleton.mp hc ▸ by decide)

/-! ## Values -/

section

variable {D : Type*} (runtime : Runtime D) (indentFactor : Int32)

/-- A double that is written in digits, or with other units that need no escape. -/
def Runtime.Shown (runtime : Runtime D) (d : D) : Prop :=
  ∀ c ∈ numberToString runtime d, ¬ NeedsEscape c ∧ c ≠ unit '/'

/-- Commas between safe texts. -/
theorem safe_intercalate {texts : List JText} (h : ∀ text ∈ texts, Safe text) :
    Safe ([unit ','].intercalate texts) := by
  induction texts with
  | nil => exact safe_nil
  | cons text texts ih =>
    have htext := h text List.mem_cons_self
    cases texts with
    | nil => simpa using htext
    | cons text' texts =>
      rw [List.intercalate_cons_cons]
      exact (htext.append (safe_singleton (.inr (by decide)) (by decide))).append
        (ih fun t ht => h t (List.mem_cons_of_mem _ ht))

theorem safe_spaces (indent : Int32) : Safe (spaces indent) := by
  refine safe_of_forall fun c hc => ?_
  rw [List.eq_of_mem_replicate hc]
  exact ⟨.inr (by decide), by decide⟩

theorem safe_newline : Safe (newline indentFactor) := by
  unfold newline
  split_ifs
  · exact safe_singleton (.inl rfl) (by decide)
  · exact safe_nil

/-- Safe texts with their indentation. -/
theorem safe_layout (indent : Int32) {texts : List JText} (h : ∀ text ∈ texts, Safe text) :
    Safe (layout indentFactor indent texts) := by
  unfold layout
  split
  · exact safe_nil
  · exact h _ List.mem_cons_self
  · refine ((safe_intercalate fun text htext => ?_).append (safe_newline indentFactor)).append (safe_spaces indent)
    obtain ⟨entry, hentry, rfl⟩ := List.mem_map.mp htext
    exact ((safe_newline indentFactor).append (safe_spaces _)).append (h entry hentry)

/-- A bracket in front of a text and one behind it. -/
theorem safe_bracketed {x : JText} (h : Safe x) {first last : UInt16} (hfirst : ¬ NeedsEscape first ∧ first ≠ unit '/')
    (hlast : ¬ NeedsEscape last ∧ last ≠ unit '/') : Safe (first :: (x ++ [last])) :=
  (safe_singleton (.inr hfirst.1) hfirst.2).append (h.append (safe_singleton (.inr hlast.1) hlast.2))

theorem not_control_letter : ∀ c ∈ ['t', 'r', 'u', 'e', 'f', 'a', 'l', 's', 'n'],
    ¬ NeedsEscape (unit c) ∧ unit c ≠ unit '/' := by
  intro c hc
  fin_cases hc <;> decide

theorem safe_letters {word : JString} (h : word ⊆ ['t', 'r', 'u', 'e', 'f', 'a', 'l', 's', 'n']) :
    Safe (units word) := by
  refine safe_of_forall fun u hu => ?_
  obtain ⟨c, hc, rfl⟩ := List.mem_map.mp hu
  exact ⟨.inr (not_control_letter c (h hc)).1, (not_control_letter c (h hc)).2⟩

/-- A number is safe. -/
theorem safe_intToString (n : ℤ) : Safe (units (intToString n)) := by
  have hunit : ∀ u ∈ units (intToString n), ¬ NeedsEscape u ∧ u ≠ unit '/' := forall_numeral (by decide) (by decide)
  exact safe_of_forall fun u hu => ⟨.inr (hunit u hu).1, (hunit u hu).2⟩

/-- The items are written one by one. -/
theorem writeItems_eq (inner : Int32) (items : List (Value D)) :
    writeItems runtime indentFactor inner items = items.map (writeValue runtime indentFactor inner) := by
  induction items with
  | nil => rfl
  | cons item items ih => rw [writeItems, ih, List.map_cons]

/-- The members are written one by one. -/
theorem writeMembers_eq (inner : Int32) (members : List (JText × Value D)) :
    writeMembers runtime indentFactor inner members
      = members.map fun member => memberText runtime indentFactor inner member.1 member.2 := by
  induction members with
  | nil => rfl
  | cons member members ih => rw [writeMembers, ih, List.map_cons, memberText]

/-- Every value is written safely, by induction on the value. -/
theorem safe_writeValue {value : Value D} (h : value.WellFormed runtime.Shown) (indent : Int32) :
    Safe (writeValue runtime indentFactor indent value) := by
  induction h generalizing indent with
  | null => exact safe_letters (by decide)
  | bool b =>
    rw [writeValue]
    cases b <;> exact safe_letters (by decide)
  | integer hlo hhi => exact safe_intToString _
  | long hlo hhi hlarge => exact safe_intToString _
  | double hd => exact safe_of_forall fun u hu => ⟨.inr (hd u hu).1, (hd u hu).2⟩
  | string s => exact safe_quote s
  | array hwell ih =>
    rw [writeValue]
    refine safe_bracketed (safe_layout indentFactor indent fun text htext => ?_) (by decide) (by decide)
    obtain ⟨item, hitem, rfl⟩ := List.mem_map.mp (writeItems_eq runtime indentFactor _ _ ▸ htext)
    exact ih item hitem _
  | object hkeys hwell ih =>
    rw [writeValue]
    refine safe_bracketed (safe_layout indentFactor indent fun text htext => ?_) (by decide) (by decide)
    obtain ⟨member, hmember, rfl⟩ := List.mem_map.mp (writeMembers_eq runtime indentFactor _ _ ▸ htext)
    have hblank : Safe (if 0 < indentFactor then [unit ' '] else []) := by
      split_ifs
      · exact safe_singleton (.inr (by decide)) (by decide)
      · exact safe_nil
    exact (safe_quote _).append
      ((safe_singleton (c := unit ':') (.inr (by decide)) (by decide)).append (hblank.append (ih member hmember _)))

variable {runtime}

end

end OrgLittle.Java.JsonText
