import OrgLittle.Java.Strings

/-!
# `IdRange`: sequence sets

`FETCH` and `SEARCH` read a sequence set as a list of ranges. A range is kept as its two bounds in the order in
which they stand, and `*` has no single meaning: alone it is everything, behind a colon it is the largest `int`,
in front of one it is the largest `long`. `agrees_set_iff` says for which sets this is the set of RFC 3501.
-/

namespace OrgLittle.Imap

open OrgLittle.Java

/-! ## `IdRange` -/

/-- `Integer.MAX_VALUE`. -/
def intMax : ℤ := 2 ^ 31 - 1

/-- `Long.MAX_VALUE`. -/
def longMax : ℤ := 2 ^ 63 - 1

/-- `IdRange`. -/
structure IdRange where
  lowVal : ℤ
  highVal : ℤ
deriving DecidableEq

namespace IdRange

/-- `includes` of one range. -/
def includes (range : IdRange) (uid : ℤ) : Bool := range.lowVal ≤ uid ∧ uid ≤ range.highVal

/-- `includes` of a list of ranges. -/
def listIncludes (uid : ℤ) (list : List IdRange) : Bool := list.any fun range => range.includes uid

/-- The private `parseLong`; `none` is a `NumberFormatException`. -/
def parseLong (value : JString) : Option ℤ :=
  if value = ['*'] then some longMax else Java.parseLong value

/-- `parseRange`. -/
def parseRange (range : JString) : IdRange :=
  if range = ['*'] then ⟨0, intMax⟩
  else
    let parsed : Option IdRange :=
      match indexOf ':' range with
      | none => (parseLong range).map fun value => ⟨value, value⟩
      | some pos =>
        let hi := range.drop (pos + 1)
        match parseLong (range.take pos), if hi = ['*'] then some intMax else parseLong hi with
        | some lowVal, some highVal => some ⟨lowVal, highVal⟩
        | _, _ => none
    parsed.getD ⟨0, 0⟩

/-- `parseRangeSequence` with one argument: only blanks separate the ranges. -/
def parseRangeSequence (idRangeSequence : JString) : List IdRange :=
  (stringTokens [' '] idRangeSequence).map parseRange

/-- `parseRangeSequence` with the list that the ranges are added to. -/
def addRangeSequence (idRangeSequence : JString) (ranges : Option (List IdRange)) : List IdRange :=
  ranges.getD [] ++ (stringTokens [' ', ','] idRangeSequence).map parseRange

end IdRange

/-! ## RFC 3501 -/

/-- `seq-number`. -/
inductive SeqNumber
  | number (n : ℕ)
  | star
deriving DecidableEq

/-- `seq-number` or `seq-range`. -/
inductive SeqItem
  | single (n : SeqNumber)
  | range (a b : SeqNumber)
deriving DecidableEq

namespace SeqNumber

/-- As it is written. -/
def text : SeqNumber → JString
  | number n => Nat.toDigits 10 n
  | star => ['*']

/-- `nz-number` is a 32-bit number that is not zero. -/
def Valid : SeqNumber → Prop
  | number n => 0 < n ∧ n < 2 ^ 32
  | star => True

instance : DecidablePred Valid
  | number n => inferInstanceAs (Decidable (0 < n ∧ n < 2 ^ 32))
  | star => inferInstanceAs (Decidable True)

/-- What it stands for in a mailbox where `m` is the largest number in use. -/
def value (m : ℤ) : SeqNumber → ℤ
  | number n => n
  | star => m

end SeqNumber

namespace SeqItem

/-- As it is written. -/
def text : SeqItem → JString
  | single n => n.text
  | range a b => a.text ++ ':' :: b.text

/-- Its numbers are. -/
def Valid : SeqItem → Prop
  | single n => n.Valid
  | range a b => a.Valid ∧ b.Valid

instance : DecidablePred Valid
  | single n => inferInstanceAs (Decidable n.Valid)
  | range a b => inferInstanceAs (Decidable (a.Valid ∧ b.Valid))

/-- The ids that it stands for: a range is all ids between its bounds, in whatever order they stand. -/
def Denotes (m id : ℤ) : SeqItem → Prop
  | single n => id = n.value m
  | range a b => min (a.value m) (b.value m) ≤ id ∧ id ≤ max (a.value m) (b.value m)

instance (m id : ℤ) : DecidablePred (Denotes m id)
  | single n => inferInstanceAs (Decidable (id = n.value m))
  | range a b =>
    inferInstanceAs (Decidable (min (a.value m) (b.value m) ≤ id ∧ id ≤ max (a.value m) (b.value m)))

/-- The first bound is a number and not above the second one. -/
def Forward (m : ℤ) : SeqItem → Prop
  | single n => n ≠ .star
  | range (.number a) b => (a : ℤ) ≤ b.value m
  | range .star _ => False

end SeqItem

/-- A sequence set. -/
structure SequenceSet where
  items : List SeqItem
  ne_nil : items ≠ []
  valid : ∀ item ∈ items, item.Valid

namespace SequenceSet

/-- As it is written. -/
def text (set : SequenceSet) : JString := [','].intercalate (set.items.map SeqItem.text)

/-- The ids that it stands for. -/
def Denotes (set : SequenceSet) (m id : ℤ) : Prop := ∃ item ∈ set.items, item.Denotes m id

instance (set : SequenceSet) (m id : ℤ) : Decidable (set.Denotes m id) :=
  inferInstanceAs (Decidable (∃ item ∈ set.items, item.Denotes m id))

end SequenceSet

/-- The numbers in use in a mailbox, sequence numbers or unique identifiers: positive `int`s. -/
structure MailboxIds where
  ids : List ℤ
  largest : ℤ
  largest_mem : largest ∈ ids
  le_largest : ∀ id ∈ ids, id ≤ largest
  pos : ∀ id ∈ ids, 0 < id
  le_intMax : ∀ id ∈ ids, id ≤ intMax

/-- The ranges accept just the ids of the mailbox that are in the set. -/
def AgreesWith (ranges : List IdRange) (set : SequenceSet) (mailbox : MailboxIds) : Prop :=
  ∀ id ∈ mailbox.ids, IdRange.listIncludes id ranges = true ↔ set.Denotes mailbox.largest id

/-- What the ranges lack is made up for by others: if the set has a `*` of its own, it has all ids of the mailbox
anyway; if not, the ids in a range that does not go forward are also in one that does. -/
def SequenceSet.Covered (set : SequenceSet) (mailbox : MailboxIds) : Prop :=
  if .single .star ∈ set.items then ∀ id ∈ mailbox.ids, set.Denotes mailbox.largest id
  else
    ∀ id ∈ mailbox.ids, ∀ item ∈ set.items, ¬item.Forward mailbox.largest →
      item.Denotes mailbox.largest id →
      ∃ other ∈ set.items, other.Forward mailbox.largest ∧ other.Denotes mailbox.largest id

/-- The same for one id, which may be any number. -/
def SequenceSet.CoveredAt (set : SequenceSet) (m id : ℤ) : Prop :=
  if .single .star ∈ set.items ∧ 0 ≤ id then set.Denotes m id
  else
    ∀ item ∈ set.items, ¬item.Forward m → item.Denotes m id →
      ∃ other ∈ set.items, other.Forward m ∧ other.Denotes m id

/-! ## Reading an item -/

namespace SeqNumber

theorem text_ne_nil (n : SeqNumber) : n.text ≠ [] := by
  cases n with
  | number n => exact Nat.toDigits_ne_nil
  | star => exact List.cons_ne_nil _ _

theorem mem_text {n : SeqNumber} {c : Char} (h : c ∈ n.text) : c.isDigit = true ∨ c = '*' := by
  cases n with
  | number n => exact .inl (List.all_eq_true.mp (toDigits_all_isDigit n) c h)
  | star => exact .inr (List.mem_singleton.mp h)

theorem text_number_ne (n : ℕ) : Nat.toDigits 10 n ≠ ['*'] := by
  intro h
  have hdigit := List.all_eq_true.mp (toDigits_all_isDigit n) '*' (by rw [h]; exact List.mem_singleton_self _)
  exact absurd hdigit (by decide)

/-- A number of a message is read back by `parseLong`. -/
theorem parseLong_number {n : ℕ} (h : n < 2 ^ 32) :
    IdRange.parseLong (Nat.toDigits 10 n) = some (n : ℤ) := by
  rw [IdRange.parseLong, if_neg (text_number_ne n), Java.parseLong_toDigits (by omega)]

/-- The bound in front of the colon. -/
def low : SeqNumber → ℤ
  | number n => n
  | star => longMax

/-- The bound behind the colon. -/
def high : SeqNumber → ℤ
  | number n => n
  | star => intMax

theorem parseLong_low {n : SeqNumber} (h : n.Valid) : IdRange.parseLong n.text = some n.low := by
  cases n with
  | number n => exact parseLong_number h.2
  | star => rfl

theorem parse_high {n : SeqNumber} (h : n.Valid) :
    (if n.text = ['*'] then some intMax else IdRange.parseLong n.text) = some n.high := by
  cases n with
  | number n =>
    rw [text, if_neg (text_number_ne n)]
    exact parseLong_number h.2
  | star => rfl

theorem not_mem_text (n : SeqNumber) {c : Char} (hdigit : c.isDigit = false) (hstar : c ≠ '*') :
    c ∉ n.text := by
  intro h
  rcases mem_text h with hd | rfl
  · rw [hdigit] at hd
    cases hd
  · exact hstar rfl

end SeqNumber

namespace IdRange

/-- One number is a range of one. -/
theorem parseRange_number {n : ℕ} (h : n < 2 ^ 32) : parseRange (Nat.toDigits 10 n) = ⟨n, n⟩ := by
  have hcolon : indexOf ':' (Nat.toDigits 10 n) = none :=
    indexOf_eq_none.mpr (SeqNumber.not_mem_text (.number n) (by decide) (by decide))
  rw [parseRange, if_neg (SeqNumber.text_number_ne n), hcolon]
  simp only [SeqNumber.parseLong_number h, Option.map_some, Option.getD_some]

/-- The ends of a range are taken in the order they are written in. -/
theorem parseRange_range {a b : SeqNumber} (ha : a.Valid) (hb : b.Valid) :
    parseRange (a.text ++ ':' :: b.text) = ⟨a.low, b.high⟩ := by
  have hne : a.text ++ ':' :: b.text ≠ ['*'] := by
    intro h
    have hmem : ':' ∈ ['*'] := h ▸ List.mem_append_right _ List.mem_cons_self
    exact absurd hmem (by decide)
  have hdrop : (a.text ++ ':' :: b.text).drop (a.text.length + 1) = b.text := by
    rw [List.drop_append]
    simp
  rw [parseRange, if_neg hne, indexOf_append (a.not_mem_text (by decide) (by decide))]
  simp only [List.take_left, hdrop, SeqNumber.parseLong_low ha, SeqNumber.parse_high hb,
    Option.getD_some]

/-- A text with a comma is no range. -/
theorem parseRange_comma {s : JString} (h : ',' ∈ s) : parseRange s = ⟨0, 0⟩ := by
  have hnone {t : JString} (ht : ',' ∈ t) : t ≠ ['*'] ∧ parseLong t = none := by
    have hne : t ≠ ['*'] := fun heq => absurd (heq ▸ ht) (by decide)
    rw [parseLong, if_neg hne]
    exact ⟨hne, parseLong_eq_none ht (by decide) (by decide) (by decide)⟩
  rw [parseRange, if_neg (hnone h).1]
  cases hpos : indexOf ':' s with
  | none => rw [(hnone h).2]; rfl
  | some pos =>
    rw [indexOf, List.idxOf?_eq_some_iff] at hpos
    obtain ⟨hlt, hcolon, -⟩ := hpos
    have hsplit : s = s.take pos ++ ':' :: s.drop (pos + 1) := by
      conv_lhs => rw [← List.take_append_drop pos s, List.drop_eq_getElem_cons hlt, hcolon]
    rw [hsplit, List.mem_append, List.mem_cons] at h
    rcases h with hlow | hcomma | hhigh
    · simp only [(hnone hlow).2, Option.getD_none]
    · exact absurd hcomma (by decide)
    · simp only [(hnone hhigh).2, if_neg (hnone hhigh).1]
      cases parseLong (s.take pos) <;> rfl

theorem includes_iff (low high id : ℤ) :
    (IdRange.mk low high).includes id = true ↔ low ≤ id ∧ id ≤ high := decide_eq_true_iff

end IdRange

/-- An item accepts the ids that it stands for if it goes forward; `*` alone accepts everything from zero on, and
other items accept nothing. -/
theorem SeqItem.includes_iff {item : SeqItem} (hvalid : item.Valid) {m id : ℤ} (hm : m ≤ intMax)
    (hle : id ≤ m) :
    (IdRange.parseRange item.text).includes id = true
      ↔ item = .single .star ∧ 0 ≤ id ∨ item.Forward m ∧ item.Denotes m id := by
  have hlong : ¬longMax ≤ id := by
    rw [longMax]
    rw [intMax] at hm
    omega
  cases item with
  | single n =>
    cases n with
    | number n =>
      rw [text, SeqNumber.text, IdRange.parseRange_number hvalid.2, IdRange.includes_iff]
      simp only [single.injEq, reduceCtorEq, false_and, false_or, Forward, ne_eq, not_false_eq_true, true_and,
        Denotes, SeqNumber.value]
      omega
    | star =>
      rw [text, SeqNumber.text, IdRange.parseRange, if_pos rfl, IdRange.includes_iff]
      simp only [Forward, ne_eq, not_true_eq_false, false_and, or_false, true_and]
      omega
  | range a b =>
    rw [text, IdRange.parseRange_range hvalid.1 hvalid.2, IdRange.includes_iff]
    simp only [reduceCtorEq, false_and, false_or]
    cases a with
    | number a =>
      cases b with
      | number b =>
        simp only [SeqNumber.low, SeqNumber.high, Forward, Denotes, SeqNumber.value]
        omega
      | star =>
        simp only [SeqNumber.low, SeqNumber.high, Forward, Denotes, SeqNumber.value]
        omega
    | star => exact iff_of_false (fun h => hlong h.1) fun h => h.1

/-! ## Reading a set -/

namespace SequenceSet

variable (set : SequenceSet)

theorem text_ne_nil_of_mem {token : JString} (h : token ∈ set.items.map SeqItem.text) : token ≠ [] := by
  obtain ⟨item, -, rfl⟩ := List.mem_map.mp h
  cases item with
  | single n => exact n.text_ne_nil
  | range a b => exact List.append_ne_nil_of_right_ne_nil _ (List.cons_ne_nil _ _)

/-- The texts of the items have no separator in them. -/
theorem not_mem_of_mem {token : JString} (h : token ∈ set.items.map SeqItem.text) {c : Char}
    (hdigit : c.isDigit = false) (hstar : c ≠ '*') (hcolon : c ≠ ':') : c ∉ token := by
  obtain ⟨item, -, rfl⟩ := List.mem_map.mp h
  cases item with
  | single n => exact n.not_mem_text hdigit hstar
  | range a b =>
    rw [SeqItem.text, List.mem_append, List.mem_cons, not_or, not_or]
    exact ⟨a.not_mem_text hdigit hstar, hcolon, b.not_mem_text hdigit hstar⟩

theorem text_ne_nil : set.text ≠ [] := by
  obtain ⟨item, items, hitems⟩ := List.exists_cons_of_ne_nil set.ne_nil
  have hitem : item.text ≠ [] := set.text_ne_nil_of_mem (by rw [hitems]; exact List.mem_cons_self)
  rw [text, hitems, List.map_cons]
  cases items with
  | nil => simpa using hitem
  | cons next items => simp [hitem]

/-- The characters of a set. -/
theorem mem_text {set : SequenceSet} {c : Char} (h : c ∈ set.text) :
    c.isDigit = true ∨ c = '*' ∨ c = ':' ∨ c = ',' := by
  by_contra hnot
  rw [not_or, not_or, not_or] at hnot
  obtain ⟨hdigit, hstar, hcolon, hcomma⟩ := hnot
  rcases mem_of_mem_intercalate h with hc | ⟨token, htoken, hc⟩
  · exact hcomma hc
  · exact set.not_mem_of_mem htoken (Bool.eq_false_iff.mpr hdigit) hstar hcolon hc

/-- With commas for separators the items are read one by one. -/
theorem addRangeSequence_text :
    IdRange.addRangeSequence set.text none = set.items.map fun item => IdRange.parseRange item.text := by
  rw [IdRange.addRangeSequence, text, stringTokens_intercalate (by decide)
    (fun token h => set.text_ne_nil_of_mem h), List.map_map]
  · rfl
  · intro token h c hc hmem
    simp only [List.mem_cons, List.not_mem_nil, or_false] at hmem
    rcases hmem with rfl | rfl
    · exact set.not_mem_of_mem h (by decide) (by decide) (by decide) hc
    · exact set.not_mem_of_mem h (by decide) (by decide) (by decide) hc

/-- With blanks alone the whole text is one range. -/
theorem parseRangeSequence_text : IdRange.parseRangeSequence set.text = [IdRange.parseRange set.text] := by
  have hblank : ∀ c ∈ set.text, c ∉ [' '] := by
    intro c hc hmem
    obtain rfl := List.mem_singleton.mp hmem
    exact absurd (mem_text hc) (by decide)
  rw [IdRange.parseRangeSequence, stringTokens_single set.text_ne_nil hblank, List.map_singleton]

/-- A set of several items has a comma. -/
theorem comma_mem_text (h : set.items.length ≠ 1) : ',' ∈ set.text := by
  obtain ⟨item, items, hitems⟩ := List.exists_cons_of_ne_nil set.ne_nil
  cases items with
  | nil => exact absurd (by rw [hitems]; rfl) h
  | cons next items =>
    rw [text, hitems, List.map_cons, List.map_cons, List.intercalate_cons_cons]
    exact List.mem_append_left _ (List.mem_append_right _ (List.mem_singleton_self _))

variable {set} {mailbox : MailboxIds}

/-- What the ranges of all items accept. -/
theorem listIncludes_items_iff {m id : ℤ} (hm : m ≤ intMax) (hle : id ≤ m) :
    IdRange.listIncludes id (set.items.map fun item => IdRange.parseRange item.text) = true
      ↔ (.single .star ∈ set.items ∧ 0 ≤ id) ∨ ∃ item ∈ set.items, item.Forward m ∧ item.Denotes m id := by
  have hitem {item : SeqItem} (h : item ∈ set.items) := SeqItem.includes_iff (set.valid item h) hm hle
  rw [IdRange.listIncludes, List.any_map, List.any_eq_true]
  constructor
  · rintro ⟨item, hmem, haccepts⟩
    rcases (hitem hmem).mp haccepts with ⟨rfl, hid⟩ | hforward
    · exact .inl ⟨hmem, hid⟩
    · exact .inr ⟨item, hmem, hforward⟩
  · rintro (⟨hstar, hid⟩ | ⟨item, hmem, hforward⟩)
    · exact ⟨_, hstar, (hitem hstar).mpr (.inl ⟨rfl, hid⟩)⟩
    · exact ⟨item, hmem, (hitem hmem).mpr (.inr hforward)⟩

/-- An id is accepted just as it stands in the set. -/
theorem agrees_id_iff {m id : ℤ} (hm : m ≤ intMax) (hle : id ≤ m) :
    (IdRange.listIncludes id (set.items.map fun item => IdRange.parseRange item.text) = true ↔ set.Denotes m id)
      ↔ set.CoveredAt m id := by
  rw [listIncludes_items_iff hm hle]
  unfold CoveredAt
  split_ifs with hstar
  · rw [or_iff_left_of_imp fun _ => hstar]
    exact iff_true_left hstar
  · rw [or_iff_right hstar]
    constructor
    · exact fun hagrees item hitem _ hdenotes => hagrees.mpr ⟨item, hitem, hdenotes⟩
    · intro hcovered
      refine ⟨fun ⟨item, hitem, _, hdenotes⟩ => ⟨item, hitem, hdenotes⟩, ?_⟩
      rintro ⟨item, hitem, hdenotes⟩
      by_cases hforward : item.Forward m
      · exact ⟨item, hitem, hforward, hdenotes⟩
      · exact hcovered item hitem hforward hdenotes

/-- If the items are taken one by one, the set is right if and only if no message is missed. -/
theorem agrees_items_iff :
    AgreesWith (set.items.map fun item => IdRange.parseRange item.text) set mailbox
      ↔ set.Covered mailbox := by
  have hcovered : set.Covered mailbox ↔ ∀ id ∈ mailbox.ids, set.CoveredAt mailbox.largest id := by
    unfold Covered CoveredAt
    have hid (id : ℤ) (hmem : id ∈ mailbox.ids) : 0 ≤ id := (mailbox.pos id hmem).le
    by_cases hstar : .single .star ∈ set.items
    · rw [if_pos hstar]
      exact forall₂_congr fun id hmem => by rw [if_pos ⟨hstar, hid id hmem⟩]
    · rw [if_neg hstar]
      exact forall₂_congr fun id _ => by rw [if_neg fun h => hstar h.1]
  rw [hcovered]
  exact forall₂_congr fun id hid => agrees_id_iff (mailbox.le_intMax _ mailbox.largest_mem) (mailbox.le_largest id hid)

end SequenceSet

/-- With a list to add to, the ranges of a sequence set accept its ids exactly if the set is covered; with one
argument a set of several items has to have no id of the mailbox at all. -/
theorem agrees_set_iff (set : SequenceSet) (mailbox : MailboxIds) :
    (AgreesWith (IdRange.addRangeSequence set.text none) set mailbox ↔ set.Covered mailbox)
      ∧ (AgreesWith (IdRange.parseRangeSequence set.text) set mailbox
        ↔ if set.items.length = 1 then set.Covered mailbox
          else ∀ id ∈ mailbox.ids, ¬set.Denotes mailbox.largest id) := by
  refine ⟨?_, ?_⟩
  · rw [set.addRangeSequence_text]
    exact SequenceSet.agrees_items_iff
  · rw [set.parseRangeSequence_text]
    split_ifs with hlen
    · obtain ⟨item, hitem⟩ := List.length_eq_one_iff.mp hlen
      have htext : [IdRange.parseRange set.text] = set.items.map fun item => IdRange.parseRange item.text := by
        rw [SequenceSet.text, hitem, List.map_singleton, List.map_singleton, List.intercalate_singleton]
      rw [htext]
      exact SequenceSet.agrees_items_iff
    · rw [IdRange.parseRange_comma (set.comma_mem_text hlen)]
      refine forall₂_congr fun id hid => ?_
      have hpos := mailbox.pos id hid
      have hnot : IdRange.listIncludes id [⟨0, 0⟩] = false := by
        rw [IdRange.listIncludes, List.any_cons, List.any_nil, Bool.or_false, ← Bool.not_eq_true,
          IdRange.includes_iff]
        omega
      rw [hnot]
      exact ⟨fun h hdenotes => absurd (h.mpr hdenotes) (by decide), fun h => ⟨nofun, fun hd => absurd hd h⟩⟩

/-- `4:2` accepts nothing of a mailbox with three messages. -/
theorem not_agrees_reversed :
    ¬ ∀ (set : SequenceSet) (mailbox : MailboxIds),
      AgreesWith (IdRange.addRangeSequence set.text none) set mailbox := by
  intro h
  have hagrees := h ⟨[.range (.number 4) (.number 2)], by decide, by decide⟩
    ⟨[1, 2, 3], 3, by decide, by decide, by decide, by decide⟩ 3 (by decide)
  exact absurd (hagrees.mpr ⟨_, List.mem_singleton_self _, by decide, by decide⟩) (by decide)

end OrgLittle.Imap
