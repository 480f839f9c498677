import OrgLittle.Imap.FetchItems

/-!
# The names of the items in a `FETCH` response

Which names a request prints, and which sections are printed under their own name: `Section.named_of_shown` and
`Section.Named.sameName`.
-/

namespace OrgLittle.Imap

open OrgLittle.Java OrgLittle.Util FetchCommand

/-! ## Names of items -/

/-- A name without the blanks in front of closing parentheses. -/
def unspaced : JString → JString
  | [] => []
  | c :: s => if c = ' ' ∧ s.head? = some ')' then unspaced s else c :: unspaced s

/-- Two names are the same up to blanks in front of a closing parenthesis. -/
def SameName (l l' : JString) : Prop := unspaced l = unspaced l'

instance (l l' : JString) : Decidable (SameName l l') := inferInstanceAs (Decidable (unspaced l = unspaced l'))

/-- A text without its blanks. -/
def solid (s : JString) : JString := s.filter fun c => c ≠ ' '

theorem solid_append (s t : JString) : solid (s ++ t) = solid s ++ solid t := List.filter_append ..

theorem solid_cons {c : Char} (h : c ≠ ' ') (s : JString) : solid (c :: s) = c :: solid s :=
  List.filter_cons_of_pos (decide_eq_true h)

theorem solid_of_notMem {s : JString} (h : ' ' ∉ s) : solid s = s := by
  rw [solid, List.filter_eq_self]
  exact fun c hc => decide_eq_true fun heq => h (heq ▸ hc)

/-- The characters without the blanks. -/
theorem mem_solid {s : JString} {c : Char} : c ∈ solid s ↔ c ∈ s ∧ c ≠ ' ' := by
  rw [solid, List.mem_filter, decide_eq_true_iff]

/-- Blanks more or less make no difference. -/
theorem solid_unspaced (s : JString) : solid (unspaced s) = solid s := by
  induction s with
  | nil => rfl
  | cons c s ih =>
    rw [unspaced]
    split_ifs with h
    · rw [ih, h.1]
      rfl
    · simp only [solid, List.filter_cons] at ih ⊢
      rw [ih]

/-- Names that are the same differ in blanks only. -/
theorem SameName.solid_eq {l l' : JString} (h : SameName l l') : solid l = solid l' := by
  rw [← solid_unspaced l, h, solid_unspaced]

/-- A blank in front of a closing parenthesis makes no difference. -/
theorem sameName_blank {l : JString} (h : l.getLast? ≠ some ' ') (r : JString) :
    SameName (l ++ ' ' :: ')' :: r) (l ++ ')' :: r) := by
  induction l with
  | nil => simp [SameName, unspaced]
  | cons c l ih =>
    cases l with
    | nil =>
      have hc : c ≠ ' ' := by
        rintro rfl
        exact h rfl
      simp [SameName, unspaced, hc]
    | cons d l =>
      have hrest : unspaced (d :: (l ++ ' ' :: ')' :: r)) = unspaced (d :: (l ++ ')' :: r)) := ih (by simpa using h)
      have hcons (s : JString) :
          unspaced (c :: d :: s) = if c = ' ' ∧ d = ')' then unspaced (d :: s) else c :: unspaced (d :: s) := by
        simp only [unspaced, List.head?_cons, Option.some_inj]
      rw [SameName, List.cons_append, List.cons_append, List.cons_append, List.cons_append, hcons, hcons, hrest]

/-! ## The names in a response -/

/-- All names that can be printed, and if they are. -/
def table (fetch : FetchRequest) : List (Bool × JString) :=
  [(fetch.uid, "UID".toList), (fetch.flags, "FLAGS".toList), (fetch.size, "RFC822.SIZE".toList),
    (fetch.internaldate, "INTERNALDATE".toList), (fetch.envelope, "ENVELOPE".toList),
    (fetch.bodystructure, "BODYSTRUCTURE".toList), (fetch.body_peek || fetch.body, bodyLabel fetch)]

/-- The names that are printed. -/
def labels (fetch : FetchRequest) : List JString := ((table fetch).filter Prod.fst).map Prod.snd

/-- The labels are those of the lines of the table that are asked for. -/
theorem mem_labels {fetch : FetchRequest} {l : JString} : l ∈ labels fetch ↔ (true, l) ∈ table fetch := by
  simp [labels]

/-- The names of the printed items are the same for all messages. -/
theorem map_label_parseMsg (env : FetchEnv) (msg : FetchMessage) (fetch : FetchRequest) :
    (parseMsg env msg fetch).map Segment.label = labels fetch := by
  have htable : table fetch = (segments env msg fetch).map fun entry => (entry.1, entry.2.label) := rfl
  rw [labels, htable, parseMsg, List.filter_map, List.map_map, List.map_map]
  rfl

/-- The label of a section begins with its bracket. -/
theorem sectionLabel_head (body_section : Option JString) : ∃ rest, sectionLabel body_section = '[' :: rest := by
  unfold sectionLabel
  split
  · exact ⟨_, rfl⟩
  · exact ⟨_, rfl⟩
  · exact ⟨_, rfl⟩
  · exact ⟨_, rfl⟩

/-- The name of a section does not stand for another item. -/
theorem bodyLabel_eq {fetch : FetchRequest} (h : (fetch.body_peek || fetch.body) = true) :
    ∃ c rest, bodyLabel fetch = 'B' :: 'O' :: 'D' :: 'Y' :: c :: rest ∧ (c = '[' ∨ c = 'B') := by
  obtain ⟨rest, hrest⟩ := sectionLabel_head fetch.body_section
  rw [bodyLabel, hrest]
  cases hpeek : fetch.body_peek with
  | true =>
    cases hbody : fetch.body with
    | true => exact ⟨'B', _, rfl, .inr rfl⟩
    | false => exact ⟨'[', _, rfl, .inl rfl⟩
  | false =>
    cases hbody : fetch.body with
    | true => exact ⟨'[', _, rfl, .inl rfl⟩
    | false => rw [hpeek, hbody] at h; cases h

/-- The names that are printed without brackets. -/
def plainNames : List JString :=
  ["UID", "FLAGS", "RFC822.SIZE", "INTERNALDATE", "ENVELOPE", "BODYSTRUCTURE"].map String.toList

/-- The names of all items without brackets. -/
def plainWords : List JString :=
  plainNames ++ ["RFC822", "RFC822.HEADER", "RFC822.TEXT", "BODY"].map String.toList

/-- No two plain names are the same. -/
theorem sameName_plain : ∀ x ∈ plainNames, ∀ y ∈ plainWords, SameName x y → x = y := by decide

/-- A plain word does not begin like a section of the body. -/
theorem plainWords_start :
    ∀ x ∈ plainWords, solid x = x ∧ startsWith x "BODY[".toList = false ∧ startsWith x "BODYB".toList = false := by
  decide

/-- A plain word is not the label of a section of the body. -/
theorem not_sameName_bodyLabel {fetch : FetchRequest} (h : (fetch.body_peek || fetch.body) = true) {l : JString}
    (hl : l ∈ plainWords) : ¬ SameName (bodyLabel fetch) l := by
  obtain ⟨c, rest, heq, hc⟩ := bodyLabel_eq h
  obtain ⟨hsolid, hbracket, hbody⟩ := plainWords_start l hl
  intro hsame
  have hstart : 'B' :: 'O' :: 'D' :: 'Y' :: c :: solid rest = l := by
    rw [← hsolid, ← hsame.solid_eq, heq]
    rcases hc with rfl | rfl <;> rfl
  rcases hc with rfl | rfl
  · rw [← hstart] at hbracket
    cases hbracket
  · rw [← hstart] at hbody
    cases hbody

/-- What is printed has a plain name, or is a section. -/
theorem mem_labels_cases {fetch : FetchRequest} {l : JString} (h : l ∈ labels fetch) :
    l ∈ plainNames ∨ (fetch.body_peek || fetch.body) = true ∧ l = bodyLabel fetch := by
  rw [mem_labels, table] at h
  simp only [List.mem_cons, Prod.mk.injEq, List.not_mem_nil, or_false] at h
  rcases h with ⟨-, rfl⟩ | ⟨-, rfl⟩ | ⟨-, rfl⟩ | ⟨-, rfl⟩ | ⟨-, rfl⟩ | ⟨-, rfl⟩ | ⟨hbody, rfl⟩
  · exact .inl (by simp [plainNames])
  · exact .inl (by simp [plainNames])
  · exact .inl (by simp [plainNames])
  · exact .inl (by simp [plainNames])
  · exact .inl (by simp [plainNames])
  · exact .inl (by simp [plainNames])
  · exact .inr ⟨hbody.symm, rfl⟩

/-- No two of the printed names are the same. -/
theorem labels_pairwise (fetch : FetchRequest) : (labels fetch).Pairwise fun l l' => ¬ SameName l l' := by
  have hplain : plainNames.Pairwise fun l l' => ¬ SameName l l' := by decide
  have hfront : ((((table fetch).take 6).filter Prod.fst).map Prod.snd).Sublist plainNames :=
    List.filter_sublist.map Prod.snd
  have hsplit : labels fetch = (((table fetch).take 6).filter Prod.fst).map Prod.snd
      ++ ([(fetch.body_peek || fetch.body, bodyLabel fetch)].filter Prod.fst).map Prod.snd := by
    rw [← List.map_append, ← List.filter_append]
    rfl
  rw [hsplit, List.pairwise_append]
  refine ⟨hplain.sublist hfront, ?_, ?_⟩
  · cases fetch.body_peek || fetch.body
    · exact List.Pairwise.nil
    · exact List.pairwise_singleton _ _
  · intro x hx y hy hsame
    simp only [List.mem_map, List.mem_filter, List.mem_singleton] at hy
    obtain ⟨_, ⟨rfl, hbody⟩, rfl⟩ := hy
    exact not_sameName_bodyLabel hbody (List.mem_append_left _ (hfront.mem hx)) hsame.symm

/-- A name is printed once, if at all. -/
theorem countP_labels (fetch : FetchRequest) (l : JString) :
    (labels fetch).countP (fun l' => SameName l' l) = 1 ↔ ∃ l' ∈ labels fetch, SameName l' l := by
  have hall := labels_pairwise fetch
  generalize labels fetch = names at hall
  induction names with
  | nil => simp
  | cons x xs ih =>
    obtain ⟨hx, hxs⟩ := List.pairwise_cons.mp hall
    by_cases hsame : SameName x l
    · have hnone : xs.countP (fun l' => decide (SameName l' l)) = 0 := by
        rw [List.countP_eq_zero]
        exact fun y hy hyl => hx y hy (hsame.trans (of_decide_eq_true hyl).symm)
      rw [List.countP_cons, hnone, if_pos (decide_eq_true hsame)]
      exact iff_of_true rfl ⟨x, List.mem_cons_self, hsame⟩
    · rw [List.countP_cons, if_neg (by simpa using hsame), List.exists_mem_cons_iff, or_iff_right hsame]
      exact ih hxs

/-! ## Items with plain names -/

/-- The fields of the request that stand for one item. -/
def FetchAtt.field (fetch : FetchRequest) : FetchAtt → Bool
  | uid => fetch.uid
  | flags => fetch.flags
  | rfc822Size => fetch.size
  | internaldate => fetch.internaldate
  | envelope => fetch.envelope
  | bodystructure => fetch.bodystructure
  | _ => false

/-- A plain word is a label if and only if its item is asked for. -/
theorem mem_labels_iff {fetch : FetchRequest} (w : JString) (hw : w ∈ plainWords) :
    (∃ l ∈ labels fetch, SameName l w)
      ↔ fetch.uid = true ∧ w = "UID".toList ∨ fetch.flags = true ∧ w = "FLAGS".toList
        ∨ fetch.size = true ∧ w = "RFC822.SIZE".toList ∨ fetch.internaldate = true ∧ w = "INTERNALDATE".toList
        ∨ fetch.envelope = true ∧ w = "ENVELOPE".toList
        ∨ fetch.bodystructure = true ∧ w = "BODYSTRUCTURE".toList := by
  have hmem : (∃ l ∈ labels fetch, SameName l w) ↔ w ∈ labels fetch := by
    refine ⟨?_, fun h => ⟨w, h, rfl⟩⟩
    rintro ⟨l, hl, hsame⟩
    rcases mem_labels_cases hl with hplain | ⟨hbody, rfl⟩
    · exact sameName_plain l hplain w hw hsame ▸ hl
    · exact absurd hsame (not_sameName_bodyLabel hbody hw)
  have hbody : ¬((fetch.body_peek || fetch.body) = true ∧ w = bodyLabel fetch) := by
    rintro ⟨hbody, rfl⟩
    exact not_sameName_bodyLabel hbody hw rfl
  rw [hmem, mem_labels, table]
  simp only [List.mem_cons, Prod.mk.injEq, List.not_mem_nil, or_false, eq_comm (a := true), hbody]

/-- An item with a plain name is printed if its field is set. -/
theorem shown_plain_iff (fetch : FetchRequest) {a : FetchAtt}
    (ha : ∀ peek spec octets, a ≠ .bodySection peek spec octets) :
    (∃ l ∈ labels fetch, SameName l a.label) ↔ a.field fetch = true := by
  cases a with
  | bodySection peek spec octets => exact absurd rfl (ha peek spec octets)
  | envelope =>
    apply (mem_labels_iff "ENVELOPE".toList (by simp [plainWords, plainNames])).trans
    simp [FetchAtt.field]
  | flags =>
    apply (mem_labels_iff "FLAGS".toList (by simp [plainWords, plainNames])).trans
    simp [FetchAtt.field]
  | internaldate =>
    apply (mem_labels_iff "INTERNALDATE".toList (by simp [plainWords, plainNames])).trans
    simp [FetchAtt.field]
  | rfc822 =>
    apply (mem_labels_iff "RFC822".toList (by simp [plainWords, plainNames])).trans
    simp [FetchAtt.field]
  | rfc822Header =>
    apply (mem_labels_iff "RFC822.HEADER".toList (by simp [plainWords, plainNames])).trans
    simp [FetchAtt.field]
  | rfc822Size =>
    apply (mem_labels_iff "RFC822.SIZE".toList (by simp [plainWords, plainNames])).trans
    simp [FetchAtt.field]
  | rfc822Text =>
    apply (mem_labels_iff "RFC822.TEXT".toList (by simp [plainWords, plainNames])).trans
    simp [FetchAtt.field]
  | body =>
    apply (mem_labels_iff "BODY".toList (by simp [plainWords, plainNames])).trans
    simp [FetchAtt.field]
  | bodystructure =>
    apply (mem_labels_iff "BODYSTRUCTURE".toList (by simp [plainWords, plainNames])).trans
    simp [FetchAtt.field]
  | uid =>
    apply (mem_labels_iff "UID".toList (by simp [plainWords, plainNames])).trans
    simp [FetchAtt.field]

/-! ## Sections -/

/-- A section is printed under its own name: the whole message, a header without a part, or the octets from the first
one on of the parts 1 and 2. -/
def Section.Named (spec : Section) (octets : Option Partial) : Prop :=
  match spec.part, spec.text, octets with
  | [], none, none => True
  | [], some .header, none => True
  | [], some (.headerFields _ names), none => ∀ name ∈ names, ∀ c ∈ name.text, c ∉ separators
  | [n], none, some octets => (n = 1 ∨ n = 2) ∧ octets.origin = 0
  | _, _, _ => False

/-- What is written behind a section. -/
def octetsLabel (octets : Option Partial) : JString :=
  octets.elim [] fun octets => '<' :: Nat.toDigits 10 octets.origin ++ ['>']

/-- The parts of a name that is printed for a section. -/
inductive Printed : JString → JString → Prop
  | whole : Printed [] []
  | part (c : Char) (h : c = '1' ∨ c = '2') : Printed [c] "<0>".toList
  | header (e : JString) (h : startsWith e "HEADER".toList = true) : Printed e []

/-- The label of a section is what stands between its brackets, and something behind. -/
theorem sectionLabel_printed {body_section : Option JString} (h : ∀ s ∈ body_section, ∀ c ∈ s, c ∉ separators) :
    ∃ e q, sectionLabel body_section = '[' :: e ++ ']' :: q ∧ (∀ c ∈ e, c ∉ separators) ∧ Printed e q := by
  have hheader (s : JString) (hs : startsWith s "HEADER".toList = true) (hbody : body_section = some s) :
      ∃ e q, '[' :: orNull body_section ++ [']'] = '[' :: e ++ ']' :: q ∧ (∀ c ∈ e, c ∉ separators) ∧ Printed e q :=
    ⟨s, [], by rw [hbody]; rfl, h s hbody, .header s hs⟩
  have hone : ∀ c ∈ ['1'], c ∉ separators := by simp [separators]
  have htwo : ∀ c ∈ ['2'], c ∉ separators := by simp [separators]
  unfold sectionLabel bodyPart
  cases body_section with
  | none => exact ⟨[], [], rfl, nofun, .whole⟩
  | some s =>
    dsimp only
    split_ifs with hfields hhead htext happ
    · refine hheader s ?_ rfl
      have hpre : "HEADER".toList <+: "HEADER.FIELDS".toList := ⟨".FIELDS".toList, by simp⟩
      exact List.isPrefixOf_iff_prefix.mpr (hpre.trans (List.isPrefixOf_iff_prefix.mp hfields))
    · exact hheader s hhead rfl
    · exact ⟨['1'], "<0>".toList, by simp, hone, .part '1' (.inl rfl)⟩
    · exact ⟨['2'], "<0>".toList, by simp, htwo, .part '2' (.inr rfl)⟩
    · cases parseInt s with
      | none => exact ⟨[], [], rfl, nofun, .whole⟩
      | some part =>
        dsimp only
        split_ifs
        · exact ⟨['1'], "<0>".toList, by simp, hone, .part '1' (.inl rfl)⟩
        · exact ⟨['2'], "<0>".toList, by simp, htwo, .part '2' (.inr rfl)⟩
        · exact ⟨[], [], rfl, nofun, .whole⟩

/-- The section begins with its part. -/
theorem Section.head_cons (n : ℕ) (ns : List ℕ) (text : Option SectionText) :
    (Section.mk (n :: ns) text).head = Nat.toDigits 10 n ∧ ns = [] ∧ text = none
      ∨ ∃ rest, (Section.mk (n :: ns) text).head = Nat.toDigits 10 n ++ '.' :: rest := by
  rw [Section.head, List.map_cons, List.cons_append]
  cases hrest : ns.map (Nat.toDigits 10) ++ (text.map SectionText.keyword).toList with
  | nil =>
    obtain ⟨hns, htext⟩ := List.append_eq_nil_iff.mp hrest
    left
    refine ⟨List.intercalate_singleton, List.map_eq_nil_iff.mp hns, ?_⟩
    cases text with
    | none => rfl
    | some t => cases htext
  | cons x xs =>
    right
    exact ⟨['.'].intercalate (x :: xs), by rw [List.intercalate_cons_cons, List.append_assoc]; rfl⟩

/-- The names have to be the same up to the end of the section and behind it. -/
theorem split_label {e q t r : JString} (he : ∀ c ∈ e, c ∉ separators) (hq : ']' ∉ q)
    (h : solid (e ++ ']' :: q) = solid (t ++ ']' :: r)) : solid e = solid t ∧ solid q = solid r := by
  have he' : ']' ∉ solid e := fun hmem => he ']' (mem_solid.mp hmem).1 (by simp [separators])
  have hq' : ']' ∉ solid q := fun hmem => hq (mem_solid.mp hmem).1
  rw [solid_append, solid_append, solid_cons (by decide), solid_cons (by decide)] at h
  obtain ⟨hfront, -, hback⟩ := (List.append_cons_inj_of_notMem he' hq').mp h
  exact ⟨hfront, hback⟩

/-- The name of a section item. -/
theorem FetchAtt.label_bodySection (peek : Bool) (spec : Section) (octets : Option Partial) :
    (FetchAtt.bodySection peek spec octets).label
      = "BODY".toList ++ '[' :: (spec.toText ++ ']' :: octetsLabel octets) := by
  show "BODY[".toList ++ spec.toText ++ ']' :: octetsLabel octets = _
  simp

theorem solid_body : solid "BODY".toList = "BODY".toList := by simp [solid]

/-- No name without brackets is that of a section, and the two `BODY` of a request for both kinds are none either. -/
theorem sameName_of_mem_labels {fetch : FetchRequest} {peek : Bool} {spec : Section} {octets : Option Partial}
    {l : JString} (hl : l ∈ labels fetch) (h : SameName l (FetchAtt.bodySection peek spec octets).label) :
    l = bodyLabel fetch ∧ (fetch.body_peek = !fetch.body)
      ∧ solid (sectionLabel fetch.body_section) = '[' :: solid (spec.toText ++ ']' :: octetsLabel octets) := by
  have hsolid := h.solid_eq
  rw [FetchAtt.label_bodySection, solid_append, solid_cons (by decide),
    solid_body] at hsolid
  rcases mem_labels_cases hl with hplain | ⟨hbody, rfl⟩
  · obtain ⟨hself, hstart, -⟩ := plainWords_start l (List.mem_append_left _ hplain)
    rw [← hself, hsolid] at hstart
    simp [startsWith] at hstart
  · rw [bodyLabel] at hsolid
    cases hpeek : fetch.body_peek with
    | true =>
      cases hflag : fetch.body with
      | true =>
        rw [hpeek, hflag] at hsolid
        simp [solid] at hsolid
      | false =>
        rw [hpeek, hflag, if_pos rfl, if_neg (by decide), List.append_nil, solid_append,
          solid_body] at hsolid
        exact ⟨rfl, rfl, List.append_cancel_left hsolid⟩
    | false =>
      cases hflag : fetch.body with
      | true =>
        rw [hpeek, hflag, if_pos rfl, if_neg (by decide), List.nil_append, solid_append,
          solid_body] at hsolid
        exact ⟨rfl, rfl, List.append_cancel_left hsolid⟩
      | false =>
        rw [hpeek, hflag] at hbody
        cases hbody

theorem solid_of_startsWith {e : JString} (h : startsWith e "HEADER".toList = true) :
    ∃ rest, solid e = 'H' :: rest := by
  obtain ⟨rest, rfl⟩ := List.isPrefixOf_iff_prefix.mp h
  exact ⟨"EADER".toList ++ solid rest, by simp [solid]⟩

/-- Numbers have no blanks. -/
theorem solid_toDigits (n : ℕ) : solid (Nat.toDigits 10 n) = Nat.toDigits 10 n :=
  solid_of_notMem fun h => absurd (List.all_eq_true.mp (toDigits_all_isDigit n) ' ' h) (by decide)

/-- Different numbers have different texts. -/
theorem toDigits_inj {n k : ℕ} (h : Nat.toDigits 10 n = Nat.toDigits 10 k) : n = k :=
  Option.some_inj.mp ((parseDigits_toDigits n).symm.trans ((congrArg parseDigits h).trans (parseDigits_toDigits k)))

/-- Without a part there is no origin. -/
theorem octetsLabel_eq_nil {octets : Option Partial} (h : solid (octetsLabel octets) = []) : octets = none := by
  cases octets with
  | none => rfl
  | some octets =>
    rw [octetsLabel, Option.elim_some, List.cons_append, solid_cons (by decide)] at h
    cases h

/-- An origin of zero is printed for a part that begins at zero. -/
theorem octetsLabel_eq_origin {octets : Option Partial} (h : solid (octetsLabel octets) = "<0>".toList) :
    ∃ octets', octets = some octets' ∧ octets'.origin = 0 := by
  cases octets with
  | none =>
    rw [octetsLabel, Option.elim_none] at h
    simp [solid] at h
  | some octets =>
    refine ⟨octets, rfl, ?_⟩
    have horigin : Nat.toDigits 10 octets.origin ++ ['>'] = Nat.toDigits 10 0 ++ ['>'] := by
      rw [octetsLabel, Option.elim_some, List.cons_append, solid_cons (by decide), solid_append, solid_toDigits] at h
      simpa [solid] using h
    exact toDigits_inj (List.append_cancel_right horigin)

/-- A section without a part begins with its keyword. -/
theorem Section.head_nil (t : SectionText) : (Section.mk [] (some t)).head = t.keyword :=
  List.intercalate_singleton

/-- The keyword of a section begins with one of three letters. -/
theorem SectionText.keyword_head (t : SectionText) :
    ∃ c rest, t.keyword = c :: rest ∧ (c = 'H' ∨ c = 'T' ∨ c = 'M') := by
  cases t with
  | header => exact ⟨'H', _, rfl, .inl rfl⟩
  | headerFields without names => cases without <;> exact ⟨'H', _, rfl, .inl rfl⟩
  | text => exact ⟨'T', _, rfl, .inr (.inl rfl)⟩
  | mime => exact ⟨'M', _, rfl, .inr (.inr rfl)⟩

/-- What is printed without a part is the whole message or a header. -/
theorem Section.named_of_printed_nil {text : Option SectionText} {octets : Option Partial} {e q : JString}
    (hfree : ∀ c ∈ e, c ∉ separators) (hprinted : Printed e q) (htext : solid e = solid (Section.mk [] text).toText)
    (hoctets : solid q = solid (octetsLabel octets)) : (Section.mk [] text).Named octets := by
  cases text with
  | none =>
    cases hprinted with
    | whole =>
      obtain rfl := octetsLabel_eq_nil hoctets.symm
      trivial
    | part c hc => rcases hc with rfl | rfl <;> cases htext
    | header e he =>
      obtain ⟨rest, hrest⟩ := solid_of_startsWith he
      rw [hrest] at htext
      cases htext
  | some t =>
    obtain ⟨c, rest, hkeyword, hc⟩ := t.keyword_head
    have hsolid : solid e = c :: solid (rest ++ (Section.mk [] (some t)).names.elim [] fun names =>
        ' ' :: '(' :: [' '].intercalate (names.map FieldName.text) ++ [')']) := by
      rw [htext, Section.toText, Section.head_nil, hkeyword, List.cons_append, solid_cons]
      rcases hc with rfl | rfl | rfl <;> decide
    cases hprinted with
    | whole => cases hsolid
    | part d hd => rcases hd with rfl | rfl <;> rcases hc with rfl | rfl | rfl <;> cases hsolid
    | header e he =>
      obtain ⟨rest', hrest⟩ := solid_of_startsWith he
      obtain rfl := octetsLabel_eq_nil hoctets.symm
      rw [hrest] at hsolid
      obtain ⟨rfl, -⟩ := List.cons.inj hsolid
      cases t with
      | header => trivial
      | headerFields without names =>
        -- a bracket in a name would be printed
        intro name hname d hd hsep
        have hmem : d ∈ (Section.mk [] (some (.headerFields without names))).toText := by
          refine List.mem_append_right _ (List.mem_append_left _ (List.mem_cons_of_mem _ (List.mem_cons_of_mem _ ?_)))
          exact mem_intercalate_of_mem (List.mem_map_of_mem hname) hd
        have hblank : d ≠ ' ' := by
          rintro rfl
          simp [separators] at hsep
        have hin : d ∈ solid e := htext ▸ mem_solid.mpr ⟨hmem, hblank⟩
        exact hfree d (mem_solid.mp hin).1 hsep
      | text =>
        have hhead : "TEXT".toList.head? = some 'H' := congrArg List.head? hkeyword
        simp at hhead
      | mime =>
        have hhead : "MIME".toList.head? = some 'H' := congrArg List.head? hkeyword
        simp at hhead

/-- What is printed for a part are its octets from the first one on. -/
theorem Section.named_of_printed_cons {n : ℕ} {ns : List ℕ} {text : Option SectionText} {octets : Option Partial}
    {e q : JString} (hprinted : Printed e q) (htext : solid e = solid (Section.mk (n :: ns) text).toText)
    (hoctets : solid q = solid (octetsLabel octets)) : (Section.mk (n :: ns) text).Named octets := by
  obtain ⟨d, ds, hdigits⟩ := List.exists_cons_of_ne_nil (Nat.toDigits_ne_nil (b := 10) (n := n))
  have hd : d.isDigit = true := List.all_eq_true.mp (toDigits_all_isDigit n) d (hdigits ▸ List.mem_cons_self)
  have hsolid (rest : JString) : solid (Nat.toDigits 10 n ++ rest) = d :: (ds ++ solid rest) := by
    rw [solid_append, solid_toDigits, hdigits, List.cons_append]
  rcases Section.head_cons n ns text with ⟨hhead, rfl, rfl⟩ | ⟨rest, hhead⟩
  · have hone : solid e = Nat.toDigits 10 n := by
      rw [htext, Section.toText, hhead]
      simp [Section.names, solid_toDigits]
    cases hprinted with
    | whole => exact absurd hone.symm Nat.toDigits_ne_nil
    | header e he =>
      obtain ⟨rest', hrest⟩ := solid_of_startsWith he
      rw [hrest, hdigits] at hone
      obtain ⟨rfl, -⟩ := List.cons.inj hone
      exact absurd hd (by decide)
    | part c hc =>
      have hzero : solid (octetsLabel octets) = "<0>".toList := by
        rw [← hoctets]
        simp [solid]
      obtain ⟨octets', rfl, horigin⟩ := octetsLabel_eq_origin hzero
      refine ⟨?_, horigin⟩
      rcases hc with rfl | rfl
      · exact .inl (toDigits_inj (k := 1) (hone.symm.trans rfl))
      · exact .inr (toDigits_inj (k := 2) (hone.symm.trans rfl))
  · exfalso
    rw [Section.toText, hhead, List.append_assoc, hsolid, List.cons_append, solid_cons (by decide)] at htext
    cases hprinted with
    | whole => cases htext
    | part c hc =>
      have hlength := congrArg List.length htext
      rcases hc with rfl | rfl <;> simp [solid] at hlength
    | header e he =>
      obtain ⟨rest', hrest⟩ := solid_of_startsWith he
      rw [hrest] at htext
      obtain ⟨rfl, -⟩ := List.cons.inj htext
      exact absurd hd (by decide)

/-- A section that is printed under its own name is one of those that can be. -/
theorem Section.named_of_shown {fetch : FetchRequest} (hfree : fetch.SectionFree) {peek : Bool} {spec : Section}
    {octets : Option Partial} {l : JString} (hl : l ∈ labels fetch)
    (h : SameName l (FetchAtt.bodySection peek spec octets).label) : spec.Named octets := by
  obtain ⟨-, -, hsolid⟩ := sameName_of_mem_labels hl h
  obtain ⟨e, q, heq, he, hprinted⟩ := sectionLabel_printed hfree
  rw [heq, List.cons_append, solid_cons (by decide)] at hsolid
  have hq : ']' ∉ q := by
    cases hprinted with
    | part c hc => simp
    | _ => exact List.not_mem_nil
  obtain ⟨htext, hoctets⟩ := split_label he hq (List.cons.inj hsolid).2
  obtain ⟨part, text⟩ := spec
  cases part with
  | nil => exact named_of_printed_nil he hprinted htext hoctets
  | cons n ns => exact named_of_printed_cons hprinted htext hoctets

/-! ### Reading such a section -/

/-- The names in such a section have no bracket in them. -/
theorem Section.Named.closed {spec : Section} {octets : Option Partial} (h : spec.Named octets) : spec.Closed := by
  obtain ⟨part, text⟩ := spec
  intro names hnames name hname hmem
  match part, text, octets, h with
  | [], some (.headerFields _ _), none, h =>
    obtain rfl := Option.some_inj.mp hnames
    exact h name hname ']' hmem (by simp [separators])
  | [], none, none, _ => cases hnames
  | [], some .header, none, _ => cases hnames
  | [_], none, some _, _ => cases hnames

theorem getList_section (peek : Bool) {g : JString} (hg : g ≠ []) (hfree : ∀ c ∈ g, c ∉ separators) (rest : JString) :
    (StringParser.getList (bodyWord peek ++ '[' :: g ++ ']' :: rest) separators)[1]? = some g := by
  have hword : bodyWord peek ≠ [] ∧ ∀ c ∈ bodyWord peek, c ∉ separators := by
    cases peek <;> simp [bodyWord, separators]
  have hopen : '[' ∈ separators := by simp [separators]
  have hclose : ']' ∈ separators := by simp [separators]
  rw [List.append_assoc, List.cons_append, StringParser.getList_word hword.1 hword.2 hopen,
    StringParser.getList_word hg hfree hclose]
  rfl

/-- A name does not end with a blank. -/
theorem FieldName.getLast?_text (name : FieldName) : ∃ c, name.text.getLast? = some c ∧ c ≠ ' ' := by
  cases name with
  | atom s h =>
    rw [text, parameter, toString_ofAtom]
    exact ⟨s.getLast h.1, List.getLast?_eq_some_getLast h.1, (h.2 _ (List.getLast_mem h.1)).1⟩
  | quoted s => exact ⟨'"', List.getLast?_concat, by decide⟩

/-- Blanks behind the names instead of between them. -/
theorem flatMap_names {names : List FieldName} (h : names ≠ []) :
    names.flatMap (fun name => name.text ++ [' ']) = [' '].intercalate (names.map FieldName.text) ++ [' ']
      ∧ ∃ c, ([' '].intercalate (names.map FieldName.text)).getLast? = some c ∧ c ≠ ' ' := by
  induction names with
  | nil => exact absurd rfl h
  | cons name names ih =>
    cases names with
    | nil =>
      rw [List.map_singleton, List.intercalate_singleton, List.flatMap_singleton]
      exact ⟨rfl, name.getLast?_text⟩
    | cons next names =>
      obtain ⟨hflat, c, hlast, hc⟩ := ih (List.cons_ne_nil _ _)
      have hinter : [' '].intercalate ((name :: next :: names).map FieldName.text)
          = name.text ++ [' '] ++ [' '].intercalate ((next :: names).map FieldName.text) :=
        List.intercalate_cons_cons
      rw [List.flatMap_cons, hflat, hinter]
      refine ⟨by simp only [List.append_assoc], c, ?_, hc⟩
      rw [List.getLast?_append, hlast]
      rfl

/-- The label of a list of fields has nothing behind its bracket. -/
theorem sectionLabel_fields {g : JString} (h : startsWith g "HEADER.FIELDS".toList = true) :
    sectionLabel (some g) = '[' :: g ++ [']'] := by
  have hpart : bodyPart (some g) = 3 := if_pos h
  rw [sectionLabel, hpart]
  rfl

theorem toDigits_free (n : ℕ) : ∀ c ∈ Nat.toDigits 10 n, c ∉ separators := by
  have hnone : ∀ c ∈ separators, c.isDigit = false := by
    intro c hc
    simp only [separators, String.reduceToList, List.mem_cons, List.not_mem_nil, or_false] at hc
    rcases hc with rfl | rfl | rfl | rfl <;> rfl
  intro c hc hsep
  exact absurd (List.all_eq_true.mp (toDigits_all_isDigit n) c hc) (by rw [hnone c hsep]; decide)

/-- A list of header fields is printed with a blank in front of its end. -/
theorem sameName_fields {without : Bool} {names : List FieldName}
    (h : ∀ name ∈ names, ∀ c ∈ name.text, c ∉ separators) (peek : Bool) :
    SameName ("BODY".toList ++ sectionLabel (StringParser.getList (bodyWord peek ++ '[' ::
        (Section.mk [] (some (.headerFields without names))).gathered ++ [']']) separators)[1]?)
      ("BODY".toList ++ '[' :: ((Section.mk [] (some (.headerFields without names))).toText ++ [']'])) := by
  -- `HEADER.FIELDS` and `HEADER.FIELDS.NOT` differ in what stands before the names only.
  obtain ⟨front, hfront, hstart, hfree⟩ : ∃ front,
      (Section.mk [] (some (.headerFields without names))).head ++ [' ', '('] = front
        ∧ startsWith front "HEADER.FIELDS".toList = true ∧ ∀ c ∈ front, c ∉ separators := by
    refine ⟨_, rfl, ?_, ?_⟩
    · rw [Section.head_nil]
      cases without with
      | false =>
        exact (by simp [startsWith] :
          startsWith ("HEADER.FIELDS".toList ++ [' ', '(']) "HEADER.FIELDS".toList = true)
      | true =>
        exact (by simp [startsWith] :
          startsWith ("HEADER.FIELDS.NOT".toList ++ [' ', '(']) "HEADER.FIELDS".toList = true)
    · rw [Section.head_nil]
      cases without with
      | false => exact (by simp [separators] : ∀ c ∈ "HEADER.FIELDS".toList ++ [' ', '('], c ∉ separators)
      | true => exact (by simp [separators] : ∀ c ∈ "HEADER.FIELDS.NOT".toList ++ [' ', '('], c ∉ separators)
  have hgathered : (Section.mk [] (some (.headerFields without names))).gathered
      = front ++ names.flatMap (fun name => name.text ++ [' ']) ++ [')'] := by
    simp [Section.gathered, Section.names, ← hfront]
  have htext : (Section.mk [] (some (.headerFields without names))).toText
      = front ++ [' '].intercalate (names.map FieldName.text) ++ [')'] := by
    simp [Section.toText, Section.names, ← hfront]
  have hstart' (rest : JString) : startsWith (front ++ rest) "HEADER.FIELDS".toList = true :=
    List.isPrefixOf_iff_prefix.mpr ((List.isPrefixOf_iff_prefix.mp hstart).trans (List.prefix_append _ _))
  have hgfree : ∀ c ∈ front ++ names.flatMap (fun name => name.text ++ [' ']) ++ [')'], c ∉ separators := by
    intro c hc
    simp only [List.mem_append, List.mem_flatMap, List.mem_singleton] at hc
    rcases hc with (hc | ⟨name, hname, hc | rfl⟩) | rfl
    · exact hfree c hc
    · exact h name hname c hc
    · simp [separators]
    · simp [separators]
  rw [hgathered, htext, getList_section peek (List.append_ne_nil_of_right_ne_nil _ (List.cons_ne_nil _ _)) hgfree,
    List.append_assoc, sectionLabel_fields (hstart' _)]
  -- A blank follows every name that is gathered, also the last one, where the item has none.
  by_cases hnil : names = []
  · rw [hnil, List.flatMap_nil, List.map_nil, List.intercalate_nil, List.nil_append, List.append_nil]
    rfl
  · obtain ⟨hflat, c, hlast, hc⟩ := flatMap_names hnil
    have hlast' : ("BODY".toList ++ '[' :: (front ++ [' '].intercalate (names.map FieldName.text))).getLast?
        ≠ some ' ' := by
      rw [List.getLast?_append, List.getLast?_cons, List.getLast?_append, hlast]
      exact fun heq => hc (Option.some_inj.mp heq)
    rw [hflat]
    simpa using sameName_blank hlast' [']']

/-- What is printed for such a section has its name. -/
theorem Section.Named.sameName {spec : Section} {octets : Option Partial} (h : spec.Named octets) (peek : Bool) :
    SameName ("BODY".toList ++ sectionLabel (StringParser.getList
        (FetchAtt.bodySection peek spec octets).gathered separators)[1]?)
      (FetchAtt.bodySection peek spec octets).label := by
  rw [FetchAtt.label_bodySection]
  show SameName ("BODY".toList ++ sectionLabel (StringParser.getList
    (bodyWord peek ++ '[' :: spec.gathered ++ ']' :: octets.elim [] Partial.text) separators)[1]?) _
  obtain ⟨part, text⟩ := spec
  match part, text, octets, h with
  | [], none, none, _ =>
    cases peek <;> decide
  | [], some .header, none, _ =>
    cases peek <;> decide
  | [n], none, some octets, h =>
    obtain ⟨hn, horigin⟩ := h
    have hgathered : (Section.mk [n] none).gathered = Nat.toDigits 10 n :=
      (List.append_nil _).trans List.intercalate_singleton
    have htext : (Section.mk [n] none).toText = Nat.toDigits 10 n :=
      (List.append_nil _).trans List.intercalate_singleton
    rw [hgathered, htext, getList_section peek Nat.toDigits_ne_nil (toDigits_free n), octetsLabel,
      Option.elim_some, horigin]
    rcases hn with rfl | rfl <;> decide
  | [], some (.headerFields without names), none, h => exact sameName_fields h peek

end OrgLittle.Imap
