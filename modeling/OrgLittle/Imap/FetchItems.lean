import OrgLittle.Imap.Fetch
import OrgLittle.Imap.RoundTrip

/-!
# The data items of `FETCH` and how they are read

The grammar of RFC 3501, with the parameters that the decoder makes of an item. `parseFetch_parameters` says what
`parseFetch` reads of a command in which no header field has a bracket in its name.
-/

namespace OrgLittle.Imap

open OrgLittle.Java OrgLittle.Util FetchCommand

/-! ## RFC 3501 -/

/-- `header-fld-name`: an atom or a quoted string. -/
inductive FieldName
  | atom (s : JString) (h : s ≠ [] ∧ ∀ c ∈ s, c ≠ ' ' ∧ c ≠ '(' ∧ c ≠ ')')
  | quoted (s : JString)

/-- The parameter that is decoded. -/
def FieldName.parameter : FieldName → ImapCommandParameter
  | atom s _ => .ofAtom s
  | quoted s => .quotedString s

/-- As it is written. -/
def FieldName.text (name : FieldName) : JString := name.parameter.toString

/-- `section-text`. -/
inductive SectionText
  | header
  | headerFields (without : Bool) (names : List FieldName)
  | text
  | mime

/-- `section-spec`: a part, and what of it. -/
structure Section where
  part : List ℕ
  text : Option SectionText

/-- The octets that are asked for. -/
structure Partial where
  origin : ℕ
  size : ℕ

/-- `fetch-att`. -/
inductive FetchAtt
  | envelope
  | flags
  | internaldate
  | rfc822
  | rfc822Header
  | rfc822Size
  | rfc822Text
  | body
  | bodystructure
  | uid
  | bodySection (peek : Bool) (spec : Section) (octets : Option Partial)

/-- A `fetch-att` or a macro. -/
inductive DataItem
  | all
  | full
  | fast
  | att (a : FetchAtt)

/-- What a macro stands for. -/
def DataItem.atts : DataItem → List FetchAtt
  | all => [.flags, .internaldate, .rfc822Size, .envelope]
  | full => [.flags, .internaldate, .rfc822Size, .envelope, .body]
  | fast => [.flags, .internaldate, .rfc822Size]
  | att a => [a]

/-! ### As it is written -/

/-- The keyword of a section text. -/
def SectionText.keyword : SectionText → JString
  | header => "HEADER".toList
  | headerFields false _ => "HEADER.FIELDS".toList
  | headerFields true _ => "HEADER.FIELDS.NOT".toList
  | text => "TEXT".toList
  | mime => "MIME".toList

namespace Section

/-- The section up to the list of header fields. -/
def head (spec : Section) : JString :=
  ['.'].intercalate (spec.part.map (Nat.toDigits 10) ++ (spec.text.map SectionText.keyword).toList)

/-- The list of header fields. -/
def names (spec : Section) : Option (List FieldName) :=
  match spec.text with
  | some (.headerFields _ names) => some names
  | _ => none

/-- The section. -/
def toText (spec : Section) : JString :=
  spec.head ++ spec.names.elim [] fun names => ' ' :: '(' :: [' '].intercalate (names.map FieldName.text) ++ [')']

end Section

/-- `<origin.size>`. -/
def Partial.text (octets : Partial) : JString :=
  '<' :: Nat.toDigits 10 octets.origin ++ '.' :: Nat.toDigits 10 octets.size ++ ['>']

/-- What is in front of a section. -/
def bodyWord (peek : Bool) : JString := if peek then "BODY.PEEK".toList else "BODY".toList

namespace FetchAtt

/-- The first parameter of an item, in upper case. -/
def word : FetchAtt → JString
  | envelope => "ENVELOPE".toList
  | flags => "FLAGS".toList
  | internaldate => "INTERNALDATE".toList
  | rfc822 => "RFC822".toList
  | rfc822Header => "RFC822.HEADER".toList
  | rfc822Size => "RFC822.SIZE".toList
  | rfc822Text => "RFC822.TEXT".toList
  | body => "BODY".toList
  | bodystructure => "BODYSTRUCTURE".toList
  | uid => "UID".toList
  | bodySection peek spec octets =>
    bodyWord peek ++ '[' :: spec.head ++
      if spec.names.isSome then [] else ']' :: octets.elim [] Partial.text

/-- The other parameters: a list of header fields and the end of the section. -/
def more : FetchAtt → List ImapCommandParameter
  | bodySection _ spec octets =>
    spec.names.elim [] fun names =>
      .openList :: names.map FieldName.parameter ++ [.closeList, .ofAtom (']' :: octets.elim [] Partial.text)]
  | _ => []

/-- The name under which the response has the item. -/
def label : FetchAtt → JString
  | bodySection _ spec octets =>
    "BODY[".toList ++ spec.toText ++ ']' ::
      octets.elim [] fun octets => '<' :: Nat.toDigits 10 octets.origin ++ ['>']
  | a => a.word

end FetchAtt

namespace DataItem

/-- The first parameter, in upper case. -/
def word : DataItem → JString
  | all => "ALL".toList
  | full => "FULL".toList
  | fast => "FAST".toList
  | att a => a.word

/-- The other parameters. -/
def more : DataItem → List ImapCommandParameter
  | att a => a.more
  | _ => []

end DataItem

/-- A data item with the spelling of its first parameter. -/
structure ItemText where
  item : DataItem
  word : JString
  toUpperCase_word : toUpperCase word = item.word

/-- The parameters of an item. -/
def ItemText.parameters (i : ItemText) : List ImapCommandParameter := .ofAtom i.word :: i.item.more

/-- A `FETCH` or `UID FETCH` command. -/
structure FetchText where
  uid : Bool
  name : JString
  name_eq : equalsIgnoreCase "FETCH".toList name = true
  set : SequenceSet
  paren : Bool
  items : List ItemText

namespace FetchText

/-- The parameters of `FETCH`. -/
def parameters (cmd : FetchText) : List ImapCommandParameter :=
  .ofAtom cmd.set.text :: (if cmd.paren then [.openList] else [])
    ++ cmd.items.flatMap ItemText.parameters ++ if cmd.paren then [.closeList] else []

/-- The decoder makes these parameters of a command line. -/
example : (emitted .stub [ascii "a FETCH 2:4 (flags BODY[HEADER.FIELDS (\"TO\")]<0.9> UID)\r\n"]).map
      ImapCommand.parameters
    = [parameters ⟨false, "FETCH".toList, rfl, ⟨[.range (.number 2) (.number 4)], by decide, by decide⟩, true,
        [⟨.att .flags, "flags".toList, rfl⟩,
          ⟨.att (.bodySection false ⟨[], some (.headerFields false [.quoted "TO".toList])⟩ (some ⟨0, 9⟩)),
            "BODY[HEADER.FIELDS".toList, rfl⟩,
          ⟨.att .uid, "UID".toList, rfl⟩]⟩] := by
  decide

/-- The items that are asked for. -/
def atts (cmd : FetchText) : List FetchAtt := cmd.items.flatMap fun i => i.item.atts

end FetchText

/-! ## Reading an item -/

theorem SectionText.mem_keyword {t : SectionText} {c : Char} (h : c ∈ t.keyword) : c = '.' ∨ c.isUpper = true := by
  have hwords : ∀ s ∈ ["HEADER", "HEADER.FIELDS", "HEADER.FIELDS.NOT", "TEXT", "MIME"],
      (s.toList.all fun c => c = '.' ∨ c.isUpper) = true := by decide
  have hall : (t.keyword.all fun c => c = '.' ∨ c.isUpper) = true := by
    match t with
    | header => exact hwords "HEADER" (by simp)
    | headerFields false _ => exact hwords "HEADER.FIELDS" (by simp)
    | headerFields true _ => exact hwords "HEADER.FIELDS.NOT" (by simp)
    | text => exact hwords "TEXT" (by simp)
    | mime => exact hwords "MIME" (by simp)
  simpa using List.all_eq_true.mp hall c h

namespace Section

/-- The section as it is put together: a blank follows every header field. -/
def gathered (spec : Section) : JString :=
  spec.head ++ spec.names.elim [] fun names => ' ' :: '(' :: names.flatMap (fun name => name.text ++ [' ']) ++ [')']

/-- No header field of the section has a `]` in its name. -/
def Closed (spec : Section) : Prop := ∀ names ∈ spec.names, ∀ name ∈ names, ']' ∉ name.text

theorem mem_head {spec : Section} {c : Char} (h : c ∈ spec.head) :
    c.isDigit = true ∨ c = '.' ∨ c.isUpper = true := by
  rcases mem_of_mem_intercalate h with rfl | ⟨token, htoken, hc⟩
  · exact .inr (.inl rfl)
  rcases List.mem_append.mp htoken with hpart | htext
  · obtain ⟨n, -, rfl⟩ := List.mem_map.mp hpart
    exact .inl (List.all_eq_true.mp (toDigits_all_isDigit n) c hc)
  · rw [Option.mem_toList, Option.map_eq_some_iff] at htext
    obtain ⟨t, -, rfl⟩ := htext
    exact .inr (t.mem_keyword hc)

/-- The head of a section has digits, points and capital letters only. -/
theorem notMem_head {spec : Section} {c : Char} (hdigit : c.isDigit = false) (hdot : c ≠ '.')
    (hupper : c.isUpper = false) : c ∉ spec.head := by
  intro h
  rcases mem_head h with hc | hc | hc
  · exact absurd (hdigit.symm.trans hc) (by decide)
  · exact hdot hc
  · exact absurd (hupper.symm.trans hc) (by decide)

end Section

/-- The text of an item when it is put together. -/
def FetchAtt.gathered : FetchAtt → JString
  | bodySection peek spec octets => bodyWord peek ++ '[' :: spec.gathered ++ ']' :: octets.elim [] Partial.text
  | a => a.word

/-- The branch that reads an item. -/
def FetchAtt.branch : FetchAtt → Branch
  | envelope => .ENVELOPE
  | flags => .FLAGS
  | internaldate => .INTERNALDATE
  | rfc822 => .RFC822
  | rfc822Header => .RFC822_HEADER
  | rfc822Size => .RFC822_SIZE
  | rfc822Text => .RFC822_TEXT
  | body => .BODY
  | bodystructure => .BODYSTRUCTURE
  | uid => .UID
  | bodySection peek _ _ => if peek then .BODY_PEEK else .BODY

namespace DataItem

/-- The text of an item when it is put together. -/
def gathered : DataItem → JString
  | att a => a.gathered
  | item => item.word

/-- The branch that reads an item. -/
def branch : DataItem → Branch
  | all => .ALL
  | full => .FULL
  | fast => .FAST
  | att a => a.branch

/-- What an item sets in the request. -/
def apply (fetch : FetchRequest) (item : DataItem) : FetchRequest := item.branch.set item.gathered fetch

/-- No header field of the item has a `]` in its name. -/
def Closed : DataItem → Prop
  | att (.bodySection _ spec _) => spec.Closed
  | _ => True

end DataItem

theorem FieldName.text_ne (name : FieldName) : name.text ≠ ['('] ∧ name.text ≠ [')'] := by
  cases name with
  | atom s h =>
    rw [text, parameter, toString_ofAtom]
    constructor
    · rintro rfl
      exact (h.2 '(' (List.mem_singleton_self _)).2.1 rfl
    · rintro rfl
      exact (h.2 ')' (List.mem_singleton_self _)).2.2 rfl
  | quoted s => constructor <;> simp [text, parameter, ImapCommandParameter.toString]

/-- An opening parenthesis is gathered as text. -/
theorem gather_openList (vol_param : JString) (ps : List ImapCommandParameter) :
    gather vol_param (.openList :: ps) = gather (vol_param ++ ['(']) ps := by
  rw [gather]
  rfl

theorem gather_closeList (vol_param : JString) (ps : List ImapCommandParameter) :
    gather vol_param (.closeList :: ps) = gather (vol_param ++ [')']) ps := by
  rw [gather]
  rfl

/-- The end of a section closes it, whatever has been put together. -/
theorem gather_close (vol_param : JString) {p : ImapCommandParameter} (h : ']' ∈ p.toString)
    (ps : List ImapCommandParameter) : gather vol_param (p :: ps) = (vol_param ++ p.toString, ps) := by
  rw [gather]
  exact if_pos h

/-- A list of header fields is put together with a blank behind each of them. -/
theorem gather_names {names : List FieldName} (h : ∀ name ∈ names, ']' ∉ name.text) (vol_param : JString)
    (ps : List ImapCommandParameter) :
    gather vol_param (names.map FieldName.parameter ++ ps)
      = gather (vol_param ++ names.flatMap fun name => name.text ++ [' ']) ps := by
  induction names generalizing vol_param with
  | nil => simp
  | cons name names ih =>
    have hname : ']' ∉ name.parameter.toString := h name List.mem_cons_self
    have hne : name.parameter.toString ≠ ['('] ∧ name.parameter.toString ≠ [')'] := name.text_ne
    rw [List.map_cons, List.cons_append, gather, if_neg hname, if_pos hne,
      ih fun name hmem => h name (List.mem_cons_of_mem _ hmem), List.flatMap_cons, FieldName.text]
    simp only [List.append_assoc]

/-- The parameters of a section are put together. -/
theorem assemble_section (peek : Bool) {spec : Section} (h : spec.Closed) (octets : Option Partial)
    (ps : List ImapCommandParameter) :
    assemble (FetchAtt.bodySection peek spec octets).word ((FetchAtt.bodySection peek spec octets).more ++ ps)
      = ((FetchAtt.bodySection peek spec octets).gathered, ps) := by
  have hopen (rest : JString) : '[' ∈ bodyWord peek ++ '[' :: rest :=
    List.mem_append_right _ List.mem_cons_self
  have hbody : ']' ∉ bodyWord peek := by cases peek <;> simp [bodyWord]
  have hhead : ']' ∉ spec.head := Section.notMem_head (by decide) (by decide) (by decide)
  show assemble
      (bodyWord peek ++ '[' :: spec.head ++ if spec.names.isSome then [] else ']' :: octets.elim [] Partial.text)
      (spec.names.elim [] (fun names =>
        .openList :: names.map FieldName.parameter ++ [.closeList, .ofAtom (']' :: octets.elim [] Partial.text)]) ++ ps)
    = (bodyWord peek ++ '[' :: spec.gathered ++ ']' :: octets.elim [] Partial.text, ps)
  rw [Section.gathered, assemble]
  cases hnames : spec.names with
  | none =>
    rw [if_neg fun hc => hc.2 (by simp)]
    simp
  | some names =>
    have hnot : ']' ∉ bodyWord peek ++ '[' :: spec.head := by simp [hbody, hhead]
    simp only [Option.isSome_some, if_true, Option.elim_some, List.append_nil, List.append_assoc,
      List.cons_append, List.nil_append]
    rw [if_pos ⟨hopen _, hnot⟩, gather_openList, gather_names (h names hnames), gather_closeList,
      gather_close _ (by rw [toString_ofAtom]; exact List.mem_cons_self), toString_ofAtom]
    simp

/-- A section is taken for `BODY[`, with or without `PEEK`. -/
theorem branch_bodySection (peek : Bool) (rest : JString) :
    FetchCommand.branch (bodyWord peek ++ '[' :: rest) = some (if peek then .BODY_PEEK else .BODY) := by
  cases peek <;> simp [FetchCommand.branch, branches, startsWith, bodyWord]

/-- The first parameter of an item leads to its branch. -/
theorem branch_word (item : DataItem) : FetchCommand.branch item.word = some item.branch := by
  match item with
  | .all => rfl
  | .full => rfl
  | .fast => rfl
  | .att .envelope => rfl
  | .att .flags => rfl
  | .att .internaldate => rfl
  | .att .rfc822 => rfl
  | .att .rfc822Header => rfl
  | .att .rfc822Size => rfl
  | .att .rfc822Text => rfl
  | .att .body => rfl
  | .att .bodystructure => rfl
  | .att .uid => rfl
  | .att (.bodySection peek spec octets) =>
    show FetchCommand.branch (bodyWord peek ++ '[' :: spec.head ++ _) = _
    rw [List.append_assoc, List.cons_append, branch_bodySection]
    rfl

/-- Behind an item nothing is read as a sequence set. -/
theorem parseParameter_word (i : ItemText) (ps : List ImapCommandParameter) (s : Parsed) :
    (parseParameter (.ofAtom i.word) ps s).1.is_id_range = false
      ∧ (parseParameter (.ofAtom i.word) ps s).1.id_range = s.id_range := by
  rw [parseParameter, toString_ofAtom, i.toUpperCase_word, branch_word]
  exact ⟨rfl, rfl⟩

/-- One data item. -/
theorem parseParameter_item (i : ItemText) (h : i.item.Closed) (ps : List ImapCommandParameter) (s : Parsed) :
    parseParameter (.ofAtom i.word) (i.item.more ++ ps) s
      = ({ s with is_id_range := false, fetch := i.item.apply s.fetch }, ps) := by
  rw [parseParameter, toString_ofAtom, i.toUpperCase_word, branch_word]
  generalize i.item = item at h
  cases item with
  | all => rfl
  | full => rfl
  | fast => rfl
  | att a =>
    cases a with
    | bodySection peek spec octets =>
      have hgather := assemble_section peek h octets ps
      cases peek with
      | true => exact congrArg (fun r : JString × List ImapCommandParameter =>
          ({ s with is_id_range := false, fetch := Branch.BODY_PEEK.set r.1 s.fetch }, r.2)) hgather
      | false => exact congrArg (fun r : JString × List ImapCommandParameter =>
          ({ s with is_id_range := false, fetch := Branch.BODY.set r.1 s.fetch }, r.2)) hgather
    | _ => rfl

theorem parseParameter_openList (ps : List ImapCommandParameter) (s : Parsed) :
    parseParameter .openList ps s = ({ s with is_id_range := false }, ps) := rfl

/-- The end of the list is left out. -/
theorem parseParameter_closeList (ps : List ImapCommandParameter) {s : Parsed} (h : s.is_id_range = false) :
    parseParameter .closeList ps s = (s, ps) := by
  have hbranch : FetchCommand.branch (toUpperCase ImapCommandParameter.closeList.toString) = none := rfl
  rw [parseParameter, hbranch]
  exact if_neg (by rw [h]; decide)

/-! ## Reading a command -/

/-- What every parameter preserves. -/
theorem parseParameters_invariant {P : Parsed → Prop} (h : ∀ p ps s, P s → P (parseParameter p ps s).1)
    (ps : List ImapCommandParameter) (s : Parsed) (hs : P s) : P (parseParameters ps s) := by
  induction ps, s using parseParameters.induct with
  | case1 s =>
    rw [parseParameters]
    exact hs
  | case2 p ps s next ih =>
    rw [parseParameters]
    exact ih (h p ps s hs)

/-- Behind the first data item nothing is read as a sequence set. -/
theorem parseParameters_id_range (ps : List ImapCommandParameter) {s : Parsed} (h : s.is_id_range = false) :
    (parseParameters ps s).id_range = s.id_range := by
  refine (parseParameters_invariant (P := fun t => t.is_id_range = false ∧ t.id_range = s.id_range) ?_ ps s ⟨h, rfl⟩).2
  rintro p ps t ⟨hread, hrange⟩
  rw [parseParameter]
  dsimp only
  split
  · exact ⟨rfl, hrange⟩
  · rw [if_neg (by rw [hread]; decide)]
    exact ⟨hread, hrange⟩

/-- The section has no bracket in it. -/
def FetchRequest.SectionFree (fetch : FetchRequest) : Prop := ∀ s ∈ fetch.body_section, ∀ c ∈ s, c ∉ separators

/-- Whatever is parsed, a section holds no separator. -/
theorem parseFetch_sectionFree (ps : List ImapCommandParameter) : (parseFetch ps).2.SectionFree := by
  refine parseParameters_invariant (P := fun t => t.fetch.SectionFree) ?_ ps _ nofun
  intro p ps s hs
  rw [parseParameter]
  dsimp only
  split
  · rename_i b _
    have hset (vol_param : JString) : (b.set vol_param s.fetch).SectionFree := by
      have hsection : (setSection vol_param s.fetch).SectionFree := fun w hw =>
        StringParser.notMem_of_mem_getList (List.mem_of_getElem? hw)
      cases b with
      | BODY => exact hsection
      | BODY_PEEK => exact hsection
      | _ => exact hs
    exact hset _
  · split_ifs <;> exact hs

theorem SequenceSet.range_of_mem_text {set : SequenceSet} {c : Char} (h : c ∈ set.text) :
    42 ≤ c.toNat ∧ c.toNat ≤ 58 := by
  rcases mem_text h with hdigit | rfl | rfl | rfl
  · have hrange : 48 ≤ c.toNat ∧ c.toNat ≤ 57 := Char.isDigit_iff_toNat.mp hdigit
    omega
  · decide
  · decide
  · decide

theorem SequenceSet.toUpperCase_text (set : SequenceSet) : toUpperCase set.text = set.text :=
  toUpperCase_of_forall fun _ hc => Nat.lt_of_le_of_lt (range_of_mem_text hc).2 (by decide)

/-- A sequence set is neither an item nor a list. -/
theorem branch_set (set : SequenceSet) : FetchCommand.branch (toUpperCase set.text) = none := by
  rw [set.toUpperCase_text]
  obtain ⟨c, rest, heq⟩ := List.exists_cons_of_ne_nil set.text_ne_nil
  have hc := SequenceSet.range_of_mem_text (heq ▸ List.mem_cons_self : c ∈ set.text)
  have hne {d : Char} (hd : d.toNat < 42 ∨ 58 < d.toNat) : d ≠ c := by
    rintro rfl
    omega
  rw [heq]
  simp [FetchCommand.branch, branches, startsWith, hne]

namespace FetchText

/-- The set is read as a set. -/
theorem parseParameter_set (set : SequenceSet) (ps : List ImapCommandParameter) :
    parseParameter (.ofAtom set.text) ps ⟨true, none, .new⟩
      = (⟨true, some (IdRange.addRangeSequence set.text none), .new⟩, ps) := by
  rw [parseParameter, toString_ofAtom, branch_set, set.toUpperCase_text]
  rfl

/-- The parameters behind the set. -/
def rest (cmd : FetchText) : List ImapCommandParameter :=
  (if cmd.paren then [.openList] else []) ++ cmd.items.flatMap ItemText.parameters
    ++ if cmd.paren then [.closeList] else []

/-- What has been read when the set has been. -/
def start (cmd : FetchText) : Parsed := ⟨true, some (IdRange.addRangeSequence cmd.set.text none), .new⟩

/-- The range is the first parameter, and the items are the rest. -/
theorem parseFetch_eq (cmd : FetchText) :
    parseFetch cmd.parameters
      = ((parseParameters cmd.rest cmd.start).id_range, (parseParameters cmd.rest cmd.start).fetch) := by
  have hcons : cmd.parameters = .ofAtom cmd.set.text :: cmd.rest := by
    simp only [parameters, rest, List.cons_append]
  rw [hcons, parseFetch, parseParameters, parseParameter_set]
  rfl

/-- The whole set is read, and nothing else with it. -/
theorem parseFetch_fst (cmd : FetchText) :
    (parseFetch cmd.parameters).1 = some (IdRange.addRangeSequence cmd.set.text none) := by
  rw [parseFetch_eq]
  show (parseParameters cmd.rest cmd.start).id_range = cmd.start.id_range
  cases hparen : cmd.paren with
  | true =>
    rw [rest, if_pos hparen, List.append_assoc, List.singleton_append, parseParameters, parseParameter_openList]
    exact parseParameters_id_range _ rfl
  | false =>
    rw [rest, if_neg (by rw [hparen]; decide), if_neg (by rw [hparen]; decide), List.nil_append, List.append_nil]
    cases cmd.items with
    | nil =>
      rw [List.flatMap_nil, parseParameters]
    | cons i items =>
      rw [List.flatMap_cons, ItemText.parameters, List.cons_append, parseParameters]
      have hword := parseParameter_word i (i.item.more ++ items.flatMap ItemText.parameters) cmd.start
      exact (parseParameters_id_range _ hword.1).trans hword.2

/-- The items of a command, one by one. -/
theorem parseParameters_items {items : List ItemText} (h : ∀ i ∈ items, i.item.Closed)
    (ps : List ImapCommandParameter) (s : Parsed) :
    ∃ s' : Parsed, parseParameters (items.flatMap ItemText.parameters ++ ps) s = parseParameters ps s'
      ∧ s'.fetch = (items.map ItemText.item).foldl DataItem.apply s.fetch
      ∧ (s.is_id_range = false → s'.is_id_range = false) := by
  induction items generalizing s with
  | nil => exact ⟨s, rfl, rfl, fun hs => hs⟩
  | cons i items ih =>
    obtain ⟨s', hparse, hfetch, hread⟩ := ih (fun j hj => h j (List.mem_cons_of_mem i hj))
      { s with is_id_range := false, fetch := i.item.apply s.fetch }
    refine ⟨s', ?_, hfetch, fun _ => hread rfl⟩
    rw [List.flatMap_cons, ItemText.parameters, List.cons_append, List.cons_append, List.append_assoc,
      parseParameters, parseParameter_item i (h i List.mem_cons_self)]
    exact hparse

/-- What is read of a command in which no header field has a `]` in its name. -/
theorem parseFetch_snd {cmd : FetchText} (h : ∀ i ∈ cmd.items, i.item.Closed) :
    (parseFetch cmd.parameters).2 = (cmd.items.map ItemText.item).foldl DataItem.apply .new := by
  rw [parseFetch_eq]
  show (parseParameters cmd.rest cmd.start).fetch = _
  cases hparen : cmd.paren with
  | true =>
    rw [rest, if_pos hparen, if_pos hparen, List.append_assoc, List.singleton_append, parseParameters,
      parseParameter_openList]
    obtain ⟨s', hparse, hfetch, hread⟩ :=
      parseParameters_items h [.closeList] { cmd.start with is_id_range := false }
    rw [hparse, parseParameters, parseParameter_closeList _ (hread rfl), parseParameters]
    exact hfetch
  | false =>
    rw [rest, if_neg (by rw [hparen]; decide), if_neg (by rw [hparen]; decide), List.nil_append]
    obtain ⟨s', hparse, hfetch, -⟩ := parseParameters_items h [] cmd.start
    rw [hparse, parseParameters]
    exact hfetch

end FetchText

end OrgLittle.Imap
