import Mathlib

/-!
# XML documents without a document type

A reader for XML 1.0 that knows elements, character data, references, CDATA sections, comments and
processing instructions, and rejects what is not well formed. There is no document type declaration, so
the only entities are the predefined ones. Attributes are checked and dropped.
-/

namespace OrgLittle.Lib.Xml

/-! ## Nodes -/

/-- A node of a document. -/
inductive Node
  | text (data : List Char)
  | cdata (data : List Char)
  | comment (data : List Char)
  | instruction (target data : List Char)
  | element (name : List Char) (children : List Node)

/-- The name of a node; a processing instruction is named by its target. -/
def Node.name : Node → List Char
  | .text _ => "#text".toList
  | .cdata _ => "#cdata-section".toList
  | .comment _ => "#comment".toList
  | .instruction target _ => target
  | .element name _ => name

/-- The children of an element. -/
def Node.children : Node → List Node
  | .element _ children => children
  | _ => []

/-- Comments and processing instructions do not count for the text of their parent. -/
def Node.counts : Node → Bool
  | .comment _ => false
  | .instruction _ _ => false
  | _ => true

mutual

/-- The text of a node. -/
def Node.textContent : Node → List Char
  | .text data => data
  | .cdata data => data
  | .comment data => data
  | .instruction _ data => data
  | .element _ children => textOfAll children

/-- The text of an element with these children. -/
def textOfAll : List Node → List Char
  | [] => []
  | node :: nodes => (if node.counts then node.textContent else []) ++ textOfAll nodes

end

/-! ## Characters -/

/-- A character that may occur in a document. -/
def isChar (c : Char) : Bool :=
  c = '\t' || c = '\n' || c = '\r' || (0x20 ≤ c.toNat && c.toNat ≤ 0xd7ff)
    || (0xe000 ≤ c.toNat && c.toNat ≤ 0xfffd) || 0x10000 ≤ c.toNat

/-- White space. -/
def isSpace (c : Char) : Bool := c = ' ' || c = '\t' || c = '\n' || c = '\r'

/-- A character that a name may begin with. -/
def isNameStart (c : Char) : Bool :=
  c = ':' || c = '_' || c.isAlpha || (0xc0 ≤ c.toNat && c.toNat ≤ 0x2ff && c.toNat ≠ 0xd7 && c.toNat ≠ 0xf7)
    || (0x370 ≤ c.toNat && c.toNat ≤ 0x1fff && c.toNat ≠ 0x37e) || c.toNat = 0x200c || c.toNat = 0x200d
    || (0x2070 ≤ c.toNat && c.toNat ≤ 0x218f) || (0x2c00 ≤ c.toNat && c.toNat ≤ 0x2fef)
    || (0x3001 ≤ c.toNat && c.toNat ≤ 0xd7ff) || (0xf900 ≤ c.toNat && c.toNat ≤ 0xfdcf)
    || (0xfdf0 ≤ c.toNat && c.toNat ≤ 0xfffd) || (0x10000 ≤ c.toNat && c.toNat ≤ 0xeffff)

/-- A character of a name. -/
def isNameChar (c : Char) : Bool :=
  isNameStart c || c = '-' || c = '.' || c.isDigit || c.toNat = 0xb7
    || (0x300 ≤ c.toNat && c.toNat ≤ 0x36f) || c.toNat = 0x203f || c.toNat = 0x2040

/-- Line ends are read as line feeds. -/
def normalizeLines : List Char → List Char
  | [] => []
  | '\r' :: '\n' :: s => '\n' :: normalizeLines s
  | '\r' :: s => '\n' :: normalizeLines s
  | c :: s => c :: normalizeLines s

/-! ## Scanning -/

/-- The text up to the first occurrence of `pat`, and the text after it. -/
def breakAt (pat : List Char) : List Char → Option (List Char × List Char)
  | [] => none
  | c :: s =>
    if pat.isPrefixOf (c :: s) then some ([], (c :: s).drop pat.length)
    else (breakAt pat s).map fun r => (c :: r.1, r.2)

/-- A name, and the text after it. -/
def readName : List Char → Option (List Char × List Char)
  | [] => none
  | c :: s =>
    if isNameStart c then some ((c :: s).takeWhile isNameChar, (c :: s).dropWhile isNameChar) else none

/-- The text after a token. -/
def expect (token s : List Char) : Option (List Char) :=
  if token.isPrefixOf s then some (s.drop token.length) else none

/-- The text after white space. -/
def skipSpace (s : List Char) : List Char := s.dropWhile isSpace

/-! ## Character data -/

/-- The value of a digit. -/
def digitValue (c : Char) : Option ℕ :=
  if c.isDigit then some (c.toNat - 48)
  else if 'a' ≤ c ∧ c ≤ 'f' then some (c.toNat - 87)
  else if 'A' ≤ c ∧ c ≤ 'F' then some (c.toNat - 55)
  else none

/-- A number with this base. -/
def number (base : ℕ) (s : List Char) : Option ℕ :=
  if s = [] then none
  else s.foldlM (fun n c => (digitValue c).bind fun d => if d < base then some (base * n + d) else none) 0

/-- The character with this number. -/
def charOf (n : ℕ) : Option Char :=
  if n.isValidChar ∧ isChar (Char.ofNat n) then some (Char.ofNat n) else none

/-- The character that a reference stands for. -/
def reference (name : List Char) : Option Char :=
  if name = "lt".toList then some '<'
  else if name = "gt".toList then some '>'
  else if name = "amp".toList then some '&'
  else if name = "quot".toList then some '"'
  else if name = "apos".toList then some '\''
  else
    match name with
    | '#' :: 'x' :: digits => (number 16 digits).bind charOf
    | '#' :: digits => (number 10 digits).bind charOf
    | _ => none

/-- Expands the references. `pending` is the name of the reference that is being read, last character
first. -/
def expand : Option (List Char) → List Char → Option (List Char)
  | none, [] => some []
  | some _, [] => none
  | none, '&' :: s => expand (some []) s
  | none, c :: s => if isChar c then (expand none s).map (c :: ·) else none
  | some name, ';' :: s => (reference name.reverse).bind fun c => (expand none s).map (c :: ·)
  | some name, c :: s => expand (some (c :: name)) s

/-- Character data between two tags. -/
def charData (s : List Char) : Option (List Char) :=
  if (breakAt "]]>".toList s).isSome then none else expand none (normalizeLines s)

/-! ## Markup -/

/-- The attributes of a tag up to its end; returns whether the element is empty, and the text after the
tag. `seen` are the names so far. -/
def attributes : ℕ → List (List Char) → List Char → Option (Bool × List Char)
  | 0, _, _ => none
  | fuel + 1, seen, s =>
    match skipSpace s with
    | '>' :: rest => some (false, rest)
    | '/' :: '>' :: rest => some (true, rest)
    | s' => do
      let (name, rest) ← readName s'
      let rest ← expect ['='] (skipSpace rest)
      match skipSpace rest with
      | quote :: rest =>
        let (value, rest) ← breakAt [quote] rest
        if s' = s ∨ seen.contains name ∨ (quote ≠ '"' ∧ quote ≠ '\'') ∨ '<' ∈ value then none
        else do
          let _ ← expand none value
          attributes fuel (name :: seen) rest
      | [] => none

/-- A comment, after its first characters. -/
def comment (s : List Char) : Option (Node × List Char) := do
  let (data, rest) ← breakAt "--".toList s
  let rest ← expect ['>'] rest
  if data.all isChar then some (.comment (normalizeLines data), rest) else none

/-- A CDATA section, after its first characters. -/
def cdata (s : List Char) : Option (Node × List Char) := do
  let (data, rest) ← breakAt "]]>".toList s
  if data.all isChar then some (.cdata (normalizeLines data), rest) else none

/-- A processing instruction, after its first characters. -/
def instruction (s : List Char) : Option (Node × List Char) := do
  let (target, rest) ← readName s
  let (data, rest') ← breakAt "?>".toList rest
  if target.map Char.toLower = "xml".toList ∨ (data ≠ [] ∧ skipSpace data = data) ∨ !data.all isChar then
    none
  else some (.instruction target (normalizeLines (skipSpace data)), rest')

/-- The end tag of an element. -/
def endTag (name s : List Char) : Option (List Char) := do
  let rest ← expect ('<' :: '/' :: name) s
  expect ['>'] (skipSpace rest)

/-- An element, after its first character; `content` reads its content. -/
def element (content : List Char → Option (List Node × List Char)) (s : List Char) :
    Option (Node × List Char) := do
  let (name, rest) ← readName s
  let (empty, rest) ← attributes (rest.length + 1) [] rest
  if empty then some (.element name [], rest)
  else do
    let (children, rest) ← content rest
    let rest ← endTag name rest
    some (.element name children, rest)

/-- Markup, after its first character. -/
def markup (content : List Char → Option (List Node × List Char)) (s : List Char) :
    Option (Node × List Char) :=
  match s with
  | '!' :: '-' :: '-' :: s => comment s
  | '!' :: '[' :: 'C' :: 'D' :: 'A' :: 'T' :: 'A' :: '[' :: s => cdata s
  | '?' :: s => instruction s
  | s => element content s

/-- The content of an element, up to an end tag. -/
def content : ℕ → List Char → Option (List Node × List Char)
  | 0, _ => none
  | _ + 1, [] => some ([], [])
  | _ + 1, '<' :: '/' :: s => some ([], '<' :: '/' :: s)
  | fuel + 1, '<' :: s => do
    let (node, rest) ← markup (content fuel) s
    let (nodes, rest) ← content fuel rest
    some (node :: nodes, rest)
  | fuel + 1, c :: s => do
    let data ← charData ((c :: s).takeWhile (· ≠ '<'))
    let (nodes, rest) ← content fuel ((c :: s).dropWhile (· ≠ '<'))
    some (.text data :: nodes, rest)

/-- White space, comments and processing instructions after the root, up to the end. -/
def misc : ℕ → List Char → Bool
  | 0, _ => false
  | fuel + 1, s =>
    match skipSpace s with
    | [] => true
    | '<' :: '!' :: '-' :: '-' :: s => (comment s).any fun r => misc fuel r.2
    | '<' :: '?' :: s => (instruction s).any fun r => misc fuel r.2
    | _ => false

/-- The root of a document that begins with the declaration `decl` and has no comments before the
root. -/
def parseDocument (decl s : List Char) : Option Node := do
  let s ← expect decl s
  let s ← expect ['<'] (skipSpace s)
  let (root, rest) ← element (content (s.length + 1)) s
  if misc (rest.length + 1) rest then some root else none

/-! ## What the scanners leave -/

/-- What is in front of the pattern, and what is behind it. -/
theorem breakAt_eq {pat s before after : List Char} (h : breakAt pat s = some (before, after)) :
    s = before ++ (pat ++ after) := by
  induction s generalizing before with
  | nil => cases h
  | cons c s ih =>
    rw [breakAt] at h
    split_ifs at h with hpat
    · obtain ⟨rfl, rfl⟩ := Prod.mk.inj (Option.some.inj h)
      obtain ⟨rest, hrest⟩ := List.isPrefixOf_iff_prefix.mp hpat
      rw [← hrest, List.drop_left, List.nil_append]
    · obtain ⟨⟨before', after'⟩, hbreak, heq⟩ := Option.map_eq_some_iff.mp h
      obtain ⟨rfl, rfl⟩ := Prod.mk.inj heq
      rw [ih hbreak, List.cons_append]

/-- What is expected is taken off the front. -/
theorem expect_eq {token s rest : List Char} (h : expect token s = some rest) : s = token ++ rest := by
  rw [expect] at h
  split_ifs at h with htoken
  obtain rfl := Option.some.inj h
  obtain ⟨rest, hrest⟩ := List.isPrefixOf_iff_prefix.mp htoken
  rw [← hrest, List.drop_left]

/-- A name is taken off the front. -/
theorem readName_eq {s name rest : List Char} (h : readName s = some (name, rest)) :
    s = name ++ rest := by
  rcases s with _ | ⟨c, s⟩
  · cases h
  · rw [readName] at h
    split_ifs at h
    rw [Option.some.injEq, Prod.mk.injEq] at h
    rw [← h.1, ← h.2, List.takeWhile_append_dropWhile]

/-- White space is taken off the front. -/
theorem skipSpace_suffix (s : List Char) : skipSpace s <:+ s := List.dropWhile_suffix _

/-- The attributes are taken off the front, up to the end of the tag. -/
theorem attributes_suffix {fuel : ℕ} {seen : List (List Char)} {s rest : List Char} {empty : Bool}
    (h : attributes fuel seen s = some (empty, rest)) : rest <:+ s := by
  induction fuel generalizing seen s with
  | zero => cases h
  | succ fuel ih =>
    have hskip := skipSpace_suffix s
    rw [attributes] at h
    split at h
    · next rest' hs =>
      obtain ⟨rfl, rfl⟩ := Prod.mk.inj (Option.some.inj h)
      rw [hs] at hskip
      exact (List.suffix_cons _ _).trans hskip
    · next rest' hs =>
      obtain ⟨rfl, rfl⟩ := Prod.mk.inj (Option.some.inj h)
      rw [hs] at hskip
      exact ((List.suffix_cons _ _).trans (List.suffix_cons _ _)).trans hskip
    · obtain ⟨⟨name, rest₁⟩, hname, h⟩ := Option.bind_eq_some_iff.mp h
      obtain ⟨rest₂, hequals, h⟩ := Option.bind_eq_some_iff.mp h
      have hname' : rest₁ <:+ s := by
        rw [readName_eq hname] at hskip
        exact (List.suffix_append _ _).trans hskip
      have hequals' : rest₂ <:+ s := by
        have hspace := skipSpace_suffix rest₁
        rw [expect_eq hequals] at hspace
        exact ((List.suffix_append _ _).trans hspace).trans hname'
      split at h
      · next quote rest₃ hquote =>
        obtain ⟨⟨value, rest₄⟩, hvalue, h⟩ := Option.bind_eq_some_iff.mp h
        have hvalue' : rest₄ <:+ s := by
          have hspace := skipSpace_suffix rest₂
          rw [hquote, breakAt_eq hvalue] at hspace
          have hrest : rest₄ <:+ quote :: (value ++ ([quote] ++ rest₄)) :=
            ((List.suffix_append _ _).trans (List.suffix_append _ _)).trans (List.suffix_cons _ _)
          exact (hrest.trans hspace).trans hequals'
        dsimp only at h
        split_ifs at h
        obtain ⟨_, -, h⟩ := Option.bind_eq_some_iff.mp h
        exact (ih h).trans hvalue'
      · cases h

/-- An end tag is taken off the front. -/
theorem endTag_suffix {name s rest : List Char} (h : endTag name s = some rest) : rest <:+ s := by
  rw [endTag] at h
  obtain ⟨rest', hrest', h⟩ := Option.bind_eq_some_iff.mp h
  have hsuffix : rest <:+ skipSpace rest' := ⟨_, (expect_eq h).symm⟩
  rw [expect_eq hrest']
  exact (hsuffix.trans (skipSpace_suffix rest')).trans (List.suffix_append _ _)

/-! ## Reading plain documents

A plain document has start tags without attributes, and text without `<`. -/

/-- A name. -/
def isName : List Char → Bool
  | [] => false
  | c :: s => isNameStart c && s.all isNameChar

/-- An element as it is written, after its first character. -/
def written (name inner : List Char) : List Char :=
  name ++ '>' :: (inner ++ '<' :: '/' :: (name ++ ['>']))

/-- The nodes that a text becomes. -/
def textNodes (s : List Char) : Option (List Node) :=
  if s = [] then some [] else (charData s).map fun data => [.text data]

/-- Without carriage returns the lines are normal. -/
theorem normalizeLines_eq {s : List Char} (h : '\r' ∉ s) : normalizeLines s = s := by
  fun_induction normalizeLines s with
  | case1 => rfl
  | case2 s ih => exact absurd List.mem_cons_self h
  | case3 s _ ih => exact absurd List.mem_cons_self h
  | case4 c s _ _ ih => rw [ih fun hmem => h (List.mem_cons_of_mem c hmem)]

/-- Without references nothing is expanded. -/
theorem expand_eq {s : List Char} (hchar : ∀ c ∈ s, isChar c = true) (hs : '&' ∉ s) :
    expand none s = some s := by
  induction s with
  | nil => rfl
  | cons c s ih =>
    obtain ⟨hc, hrest⟩ := List.forall_mem_cons.mp hchar
    have hne : c ≠ '&' := fun heq => hs (heq ▸ List.mem_cons_self)
    rw [expand.eq_4 c s (fun heq => absurd heq hne), if_pos hc,
      ih hrest fun hmem => hs (List.mem_cons_of_mem c hmem), Option.map_some]

/-- Text in which nothing has a meaning of its own. -/
theorem charData_eq {s : List Char} (hchar : ∀ c ∈ s, isChar c = true)
    (hs : '&' ∉ s ∧ '\r' ∉ s ∧ '>' ∉ s) : charData s = some s := by
  have hbreak : breakAt "]]>".toList s = none := by
    rcases h : breakAt "]]>".toList s with _ | ⟨before, after⟩
    · rfl
    · refine absurd ?_ hs.2.2
      rw [breakAt_eq h]
      simp
  rw [charData, hbreak, normalizeLines_eq hs.2.1, expand_eq hchar hs.1]
  rfl

/-- A name may begin with what it may contain. -/
theorem isNameStart_le (c : Char) (h : isNameStart c = true) : isNameChar c = true := by
  simp [isNameChar, h]

/-- A name is read up to the first character that is not in one. -/
theorem readName_append {name rest : List Char} {c : Char} (hname : isName name = true)
    (hc : isNameChar c = false) : readName (name ++ c :: rest) = some (name, c :: rest) := by
  rcases name with _ | ⟨c₀, name⟩
  · cases hname
  · rw [isName, Bool.and_eq_true] at hname
    have hall : ∀ x ∈ c₀ :: name, isNameChar x = true := by
      intro x hx
      rcases List.mem_cons.mp hx with rfl | hx
      · exact isNameStart_le x hname.1
      · exact List.all_eq_true.mp hname.2 x hx
    rw [List.cons_append, readName, if_pos hname.1, ← List.cons_append,
      List.takeWhile_append_of_pos hall, List.dropWhile_append_of_pos hall,
      List.takeWhile_cons_of_neg (by simp [hc]), List.dropWhile_cons_of_neg (by simp [hc]),
      List.append_nil]

/-- What is expected is there. -/
theorem expect_append (token rest : List Char) : expect token (token ++ rest) = some rest := by
  rw [expect, if_pos (List.isPrefixOf_iff_prefix.mpr (List.prefix_append _ _)), List.drop_left]

/-- The end tag of an element. -/
theorem endTag_append (name rest : List Char) :
    endTag name ('<' :: '/' :: (name ++ '>' :: rest)) = some rest := by
  have hname : expect ('<' :: '/' :: name) ('<' :: '/' :: (name ++ '>' :: rest)) = some ('>' :: rest) :=
    expect_append ('<' :: '/' :: name) ('>' :: rest)
  rw [endTag, hname]
  exact expect_append ['>'] rest

/-- A tag without attributes. -/
theorem attributes_close (fuel : ℕ) (seen : List (List Char)) (rest : List Char) :
    attributes (fuel + 1) seen ('>' :: rest) = some (false, rest) := rfl

/-- Reading an element whose content is known. -/
theorem element_written {content : List Char → Option (List Node × List Char)} {name inner : List Char}
    (hname : isName name = true) {rest : List Char} {children : Option (List Node)}
    (hcontent : content (inner ++ '<' :: '/' :: (name ++ '>' :: rest))
      = children.map (·, '<' :: '/' :: (name ++ '>' :: rest))) :
    element content (written name inner ++ rest)
      = children.map fun children => (.element name children, rest) := by
  have hsrc : written name inner ++ rest
      = name ++ '>' :: (inner ++ '<' :: '/' :: (name ++ '>' :: rest)) := by
    simp [written]
  rw [hsrc, element, readName_append hname (by decide)]
  simp only [Option.bind_eq_bind, Option.bind_some, attributes_close, Bool.false_eq_true, ↓reduceIte,
    hcontent]
  rcases children with _ | children
  · rfl
  · simp only [Option.map_some, Option.bind_some, endTag_append]

/-- An element that is read with its start tag known. -/
theorem exists_of_element {content : List Char → Option (List Node × List Char)} {name rest after : List Char}
    (hname : isName name = true) {node : Node} (h : element content (name ++ '>' :: rest) = some (node, after)) :
    ∃ children after', content rest = some (children, after') ∧ node = .element name children := by
  rw [element, readName_append hname (by decide)] at h
  simp only [Option.bind_eq_bind, Option.bind_some, attributes_close, Bool.false_eq_true, ↓reduceIte] at h
  obtain ⟨⟨children, after'⟩, hcontent, h⟩ := Option.bind_eq_some_iff.mp h
  obtain ⟨_, -, h⟩ := Option.bind_eq_some_iff.mp h
  cases h
  exact ⟨children, after', hcontent, rfl⟩

/-- Content that begins with text. -/
theorem content_text {s : List Char} (hne : s ≠ []) (hs : '<' ∉ s) (fuel : ℕ) (rest : List Char) :
    content (fuel + 1) (s ++ '<' :: rest)
      = (charData s).bind fun data =>
          (content fuel ('<' :: rest)).map fun r => (.text data :: r.1, r.2) := by
  have hpos : ∀ x ∈ s, decide (x ≠ '<') = true := by
    intro x hx
    simpa using fun heq : x = '<' => hs (heq ▸ hx)
  have htake : (s ++ '<' :: rest).takeWhile (· ≠ '<') = s := by
    rw [List.takeWhile_append_of_pos hpos, List.takeWhile_cons_of_neg (by simp), List.append_nil]
  have hdrop : (s ++ '<' :: rest).dropWhile (· ≠ '<') = '<' :: rest := by
    rw [List.dropWhile_append_of_pos hpos, List.dropWhile_cons_of_neg (by simp)]
  rcases s with _ | ⟨c, s⟩
  · exact absurd rfl hne
  · have hc : c ≠ '<' := fun heq => hs (heq ▸ List.mem_cons_self)
    rw [List.cons_append] at htake hdrop ⊢
    rw [content.eq_5 fuel c _ (fun _ heq => absurd heq hc) (fun heq => absurd heq hc), htake, hdrop]
    rcases charData (c :: s) with _ | data
    · rfl
    · show (content fuel ('<' :: rest)).bind _ = Option.map _ (content fuel ('<' :: rest))
      rcases content fuel ('<' :: rest) with _ | ⟨nodes, rest'⟩
      · rfl
      · rfl

/-- Content that begins with an element. -/
theorem content_markup {c : Char} (hc : c ≠ '/') (fuel : ℕ) (s : List Char) :
    content (fuel + 1) ('<' :: c :: s)
      = (markup (content fuel) (c :: s)).bind fun r =>
          (content fuel r.2).map fun r' => (r.1 :: r'.1, r'.2) := by
  rw [content.eq_4 fuel _ (fun _ heq => hc (List.cons.inj heq).1)]
  rcases markup (content fuel) (c :: s) with _ | ⟨node, rest⟩
  · rfl
  · show (content fuel rest).bind _ = Option.map _ (content fuel rest)
    rcases content fuel rest with _ | ⟨nodes, rest'⟩
    · rfl
    · rfl

/-- A name does not begin like other markup. -/
theorem isNameStart_ne {c : Char} (hc : isNameStart c = true) : c ≠ '/' ∧ c ≠ '!' ∧ c ≠ '?' := by
  refine ⟨?_, ?_, ?_⟩
  all_goals
    rintro rfl
    exact absurd hc (by decide)

/-- What begins with a name is an element. -/
theorem markup_element {c : Char} (hc : isNameStart c = true)
    (content : List Char → Option (List Node × List Char)) (s : List Char) :
    markup content (c :: s) = element content (c :: s) := by
  obtain ⟨-, hbang, hquestion⟩ := isNameStart_ne hc
  unfold markup
  split
  · next heq => exact absurd (List.cons.inj heq).1 hbang
  · next heq => exact absurd (List.cons.inj heq).1 hbang
  · next heq => exact absurd (List.cons.inj heq).1 hquestion
  · rfl

/-- The text `src`, which follows a `<`, is read as an element, if it is well formed. -/
structure Reads (src : List Char) (node : Option Node) : Prop where
  start : ∃ c s, src = c :: s ∧ isNameStart c = true
  read : ∀ fuel rest, src.length < fuel →
    element (content fuel) (src ++ rest) = node.map fun node => (node, rest)

/-- A written element begins with its name. -/
theorem written_start {name : List Char} (hname : isName name = true) (inner : List Char) :
    ∃ c s, written name inner = c :: s ∧ isNameStart c = true := by
  rcases name with _ | ⟨c, name⟩
  · cases hname
  · rw [isName, Bool.and_eq_true] at hname
    exact ⟨c, _, rfl, hname.1⟩

theorem length_written (name inner : List Char) :
    (written name inner).length = 2 * name.length + inner.length + 4 := by
  simp only [written, List.length_append, List.length_cons, List.length_nil]
  omega

/-- An element that holds only text. -/
theorem Reads.leaf {name s : List Char} (hname : isName name = true) (hs : '<' ∉ s) :
    Reads (written name s) ((textNodes s).map (.element name)) := by
  refine ⟨written_start hname s, fun fuel rest hfuel => ?_⟩
  rw [length_written] at hfuel
  obtain ⟨fuel, rfl⟩ : ∃ n, fuel = n + 2 := ⟨fuel - 2, by omega⟩
  have hcontent : ∀ rest, content (fuel + 2) (s ++ '<' :: '/' :: rest)
      = (textNodes s).map (·, '<' :: '/' :: rest) := by
    intro rest
    by_cases hne : s = []
    · subst hne
      rfl
    · rw [content_text hne hs, textNodes, if_neg hne]
      rcases charData s with _ | data
      · rfl
      · rfl
  rw [element_written hname (hcontent _), Option.map_map]
  rfl

/-- Elements on lines of their own, as they are written. -/
def lines : List (List Char) → List Char
  | [] => ['\n']
  | src :: srcs => '\n' :: '<' :: (src ++ lines srcs)

/-- Elements on lines of their own, as they are read. -/
def onLines : List Node → List Node
  | [] => [.text ['\n']]
  | node :: nodes => .text ['\n'] :: node :: onLines nodes

/-- Elements that can be read can be read line by line. -/
theorem content_lines {items : List (List Char × Option Node)} (h : ∀ item ∈ items, Reads item.1 item.2)
    {fuel : ℕ} (hfuel : (lines (items.map Prod.fst)).length + 1 < fuel) (rest : List Char) :
    content fuel (lines (items.map Prod.fst) ++ '<' :: '/' :: rest)
      = (items.mapM Prod.snd).map fun nodes => (onLines nodes, '<' :: '/' :: rest) := by
  have hnewline : charData ['\n'] = some ['\n'] := by decide
  induction items generalizing fuel with
  | nil =>
    obtain ⟨fuel, rfl⟩ : ∃ n, fuel = n + 2 := ⟨fuel - 2, by omega⟩
    show content (fuel + 2) (['\n'] ++ '<' :: ('/' :: rest)) = _
    rw [content_text (by simp) (by decide), hnewline]
    rfl
  | cons item items ih =>
    obtain ⟨hitem, hitems⟩ := List.forall_mem_cons.mp h
    obtain ⟨c, s, hsrc, hc⟩ := hitem.start
    simp only [List.map_cons, lines, List.length_cons, List.length_append] at hfuel
    obtain ⟨fuel, rfl⟩ : ∃ n, fuel = n + 2 := ⟨fuel - 2, by omega⟩
    have hrest := ih hitems (show (lines (items.map Prod.fst)).length + 1 < fuel by omega)
    have hread := hitem.read fuel (lines (items.map Prod.fst) ++ '<' :: '/' :: rest) (by omega)
    have hmarkup : content (fuel + 1)
        ('<' :: (item.1 ++ (lines (items.map Prod.fst) ++ '<' :: '/' :: rest)))
        = (item.2.map fun node => (node, lines (items.map Prod.fst) ++ '<' :: '/' :: rest)).bind fun r =>
            (content fuel r.2).map fun r' => (r.1 :: r'.1, r'.2) := by
      rw [← hread, hsrc, List.cons_append, content_markup (isNameStart_ne hc).1, markup_element hc]
    have hlines : lines ((item :: items).map Prod.fst) ++ '<' :: '/' :: rest
        = ['\n'] ++ '<' :: (item.1 ++ (lines (items.map Prod.fst) ++ '<' :: '/' :: rest)) := by
      simp [lines]
    rw [hlines, content_text (by simp) (by decide), hnewline, hmarkup, List.mapM_cons]
    rcases item.2 with _ | node
    · rfl
    · show Option.map _ (Option.map _ (content fuel _)) = _
      rw [hrest]
      rcases items.mapM Prod.snd with _ | nodes
      · rfl
      · rfl

/-- Content that is read and begins with an element on a line of its own. -/
theorem exists_of_content_line {fuel : ℕ} {src rest after : List Char} {nodes : List Node}
    (hsrc : ∃ c s, src = c :: s ∧ isNameStart c = true)
    (h : content fuel ('\n' :: '<' :: (src ++ rest)) = some (nodes, after)) :
    ∃ fuel' node nodes' after', element (content fuel') (src ++ rest) = some (node, after')
      ∧ nodes = .text ['\n'] :: node :: nodes' := by
  have hnewline : charData ['\n'] = some ['\n'] := by decide
  obtain ⟨c, s, rfl, hc⟩ := hsrc
  obtain _ | fuel := fuel
  · cases h
  change content (fuel + 1) (['\n'] ++ '<' :: (c :: s ++ rest)) = _ at h
  rw [content_text (by simp) (by decide), hnewline, Option.bind_some] at h
  obtain ⟨⟨nodes₁, after₁⟩, hcontent, heq⟩ := Option.map_eq_some_iff.mp h
  obtain _ | fuel := fuel
  · cases hcontent
  rw [List.cons_append, content_markup (isNameStart_ne hc).1, markup_element hc] at hcontent
  obtain ⟨⟨node, after₂⟩, helement, hcontent⟩ := Option.bind_eq_some_iff.mp hcontent
  obtain ⟨⟨nodes₂, after₃⟩, -, hnodes⟩ := Option.map_eq_some_iff.mp hcontent
  cases hnodes
  cases heq
  exact ⟨fuel, node, nodes₂, after₂, helement, rfl⟩

/-- An element that holds elements on lines of their own. -/
theorem Reads.lines {name : List Char} (hname : isName name = true)
    {items : List (List Char × Option Node)} (h : ∀ item ∈ items, Reads item.1 item.2) :
    Reads (written name (lines (items.map Prod.fst)))
      ((items.mapM Prod.snd).map fun nodes => .element name (onLines nodes)) := by
  refine ⟨written_start hname _, fun fuel rest hfuel => ?_⟩
  rw [length_written] at hfuel
  have hcontent : ∀ rest, content fuel (Xml.lines (items.map Prod.fst) ++ '<' :: '/' :: rest)
      = ((items.mapM Prod.snd).map onLines).map (·, '<' :: '/' :: rest) := by
    intro rest
    rw [content_lines h (by omega), Option.map_map]
    rfl
  rw [element_written hname (hcontent _), Option.map_map, Option.map_map]
  rfl

/-- A document whose root is read. -/
theorem parseDocument_written {decl src : List Char} {node : Option Node} (h : Reads src node) :
    parseDocument decl (decl ++ '\n' :: '<' :: src) = node := by
  have hread := h.read (src.length + 1) [] (by omega)
  rw [List.append_nil] at hread
  rw [parseDocument, expect_append]
  show (element (content (src.length + 1)) src).bind _ = _
  rw [hread]
  rcases node with _ | node
  · rfl
  · rfl

/-- The root of a document that is read. -/
theorem exists_of_parseDocument {decl src : List Char} {root : Node}
    (h : parseDocument decl (decl ++ '\n' :: '<' :: src) = some root) :
    ∃ fuel after, element (content fuel) src = some (root, after) := by
  rw [parseDocument, expect_append] at h
  change (element (content (src.length + 1)) src).bind _ = _ at h
  obtain ⟨⟨root', after⟩, helement, h⟩ := Option.bind_eq_some_iff.mp h
  dsimp only at h
  split_ifs at h
  cases h
  exact ⟨_, after, helement⟩

end OrgLittle.Lib.Xml
