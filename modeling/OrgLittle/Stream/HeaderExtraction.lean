import OrgLittle.Stream.SAXParser

/-!
# What `ufpsSAXParser` takes from a header

The parser takes the first piece of the text behind a start tag, and the values of the attributes. It stops at the end
of a header, or at the first text or an attribute of a body. `Content.marks` is what it sees of a document, and
`run_reading` that reading the events comes to reading the marks.
-/

namespace OrgLittle.Stream

open OrgLittle.Java UfpsSAXParser

/-! ## What the parser sees of a document -/

/-- What a document offers for the fields: a name with the text that is seen of it and the whole one, and the end of an
element. -/
inductive Mark
  | item (name : JString) (seen : Option JString) (whole : JString)
  | close (name : JString)
deriving DecidableEq

section marks

variable (f : Form)

/-- The values of the attributes. -/
def attributeMarks (attributes : List Attribute) : List Mark :=
  attributes.map fun a => .item a.getLocalName (some a.getValue) a.getValue

/-- Of an element the first piece of its text is seen, and nothing if the element is left out. -/
def Content.marks : Content → List Mark
  | empty => []
  | text _ rest => rest.marks
  | other _ rest => rest.marks
  | element tag children rest =>
    attributeMarks tag.attributes
      ++ .item tag.getName.getLocalPart (if delElement f tag.getName.getLocalPart then none else children.firstText)
          children.wholeText
        :: (children.marks ++ .close tag.getName.getLocalPart :: rest.marks)

/-- What the parser does at a mark. -/
def readMark (r : Reading) : Mark → Reading
  | .item _ none _ => r
  | .item name (some text) _ => setElement (some name) text r
  | .close name => endElement name r

/-- The attributes are read one after the other. -/
theorem readAttributes_eq (attributes : List Attribute) (r : Reading) :
    readAttributes attributes r = (attributeMarks attributes).foldl readMark r := by
  rw [readAttributes, attributeMarks, List.foldl_map]
  rfl

/-- Text outside an element is not taken. -/
theorem setElement_none (data : JString) (r : Reading) : setElement none data r = r := by
  unfold setElement
  split <;> rfl

/-- The text that comes first within an element. -/
def readFirst (s : State) (c : Content) : Reading :=
  if s.isDel then s.reading else c.firstText.elim s.reading fun text => setElement s.currentElement text s.reading

/-- Text that belongs to no element is not read. -/
theorem readFirst_none {s : State} (hcurrent : s.currentElement = none) (c : Content) : readFirst s c = s.reading := by
  unfold readFirst
  rw [hcurrent]
  split
  · rfl
  · cases c.firstText with
    | none => rfl
    | some text => exact setElement_none text s.reading

/-- Within an element the text that comes first is read, unless the element is left out. -/
theorem readFirst_start (s : State) (tag : Tag) (children : Content) :
    readFirst (step f s (.startElement tag)) children
      = readMark (readAttributes tag.attributes s.reading)
          (.item tag.getName.getLocalPart
            (if delElement f tag.getName.getLocalPart then none else children.firstText) children.wholeText) := by
  change (if delElement f tag.getName.getLocalPart = true then _ else _) = _
  split_ifs with hdel
  · rfl
  · cases children.firstText <;> rfl

/-- Reading content comes to reading its marks, behind the text that comes first. -/
theorem run_reading (c : Content) (s : State) :
    (run f s c.events).reading = (c.marks f).foldl readMark (readFirst s c) := by
  induction c generalizing s with
  | empty =>
    unfold readFirst
    split <;> rfl
  | text data rest ih =>
    rw [Content.events, run_cons, ih]
    cases hdel : s.isDel with
    | true =>
      -- The text is skipped, and so are the pieces behind it.
      have hstep : step f s (.characters data) = s := if_pos hdel
      have hfirst : readFirst s (.text data rest) = readFirst s rest := by
        rw [readFirst, readFirst, if_pos hdel, if_pos hdel]
      rw [hstep, hfirst]
      rfl
    | false =>
      -- The text is taken, and there is no current element for the pieces behind it.
      have hnot : ¬ s.isDel = true := by rw [hdel]; exact Bool.false_ne_true
      have hstep : step f s (.characters data) = { s with
          currentElement := none
          reading := setElement s.currentElement data s.reading
          written := s.written ++ write f s.isDel [.writeCharacters data] } := if_neg hnot
      have hfirst : readFirst s (.text data rest) = setElement s.currentElement data s.reading := if_neg hnot
      rw [hstep, readFirst_none rfl, hfirst]
      rfl
  | other data rest ih => exact ih s
  | element tag children rest ihchildren ihrest =>
    have hfirst : readFirst s (.element tag children rest) = s.reading := by
      unfold readFirst
      split <;> rfl
    rw [Content.events, run_cons, run_append, run_cons, ihrest, readFirst_none rfl]
    change (rest.marks f).foldl readMark (endElement tag.getName.getLocalPart
      (run f (step f s (.startElement tag)) children.events).reading) = _
    rw [ihchildren, readFirst_start, readAttributes_eq, hfirst, Content.marks]
    simp only [List.foldl_append, List.foldl_cons, readMark]

end marks

/-! ## The values under a name -/

/-- The mark has this name, up to the case of letters. -/
def Mark.Named (name : JString) : Mark → Prop
  | .item n _ _ => equalsIgnoreCase n name = true
  | .close _ => False

instance (name : JString) (m : Mark) : Decidable (m.Named name) := by
  cases m with
  | item n seen whole => exact inferInstanceAs (Decidable (equalsIgnoreCase n name = true))
  | close n => exact inferInstanceAs (Decidable False)

/-- The text that is seen at a mark. -/
def Mark.seen : Mark → Option JString
  | .item _ seen _ => seen
  | .close _ => none

/-- The whole text at a mark. -/
def Mark.whole : Mark → JString
  | .item _ _ whole => whole
  | .close _ => []

/-- The texts that are seen under a name. -/
def seenTexts (name : JString) (ms : List Mark) : List JString := (ms.filter fun m => m.Named name).filterMap Mark.seen

/-- The whole texts under a name. -/
def wholeTexts (name : JString) (ms : List Mark) : List JString := (ms.filter fun m => m.Named name).map Mark.whole

section texts

variable (name : JString)

/-- No more is seen than there is. -/
theorem length_seenTexts_le (ms : List Mark) : (seenTexts name ms).length ≤ (wholeTexts name ms).length := by
  rw [wholeTexts, List.length_map]
  exact List.length_filterMap_le _ _

theorem seenTexts_append (ms ms' : List Mark) :
    seenTexts name (ms ++ ms') = seenTexts name ms ++ seenTexts name ms' := by
  rw [seenTexts, List.filter_append, List.filterMap_append]
  rfl

theorem wholeTexts_append (ms ms' : List Mark) :
    wholeTexts name (ms ++ ms') = wholeTexts name ms ++ wholeTexts name ms' := by
  rw [wholeTexts, List.filter_append, List.map_append]
  rfl

/-- There is no text if no mark has the name. -/
theorem wholeTexts_eq_nil {ms : List Mark} : wholeTexts name ms = [] ↔ ∀ m ∈ ms, ¬ m.Named name := by
  rw [wholeTexts, List.map_eq_nil_iff, List.filter_eq_nil_iff]
  simp only [decide_eq_true_eq]

/-- Then none is seen either. -/
theorem seenTexts_eq_nil {ms : List Mark} (h : wholeTexts name ms = []) : seenTexts name ms = [] := by
  have hle := length_seenTexts_le name ms
  rw [h] at hle
  exact List.length_eq_zero_iff.mp (Nat.le_zero.mp hle)

/-- All texts under a name are seen as they are. -/
theorem seenTexts_eq_wholeTexts {ms : List Mark} :
    seenTexts name ms = wholeTexts name ms ↔ ∀ m ∈ ms, m.Named name → m.seen = some m.whole := by
  induction ms with
  | nil => exact iff_of_true rfl fun m hm => absurd hm List.not_mem_nil
  | cons m ms ih =>
    have hle := length_seenTexts_le name ms
    rw [List.forall_mem_cons, ← ih]
    by_cases hname : m.Named name
    · have hwhole : wholeTexts name (m :: ms) = m.whole :: wholeTexts name ms := by
        simp only [wholeTexts, List.filter_cons, hname, decide_true, if_true, List.map_cons]
      have hseen : seenTexts name (m :: ms) = m.seen.toList ++ seenTexts name ms := by
        simp only [seenTexts, List.filter_cons, hname, decide_true, if_true, List.filterMap_cons]
        cases m.seen <;> rfl
      rw [hwhole, hseen]
      cases m.seen with
      | none =>
        refine iff_of_false (fun h => ?_) fun h => by cases h.1 hname
        have hlength := congrArg List.length h
        rw [Option.toList_none, List.nil_append, List.length_cons] at hlength
        omega
      | some text =>
        rw [Option.toList_some, List.singleton_append, List.cons.injEq]
        exact and_congr_left fun _ => ⟨fun h _ => congrArg some h, fun h => Option.some.inj (h hname)⟩
    · have hwhole : wholeTexts name (m :: ms) = wholeTexts name ms := by
        simp only [wholeTexts, List.filter_cons, hname, decide_false, Bool.false_eq_true, if_false]
      have hseen : seenTexts name (m :: ms) = seenTexts name ms := by
        simp only [seenTexts, List.filter_cons, hname, decide_false, Bool.false_eq_true, if_false]
      rw [hwhole, hseen]
      exact ⟨fun h => ⟨fun hnamed => absurd hnamed hname, h⟩, fun h => h.2⟩

/-- The only mark of a name. -/
theorem wholeTexts_eq_singleton {ms : List Mark} {whole : JString} (h : wholeTexts name ms = [whole]) :
    ∃ seen : Option JString, seenTexts name ms = seen.toList
      ∧ (∃ m ∈ ms, m.Named name ∧ m.seen = seen ∧ m.whole = whole)
      ∧ ∀ m ∈ ms, m.Named name → m.seen = seen ∧ m.whole = whole := by
  rw [wholeTexts, List.map_eq_singleton_iff] at h
  obtain ⟨m, hfilter, hwhole⟩ := h
  have hmem (m' : Mark) : m' ∈ ms ∧ m'.Named name ↔ m' = m := by
    have hiff : m' ∈ ms.filter (fun m => m.Named name) ↔ m' ∈ ms ∧ decide (m'.Named name) = true := List.mem_filter
    rw [hfilter, List.mem_singleton, decide_eq_true_eq] at hiff
    exact hiff.symm
  refine ⟨m.seen, ?_, ⟨m, ((hmem m).mpr rfl).1, ((hmem m).mpr rfl).2, rfl, hwhole⟩, fun m' hm' hname => ?_⟩
  · rw [seenTexts, hfilter]
    cases hseen : m.seen <;> simp [hseen]
  · rw [(hmem m').mp ⟨hm', hname⟩]
    exact ⟨rfl, hwhole⟩

end texts

/-! ## What the fields become -/

/-- Texts are taken up to this mark: the end of a header, or the first text or an attribute of a body. -/
def Mark.stops : Mark → Bool
  | .item _ none _ => false
  | .item name (some _) _ => equalsIgnoreCase name H_BODY
  | .close name => equalsIgnoreCase name H_HEADER

/-- The marks up to the one at which the parser stops. -/
def readMarks (ms : List Mark) : List Mark := ms.takeWhile fun m => !m.stops

/-- The marks that the parser does not read. -/
def unreadMarks (ms : List Mark) : List Mark := ms.dropWhile fun m => !m.stops

/-- Two names of fields are different, up to the case of letters. -/
theorem HeaderField.name_injective {f g : HeaderField} (h : equalsIgnoreCase f.name g.name = true) : f = g := by
  revert h
  cases f <;> cases g <;> first | exact fun _ => rfl | decide

theorem HeaderField.mem_all (f : HeaderField) : f ∈ HeaderField.all := by
  cases f <;> decide

/-- A field is recognised by its name, in whatever case. -/
theorem HeaderField.ofName_eq_some {n : JString} {f : HeaderField} :
    HeaderField.ofName n = some f ↔ equalsIgnoreCase n f.name = true := by
  have hsame {g : HeaderField} (hf : equalsIgnoreCase n f.name = true) (hg : equalsIgnoreCase n g.name = true) :
      g = f := by
    rw [equalsIgnoreCase_iff] at hf hg
    exact name_injective (equalsIgnoreCase_iff.mpr (hg.symm.trans hf))
  unfold HeaderField.ofName
  constructor
  · intro h
    have hfound := List.find?_some h
    exact hfound
  · intro hf
    cases hfind : all.find? fun field => equalsIgnoreCase n field.name with
    | none =>
      rw [List.find?_eq_none] at hfind
      exact absurd hf (hfind f (mem_all f))
    | some g =>
      have hfound := List.find?_some hfind
      rw [hsame hf hfound]

/-- No field has the name of the address. -/
theorem HeaderField.name_ne_to (f : HeaderField) : equalsIgnoreCase f.name H_NAME_TO = false := by
  cases f <;> decide

/-- What a mark does to the fields. -/
def takeMark (msg : UfpsFields) (m : Mark) : UfpsFields where
  to_ := msg.to_ ++ seenTexts H_NAME_TO [m]
  field f := (seenTexts f.name [m]).getLast?.or (msg.field f)

theorem seenTexts_singleton (name : JString) (m : Mark) :
    seenTexts name [m] = if m.Named name then m.seen.toList else [] := by
  unfold seenTexts
  split_ifs with h
  · cases hseen : m.seen <;> simp [h, hseen]
  · simp [h]

/-- A mark ends the reading or is taken. -/
theorem readMark_eq (msg : UfpsFields) (m : Mark) :
    readMark ⟨true, msg⟩ m = if m.stops then ⟨false, msg⟩ else ⟨true, takeMark msg m⟩ := by
  have hnothing (h : ∀ name, seenTexts name [m] = []) : takeMark msg m = msg := by
    simp only [takeMark, h, List.append_nil, List.getLast?_nil, Option.none_or]
  cases m with
  | close name =>
    rw [readMark, endElement, Mark.stops, hnothing fun name => by rw [seenTexts_singleton]; exact if_neg id]
  | item name seen whole =>
    cases seen with
    | none =>
      rw [readMark, Mark.stops, hnothing fun name => by rw [seenTexts_singleton]; split <;> rfl]
      rfl
    | some text =>
      have hseen (n : JString) : seenTexts n [Mark.item name (some text) whole]
          = if equalsIgnoreCase name n then [text] else [] := by
        rw [seenTexts_singleton]
        rfl
      rw [readMark, setElement, if_pos rfl, Mark.stops]
      dsimp only
      split_ifs with hbody hto
      · rfl
      -- An address is no field with one value, and at most one of these has the name.
      · have hfield (f : HeaderField) : equalsIgnoreCase name f.name = false := by
          by_contra hf
          have hname := equalsIgnoreCase_trans (Bool.not_eq_false _ ▸ hf) hto
          rw [f.name_ne_to] at hname
          cases hname
        simp only [takeMark, hseen, hto, hfield, if_true, Bool.false_eq_true, if_false, List.getLast?_nil,
          Option.none_or]
        rfl
      · cases hname : HeaderField.ofName name with
        | none =>
          have hfield (f : HeaderField) : equalsIgnoreCase name f.name = false := by
            by_contra hf
            rw [HeaderField.ofName_eq_some.mpr (Bool.not_eq_false _ ▸ hf)] at hname
            cases hname
          simp only [takeMark, hseen, hto, hfield, Bool.false_eq_true, if_false, List.getLast?_nil, Option.none_or,
            List.append_nil]
        | some g =>
          have hg := HeaderField.ofName_eq_some.mp hname
          have hfield (f : HeaderField) : equalsIgnoreCase name f.name = true ↔ f = g := by
            refine ⟨fun hf => HeaderField.name_injective (equalsIgnoreCase_trans hf hg), ?_⟩
            rintro rfl
            exact hg
          have hset : (fun f => (seenTexts f.name [Mark.item name (some text) whole]).getLast?.or (msg.field f))
              = Function.update msg.field g (some text) := by
            funext f
            rw [hseen]
            by_cases hf : f = g
            · rw [if_pos ((hfield f).mpr hf), hf, Function.update_self]
              rfl
            · rw [if_neg fun h => hf ((hfield f).mp h), Function.update_of_ne hf]
              rfl
          rw [takeMark, hset, hseen, if_neg hto, List.append_nil]
          rfl

/-- Behind the stop a mark is not read. -/
theorem readMark_stopped (msg : UfpsFields) (m : Mark) : readMark ⟨false, msg⟩ m = ⟨false, msg⟩ := by
  cases m with
  | item name seen whole => cases seen <;> rfl
  | close name =>
    rw [readMark, endElement]
    split <;> rfl

/-- Behind the stop nothing is read, whatever comes. -/
theorem foldl_readMark_stopped (msg : UfpsFields) (ms : List Mark) :
    ms.foldl readMark ⟨false, msg⟩ = ⟨false, msg⟩ := by
  induction ms with
  | nil => rfl
  | cons m ms ih => rw [List.foldl_cons, readMark_stopped, ih]

/-- What the marks before the stop do to the fields. -/
theorem foldl_readMark (msg : UfpsFields) (ms : List Mark) :
    ms.foldl readMark ⟨true, msg⟩ = ⟨(unreadMarks ms).isEmpty, (readMarks ms).foldl takeMark msg⟩ := by
  induction ms generalizing msg with
  | nil => rfl
  | cons m ms ih =>
    rw [List.foldl_cons, readMark_eq, readMarks, unreadMarks, List.takeWhile_cons, List.dropWhile_cons]
    cases hstop : m.stops with
    | true => exact foldl_readMark_stopped msg ms
    | false => exact ih (takeMark msg m)

/-- After any marks the addresses are all that were seen, and each field is the last one that was. -/
theorem foldl_takeMark (msg : UfpsFields) (ms : List Mark) :
    (ms.foldl takeMark msg).to_ = msg.to_ ++ seenTexts H_NAME_TO ms
      ∧ ∀ f : HeaderField, (ms.foldl takeMark msg).field f = (seenTexts f.name ms).getLast?.or (msg.field f) := by
  induction ms generalizing msg with
  | nil => exact ⟨(List.append_nil _).symm, fun _ => rfl⟩
  | cons m ms ih =>
    obtain ⟨hto, hfield⟩ := ih (takeMark msg m)
    have hsplit (name : JString) : seenTexts name (m :: ms) = seenTexts name [m] ++ seenTexts name ms :=
      seenTexts_append name [m] ms
    refine ⟨?_, fun f => ?_⟩
    · rw [List.foldl_cons, hto, hsplit, takeMark, List.append_assoc]
    · rw [List.foldl_cons, hfield, hsplit, takeMark]
      rw [List.getLast?_append, Option.or_assoc]

/-! ## Messages -/

namespace Content

/-- Content without elements. -/
def IsGap : Content → Prop
  | empty => True
  | text _ rest => rest.IsGap
  | other _ rest => rest.IsGap
  | element _ _ _ => False

/-- The elements in document order, with their whole texts. -/
def elements : Content → List (JString × JString)
  | empty => []
  | text _ rest => rest.elements
  | other _ rest => rest.elements
  | element tag children rest => (tag.getName.getLocalPart, children.wholeText) :: (children.elements ++ rest.elements)

/-- The attributes of the elements in document order. -/
def attributes : Content → List (JString × JString)
  | empty => []
  | text _ rest => rest.attributes
  | other _ rest => rest.attributes
  | element tag children rest =>
    tag.attributes.map (fun a => (a.getLocalName, a.getValue)) ++ (children.attributes ++ rest.attributes)

end Content

/-- The name of a field. -/
def IsField (name : JString) : Prop :=
  equalsIgnoreCase name H_NAME_TO = true ∨ ∃ f : HeaderField, equalsIgnoreCase name f.name = true

/-- The elements of fields have no elements in them. -/
def Content.Plain : Content → Prop
  | .empty => True
  | .text _ rest => rest.Plain
  | .other _ rest => rest.Plain
  | .element tag children rest =>
    (IsField tag.getName.getLocalPart → children.IsGap) ∧ children.Plain ∧ rest.Plain

/-- The texts under a name. -/
def textsOf (name : JString) (items : List (JString × JString)) : List JString :=
  (items.filter fun i => equalsIgnoreCase i.1 name).map Prod.snd

/-- A message: an envelope with a body and, in front of it, a header if there is one. In the header each field but the
addresses is there once at most, as an element or an attribute. -/
structure UfpsMessage where
  encoding : Option JString
  version : Option JString
  prolog : ℕ
  envelope : Tag
  beforeHeader : Content
  header : Option (Tag × Content)
  beforeBody : Content
  body : Tag
  bodyContent : Content
  behindBody : Content
  epilog : ℕ
  envelope_name : envelope.getName.getLocalPart = H_ENVELOPE
  beforeHeader_gap : beforeHeader.IsGap
  header_name : ∀ h ∈ header, h.1.getName.getLocalPart = H_HEADER
  beforeBody_gap : beforeBody.IsGap
  body_name : body.getName.getLocalPart = H_BODY
  behindBody_gap : behindBody.IsGap
  header_plain : ∀ h ∈ header, h.2.Plain
  fields_once : ∀ h ∈ header, ∀ f : HeaderField,
    (textsOf f.name (Content.element h.1 h.2 .empty).elements
      ++ textsOf f.name (Content.element h.1 h.2 .empty).attributes).length ≤ 1

namespace UfpsMessage

variable (m : UfpsMessage)

/-- The header as content. -/
def headerContent : Content := m.header.elim .empty fun h => .element h.1 h.2 .empty

/-- The envelope as content. -/
def content : Content :=
  .element m.envelope (m.beforeHeader.append (m.headerContent.append (m.beforeBody.append
    (.element m.body m.bodyContent m.behindBody)))) .empty

/-- The events of the reader, with the comments in front of the envelope and behind it. -/
def events : List StaxEvent :=
  .startDocument m.encoding m.version
    :: (List.replicate m.prolog .other ++ (m.content.events ++ (List.replicate m.epilog .other ++ [.endDocument])))

/-- The fields of a new `ufpsMsg` are those of the header: the addresses are the whole texts of the `To` elements, and
each other field is the whole text of its element, or the value of its attribute. A field that is not there is as
before. -/
structure Extracted (msg : UfpsFields) : Prop where
  to_ : msg.to_ = textsOf H_NAME_TO m.headerContent.elements
  field : ∀ f : HeaderField, msg.field f
    = (textsOf f.name m.headerContent.elements ++ textsOf f.name m.headerContent.attributes).head?.or
      (UfpsFields.cleared f)

end UfpsMessage

/-! ## The marks of a message -/

section marks

variable (f : Form)

/-- The marks of contents, one behind the other. -/
theorem Content.marks_append (c d : Content) : (c.append d).marks f = c.marks f ++ d.marks f := by
  induction c with
  | empty => rfl
  | text data rest ih => exact ih
  | other data rest ih => exact ih
  | element tag children rest ihchildren ihrest =>
    simp only [Content.append, Content.marks, ihrest, List.append_assoc, List.cons_append]

/-- What stands between the elements has no marks. -/
theorem Content.marks_of_isGap {c : Content} (h : c.IsGap) : c.marks f = [] := by
  induction c with
  | empty => rfl
  | text data rest ih => exact ih h
  | other data rest ih => exact ih h
  | element tag children rest => exact absurd h id

theorem textsOf_append (name : JString) (l l' : List (JString × JString)) :
    textsOf name (l ++ l') = textsOf name l ++ textsOf name l' := by
  rw [textsOf, List.filter_append, List.map_append]
  rfl

theorem textsOf_cons (name n t : JString) (l : List (JString × JString)) :
    textsOf name ((n, t) :: l) = (if equalsIgnoreCase n name then [t] else []) ++ textsOf name l := by
  unfold textsOf
  rw [List.filter_cons]
  split_ifs <;> rfl

/-- An element or an attribute counts if it has the name. -/
theorem wholeTexts_item (name n : JString) (seen : Option JString) (whole : JString) (ms : List Mark) :
    wholeTexts name (.item n seen whole :: ms)
      = (if equalsIgnoreCase n name then [whole] else []) ++ wholeTexts name ms := by
  by_cases h : equalsIgnoreCase n name = true
  · have hname : (Mark.item n seen whole).Named name := h
    simp only [wholeTexts, List.filter_cons, hname, decide_true, if_true, h]
    rfl
  · have hname : ¬ (Mark.item n seen whole).Named name := h
    simp only [wholeTexts, List.filter_cons, hname, decide_false, Bool.false_eq_true, if_false, h]
    rfl

/-- The end of an element has no text. -/
theorem wholeTexts_close (name n : JString) (ms : List Mark) :
    wholeTexts name (.close n :: ms) = wholeTexts name ms := by
  have hname : ¬ (Mark.close n).Named name := id
  simp only [wholeTexts, List.filter_cons, hname, decide_false, Bool.false_eq_true, if_false]

/-- The attributes of a name. -/
theorem wholeTexts_attributeMarks (name : JString) (attributes : List Attribute) :
    wholeTexts name (attributeMarks attributes)
      = textsOf name (attributes.map fun a => (a.getLocalName, a.getValue)) := by
  induction attributes with
  | nil => rfl
  | cons a attributes ih =>
    have hmarks : attributeMarks (a :: attributes)
        = .item a.getLocalName (some a.getValue) a.getValue :: attributeMarks attributes := rfl
    rw [hmarks, wholeTexts_item, ih, List.map_cons, textsOf_cons]

/-- The items of an element: its attributes, itself and what is in it. -/
theorem Content.wholeTexts_element (name : JString) (tag : Tag) (children rest : Content) :
    wholeTexts name ((Content.element tag children rest).marks f)
      = textsOf name (tag.attributes.map fun a => (a.getLocalName, a.getValue))
        ++ ((if equalsIgnoreCase tag.getName.getLocalPart name then [children.wholeText] else [])
          ++ (wholeTexts name (children.marks f) ++ wholeTexts name (rest.marks f))) := by
  rw [Content.marks, wholeTexts_append, wholeTexts_attributeMarks, wholeTexts_item, wholeTexts_append,
    wholeTexts_close]

/-- The attributes and the elements of some content are its items. -/
theorem Content.wholeTexts_marks (name : JString) (c : Content) :
    (wholeTexts name (c.marks f)).Perm (textsOf name c.elements ++ textsOf name c.attributes) := by
  induction c with
  | empty => exact .nil
  | text data rest ih => exact ih
  | other data rest ih => exact ih
  | element tag children rest ihchildren ihrest =>
    rw [Content.wholeTexts_element, Content.elements, Content.attributes, textsOf_cons, textsOf_append, textsOf_append,
      textsOf_append]
    rw [List.perm_iff_count] at ihchildren ihrest ⊢
    intro t
    have hchildren := ihchildren t
    have hrest := ihrest t
    simp only [List.count_append] at hchildren hrest ⊢
    omega

/-- Without attributes of this name the items are the elements. -/
theorem Content.wholeTexts_marks_of_nil {name : JString} {c : Content} (h : textsOf name c.attributes = []) :
    wholeTexts name (c.marks f) = textsOf name c.elements := by
  induction c with
  | empty => rfl
  | text data rest ih => exact ih h
  | other data rest ih => exact ih h
  | element tag children rest ihchildren ihrest =>
    rw [Content.attributes, textsOf_append, textsOf_append, List.append_eq_nil_iff, List.append_eq_nil_iff] at h
    obtain ⟨hattributes, hchildren, hrest⟩ := h
    rw [Content.wholeTexts_element, hattributes, ihchildren hchildren, ihrest hrest, Content.elements, textsOf_cons,
      textsOf_append, List.nil_append]

end marks

/-! ## Which messages are read -/

/-- Every field in front of the stop is seen as it is, and behind the stop there is no address and no field. A field
that is empty before and in the header need not be seen. -/
def Shown (ms : List Mark) : Prop :=
  (∀ m ∈ readMarks ms, (m.Named H_NAME_TO → m.seen = some m.whole)
      ∧ ∀ f : HeaderField, m.Named f.name → m.seen.or (UfpsFields.cleared f) = some m.whole)
    ∧ ∀ m ∈ unreadMarks ms, ¬ m.Named H_NAME_TO
      ∧ ∀ f : HeaderField, m.Named f.name → UfpsFields.cleared f = some m.whole

/-- The mark of this name of which the parser takes the text last: those behind it, in front of the stop, show none. -/
def LastSeen (name : JString) (ms : List Mark) (m : Mark) : Prop :=
  ∃ front behind, readMarks ms = front ++ m :: behind ∧ m.Named name ∧ m.seen ≠ none
    ∧ ∀ m' ∈ behind, m'.Named name → m'.seen = none

/-- The text of a field in this content. A field that is not there is as before. -/
def Content.fieldText (f : HeaderField) (c : Content) : Option JString :=
  (textsOf f.name c.elements ++ textsOf f.name c.attributes).head?.or (UfpsFields.cleared f)

/-- In front of the stop the addresses that are seen are those of this content, one by one, and what is seen last of a
field is what the content has. A field of which nothing is seen has the value that was there before. -/
structure Coincident (ms : List Mark) (c : Content) : Prop where
  to_ : List.Forall₂ (fun m text => m.seen = some text)
    ((readMarks ms).filter fun m => m.Named H_NAME_TO ∧ m.seen ≠ none) (textsOf H_NAME_TO c.elements)
  seen : ∀ (f : HeaderField) (m : Mark), LastSeen f.name ms m → m.seen = c.fieldText f
  unseen : ∀ f : HeaderField, (∀ m ∈ readMarks ms, m.Named f.name → m.seen = none) →
    c.fieldText f = UfpsFields.cleared f

namespace UfpsMessage

variable (f : Form) (m : UfpsMessage)

/-- What the parser meets before it is done with the header, or with the body where there is none. -/
def frontMarks : List Mark :=
  attributeMarks m.envelope.attributes
    ++ (m.header.elim (.element m.body m.bodyContent .empty) fun h => .element h.1 h.2 .empty : Content).marks f

/-- No attribute of the envelope bears the name of a field or of the body, and no address is an attribute. -/
structure Regular : Prop where
  envelope : ∀ a ∈ m.envelope.attributes, ¬ IsField a.getLocalName ∧ equalsIgnoreCase a.getLocalName H_BODY = false
  to_ : textsOf H_NAME_TO m.headerContent.attributes = []

/-- The parser sees the fields as they are. In a header each of them stands in front of an inner element with the name
of the header or the body, and its text comes in one piece. Without a header, and with attributes where none should be,
what is seen is right by coincidence only. -/
def Readable : Prop :=
  (m.header.isSome ∧ m.Regular → Shown (m.headerContent.marks f))
    ∧ (¬ (m.header.isSome ∧ m.Regular) → Coincident (m.frontMarks f) m.headerContent)

end UfpsMessage

/-- The stop divides the marks. -/
theorem readMarks_append_unreadMarks (ms : List Mark) : readMarks ms ++ unreadMarks ms = ms :=
  List.takeWhile_append_dropWhile

theorem seenTexts_cons (name : JString) (m : Mark) (ms : List Mark) :
    seenTexts name (m :: ms) = (if m.Named name then m.seen.toList else []) ++ seenTexts name ms := by
  rw [← seenTexts_singleton, ← seenTexts_append]
  rfl

theorem seenTexts_eq_nil_iff {name : JString} {ms : List Mark} :
    seenTexts name ms = [] ↔ ∀ m ∈ ms, m.Named name → m.seen = none := by
  rw [seenTexts, List.filterMap_eq_nil_iff]
  simp only [List.mem_filter, decide_eq_true_eq, and_imp]

/-- Mark by mark, or as two lists. -/
theorem forall₂_seen_iff {name : JString} {ms : List Mark} {texts : List JString} :
    List.Forall₂ (fun m text => m.seen = some text) (ms.filter fun m => m.Named name ∧ m.seen ≠ none) texts
      ↔ seenTexts name ms = texts := by
  induction ms generalizing texts with
  | nil => exact List.forall₂_nil_left_iff.trans eq_comm
  | cons m ms ih =>
    rw [seenTexts_cons]
    by_cases h : m.Named name ∧ m.seen ≠ none
    · obtain ⟨text, htext⟩ := Option.ne_none_iff_exists'.mp h.2
      rw [List.filter_cons_of_pos (by simpa using h), List.forall₂_cons_left_iff, if_pos h.1, htext]
      constructor
      · rintro ⟨text', rest, heq, hrest, rfl⟩
        rw [← Option.some_inj.mp heq, ← ih.mp hrest]
        rfl
      · rintro rfl
        exact ⟨text, _, rfl, ih.mpr rfl, rfl⟩
    · have hnil : (if m.Named name then m.seen.toList else []) = [] := by
        split_ifs with hname
        · rw [not_not.mp fun hseen => h ⟨hname, hseen⟩]
          rfl
        · rfl
      rw [List.filter_cons_of_neg (by simpa using h), ih, hnil, List.nil_append]

/-- What is taken last is what is seen last. -/
theorem LastSeen.getLast? {name : JString} {ms : List Mark} {m : Mark} (h : LastSeen name ms m) :
    (seenTexts name (readMarks ms)).getLast? = m.seen := by
  obtain ⟨front, behind, hread, hname, hseen, hbehind⟩ := h
  obtain ⟨text, htext⟩ := Option.ne_none_iff_exists'.mp hseen
  rw [hread, seenTexts_append, seenTexts_cons, if_pos hname, seenTexts_eq_nil_iff.mpr hbehind, htext]
  exact List.getLast?_concat

/-- If a text of this name is seen at all, one is seen last. -/
theorem exists_last_seen {name : JString} {ms : List Mark} (h : ∃ m ∈ ms, m.Named name ∧ m.seen ≠ none) :
    ∃ m front behind, ms = front ++ m :: behind ∧ m.Named name ∧ m.seen ≠ none
      ∧ ∀ m' ∈ behind, m'.Named name → m'.seen = none := by
  induction ms with
  | nil =>
    obtain ⟨m, hm, -⟩ := h
    exact absurd hm List.not_mem_nil
  | cons m ms ih =>
    by_cases hlater : ∃ m ∈ ms, m.Named name ∧ m.seen ≠ none
    · obtain ⟨last, front, behind, hsplit, hlast⟩ := ih hlater
      exact ⟨last, m :: front, behind, congrArg (m :: ·) hsplit, hlast⟩
    · obtain ⟨m', hm', hname, hseen⟩ := h
      have hhead : m' = m := (List.mem_cons.mp hm').resolve_right fun hin => hlater ⟨m', hin, hname, hseen⟩
      rw [hhead] at hname hseen
      exact ⟨m, [], ms, rfl, hname, hseen, fun last hlast hname' => not_not.mp fun hseen' =>
        hlater ⟨last, hlast, hname', hseen'⟩⟩

/-- Taken text by text. -/
theorem coincident_iff {ms : List Mark} {c : Content} : Coincident ms c
    ↔ seenTexts H_NAME_TO (readMarks ms) = textsOf H_NAME_TO c.elements
      ∧ ∀ f : HeaderField, (seenTexts f.name (readMarks ms)).getLast?.or (UfpsFields.cleared f) = c.fieldText f := by
  constructor
  · intro h
    refine ⟨forall₂_seen_iff.mp h.to_, fun f => ?_⟩
    by_cases hseen : ∃ m ∈ readMarks ms, m.Named f.name ∧ m.seen ≠ none
    · obtain ⟨m, hlast⟩ : ∃ m, LastSeen f.name ms m := exists_last_seen hseen
      obtain ⟨text, htext⟩ := Option.ne_none_iff_exists'.mp hlast.choose_spec.choose_spec.2.2.1
      rw [hlast.getLast?, ← h.seen f m hlast, htext]
      rfl
    · have hnone : ∀ m ∈ readMarks ms, m.Named f.name → m.seen = none := fun m hm hname =>
        not_not.mp fun hseen' => hseen ⟨m, hm, hname, hseen'⟩
      rw [seenTexts_eq_nil_iff.mpr hnone, h.unseen f hnone]
      rfl
  · rintro ⟨hto, hfield⟩
    refine ⟨forall₂_seen_iff.mpr hto, fun f m hlast => ?_, fun f hnone => ?_⟩
    · have hseen := hfield f
      obtain ⟨text, htext⟩ := Option.ne_none_iff_exists'.mp hlast.choose_spec.choose_spec.2.2.1
      rw [hlast.getLast?, htext] at hseen
      rw [htext]
      exact hseen
    · have hseen := hfield f
      rw [seenTexts_eq_nil_iff.mpr hnone] at hseen
      exact hseen.symm

/-- The addresses are those of the header if all of them are seen. -/
theorem to_eq_iff (ms : List Mark) :
    seenTexts H_NAME_TO (readMarks ms) = wholeTexts H_NAME_TO ms
      ↔ (∀ m ∈ readMarks ms, m.Named H_NAME_TO → m.seen = some m.whole)
        ∧ ∀ m ∈ unreadMarks ms, ¬ m.Named H_NAME_TO := by
  have hsplit : wholeTexts H_NAME_TO ms
      = wholeTexts H_NAME_TO (readMarks ms) ++ wholeTexts H_NAME_TO (unreadMarks ms) := by
    rw [← wholeTexts_append, readMarks_append_unreadMarks]
  rw [hsplit, ← seenTexts_eq_wholeTexts, ← wholeTexts_eq_nil]
  constructor
  · intro h
    have hle := length_seenTexts_le H_NAME_TO (readMarks ms)
    have hnil : wholeTexts H_NAME_TO (unreadMarks ms) = [] := by
      rw [h, List.length_append] at hle
      exact List.length_eq_zero_iff.mp (by omega)
    rw [hnil, List.append_nil] at h
    exact ⟨h, hnil⟩
  · rintro ⟨h, hnil⟩
    rw [h, hnil, List.append_nil]

/-- A field that is there once at most is that of the header if it is seen, or was so before. -/
theorem field_eq_iff {name : JString} {ms : List Mark} (before : Option JString)
    (honce : (wholeTexts name ms).length ≤ 1) :
    (seenTexts name (readMarks ms)).getLast?.or before = (wholeTexts name ms).head?.or before
      ↔ (∀ m ∈ readMarks ms, m.Named name → m.seen.or before = some m.whole)
        ∧ ∀ m ∈ unreadMarks ms, m.Named name → before = some m.whole := by
  have hsplit : wholeTexts name ms = wholeTexts name (readMarks ms) ++ wholeTexts name (unreadMarks ms) := by
    rw [← wholeTexts_append, readMarks_append_unreadMarks]
  rw [hsplit] at honce ⊢
  -- The only mark of this name stands in front of the stop or behind it, or there is none.
  cases hread : wholeTexts name (readMarks ms) with
  | nil =>
    have hnone := (wholeTexts_eq_nil name).mp hread
    rw [seenTexts_eq_nil name hread, List.nil_append, List.getLast?_nil, Option.none_or,
      and_iff_right fun m hm hname => absurd hname (hnone m hm)]
    cases hunread : wholeTexts name (unreadMarks ms) with
    | nil =>
      have hnone' := (wholeTexts_eq_nil name).mp hunread
      exact iff_of_true rfl fun m hm hname => absurd hname (hnone' m hm)
    | cons whole rest =>
      rw [hread, hunread, List.nil_append, List.length_cons] at honce
      rw [List.length_eq_zero_iff.mp (show rest.length = 0 by omega)] at hunread ⊢
      obtain ⟨_, _, ⟨m, hm, hname, _, hwhole⟩, hall⟩ := wholeTexts_eq_singleton name hunread
      constructor
      · intro h m' hm' hname'
        rw [(hall m' hm' hname').2]
        exact h
      · intro h
        rw [h m hm hname, hwhole]
        rfl
  | cons whole rest =>
    rw [hread, List.length_append, List.length_cons] at honce
    have hunread : wholeTexts name (unreadMarks ms) = [] := List.length_eq_zero_iff.mp (by omega)
    have hnone := (wholeTexts_eq_nil name).mp hunread
    rw [List.length_eq_zero_iff.mp (show rest.length = 0 by omega)] at hread ⊢
    obtain ⟨seen, hseen, ⟨m, hm, hname, hmseen, hmwhole⟩, hall⟩ := wholeTexts_eq_singleton name hread
    have hlast : seen.toList.getLast? = seen := by cases seen <;> rfl
    rw [hseen, hunread, List.append_nil, hlast, and_iff_left fun m hm hname => absurd hname (hnone m hm)]
    constructor
    · intro h m' hm' hname'
      obtain ⟨hseen', hwhole'⟩ := hall m' hm' hname'
      rw [hseen', hwhole']
      exact h
    · intro h
      have hm' := h m hm hname
      rw [hmseen, hmwhole] at hm'
      exact hm'

/-! ## What `parse` takes from a message -/

/-- A mark that no field is taken from and that does not end the reading. -/
structure Mark.Idle (m : Mark) : Prop where
  stops : m.stops = false
  to_ : ¬ m.Named H_NAME_TO
  field : ∀ f : HeaderField, ¬ m.Named f.name

/-- An item whose name is neither that of a field nor that of the body. -/
theorem idle_item {name : JString} (hfield : ¬ IsField name) (hbody : equalsIgnoreCase name H_BODY = false)
    (seen : Option JString) (whole : JString) : (Mark.item name seen whole).Idle where
  stops := by
    cases seen with
    | none => rfl
    | some text => exact hbody
  to_ h := hfield (Or.inl h)
  field f h := hfield (Or.inr ⟨f, h⟩)

/-- An idle mark changes nothing. -/
theorem Mark.Idle.takeMark_eq {m : Mark} (h : m.Idle) (msg : UfpsFields) : takeMark msg m = msg := by
  simp only [takeMark, seenTexts_singleton, h.to_, h.field, if_false, List.append_nil, List.getLast?_nil,
    Option.none_or]

/-- Idle marks in front of others are read, and nothing is seen of them. -/
theorem seenTexts_readMarks_append {before : List Mark} (h : ∀ m ∈ before, m.Idle) (ms : List Mark) {name : JString}
    (hname : ∀ m ∈ before, ¬ m.Named name) :
    seenTexts name (readMarks (before ++ ms)) = seenTexts name (readMarks ms) := by
  have hread : readMarks (before ++ ms) = before ++ readMarks ms := by
    apply List.takeWhile_append_of_pos
    intro m hm
    rw [(h m hm).stops]
    rfl
  have hnil := seenTexts_eq_nil name ((wholeTexts_eq_nil name).mpr hname)
  rw [hread, seenTexts_append, hnil, List.nil_append]

/-- The envelope is no field. -/
theorem isField_envelope : ¬ IsField H_ENVELOPE := by
  rintro (h | ⟨f, h⟩)
  · revert h
    decide
  · revert h
    cases f <;> decide

/-- The start tag of the envelope. -/
theorem readMark_envelope (seen : Option JString) (whole : JString) (r : Reading) :
    readMark r (.item H_ENVELOPE seen whole) = r := by
  have hidle := idle_item isField_envelope (by decide) seen whole
  obtain ⟨isParse, msg⟩ := r
  cases isParse with
  | false => exact readMark_stopped msg _
  | true => rw [readMark_eq, hidle.stops, hidle.takeMark_eq]; rfl

/-- The end of the envelope is not the stop. -/
theorem readMark_close_envelope (r : Reading) : readMark r (.close H_ENVELOPE) = r := by
  rw [readMark, endElement]
  exact if_neg (by decide)

section parse

variable (f : Form)

/-- A header ends the reading. -/
theorem unreadMarks_header {tag : Tag} (hname : tag.getName.getLocalPart = H_HEADER) (children : Content)
    (before : List Mark) : unreadMarks (before ++ (Content.element tag children .empty).marks f) ≠ [] := by
  intro hnil
  rw [unreadMarks, List.dropWhile_eq_nil_iff] at hnil
  have hclose : Mark.close H_HEADER ∈ before ++ (Content.element tag children .empty).marks f := by
    rw [Content.marks, hname]
    simp only [List.mem_append, List.mem_cons, true_or, or_true]
  have hstops := hnil _ hclose
  revert hstops
  decide

namespace UfpsMessage

variable (m : UfpsMessage)

/-- The fields come from the marks of the document. -/
theorem reading_parse (msg : UfpsFields) :
    (parse f msg m.events).reading = (m.content.marks f).foldl readMark ⟨true, msg⟩ := by
  obtain ⟨written, hstart⟩ : ∃ written,
      step f ⟨none, [], [], false, ⟨true, msg⟩, []⟩ (.startDocument m.encoding m.version)
        = ⟨none, [], [], false, ⟨true, msg⟩, written⟩ := ⟨_, rfl⟩
  have hcontent := run_reading f m.content ⟨none, [], [], false, ⟨true, msg⟩, written⟩
  rw [readFirst_none rfl] at hcontent
  rw [parse, UfpsMessage.events, run_cons, hstart, run_append, run_replicate_other, run_append, run_append,
    run_replicate_other]
  exact hcontent

/-- The marks of a document are those of its envelope, its header and its body. -/
theorem marks_content :
    ∃ seen whole, m.content.marks f = attributeMarks m.envelope.attributes
      ++ .item H_ENVELOPE seen whole :: (m.headerContent.marks f
        ++ ((Content.element m.body m.bodyContent .empty).marks f ++ [.close H_ENVELOPE])) := by
  rw [UfpsMessage.content, Content.marks, m.envelope_name, Content.marks_append,
    Content.marks_of_isGap f m.beforeHeader_gap, Content.marks_append, Content.marks_append,
    Content.marks_of_isGap f m.beforeBody_gap, List.nil_append, List.nil_append, List.append_assoc]
  have hbody : (Content.element m.body m.bodyContent m.behindBody).marks f
      = (Content.element m.body m.bodyContent .empty).marks f := by
    rw [Content.marks, Content.marks, Content.marks_of_isGap f m.behindBody_gap, Content.marks]
  rw [hbody]
  exact ⟨_, _, rfl⟩

/-- The fields are taken from what is in front of the stop. -/
theorem msg_parse (msg : UfpsFields) :
    (parse f msg m.events).reading.msg = (readMarks (m.frontMarks f)).foldl takeMark msg := by
  obtain ⟨seen, whole, hmarks⟩ := m.marks_content f
  have hreading : (parse f msg m.events).reading
      = ((Content.element m.body m.bodyContent .empty).marks f).foldl readMark
          ((attributeMarks m.envelope.attributes ++ m.headerContent.marks f).foldl readMark ⟨true, msg⟩) := by
    rw [m.reading_parse f, hmarks, List.foldl_append, List.foldl_cons, readMark_envelope]
    simp only [List.foldl_append, List.foldl_cons, List.foldl_nil, readMark_close_envelope]
  rw [hreading]
  cases hheader : m.header with
  | none =>
    have hcontent : m.headerContent = .empty := by
      rw [headerContent, hheader]
      rfl
    have hfront : m.frontMarks f
        = attributeMarks m.envelope.attributes ++ (Content.element m.body m.bodyContent .empty).marks f := by
      rw [frontMarks, hheader]
      rfl
    rw [hcontent, Content.marks, List.append_nil, ← List.foldl_append, ← hfront, foldl_readMark]
  | some h =>
    have hcontent : m.headerContent = .element h.1 h.2 .empty := by
      rw [headerContent, hheader]
      rfl
    have hfront : m.frontMarks f
        = attributeMarks m.envelope.attributes ++ (Content.element h.1 h.2 .empty).marks f := by
      rw [frontMarks, hheader]
      rfl
    -- The end of the header is a stop, so that nothing of the body is read.
    have hunread := unreadMarks_header f (m.header_name h hheader) h.2 (attributeMarks m.envelope.attributes)
    rw [← hfront] at hunread
    rw [hcontent, ← hfront, foldl_readMark, List.isEmpty_eq_false_iff.mpr hunread, foldl_readMark_stopped]

/-- The fields are those of the header if and only if what is in front of the stop happens to be so. -/
theorem extracted_iff_coincident :
    m.Extracted (parse f .clear m.events).reading.msg ↔ Coincident (m.frontMarks f) m.headerContent := by
  obtain ⟨hto, hfield⟩ := foldl_takeMark .clear (readMarks (m.frontMarks f))
  rw [← m.msg_parse f] at hto hfield
  rw [coincident_iff]
  constructor
  · rintro ⟨hto', hfield'⟩
    exact ⟨hto.symm.trans hto', fun g => (hfield g).symm.trans (hfield' g)⟩
  · rintro ⟨hto', hfield'⟩
    exact ⟨hto.trans hto', fun g => (hfield g).trans (hfield' g)⟩

end UfpsMessage

end parse

/-- Two lists with the same elements, of which there is one at most, are the same. -/
theorem eq_of_perm_of_length_le_one {l l' : List JString} (h : l.Perm l') (hlength : l'.length ≤ 1) : l = l' := by
  match l', hlength with
  | [], _ => exact List.perm_nil.mp h
  | [t], _ => exact List.perm_singleton.mp h

/-- In a regular message what is in front of the stop is right if and only if it is shown. -/
theorem UfpsMessage.coincident_iff_shown {f : Form} {m : UfpsMessage} (hheader : m.header.isSome = true)
    (hregular : m.Regular) : Coincident (m.frontMarks f) m.headerContent ↔ Shown (m.headerContent.marks f) := by
  obtain ⟨h, hsome⟩ := Option.isSome_iff_exists.mp hheader
  have hcontent : m.headerContent = .element h.1 h.2 .empty := by
    rw [headerContent, hsome]
    rfl
  have hidle : ∀ mark ∈ attributeMarks m.envelope.attributes, mark.Idle := by
    intro mark hmark
    obtain ⟨a, ha, rfl⟩ := List.mem_map.mp hmark
    exact idle_item (hregular.envelope a ha).1 (hregular.envelope a ha).2 _ _
  have hfront : m.frontMarks f = attributeMarks m.envelope.attributes ++ m.headerContent.marks f := by
    rw [frontMarks, hsome, hcontent]
    rfl
  have hto := to_eq_iff (m.headerContent.marks f)
  rw [Content.wholeTexts_marks_of_nil f hregular.to_] at hto
  have honce (g : HeaderField) :
      (textsOf g.name m.headerContent.elements ++ textsOf g.name m.headerContent.attributes).length ≤ 1 :=
    hcontent ▸ m.fields_once h hsome g
  have hwhole (g : HeaderField) := eq_of_perm_of_length_le_one (m.headerContent.wholeTexts_marks f g.name) (honce g)
  have hfield (g : HeaderField) :=
    field_eq_iff (UfpsFields.cleared g) ((congrArg List.length (hwhole g)).trans_le (honce g))
  rw [coincident_iff, hfront, seenTexts_readMarks_append hidle _ fun mark hmark => (hidle mark hmark).to_, hto]
  have hread (g : HeaderField) :=
    seenTexts_readMarks_append hidle (m.headerContent.marks f) fun mark hmark => (hidle mark hmark).field g
  simp only [hread, Content.fieldText, ← hwhole, hfield]
  constructor
  · rintro ⟨⟨htoread, htounread⟩, hfields⟩
    exact ⟨fun mark hmark => ⟨htoread mark hmark, fun g => (hfields g).1 mark hmark⟩,
      fun mark hmark => ⟨htounread mark hmark, fun g => (hfields g).2 mark hmark⟩⟩
  · rintro ⟨hread, hunread⟩
    exact ⟨⟨fun mark hmark => (hread mark hmark).1, fun mark hmark => (hunread mark hmark).1⟩,
      fun g => ⟨fun mark hmark => (hread mark hmark).2 g, fun mark hmark => (hunread mark hmark).2 g⟩⟩

/-- The fields of a message are taken as they are if and only if the parser sees them so. -/
theorem extracted_iff (f : Form) (m : UfpsMessage) :
    m.Extracted (parse f .clear m.events).reading.msg ↔ m.Readable f := by
  rw [m.extracted_iff_coincident f, UfpsMessage.Readable]
  by_cases h : m.header.isSome = true ∧ m.Regular
  · rw [UfpsMessage.coincident_iff_shown h.1 h.2]
    exact ⟨fun hshown => ⟨fun _ => hshown, fun hnot => absurd h hnot⟩, fun hboth => hboth.1 h⟩
  · exact ⟨fun hcoincident => ⟨fun hheader => absurd hheader h, fun _ => hcoincident⟩, fun hboth => hboth.2 h⟩

/-- A message from `a&b`. The reader gives the character that stands for an entity as a piece of its own. -/
def inPieces : UfpsMessage where
  encoding := none
  version := none
  prolog := 0
  envelope := ⟨⟨"env".toList, "Envelope".toList, "urn:e".toList⟩, [⟨"env".toList, "urn:e".toList⟩], []⟩
  beforeHeader := .empty
  header := some (⟨⟨"env".toList, "Header".toList, "urn:e".toList⟩, [], []⟩,
    .element ⟨⟨[], "From".toList, []⟩, [], []⟩ (.text "a".toList (.text "&".toList (.text "b".toList .empty))) .empty)
  beforeBody := .empty
  body := ⟨⟨"env".toList, "Body".toList, "urn:e".toList⟩, [], []⟩
  bodyContent := .empty
  behindBody := .empty
  epilog := 0
  envelope_name := rfl
  beforeHeader_gap := trivial
  header_name := by
    rintro h ⟨⟩
    rfl
  beforeBody_gap := trivial
  body_name := rfl
  behindBody_gap := trivial
  header_plain := by
    rintro h ⟨⟩
    exact ⟨fun _ => trivial, trivial, trivial⟩
  fields_once := by
    rintro h ⟨⟩ f
    cases f <;> decide

/-- Of the text of an element its first piece alone is taken. -/
theorem not_extracted_inPieces : ¬ inPieces.Extracted (parse .noChange .clear inPieces.events).reading.msg := by
  intro h
  have hfrom := h.field .FROM
  revert hfrom
  decide

end OrgLittle.Stream
