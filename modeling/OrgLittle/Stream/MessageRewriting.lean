import OrgLittle.Stream.SAXParser

/-!
# The message that `ufpsSAXParser` writes

What the parser tells its writer is compared with the document in which the elements of the given name are left out
and, in the form that adds an element, a new one stands behind each element of another name. The two are the same up to
how character data is split, and the writer is taken to write what it is told. The text goes into the message as bytes
of the platform's charset, whatever encoding it declares.

`run_edited` follows the events where nothing goes wrong. That nothing else may happen comes from counting the pieces
that are written of each kind (`count_run`).
-/

namespace OrgLittle.Stream

open OrgLittle.Java UfpsSAXParser

/-! ## What is written of a document -/

/-- A piece of a written document: a start tag without what is in it, a namespace declaration, an attribute, a character
or an end tag. -/
inductive Piece
  | start (nsPrefix localName : JString)
  | xmlns (nsPrefix uri : JString)
  | attr (qName value : JString)
  | char (c : Char)
  | stop
deriving DecidableEq

/-- The pieces of some text. -/
def textPieces (text : JString) : List Piece := text.map .char

/-- The pieces that a writer writes for a call. -/
def WriterCall.pieces : WriterCall → List Piece
  | writeStartDocument _ _ => []
  | writeStartElement nsPrefix localName _ => [.start nsPrefix localName]
  | writeNamespace nsPrefix uri => [.xmlns nsPrefix uri]
  | writeAttribute qName value => [.attr qName value]
  | writeCharacters text => textPieces text
  | writeEndElement => [.stop]
  | writeEndDocument => []

/-- The pieces that a writer writes for some calls. -/
def piecesOf (calls : List WriterCall) : List Piece := calls.flatMap WriterCall.pieces

/-- The pieces of a start tag. -/
def Tag.pieces (tag : Tag) : List Piece :=
  .start tag.getName.getPrefix tag.getName.getLocalPart
    :: (tag.namespaces.map (fun n => .xmlns n.getPrefix n.getURI)
      ++ tag.attributes.map fun a => .attr (attributeName a) a.getValue)

namespace Content

/-- The pieces of content. -/
def pieces : Content → List Piece
  | empty => []
  | text data rest => textPieces data ++ rest.pieces
  | other data rest => textPieces data ++ rest.pieces
  | element tag children rest => tag.pieces ++ (children.pieces ++ .stop :: rest.pieces)

/-- The elements with their content, in document order. -/
def nodes : Content → List (Tag × Content)
  | empty => []
  | text _ rest => rest.nodes
  | other _ rest => rest.nodes
  | element tag children rest => (tag, children) :: (children.nodes ++ rest.nodes)

/-- The last start tag in some content, behind this one. -/
def lastTag (tag : Tag) : Content → Tag
  | empty => tag
  | text _ rest => rest.lastTag tag
  | other _ rest => rest.lastTag tag
  | element inner children rest => rest.lastTag (children.lastTag inner)

end Content

/-! ## Well-formed documents -/

/-- The prefixes that need no declaration. -/
def declaredPrefixes : List JString := [[], "xml".toList]

/-- The prefixes that are declared within an element. -/
def Tag.scope (scope : List JString) (tag : Tag) : List JString := tag.namespaces.map Namespace.getPrefix ++ scope

/-- The prefixes of a start tag are declared, and nothing is there twice. -/
structure Tag.WellFormed (scope : List JString) (tag : Tag) : Prop where
  namespaces_nodup : (tag.namespaces.map Namespace.getPrefix).Nodup
  attributes_nodup : (tag.attributes.map attributeName).Nodup
  name_mem : tag.getName.getPrefix ∈ tag.scope scope
  attributes_mem : ∀ a ∈ tag.attributes, a.getPrefix.getD [] ∈ tag.scope scope

/-- The start tags of some content are well-formed. -/
def Content.Bound : Content → List JString → Prop
  | empty, _ => True
  | text _ rest, scope => rest.Bound scope
  | other _ rest, scope => rest.Bound scope
  | element tag children rest, scope => tag.WellFormed scope ∧ children.Bound (tag.scope scope) ∧ rest.Bound scope

/-- Content that is a document: one element, whose start tags are well-formed. -/
structure Content.WellFormed (c : Content) : Prop where
  root : ∃ tag children, c = element tag children .empty
  bound : c.Bound declaredPrefixes

/-- A well-formed document, with the comments in front of its root and behind it. -/
structure XmlDocument where
  encoding : Option JString
  version : Option JString
  prolog : ℕ
  root : Tag
  children : Content
  epilog : ℕ
  bound : (Content.element root children .empty).Bound declaredPrefixes

namespace XmlDocument

variable (d : XmlDocument)

def content : Content := .element d.root d.children .empty

/-- The events of the reader. -/
def events : List StaxEvent :=
  .startDocument d.encoding d.version
    :: (List.replicate d.prolog .other ++ (d.content.events ++ (List.replicate d.epilog .other ++ [.endDocument])))

/-- The encoding and the version that are written in the declaration. -/
def declaredEncoding : JString := d.encoding.getD "UTF-8".toList

def declaredVersion : JString := d.version.getD "1.0".toList

end XmlDocument

/-! ## The buffer of the message -/

/-- The text that `XMLStreamWriter` writes for an encoding, a version and the pieces of a document; the charset of the
platform, in which `getBytes()` writes a text; and what is read from bytes in an encoding. -/
structure XmlLibrary where
  text : JString → JString → List Piece → JString
  getBytes : JString → List UInt8
  decode : JString → List UInt8 → JString

/-- The text in the `StringWriter` when a document has been parsed. -/
def XmlLibrary.out (lib : XmlLibrary) (d : XmlDocument) (pieces : List Piece) : JString :=
  lib.text d.declaredEncoding d.declaredVersion pieces

/-- `s_out.getBytes()`, the buffer of the message. -/
def XmlLibrary.buffer (lib : XmlLibrary) (d : XmlDocument) (written : List WriterCall) : List UInt8 :=
  lib.getBytes (lib.out d (piecesOf written))

/-! ## The document that should be written -/

namespace UfpsSAXParser.Form

variable (f : Form)

/-- The elements of this name are to be left out. -/
def removes (name : JString) : Bool := f.addElement.elim false fun element => equalsIgnoreCase name element

/-- A new element is to stand behind the elements of this name. -/
def inserts (name : JString) : Bool := f.afterElement.elim false fun element => equalsIgnoreCase name element

/-- What is to stand behind an element: nothing, or a new element, whose prefix is left open. -/
def Inserted (tag : Tag) (new : Content) : Prop :=
  if f.inserts tag.getName.getLocalPart then
    ∃ nsPrefix uri, new = .element ⟨⟨nsPrefix, f.addElement.getD [], uri⟩, [], []⟩
      (.text (f.addElementData.getD []) .empty) .empty
  else new = .empty

end UfpsSAXParser.Form

section form

variable (f : Form)

/-- The edit of some content: elements of the given name are left out with all that is in them, and a new one stands
behind each element of the other name. All else is as it was. -/
inductive Edited : Content → Content → Prop
  | empty : Edited .empty .empty
  | text {data : JString} {rest rest' : Content} (hrest : Edited rest rest') :
      Edited (.text data rest) (.text data rest')
  | other {data : JString} {rest rest' : Content} (hrest : Edited rest rest') :
      Edited (.other data rest) (.text data rest')
  | kept {tag : Tag} {children rest children' rest' new : Content}
      (hname : f.removes tag.getName.getLocalPart = false) (hnew : f.Inserted tag new)
      (hchildren : Edited children children') (hrest : Edited rest rest') :
      Edited (.element tag children rest) (.element tag children' (new.append rest'))
  | removed {tag : Tag} {children rest rest' new : Content}
      (hname : f.removes tag.getName.getLocalPart = true) (hnew : f.Inserted tag new) (hrest : Edited rest rest') :
      Edited (.element tag children rest) (new.append rest')

/-- The text that is written is the edited document, which is well-formed, and the buffer of the message is read as
this text, in the encoding that it declares. -/
def XmlDocument.Rewritten (lib : XmlLibrary) (d : XmlDocument) (written : List WriterCall) : Prop :=
  ∃ out : Content, Edited f d.content out ∧ out.WellFormed ∧ piecesOf written = out.pieces
    ∧ lib.decode d.declaredEncoding (lib.buffer d written) = lib.out d out.pieces

/-! ## The documents for which it is written -/

/-- The text of the events that the parser does not know, outside the elements that are to be left out. -/
def Content.unknownText : Content → JString
  | empty => []
  | text _ rest => rest.unknownText
  | other data rest => data ++ rest.unknownText
  | element tag children rest =>
    (if f.removes tag.getName.getLocalPart then [] else children.unknownText) ++ rest.unknownText

/-- The pieces of a new element. -/
def newPieces (nsPrefix : JString) : List Piece :=
  .start nsPrefix (f.addElement.getD []) :: (textPieces (f.addElementData.getD []) ++ [.stop])

/-- The pieces of the edited content in which a new element has the prefix of the last start tag before it. -/
def Content.editedPieces : Content → List Piece
  | empty => []
  | text data rest => textPieces data ++ rest.editedPieces
  | other data rest => textPieces data ++ rest.editedPieces
  | element tag children rest =>
    (if f.removes tag.getName.getLocalPart then [] else tag.pieces ++ (children.editedPieces ++ [.stop]))
      ++ ((if f.inserts tag.getName.getLocalPart then newPieces f (children.lastTag tag).getName.getPrefix else [])
        ++ rest.editedPieces)

/-- The documents that are written as they should be. -/
structure XmlDocument.Rewritable (lib : XmlLibrary) (d : XmlDocument) : Prop where
  /-- The root is kept without a new element behind it, or one stands in its place. -/
  root : f.removes d.root.getName.getLocalPart = f.inserts d.root.getName.getLocalPart
  /-- The form without a new element has nothing to leave out, and the other no element with elements in it. -/
  removed : ∀ e ∈ d.content.nodes, f.removes e.1.getName.getLocalPart = true →
    f.addElementData.isSome = true ∧ e.2.nodes = []
  /-- No element that is kept declares a namespace. -/
  undeclared : ∀ e ∈ d.content.nodes, f.removes e.1.getName.getLocalPart = false → e.1.namespaces = []
  /-- Up to the end of an element behind which a new one is to stand, the last start tag has no prefix of its own. -/
  inserted : ∀ e ∈ d.content.nodes, f.inserts e.1.getName.getLocalPart = true →
    (e.2.lastTag e.1).getName.getPrefix ∈ declaredPrefixes
  /-- There is no `CDATA` section. -/
  known : d.content.unknownText f = []
  /-- The text of the edited document is the same when it has been written in the platform's charset and is read in the
  encoding that it declares. -/
  encoded : lib.decode d.declaredEncoding (lib.getBytes (lib.out d (d.content.editedPieces f)))
    = lib.out d (d.content.editedPieces f)

end form

/-! ## What the parser writes at an event -/

theorem piecesOf_append (a b : List WriterCall) : piecesOf (a ++ b) = piecesOf a ++ piecesOf b := List.flatMap_append

section step

variable {f : Form}

/-- The code leaves out what it should, but in the form without a new element it leaves out nothing. -/
theorem delElement_eq (name : JString) : delElement f name = (f.addElementData.isSome && f.removes name) := by
  cases f <;> rfl

/-- The new element is written where it is to be inserted. -/
theorem piecesOf_addElement (name nsPrefix uri : JString) :
    piecesOf (addElement f name nsPrefix uri) = if f.inserts name then newPieces f nsPrefix else [] := by
  cases f with
  | add afterElement element data =>
    change piecesOf (if equalsIgnoreCase name afterElement = true then _ else []) = _
    rw [apply_ite piecesOf]
    rfl
  | delete element => rfl
  | noChange => rfl

variable (hwriter : f.hasWriter = true)

include hwriter in
/-- What is deleted is not written. -/
theorem piecesOf_write (isDel : Bool) (calls : List WriterCall) :
    piecesOf (write f isDel calls) = if isDel then [] else piecesOf calls := by
  unfold write
  rw [hwriter]
  cases isDel <;> rfl

include hwriter in
/-- A start tag is written unless its element is deleted. -/
theorem pieces_startElement (s : State) (tag : Tag) :
    piecesOf (step f s (.startElement tag)).written
      = piecesOf s.written ++ if delElement f tag.getName.getLocalPart then [] else piecesOf (writeTag tag) := by
  change piecesOf (s.written ++ write f (delElement f tag.getName.getLocalPart) (writeTag tag)) = _
  rw [piecesOf_append, piecesOf_write hwriter]

include hwriter in
/-- Text is written outside deleted elements. -/
theorem pieces_characters (s : State) (text : JString) :
    piecesOf (step f s (.characters text)).written
      = piecesOf s.written ++ if s.isDel then [] else textPieces text := by
  rw [step]
  cases hdel : s.isDel with
  | true => exact (List.append_nil _).symm
  | false =>
    change piecesOf (s.written ++ write f false [.writeCharacters text]) = _
    rw [piecesOf_append, piecesOf_write hwriter]
    exact congrArg _ (List.flatMap_singleton _ _)

include hwriter in
/-- An end tag is written outside deleted elements, and the new element behind it. -/
theorem pieces_endElement (s : State) (name : QName) :
    piecesOf (step f s (.endElement name)).written
      = piecesOf s.written ++ ((if s.isDel then [] else [.stop])
        ++ if f.inserts name.getLocalPart then newPieces f s.currentNamespace else []) := by
  change piecesOf (s.written ++ write f s.isDel [.writeEndElement]
    ++ addElement f name.getLocalPart s.currentNamespace s.currentUri) = _
  rw [piecesOf_append, piecesOf_append, piecesOf_write hwriter, piecesOf_addElement, List.append_assoc]
  rfl

/-- The pieces of a start tag without namespaces are written as they are. -/
theorem piecesOf_writeTag {tag : Tag} (h : tag.namespaces = []) : piecesOf (writeTag tag) = tag.pieces := by
  have hnamespaces : writeNamespaces tag = [] := by
    rw [writeNamespaces, h]
    rfl
  rw [writeTag, hnamespaces, Tag.pieces, h, List.nil_append, List.map_nil, List.nil_append]
  change _ :: piecesOf _ = _
  rw [piecesOf, List.flatMap_map]
  exact congrArg _ (List.map_eq_flatMap).symm

/-- Whether what follows is left out, behind some content: an element ends that. -/
theorem isDel_run (c : Content) (s : State) :
    (run f s c.events).isDel = if c.nodes = [] then s.isDel else false := by
  induction c generalizing s with
  | empty => rfl
  | text data rest ih => rw [Content.events, run_cons, ih, Content.nodes, isDel_characters]
  | other data rest ih => exact ih s
  | element tag children rest ihchildren ihrest =>
    rw [Content.events, run_cons, run_append, run_cons, ihrest, isDel_element, ite_self, Content.nodes,
      if_neg (List.cons_ne_nil _ _)]

/-- The prefix that a new element gets is that of the last start tag. -/
theorem currentNamespace_run (c : Content) (tag : Tag) {s : State} (h : s.currentNamespace = tag.getName.getPrefix) :
    (run f s c.events).currentNamespace = (c.lastTag tag).getName.getPrefix := by
  induction c generalizing s tag with
  | empty => exact h
  | text data rest ih =>
    apply ih tag
    rw [step]
    split
    · exact h
    · exact h
  | other data rest ih => exact ih tag h
  | element inner children rest ihchildren ihrest =>
    rw [Content.events, run_cons, run_append, run_cons, Content.lastTag]
    exact ihrest _ (ihchildren _ rfl)

end step

/-! ## How many pieces there are of a kind -/

/-- The kinds of pieces. -/
inductive PieceKind
  | start
  | xmlns
  | attr
  | char
  | stop
deriving DecidableEq

def Piece.kind : Piece → PieceKind
  | start _ _ => .start
  | xmlns _ _ => .xmlns
  | attr _ _ => .attr
  | char _ => .char
  | stop => .stop

/-- The number of pieces of a kind. -/
def count (k : PieceKind) (ps : List Piece) : ℕ := ps.countP fun p => p.kind = k

section count

variable (k : PieceKind)

@[simp] theorem count_nil : count k [] = 0 := rfl

theorem count_cons (p : Piece) (ps : List Piece) : count k (p :: ps) = (if p.kind = k then 1 else 0) + count k ps := by
  rw [count, List.countP_cons, Nat.add_comm]
  simp only [decide_eq_true_eq]
  rfl

theorem count_append (ps qs : List Piece) : count k (ps ++ qs) = count k ps + count k qs := List.countP_append

theorem count_map {α : Type} (kind : PieceKind) (g : α → Piece) (h : ∀ a, (g a).kind = kind) (l : List α) :
    count k (l.map g) = if kind = k then l.length else 0 := by
  induction l with
  | nil => exact (ite_self 0).symm
  | cons a l ih =>
    rw [List.map_cons, count_cons, h, ih, List.length_cons]
    split <;> omega

/-- A text counts its characters. -/
theorem count_textPieces (text : JString) : count k (textPieces text) = if .char = k then text.length else 0 :=
  count_map k .char .char (fun _ => rfl) text

/-- A tag counts its declarations and attributes. -/
theorem count_tag (tag : Tag) :
    count k tag.pieces = (if .start = k then 1 else 0) + ((if .xmlns = k then tag.namespaces.length else 0)
      + if .attr = k then tag.attributes.length else 0) := by
  rw [Tag.pieces, count_cons, count_append,
    count_map k .xmlns (fun n : Namespace => .xmlns n.getPrefix n.getURI) fun _ => rfl,
    count_map k .attr (fun a : Attribute => .attr (attributeName a) a.getValue) fun _ => rfl]
  rfl

/-- Of the namespaces of a start tag all but one are written. -/
theorem count_writeTag (tag : Tag) :
    count k (piecesOf (writeTag tag)) = (if .start = k then 1 else 0)
      + ((if .xmlns = k then tag.namespaces.length - 1 else 0)
        + if .attr = k then tag.attributes.length else 0) := by
  have hnamespaces : piecesOf (writeNamespaces tag) = (List.range' 1 (tag.namespaces.length - 1)).map fun i =>
      .xmlns tag.getName.getPrefix
        ((tag.attributes[i]?.bind Attribute.getNamespace).getD tag.getName.getNamespaceURI) := by
    rw [writeNamespaces, piecesOf, List.flatMap_map]
    exact (List.map_eq_flatMap).symm
  have hattributes : piecesOf (tag.attributes.map fun a => .writeAttribute (attributeName a) a.getValue)
      = tag.attributes.map fun a => .attr (attributeName a) a.getValue := by
    rw [piecesOf, List.flatMap_map]
    exact (List.map_eq_flatMap).symm
  have hpieces : piecesOf (writeTag tag) = .start tag.getName.getPrefix tag.getName.getLocalPart
      :: (piecesOf (writeNamespaces tag)
        ++ piecesOf (tag.attributes.map fun a => .writeAttribute (attributeName a) a.getValue)) := by
    rw [← piecesOf_append]
    rfl
  rw [hpieces, hnamespaces, hattributes, count_cons, count_append, count_map k .xmlns _ fun _ => rfl,
    List.length_range', count_map k .attr (fun a : Attribute => .attr (attributeName a) a.getValue) fun _ => rfl]
  rfl

/-- The new element counts once, with its text. -/
theorem count_newPieces (f : Form) (nsPrefix : JString) :
    count k (newPieces f nsPrefix) = (if .start = k then 1 else 0)
      + ((if .char = k then (f.addElementData.getD []).length else 0) + if .stop = k then 1 else 0) := by
  rw [newPieces, count_cons, count_append, count_textPieces, count_cons, count_nil, Nat.add_zero]
  rfl

/-- The pieces that the parser writes for an element itself, but for characters. -/
def writtenFor (f : Form) (e : Tag × Content) : ℕ :=
  (if delElement f e.1.getName.getLocalPart then 0 else count k (piecesOf (writeTag e.1)))
    + ((if delElement f e.1.getName.getLocalPart = true ∧ e.2.nodes = [] then 0 else if .stop = k then 1 else 0)
      + if f.inserts e.1.getName.getLocalPart then (if .start = k then 1 else 0) + if .stop = k then 1 else 0 else 0)

/-- What the parser writes of any content. An element that is left out still has an end tag if there are elements in
it. -/
theorem count_run {f : Form} (hwriter : f.hasWriter = true) (hk : k ≠ .char) (c : Content) (s : State) :
    count k (piecesOf (run f s c.events).written)
      = count k (piecesOf s.written) + (c.nodes.map (writtenFor k f)).sum := by
  have hchar : ¬ PieceKind.char = k := fun h => hk h.symm
  induction c generalizing s with
  | empty => rfl
  | text data rest ih =>
    rw [Content.events, run_cons, ih, pieces_characters hwriter, count_append, Content.nodes]
    have hnone : count k (if s.isDel then [] else textPieces data) = 0 := by
      split
      · rfl
      · rw [count_textPieces, if_neg hchar]
    rw [hnone, Nat.add_zero]
  | other data rest ih => exact ih s
  | element tag children rest ihchildren ihrest =>
    -- The flag at the end tag is that of the start tag only if there are no elements in between.
    rw [Content.events, run_cons, run_append, run_cons, ihrest, pieces_endElement hwriter, count_append, ihchildren,
      pieces_startElement hwriter, count_append, isDel_run, count_append, Content.nodes, List.map_cons,
      List.sum_cons, List.map_append, List.sum_append, writtenFor]
    change count k (piecesOf s.written) + count k (if delElement f tag.getName.getLocalPart = true then [] else _) + _
      + (count k (if (if children.nodes = [] then delElement f tag.getName.getLocalPart else false) = true then []
        else [.stop]) + _) + _ = _
    have hstop : count k [.stop] = if .stop = k then 1 else 0 := by
      rw [count_cons, count_nil]
      rfl
    have hend : count k (if (if children.nodes = [] then delElement f tag.getName.getLocalPart else false) = true
          then [] else [.stop])
        = if delElement f tag.getName.getLocalPart = true ∧ children.nodes = [] then 0
          else if .stop = k then 1 else 0 := by
      by_cases hnodes : children.nodes = []
      · simp only [hnodes, if_true, and_true, apply_ite (count k), hstop, count_nil]
      · simp only [hnodes, if_false, and_false, Bool.false_eq_true, hstop]
    rw [hend]
    simp only [apply_ite (count k), count_nil, count_newPieces, if_neg hchar, Nat.zero_add]
    omega

end count

/-! ## The pieces of an edited document -/

theorem Content.pieces_append (c d : Content) : (c.append d).pieces = c.pieces ++ d.pieces := by
  induction c with
  | empty => rfl
  | text data rest ih => rw [append, pieces, pieces, ih, List.append_assoc]
  | other data rest ih => rw [append, pieces, pieces, ih, List.append_assoc]
  | element tag children rest ihchildren ihrest =>
    rw [append, pieces, pieces, ihrest, List.append_assoc, List.append_assoc, List.cons_append]

/-- What is inserted has the pieces of a new element. -/
theorem pieces_of_inserted {f : Form} {tag : Tag} {new : Content} (h : f.Inserted tag new) :
    ∃ nsPrefix, new.pieces = if f.inserts tag.getName.getLocalPart then newPieces f nsPrefix else [] := by
  unfold Form.Inserted at h
  split_ifs at h with hname
  · obtain ⟨nsPrefix, uri, rfl⟩ := h
    refine ⟨nsPrefix, ?_⟩
    rw [if_pos hname]
    change _ :: (textPieces _ ++ [] ++ [_]) = _
    rw [List.append_nil]
    rfl
  · refine ⟨[], ?_⟩
    rw [if_neg hname, h]
    rfl

section edited

variable {f : Form} {c out : Content}

/-- Each start tag of a document has an end tag. -/
theorem count_start_eq_count_stop (c : Content) : count .start c.pieces = count .stop c.pieces := by
  induction c with
  | empty => rfl
  | text data rest ih =>
    rw [Content.pieces, count_append, count_append, count_textPieces, count_textPieces, ih]
    rfl
  | other data rest ih =>
    rw [Content.pieces, count_append, count_append, count_textPieces, count_textPieces, ih]
    rfl
  | element tag children rest ihchildren ihrest =>
    simp only [Content.pieces, count_append, count_cons, count_tag, ihchildren, ihrest, Piece.kind, if_true,
      reduceCtorEq, if_false]
    omega

/-- No more elements stay than are not to be left out. -/
theorem Edited.count_start_le (h : Edited f c out) :
    count .start out.pieces ≤ (c.nodes.map fun e => (if f.removes e.1.getName.getLocalPart then 0 else 1)
      + if f.inserts e.1.getName.getLocalPart then 1 else 0).sum := by
  induction h with
  | empty => exact Nat.zero_le _
  | text hrest ih =>
    rw [Content.pieces, count_append, count_textPieces]
    exact (Nat.zero_add _).trans_le ih
  | other hrest ih =>
    rw [Content.pieces, count_append, count_textPieces]
    exact (Nat.zero_add _).trans_le ih
  | @kept tag children rest children' rest' new hname hnew hchildren hrest ihchildren ihrest =>
    obtain ⟨nsPrefix, hpieces⟩ := pieces_of_inserted hnew
    simp only [Content.pieces, Content.nodes, Content.pieces_append, count_append, count_cons, count_tag, hpieces,
      List.map_cons, List.sum_cons, List.map_append, List.sum_append, hname, Piece.kind, apply_ite (count _),
      count_newPieces, count_nil, if_true, reduceCtorEq, if_false, Bool.false_eq_true, Nat.add_zero]
    omega
  | @removed tag children rest rest' new hname hnew hrest ihrest =>
    obtain ⟨nsPrefix, hpieces⟩ := pieces_of_inserted hnew
    simp only [Content.nodes, Content.pieces_append, count_append, hpieces, List.map_cons, List.sum_cons,
      List.map_append, List.sum_append, hname, apply_ite (count _), count_newPieces, count_nil, if_true, reduceCtorEq,
      if_false, Nat.add_zero]
    omega

/-- If no element is left out with elements in it, the declarations that stay are those of the elements that stay. -/
theorem Edited.count_xmlns (h : Edited f c out)
    (hremoved : ∀ e ∈ c.nodes, f.removes e.1.getName.getLocalPart = true → e.2.nodes = []) :
    count .xmlns out.pieces
      = (c.nodes.map fun e => if f.removes e.1.getName.getLocalPart then 0 else e.1.namespaces.length).sum := by
  induction h with
  | empty => rfl
  | text hrest ih =>
    rw [Content.pieces, count_append, count_textPieces]
    exact (Nat.zero_add _).trans (ih hremoved)
  | other hrest ih =>
    rw [Content.pieces, count_append, count_textPieces]
    exact (Nat.zero_add _).trans (ih hremoved)
  | @kept tag children rest children' rest' new hname hnew hchildren hrest ihchildren ihrest =>
    obtain ⟨nsPrefix, hpieces⟩ := pieces_of_inserted hnew
    rw [Content.nodes, List.forall_mem_cons, List.forall_mem_append] at hremoved
    simp only [Content.pieces, Content.nodes, Content.pieces_append, count_append, count_cons, count_tag, hpieces,
      List.map_cons, List.sum_cons, List.map_append, List.sum_append, hname, Piece.kind, apply_ite (count _),
      count_newPieces, count_nil, if_true, reduceCtorEq, if_false, Bool.false_eq_true, ite_self,
      ihchildren hremoved.2.1, ihrest hremoved.2.2]
    omega
  | @removed tag children rest rest' new hname hnew hrest ihrest =>
    obtain ⟨nsPrefix, hpieces⟩ := pieces_of_inserted hnew
    rw [Content.nodes, List.forall_mem_cons, List.forall_mem_append] at hremoved
    have hnone : children.nodes = [] := hremoved.1 hname
    simp only [Content.nodes, Content.pieces_append, count_append, hpieces, List.map_cons, List.sum_cons,
      List.map_append, List.sum_append, hname, hnone, List.map_nil, List.sum_nil, apply_ite (count _),
      count_newPieces, count_nil, if_true, reduceCtorEq, if_false, ite_self, ihrest hremoved.2.2, Nat.add_zero,
      Nat.zero_add]

end edited

/-! ## What the parser writes of an element -/

section element

variable {f : Form}

/-- Nothing is written of what is left out. -/
theorem run_removed {c : Content} (hnodes : c.nodes = []) {s : State} (hdel : s.isDel = true) :
    run f s c.events = s := by
  induction c with
  | empty => rfl
  | text data rest ih =>
    have hstep : step f s (.characters data) = s := if_pos hdel
    rw [Content.events, run_cons, hstep]
    exact ih hnodes
  | other data rest ih => exact ih hnodes
  | element tag children rest => exact absurd hnodes (List.cons_ne_nil _ _)

/-- An element that is left out, with no elements in it. -/
theorem pieces_removed (hwriter : f.hasWriter = true) {tag : Tag} {children : Content}
    (hdel : delElement f tag.getName.getLocalPart = true) (hnodes : children.nodes = []) (s : State) :
    piecesOf (step f (run f (step f s (.startElement tag)) children.events) (.endElement tag.getName)).written
      = piecesOf s.written
        ++ if f.inserts tag.getName.getLocalPart then newPieces f (children.lastTag tag).getName.getPrefix else [] := by
  have hlast := currentNamespace_run (f := f) children tag (s := step f s (.startElement tag)) rfl
  rw [run_removed hnodes hdel] at hlast ⊢
  rw [pieces_endElement hwriter, pieces_startElement hwriter, hdel, hlast]
  change piecesOf s.written ++ [] ++ ((if delElement f tag.getName.getLocalPart then [] else [.stop]) ++ _) = _
  rw [hdel, List.append_nil]
  rfl

/-- The start tag of an element that is kept. -/
theorem pieces_kept_start (hwriter : f.hasWriter = true) {tag : Tag}
    (hdel : delElement f tag.getName.getLocalPart = false) (s : State) :
    piecesOf (step f s (.startElement tag)).written = piecesOf s.written ++ piecesOf (writeTag tag) := by
  rw [pieces_startElement hwriter, hdel]
  rfl

/-- The end tag of an element that is kept. -/
theorem pieces_kept_end (hwriter : f.hasWriter = true) {tag : Tag} (children : Content)
    (hdel : delElement f tag.getName.getLocalPart = false) (s : State) :
    piecesOf (step f (run f (step f s (.startElement tag)) children.events) (.endElement tag.getName)).written
      = piecesOf (run f (step f s (.startElement tag)) children.events).written
        ++ (.stop :: if f.inserts tag.getName.getLocalPart then
          newPieces f (children.lastTag tag).getName.getPrefix else []) := by
  have hisDel := isDel_run_of_eq_false (f := f) children (s := step f s (.startElement tag)) hdel
  rw [pieces_endElement hwriter, hisDel, currentNamespace_run children tag rfl]
  rfl

end element

section edited

variable {f : Form} (hwriter : f.hasWriter = true) {c out : Content}

include hwriter in
/-- Where no element is left out with elements in it, the characters that are not written are those of the events that
the parser does not know. -/
theorem Edited.count_char (h : Edited f c out)
    (hremoved : ∀ e ∈ c.nodes, f.removes e.1.getName.getLocalPart = true →
      f.addElementData.isSome = true ∧ e.2.nodes = [])
    {s : State} (hdel : s.isDel = false) :
    count .char (piecesOf (run f s c.events).written) + (c.unknownText f).length
      = count .char (piecesOf s.written) + count .char out.pieces := by
  induction h generalizing s with
  | empty => rfl
  | @text data rest rest' hrest ih =>
    have hstep := (isDel_characters (f := f) s data).trans hdel
    rw [Content.events, run_cons, Content.unknownText, ih hremoved hstep, pieces_characters hwriter, hdel,
      Content.pieces, count_append, count_append]
    exact Nat.add_assoc _ _ _
  | @other data rest rest' hrest ih =>
    have hrun := ih hremoved hdel
    rw [Content.unknownText, List.length_append, Content.pieces, count_append, count_textPieces, if_pos rfl]
    change count .char (piecesOf (run f s rest.events).written) + _ = _
    omega
  | @kept tag children rest children' rest' new hname hnew hchildren hrest ihchildren ihrest =>
    obtain ⟨nsPrefix, hpieces⟩ := pieces_of_inserted hnew
    rw [Content.nodes, List.forall_mem_cons, List.forall_mem_append] at hremoved
    have hkept : delElement f tag.getName.getLocalPart = false := by rw [delElement_eq, hname, Bool.and_false]
    have hinner := ihchildren hremoved.2.1 (s := step f s (.startElement tag)) hkept
    have houter := ihrest hremoved.2.2 (isDel_element (f := f) tag children s)
    rw [pieces_kept_end hwriter children hkept] at houter
    rw [pieces_kept_start hwriter hkept] at hinner
    simp only [Content.events, run_cons, run_append, Content.unknownText, Content.pieces, Content.pieces_append,
      count_append, count_cons, count_tag, count_writeTag, hpieces, hname, Piece.kind, apply_ite (count _),
      count_newPieces, count_nil, if_true, reduceCtorEq, if_false, Bool.false_eq_true, Nat.add_zero,
      List.length_append] at hinner houter ⊢
    omega
  | @removed tag children rest rest' new hname hnew hrest ihrest =>
    obtain ⟨nsPrefix, hpieces⟩ := pieces_of_inserted hnew
    rw [Content.nodes, List.forall_mem_cons, List.forall_mem_append] at hremoved
    obtain ⟨hsome, hnodes⟩ := hremoved.1 hname
    have hout : delElement f tag.getName.getLocalPart = true := by rw [delElement_eq, hname, hsome]; rfl
    have houter := ihrest hremoved.2.2 (isDel_element (f := f) tag children s)
    rw [pieces_removed hwriter hout hnodes] at houter
    simp only [Content.events, run_cons, run_append, Content.unknownText, Content.pieces_append, count_append,
      hpieces, hname, apply_ite (count _), count_newPieces, count_nil, if_true, reduceCtorEq, if_false, Nat.add_zero,
      List.nil_append] at houter ⊢
    omega

end edited

/-! ## The prefixes of a written document -/

/-- What is written stays written. -/
theorem piecesOf_run_mono {f : Form} (events : List StaxEvent) (s : State) :
    piecesOf s.written ⊆ piecesOf (run f s events).written := by
  induction events generalizing s with
  | nil => exact List.Subset.refl _
  | cons e events ih =>
    have hstep : ∃ calls, (step f s e).written = s.written ++ calls := by
      cases e with
      | startDocument encoding version => exact ⟨_, rfl⟩
      | startElement tag => exact ⟨_, rfl⟩
      | characters text =>
        rw [step]
        split
        · exact ⟨[], (List.append_nil _).symm⟩
        · exact ⟨_, rfl⟩
      | endElement name => exact ⟨_, List.append_assoc _ _ _⟩
      | endDocument => exact ⟨_, rfl⟩
      | other => exact ⟨[], (List.append_nil _).symm⟩
    obtain ⟨calls, hcalls⟩ := hstep
    have hsub := ih (step f s e)
    rw [hcalls, piecesOf_append] at hsub
    exact List.Subset.trans (List.subset_append_left _ _) hsub

/-- Behind each element of the name in question a new one is written, with the prefix of the last start tag. -/
theorem start_mem_run {f : Form} (hwriter : f.hasWriter = true) (c : Content) (s : State) :
    ∀ e ∈ c.nodes, f.inserts e.1.getName.getLocalPart = true →
      Piece.start (e.2.lastTag e.1).getName.getPrefix (f.addElement.getD [])
        ∈ piecesOf (run f s c.events).written := by
  induction c generalizing s with
  | empty => exact fun e he => absurd he List.not_mem_nil
  | text data rest ih => exact ih (step f s (.characters data))
  | other data rest ih => exact ih s
  | element tag children rest ihchildren ihrest =>
    rw [Content.nodes, List.forall_mem_cons, List.forall_mem_append, Content.events, run_cons, run_append, run_cons]
    refine ⟨fun hinserts => ?_, fun e he hinserts => ?_, ihrest _⟩
    · apply piecesOf_run_mono
      rw [pieces_endElement hwriter, currentNamespace_run children tag rfl, if_pos hinserts, newPieces]
      simp only [List.mem_append, List.mem_cons, true_or, or_true]
    · apply piecesOf_run_mono
      have hmono := piecesOf_run_mono (f := f) [.endElement tag.getName]
        (run f (step f s (.startElement tag)) children.events)
      exact hmono (ihchildren _ e he hinserts)

/-- Where nothing is declared, the start tags have no prefixes but those that need no declaration. -/
theorem prefix_mem_of_bound {c : Content} {scope : List JString} (hbound : c.Bound scope)
    (hxmlns : count .xmlns c.pieces = 0) {nsPrefix localName : JString}
    (hmem : Piece.start nsPrefix localName ∈ c.pieces) : nsPrefix ∈ scope := by
  have htext (text : JString) : Piece.start nsPrefix localName ∉ textPieces text := by
    simp only [textPieces, List.mem_map, reduceCtorEq, and_false, exists_false, not_false_eq_true]
  induction c with
  | empty => exact absurd hmem List.not_mem_nil
  | text data rest ih =>
    rw [Content.pieces, count_append] at hxmlns
    exact ih hbound (Nat.eq_zero_of_add_eq_zero_left hxmlns) ((List.mem_append.mp hmem).resolve_left (htext data))
  | other data rest ih =>
    rw [Content.pieces, count_append] at hxmlns
    exact ih hbound (Nat.eq_zero_of_add_eq_zero_left hxmlns) ((List.mem_append.mp hmem).resolve_left (htext data))
  | element tag children rest ihchildren ihrest =>
    obtain ⟨htag, hchildren, hrest⟩ := hbound
    simp only [Content.pieces, count_append, count_cons, count_tag, Piece.kind, reduceCtorEq, if_false, if_true]
      at hxmlns
    have hnone : tag.namespaces = [] := List.length_eq_zero_iff.mp (by omega)
    have hscope : tag.scope scope = scope := by
      rw [Tag.scope, hnone]
      rfl
    rw [hscope] at hchildren
    have hname := htag.name_mem
    rw [hscope] at hname
    simp only [Content.pieces, Tag.pieces, List.mem_append, List.mem_cons, List.mem_map, reduceCtorEq, and_false,
      exists_false, or_false, false_or, Piece.start.injEq] at hmem
    rcases hmem with ⟨rfl, -⟩ | hmem | hmem
    · exact hname
    · exact ihchildren hchildren (by omega) hmem
    · exact ihrest hrest (by omega) hmem

/-! ## When a document is written as it should be -/

/-- What the parser writes of content whose elements are fit for it. -/
theorem run_edited {f : Form} (hwriter : f.hasWriter = true) {c : Content}
    (hremoved : ∀ e ∈ c.nodes, f.removes e.1.getName.getLocalPart = true →
      f.addElementData.isSome = true ∧ e.2.nodes = [])
    (hundeclared : ∀ e ∈ c.nodes, f.removes e.1.getName.getLocalPart = false → e.1.namespaces = [])
    (hinserted : ∀ e ∈ c.nodes, f.inserts e.1.getName.getLocalPart = true →
      (e.2.lastTag e.1).getName.getPrefix ∈ declaredPrefixes)
    (hknown : c.unknownText f = []) (hbound : c.Bound declaredPrefixes) {s : State} (hdel : s.isDel = false) :
    ∃ out, Edited f c out ∧ out.Bound declaredPrefixes ∧ out.pieces = c.editedPieces f
      ∧ piecesOf (run f s c.events).written = piecesOf s.written ++ out.pieces := by
  induction c generalizing s with
  | empty => exact ⟨.empty, .empty, trivial, rfl, (List.append_nil _).symm⟩
  | text data rest ih =>
    have hstep := (isDel_characters (f := f) s data).trans hdel
    obtain ⟨out, hout, houtbound, hsame, hpieces⟩ := ih hremoved hundeclared hinserted hknown hbound hstep
    refine ⟨.text data out, .text hout, houtbound, congrArg (textPieces data ++ ·) hsame, ?_⟩
    rw [Content.events, run_cons, hpieces, pieces_characters hwriter, hdel, Content.pieces, List.append_assoc]
    rfl
  | other data rest ih =>
    -- Nothing is written for the event, and it stands for no text.
    obtain ⟨rfl, hrest⟩ := List.append_eq_nil_iff.mp hknown
    obtain ⟨out, hout, houtbound, hsame, hpieces⟩ := ih hremoved hundeclared hinserted hrest hbound hdel
    exact ⟨.text [] out, .other hout, houtbound, hsame, hpieces⟩
  | element tag children rest ihchildren ihrest =>
    rw [Content.nodes, List.forall_mem_cons, List.forall_mem_append] at hremoved hundeclared hinserted
    rw [Content.unknownText, List.append_eq_nil_iff] at hknown
    obtain ⟨htag, hchildrenbound, hrestbound⟩ := hbound
    obtain ⟨rest', hrest', hrest'bound, hrestsame, hrestpieces⟩ :=
      ihrest hremoved.2.2 hundeclared.2.2 hinserted.2.2 hknown.2
      hrestbound (isDel_element (f := f) tag children s)
    -- The new element behind this one, if there is one.
    obtain ⟨new, hnew, hnewpieces, hnewbound⟩ : ∃ new, f.Inserted tag new
        ∧ new.pieces = (if f.inserts tag.getName.getLocalPart then
            newPieces f (children.lastTag tag).getName.getPrefix else [])
        ∧ (new.append rest').Bound declaredPrefixes := by
      unfold Form.Inserted
      cases hname : f.inserts tag.getName.getLocalPart with
      | true =>
        refine ⟨_, ⟨(children.lastTag tag).getName.getPrefix, [], rfl⟩, ?_, ?_⟩
        · simp only [Content.pieces, List.append_nil]
          rfl
        · have hprefix := hinserted.1 hname
          exact ⟨⟨List.nodup_nil, List.nodup_nil, hprefix, fun a ha => absurd ha List.not_mem_nil⟩, trivial,
            hrest'bound⟩
      | false => exact ⟨.empty, rfl, rfl, hrest'bound⟩
    rw [Content.events, run_cons, run_append, run_cons, hrestpieces, Content.editedPieces, ← hnewpieces, ← hrestsame]
    cases hname : f.removes tag.getName.getLocalPart with
    | true =>
      obtain ⟨hsome, hnodes⟩ := hremoved.1 hname
      have hout : delElement f tag.getName.getLocalPart = true := by rw [delElement_eq, hname, hsome]; rfl
      refine ⟨new.append rest', .removed hname hnew hrest', hnewbound, ?_, ?_⟩
      · rw [if_pos rfl, List.nil_append, Content.pieces_append]
      rw [pieces_removed hwriter hout hnodes, Content.pieces_append, hnewpieces, List.append_assoc]
    | false =>
      have hkept : delElement f tag.getName.getLocalPart = false := by rw [delElement_eq, hname, Bool.and_false]
      have hnone := hundeclared.1 hname
      have hscope : tag.scope declaredPrefixes = declaredPrefixes := by
        rw [Tag.scope, hnone]
        rfl
      rw [hscope] at hchildrenbound
      rw [hname, if_neg Bool.false_ne_true] at hknown
      obtain ⟨children', hchildren', hchildren'bound, hchildrensame, hchildrenpieces⟩ := ihchildren hremoved.2.1
        hundeclared.2.1 hinserted.2.1 hknown.1 hchildrenbound (s := step f s (.startElement tag)) hkept
      refine ⟨.element tag children' (new.append rest'), .kept hname hnew hchildren' hrest',
        ⟨htag, hscope.symm ▸ hchildren'bound, hnewbound⟩, ?_, ?_⟩
      · rw [if_neg Bool.false_ne_true, Content.pieces, Content.pieces_append, ← hchildrensame]
        simp only [List.append_assoc, List.cons_append, List.nil_append]
      rw [pieces_kept_end hwriter children hkept, hchildrenpieces, pieces_kept_start hwriter hkept,
        piecesOf_writeTag hnone, Content.pieces, Content.pieces_append, hnewpieces]
      simp only [List.append_assoc, List.cons_append]

/-- Where one list is below another at every element, and their sums are the same, the lists are the same. -/
theorem eq_of_sum_eq {α : Type} {l : List α} {g h : α → ℕ} (hle : ∀ a ∈ l, g a ≤ h a)
    (hsum : (l.map h).sum ≤ (l.map g).sum) : ∀ a ∈ l, g a = h a := by
  intro a ha
  by_contra hne
  have hlt := List.sum_lt_sum g h hle ⟨a, ha, lt_of_le_of_ne (hle a ha) hne⟩
  omega

section necessity

variable {f : Form} (e : Tag × Content)

/-- The start tags that are written for an element. -/
theorem writtenFor_start : writtenFor .start f e = (if delElement f e.1.getName.getLocalPart then 0 else 1)
    + if f.inserts e.1.getName.getLocalPart then 1 else 0 := by
  rw [writtenFor, count_writeTag]
  simp only [if_true, reduceCtorEq, if_false, ite_self, Nat.add_zero, Nat.zero_add]

/-- The end tags that are written for an element. -/
theorem writtenFor_stop :
    writtenFor .stop f e
      = (if delElement f e.1.getName.getLocalPart = true ∧ e.2.nodes = [] then 0 else 1)
        + if f.inserts e.1.getName.getLocalPart then 1 else 0 := by
  rw [writtenFor, count_writeTag]
  simp only [if_true, reduceCtorEq, if_false, ite_self, Nat.add_zero, Nat.zero_add]

/-- The declarations that are written for an element. -/
theorem writtenFor_xmlns :
    writtenFor .xmlns f e = if delElement f e.1.getName.getLocalPart then 0 else e.1.namespaces.length - 1 := by
  rw [writtenFor, count_writeTag]
  simp only [if_true, reduceCtorEq, if_false, ite_self, Nat.add_zero, Nat.zero_add]

variable {c out : Content} (hedited : Edited f c out)
  (hcount : ∀ k : PieceKind, k ≠ .char → count k out.pieces = (c.nodes.map (writtenFor k f)).sum)

include hedited hcount in
/-- No start tag is missing: the code leaves out what it should. -/
theorem delElement_eq_removes :
    ∀ e ∈ c.nodes, delElement f e.1.getName.getLocalPart = f.removes e.1.getName.getLocalPart := by
  have hstart := hedited.count_start_le
  rw [hcount .start (by decide)] at hstart
  have hle : ∀ e ∈ c.nodes, (if f.removes e.1.getName.getLocalPart then 0 else 1)
      + (if f.inserts e.1.getName.getLocalPart then 1 else 0) ≤ writtenFor .start f e := by
    intro e _
    rw [writtenFor_start, delElement_eq]
    cases f.removes e.1.getName.getLocalPart with
    | false => rw [Bool.and_false]
    | true => exact Nat.add_le_add_right (Nat.zero_le _) _
  intro e he
  have heq := eq_of_sum_eq hle hstart e he
  rw [writtenFor_start, Nat.add_right_cancel_iff] at heq
  cases hremoves : f.removes e.1.getName.getLocalPart <;> cases hdel : delElement f e.1.getName.getLocalPart
  · rfl
  · rw [hremoves, hdel] at heq
    cases heq
  · rw [hremoves, hdel] at heq
    cases heq
  · rfl

include hcount in
/-- There are as many end tags as start tags: what is left out has no elements in it. -/
theorem nodes_eq_nil_of_delElement :
    ∀ e ∈ c.nodes, delElement f e.1.getName.getLocalPart = true → e.2.nodes = [] := by
  have hbalanced := count_start_eq_count_stop out
  rw [hcount .start (by decide), hcount .stop (by decide)] at hbalanced
  have hle : ∀ e ∈ c.nodes, writtenFor .start f e ≤ writtenFor .stop f e := by
    intro e _
    rw [writtenFor_start, writtenFor_stop]
    apply Nat.add_le_add_right
    cases delElement f e.1.getName.getLocalPart with
    | false => rw [if_neg Bool.false_ne_true, if_neg fun h => Bool.false_ne_true h.1]
    | true => exact Nat.zero_le _
  intro e he hdel
  have heq := eq_of_sum_eq hle hbalanced.ge e he
  rw [writtenFor_start, writtenFor_stop, Nat.add_right_cancel_iff, if_pos hdel] at heq
  by_contra hnodes
  rw [if_neg fun h => hnodes h.2] at heq
  cases heq

include hedited hcount in
/-- No declaration is missing: what is kept has none, since of several all but one are written. -/
theorem namespaces_eq_nil (hleaf : ∀ e ∈ c.nodes, f.removes e.1.getName.getLocalPart = true → e.2.nodes = []) :
    ∀ e ∈ c.nodes, f.removes e.1.getName.getLocalPart = false → e.1.namespaces = [] := by
  have hxmlns := hedited.count_xmlns hleaf
  rw [hcount .xmlns (by decide)] at hxmlns
  have hsame := delElement_eq_removes hedited hcount
  have hle : ∀ e ∈ c.nodes, writtenFor .xmlns f e
      ≤ if f.removes e.1.getName.getLocalPart then 0 else e.1.namespaces.length := by
    intro e he
    rw [writtenFor_xmlns, hsame e he]
    split
    · exact le_refl 0
    · exact Nat.sub_le _ 1
  intro e he hname
  have heq := eq_of_sum_eq hle hxmlns.ge e he
  rw [writtenFor_xmlns, hsame e he, hname, if_neg Bool.false_ne_true, if_neg Bool.false_ne_true] at heq
  exact List.length_eq_zero_iff.mp (by omega)

end necessity

/-! ## The two forms with a writer -/

section document

variable {f : Form} {d : XmlDocument} (hwriter : f.hasWriter = true) (msg : UfpsFields)

/-- What the parser writes of a document are the pieces of its content. -/
theorem XmlDocument.pieces_parse (d : XmlDocument) :
    ∃ s : State, s.isDel = false ∧ piecesOf s.written = []
      ∧ piecesOf (parse f msg d.events).written = piecesOf (run f s d.content.events).written := by
  refine ⟨step f ⟨none, [], [], false, ⟨true, msg⟩, []⟩ (.startDocument d.encoding d.version), rfl, ?_, ?_⟩
  · change piecesOf ([] ++ write f false _) = []
    unfold write
    split <;> rfl
  · rw [parse, events, run_cons, run_append, run_replicate_other, run_append, run_append, run_replicate_other]
    change piecesOf (_ ++ if f.hasWriter = true then _ else []) = _
    rw [piecesOf_append]
    cases f.hasWriter <;> exact List.append_nil _

/-- The root of an edited document is the old one without a new element behind it, or a new one in its place. -/
theorem Edited.root {tag : Tag} {children out : Content} (hedited : Edited f (.element tag children .empty) out)
    (hroot : ∃ tag' children', out = .element tag' children' .empty) :
    f.removes tag.getName.getLocalPart = f.inserts tag.getName.getLocalPart := by
  obtain ⟨tag', children', rfl⟩ := hroot
  generalize hout : Content.element tag' children' .empty = out at hedited
  cases hedited with
  | @kept _ _ _ children'' rest' new hname hnew hchildren hrest =>
    cases hrest
    rw [hname]
    cases hinserts : f.inserts tag.getName.getLocalPart with
    | false => rfl
    | true =>
      unfold Form.Inserted at hnew
      rw [if_pos hinserts] at hnew
      obtain ⟨nsPrefix, uri, rfl⟩ := hnew
      cases hout
  | @removed _ _ _ rest' new hname hnew hrest =>
    cases hrest
    rw [hname]
    cases hinserts : f.inserts tag.getName.getLocalPart with
    | true => rfl
    -- Nothing would be left.
    | false =>
      unfold Form.Inserted at hnew
      rw [if_neg (hinserts ▸ Bool.false_ne_true)] at hnew
      rw [hnew] at hout
      cases hout

/-- An edited document has a root if the old one is kept or replaced. -/
theorem Edited.exists_root {tag : Tag} {children out : Content} (hedited : Edited f (.element tag children .empty) out)
    (hname : f.removes tag.getName.getLocalPart = f.inserts tag.getName.getLocalPart) :
    ∃ tag' children', out = .element tag' children' .empty := by
  cases hedited with
  | @kept _ _ _ children' rest' new hremoves hnew hchildren hrest =>
    cases hrest
    unfold Form.Inserted at hnew
    rw [if_neg (hname ▸ hremoves ▸ Bool.false_ne_true)] at hnew
    exact ⟨tag, children', by rw [hnew]; rfl⟩
  | @removed _ _ _ rest' new hremoves hnew hrest =>
    cases hrest
    unfold Form.Inserted at hnew
    rw [if_pos (hname ▸ hremoves)] at hnew
    obtain ⟨nsPrefix, uri, rfl⟩ := hnew
    exact ⟨_, _, rfl⟩

include hwriter in
/-- A form with a writer writes the edited document if and only if the document is fit for it. -/
theorem rewritten_iff_of_hasWriter (lib : XmlLibrary) :
    d.Rewritten f lib (parse f msg d.events).written ↔ d.Rewritable f lib := by
  obtain ⟨s, hdel, hwritten, hparse⟩ := d.pieces_parse (f := f) msg
  unfold XmlDocument.Rewritten XmlLibrary.buffer
  rw [hparse]
  constructor
  · rintro ⟨out, hedited, ⟨hroot, hbound⟩, hpieces, hdecode⟩
    -- What is written has as many pieces of each kind as the edited document.
    have hcount (k : PieceKind) (hk : k ≠ .char) :
        count k out.pieces = (d.content.nodes.map (writtenFor k f)).sum := by
      rw [← hpieces, count_run k hwriter hk, hwritten, count_nil, Nat.zero_add]
    have hsame := delElement_eq_removes hedited hcount
    have hleaf := nodes_eq_nil_of_delElement hcount
    have hremoved : ∀ e ∈ d.content.nodes, f.removes e.1.getName.getLocalPart = true →
        f.addElementData.isSome = true ∧ e.2.nodes = [] := by
      intro e he hname
      have hout := (hsame e he).trans hname
      refine ⟨?_, hleaf e he hout⟩
      rw [delElement_eq, Bool.and_eq_true] at hout
      exact hout.1
    have hundeclared := namespaces_eq_nil hedited hcount fun e he hname => (hremoved e he hname).2
    -- The new elements are among the start tags of the edited document, in which nothing is declared.
    have hinserted : ∀ e ∈ d.content.nodes, f.inserts e.1.getName.getLocalPart = true →
        (e.2.lastTag e.1).getName.getPrefix ∈ declaredPrefixes := by
      intro e he hname
      have hxmlns : count .xmlns out.pieces = 0 := by
        rw [hedited.count_xmlns fun e he hname => (hremoved e he hname).2, List.sum_eq_zero_iff]
        intro n hn
        obtain ⟨e, he, rfl⟩ := List.mem_map.mp hn
        cases hremoves : f.removes e.1.getName.getLocalPart with
        | true => rfl
        | false => exact congrArg List.length (hundeclared e he hremoves)
      have hmem := start_mem_run hwriter d.content s e he hname
      rw [hpieces] at hmem
      exact prefix_mem_of_bound hbound hxmlns hmem
    have hknown : d.content.unknownText f = [] := by
      have hchar := hedited.count_char hwriter hremoved hdel
      rw [hpieces, hwritten, count_nil, Nat.zero_add] at hchar
      exact List.length_eq_zero_iff.mp (by omega)
    -- So the text that was written is the one that the document gives.
    obtain ⟨out', -, -, hsame, hpieces'⟩ := run_edited hwriter hremoved hundeclared hinserted hknown d.bound hdel
    rw [hwritten, List.nil_append, hsame] at hpieces'
    rw [← hpieces, hpieces'] at hdecode
    exact ⟨hedited.root hroot, hremoved, hundeclared, hinserted, hknown, hdecode⟩
  · rintro ⟨hroot, hremoved, hundeclared, hinserted, hknown, hencoded⟩
    obtain ⟨out, hedited, hbound, hsame, hpieces⟩ :=
      run_edited hwriter hremoved hundeclared hinserted hknown d.bound hdel
    rw [hwritten, List.nil_append] at hpieces
    refine ⟨out, hedited, ⟨hedited.exists_root hroot, hbound⟩, hpieces, ?_⟩
    rw [hpieces, hsame]
    exact hencoded

end document

/-- In both forms the message holds the edited document afterwards if and only if the document is fit for it. -/
theorem rewritten_iff (lib : XmlLibrary) (msg : UfpsFields) (d : XmlDocument) :
    (∀ element, d.Rewritten (.delete element) lib (parse (.delete element) msg d.events).written
        ↔ d.Rewritable (.delete element) lib)
      ∧ ∀ afterElement element data,
        d.Rewritten (.add afterElement element data) lib (parse (.add afterElement element data) msg d.events).written
          ↔ d.Rewritable (.add afterElement element data) lib :=
  ⟨fun _ => rewritten_iff_of_hasWriter rfl msg lib, fun _ _ _ => rewritten_iff_of_hasWriter rfl msg lib⟩

/-- An envelope with a namespace and one address. -/
def withAddress : XmlDocument where
  encoding := none
  version := none
  prolog := 0
  root := ⟨⟨"env".toList, "Envelope".toList, "urn:e".toList⟩, [⟨"env".toList, "urn:e".toList⟩], []⟩
  children := .element ⟨⟨[], "To".toList, []⟩, [], []⟩ (.text "a".toList .empty) .empty
  epilog := 0
  bound := by
    refine ⟨⟨?_, List.nodup_nil, ?_, ?_⟩, ⟨⟨List.nodup_nil, List.nodup_nil, ?_, ?_⟩, trivial, trivial⟩, trivial⟩
    · exact List.nodup_singleton _
    · exact List.mem_cons_self
    · exact fun a ha => absurd ha List.not_mem_nil
    · exact List.mem_cons_of_mem _ List.mem_cons_self
    · exact fun a ha => absurd ha List.not_mem_nil

/-- The one form leaves the address in, and the other leaves out the namespace, whatever the charsets are. -/
theorem not_rewritten_withAddress :
    ¬ ∃ lib : XmlLibrary,
      withAddress.Rewritten (.delete "To".toList) lib (parse (.delete "To".toList) .clear withAddress.events).written
        ∨ withAddress.Rewritten (.add "To".toList "From".toList "b".toList) lib
          (parse (.add "To".toList "From".toList "b".toList) .clear withAddress.events).written := by
  rintro ⟨lib, h | h⟩
  · have hfit := (rewritten_iff_of_hasWriter rfl .clear lib).mp h
    have hnone := (hfit.removed _ (List.mem_cons_of_mem _ List.mem_cons_self) (by decide)).1
    cases hnone
  · have hfit := (rewritten_iff_of_hasWriter rfl .clear lib).mp h
    have hnone := hfit.undeclared _ List.mem_cons_self (by decide)
    cases hnone

end OrgLittle.Stream
