import OrgLittle.Java.LetterCase
import OrgLittle.Java.Strings

/-!
# `ufpsSAXParser`

The parser goes through the events of a stream reader. It takes the texts and the attributes of the header into a
`ufpsMsg`, and in two of its forms it tells a stream writer to write the document again: in one with a new element
behind each element of some name, in the other without the elements of some name.
-/

namespace OrgLittle.Stream

open OrgLittle.Java

/-! ## The reader and the writer -/

/-- `QName`. Without a prefix or a namespace the texts are empty. -/
structure QName where
  getPrefix : JString
  getLocalPart : JString
  getNamespaceURI : JString
deriving DecidableEq

/-- A namespace declaration. -/
structure Namespace where
  getPrefix : JString
  getURI : JString
deriving DecidableEq

/-- An attribute, whose prefix and namespace may be `null`. -/
structure Attribute where
  getPrefix : Option JString
  getLocalName : JString
  getNamespace : Option JString
  getValue : JString
deriving DecidableEq

/-- What a start tag holds. -/
structure Tag where
  getName : QName
  namespaces : List Namespace
  attributes : List Attribute
deriving DecidableEq

/-- The events of `XMLStreamReader`. -/
inductive StaxEvent
  | startDocument (encoding version : Option JString)
  | startElement (tag : Tag)
  | characters (text : JString)
  | endElement (name : QName)
  | endDocument
  | other
deriving DecidableEq

/-- The calls of `XMLStreamWriter`. -/
inductive WriterCall
  | writeStartDocument (encoding version : JString)
  | writeStartElement (nsPrefix localName uri : JString)
  | writeNamespace (nsPrefix uri : JString)
  | writeAttribute (qName value : JString)
  | writeCharacters (text : JString)
  | writeEndElement
  | writeEndDocument
deriving DecidableEq

/-! ## The fields of a message -/

/-- The fields of `ufpsSL` and `ufpsDoc` with one value, in the order in which `setElement` looks for them. -/
inductive HeaderField
  | FROM
  | type
  | priority
  | id
  | appId
  | corId
  | createTime
  | sendTime
  | receiveTime
  | acceptTime
  | ackRequest
  | docFormat
  | docType
  | docId
  | docEDNO
  | docEDDate
  | docEDAutor
deriving DecidableEq

namespace HeaderField

def all : List HeaderField :=
  [.FROM, .type, .priority, .id, .appId, .corId, .createTime, .sendTime, .receiveTime, .acceptTime, .ackRequest,
    .docFormat, .docType, .docId, .docEDNO, .docEDDate, .docEDAutor]

/-- The names in `ufpsMsgField`. -/
def name : HeaderField → JString
  | FROM => "From".toList
  | type => "MessageType".toList
  | priority => "Priority".toList
  | id => "MessageID".toList
  | appId => "AppMessageID".toList
  | corId => "CorrelationMessageID".toList
  | createTime => "CreateTime".toList
  | sendTime => "SendTime".toList
  | receiveTime => "ReceiveTime".toList
  | acceptTime => "AcceptTime".toList
  | ackRequest => "AckRequest".toList
  | docFormat => "DocFormat".toList
  | docType => "DocType".toList
  | docId => "DocID".toList
  | docEDNO => "EDNo".toList
  | docEDDate => "EDDate".toList
  | docEDAutor => "EDAuthor".toList

/-- The field of an element or attribute. -/
def ofName (element : JString) : Option HeaderField := all.find? fun field => equalsIgnoreCase element field.name

end HeaderField

/-- `H_ENVELOPE`. -/
def H_ENVELOPE : JString := "Envelope".toList

/-- `H_BODY`. -/
def H_BODY : JString := "Body".toList

/-- `H_HEADER`. -/
def H_HEADER : JString := "Header".toList

/-- `H_NAME_TO`. -/
def H_NAME_TO : JString := "To".toList

/-- What a `ufpsMsg` knows of its header. A field may be `null`. -/
structure UfpsFields where
  to_ : List JString
  field : HeaderField → Option JString

namespace UfpsFields

/-- The value of a field after `clear`: those of a `ufpsDocRefId` are `null`. -/
def cleared : HeaderField → Option JString
  | .docEDNO => none
  | .docEDDate => none
  | .docEDAutor => none
  | _ => some []

/-- `clear`. -/
def clear : UfpsFields := ⟨[], cleared⟩

/-- `addTO`. -/
def addTO (data : JString) (msg : UfpsFields) : UfpsFields := { msg with to_ := msg.to_ ++ [data] }

/-- The setter of a field with one value. -/
def set (field : HeaderField) (data : JString) (msg : UfpsFields) : UfpsFields :=
  { msg with field := Function.update msg.field field (some data) }

end UfpsFields

/-! ## The parser -/

namespace UfpsSAXParser

/-- The three constructors, with arguments that are not `null`. -/
inductive Form
  | add (afterElement element data : JString)
  | delete (element : JString)
  | noChange

namespace Form

/-- There is an `xml_writer`. -/
def hasWriter : Form → Bool
  | add _ _ _ => true
  | delete _ => true
  | noChange => false

def afterElement : Form → Option JString
  | add afterElement _ _ => some afterElement
  | delete _ => none
  | noChange => none

def addElement : Form → Option JString
  | add _ element _ => some element
  | delete element => some element
  | noChange => none

def addElementData : Form → Option JString
  | add _ _ data => some data
  | delete _ => none
  | noChange => none

end Form

/-- What `setElement` changes: whether texts are still taken, and the fields. -/
structure Reading where
  isParse : Bool
  msg : UfpsFields

/-- The variables of `parse`. The name of the last start tag is not read before there is one. -/
structure State where
  currentElement : Option JString
  currentNamespace : JString
  currentUri : JString
  isDel : Bool
  reading : Reading
  written : List WriterCall

/-- `setElement`, for data that is not `null`. -/
def setElement (element : Option JString) (data : JString) (r : Reading) : Reading :=
  if r.isParse then
    match element with
    | none => r
    | some element =>
      if equalsIgnoreCase element H_BODY then { r with isParse := false }
      else if equalsIgnoreCase element H_NAME_TO then { r with msg := r.msg.addTO data }
      else
        match HeaderField.ofName element with
        | some field => { r with msg := r.msg.set field data }
        | none => r
  else r

/-- `endElement`. -/
def endElement (element : JString) (r : Reading) : Reading :=
  if equalsIgnoreCase element H_HEADER then { r with isParse := false } else r

section form

variable (f : Form)

/-- `delElement`. -/
def delElement (element : JString) : Bool :=
  if f.hasWriter then
    match f.addElementData, f.addElement with
    | some _, some name => equalsIgnoreCase element name
    | _, _ => false
  else false

/-- `addElement`. -/
def addElement (element currentNamespace currentUri : JString) : List WriterCall :=
  if f.hasWriter then
    match f.afterElement, f.addElement, f.addElementData with
    | some afterElement, some name, some data =>
      if equalsIgnoreCase element afterElement then
        [.writeStartElement currentNamespace name currentUri, .writeCharacters data, .writeEndElement]
      else []
    | _, _, _ => []
  else []

/-- The calls that are made if there is a writer and `is_del` is not set. -/
def write (isDel : Bool) (calls : List WriterCall) : List WriterCall :=
  if f.hasWriter ∧ isDel = false then calls else []

/-- The namespaces that are written for a start tag. The reader gives `null` behind the last attribute. -/
def writeNamespaces (tag : Tag) : List WriterCall :=
  (List.range' 1 (tag.namespaces.length - 1)).map fun i =>
    .writeNamespace tag.getName.getPrefix
      ((tag.attributes[i]?.bind Attribute.getNamespace).getD tag.getName.getNamespaceURI)

/-- The name under which an attribute is written. -/
def attributeName (a : Attribute) : JString :=
  match a.getPrefix with
  | none => a.getLocalName
  | some nsPrefix => if nsPrefix = [] then a.getLocalName else nsPrefix ++ ':' :: a.getLocalName

/-- The loop over the attributes. -/
def readAttributes (attributes : List Attribute) (r : Reading) : Reading :=
  attributes.foldl (fun r a => setElement (some a.getLocalName) a.getValue r) r

/-- The calls for a start tag. -/
def writeTag (tag : Tag) : List WriterCall :=
  .writeStartElement tag.getName.getPrefix tag.getName.getLocalPart tag.getName.getNamespaceURI
    :: (writeNamespaces tag ++ tag.attributes.map fun a => .writeAttribute (attributeName a) a.getValue)

/-- The body of the loop of `parse`. -/
def step (s : State) : StaxEvent → State
  | .startDocument encoding version =>
    { s with
      written := s.written ++ write f s.isDel
        [.writeStartDocument (encoding.getD "UTF-8".toList) (version.getD "1.0".toList)] }
  | .startElement tag =>
    let isDel := delElement f tag.getName.getLocalPart
    { currentElement := some tag.getName.getLocalPart
      currentNamespace := tag.getName.getPrefix
      currentUri := tag.getName.getNamespaceURI
      isDel := isDel
      reading := readAttributes tag.attributes s.reading
      written := s.written ++ write f isDel (writeTag tag) }
  | .characters text =>
    if s.isDel then s
    else
      { s with
        currentElement := none
        reading := setElement s.currentElement text s.reading
        written := s.written ++ write f s.isDel [.writeCharacters text] }
  | .endElement name =>
    { s with
      currentElement := none
      isDel := if delElement f name.getLocalPart then false else s.isDel
      reading := endElement name.getLocalPart s.reading
      written := s.written ++ write f s.isDel [.writeEndElement]
        ++ addElement f name.getLocalPart s.currentNamespace s.currentUri }
  | .endDocument => { s with written := s.written ++ if f.hasWriter then [.writeEndDocument] else [] }
  | .other => s

/-- The loop of `parse`. -/
def run (s : State) (events : List StaxEvent) : State := events.foldl (step f) s

theorem run_append (s : State) (a b : List StaxEvent) : run f s (a ++ b) = run f (run f s a) b := List.foldl_append

theorem run_cons (s : State) (e : StaxEvent) (events : List StaxEvent) :
    run f s (e :: events) = run f (step f s e) events := rfl

theorem run_replicate_other (n : ℕ) (s : State) : run f s (List.replicate n .other) = s := by
  induction n with
  | zero => rfl
  | succ n ih => exact ih

/-- `parse` for a message with these fields. -/
def parse (msg : UfpsFields) (events : List StaxEvent) : State :=
  run f ⟨none, [], [], false, ⟨true, msg⟩, []⟩ events

end form

end UfpsSAXParser

/-! ## Documents -/

/-- The content of an element as the reader gives it: each piece of character data is an event of its own. The parser
does not know comments and processing instructions, nor `CDATA` sections, which come with their text. -/
inductive Content
  | empty
  | text (data : JString) (rest : Content)
  | other (data : JString) (rest : Content)
  | element (tag : Tag) (children rest : Content)
deriving DecidableEq

namespace Content

/-- The events of a reader. -/
def events : Content → List StaxEvent
  | empty => []
  | text data rest => .characters data :: rest.events
  | other _ rest => .other :: rest.events
  | element tag children rest => .startElement tag :: (children.events ++ .endElement tag.getName :: rest.events)

/-- Content behind content. -/
def append : Content → Content → Content
  | empty, c => c
  | text data rest, c => text data (rest.append c)
  | other data rest, c => other data (rest.append c)
  | element tag children rest, c => element tag children (rest.append c)

/-- The first piece of character data in front of the first child. -/
def firstText : Content → Option JString
  | text data _ => some data
  | other _ rest => rest.firstText
  | _ => none

/-- All character data of an element that has no elements in it. -/
def wholeText : Content → JString
  | empty => []
  | text data rest => data ++ rest.wholeText
  | other data rest => data ++ rest.wholeText
  | element _ _ rest => rest.wholeText

end Content

/-! ## The flag of elements that are left out -/

section isDel

open UfpsSAXParser

variable {f : Form}

theorem isDel_characters (s : State) (text : JString) : (step f s (.characters text)).isDel = s.isDel := by
  rw [step]
  split <;> rfl

theorem isDel_endElement {s : State} {name : QName} (h : delElement f name.getLocalPart = false → s.isDel = false) :
    (step f s (.endElement name)).isDel = false := by
  change (if delElement f name.getLocalPart = true then false else s.isDel) = false
  split_ifs with hname
  · rfl
  · exact h (Bool.eq_false_iff.mpr hname)

/-- Within an element that is kept the flag is not set behind any content. -/
theorem isDel_run_of_eq_false (c : Content) {s : State} (h : s.isDel = false) :
    (run f s c.events).isDel = false := by
  induction c generalizing s with
  | empty => exact h
  | text data rest ih => exact ih ((isDel_characters s data).trans h)
  | other data rest ih => exact ih h
  | element tag children rest ihchildren ihrest =>
    rw [Content.events, run_cons, run_append, run_cons]
    apply ihrest
    apply isDel_endElement
    -- The start tag has set the flag to whether its own element is left out.
    intro hname
    exact ihchildren hname

/-- Behind an element the flag is not set, whatever it was in front of it. -/
theorem isDel_element (tag : Tag) (children : Content) (s : State) :
    (step f (run f (step f s (.startElement tag)) children.events) (.endElement tag.getName)).isDel = false := by
  apply isDel_endElement
  intro hname
  exact isDel_run_of_eq_false children hname

end isDel

end OrgLittle.Stream
