import OrgLittle.Lib.Xml
import OrgLittle.Lmsg.X509

/-!
# `lFSMessage`: messages as files

A message is written as an XML document, tag by tag, without escaping anything, and read back with an XML
parser. The declaration says `WINDOWS-1251`, but the bytes are those of the platform's charset.
-/

namespace OrgLittle.Lmsg

open OrgLittle.Java OrgLittle.Lib OrgLittle.Util

/-! ## The platform -/

/-- `WINDOWS-1251` from `0x80` on. -/
def windows1251Upper : List Char :=
  ['Ђ', 'Ѓ', '‚', 'ѓ', '„', '…', '†', '‡', '€', '‰', 'Љ', '‹', 'Њ', 'Ќ', 'Ћ', 'Џ',
   'ђ', '‘', '’', '“', '”', '•', '–', '—', '\ufffd', '™', 'љ', '›', 'њ', 'ќ', 'ћ', 'џ',
   '\u00a0', 'Ў', 'ў', 'Ј', '¤', 'Ґ', '¦', '§', 'Ё', '©', 'Є', '«', '¬', '\u00ad', '®', 'Ї',
   '°', '±', 'І', 'і', 'ґ', 'µ', '¶', '·', 'ё', '№', 'є', '»', 'ј', 'Ѕ', 'ѕ', 'ї',
   'А', 'Б', 'В', 'Г', 'Д', 'Е', 'Ж', 'З', 'И', 'Й', 'К', 'Л', 'М', 'Н', 'О', 'П',
   'Р', 'С', 'Т', 'У', 'Ф', 'Х', 'Ц', 'Ч', 'Ш', 'Щ', 'Ъ', 'Ы', 'Ь', 'Э', 'Ю', 'Я',
   'а', 'б', 'в', 'г', 'д', 'е', 'ж', 'з', 'и', 'й', 'к', 'л', 'м', 'н', 'о', 'п',
   'р', 'с', 'т', 'у', 'ф', 'х', 'ц', 'ч', 'ш', 'щ', 'ъ', 'ы', 'ь', 'э', 'ю', 'я']

/-- Decoding a byte as `WINDOWS-1251`. -/
def windows1251 (b : UInt8) : Char :=
  if b.toNat < 128 then Char.ofNat b.toNat else windows1251Upper.getD (b.toNat - 128) '\ufffd'

/-- The platform: its charset, which extends US-ASCII, and `SimpleDateFormat("yyyy-MM-dd_HH:mm:ss")` in its
time zone, with the digits of US-ASCII. Either every character can be encoded, by bytes from `0x80` on, or
every character is one byte and those that cannot be encoded become a question mark. -/
structure Platform where
  charset : Charset
  encodeChar : Char → List UInt8
  encode_eq : ∀ s, charset.encode s = s.flatMap encodeChar
  encodeChar_ascii : ∀ c, c.toNat < 128 → encodeChar c = [UInt8.ofNat c.toNat]
  encodeChar_other :
    (∀ c, 128 ≤ c.toNat → ∀ b ∈ encodeChar c, 128 ≤ b.toNat)
      ∨ ∀ c, 128 ≤ c.toNat → ∃ b, encodeChar c = [b] ∧ (128 ≤ b.toNat ∨ b = 63)
  format : Date → JString
  parse : JString → Option Date
  format_chars : ∀ d, ∀ c ∈ format d, c.isDigit = true ∨ c = '-' ∨ c = '_' ∨ c = ':'

/-! ## Writing -/

/-- The XML declaration. -/
def xmlDecl : JString := "<?xml version=\"1.0\" encoding=\"WINDOWS-1251\"?>".toList

/-- A line with one element, or an element with such lines. -/
inductive Part
  | leaf (name : JString) (text : JString)
  | block (name : JString) (leaves : List (JString × JString))

/-- A part as it is written, after its first character. -/
def Part.src : Part → JString
  | .leaf name text => Xml.written name text
  | .block name leaves => Xml.written name (Xml.lines (leaves.map fun leaf => Xml.written leaf.1 leaf.2))

/-- The document with these parts in its header and its body. -/
def render (header body : List Part) : JString :=
  xmlDecl ++ '\n' :: '<' :: Xml.written "msgbox".toList
    (Xml.lines (Xml.written "header".toList (Xml.lines (header.map Part.src)) :: body.map Part.src))

/-- `String[].toString`, for an array with this identity hash code. -/
def arrayToString (hash : UInt32) : JString := "[Ljava.lang.String;@".toList ++ Nat.toDigits 16 hash.toNat

/-- `stringDate.date2str` in a concatenation. -/
def Platform.date2str (p : Platform) (d : Option Date) : JString := Message.textOf (d.map p.format)

/-- The header that `msg2str` writes. The dates of deletion and answer are taken from the date of
receipt. -/
def headerParts (p : Platform) (hash : UInt32) (m : Message) (id subject : JString) : List Part :=
  [Part.leaf "msg_uid".toList (intToString m.uid),
   .leaf "msg_from".toList (Message.textOf m.from_),
   .block "msg_to".toList (m.to_.map ("to".toList, ·))]
  ++ (m.createDate.map fun d => Part.leaf "msg_create_date".toList (p.date2str (some d))).toList
  ++ (m.sentDate.map fun d => Part.leaf "msg_sent_date".toList (p.date2str (some d))).toList
  ++ (m.receiveDate.map fun d => Part.leaf "msg_receive_date".toList (p.date2str (some d))).toList
  ++ (m.delDate.map fun _ => Part.leaf "msg_del_date".toList (p.date2str m.receiveDate)).toList
  ++ (m.answerDate.map fun _ => Part.leaf "msg_answer_date".toList (p.date2str m.receiveDate)).toList
  ++ [Part.leaf "msg_id".toList (Base64.byteArrayToBase64 (p.charset.encode id)),
      .leaf "msg_subject".toList (Base64.byteArrayToBase64 (p.charset.encode subject)),
      .leaf "msg_filename".toList (Message.textOf m.filename),
      .leaf "msg_mimetype".toList (Message.textOf m.mime),
      .leaf "msg_size".toList (intToString m.size),
      .block "x509".toList
        [("x509_type".toList, Message.textOf m.x509Type),
         ("x509_type_file".toList, Message.textOf m.x509TypeFile),
         ("x509_begin_date".toList, p.date2str m.x509BeginDate),
         ("x509_end_date".toList, p.date2str m.x509EndDate),
         ("x509_serial".toList, arrayToString hash),
         ("x509_subject".toList, Message.textOf m.x509Subject),
         ("x509_issuer".toList, Message.textOf m.x509Issuer)]]

/-- The bodies that `msg2str` writes. -/
def bodyParts (m : Message) : List Part :=
  (m.bodyTxt.map fun s => Part.leaf "body_t".toList s).toList
    ++ (m.bodyBin.map fun b => Part.leaf "body_b".toList (Base64.byteArrayToBase64 b)).toList

/-- `msg2str`: a message without an identifier or a subject is an exception. -/
def msg2str (p : Platform) (hash : UInt32) (m : Message) : Except JavaException JString :=
  match m.id, m.subject with
  | some id, some subject => .ok (render (headerParts p hash m id subject) (bodyParts m))
  | _, _ => .error .nullPointer

/-- `save`: the bytes of the file. After an exception it is empty. -/
def saveFile (p : Platform) (hash : UInt32) (m : Message) : List UInt8 :=
  match msg2str p hash m with
  | .ok s => p.charset.encode s
  | .error _ => []

/-! ## Reading -/

/-- `loadTo`. -/
def loadTo (m : Message) (node : Xml.Node) : Message :=
  node.children.foldl
    (fun m n => if n.name = "to".toList then { m with to_ := m.to_ ++ [n.textContent] } else m) m

/-- The entry of a table of tag names for a node. -/
def lookup {α : Type} (table : List (JString × α)) (n : Xml.Node) : Option α :=
  (table.find? fun entry => entry.1 = n.name).map (·.2)

/-- What the loop of `loadX509` does with the text of a node. -/
def x509Setters (p : Platform) : List (JString × (Message → JString → Message)) :=
  [("x509_type".toList, fun m s => { m with x509Type := some s }),
   ("x509_type_file".toList, fun m s => { m with x509TypeFile := some s }),
   ("x509_begin_date".toList, fun m s => { m with x509BeginDate := p.parse s }),
   ("x509_end_date".toList, fun m s => { m with x509EndDate := p.parse s }),
   ("x509_serial".toList, fun m s => { m with x509Serial := [s] }),
   ("x509_subject".toList, fun m s => { m with x509Subject := some s }),
   ("x509_issuer".toList, fun m s => { m with x509Issuer := some s })]

/-- The loop body of `loadX509`. -/
def loadX509Child (p : Platform) (m : Message) (n : Xml.Node) : Message :=
  match lookup (x509Setters p) n with
  | some set => set m n.textContent
  | none => m

/-- `loadX509`. -/
def loadX509 (p : Platform) (m : Message) (node : Xml.Node) : Message :=
  node.children.foldl (loadX509Child p) m

/-- What the loop of `loadHeader` does with a node. -/
def headerSetters (p : Platform) :
    List (JString × (Message → Xml.Node → Except JavaException Message)) :=
  [("msg_from".toList, fun m n => .ok { m with from_ := some n.textContent }),
   ("msg_id".toList, fun m n => do
      let bytes ← Base64.base64ToByteArray n.textContent
      .ok { m with id := some (p.charset.decode bytes) }),
   ("msg_subject".toList, fun m n => do
      let bytes ← Base64.base64ToByteArray n.textContent
      .ok { m with subject := some (p.charset.decode bytes) }),
   ("msg_to".toList, fun m n => .ok (loadTo m n)),
   ("msg_filename".toList, fun m n => .ok { m with filename := some n.textContent }),
   ("msg_mimetype".toList, fun m n => .ok { m with mime := some n.textContent }),
   ("msg_create_date".toList, fun m n => .ok { m with createDate := p.parse n.textContent }),
   ("msg_sent_date".toList, fun m n => .ok { m with sentDate := p.parse n.textContent }),
   ("msg_receive_date".toList, fun m n => .ok { m with receiveDate := p.parse n.textContent }),
   ("msg_del_date".toList, fun m n => .ok { m with delDate := p.parse n.textContent }),
   ("msg_answer_date".toList, fun m n => .ok { m with answerDate := p.parse n.textContent }),
   ("msg_uid".toList, fun m n => .ok { m with uid := (parseInt n.textContent).getD 0 }),
   ("msg_size".toList, fun m n => .ok { m with size := (parseInt n.textContent).getD 0 }),
   ("x509".toList, fun m n => .ok (loadX509 p m n))]

/-- The loop body of `loadHeader`. -/
def loadHeaderChild (p : Platform) (m : Message) (n : Xml.Node) : Except JavaException Message :=
  match lookup (headerSetters p) n with
  | some set => set m n
  | none => .ok m

/-- `loadHeader`. -/
def loadHeader (p : Platform) (m : Message) (node : Xml.Node) : Except JavaException Message :=
  node.children.foldlM (loadHeaderChild p) m

/-- What the loop of `load` does with a node. -/
def messageSetters (p : Platform) :
    List (JString × (Message → Xml.Node → Except JavaException Message)) :=
  [("header".toList, fun m n => loadHeader p m n),
   ("body_t".toList, fun m n => .ok { m with bodyTxt := some n.textContent }),
   ("body_b".toList, fun m n => do
      let bytes ← Base64.base64ToByteArray n.textContent
      .ok (m.setBodyBin (some bytes)))]

/-- The loop body of `load`. -/
def loadChild (p : Platform) (m : Message) (n : Xml.Node) : Except JavaException Message :=
  match lookup (messageSetters p) n with
  | some set => set m n
  | none => .ok m

/-- `load` into a new object, at the time `now`: the message, or `none` if it returns `false`. -/
def loadFile (p : Platform) (now : Date) (file : List UInt8) : Option Message := do
  let root ← Xml.parseDocument xmlDecl (file.map windows1251)
  if root.name ≠ "msgbox".toList then none
  else (root.children.foldlM (loadChild p) (Message.new now)).toOption

end OrgLittle.Lmsg
