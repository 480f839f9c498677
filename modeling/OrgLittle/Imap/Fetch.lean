import OrgLittle.Imap.Command
import OrgLittle.Imap.IdRange
import OrgLittle.Lmsg.Message
import OrgLittle.Util.StringParser

/-!
# `FETCH` and `UID FETCH`

The parameters of the command are read one by one: the first ones are the sequence set, all others set fields of one
`FetchRequest`. A section in brackets that the parameter decoder has split at its blanks and parentheses is put
together again. There is one field for the section, so it is the last one that is printed.
-/

namespace OrgLittle.Imap

open OrgLittle.Java OrgLittle.Lmsg OrgLittle.Util

/-! ## What is printed of a message -/

/-- An `lMessage` of a folder, with `body_bin_txt76`. Its numbers are `int`s. -/
structure FetchMessage extends Message where
  bodyBin76 : JString
  num_le : num ≤ intMax
  uid_le : uid ≤ intMax
deriving DecidableEq

/-- The fields of an `lMessage` that an envelope shows. In the array of the recipients there may be `null`. -/
structure Headers where
  sentDate : Option Date
  subject : Option JString
  from_ : Option JString
  to_ : List (Option JString)
  id : Option JString

def FetchMessage.headers (msg : FetchMessage) : Headers :=
  ⟨msg.sentDate, msg.subject, msg.from_, msg.to_.map some, msg.id⟩

instance neZero_months : NeZero 12 := ⟨by decide⟩

/-- The fields of `java.util.Calendar` that are printed. -/
structure Calendar where
  date : ℤ
  month : Fin 12
  year : ℤ
  hourOfDay : ℤ
  minute : ℤ
  second : ℤ
  zoneOffset : ℤ

/-- What the command asks for outside of it: the default domain, the time and the calendar, `MailDateFormat.format`,
`MimeUtility.unfold` and `lMessage2ELM.parse`. -/
structure FetchEnv where
  defaultDomain : JString
  now : Date
  calendar : Date → Calendar
  mailDate : Date → JString
  unfold : JString → JString
  parse : FetchMessage → JString

namespace ImapDate

/-- `monthTable`. -/
def monthTable (month : Fin 12) : JString :=
  ["Jan", "Feb", "Mar", "Apr", "May", "Jun", "Jul", "Aug", "Sep", "Oct", "Nov", "Dec"][month].toList

/-- A number with at least two digits. -/
def twoDigits (t : ℤ) : JString := if t < 10 then '0' :: intToString t else intToString t

/-- `toIMAPDateTime`. -/
def toIMAPDateTime (cal : Calendar) : JString :=
  let t := cal.zoneOffset.tdiv 3600
  intToString cal.date ++ '-' :: monthTable cal.month ++ '-' :: intToString cal.year
    ++ ' ' :: twoDigits cal.hourOfDay ++ ':' :: twoDigits cal.minute ++ ':' :: twoDigits cal.second
    ++ ' ' :: (if 0 < t then '+' else '-') :: intToString t

/-- `toDateEnvelope`. -/
def toDateEnvelope (env : FetchEnv) (date : Option Date) : JString := env.mailDate (date.getD env.now)

end ImapDate

namespace FetchCommand

section printing

variable (env : FetchEnv)

/-- `date2prn`. -/
def date2prn (d : Option Date) : JString := ImapDate.toIMAPDateTime (env.calendar (d.getD env.now))

/-- `escapeHeader`. -/
def escapeHeader (str : JString) : JString :=
  ((env.unfold str).flatMap fun c => if c = '\\' then ['\\', '\\'] else [c]).flatMap
    fun c => if c = '"' then ['\\', '"'] else [c]

/-- `canonicalAddr`. -/
def canonicalAddr (addr : JString) : JString :=
  let addr := if indexOf '@' addr = none then addr ++ '@' :: env.defaultDomain else addr
  if indexOf '@' addr = some (addr.length - 1) then addr ++ env.defaultDomain else addr

/-- A text in quotation marks. -/
def quoted (s : JString) : JString := '"' :: s ++ ['"']

/-- A text that is written out; `null` if there is none. -/
def orNull (s : Option JString) : JString := s.getD "null".toList

/-- `printAddr`. -/
def printAddr : Option JString → JString
  | none => " NIL ".toList
  | some addr =>
    let addr := canonicalAddr env addr
    '(' :: quoted addr ++ " NIL ".toList ++ quoted (addr.takeWhile (· ≠ '@')) ++ ' ' ::
      quoted ((addr.dropWhile (· ≠ '@')).tail) ++ [')']

/-- A subject or an identifier in an envelope. -/
def printHeader : Option JString → JString
  | none => "NIL".toList
  | some str => if str.length = 0 then "NIL".toList else quoted (escapeHeader env str)

/-- `printEnvelope`. The blank between two addresses is missing after the first one. -/
def printEnvelope (msg : Headers) : JString :=
  let from_ := ' ' :: '(' :: printAddr env msg.from_ ++ [')']
  let to_ := msg.to_.zipIdx.flatMap fun addr => (if 1 < addr.2 then [' '] else []) ++ printAddr env addr.1
  '(' :: quoted (ImapDate.toDateEnvelope env msg.sentDate) ++ ' ' :: printHeader env msg.subject
    ++ from_ ++ from_ ++ from_ ++ ' ' :: '(' :: to_ ++ [')']
    ++ " NIL NIL NIL ".toList ++ printHeader env msg.id ++ [')']

/-- `printBodyStructure`. -/
def printBodyStructure (msg : FetchMessage) : JString :=
  let filename := orNull msg.filename
  "((\"TEXT\" \"PLAIN\" (\"CHARSET\" \"us-ascii\") NIL NIL \"7bit\" ".toList
    ++ intToString (msg.bodyTxt.elim 1 fun body_txt => (utf16Length body_txt : ℤ)) ++ " 8)".toList
    ++ "(\"APPLICATION\" \"OCTET-STREAM\" (\"NAME\" \"".toList ++ filename ++ "\") NIL NIL \"base64\" ".toList
    ++ intToString (utf16Length msg.bodyBin76) ++ " NIL (\"attachment\" (\"FILENAME\" \"".toList ++ filename
    ++ "\")))".toList
    ++ " \"MIXED\" (\"BOUNDARY\" \"----=_Part_0_1637070917.1594301407736\") NIL NIL)".toList

/-- The header that is printed for a `HEADER` section. -/
def headerText (msg : FetchMessage) : JString :=
  let tos := ", ".toList.intercalate (msg.to_.map fun to_ => to_ ++ '@' :: env.defaultDomain)
  "Date: ".toList ++ ImapDate.toDateEnvelope env msg.createDate ++ "\r\n".toList
    ++ "From: ".toList ++ orNull msg.from_ ++ '@' :: env.defaultDomain ++ "\r\n".toList
    ++ "To: ".toList ++ tos ++ "\r\n".toList
    ++ "Subject: ".toList ++ orNull msg.subject ++ "\r\n".toList
    ++ "Message-ID: ".toList ++ orNull msg.id ++ "\r\n".toList

end printing

end FetchCommand

/-! ## `FetchRequest` -/

/-- The fields of `FetchRequest` that are set by `FETCH`. -/
structure FetchRequest where
  flags : Bool
  uid : Bool
  internaldate : Bool
  size : Bool
  envelope : Bool
  body : Bool
  body_peek : Bool
  body_section : Option JString
  size_section : Option JString
  bodystructure : Bool
  rfc822 : Bool
  rfc822_text : Bool
  rfc822_header : Bool
deriving DecidableEq

/-- `new FetchRequest()`. -/
def FetchRequest.new : FetchRequest :=
  ⟨false, false, false, false, false, false, false, none, none, false, false, false, false⟩

namespace FetchCommand

/-- The separators of `BODY` items. -/
def separators : JString := "<>[]".toList

/-- The `while` loop for a section that goes on in other parameters: the text, and the parameters behind it. -/
def gather (vol_param : JString) : List ImapCommandParameter → JString × List ImapCommandParameter
  | [] => (vol_param, [])
  | p :: ps =>
    let vol_param := vol_param ++ p.toString
    if ']' ∈ p.toString then (vol_param, ps)
    else gather (if p.toString ≠ ['('] ∧ p.toString ≠ [')'] then vol_param ++ [' '] else vol_param) ps

/-- The whole text of a `BODY` item, and the parameters behind it. -/
def assemble (vol_param : JString) (ps : List ImapCommandParameter) : JString × List ImapCommandParameter :=
  if '[' ∈ vol_param ∧ ']' ∉ vol_param then gather (vol_param ++ [' ']) ps else (vol_param, ps)

/-- What `parseFetch` has read. -/
structure Parsed where
  is_id_range : Bool
  id_range : Option (List IdRange)
  fetch : FetchRequest

/-- `body_section` and `size_section` of a `BODY` item: its second and third word. -/
def setSection (vol_param : JString) (fetch : FetchRequest) : FetchRequest :=
  let words := StringParser.getList vol_param separators
  { fetch with body_section := words[1]?, size_section := words[2]? }

/-- The branches of the loop, but for the one of the sequence set. -/
inductive Branch
  | FAST | FULL | ALL | FLAGS | RFC822_SIZE | ENVELOPE | INTERNALDATE | BODYSTRUCTURE | BODY_PEEK | BODY | UID
  | RFC822_HEADER | RFC822_TEXT | RFC822 | OPEN
deriving DecidableEq

/-- What a parameter has to start with, in the order in which it is tried. -/
def branches : List (JString × Branch) :=
  [("FAST".toList, .FAST), ("FULL".toList, .FULL), ("ALL".toList, .ALL), ("FLAGS".toList, .FLAGS),
    ("RFC822.SIZE".toList, .RFC822_SIZE), ("ENVELOPE".toList, .ENVELOPE), ("INTERNALDATE".toList, .INTERNALDATE),
    ("BODYSTRUCTURE".toList, .BODYSTRUCTURE), ("BODY.PEEK".toList, .BODY_PEEK), ("BODY".toList, .BODY),
    ("UID".toList, .UID), ("RFC822.HEADER".toList, .RFC822_HEADER), ("RFC822.TEXT".toList, .RFC822_TEXT),
    ("RFC822".toList, .RFC822), ("(".toList, .OPEN)]

/-- The branch for a parameter; `none` if it starts with none of them. -/
def branch (vol_param : JString) : Option Branch :=
  (branches.find? fun b => startsWith vol_param b.1).map Prod.snd

/-- What a branch sets. -/
def Branch.set (vol_param : JString) (fetch : FetchRequest) : Branch → FetchRequest
  | FAST => { fetch with flags := true, internaldate := true, size := true }
  | FULL => { fetch with flags := true, internaldate := true, size := true, envelope := true, body := true }
  | ALL => { fetch with flags := true, internaldate := true, size := true, envelope := true }
  | FLAGS => { fetch with flags := true }
  | RFC822_SIZE => { fetch with size := true }
  | ENVELOPE => { fetch with envelope := true }
  | INTERNALDATE => { fetch with internaldate := true }
  | BODYSTRUCTURE => { fetch with bodystructure := true }
  | BODY_PEEK => { setSection vol_param fetch with body_peek := true }
  | BODY => { setSection vol_param fetch with body := true }
  | UID => { fetch with uid := true }
  | RFC822_HEADER => { fetch with rfc822_header := true }
  | RFC822_TEXT => { fetch with rfc822_text := true }
  | RFC822 => { fetch with rfc822 := true }
  | OPEN => fetch

/-- The branches that read a section. -/
def Branch.isBody (b : Branch) : Bool := b = .BODY_PEEK ∨ b = .BODY

/-- One parameter, and the parameters that are left. -/
def parseParameter (p : ImapCommandParameter) (ps : List ImapCommandParameter) (s : Parsed) :
    Parsed × List ImapCommandParameter :=
  let vol_param := toUpperCase p.toString
  match branch vol_param with
  | some b =>
    let (vol_param, ps) := if b.isBody then assemble vol_param ps else (vol_param, ps)
    ({ s with is_id_range := false, fetch := b.set vol_param s.fetch }, ps)
  | none =>
    if s.is_id_range then ({ s with id_range := some (IdRange.addRangeSequence vol_param s.id_range) }, ps)
    else (s, ps)

theorem length_gather_le (vol_param : JString) (ps : List ImapCommandParameter) :
    (gather vol_param ps).2.length ≤ ps.length := by
  induction ps generalizing vol_param with
  | nil => exact Nat.le_refl _
  | cons p ps ih =>
    rw [gather]
    split_ifs
    · exact Nat.le_succ _
    · exact (ih _).trans (Nat.le_succ _)
    · exact (ih _).trans (Nat.le_succ _)

theorem length_assemble_le (vol_param : JString) (ps : List ImapCommandParameter) :
    (assemble vol_param ps).2.length ≤ ps.length := by
  unfold assemble
  split_ifs
  · exact length_gather_le _ _
  · exact Nat.le_refl _

theorem length_parseParameter_le (p : ImapCommandParameter) (ps : List ImapCommandParameter) (s : Parsed) :
    (parseParameter p ps s).2.length ≤ ps.length := by
  unfold parseParameter
  dsimp only
  split
  · split_ifs
    · exact length_assemble_le _ _
    · exact Nat.le_refl _
  · split_ifs <;> exact Nat.le_refl _

/-- The loop of `parseFetch`. -/
def parseParameters : List ImapCommandParameter → Parsed → Parsed
  | [], s => s
  | p :: ps, s =>
    let next := parseParameter p ps s
    parseParameters next.2 next.1
termination_by ps => ps.length
decreasing_by exact Nat.lt_succ_of_le (length_parseParameter_le p ps s)

/-- `parseFetch`: the ranges, `null` if there is none, and the request. -/
def parseFetch (parameters : List ImapCommandParameter) : Option (List IdRange) × FetchRequest :=
  let s := parseParameters parameters ⟨true, none, .new⟩
  (s.id_range, s.fetch)

/-! ## The responses -/

/-- A data item of a response: its name, and what is printed behind it. -/
structure Segment where
  label : JString
  value : JString
deriving DecidableEq

/-- As it is written. -/
def Segment.text (s : Segment) : JString := s.label ++ ' ' :: s.value

/-- A literal of so many characters. -/
def literal (len_txt : ℤ) (text : JString) : JString :=
  '\x7b' :: intToString len_txt ++ "\x7d\r\n".toList ++ text

/-- The `part` of a section. -/
def bodyPart (body_section : Option JString) : ℕ :=
  match body_section with
  | none => 0
  | some body_section =>
    if startsWith body_section "HEADER.FIELDS".toList then 3
    else if startsWith body_section "HEADER".toList then 4
    else if startsWith body_section "TEXT".toList then 1
    else if startsWith body_section "APPLICATION".toList then 2
    else
      match parseInt body_section with
      | some part => if part = 1 then 1 else if part = 2 then 2 else 0
      | none => 0

/-- The name of a section. -/
def sectionLabel (body_section : Option JString) : JString :=
  match bodyPart body_section with
  | 0 => "[]".toList
  | 1 => "[1]<0>".toList
  | 2 => "[2]<0>".toList
  | _ => '[' :: orNull body_section ++ [']']

/-- The text of a section. -/
def sectionText (env : FetchEnv) (msg : FetchMessage) (body_section : Option JString) : JString :=
  match bodyPart body_section with
  | 0 => literal (utf16Length (env.parse msg)) (env.parse msg)
  | 1 => literal (msg.bodyTxt.elim 1 fun body_txt => (utf16Length body_txt : ℤ)) (orNull msg.bodyTxt)
  | 2 => literal (utf16Length msg.bodyBin76) msg.bodyBin76
  | _ => literal (utf16Length (headerText env msg)) (headerText env msg)

/-- The name of the `BODY` item. It is written once for `BODY.PEEK` and once for `BODY`. -/
def bodyLabel (fetch : FetchRequest) : JString :=
  (if fetch.body_peek then "BODY".toList else []) ++ (if fetch.body then "BODY".toList else [])
    ++ sectionLabel fetch.body_section

/-- The data items in the order in which they are printed, and which of them are. -/
def segments (env : FetchEnv) (msg : FetchMessage) (fetch : FetchRequest) : List (Bool × Segment) :=
  [(fetch.uid, ⟨"UID".toList, intToString msg.uid ++ [' ']⟩),
    (fetch.flags, ⟨"FLAGS".toList, "(\\Flagged) ".toList⟩),
    (fetch.size, ⟨"RFC822.SIZE".toList, intToString (utf16Length (env.parse msg)) ++ [' ']⟩),
    (fetch.internaldate, ⟨"INTERNALDATE".toList, quoted (date2prn env msg.createDate) ++ [' ']⟩),
    (fetch.envelope, ⟨"ENVELOPE".toList, printEnvelope env msg.headers ++ [' ']⟩),
    (fetch.bodystructure, ⟨"BODYSTRUCTURE".toList, printBodyStructure msg⟩),
    (fetch.body_peek || fetch.body, ⟨bodyLabel fetch, sectionText env msg fetch.body_section⟩)]

/-- `parseMsg`, by the data items whose texts it appends. -/
def parseMsg (env : FetchEnv) (msg : FetchMessage) (fetch : FetchRequest) : List Segment :=
  ((segments env msg fetch).filter Prod.fst).map Prod.snd

end FetchCommand

/-- A response of a command: the data of a message, or another one. -/
inductive FetchResponse
  | data (number : ℤ) (items : List FetchCommand.Segment)
  | status (response : EmptyResponse)

/-- The response that is written. -/
def FetchResponse.toEmptyResponse : FetchResponse → EmptyResponse
  | data number items =>
    ⟨none, intToString number ++ " FETCH (".toList ++ items.flatMap FetchCommand.Segment.text ++ [')']⟩
  | status response => response

/-- What a command leaves in the session, if it gets so far, and what it answers. -/
structure FetchOutcome where
  msgs : Option (List FetchMessage)
  result : Except JavaException (List FetchResponse)

/-- The number of a message that the sequence set is about. -/
def FetchMessage.number (isUID : Bool) (msg : FetchMessage) : ℤ := if isUID then msg.uid else msg.num

/-- `FetchCommand.doProcess`; without a selected folder the folder is `null`. -/
def FetchCommand.doProcess (env : FetchEnv) (isUID : Bool) (tag : JString) (parameters : List ImapCommandParameter)
    (folder : Option (List FetchMessage)) : FetchOutcome :=
  let (id_range, fetch) := parseFetch parameters
  match folder, id_range with
  | none, _ => ⟨none, .error .nullPointer⟩
  | some (_ :: _), none => ⟨none, .error .nullPointer⟩
  | some all_msg, id_range =>
    let fetch_msg := all_msg.filter fun msg => IdRange.listIncludes (msg.number isUID) (id_range.getD [])
    let responase := fetch_msg.map fun msg => .data (msg.number isUID) (parseMsg env msg fetch)
    ⟨some fetch_msg, .ok (responase
      ++ if isUID then [] else [.status ⟨some tag, "OK FETCH completed".toList⟩])⟩

/-- `UidCommand.doProcess`; `other` stands for the commands that are not `FETCH`. -/
def UidCommand.doProcess (env : FetchEnv) (other : JString → List ImapCommandParameter → FetchOutcome)
    (tag : JString) (parameters : List ImapCommandParameter) (folder : Option (List FetchMessage)) : FetchOutcome :=
  let outcome : FetchOutcome :=
    match parameters with
    | [] => ⟨none, .ok []⟩
    | command_name :: parameters =>
      if equalsIgnoreCase "FETCH".toList command_name.toString then
        FetchCommand.doProcess env true tag parameters folder
      else other command_name.toString parameters
  { outcome with
    result := outcome.result.map fun responase =>
      responase ++ [.status ⟨some tag, "OK UID completed".toList⟩] }

end OrgLittle.Imap
