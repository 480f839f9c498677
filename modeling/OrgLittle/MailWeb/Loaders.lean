import OrgLittle.Java.Json
import OrgLittle.MailWeb.FolderDB

/-!
# `folderDB`: reading the archive

The queries join the letters with the rows that they refer to, and `getAll` and `getX509` read the columns of a
result by their number. `loadArray` returns the rows that were read before an exception; `loadJSON` and
`loadJSONX509` return an object without a list then. Parameters of a query are set only under conditions, and a
query with a parameter that is not set cannot be executed.
-/

namespace OrgLittle.MailWeb

open OrgLittle.Java OrgLittle.Lmsg OrgLittle.Lib.Sql OrgLittle.Util

/-! ## Columns -/

/-- A value of a column. -/
inductive Value
  | integer (n : ℤ)
  | varchar (s : Option JString)
  | timestamp (t : Option Date)
deriving DecidableEq

/-- The conversions that the driver offers between types. -/
structure Jdbc where
  textOf : Value → Option JString
  timestampOf : JString → Option Date

/-- `fields_select_eml`. -/
def EmlRow.columns (e : EmlRow) : List Value :=
  [.integer e.mailUid, .varchar e.mailId, .varchar e.addrFrom, .varchar (some e.addrTo), .varchar e.subject,
    .varchar e.filename, .timestamp e.createDate, .timestamp e.sentDate, .timestamp e.receiveDate,
    .integer e.attachSize, .varchar e.x509Txt, .integer e.x509Id]

/-- `fields_select_x509`. -/
def X509Row.columns (x : X509Row) : List Value :=
  [.integer x.x509Id, .varchar x.type, .varchar x.typeFile, .timestamp x.beginDate, .timestamp x.endDate,
    .varchar (some x.serial), .varchar x.subject, .varchar x.issuer, .timestamp x.dateRL, .timestamp x.dateFR,
    .varchar (some x.bin)]

/-- A row of a result. -/
abbrev Columns := List Value

namespace Columns

variable (jdbc : Jdbc) (row : Columns)

/-- `getInt(i)`; the columns that are read so are integers in every query. -/
def getInt (i : ℕ) : Option ℤ :=
  match row[i - 1]? with
  | some (.integer n) => some n
  | _ => none

/-- `getString(i)`; `none` is an exception. -/
def getString (i : ℕ) : Option (Option JString) :=
  match row[i - 1]? with
  | some (.varchar s) => some s
  | some v => some (jdbc.textOf v)
  | none => none

/-- `getTimestamp(i)`. A number is no time. -/
def getTimestamp (i : ℕ) : Option (Option Date) :=
  match row[i - 1]? with
  | some (.timestamp t) => some t
  | some (.varchar none) => some none
  | some (.varchar (some s)) => (jdbc.timestampOf s).map some
  | some (.integer _) => none
  | none => none

end Columns

/-! ## `getAll` and `getX509` -/

/-- `setBodyBin64`. -/
def setBodyBin64 (b : Option JString) (m : Message) : Option Message :=
  match b with
  | none => some (m.setBodyBin none)
  | some b =>
    match Base64.base64ToByteArray b with
    | .error _ => none
    | .ok bytes => some { m with bodyBin64 := b, bodyBin := some bytes, size := bytes.length }

/-- A message that was read, with its two dates that are not part of a letter. -/
structure Loaded where
  msg : Message
  x509DateSR : Option Date
  x509DateFR : Option Date
deriving DecidableEq

/-- The columns of an X509 row, behind `s` other columns. -/
def readX509 (jdbc : Jdbc) (row : Columns) (s : ℕ) (m : Message) : Option Loaded := do
  let x509Id ← row.getInt (1 + s)
  let x509Type ← row.getString jdbc (2 + s)
  let x509TypeFile ← row.getString jdbc (3 + s)
  let x509BeginDate ← row.getTimestamp jdbc (4 + s)
  let x509EndDate ← row.getTimestamp jdbc (5 + s)
  let serial ← row.getString jdbc (6 + s)
  let x509Subject ← row.getString jdbc (7 + s)
  let x509Issuer ← row.getString jdbc (8 + s)
  let x509DateSR ← row.getTimestamp jdbc (9 + s)
  let x509DateFR ← row.getTimestamp jdbc (10 + s)
  let bin ← row.getString jdbc (11 + s)
  let m ← setBodyBin64 bin
    { m with x509Id, x509Type, x509TypeFile, x509BeginDate, x509EndDate, x509Subject, x509Issuer
             x509Serial := [serial.getD []] }
  some ⟨m, x509DateSR, x509DateFR⟩

/-- `getX509`, at the time `now`. -/
def getX509 (jdbc : Jdbc) (now : Date) (row : Columns) : Option Loaded := readX509 jdbc row 0 (Message.new now)

/-- `getAll`, at the time `now`. -/
def getAll (jdbc : Jdbc) (now : Date) (row : Columns) : Option Loaded := do
  let uid ← row.getInt 1
  let id ← row.getString jdbc 2
  let from_ ← row.getString jdbc 3
  let to_ ← row.getString jdbc 4
  let subject ← row.getString jdbc 5
  let filename ← row.getString jdbc 6
  let createDate ← row.getTimestamp jdbc 7
  let sentDate ← row.getTimestamp jdbc 8
  let receiveDate ← row.getTimestamp jdbc 9
  let size ← row.getInt 10
  let bodyTxt ← row.getString jdbc 11
  let x509Id ← row.getInt 12
  readX509 jdbc row 12
    { Message.new now with
      uid, id, from_, subject, filename, createDate, sentDate, receiveDate, size, bodyTxt, x509Id
      to_ := [to_.getD []] }

/-! ## What is read -/

/-- The attachment of a row; `none` if its text is no base64. -/
def X509Row.bytes (x : X509Row) : Option (List UInt8) := (Base64.base64ToByteArray x.bin).toOption

/-- What `readX509` makes of a row. -/
def X509Row.loaded (x : X509Row) (m : Message) (bytes : List UInt8) : Loaded where
  msg := { m with
    x509Id := x.x509Id, x509Type := x.type, x509TypeFile := x.typeFile, x509BeginDate := x.beginDate
    x509EndDate := x.endDate, x509Subject := x.subject, x509Issuer := x.issuer, x509Serial := [x.serial]
    bodyBin64 := x.bin, bodyBin := some bytes, size := bytes.length }
  x509DateSR := x.dateRL
  x509DateFR := x.dateFR

/-- The message that `getAll` makes of the columns of a letter. -/
def EmlRow.loaded (now : Date) (e : EmlRow) : Message :=
  { Message.new now with
    uid := e.mailUid, id := e.mailId, from_ := e.addrFrom, to_ := [e.addrTo], subject := e.subject
    filename := e.filename, createDate := e.createDate, sentDate := e.sentDate, receiveDate := e.receiveDate
    size := e.attachSize, bodyTxt := e.x509Txt, x509Id := e.x509Id }

section read

variable (jdbc : Jdbc) (now : Date) (e : EmlRow) (x : X509Row)

theorem setBodyBin64_some (b : JString) (m : Message) :
    setBodyBin64 (some b) m = (Base64.base64ToByteArray b).toOption.map fun bytes =>
      { m with bodyBin64 := b, bodyBin := some bytes, size := bytes.length } := by
  rw [setBodyBin64]
  cases Base64.base64ToByteArray b <;> rfl

theorem getX509_columns :
    getX509 jdbc now x.columns = x.bytes.map (x.loaded (Message.new now)) := by
  have hread : getX509 jdbc now x.columns = (setBodyBin64 (some x.bin) _).bind fun m => some ⟨m, x.dateRL, x.dateFR⟩ :=
    rfl
  rw [hread, setBodyBin64_some, Option.bind_map, Option.map_eq_bind]
  rfl

theorem getAll_columns :
    getAll jdbc now (e.columns ++ x.columns) = x.bytes.map (x.loaded (e.loaded now)) := by
  have hread : getAll jdbc now (e.columns ++ x.columns)
      = (setBodyBin64 (some x.bin) _).bind fun m => some ⟨m, x.dateRL, x.dateFR⟩ := rfl
  rw [hread, setBodyBin64_some, Option.bind_map, Option.map_eq_bind]
  rfl

/-- The columns of a letter are not those of an X509 row: the tenth is a number. -/
theorem getX509_letter : getX509 jdbc now (e.columns ++ x.columns) = none := by
  have hten : Columns.getTimestamp jdbc (e.columns ++ x.columns) (10 + 0) = none := rfl
  rw [getX509, readX509, hten]
  simp

end read

/-! ## Queries -/

/-- The queries of `open`: `querySelect`, `querySelectID`, `querySelectType`, `querySelectX509` and
`querySelectX509Type`. -/
inductive Select
  | select | selectID | selectType | selectX509 | selectX509Type
deriving DecidableEq

/-- A parameter of a query. -/
inductive Param
  | int (n : ℤ)
  | string (s : JString)
deriving DecidableEq

/-- The first parameter, as the loaders set it: the number if it is positive, and the text over it. -/
def setParams (uid : ℤ) (type : Option JString) : Option Param :=
  match type with
  | some t => some (.string t)
  | none => if 0 < uid then some (.int uid) else none

namespace Database

/-- The letters with the rows that they refer to. -/
def joined (db : Database) : List (EmlRow × X509Row) := joinOn EmlRow.x509Id X509Row.x509Id db.eml db.x509

/-- The letters with a property, in the order of their creation. -/
def letters (p : EmlRow × X509Row → Bool) (db : Database) : List Columns :=
  (orderBy (fun r : EmlRow × X509Row => r.1.createDate) (db.joined.filter p)).map fun r =>
    r.1.columns ++ r.2.columns

/-- The X509 rows with a property, in the order of their beginning. -/
def contents (p : X509Row → Bool) (db : Database) : List Columns :=
  (orderBy X509Row.beginDate (db.x509.filter p)).map X509Row.columns

/-- The result of a query; `none` if the parameters that are set are not those of the query. -/
def executeQuery (db : Database) : Select → Option Param → Option (List Columns)
  | .select, none => some (db.letters fun _ => true)
  | .selectID, some (.int uid) => some (db.letters fun r => r.1.mailUid = uid)
  | .selectType, some (.string t) => some (db.letters fun r => sqlEq r.2.type (some t))
  | .selectX509, none => some (db.contents fun _ => true)
  | .selectX509Type, some (.string t) => some (db.contents fun x => sqlEq x.type (some t))
  | _, _ => none

end Database

/-! ## The loaders -/

/-- The loop over the rows of a result, with the counter `s`: what was read, the counter at the end, and whether no
exception was raised. -/
def readRows {α : Type} (get : Columns → Option α) (one : Bool) : List Columns → ℕ → List α × ℕ × Bool
  | [], s => ([], s, true)
  | row :: rows, s =>
    match get row with
    | none => ([], s, false)
    | some a =>
      if one then ([a], s, true)
      else
        let r := readRows get one rows (s + 1)
        (a :: r.1, r.2)

section readRows

variable {α τ : Type} {get : Columns → Option α}

/-- If every row can be read. -/
theorem readRows_of_forall (c : τ → Columns) (f : τ → α) {ts : List τ} (h : ∀ t ∈ ts, get (c t) = some (f t))
    (s : ℕ) : readRows get false (ts.map c) s = (ts.map f, s + ts.length, true) := by
  induction ts generalizing s with
  | nil => rfl
  | cons t ts ih =>
    have hrest := ih (fun t' ht' => h t' (List.mem_cons_of_mem t ht')) (s + 1)
    simp only [List.map_cons, readRows, h t List.mem_cons_self, hrest, List.length_cons]
    simp only [Bool.false_eq_true, if_false]
    rw [Nat.add_assoc, Nat.add_comm 1]

/-- If a row cannot be read, not all rows are returned. -/
theorem readRows_of_none {rows : List Columns} {row : Columns} (hrow : row ∈ rows) (h : get row = none) (s : ℕ) :
    (readRows get false rows s).1.length < rows.length ∧ (readRows get false rows s).2.2 = false := by
  induction rows generalizing s with
  | nil => cases hrow
  | cons r rows ih =>
    cases hr : get r with
    | none => simp [readRows, hr]
    | some a =>
      have hmem : row ∈ rows := by
        rcases List.mem_cons.mp hrow with rfl | hmem
        · rw [h] at hr
          cases hr
        · exact hmem
      have hrest := ih hmem (s + 1)
      simpa [readRows, hr] using hrest

end readRows

/-- `stringDate.date2prn`, with the date format as a parameter. -/
def date2prn (prn : Date → JString) (d : Option Date) : JString := d.elim [] prn

/-- The texts of an array. -/
def textArray (l : List JString) : Json := .arr (l.map .str)

/-- The header of `lMessage2JSON.MSG2OBJ`. -/
def msgHeader (prn : Date → JString) (l : Loaded) : JSONObject :=
  let m := l.msg
  JSONObject.new
    |>.put "uid" (some (.num m.uid))
    |>.put "From" (m.from_.map .str)
    |>.put "To" (some (textArray m.to_))
    |>.put "Id" (m.id.map .str)
    |>.put "Subject" (m.subject.map .str)
    |>.put "Filename" (m.filename.map .str)
    |>.put "CreateDate" (some (.str (date2prn prn m.createDate)))
    |>.put "SentDate" (some (.str (date2prn prn m.sentDate)))
    |>.put "ReceiveDate" (some (.str (date2prn prn m.receiveDate)))
    |>.put "Size" (some (.num m.size))
    |>.put "X509_id" (some (.num m.x509Id))
    |>.put "X509Type" (m.x509Type.map .str)
    |>.put "X509TypeFile" (m.x509TypeFile.map .str)
    |>.put "X509BeginDate" (some (.str (date2prn prn m.x509BeginDate)))
    |>.put "X509EndDate" (some (.str (date2prn prn m.x509EndDate)))
    |>.put "X509Serial" (some (textArray m.x509Serial))
    |>.put "X509Subject" (m.x509Subject.map .str)
    |>.put "X509Issuer" (m.x509Issuer.map .str)
    |>.put "X509DateRL" (some (.str (date2prn prn l.x509DateSR)))
    |>.put "X509DateFR" (some (.str (date2prn prn l.x509DateFR)))

/-- `lMessage2JSON.MSG2OBJ`. -/
def msg2obj (prn : Date → JString) (l : Loaded) : JSONObject :=
  JSONObject.new
    |>.put "type" (some (.str "message".toList))
    |>.put "header" (some (.obj (msgHeader prn l)))
    |>.put "BodyTxt" (l.msg.bodyTxt.map .str)

/-- What the loaders take from their surroundings: the driver, the clock and the date format. -/
structure Loader where
  jdbc : Jdbc
  now : Date
  prn : Date → JString

namespace Loader

variable (env : Loader) (db : Database)

/-- `loadArray(_select, _uid, _type)`. -/
def loadArrayOf (sel : Select) (uid : ℤ) (type : Option JString) : List Loaded :=
  match db.executeQuery sel (setParams uid type) with
  | none => []
  | some rows => (readRows (getAll env.jdbc env.now) (0 < uid) rows 0).1

/-- `loadJSON(_select, _uid, _type)` and `loadJSONX509(_select, _uid, _type)`, which differ in how they read a
row. -/
def loadJSONOf (get : Columns → Option Loaded) (sel : Select) (uid : ℤ) (type : Option JString) : JSONObject :=
  match db.executeQuery sel (setParams uid type) with
  | none => JSONObject.new
  | some rows =>
    match readRows get (0 < uid) rows 0 with
    | (list, s, true) =>
      JSONObject.new
        |>.put "list" (some (.arr (list.map fun l => .obj (msg2obj env.prn l))))
        |>.put "size" (some (.num s))
    | _ => JSONObject.new

/-- `loadArray(_type)`: the type is not passed on. -/
def loadArray (type : Option JString) : List Loaded :=
  match type with
  | none => env.loadArrayOf db .select (-1) none
  | some _ => env.loadArrayOf db .selectType (-1) none

/-- `loadJSON(_type)`. -/
def loadJSON (type : Option JString) : JSONObject :=
  match type with
  | none => env.loadJSONOf db (getAll env.jdbc env.now) .select (-1) none
  | some t => env.loadJSONOf db (getAll env.jdbc env.now) .selectType (-1) (some t)

/-- `loadJSON(_uid)`. -/
def loadJSONUid (uid : ℤ) : JSONObject :=
  if uid < 0 then env.loadJSONOf db (getAll env.jdbc env.now) .select (-1) none
  else env.loadJSONOf db (getAll env.jdbc env.now) .selectID uid none

/-- `loadJSONX509(_type)`. -/
def loadJSONX509 (type : Option JString) : JSONObject :=
  match type with
  | none => env.loadJSONOf db (getX509 env.jdbc env.now) .selectX509 (-1) none
  | some t => env.loadJSONOf db (getX509 env.jdbc env.now) .selectX509Type (-1) (some t)

/-- `loadJSONX509(_uid)`: the queries are those for letters. -/
def loadJSONX509Uid (uid : ℤ) : JSONObject :=
  if uid < 0 then env.loadJSONOf db (getX509 env.jdbc env.now) .select (-1) none
  else env.loadJSONOf db (getX509 env.jdbc env.now) .selectID uid none

end Loader

end OrgLittle.MailWeb
