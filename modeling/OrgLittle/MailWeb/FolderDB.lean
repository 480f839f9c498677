import OrgLittle.Lib.Sql
import OrgLittle.Lmsg.X509

/-!
# `folderDB`: the archive of certificates, requests and revocation lists

Three tables and a sequence. `save` looks for a row with the same contents as the message and reuses it;
otherwise it inserts a new row and, for a revocation list, stores every listed serial number and marks
the certificates with that number as revoked. Every statement is committed by itself, so `save` takes
the statement at which the database fails, if it does.
-/

namespace OrgLittle.MailWeb

open OrgLittle.Java OrgLittle.Lmsg OrgLittle.Lib.Sql

/-! ## Tables -/

/-- A row of the X509 table. -/
structure X509Row where
  x509Id : ℤ
  type : Option JString
  typeFile : Option JString
  beginDate : Option Date
  endDate : Option Date
  serial : JString
  subject : Option JString
  issuer : Option JString
  bin : JString
  dateRL : Option Date
  dateFR : Option Date
deriving DecidableEq

/-- A row of the table of revoked serial numbers. -/
structure SerialRow where
  x509Id : ℤ
  serial : JString
deriving DecidableEq

/-- A row of the table of letters. -/
structure EmlRow where
  mailUid : ℤ
  mailId : Option JString
  addrFrom : Option JString
  addrTo : JString
  subject : Option JString
  filename : Option JString
  createDate : Option Date
  sentDate : Option Date
  receiveDate : Option Date
  attachSize : ℤ
  x509Txt : Option JString
  x509Id : ℤ
deriving DecidableEq

/-- The tables and the next value of the sequence. -/
structure Database where
  seq : ℤ
  eml : List EmlRow
  x509 : List X509Row
  serialR : List SerialRow
deriving DecidableEq

/-- The tables as `create` makes them. -/
def Database.create : Database := ⟨1000, [], [], []⟩

/-! ## Statements -/

/-- `setX509`: the columns of a new row. -/
def setX509 (msg : Message) : X509Row where
  x509Id := msg.x509Id
  type := msg.x509Type
  typeFile := msg.x509TypeFile
  beginDate := msg.x509BeginDate
  endDate := msg.x509EndDate
  serial := msg.getX509Serials
  subject := msg.x509Subject
  issuer := msg.x509Issuer
  bin := msg.bodyBin64
  dateRL := none
  dateFR := none

@[simp] theorem setX509_type (msg : Message) : (setX509 msg).type = msg.x509Type := rfl
@[simp] theorem setX509_serial (msg : Message) : (setX509 msg).serial = msg.getX509Serials := rfl
@[simp] theorem setX509_dateRL (msg : Message) : (setX509 msg).dateRL = none := rfl
@[simp] theorem setX509_dateFR (msg : Message) : (setX509 msg).dateFR = none := rfl

/-- `setEml`: the columns of a new row, with the identifier that the sequence gives it. -/
def setEml (mailUid : ℤ) (msg : Message) : EmlRow where
  mailUid := mailUid
  mailId := msg.id
  addrFrom := msg.from_
  addrTo := msg.getTOs
  subject := msg.subject
  filename := msg.filename
  createDate := msg.createDate
  sentDate := msg.sentDate
  receiveDate := msg.receiveDate
  attachSize := msg.size
  x509Txt := msg.bodyTxt
  x509Id := msg.x509Id

/-- The condition of `querySelectX509SEARCHID`. -/
def X509Row.isSearched (msg : Message) (row : X509Row) : Bool :=
  sqlEq row.type msg.x509Type && sqlEq row.typeFile msg.x509TypeFile
    && sqlEq row.beginDate msg.x509BeginDate && sqlEq row.endDate msg.x509EndDate
    && decide (row.serial = msg.getX509Serials) && sqlEq row.subject msg.x509Subject
    && sqlEq row.issuer msg.x509Issuer && decide (row.bin = msg.bodyBin64)

/-- The row is a certificate. -/
def X509Row.isCertificate (row : X509Row) : Bool := sqlEq row.type (some X509_CERTIFICATE)

namespace Database

/-- `querySelectX509SEARCHID`: the first row of the result. -/
def selectX509SEARCHID (msg : Message) (db : Database) : Option ℤ :=
  (db.x509.find? (·.isSearched msg)).map (·.x509Id)

/-- `queryInsertX509`. -/
def insertX509 (msg : Message) (db : Database) : Database :=
  { db with x509 := db.x509 ++ [setX509 msg] }

/-- `queryInsertSerialR`. -/
def insertSerialR (x509Id : ℤ) (serial : JString) (db : Database) : Database :=
  { db with serialR := db.serialR ++ [⟨x509Id, serial⟩] }

/-- `queryUpdateRL`: revokes the certificates with this serial number. -/
def updateRL (date : Option Date) (serial : JString) (db : Database) : Database :=
  { db with
    x509 := updateWhere (fun row => decide (row.serial = serial) && row.isCertificate)
      (fun row => { row with dateRL := date }) db.x509 }

/-- `queryInsertEml`. -/
def insertEml (msg : Message) (db : Database) : Database :=
  { db with seq := db.seq + 1, eml := db.eml ++ [setEml db.seq msg] }

end Database

/-! ## `save` -/

/-- The statements of one `save`; the list of serial numbers is walked by its index. -/
inductive Statement
  | searchX509ID
  | getNewX509ID
  | insertX509
  | insertSerialR (i : ℕ)
  | updateRL (i : ℕ)
  | insertEml
deriving DecidableEq

/-- What a `save` leaves behind: the database, the message object, and whether all statements were
executed. -/
structure SaveResult where
  db : Database
  msg : Message
  saved : Bool

/-- The loop of `saveSerialX509`, from the `i`-th serial number on. -/
def saveSerials (fail : Option Statement) (msg : Message) (db : Database) :
    ℕ → List JString → Database × Bool
  | _, [] => (db, true)
  | i, serial :: serials =>
    if fail = some (.insertSerialR i) then (db, false)
    else
      let db := db.insertSerialR msg.x509Id serial
      if fail = some (.updateRL i) then (db, false)
      else saveSerials fail msg (db.updateRL msg.x509BeginDate serial) (i + 1) serials

/-- `saveSerialX509`. -/
def saveSerialX509 (fail : Option Statement) (msg : Message) (db : Database) : Database × Bool :=
  if msg.x509Type ≠ some X509_CRL then (db, true) else saveSerials fail msg db 0 msg.x509Serial

/-- `saveEml`. -/
def saveEml (fail : Option Statement) (msg : Message) (db : Database) : SaveResult :=
  if fail = some .insertEml then ⟨db, msg, false⟩ else ⟨db.insertEml msg, msg, true⟩

/-- `save`: `searchX509ID` returns the identifier that the message object has if no row is found. -/
def save (fail : Option Statement) (db : Database) (msg : Message) : SaveResult :=
  if fail = some .searchX509ID then ⟨db, msg, false⟩
  else
    let msg := msg.setX509ID ((db.selectX509SEARCHID msg).getD msg.x509Id)
    if msg.x509Id < 0 then
      if fail = some .getNewX509ID then ⟨db, msg, false⟩
      else
        let msg := msg.setX509ID db.seq
        let db := { db with seq := db.seq + 1 }
        if fail = some .insertX509 then ⟨db, msg, false⟩
        else
          let r := saveSerialX509 fail msg (db.insertX509 msg)
          if r.2 then saveEml fail msg r.1 else ⟨r.1, msg, false⟩
    else saveEml fail msg db

/-! ## What the statements do -/

/-- None of the columns that the search compares is `NULL`. -/
structure Searchable (msg : Message) : Prop where
  type : msg.x509Type.isSome
  typeFile : msg.x509TypeFile.isSome
  beginDate : msg.x509BeginDate.isSome
  endDate : msg.x509EndDate.isSome
  subject : msg.x509Subject.isSome
  issuer : msg.x509Issuer.isSome

/-- The row holds the contents of the message. -/
structure X509Row.Describes (row : X509Row) (msg : Message) : Prop where
  type : row.type = msg.x509Type
  typeFile : row.typeFile = msg.x509TypeFile
  beginDate : row.beginDate = msg.x509BeginDate
  endDate : row.endDate = msg.x509EndDate
  serial : row.serial = msg.getX509Serials
  subject : row.subject = msg.x509Subject
  issuer : row.issuer = msg.x509Issuer
  bin : row.bin = msg.bodyBin64

/-- A new row describes the message it was made from. -/
theorem setX509_describes (msg : Message) : (setX509 msg).Describes msg :=
  ⟨rfl, rfl, rfl, rfl, rfl, rfl, rfl, rfl⟩

/-- The identifier is no part of what a row says of its message. -/
theorem X509Row.describes_setX509ID {row : X509Row} {msg : Message} {x509Id : ℤ} :
    row.Describes (msg.setX509ID x509Id) ↔ row.Describes msg :=
  ⟨fun h => ⟨h.type, h.typeFile, h.beginDate, h.endDate, h.serial, h.subject, h.issuer, h.bin⟩,
    fun h => ⟨h.type, h.typeFile, h.beginDate, h.endDate, h.serial, h.subject, h.issuer, h.bin⟩⟩

/-- A search finds the rows with the contents of the message, unless a column is `NULL`. -/
theorem X509Row.isSearched_iff {msg : Message} {row : X509Row} :
    row.isSearched msg = true ↔ Searchable msg ∧ row.Describes msg := by
  simp only [isSearched, Bool.and_eq_true, sqlEq_iff, decide_eq_true_eq]
  constructor
  · rintro ⟨⟨⟨⟨⟨⟨⟨⟨h1, e1⟩, h2, e2⟩, h3, e3⟩, h4, e4⟩, e5⟩, h6, e6⟩, h7, e7⟩, e8⟩
    rw [e1] at h1
    rw [e2] at h2
    rw [e3] at h3
    rw [e4] at h4
    rw [e6] at h6
    rw [e7] at h7
    exact ⟨⟨h1, h2, h3, h4, h6, h7⟩, ⟨e1, e2, e3, e4, e5, e6, e7, e8⟩⟩
  · rintro ⟨⟨h1, h2, h3, h4, h6, h7⟩, ⟨e1, e2, e3, e4, e5, e6, e7, e8⟩⟩
    rw [e1, e2, e3, e4, e6, e7]
    exact ⟨⟨⟨⟨⟨⟨⟨⟨h1, rfl⟩, h2, rfl⟩, h3, rfl⟩, h4, rfl⟩, e5⟩, h6, rfl⟩, h7, rfl⟩, e8⟩

namespace Database

/-- Nothing is found if no row is searched for. -/
theorem selectX509SEARCHID_eq_none {msg : Message} {db : Database} :
    db.selectX509SEARCHID msg = none ↔ ∀ row ∈ db.x509, row.isSearched msg = false := by
  rw [selectX509SEARCHID, Option.map_eq_none_iff, List.find?_eq_none]
  simp only [Bool.not_eq_true]

/-- What is found is the identifier of a row that is searched for. -/
theorem exists_of_selectX509SEARCHID {msg : Message} {db : Database} {id : ℤ}
    (h : db.selectX509SEARCHID msg = some id) :
    ∃ row ∈ db.x509, row.isSearched msg = true ∧ row.x509Id = id := by
  rw [selectX509SEARCHID, Option.map_eq_some_iff] at h
  obtain ⟨row, hfind, hid⟩ := h
  exact ⟨row, List.mem_of_find?_eq_some hfind, List.find?_some hfind, hid⟩

/-- The effect of all statements for some serial numbers of a revocation list. -/
def applySerials (x509Id : ℤ) (date : Option Date) (serials : List JString) (db : Database) :
    Database :=
  { db with
    serialR := db.serialR ++ serials.map (SerialRow.mk x509Id)
    x509 := updateWhere (fun row => decide (row.serial ∈ serials) && row.isCertificate)
      (fun row => { row with dateRL := date }) db.x509 }

theorem applySerials_nil (x509Id : ℤ) (date : Option Date) (db : Database) :
    db.applySerials x509Id date [] = db := by
  simp [applySerials, updateWhere]

/-- The serial numbers are put in one after the other. -/
theorem applySerials_cons (x509Id : ℤ) (date : Option Date) (serial : JString)
    (serials : List JString) (db : Database) :
    db.applySerials x509Id date (serial :: serials)
      = ((db.insertSerialR x509Id serial).updateRL date serial).applySerials x509Id date serials := by
  have hrows : ∀ row : X509Row,
      (if (decide (row.serial ∈ serial :: serials) && row.isCertificate) = true then
        { row with dateRL := date } else row)
      = (let row' := if (decide (row.serial = serial) && row.isCertificate) = true then
            { row with dateRL := date } else row
        if (decide (row'.serial ∈ serials) && row'.isCertificate) = true then
          { row' with dateRL := date } else row') := by
    intro row
    by_cases hcert : row.isCertificate = true
    · have hcert' : X509Row.isCertificate { row with dateRL := date } = true := hcert
      by_cases hserial : row.serial = serial <;> by_cases hrest : row.serial ∈ serials
      all_goals simp_all
    · simp [hcert]
  simp only [applySerials, updateRL, insertSerialR, updateWhere, List.map_cons, List.map_map,
    List.append_assoc, List.singleton_append, Database.mk.injEq, true_and, and_true]
  exact List.map_congr_left fun row _ => hrows row

end Database

/-- One turn of the loop of `saveSerialX509`, if it is not stopped. -/
theorem saveSerials_cons {fail : Option Statement} (msg : Message) {i : ℕ}
    (hinsert : fail ≠ some (.insertSerialR i)) (hupdate : fail ≠ some (.updateRL i)) (db : Database)
    (serial : JString) (serials : List JString) :
    saveSerials fail msg db i (serial :: serials)
      = saveSerials fail msg
          ((db.insertSerialR msg.x509Id serial).updateRL msg.x509BeginDate serial) (i + 1) serials := by
  rw [saveSerials, if_neg hinsert]
  exact if_neg hupdate

/-- The first turns of the loop, if it is not stopped in them. -/
theorem saveSerials_take {fail : Option Statement} (msg : Message) {i k : ℕ} {serials : List JString}
    (hk : k ≤ serials.length) (hinsert : ∀ j < k, fail ≠ some (.insertSerialR (i + j)))
    (hupdate : ∀ j < k, fail ≠ some (.updateRL (i + j))) (db : Database) :
    saveSerials fail msg db i serials
      = saveSerials fail msg (db.applySerials msg.x509Id msg.x509BeginDate (serials.take k)) (i + k)
          (serials.drop k) := by
  induction k generalizing i serials db with
  | zero => rw [List.take_zero, List.drop_zero, Database.applySerials_nil, Nat.add_zero]
  | succ k ih =>
    cases serials with
    | nil => exact absurd hk (Nat.not_succ_le_zero k)
    | cons serial serials =>
      have hshift : ∀ j, i + 1 + j = i + (j + 1) := fun j => by omega
      have hinsert' : ∀ j < k, fail ≠ some (.insertSerialR (i + 1 + j)) := by
        intro j hj
        rw [hshift]
        exact hinsert (j + 1) (Nat.succ_lt_succ hj)
      have hupdate' : ∀ j < k, fail ≠ some (.updateRL (i + 1 + j)) := by
        intro j hj
        rw [hshift]
        exact hupdate (j + 1) (Nat.succ_lt_succ hj)
      have hinsert₀ : fail ≠ some (.insertSerialR i) := hinsert 0 (Nat.zero_lt_succ k)
      have hupdate₀ : fail ≠ some (.updateRL i) := hupdate 0 (Nat.zero_lt_succ k)
      rw [saveSerials_cons msg hinsert₀ hupdate₀, ih (Nat.le_of_succ_le_succ hk) hinsert' hupdate',
        List.take_succ_cons, List.drop_succ_cons, Database.applySerials_cons, hshift]

/-- The loop, if it is not stopped. -/
theorem saveSerials_eq {fail : Option Statement} (msg : Message) {i : ℕ} {serials : List JString}
    (hinsert : ∀ j < serials.length, fail ≠ some (.insertSerialR (i + j)))
    (hupdate : ∀ j < serials.length, fail ≠ some (.updateRL (i + j))) (db : Database) :
    saveSerials fail msg db i serials
      = (db.applySerials msg.x509Id msg.x509BeginDate serials, true) := by
  rw [saveSerials_take msg (Nat.le_refl _) hinsert hupdate, List.take_length, List.drop_length, saveSerials]

/-- The loop is stopped when it stores a serial number. -/
theorem saveSerials_insertSerialR (msg : Message) {i k : ℕ} {serials : List JString}
    (hk : k < serials.length) (db : Database) :
    saveSerials (some (.insertSerialR (i + k))) msg db i serials
      = (db.applySerials msg.x509Id msg.x509BeginDate (serials.take k), false) := by
  have hinsert : ∀ j < k, some (Statement.insertSerialR (i + k)) ≠ some (.insertSerialR (i + j)) := by
    intro j hj
    simp only [ne_eq, Option.some.injEq, Statement.insertSerialR.injEq]
    omega
  rw [saveSerials_take msg (Nat.le_of_lt hk) hinsert (by simp), List.drop_eq_getElem_cons hk, saveSerials, if_pos rfl]

/-- The loop is stopped when it revokes the certificates with a serial number. -/
theorem saveSerials_updateRL (msg : Message) {i k : ℕ} {serials : List JString}
    (hk : k < serials.length) (db : Database) :
    saveSerials (some (.updateRL (i + k))) msg db i serials
      = ((db.applySerials msg.x509Id msg.x509BeginDate (serials.take k)).insertSerialR msg.x509Id
          serials[k], false) := by
  have hupdate : ∀ j < k, some (Statement.updateRL (i + k)) ≠ some (.updateRL (i + j)) := by
    intro j hj
    simp only [ne_eq, Option.some.injEq, Statement.updateRL.injEq]
    omega
  rw [saveSerials_take msg (Nat.le_of_lt hk) (by simp) hupdate, List.drop_eq_getElem_cons hk, saveSerials,
    if_neg (by simp)]
  exact if_pos rfl

/-! ## A `save` without an error -/

/-- The tables after the statements of `save` for a new row, up to the letter. -/
def Database.insertContents (msg : Message) (db : Database) : Database :=
  if msg.x509Type = some X509_CRL then
    (db.insertX509 msg).applySerials msg.x509Id msg.x509BeginDate msg.x509Serial
  else db.insertX509 msg

/-- The tables after a message without an identifier is saved as a new row. -/
def Database.archive (msg : Message) (db : Database) : Database :=
  Database.insertEml (msg.setX509ID db.seq)
    (Database.insertContents (msg.setX509ID db.seq) { db with seq := db.seq + 1 })

/-- Without an error the serial numbers are all put in. -/
theorem saveSerialX509_none (msg : Message) (db : Database) :
    saveSerialX509 none msg (db.insertX509 msg) = (db.insertContents msg, true) := by
  rw [saveSerialX509, Database.insertContents]
  by_cases htype : msg.x509Type = some X509_CRL
  · rw [if_neg (not_not_intro htype), if_pos htype, saveSerials_eq _ (by simp) (by simp)]
  · rw [if_pos htype, if_neg htype]

/-- A message without an identifier that is not found becomes a new row. -/
theorem save_none_new {db : Database} {msg : Message} (hid : msg.x509Id < 0)
    (hsearch : db.selectX509SEARCHID msg = none) :
    save none db msg = ⟨db.archive msg, msg.setX509ID db.seq, true⟩ := by
  simp [save, hsearch, hid, saveSerialX509_none, saveEml, Database.archive]

/-- A message that is found is stored as a letter with the identifier of the row. -/
theorem save_none_found {db : Database} {msg : Message} {id : ℤ} (hid : 0 ≤ id)
    (hsearch : db.selectX509SEARCHID msg = some id) :
    save none db msg = ⟨db.insertEml (msg.setX509ID id), msg.setX509ID id, true⟩ := by
  have hneg : ¬ id < 0 := by omega
  simp [save, hsearch, hneg, saveEml]

/-- The mark that saving a message leaves on a row. -/
def revoke (msg : Message) (row : X509Row) : X509Row :=
  if msg.x509Type = some X509_CRL ∧ row.serial ∈ msg.x509Serial ∧ row.isCertificate = true then
    { row with dateRL := msg.x509BeginDate }
  else row

/-- Nothing else in the row changes. -/
theorem revoke_eq (msg : Message) (row : X509Row) :
    ∃ date, revoke msg row = { row with dateRL := date } := by
  unfold revoke
  split_ifs
  · exact ⟨msg.x509BeginDate, rfl⟩
  · exact ⟨row.dateRL, rfl⟩

namespace Database

/-- A new certificate comes behind the others, and revokes some of them. -/
theorem insertContents_x509 (msg : Message) (db : Database) :
    (db.insertContents msg).x509 = db.x509.map (revoke msg) ++ [setX509 msg] := by
  unfold insertContents
  by_cases htype : msg.x509Type = some X509_CRL
  · have hnew : revoke msg (setX509 msg) = setX509 msg := by
      have hcert : (setX509 msg).isCertificate = false := by
        rw [X509Row.isCertificate, setX509_type, htype]
        decide
      simp [revoke, hcert]
    have hrevoke : ∀ row : X509Row, (if (decide (row.serial ∈ msg.x509Serial) && row.isCertificate) = true
        then { row with dateRL := msg.x509BeginDate } else row) = revoke msg row := by
      intro row
      simp [revoke, htype]
    rw [if_pos htype, applySerials, insertX509, updateWhere]
    simp only [hrevoke, List.map_append, List.map_cons, List.map_nil, hnew]
  · have hrevoke : revoke msg = id := by
      funext row
      simp [revoke, htype]
    rw [if_neg htype, hrevoke, List.map_id, insertX509]

/-- A certificate that is archived comes behind the others as well. -/
theorem archive_x509 (msg : Message) (db : Database) :
    (db.archive msg).x509 = db.x509.map (revoke msg) ++ [setX509 (msg.setX509ID db.seq)] :=
  insertContents_x509 (msg.setX509ID db.seq) { db with seq := db.seq + 1 }

/-- No identifier is taken for the contents. -/
theorem insertContents_seq (msg : Message) (db : Database) : (db.insertContents msg).seq = db.seq := by
  unfold insertContents
  split_ifs <;> rfl

/-- Two identifiers are taken for a letter. -/
theorem archive_seq (msg : Message) (db : Database) : (db.archive msg).seq = db.seq + 2 := by
  have hseq : (insertContents (msg.setX509ID db.seq) { db with seq := db.seq + 1 }).seq = db.seq + 1 :=
    insertContents_seq (msg.setX509ID db.seq) { db with seq := db.seq + 1 }
  show (insertContents (msg.setX509ID db.seq) { db with seq := db.seq + 1 }).seq + 1 = db.seq + 2
  rw [hseq]
  omega

end Database

/-! ## Identifiers -/

/-- The identifiers in the tables come from the sequence, and no two rows of the X509 table share one. -/
structure Database.WF (db : Database) : Prop where
  seq : 0 ≤ db.seq
  x509 : ∀ row ∈ db.x509, 0 ≤ row.x509Id ∧ row.x509Id < db.seq
  unique : (db.x509.map (·.x509Id)).Nodup
  serialR : ∀ row ∈ db.serialR, row.x509Id < db.seq

namespace Database.WF

variable {db : Database}

/-- An empty database is in order. -/
theorem create : Database.create.WF := by
  constructor <;> simp [Database.create]

/-- Taking an identifier keeps the database in order. -/
theorem nextValue (h : db.WF) : Database.WF { db with seq := db.seq + 1 } := by
  have hle : ∀ id : ℤ, id < db.seq → id < db.seq + 1 := fun id hid => by omega
  refine ⟨?_, fun row hrow => ⟨(h.x509 row hrow).1, hle _ (h.x509 row hrow).2⟩, h.unique,
    fun row hrow => hle _ (h.serialR row hrow)⟩
  have hseq := h.seq
  show 0 ≤ db.seq + 1
  omega

/-- No two certificates have one identifier. -/
theorem row_unique (h : db.WF) {row row' : X509Row} (hrow : row ∈ db.x509) (hrow' : row' ∈ db.x509)
    (hid : row.x509Id = row'.x509Id) : row = row' :=
  List.inj_on_of_nodup_map h.unique hrow hrow' hid

/-- Putting in a certificate with a new identifier keeps the database in order. -/
theorem insertX509 (h : db.WF) {msg : Message} (hid : 0 ≤ msg.x509Id ∧ msg.x509Id < db.seq)
    (hnew : ∀ row ∈ db.x509, row.x509Id ≠ msg.x509Id) : (db.insertX509 msg).WF := by
  refine ⟨h.seq, fun row hrow => ?_, ?_, h.serialR⟩
  · rcases List.mem_append.mp hrow with hrow | hrow
    · exact h.x509 row hrow
    · rw [List.mem_singleton.mp hrow]
      exact hid
  · show ((db.x509 ++ [setX509 msg]).map (·.x509Id)).Nodup
    rw [List.map_append, List.map_singleton, List.nodup_append]
    refine ⟨h.unique, by simp, fun id hmem id' hid' => ?_⟩
    obtain ⟨row, hrow, rfl⟩ := List.mem_map.mp hmem
    rw [List.mem_singleton.mp hid']
    exact hnew row hrow

/-- Putting in a serial number keeps the database in order. -/
theorem insertSerialR (h : db.WF) {x509Id : ℤ} (hid : x509Id < db.seq) (serial : JString) :
    (db.insertSerialR x509Id serial).WF := by
  refine ⟨h.seq, h.x509, h.unique, fun row hrow => ?_⟩
  rcases List.mem_append.mp hrow with hrow | hrow
  · exact h.serialR row hrow
  · rw [List.mem_singleton.mp hrow]
    exact hid

/-- Revoking certificates keeps the database in order. -/
theorem updateRL (h : db.WF) (date : Option Date) (serial : JString) : (db.updateRL date serial).WF := by
  refine ⟨h.seq, fun row hrow => ?_, ?_, h.serialR⟩
  · obtain ⟨row', hrow', rfl⟩ := mem_updateWhere.mp hrow
    have hid := h.x509 row' hrow'
    split_ifs <;> exact hid
  · have hids : (db.updateRL date serial).x509.map (·.x509Id) = db.x509.map (·.x509Id) :=
      map_updateWhere (·.x509Id) _ (fun row => { row with dateRL := date }) (fun _ => rfl) db.x509
    rw [hids]
    exact h.unique

/-- Putting in a letter keeps the database in order. -/
theorem insertEml (h : db.WF) (msg : Message) : (db.insertEml msg).WF := by
  have hnext := h.nextValue
  exact ⟨hnext.seq, hnext.x509, hnext.unique, hnext.serialR⟩

end Database.WF

/-- The serial numbers of a message are saved in order, whichever statement fails. -/
theorem saveSerials_wf {db : Database} (h : db.WF) (fail : Option Statement) {msg : Message}
    (hid : msg.x509Id < db.seq) (i : ℕ) (serials : List JString) :
    (saveSerials fail msg db i serials).1.WF := by
  induction serials generalizing i db with
  | nil => exact h
  | cons serial serials ih =>
    have hinsert := h.insertSerialR hid serial
    rw [saveSerials]
    dsimp only
    split_ifs
    · exact h
    · exact hinsert
    · exact ih (hinsert.updateRL msg.x509BeginDate serial) hid (i + 1)

/-- The letter is saved in order, whichever statement fails. -/
theorem saveEml_wf {db : Database} (h : db.WF) (fail : Option Statement) (msg : Message) :
    (saveEml fail msg db).db.WF := by
  rw [saveEml]
  split_ifs
  · exact h
  · exact h.insertEml msg

/-- A new row with its serial numbers keeps the identifiers in order. -/
theorem saveSerialX509_wf {db : Database} (h : db.WF) (fail : Option Statement) (msg : Message) :
    (saveSerialX509 fail (msg.setX509ID db.seq)
      (Database.insertX509 (msg.setX509ID db.seq) { db with seq := db.seq + 1 })).1.WF := by
  have hid : 0 ≤ db.seq ∧ db.seq < db.seq + 1 := ⟨h.seq, by omega⟩
  have hinsert :
      (Database.insertX509 (msg.setX509ID db.seq) { db with seq := db.seq + 1 }).WF :=
    h.nextValue.insertX509 hid fun row hrow => Int.ne_of_lt (h.x509 row hrow).2
  rw [saveSerialX509]
  split_ifs
  · exact hinsert
  · exact saveSerials_wf hinsert fail hid.2 0 _

/-- `save` keeps the identifiers in order, also when it is stopped. -/
theorem save_wf {db : Database} (h : db.WF) (fail : Option Statement) (msg : Message) :
    (save fail db msg).db.WF := by
  rw [save]
  dsimp only
  split_ifs
  · exact h
  · exact h
  · exact h.nextValue
  · exact saveEml_wf (saveSerialX509_wf h fail _) fail _
  · exact saveSerialX509_wf h fail _
  · exact saveEml_wf h fail _

end OrgLittle.MailWeb
