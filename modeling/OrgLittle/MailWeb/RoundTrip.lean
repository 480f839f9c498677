import OrgLittle.Lib.Machine
import OrgLittle.MailWeb.Loaders

/-!
# The archive, read back

`save` writes the recipients and the serial numbers of a message as one text each, and the loaders read each text
back as a list of one element. Besides, some loaders do not set the parameter of their query, count the entry of a
single letter as none, or read a letter with the columns of another table. `roundTrip_iff` says which queries to
an archive answer what was saved.
-/

namespace OrgLittle.MailWeb

open OrgLittle.Java OrgLittle.Lmsg OrgLittle.Lib OrgLittle.Lib.Sql OrgLittle.Util

/-! ## What the archive holds -/

/-- The archive as a machine that saves messages without a database error. -/
def filing : Machine Database Message Unit := ⟨fun db m => ((save none db m).db, [])⟩

/-- A message has no identifier yet, or a row with its contents is found, or its identifier is that of such a
row. -/
def Filed (db : Database) (m : Message) : Prop :=
  m.x509Id < 0 ∨ (db.selectX509SEARCHID m).isSome ∨ ∃ x ∈ db.x509, x.x509Id = m.x509Id ∧ x.Describes m

/-- A letter of the archive, the row that it refers to, and the message that was saved. -/
structure Filing where
  eml : EmlRow
  x509 : X509Row
  msg : Message

/-- The letter and the row hold the message. -/
structure Filing.Valid (db : Database) (t : Filing) : Prop where
  eml : t.eml = setEml t.eml.mailUid (t.msg.setX509ID t.eml.x509Id)
  mem : t.x509 ∈ db.x509
  key : t.x509.x509Id = t.eml.x509Id
  describes : t.x509.Describes t.msg

/-- A letter stays filed when rows are added. -/
theorem Filing.Valid.mono {db db' : Database} {t : Filing} (h : t.Valid db)
    (hsub : ∀ x ∈ db.x509, x ∈ db'.x509) : t.Valid db' :=
  ⟨h.eml, hsub _ h.mem, h.key, h.describes⟩

/-- The letters of the archive are those of the messages, in the order in which they were saved. -/
structure HoldsLetters (db : Database) (msgs : List Message) : Prop where
  wf : db.WF
  nodup : (db.eml.map (·.mailUid)).Nodup
  lt : ∀ e ∈ db.eml, e.mailUid < db.seq
  letters : ∃ ts : List Filing, db.eml = ts.map (·.eml) ∧ msgs = ts.map (·.msg) ∧ ∀ t ∈ ts, t.Valid db

/-- The archive holds the letters, and no other rows than theirs. -/
structure Stored (db : Database) (msgs : List Message) : Prop extends HoldsLetters db msgs where
  rows : ∀ x ∈ db.x509, ∃ m ∈ msgs, x.Describes m

/-- Nothing is stored in a new database. -/
theorem stored_create : Stored Database.create [] := by
  refine ⟨⟨.create, List.nodup_nil, fun e he => ?_, ⟨[], rfl, rfl, fun t ht => ?_⟩⟩, fun x hx => ?_⟩
  · cases he
  · cases ht
  · cases hx

/-- The date of revocation is no part of what a row says of its message. -/
theorem X509Row.Describes.withDate {x : X509Row} {m : Message} (h : x.Describes m) (date : Option Date) :
    X509Row.Describes { x with dateRL := date } m :=
  ⟨h.type, h.typeFile, h.beginDate, h.endDate, h.serial, h.subject, h.issuer, h.bin⟩

/-- A revocation changes the date only. -/
theorem revoke_describes (m : Message) {x : X509Row} {m' : Message} (h : x.Describes m') :
    (revoke m x).Describes m' := by
  obtain ⟨date, hdate⟩ := revoke_eq m x
  rw [hdate]
  exact h.withDate date

theorem revoke_x509Id (m : Message) (x : X509Row) : (revoke m x).x509Id = x.x509Id := by
  obtain ⟨date, hdate⟩ := revoke_eq m x
  rw [hdate]

section step

variable {db : Database} {msgs : List Message} {m : Message}

/-- A letter that refers to a row with its contents. -/
theorem HoldsLetters.insertEml (h : HoldsLetters db msgs) {x : X509Row} (hx : x ∈ db.x509) (hm : x.Describes m) :
    HoldsLetters (db.insertEml (m.setX509ID x.x509Id)) (msgs ++ [m]) := by
  obtain ⟨ts, heml, hmsgs, hvalid⟩ := h.letters
  refine ⟨h.wf.insertEml _, ?_, fun e he => ?_, ⟨ts ++ [⟨setEml db.seq (m.setX509ID x.x509Id), x, m⟩], ?_, ?_, ?_⟩⟩
  · show ((db.eml ++ [setEml db.seq (m.setX509ID x.x509Id)]).map (·.mailUid)).Nodup
    rw [List.map_append, List.map_singleton, List.nodup_append]
    refine ⟨h.nodup, List.nodup_singleton _, fun uid huid uid' huid' => ?_⟩
    obtain ⟨e, he, rfl⟩ := List.mem_map.mp huid
    rw [List.mem_singleton.mp huid']
    exact Int.ne_of_lt (h.lt e he)
  · show e.mailUid < db.seq + 1
    rcases List.mem_append.mp he with he | he
    · have hlt := h.lt e he
      omega
    · rw [List.mem_singleton.mp he]
      show db.seq < db.seq + 1
      omega
  · rw [List.map_append, ← heml]
    rfl
  · rw [List.map_append, ← hmsgs]
    rfl
  · intro t ht
    rcases List.mem_append.mp ht with ht | ht
    · exact (hvalid t ht).mono fun _ hx => hx
    · rw [List.mem_singleton.mp ht]
      exact ⟨rfl, hx, rfl, hm⟩

/-- A new row, and the marks that it leaves on the others, change nothing about the letters. -/
theorem HoldsLetters.insertContents (h : HoldsLetters db msgs) (hwf : (db.insertContents m).WF) :
    HoldsLetters (db.insertContents m) msgs := by
  obtain ⟨ts, heml, hmsgs, hvalid⟩ := h.letters
  have hsame : (db.insertContents m).eml = db.eml := by
    rw [Database.insertContents]
    split_ifs <;> rfl
  refine ⟨hwf, hsame ▸ h.nodup, ?_, ⟨ts.map fun t => { t with x509 := revoke m t.x509 }, ?_, ?_, fun t' ht' => ?_⟩⟩
  · rw [hsame, Database.insertContents_seq]
    exact h.lt
  · rw [hsame, heml, List.map_map]
    rfl
  · rw [hmsgs, List.map_map]
    rfl
  · obtain ⟨t, ht, rfl⟩ := List.mem_map.mp ht'
    refine ⟨(hvalid t ht).eml, ?_, ?_, revoke_describes m (hvalid t ht).describes⟩
    · rw [Database.insertContents_x509]
      exact List.mem_append_left _ (List.mem_map_of_mem (hvalid t ht).mem)
    · exact (revoke_x509Id m t.x509).trans (hvalid t ht).key

/-- The next value of the sequence. -/
theorem HoldsLetters.nextValue (h : HoldsLetters db msgs) : HoldsLetters { db with seq := db.seq + 1 } msgs := by
  obtain ⟨ts, heml, hmsgs, hvalid⟩ := h.letters
  refine ⟨h.wf.nextValue, h.nodup, fun e he => ?_, ⟨ts, heml, hmsgs, fun t ht => ?_⟩⟩
  · have hlt := h.lt e he
    show e.mailUid < db.seq + 1
    omega
  · exact (hvalid t ht).mono fun _ hx => hx

theorem Stored.insertEml (h : Stored db msgs) {x : X509Row} (hx : x ∈ db.x509) (hm : x.Describes m) :
    Stored (db.insertEml (m.setX509ID x.x509Id)) (msgs ++ [m]) := by
  refine ⟨h.toHoldsLetters.insertEml hx hm, fun y hy => ?_⟩
  obtain ⟨m', hm', hdesc⟩ := h.rows y hy
  exact ⟨m', List.mem_append_left _ hm', hdesc⟩

/-- What is archived is stored behind what was stored before. -/
theorem Stored.archive (h : Stored db msgs) : Stored (db.archive m) (msgs ++ [m]) := by
  have hwf := saveSerialX509_wf h.wf none m
  rw [saveSerialX509_none] at hwf
  have hcontents := h.toHoldsLetters.nextValue.insertContents hwf
  have hnew : setX509 (m.setX509ID db.seq)
      ∈ (Database.insertContents (m.setX509ID db.seq) { db with seq := db.seq + 1 }).x509 := by
    rw [Database.insertContents_x509]
    exact List.mem_append_right _ List.mem_cons_self
  have hdesc : (setX509 (m.setX509ID db.seq)).Describes m :=
    X509Row.describes_setX509ID.mp (setX509_describes (m.setX509ID db.seq))
  refine ⟨hcontents.insertEml hnew hdesc, fun x hx => ?_⟩
  rw [Database.archive_x509] at hx
  rcases List.mem_append.mp hx with hx | hx
  · obtain ⟨y, hy, rfl⟩ := List.mem_map.mp hx
    obtain ⟨m', hm', hdesc'⟩ := h.rows y hy
    exact ⟨m', List.mem_append_left _ hm', revoke_describes m hdesc'⟩
  · rw [List.mem_singleton.mp hx]
    exact ⟨m, List.mem_append_right _ List.mem_cons_self, hdesc⟩

/-- What is saved is stored as well, whether it is filed or archived. -/
theorem Stored.save (h : Stored db msgs) (hm : Filed db m) : Stored (MailWeb.save none db m).db (msgs ++ [m]) := by
  cases hsearch : db.selectX509SEARCHID m with
  | some id =>
    obtain ⟨x, hx, hfound, rfl⟩ := Database.exists_of_selectX509SEARCHID hsearch
    rw [save_none_found (h.wf.x509 x hx).1 hsearch]
    exact h.insertEml hx (X509Row.isSearched_iff.mp hfound).2
  | none =>
    by_cases hid : m.x509Id < 0
    · rw [save_none_new hid hsearch]
      exact h.archive
    · rcases hm with hneg | hsome | ⟨x, hx, hkey, hdesc⟩
      · exact absurd hneg hid
      · rw [hsearch] at hsome
        cases hsome
      · have hsave : (MailWeb.save none db m).db = db.insertEml (m.setX509ID x.x509Id) := by
          simp [MailWeb.save, hsearch, hid, saveEml, hkey]
        rw [hsave]
        exact h.insertEml hx hdesc

end step

/-- After a run of saves, the archive holds the messages. -/
theorem Stored.run {db : Database} {done msgs : List Message} (h : Stored db done)
    (hfiled : filing.Along Filed db msgs) : Stored (filing.run db msgs) (done ++ msgs) := by
  induction msgs generalizing db done with
  | nil =>
    rw [List.append_nil]
    exact h
  | cons m msgs ih =>
    have hnext := ih (h.save hfiled.1) hfiled.2
    rwa [List.append_assoc] at hnext

/-! ## What a query should answer -/

/-- The bytes of the attachment; no attachment is an empty one. -/
def attachment (m : Message) : List UInt8 := m.bodyBin.getD []

/-- A message that was loaded equals one that was saved. -/
structure SameMessage (l m : Message) : Prop where
  id : l.id = m.id
  from_ : l.from_ = m.from_
  to_ : l.to_ = m.to_
  subject : l.subject = m.subject
  filename : l.filename = m.filename
  createDate : l.createDate = m.createDate
  sentDate : l.sentDate = m.sentDate
  receiveDate : l.receiveDate = m.receiveDate
  bodyTxt : l.bodyTxt = m.bodyTxt
  x509Type : l.x509Type = m.x509Type
  x509TypeFile : l.x509TypeFile = m.x509TypeFile
  x509BeginDate : l.x509BeginDate = m.x509BeginDate
  x509EndDate : l.x509EndDate = m.x509EndDate
  x509Serial : l.x509Serial = m.x509Serial
  x509Subject : l.x509Subject = m.x509Subject
  x509Issuer : l.x509Issuer = m.x509Issuer
  attachment : attachment l = attachment m

/-- The keys of a header that come from the letter. -/
def letterKeys : List String := ["From", "To", "Id", "Subject", "Filename", "CreateDate", "SentDate", "ReceiveDate"]

/-- The keys of a header that come from the X.509 file. -/
def x509Keys : List String :=
  ["X509Type", "X509TypeFile", "X509BeginDate", "X509EndDate", "X509Serial", "X509Subject", "X509Issuer"]

/-- An entry shows, under these keys, what `MSG2OBJ` writes for the message. -/
def ShowsKeys (prn : Date → JString) (keys : List String) (o : JSONObject) (m : Message) : Prop :=
  ∃ header, o.getJSONObject "header" = some header
    ∧ ∀ key ∈ keys, header.get key = (msgHeader prn ⟨m, none, none⟩).get key

/-- An entry shows a letter. -/
structure Shows (prn : Date → JString) (o : JSONObject) (uid : ℤ) (m : Message) : Prop where
  uid : (o.getJSONObject "header").bind (·.get "uid") = some (.num uid)
  bodyTxt : o.get "BodyTxt" = m.bodyTxt.map .str
  keys : ShowsKeys prn (letterKeys ++ x509Keys) o m

/-- Letters in the order of their creation. -/
structure InOrder (entries order : List (ℤ × Message)) : Prop where
  perm : order.Perm entries
  sorted : order.Pairwise fun a b => nullsLast a.2.createDate b.2.createDate

/-- The messages of an array are these letters. -/
def AnswersArray (entries : List (ℤ × Message)) (list : List Loaded) : Prop :=
  ∃ order, InOrder entries order ∧ List.Forall₂ (fun l e => l.msg.uid = e.1 ∧ SameMessage l.msg e.2) list order

/-- An object has a list of entries and its size. -/
def HasList (root : JSONObject) (list : List JSONObject) : Prop :=
  root.getJSONArray "list" = some (list.map .obj) ∧ root.get "size" = some (.num list.length)

/-- The entries of an object are these letters. -/
def AnswersJSON (prn : Date → JString) (entries : List (ℤ × Message)) (root : JSONObject) : Prop :=
  ∃ list, HasList root list ∧ ∃ order, InOrder entries order
    ∧ List.Forall₂ (fun o e => Shows prn o e.1 e.2) list order

/-- The entries of an object are the X.509 files of these letters. -/
def AnswersX509 (prn : Date → JString) (entries : List (ℤ × Message)) (root : JSONObject) : Prop :=
  ∃ list, HasList root list ∧ (∀ o ∈ list, ∃ e ∈ entries, ShowsKeys prn x509Keys o e.2)
    ∧ ∀ e ∈ entries, ∃ o ∈ list, ShowsKeys prn x509Keys o e.2

/-- The public loaders of the archive: by type, all without one, and by the number of a letter. -/
inductive Query
  | array (type : Option JString)
  | json (type : Option JString)
  | jsonUid (uid : ℤ)
  | x509 (type : Option JString)
  | x509Uid (uid : ℤ)

/-- The message has the type, if one is asked for. -/
def hasType (type : Option JString) (m : Message) : Bool := type.all fun t => sqlEq m.x509Type (some t)

/-- The letters that a query asks for. -/
def Query.asks (uid : ℤ) (m : Message) : Query → Bool
  | array type => hasType type m
  | json type => hasType type m
  | jsonUid n => decide (n < 0) || decide (uid = n)
  | x509 type => hasType type m
  | x509Uid n => decide (n < 0) || decide (uid = n)

/-- The messages that were saved, with the numbers of their letters. -/
def saved (db : Database) (msgs : List Message) : List (ℤ × Message) := (db.eml.map (·.mailUid)).zip msgs

/-- The answer to a query is what was saved. -/
def Correct (env : Loader) (db : Database) (msgs : List Message) (q : Query) : Prop :=
  let entries := (saved db msgs).filter fun e => q.asks e.1 e.2
  match q with
  | .array type => AnswersArray entries (env.loadArray db type)
  | .json type => AnswersJSON env.prn entries (env.loadJSON db type)
  | .jsonUid uid => AnswersJSON env.prn entries (env.loadJSONUid db uid)
  | .x509 type => AnswersX509 env.prn entries (env.loadJSONX509 db type)
  | .x509Uid uid => AnswersX509 env.prn entries (env.loadJSONX509Uid db uid)

/-! ## When it does -/

/-- The text of the attachment can be read. -/
def Readable (m : Message) : Prop := (Base64.base64ToByteArray m.bodyBin64).toOption.isSome

/-- The message has one recipient and one serial number. -/
def ListsOfOne (m : Message) : Prop := m.to_.length = 1 ∧ m.x509Serial.length = 1

/-- The condition on the messages and the query. -/
def Answered (db : Database) (msgs : List Message) : Query → Prop
  | .array none => ∀ m ∈ msgs, ListsOfOne m ∧ (Base64.base64ToByteArray m.bodyBin64).toOption = some (attachment m)
  | .array (some t) => ∀ m ∈ msgs, m.x509Type ≠ some t
  | .json type => ∀ m ∈ msgs, hasType type m = true → ListsOfOne m ∧ Readable m
  | .jsonUid uid =>
    if uid < 0 then ∀ m ∈ msgs, ListsOfOne m ∧ Readable m
    else uid ≠ 0 ∧ ∀ e ∈ db.eml, e.mailUid ≠ uid
  | .x509 type => ∀ m ∈ msgs, hasType type m = true → m.x509Serial.length = 1 ∧ Readable m
  | .x509Uid uid => if uid < 0 then msgs = [] else uid ≠ 0 ∧ ∀ e ∈ db.eml, e.mailUid ≠ uid

/-! ## What is read of a message -/

/-- A list that was written as one text is read back if it has one element. -/
theorem intercalate_eq_iff (sep : JString) (l : List JString) : [sep.intercalate l] = l ↔ l.length = 1 := by
  constructor
  · intro h
    rw [← h]
    rfl
  · intro h
    obtain ⟨a, rfl⟩ := List.length_eq_one_iff.mp h
    simp [List.intercalate]

/-- Different lists are different JSON arrays. -/
theorem textArray_inj {l l' : List JString} : textArray l = textArray l' ↔ l = l' := by
  constructor
  · intro h
    exact List.map_injective_iff.mpr (fun _ _ h => Json.str.inj h) (Json.arr.inj h)
  · rintro rfl
    rfl

/-- An X509 row, read, equals the message that it describes but for the list of serial numbers. -/
structure SameX509 (l m : Message) : Prop where
  x509Type : l.x509Type = m.x509Type
  x509TypeFile : l.x509TypeFile = m.x509TypeFile
  x509BeginDate : l.x509BeginDate = m.x509BeginDate
  x509EndDate : l.x509EndDate = m.x509EndDate
  x509Serial : l.x509Serial = [m.getX509Serials]
  x509Subject : l.x509Subject = m.x509Subject
  x509Issuer : l.x509Issuer = m.x509Issuer

/-- A letter, read, equals the message but for the two lists. -/
structure SameLetter (l m : Message) : Prop where
  id : l.id = m.id
  from_ : l.from_ = m.from_
  to_ : l.to_ = [m.getTOs]
  subject : l.subject = m.subject
  filename : l.filename = m.filename
  createDate : l.createDate = m.createDate
  sentDate : l.sentDate = m.sentDate
  receiveDate : l.receiveDate = m.receiveDate
  bodyTxt : l.bodyTxt = m.bodyTxt

/-- What is loaded from a row is what the row describes. -/
theorem sameX509_loaded {x : X509Row} {m : Message} (h : x.Describes m) (l : Message) (bytes : List UInt8) :
    SameX509 (x.loaded l bytes).msg m :=
  ⟨h.type, h.typeFile, h.beginDate, h.endDate, congrArg (fun s => [s]) h.serial, h.subject, h.issuer⟩

/-- What is loaded of a letter is the letter that was filed. -/
theorem sameLetter_loaded {db : Database} {t : Filing} (h : t.Valid db) (now : Date) (bytes : List UInt8) :
    SameLetter (t.x509.loaded (t.eml.loaded now) bytes).msg t.msg := by
  have hfield : ∀ {β : Type} (f : EmlRow → β), f t.eml = f (setEml t.eml.mailUid (t.msg.setX509ID t.eml.x509Id)) :=
    fun f => congrArg f h.eml
  exact ⟨hfield (·.mailId), hfield (·.addrFrom), congrArg (fun s => [s]) (hfield (·.addrTo)), hfield (·.subject),
    hfield (·.filename), hfield (·.createDate), hfield (·.sentDate), hfield (·.receiveDate), hfield (·.x509Txt)⟩

/-- A message is read back as it was saved if its lists have one element and its attachment is the one that was
written. -/
theorem sameMessage_iff {l m : Message} (hletter : SameLetter l m) (hx509 : SameX509 l m) :
    SameMessage l m ↔ ListsOfOne m ∧ attachment l = attachment m := by
  constructor
  · intro h
    refine ⟨⟨?_, ?_⟩, h.attachment⟩
    · exact (intercalate_eq_iff _ _).mp (hletter.to_.symm.trans h.to_)
    · exact (intercalate_eq_iff _ _).mp (hx509.x509Serial.symm.trans h.x509Serial)
  · rintro ⟨⟨hto, hserial⟩, hbin⟩
    exact ⟨hletter.id, hletter.from_, hletter.to_.trans ((intercalate_eq_iff _ _).mpr hto), hletter.subject,
      hletter.filename, hletter.createDate, hletter.sentDate, hletter.receiveDate, hletter.bodyTxt, hx509.x509Type,
      hx509.x509TypeFile, hx509.x509BeginDate, hx509.x509EndDate,
      hx509.x509Serial.trans ((intercalate_eq_iff _ _).mpr hserial), hx509.x509Subject, hx509.x509Issuer, hbin⟩

section shows

variable {prn : Date → JString} {l : Loaded} {m : Message}

/-- The object of a message has its header under `header`. -/
theorem header_msg2obj : (msg2obj prn l).getJSONObject "header" = some (msgHeader prn l) := by
  simp [msg2obj, JSONObject.getJSONObject, Json.asObject]

/-- The object shows the keys that the object of the message itself would show. -/
theorem showsKeys_iff {keys : List String} : ShowsKeys prn keys (msg2obj prn l) m
    ↔ ∀ key ∈ keys, (msgHeader prn l).get key = (msgHeader prn ⟨m, none, none⟩).get key := by
  rw [ShowsKeys, header_msg2obj]
  constructor
  · rintro ⟨header, heq, h⟩
    obtain rfl := Option.some.inj heq
    exact h
  · exact fun h => ⟨_, rfl, h⟩

/-- The keys of the certificate are shown if and only if it has one serial number. -/
theorem showsKeys_x509_iff (h : SameX509 l.msg m) :
    ShowsKeys prn x509Keys (msg2obj prn l) m ↔ m.x509Serial.length = 1 := by
  rw [showsKeys_iff, ← intercalate_eq_iff [',', ' '], ← textArray_inj]
  simp [x509Keys, msgHeader, h.x509Type, h.x509TypeFile, h.x509BeginDate, h.x509EndDate, h.x509Serial, h.x509Subject,
    h.x509Issuer, Message.getX509Serials]

/-- The keys of the letter are shown if and only if it has one recipient. -/
theorem showsKeys_letter_iff (h : SameLetter l.msg m) :
    ShowsKeys prn letterKeys (msg2obj prn l) m ↔ m.to_.length = 1 := by
  rw [showsKeys_iff, ← intercalate_eq_iff [','], ← textArray_inj]
  simp [letterKeys, msgHeader, h.id, h.from_, h.to_, h.subject, h.filename, h.createDate, h.sentDate, h.receiveDate,
    Message.getTOs]

/-- Everything is shown if and only if no list of the message is joined. -/
theorem shows_iff (hletter : SameLetter l.msg m) (hx509 : SameX509 l.msg m) :
    Shows prn (msg2obj prn l) l.msg.uid m ↔ ListsOfOne m := by
  have huid : ((msg2obj prn l).getJSONObject "header").bind (·.get "uid") = some (.num l.msg.uid) := by
    rw [header_msg2obj]
    simp [msgHeader]
  have hbody : (msg2obj prn l).get "BodyTxt" = m.bodyTxt.map .str := by
    simp [msg2obj, hletter.bodyTxt]
  have hkeys : ShowsKeys prn (letterKeys ++ x509Keys) (msg2obj prn l) m ↔ ListsOfOne m := by
    rw [ListsOfOne, ← showsKeys_letter_iff hletter, ← showsKeys_x509_iff hx509, showsKeys_iff, showsKeys_iff,
      showsKeys_iff, List.forall_mem_append]
  exact ⟨fun h => hkeys.mp h.keys, fun h => ⟨huid, hbody, hkeys.mpr h⟩⟩

end shows

/-! ## The letters of a query -/

namespace Filing

/-- The number of a letter and its message. -/
def entry (t : Filing) : ℤ × Message := (t.eml.mailUid, t.msg)

/-- The columns of a letter. -/
def columns (t : Filing) : Columns := t.eml.columns ++ t.x509.columns

/-- What is read of a letter, if its attachment can be read. -/
def loaded (now : Date) (t : Filing) : Loaded := t.x509.loaded (t.eml.loaded now) (t.x509.bytes.getD [])

/-- Letters in the order of their creation. -/
def ordered (ts : List Filing) : List Filing := orderBy (fun t => t.eml.createDate) ts

end Filing

theorem exists_of_forall₂ {α β : Type} {R : α → β → Prop} {l : List α} {l' : List β} (h : List.Forall₂ R l l')
    {b : β} (hb : b ∈ l') : ∃ a ∈ l, R a b := by
  induction h with
  | nil => cases hb
  | @cons a b' l l' hab _ ih =>
    rcases List.mem_cons.mp hb with rfl | hb
    · exact ⟨a, List.mem_cons_self, hab⟩
    · obtain ⟨a', ha', hR⟩ := ih hb
      exact ⟨a', List.mem_cons_of_mem a ha', hR⟩

section answers

variable {db : Database} {ts : List Filing}

/-- The letters are in the order of their identifiers. -/
theorem inOrder_ordered (hvalid : ∀ t ∈ ts, t.Valid db) :
    InOrder (ts.map Filing.entry) ((Filing.ordered ts).map Filing.entry) := by
  refine ⟨(orderBy_perm _ ts).map _, List.pairwise_map.mpr ?_⟩
  refine (orderBy_pairwise (fun t : Filing => t.eml.createDate) ts).imp_of_mem fun {a b} ha hb hab => ?_
  have hdate : ∀ t ∈ Filing.ordered ts, t.msg.createDate = t.eml.createDate := by
    intro t ht
    have hmem : t ∈ ts := (orderBy_perm _ ts).mem_iff.mp ht
    rw [(hvalid t hmem).eml]
    rfl
  show nullsLast a.msg.createDate b.msg.createDate
  rwa [hdate a ha, hdate b hb]

/-- The answers in a list, one for each letter and labelled with its number, are right exactly if each of them is. -/
theorem answers_iff {α : Type} {R : α → ℤ × Message → Prop} {f : Filing → α} {C : Filing → Prop}
    (hvalid : ∀ t ∈ ts, t.Valid db) (hnodup : (ts.map fun t => t.eml.mailUid).Nodup)
    (huid : ∀ t ∈ ts, ∀ t' ∈ ts, R (f t') t.entry → t'.eml.mailUid = t.eml.mailUid)
    (hR : ∀ t ∈ ts, R (f t) t.entry ↔ C t) :
    (∃ order, InOrder (ts.map Filing.entry) order ∧ List.Forall₂ R ((Filing.ordered ts).map f) order)
      ↔ ∀ t ∈ ts, C t := by
  have hmem : ∀ t, t ∈ Filing.ordered ts ↔ t ∈ ts := fun t => (orderBy_perm _ ts).mem_iff
  constructor
  · rintro ⟨order, horder, hall⟩ t ht
    have hentry : t.entry ∈ order := horder.perm.mem_iff.mpr (List.mem_map_of_mem ht)
    obtain ⟨a, ha, hRa⟩ := exists_of_forall₂ hall hentry
    obtain ⟨t', ht', rfl⟩ := List.mem_map.mp ha
    have ht'' := (hmem t').mp ht'
    obtain rfl : t' = t := List.inj_on_of_nodup_map hnodup ht'' ht (huid t ht t' ht'' hRa)
    exact (hR t' ht).mp hRa
  · intro h
    refine ⟨_, inOrder_ordered hvalid, ?_⟩
    rw [List.forall₂_map_left_iff, List.forall₂_map_right_iff, List.forall₂_same]
    exact fun t ht => (hR t ((hmem t).mp ht)).mpr (h t ((hmem t).mp ht))

/-- The rows of a query for letters. -/
theorem letters_eq (hwf : db.WF) (heml : db.eml = ts.map (·.eml)) (hvalid : ∀ t ∈ ts, t.Valid db)
    (p : EmlRow × X509Row → Bool) :
    db.letters p = (Filing.ordered (ts.filter fun t => p (t.eml, t.x509))).map Filing.columns := by
  have hjoin : db.joined = ts.map fun t => (t.eml, t.x509) := by
    rw [Database.joined, heml]
    exact joinOn_eq_map hwf.unique (·.eml) (·.x509) fun t ht => ⟨(hvalid t ht).mem, (hvalid t ht).key⟩
  rw [Database.letters, hjoin, List.filter_map, orderBy_map, List.map_map]
  rfl

/-- The letters that were saved, if they have a property. -/
theorem filter_saved {msgs : List Message} (heml : db.eml = ts.map (·.eml)) (hmsgs : msgs = ts.map (·.msg))
    (p : ℤ × Message → Bool) : (saved db msgs).filter p = (ts.filter fun t => p t.entry).map Filing.entry := by
  have hsaved : saved db msgs = ts.map Filing.entry := by
    rw [saved, heml, hmsgs, List.map_map]
    exact List.zip_map'
  rw [hsaved, List.filter_map]
  rfl

end answers

/-! ## Reading letters -/

section reading

variable (env : Loader) {ts : List Filing}

/-- A row is read if and only if its content can be decoded. -/
theorem getAll_columns_filing (t : Filing) :
    getAll env.jdbc env.now t.columns = if t.x509.bytes.isSome then some (t.loaded env.now) else none := by
  rw [Filing.columns, getAll_columns, Filing.loaded]
  cases t.x509.bytes <;> rfl

/-- Every attachment can be read. -/
def AllReadable (ts : List Filing) : Prop := ∀ t ∈ ts, t.x509.bytes.isSome

/-- Where all contents can be decoded, all rows are read. -/
theorem readRows_letters (h : AllReadable ts) :
    readRows (getAll env.jdbc env.now) false ((Filing.ordered ts).map Filing.columns) 0
      = ((Filing.ordered ts).map (Filing.loaded env.now), ts.length, true) := by
  have hlen : (Filing.ordered ts).length = ts.length := (orderBy_perm _ ts).length_eq
  have hread : ∀ t ∈ Filing.ordered ts, getAll env.jdbc env.now t.columns = some (t.loaded env.now) := by
    intro t ht
    rw [getAll_columns_filing, if_pos (h t ((orderBy_perm _ ts).mem_iff.mp ht))]
  rw [readRows_of_forall Filing.columns (Filing.loaded env.now) hread, hlen, Nat.zero_add]

/-- Otherwise the reading ends at the first that cannot, and says so. -/
theorem readRows_letters_of_not (h : ¬ AllReadable ts) :
    (readRows (getAll env.jdbc env.now) false ((Filing.ordered ts).map Filing.columns) 0).1.length < ts.length
      ∧ (readRows (getAll env.jdbc env.now) false ((Filing.ordered ts).map Filing.columns) 0).2.2 = false := by
  have hlen : ((Filing.ordered ts).map Filing.columns).length = ts.length :=
    List.length_map _ |>.trans (orderBy_perm _ ts).length_eq
  obtain ⟨t, ht⟩ := not_forall.mp h
  obtain ⟨hmem, hnone⟩ := Classical.not_imp.mp ht
  have hrow : t.columns ∈ (Filing.ordered ts).map Filing.columns :=
    List.mem_map_of_mem ((orderBy_perm _ ts).mem_iff.mpr hmem)
  have hget : getAll env.jdbc env.now t.columns = none := by
    rw [getAll_columns_filing, if_neg hnone]
  rw [← hlen]
  exact readRows_of_none hrow hget 0

end reading

/-! ## Objects with a list -/

/-- An object without a list. -/
theorem not_hasList_new (list : List JSONObject) : ¬ HasList JSONObject.new list := by
  rintro ⟨h, -⟩
  cases h

/-- The list that was put in is the one that is found. -/
theorem hasList_put_iff {prn : Date → JString} {ls : List Loaded} {n : ℕ} {list : List JSONObject} :
    HasList (JSONObject.new
        |>.put "list" (some (.arr (ls.map fun l => .obj (msg2obj prn l))))
        |>.put "size" (some (.num n))) list
      ↔ list = ls.map (msg2obj prn) ∧ n = list.length := by
  have hlist : (ls.map fun l => Json.obj (msg2obj prn l)) = (ls.map (msg2obj prn)).map .obj := by
    rw [List.map_map]
    rfl
  rw [HasList, JSONObject.getJSONArray, JSONObject.get_put, JSONObject.get_put, JSONObject.get_put, hlist]
  show some _ = some _ ∧ some _ = some _ ↔ _
  constructor
  · rintro ⟨hmap, hsize⟩
    have hinj := List.map_injective_iff.mpr fun (_ _ : JSONObject) h => Json.obj.inj h
    exact ⟨(hinj (Option.some.inj hmap)).symm, Int.ofNat.inj (Json.num.inj (Option.some.inj hsize))⟩
  · rintro ⟨rfl, rfl⟩
    exact ⟨rfl, rfl⟩

/-- A loader of all rows returns a list if every row can be read. -/
theorem hasList_loadJSONOf_iff (env : Loader) {db : Database} {get : Columns → Option Loaded} {sel : Select}
    {type : Option JString} {τ : Type} {ts : List τ} {c : τ → Columns} {f : τ → Loaded} {ok : τ → Bool}
    (hquery : db.executeQuery sel (setParams (-1) type) = some (ts.map c))
    (hget : ∀ t ∈ ts, get (c t) = if ok t then some (f t) else none) (list : List JSONObject) :
    HasList (env.loadJSONOf db get sel (-1) type) list
      ↔ (∀ t ∈ ts, ok t = true) ∧ list = ts.map fun t => msg2obj env.prn (f t) := by
  have hone : decide ((0 : ℤ) < -1) = false := rfl
  rw [Loader.loadJSONOf, hquery]
  dsimp only
  rw [hone]
  by_cases hall : ∀ t ∈ ts, ok t = true
  · have hread := readRows_of_forall c f (fun t ht => (hget t ht).trans (if_pos (hall t ht))) 0
    rw [hread]
    dsimp only
    rw [hasList_put_iff, List.map_map, Nat.zero_add]
    constructor
    · exact fun h => ⟨hall, h.1⟩
    · rintro ⟨-, rfl⟩
      exact ⟨rfl, (List.length_map _).symm⟩
  · obtain ⟨t, ht⟩ := not_forall.mp hall
    obtain ⟨hmem, hnot⟩ := Classical.not_imp.mp ht
    have hbad := (readRows_of_none (List.mem_map_of_mem hmem) ((hget t hmem).trans (if_neg hnot)) 0).2
    rcases hr : readRows get false (ts.map c) 0 with ⟨l, s, b⟩
    rw [hr] at hbad
    obtain rfl : b = false := hbad
    exact iff_of_false (not_hasList_new list) fun h => hall h.1

/-! ## Letters as an array and as an object -/

section letters

variable {env : Loader} {db : Database} {ts : List Filing}

theorem Filing.Valid.bytes {t : Filing} (h : t.Valid db) :
    t.x509.bytes = (Base64.base64ToByteArray t.msg.bodyBin64).toOption := by
  rw [X509Row.bytes, h.describes.bin]

/-- The array is the right answer if and only if all letters can be read and no list is joined. -/
theorem answersArray_iff (hvalid : ∀ t ∈ ts, t.Valid db) (hnodup : (ts.map fun t => t.eml.mailUid).Nodup) :
    AnswersArray (ts.map Filing.entry)
        (readRows (getAll env.jdbc env.now) false ((Filing.ordered ts).map Filing.columns) 0).1
      ↔ ∀ t ∈ ts, ListsOfOne t.msg
        ∧ (Base64.base64ToByteArray t.msg.bodyBin64).toOption = some (attachment t.msg) := by
  by_cases hread : AllReadable ts
  · rw [readRows_letters env hread]
    refine answers_iff hvalid hnodup (fun t _ t' _ h => h.1) fun t ht => ?_
    have hsame := sameMessage_iff (sameLetter_loaded (hvalid t ht) env.now (t.x509.bytes.getD []))
      (sameX509_loaded (hvalid t ht).describes (t.eml.loaded env.now) (t.x509.bytes.getD []))
    obtain ⟨bytes, hbytes⟩ := Option.isSome_iff_exists.mp (hread t ht)
    rw [← (hvalid t ht).bytes, hbytes]
    rw [hbytes] at hsame
    refine ⟨fun h => ?_, fun h => ⟨rfl, ?_⟩⟩
    · rw [Filing.loaded, hbytes] at h
      obtain ⟨hlists, hbin⟩ := hsame.mp h.2
      exact ⟨hlists, congrArg some hbin⟩
    · rw [Filing.loaded, hbytes]
      exact hsame.mpr ⟨h.1, Option.some.inj h.2⟩
  · refine iff_of_false ?_ fun h => hread fun t ht => ?_
    · rintro ⟨order, horder, hall⟩
      have hlt := (readRows_letters_of_not env hread).1
      rw [hall.length_eq, horder.perm.length_eq, List.length_map] at hlt
      exact Nat.lt_irrefl _ hlt
    · rw [(hvalid t ht).bytes, (h t ht).2]
      rfl

/-- The object is the right answer under the same condition. -/
theorem answersJSON_iff (hvalid : ∀ t ∈ ts, t.Valid db) (hnodup : (ts.map fun t => t.eml.mailUid).Nodup)
    {sel : Select} {type : Option JString}
    (hquery : db.executeQuery sel (setParams (-1) type) = some ((Filing.ordered ts).map Filing.columns)) :
    AnswersJSON env.prn (ts.map Filing.entry) (env.loadJSONOf db (getAll env.jdbc env.now) sel (-1) type)
      ↔ ∀ t ∈ ts, ListsOfOne t.msg ∧ Readable t.msg := by
  have hmem : ∀ t, t ∈ Filing.ordered ts ↔ t ∈ ts := fun t => (orderBy_perm _ ts).mem_iff
  have hlist := hasList_loadJSONOf_iff env hquery fun t _ => getAll_columns_filing env t
  have hanswers := answers_iff (R := fun o e => Shows env.prn o e.1 e.2)
    (f := fun t => msg2obj env.prn (t.loaded env.now)) (C := fun t => ListsOfOne t.msg) hvalid hnodup
    (fun t _ t' _ h => by
      have huid : (t'.loaded env.now).msg.uid = t.entry.1 := by
        simpa [header_msg2obj, msgHeader] using h.uid
      exact huid)
    fun t ht => shows_iff (sameLetter_loaded (hvalid t ht) env.now _) (sameX509_loaded (hvalid t ht).describes _ _)
  have hreadable : ∀ t ∈ ts, t.x509.bytes.isSome = true ↔ Readable t.msg := by
    intro t ht
    rw [(hvalid t ht).bytes, Readable]
  constructor
  · rintro ⟨list, hhas, horder⟩
    obtain ⟨hall, rfl⟩ := (hlist list).mp hhas
    intro t ht
    exact ⟨hanswers.mp horder t ht, (hreadable t ht).mp (hall t ((hmem t).mpr ht))⟩
  · intro h
    refine ⟨_, (hlist _).mpr ⟨fun t ht => ?_, rfl⟩, hanswers.mpr fun t ht => (h t ht).1⟩
    have ht' := (hmem t).mp ht
    exact (hreadable t ht').mpr (h t ht').2

end letters

/-! ## The letters of a type -/

section type

variable {db : Database} {ts : List Filing} {msgs : List Message} (env : Loader)

theorem hasType_some {t : JString} {m : Message} : hasType (some t) m = true ↔ m.x509Type = some t := by
  show sqlEq m.x509Type (some t) = true ↔ _
  rw [sqlEq_iff]
  constructor
  · exact fun h => h.2
  · intro h
    rw [h]
    exact ⟨rfl, rfl⟩

/-- The query for all letters finds the rows of all letters. -/
theorem executeQuery_select (hwf : db.WF) (heml : db.eml = ts.map (·.eml)) (hvalid : ∀ t ∈ ts, t.Valid db) :
    db.executeQuery .select (setParams (-1) none) = some ((Filing.ordered ts).map Filing.columns) := by
  have hall := letters_eq hwf heml hvalid fun _ => true
  rw [List.filter_true] at hall
  exact congrArg some hall

/-- The query for a type finds those of this type. -/
theorem executeQuery_selectType (hwf : db.WF) (heml : db.eml = ts.map (·.eml)) (hvalid : ∀ t ∈ ts, t.Valid db)
    (type : JString) : db.executeQuery .selectType (setParams (-1) (some type))
      = some ((Filing.ordered (ts.filter fun t => hasType (some type) t.msg)).map Filing.columns) := by
  have hsame : (ts.filter fun t => sqlEq t.x509.type (some type)) = ts.filter fun t => hasType (some type) t.msg := by
    refine List.filter_congr fun t ht => ?_
    rw [(hvalid t ht).describes.type]
    rfl
  rw [← hsame]
  exact congrArg some (letters_eq hwf heml hvalid _)

/-- The identifiers of some of the letters differ, as those of all do. -/
theorem nodup_filter (heml : db.eml = ts.map (·.eml)) (hnodup : (db.eml.map (·.mailUid)).Nodup) (p : Filing → Bool) :
    ((ts.filter p).map fun t => t.eml.mailUid).Nodup := by
  rw [heml, List.map_map] at hnodup
  exact hnodup.sublist (List.filter_sublist.map _)

/-- The query for all letters as an array. -/
theorem correct_array_none (h : HoldsLetters db msgs) :
    Correct env db msgs (.array none) ↔ Answered db msgs (.array none) := by
  obtain ⟨ts, heml, rfl, hvalid⟩ := h.letters
  have hrows := executeQuery_select h.wf heml hvalid
  have hload : env.loadArray db none
      = (readRows (getAll env.jdbc env.now) false ((Filing.ordered ts).map Filing.columns) 0).1 := by
    rw [Loader.loadArray, Loader.loadArrayOf, hrows]
    rfl
  have hentries := filter_saved heml rfl fun e => (Query.array none).asks e.1 e.2
  have hall : (ts.filter fun t => (Query.array none).asks t.entry.1 t.entry.2) = ts := List.filter_true ts
  rw [hall] at hentries
  have hnodup := nodup_filter heml h.nodup fun _ => true
  rw [List.filter_true] at hnodup
  rw [Correct, hentries]
  show AnswersArray _ (env.loadArray db none) ↔ _
  rw [hload, answersArray_iff hvalid hnodup, Answered, List.forall_mem_map]

/-- The query for a type is executed without its parameter. -/
theorem correct_array_some (h : HoldsLetters db msgs) (type : JString) :
    Correct env db msgs (.array (some type)) ↔ Answered db msgs (.array (some type)) := by
  obtain ⟨ts, heml, rfl, hvalid⟩ := h.letters
  have hload : env.loadArray db (some type) = [] := rfl
  have hentries := filter_saved heml rfl fun e => (Query.array (some type)).asks e.1 e.2
  rw [Correct, hentries]
  show AnswersArray _ (env.loadArray db (some type)) ↔ _
  rw [hload]
  have hnil : AnswersArray ((ts.filter fun t => hasType (some type) t.msg).map Filing.entry) []
      ↔ (ts.filter fun t => hasType (some type) t.msg) = [] := by
    constructor
    · rintro ⟨order, horder, hall⟩
      obtain rfl := List.forall₂_nil_left_iff.mp hall
      exact List.map_eq_nil_iff.mp horder.perm.nil_eq.symm
    · intro hnone
      rw [hnone]
      exact ⟨[], ⟨.nil, .nil⟩, .nil⟩
  refine hnil.trans (List.filter_eq_nil_iff.trans ?_)
  rw [Answered, List.forall_mem_map]
  exact forall₂_congr fun t _ => not_congr hasType_some

/-- The query for the letters of a type. -/
theorem correct_json (h : HoldsLetters db msgs) (type : Option JString) :
    Correct env db msgs (.json type) ↔ Answered db msgs (.json type) := by
  obtain ⟨ts, heml, rfl, hvalid⟩ := h.letters
  have hvalid' : ∀ t ∈ ts.filter fun t => hasType type t.msg, t.Valid db :=
    fun t ht => hvalid t (List.mem_filter.mp ht).1
  have hnodup := nodup_filter heml h.nodup fun t => hasType type t.msg
  have hentries := filter_saved heml rfl fun e => (Query.json type).asks e.1 e.2
  have hanswers : AnswersJSON env.prn ((ts.filter fun t => hasType type t.msg).map Filing.entry) (env.loadJSON db type)
      ↔ ∀ t ∈ ts.filter fun t => hasType type t.msg, ListsOfOne t.msg ∧ Readable t.msg := by
    cases type with
    | none =>
      have hrows := executeQuery_select h.wf heml hvalid
      rw [← List.filter_true ts] at hrows
      exact answersJSON_iff hvalid' hnodup hrows
    | some t => exact answersJSON_iff hvalid' hnodup (executeQuery_selectType h.wf heml hvalid t)
  rw [Correct, hentries]
  refine hanswers.trans ?_
  rw [Answered, List.forall_mem_map]
  simp only [List.mem_filter, and_imp]

end type

/-! ## A letter by its number -/

section uid

variable {db : Database} {ts : List Filing} {msgs : List Message} (env : Loader)

/-- A loader of one row returns a list of its size only if there is no row. -/
theorem hasList_loadJSONOf_uid {get : Columns → Option Loaded} {sel : Select} {uid : ℤ} {rows : List Columns}
    (huid : 0 < uid) (hquery : db.executeQuery sel (setParams uid none) = some rows) (list : List JSONObject) :
    HasList (env.loadJSONOf db get sel uid none) list ↔ rows = [] ∧ list = [] := by
  rw [Loader.loadJSONOf, hquery]
  dsimp only
  rw [decide_eq_true huid]
  cases rows with
  | nil =>
    show HasList (JSONObject.new
      |>.put "list" (some (.arr (List.map (fun l => .obj (msg2obj env.prn l)) [])))
      |>.put "size" (some (.num (0 : ℕ)))) list ↔ _
    rw [hasList_put_iff]
    constructor
    · exact fun h => ⟨rfl, h.1⟩
    · rintro ⟨-, rfl⟩
      exact ⟨rfl, rfl⟩
  | cons row rows =>
    refine iff_of_false ?_ fun h => List.cons_ne_nil _ _ h.1
    rw [readRows]
    cases get row with
    | none => exact not_hasList_new list
    | some l =>
      -- the loop ends before the counter is increased
      show ¬ HasList (JSONObject.new
        |>.put "list" (some (.arr (List.map (fun l => .obj (msg2obj env.prn l)) [l])))
        |>.put "size" (some (.num (0 : ℕ)))) list
      rw [hasList_put_iff]
      rintro ⟨rfl, hsize⟩
      cases hsize

/-- The loaders by a number return a list only if the number is positive and no letter has it. -/
theorem hasList_selectID (h : HoldsLetters db msgs) {get : Columns → Option Loaded} {uid : ℤ} (huid : ¬ uid < 0)
    (list : List JSONObject) : HasList (env.loadJSONOf db get .selectID uid none) list
      ↔ (uid ≠ 0 ∧ ∀ e ∈ db.eml, e.mailUid ≠ uid) ∧ list = [] := by
  obtain ⟨ts, heml, rfl, hvalid⟩ := h.letters
  rcases (not_lt.mp huid).eq_or_lt with rfl | hpos
  · exact iff_of_false (not_hasList_new list) fun h => h.1.1 rfl
  · have hparam : setParams uid none = some (.int uid) := if_pos hpos
    have hquery : db.executeQuery .selectID (setParams uid none)
        = some ((Filing.ordered (ts.filter fun t => decide (t.eml.mailUid = uid))).map Filing.columns) := by
      rw [hparam]
      exact congrArg some (letters_eq h.wf heml hvalid _)
    rw [hasList_loadJSONOf_uid env hpos hquery list, List.map_eq_nil_iff, Filing.ordered]
    refine and_congr_left fun _ => ?_
    have hnil : orderBy (fun t : Filing => t.eml.createDate) (ts.filter fun t => decide (t.eml.mailUid = uid)) = []
        ↔ (ts.filter fun t => decide (t.eml.mailUid = uid)) = [] := by
      rw [← List.length_eq_zero_iff, (orderBy_perm _ _).length_eq, List.length_eq_zero_iff]
    rw [hnil, List.filter_eq_nil_iff, heml, List.forall_mem_map]
    simp [hpos.ne']

/-- Where no letter has the identifier, none is asked for. -/
theorem filter_uid_eq_nil {uid : ℤ} {p : ℤ × Message → Bool} (hp : ∀ e, p e = true → e.1 = uid)
    (h : ∀ e ∈ db.eml, e.mailUid ≠ uid) : (saved db msgs).filter p = [] := by
  refine List.filter_eq_nil_iff.mpr fun e he hpe => ?_
  obtain ⟨row, hrow, huid⟩ := List.mem_map.mp (List.of_mem_zip he).1
  exact h row hrow (huid.trans (hp e hpe))

/-- The query for one letter. -/
theorem correct_jsonUid (h : HoldsLetters db msgs) (uid : ℤ) :
    Correct env db msgs (.jsonUid uid) ↔ Answered db msgs (.jsonUid uid) := by
  by_cases hneg : uid < 0
  · have hasks : (fun e : ℤ × Message => (Query.jsonUid uid).asks e.1 e.2)
        = fun e => (Query.json none).asks e.1 e.2 := by
      funext e
      show (decide (uid < 0) || _) = true
      rw [decide_eq_true hneg, Bool.true_or]
    have hjson := correct_json env h none
    rw [Correct, Answered] at hjson
    rw [Correct, Answered, if_pos hneg, hasks, Loader.loadJSONUid, if_pos hneg]
    refine hjson.trans ?_
    simp [hasType]
  · have hasks : ∀ e : ℤ × Message, (Query.jsonUid uid).asks e.1 e.2 = true → e.1 = uid :=
      fun e he => by simpa [Query.asks, hneg] using he
    rw [Correct, Answered, if_neg hneg, Loader.loadJSONUid, if_neg hneg]
    constructor
    · rintro ⟨list, hhas, -⟩
      exact ((hasList_selectID env h hneg list).mp hhas).1
    · intro hnone
      rw [filter_uid_eq_nil hasks hnone.2]
      exact ⟨[], (hasList_selectID env h hneg []).mpr ⟨hnone, rfl⟩, [], ⟨.nil, .nil⟩, .nil⟩

/-- The query for the certificate of one letter. -/
theorem correct_x509Uid (h : HoldsLetters db msgs) (uid : ℤ) :
    Correct env db msgs (.x509Uid uid) ↔ Answered db msgs (.x509Uid uid) := by
  by_cases hneg : uid < 0
  · obtain ⟨ts, heml, rfl, hvalid⟩ := h.letters
    have hget : ∀ t ∈ Filing.ordered ts, getX509 env.jdbc env.now t.columns
        = if false then some (t.loaded env.now) else none := fun t _ => getX509_letter env.jdbc env.now t.eml t.x509
    have hlist := hasList_loadJSONOf_iff env (executeQuery_select h.wf heml hvalid) hget
    rw [Correct, Answered, if_pos hneg, Loader.loadJSONX509Uid, if_pos hneg, List.map_eq_nil_iff]
    constructor
    · rintro ⟨list, hhas, -⟩
      refine List.eq_nil_iff_forall_not_mem.mpr fun t ht => ?_
      exact Bool.false_ne_true (((hlist list).mp hhas).1 t ((orderBy_perm _ ts).mem_iff.mpr ht))
    · rintro rfl
      have hentries : saved db ([] : List Message) = [] := List.zip_nil_right
      refine ⟨[], (hlist []).mpr ⟨fun t ht => ?_, rfl⟩, fun o ho => ?_, fun e he => ?_⟩
      · cases ht
      · cases ho
      · rw [List.map_nil, hentries] at he
        cases he
  · have hasks : ∀ e : ℤ × Message, (Query.x509Uid uid).asks e.1 e.2 = true → e.1 = uid :=
      fun e he => by simpa [Query.asks, hneg] using he
    rw [Correct, Answered, if_neg hneg, Loader.loadJSONX509Uid, if_neg hneg]
    constructor
    · rintro ⟨list, hhas, -⟩
      exact ((hasList_selectID env h hneg list).mp hhas).1
    · intro hnone
      rw [filter_uid_eq_nil hasks hnone.2]
      refine ⟨[], (hasList_selectID env h hneg []).mpr ⟨hnone, rfl⟩, fun o ho => ?_, fun e he => ?_⟩
      · cases ho
      · cases he

end uid

/-! ## X.509 files of a type -/

section x509

variable {db : Database} {msgs : List Message} (env : Loader)

/-- The rows that a query for a type returns, or all of them. -/
def Database.ofType (db : Database) (type : Option JString) : List X509Row :=
  orderBy X509Row.beginDate (db.x509.filter fun x => type.all fun t => sqlEq x.type (some t))

/-- The rows of a type are those that describe a message of the type. -/
theorem mem_ofType {type : Option JString} {x : X509Row} {m : Message} (hm : x.Describes m) :
    x ∈ db.ofType type ↔ x ∈ db.x509 ∧ hasType type m = true := by
  rw [Database.ofType, (orderBy_perm _ _).mem_iff, List.mem_filter, hm.type]
  rfl

/-- What the query for certificates of a type answers. -/
theorem hasList_loadJSONX509 (type : Option JString) (list : List JSONObject) :
    HasList (env.loadJSONX509 db type) list ↔ (∀ x ∈ db.ofType type, x.bytes.isSome = true)
      ∧ list = (db.ofType type).map fun x => msg2obj env.prn (x.loaded (Message.new env.now) (x.bytes.getD [])) := by
  have hget : ∀ x ∈ db.ofType type, getX509 env.jdbc env.now x.columns
      = if x.bytes.isSome then some (x.loaded (Message.new env.now) (x.bytes.getD [])) else none := by
    intro x _
    rw [getX509_columns]
    cases x.bytes <;> rfl
  cases type with
  | none =>
    have hquery : db.executeQuery .selectX509 (setParams (-1) none) = some ((db.ofType none).map X509Row.columns) :=
      rfl
    exact hasList_loadJSONOf_iff env hquery hget list
  | some t =>
    have hquery : db.executeQuery .selectX509Type (setParams (-1) (some t))
        = some ((db.ofType (some t)).map X509Row.columns) := rfl
    exact hasList_loadJSONOf_iff env hquery hget list

/-- An object that shows the serial number is that of a message with one. -/
theorem length_of_showsKeys {prn : Date → JString} {x : X509Row} {l m : Message} {bytes : List UInt8}
    (h : ShowsKeys prn x509Keys (msg2obj prn (x.loaded l bytes)) m) : m.x509Serial.length = 1 := by
  have hserial := showsKeys_iff.mp h "X509Serial" (by simp [x509Keys])
  have hlist : textArray [x.serial] = textArray m.x509Serial := by
    simpa [msgHeader, X509Row.loaded] using hserial
  rw [← textArray_inj.mp hlist]
  rfl

/-- A row has bytes if and only if the content of the message can be decoded. -/
theorem readable_iff {x : X509Row} {m : Message} (h : x.Describes m) : x.bytes.isSome = true ↔ Readable m := by
  rw [X509Row.bytes, h.bin, Readable]

/-- The query for the certificates of a type. -/
theorem correct_x509 (h : Stored db msgs) (type : Option JString) :
    Correct env db msgs (.x509 type) ↔ Answered db msgs (.x509 type) := by
  obtain ⟨ts, heml, rfl, hvalid⟩ := h.letters
  have hentries := filter_saved heml rfl fun e => (Query.x509 type).asks e.1 e.2
  have hentry : ∀ t ∈ ts, hasType type t.msg = true
      → t.entry ∈ (ts.filter fun t => (Query.x509 type).asks t.entry.1 t.entry.2).map Filing.entry :=
    fun t ht htype => List.mem_map_of_mem (List.mem_filter.mpr ⟨ht, htype⟩)
  rw [Correct, hentries, Answered, List.forall_mem_map]
  constructor
  · rintro ⟨list, hhas, -, hfiles⟩ t ht htype
    obtain ⟨hall, rfl⟩ := (hasList_loadJSONX509 env type list).mp hhas
    obtain ⟨o, ho, hshows⟩ := hfiles t.entry (hentry t ht htype)
    obtain ⟨x, -, rfl⟩ := List.mem_map.mp ho
    have hdesc := (hvalid t ht).describes
    exact ⟨length_of_showsKeys hshows,
      (readable_iff hdesc).mp (hall t.x509 ((mem_ofType hdesc).mpr ⟨(hvalid t ht).mem, htype⟩))⟩
  · intro hcond
    -- a row is that of a message of the type
    have hrow : ∀ x ∈ db.ofType type, ∃ t ∈ ts, hasType type t.msg = true ∧ x.Describes t.msg := by
      intro x hx
      have hmem := (List.mem_filter.mp ((orderBy_perm _ _).mem_iff.mp hx)).1
      obtain ⟨m, hm, hdesc⟩ := h.rows x hmem
      obtain ⟨t, ht, rfl⟩ := List.mem_map.mp hm
      exact ⟨t, ht, ((mem_ofType hdesc).mp hx).2, hdesc⟩
    refine ⟨_, (hasList_loadJSONX509 env type _).mpr ⟨fun x hx => ?_, rfl⟩, fun o ho => ?_, fun e he => ?_⟩
    · obtain ⟨t, ht, htype, hdesc⟩ := hrow x hx
      exact (readable_iff hdesc).mpr (hcond t ht htype).2
    · obtain ⟨x, hx, rfl⟩ := List.mem_map.mp ho
      obtain ⟨t, ht, htype, hdesc⟩ := hrow x hx
      exact ⟨t.entry, hentry t ht htype, (showsKeys_x509_iff (sameX509_loaded hdesc _ _)).mpr (hcond t ht htype).1⟩
    · obtain ⟨t, ht, rfl⟩ := List.mem_map.mp he
      obtain ⟨hmem, htype⟩ := List.mem_filter.mp ht
      have hdesc := (hvalid t hmem).describes
      refine ⟨_, List.mem_map_of_mem ((mem_ofType hdesc).mpr ⟨(hvalid t hmem).mem, htype⟩), ?_⟩
      exact (showsKeys_x509_iff (sameX509_loaded hdesc _ _)).mpr (hcond t hmem htype).1

end x509

/-! ## Every query -/

/-- After any messages that were saved without an error, a query answers what was saved exactly if the condition
holds. -/
theorem roundTrip_iff (env : Loader) {msgs : List Message} (h : filing.Along Filed Database.create msgs) (q : Query) :
    Correct env (filing.run Database.create msgs) msgs q ↔ Answered (filing.run Database.create msgs) msgs q := by
  have hstored := stored_create.run h
  rw [List.nil_append] at hstored
  cases q with
  | array type =>
    cases type with
    | none => exact correct_array_none env hstored.toHoldsLetters
    | some type => exact correct_array_some env hstored.toHoldsLetters type
  | json type => exact correct_json env hstored.toHoldsLetters type
  | jsonUid uid => exact correct_jsonUid env hstored.toHoldsLetters uid
  | x509 type => exact correct_x509 env hstored type
  | x509Uid uid => exact correct_x509Uid env hstored.toHoldsLetters uid

/-- Dates within the first second of the epoch. -/
def epochLoader : Loader := ⟨⟨fun _ => none, fun _ => none⟩, 0, fun _ => "1970-01-01 00:00:00".toList⟩

/-- A letter of the time `createDate` to these recipients, with a certificate. -/
def certificateTo (createDate : Date) (to_ : List JString) : Message :=
  Message.setBodyBin (some [48, 130, 2])
    { Message.new createDate with
      from_ := some "ca@little.org".toList, to_ := to_
      x509Type := some X509_CERTIFICATE, x509BeginDate := some 2, x509EndDate := some 8
      x509Serial := ["5".toList], x509Subject := some "CN=a".toList, x509Issuer := some "CN=ca".toList }

/-- Two letters with one certificate, the later one first. -/
theorem roundTrip_twoLetters :
    let msgs := [certificateTo 7 ["b@little.org".toList], certificateTo 3 ["a@little.org".toList]]
    Correct epochLoader (filing.run .create msgs) msgs (.array none) := by
  intro msgs
  have hfiled : filing.Along Filed .create msgs := ⟨Or.inl (by decide), Or.inl (by decide), trivial⟩
  refine (roundTrip_iff epochLoader hfiled (.array none)).mpr fun m hm => ?_
  rcases List.mem_pair.mp hm with rfl | rfl
  · exact ⟨⟨rfl, rfl⟩, by decide⟩
  · exact ⟨⟨rfl, rfl⟩, by decide⟩

/-- A letter to two recipients: they are read as one, it is not found by its type, and the loaders by its number
return no list of its size. -/
theorem not_correct_twoRecipients :
    let msgs := [certificateTo 3 ["a@little.org".toList, "b@little.org".toList]]
    let db := filing.run .create msgs
    filing.Along Filed .create msgs
      ∧ ¬ Correct epochLoader db msgs (.array none)
      ∧ ¬ Correct epochLoader db msgs (.array (some X509_CERTIFICATE))
      ∧ ¬ Correct epochLoader db msgs (.json none)
      ∧ ¬ Correct epochLoader db msgs (.jsonUid 1001)
      ∧ ¬ Correct epochLoader db msgs (.x509Uid 1001) := by
  intro msgs db
  have hfiled : filing.Along Filed .create msgs := ⟨Or.inl (by decide), trivial⟩
  have hstored : HoldsLetters db msgs := (stored_create.run hfiled).toHoldsLetters
  have hmem : certificateTo 3 ["a@little.org".toList, "b@little.org".toList] ∈ msgs := List.mem_cons_self
  have huid : db.eml.map (·.mailUid) = [1001] := by decide
  obtain ⟨e, he, hkey⟩ : ∃ e ∈ db.eml, e.mailUid = 1001 := List.mem_map.mp (huid ▸ List.mem_cons_self)
  refine ⟨hfiled, fun h => ?_, fun h => ?_, fun h => ?_, fun h => ?_, fun h => ?_⟩
  · exact absurd ((correct_array_none epochLoader hstored).mp h _ hmem).1.1 (by decide)
  · exact (correct_array_some epochLoader hstored _).mp h _ hmem rfl
  · exact absurd ((correct_json epochLoader hstored none).mp h _ hmem rfl).1.1 (by decide)
  · exact ((correct_jsonUid epochLoader hstored 1001).mp h).2 e he hkey
  · exact ((correct_x509Uid epochLoader hstored 1001).mp h).2 e he hkey

end OrgLittle.MailWeb
