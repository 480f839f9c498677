import OrgLittle.MailWeb.FolderDB

/-!
# Saving again after a database error

`save` is stopped at one of its statements, and the message is saved again, either the same object or
one that was parsed again from the same letter. The second `save` skips what it takes for done: the object
keeps the identifier of a row that was never inserted, and the row of a revocation list is found although
only some of its serial numbers were applied. `archived_retry_iff` says when the archive is complete
in the end.
-/

namespace OrgLittle.MailWeb

open OrgLittle.Java OrgLittle.Lmsg OrgLittle.Lib.Sql

/-! ## What an archived message looks like -/

/-- Every certificate with this number is revoked with the date of the message. -/
def Revoked (db : Database) (msg : Message) (serial : JString) : Prop :=
  ∀ row ∈ db.x509, row.isCertificate = true → row.serial = serial → row.dateRL = msg.x509BeginDate

/-- The serial numbers of a revocation list are in the table and have been applied. -/
def Applied (db : Database) (msg : Message) (x509Id : ℤ) : Prop :=
  msg.x509Type = some X509_CRL → ∀ serial ∈ msg.x509Serial,
    ⟨x509Id, serial⟩ ∈ db.serialR ∧ Revoked db msg serial

/-- The message is archived under this identifier. -/
def HasContents (db : Database) (msg : Message) (x509Id : ℤ) : Prop :=
  (∃ row ∈ db.x509, row.x509Id = x509Id ∧ row.Describes msg) ∧ Applied db msg x509Id

/-- The message is archived, and the letter that was stored last is its letter and refers to its row. -/
def Archived (db : Database) (msg : Message) : Prop :=
  ∃ x509Id mailUid, HasContents db msg x509Id
    ∧ db.eml.getLast? = some (setEml mailUid (msg.setX509ID x509Id))

theorem setEml_x509Id (mailUid : ℤ) (msg : Message) : (setEml mailUid msg).x509Id = msg.x509Id := rfl

theorem hasContents_setX509ID {db : Database} {msg : Message} {x509Id id : ℤ} :
    HasContents db (msg.setX509ID x509Id) id ↔ HasContents db msg id := by
  simp only [HasContents, X509Row.describes_setX509ID]
  exact Iff.rfl

/-- A letter that is stored for an identifier archives the message exactly if the contents are there. -/
theorem archived_insertEml_iff {db : Database} {msg : Message} {x509Id : ℤ} :
    Archived (db.insertEml (msg.setX509ID x509Id)) msg ↔ HasContents db msg x509Id := by
  have hlast : (db.insertEml (msg.setX509ID x509Id)).eml.getLast?
      = some (setEml db.seq (msg.setX509ID x509Id)) := List.getLast?_concat
  constructor
  · rintro ⟨id, mailUid, hcontents, hid⟩
    rw [hlast, Option.some.injEq] at hid
    have hsame := congrArg EmlRow.x509Id hid
    rw [setEml_x509Id, setEml_x509Id, Message.setX509ID_x509Id, Message.setX509ID_x509Id] at hsame
    rw [hsame]
    exact hcontents
  · intro hcontents
    exact ⟨x509Id, db.seq, hcontents, hlast⟩

/-- A row that is inserted with its serial numbers has all of its contents. -/
theorem hasContents_insertContents (db : Database) (msg : Message) :
    HasContents (db.insertContents msg) msg msg.x509Id := by
  refine ⟨⟨setX509 msg, ?_, rfl, setX509_describes msg⟩, fun htype serial hserial => ⟨?_, ?_⟩⟩
  · rw [Database.insertContents_x509]
    exact List.mem_append_right _ List.mem_cons_self
  · rw [Database.insertContents, if_pos htype]
    exact List.mem_append_right _ (List.mem_map_of_mem hserial)
  · intro row hrow hcert hrowSerial
    rw [Database.insertContents_x509] at hrow
    rcases List.mem_append.mp hrow with hrow | hrow
    · obtain ⟨row', -, rfl⟩ := List.mem_map.mp hrow
      unfold revoke at hcert hrowSerial ⊢
      split_ifs at hcert hrowSerial ⊢ with hlisted
      · rfl
      · exact absurd ⟨htype, hrowSerial ▸ hserial, hcert⟩ hlisted
    · rw [List.mem_singleton.mp hrow, X509Row.isCertificate, setX509_type, htype] at hcert
      exact absurd hcert (by decide)

/-- A new message is archived by a `save` without an error. -/
theorem archived_archive (db : Database) (msg : Message) : Archived (db.archive msg) msg :=
  archived_insertEml_iff.mpr (hasContents_setX509ID.mp
    (hasContents_insertContents { db with seq := db.seq + 1 } (msg.setX509ID db.seq)))

/-! ## The second `save` -/

/-- The object that is saved again: the same one, with the identifier it has by now, or a new one. -/
def again (fresh : Bool) (msg : Message) (r : SaveResult) : Message :=
  if fresh then msg.setX509ID (-1) else r.msg

/-- The tables after a `save` that is stopped at a statement and a second one without an error. -/
def afterRetry (fail : Statement) (fresh : Bool) (db : Database) (msg : Message) : Database :=
  (save none (save (some fail) db msg).db (again fresh msg (save (some fail) db msg))).db

theorem selectX509SEARCHID_setX509ID (db : Database) (msg : Message) (x509Id : ℤ) :
    db.selectX509SEARCHID (msg.setX509ID x509Id) = db.selectX509SEARCHID msg := rfl

/-- A new object is stored as a letter of the row that is found for it. -/
theorem save_new_found {db : Database} {msg : Message} {id : ℤ} (hid : 0 ≤ id)
    (hsearch : db.selectX509SEARCHID msg = some id) :
    (save none db (msg.setX509ID (-1))).db = db.insertEml (msg.setX509ID id) := by
  have hsearch' : db.selectX509SEARCHID (msg.setX509ID (-1)) = some id := hsearch
  rw [save_none_found hid hsearch', Message.setX509ID_setX509ID]

/-- A new object for which no row is found is archived. -/
theorem save_new_archive {db : Database} {msg : Message}
    (hsearch : db.selectX509SEARCHID msg = none) :
    (save none db (msg.setX509ID (-1))).db = db.archive msg := by
  have hsearch' : db.selectX509SEARCHID (msg.setX509ID (-1)) = none := hsearch
  rw [save_none_new (by rw [Message.setX509ID_x509Id]; omega) hsearch']
  rfl

/-- The new row of the message is there, and no other row is found for it. -/
structure Inserted (db : Database) (msg : Message) (x509Id : ℤ) : Prop where
  row : ∃ row ∈ db.x509, row.x509Id = x509Id ∧ row.Describes msg
  only : ∀ row ∈ db.x509, row.isSearched msg = true → row.x509Id = x509Id

/-- Marking rows as revoked does not change what is found. -/
theorem inserted_of_updateWhere {db db' : Database} {msg : Message} {x509Id : ℤ} {date : Option Date}
    {p : X509Row → Bool} (hsearch : db.selectX509SEARCHID msg = none)
    (h : db'.x509 = updateWhere p (fun row => { row with dateRL := date })
      (db.x509 ++ [setX509 (msg.setX509ID x509Id)])) : Inserted db' msg x509Id := by
  constructor
  · refine ⟨_, by rw [h]; exact mem_updateWhere.mpr ⟨_, List.mem_append_right _ List.mem_cons_self, rfl⟩,
      ?_⟩
    have hnew := X509Row.describes_setX509ID.mp (setX509_describes (msg.setX509ID x509Id))
    split_ifs
    · exact ⟨rfl, ⟨hnew.type, hnew.typeFile, hnew.beginDate, hnew.endDate, hnew.serial, hnew.subject,
        hnew.issuer, hnew.bin⟩⟩
    · exact ⟨rfl, hnew⟩
  · intro row hrow hsearched
    rw [h] at hrow
    obtain ⟨row', hrow', rfl⟩ := mem_updateWhere.mp hrow
    have hkey : row'.isSearched msg = true := by
      split_ifs at hsearched <;> exact hsearched
    rcases List.mem_append.mp hrow' with hold | hnew
    · rw [Database.selectX509SEARCHID_eq_none.mp hsearch row' hold] at hkey
      exact absurd hkey Bool.false_ne_true
    · rw [List.mem_singleton.mp hnew]
      split_ifs <;> rfl

theorem insertContents_updateWhere (db : Database) (msg : Message) :
    ∃ p, (db.insertContents msg).x509
      = updateWhere p (fun row => { row with dateRL := msg.x509BeginDate })
        (db.x509 ++ [setX509 msg]) := by
  unfold Database.insertContents
  split_ifs
  · exact ⟨_, rfl⟩
  · exact ⟨fun _ => false, by simp [updateWhere, Database.insertX509]⟩

theorem Inserted.select {db : Database} {msg : Message} {x509Id : ℤ} (h : Inserted db msg x509Id) :
    (Searchable msg ∧ db.selectX509SEARCHID msg = some x509Id)
      ∨ (¬ Searchable msg ∧ db.selectX509SEARCHID msg = none) := by
  rcases hsearch : db.selectX509SEARCHID msg with _ | id
  · refine Or.inr ⟨fun hmsg => ?_, rfl⟩
    obtain ⟨row, hrow, -, hdescribes⟩ := h.row
    have hnot := Database.selectX509SEARCHID_eq_none.mp hsearch row hrow
    rw [X509Row.isSearched_iff.mpr ⟨hmsg, hdescribes⟩] at hnot
    exact absurd hnot.symm Bool.false_ne_true
  · obtain ⟨row, hrow, hsearched, rfl⟩ := Database.exists_of_selectX509SEARCHID hsearch
    refine Or.inl ⟨(X509Row.isSearched_iff.mp hsearched).1, ?_⟩
    rw [h.only row hrow hsearched]

/-- Saved again behind its new row, the message only gets a letter, unless a new object cannot be found. -/
theorem Inserted.archived_again_iff {db : Database} {msg : Message} {x509Id : ℤ}
    (h : Inserted db msg x509Id) (hid : 0 ≤ x509Id) (fresh : Bool) :
    Archived (save none db (again fresh msg ⟨db, msg.setX509ID x509Id, false⟩)).db msg
      ↔ (fresh = true ∧ ¬ Searchable msg) ∨ Applied db msg x509Id := by
  have hletter : Archived (db.insertEml (msg.setX509ID x509Id)) msg ↔ Applied db msg x509Id := by
    rw [archived_insertEml_iff, HasContents]
    exact and_iff_right h.row
  have hneg : ¬ x509Id < 0 := by omega
  cases fresh with
  | false =>
    have hsave : (save none db (msg.setX509ID x509Id)).db = db.insertEml (msg.setX509ID x509Id) := by
      rcases h.select with ⟨-, hsearch⟩ | ⟨-, hsearch⟩
      all_goals simp [save, selectX509SEARCHID_setX509ID, hsearch, hneg, saveEml]
    rw [again, if_neg Bool.false_ne_true, hsave, hletter]
    simp
  | true =>
    rw [again, if_pos rfl]
    rcases h.select with ⟨hmsg, hsearch⟩ | ⟨hmsg, hsearch⟩
    · rw [save_new_found hid hsearch, hletter]
      simp [hmsg]
    · rw [save_new_archive hsearch]
      exact iff_of_true (archived_archive db msg) (Or.inl ⟨rfl, hmsg⟩)

/-! ## The first `save` -/

theorem saveSerialX509_crl {msg : Message} (htype : msg.x509Type = some X509_CRL)
    (fail : Option Statement) (db : Database) :
    saveSerialX509 fail msg db = saveSerials fail msg db 0 msg.x509Serial := by
  rw [saveSerialX509, if_neg (not_not_intro htype)]

section Stopped

variable {db : Database} {msg : Message} (hid : msg.x509Id < 0)
  (hsearch : db.selectX509SEARCHID msg = none)

/-- The tables after the row of a new message is inserted. -/
def withRow (db : Database) (msg : Message) : Database :=
  Database.insertX509 (msg.setX509ID db.seq) { db with seq := db.seq + 1 }

include hid hsearch

/-- The loop over the serial numbers is stopped. -/
theorem save_new_stopped {fail : Statement} (hfail : fail ≠ .searchX509ID ∧ fail ≠ .getNewX509ID
      ∧ fail ≠ .insertX509) {db' : Database}
    (hloop : saveSerialX509 (some fail) (msg.setX509ID db.seq) (withRow db msg) = (db', false)) :
    save (some fail) db msg = ⟨db', msg.setX509ID db.seq, false⟩ := by
  obtain ⟨h1, h2, h3⟩ := hfail
  rw [withRow] at hloop
  simp [save, hsearch, hid, h1, h2, h3, hloop]

/-- The loop over the serial numbers is not stopped. -/
theorem save_new_letter {fail : Statement} (hfail : fail ≠ .searchX509ID ∧ fail ≠ .getNewX509ID
      ∧ fail ≠ .insertX509) {db' : Database}
    (hloop : saveSerialX509 (some fail) (msg.setX509ID db.seq) (withRow db msg) = (db', true)) :
    save (some fail) db msg = saveEml (some fail) (msg.setX509ID db.seq) db' := by
  obtain ⟨h1, h2, h3⟩ := hfail
  rw [withRow] at hloop
  simp [save, hsearch, hid, h1, h2, h3, hloop]

/-- A stopped loop has reached the statement. -/
theorem reached_of_stopped {fail : Statement} {k : ℕ} (hk : fail = .insertSerialR k ∨ fail = .updateRL k)
    (hfail : (save (some fail) db msg).saved = false) :
    msg.x509Type = some X509_CRL ∧ k < msg.x509Serial.length := by
  have hcontents : fail ≠ .searchX509ID ∧ fail ≠ .getNewX509ID ∧ fail ≠ .insertX509 := by
    rcases hk with rfl | rfl <;> simp
  have hEml : fail ≠ .insertEml := by
    rcases hk with rfl | rfl <;> simp
  by_contra hnot
  -- otherwise the loop ends and the letter is stored
  have hloop : ∃ db', saveSerialX509 (some fail) (msg.setX509ID db.seq) (withRow db msg)
      = (db', true) := by
    by_cases htype : (msg.setX509ID db.seq).x509Type = some X509_CRL
    · have hlen : msg.x509Serial.length ≤ k := by
        have := not_and.mp hnot htype
        omega
      rw [saveSerialX509_crl htype]
      refine ⟨_, saveSerials_eq _ (fun j hj => ?_) (fun j hj => ?_) _⟩
      all_goals
        rw [Message.setX509ID_x509Serial] at hj
        rcases hk with rfl | rfl
        all_goals
          simp only [ne_eq, Option.some.injEq, reduceCtorEq, not_false_eq_true,
            Statement.insertSerialR.injEq, Statement.updateRL.injEq]
          try omega
    · exact ⟨_, by rw [saveSerialX509, if_pos htype]⟩
  obtain ⟨db', hloop⟩ := hloop
  rw [save_new_letter hid hsearch hcontents hloop, saveEml, if_neg (by simpa using hEml)] at hfail
  exact absurd hfail (by simp)

end Stopped

/-- The loop over the serial numbers, if all of its statements are executed. -/
theorem saveSerialX509_eq {fail : Statement} (hfail : ∀ k, fail ≠ .insertSerialR k ∧ fail ≠ .updateRL k)
    (msg : Message) (db : Database) :
    saveSerialX509 (some fail) msg (db.insertX509 msg) = (db.insertContents msg, true) := by
  rw [saveSerialX509, Database.insertContents]
  by_cases htype : msg.x509Type = some X509_CRL
  · rw [if_neg (not_not_intro htype), if_pos htype,
      saveSerials_eq msg (by simp [hfail]) (by simp [hfail])]
  · rw [if_pos htype, if_neg htype]

/-- What the marks of some serial numbers say about one of them; the row of the list itself is no
certificate. -/
theorem revoked_updateWhere_iff {db db' : Database} {msg : Message} {new : X509Row}
    (hnew : new.isCertificate = false) {applied : List JString}
    (hx509 : db'.x509 = updateWhere (fun row => decide (row.serial ∈ applied) && row.isCertificate)
      (fun row => { row with dateRL := msg.x509BeginDate }) (db.x509 ++ [new])) (serial : JString) :
    Revoked db' msg serial ↔ serial ∈ applied ∨ Revoked db msg serial := by
  constructor
  · intro h
    by_cases hserial : serial ∈ applied
    · exact Or.inl hserial
    · refine Or.inr fun row hrow hcert hrowSerial => h row ?_ hcert hrowSerial
      rw [hx509]
      refine mem_updateWhere.mpr ⟨row, List.mem_append_left _ hrow, if_neg ?_⟩
      simp [hrowSerial, hserial]
  · intro h row hrow hcert hrowSerial
    rw [hx509] at hrow
    obtain ⟨row', hrow', rfl⟩ := mem_updateWhere.mp hrow
    split_ifs at hcert hrowSerial ⊢ with hlisted
    · rfl
    · -- the row is as it was
      rcases List.mem_append.mp hrow' with hold | hold
      · rcases h with hserial | hrev
        · rw [← hrowSerial] at hserial
          exact absurd (by simp [hserial, hcert]) hlisted
        · exact hrev row' hold hcert hrowSerial
      · rw [List.mem_singleton.mp hold, hnew] at hcert
        exact absurd hcert Bool.false_ne_true

/-- The tables when the loop has stored the numbers `stored` after it has applied the numbers `applied`. -/
theorem applied_iff {db db' : Database} (hdb : db.WF) {msg : Message}
    (htype : msg.x509Type = some X509_CRL) (applied stored : List JString)
    (hserialR : db'.serialR = db.serialR ++ (applied ++ stored).map (SerialRow.mk db.seq))
    (hx509 : db'.x509 = updateWhere (fun row => decide (row.serial ∈ applied) && row.isCertificate)
      (fun row => { row with dateRL := msg.x509BeginDate })
      (db.x509 ++ [setX509 (msg.setX509ID db.seq)])) :
    Applied db' msg db.seq
      ↔ ∀ serial ∈ msg.x509Serial, serial ∈ applied ∨ (serial ∈ stored ∧ Revoked db msg serial) := by
  have hmem : ∀ serial, (⟨db.seq, serial⟩ : SerialRow) ∈ db'.serialR ↔ serial ∈ applied ++ stored := by
    intro serial
    rw [hserialR, List.mem_append, List.mem_map]
    constructor
    · rintro (hold | ⟨serial', hserial', heq⟩)
      · exact absurd (hdb.serialR _ hold) (Int.lt_irrefl _)
      · rwa [← (SerialRow.mk.inj heq).2]
    · exact fun hserial => Or.inr ⟨serial, hserial, rfl⟩
  have hnew : (setX509 (msg.setX509ID db.seq)).isCertificate = false := by
    rw [X509Row.isCertificate, setX509_type, Message.setX509ID_x509Type, htype]
    decide
  have hrevoked := revoked_updateWhere_iff hnew hx509
  constructor
  · intro h serial hserial
    obtain ⟨hstored, hrev⟩ := h htype serial hserial
    rcases List.mem_append.mp ((hmem serial).mp hstored) with happlied | hstored
    · exact Or.inl happlied
    · exact ((hrevoked serial).mp hrev).imp_right fun hrev => ⟨hstored, hrev⟩
  · intro h _ serial hserial
    rw [hmem, hrevoked]
    rcases h serial hserial with happlied | ⟨hstored, hrev⟩
    · exact ⟨List.mem_append_left _ happlied, Or.inl happlied⟩
    · exact ⟨List.mem_append_right _ hstored, Or.inr hrev⟩

/-! ## When the archive is complete -/

/-- The archive is complete after the second `save` in these cases. -/
def RetrySafe (fail : Statement) (fresh : Bool) (db : Database) (msg : Message) : Prop :=
  match db.selectX509SEARCHID msg with
  | some x509Id => Applied db msg x509Id
  | none =>
    if 0 ≤ msg.x509Id then fresh = true ∨ HasContents db msg msg.x509Id
    else
      match fail with
      | .searchX509ID | .getNewX509ID | .insertEml => True
      | .insertX509 => fresh = true
      | .insertSerialR k =>
        (fresh = true ∧ ¬ Searchable msg) ∨ ∀ serial ∈ msg.x509Serial, serial ∈ msg.x509Serial.take k
      | .updateRL k =>
        (fresh = true ∧ ¬ Searchable msg) ∨ ∀ serial ∈ msg.x509Serial, serial ∈ msg.x509Serial.take k
          ∨ (msg.x509Serial[k]? = some serial ∧ Revoked db msg serial)

/-- A row was there before. -/
theorem archived_found_iff {db : Database} (hdb : db.WF) {msg : Message} {fail : Statement}
    (hfail : (save (some fail) db msg).saved = false) (fresh : Bool) {x509Id : ℤ}
    (hsearch : db.selectX509SEARCHID msg = some x509Id) :
    Archived (afterRetry fail fresh db msg) msg ↔ Applied db msg x509Id := by
  obtain ⟨row, hrow, hsearched, rfl⟩ := Database.exists_of_selectX509SEARCHID hsearch
  have hid := (hdb.x509 row hrow).1
  have hdescribes := (X509Row.isSearched_iff.mp hsearched).2
  have hneg : ¬ row.x509Id < 0 := by omega
  have hagain : ∀ id : ℤ,
      (save none db (msg.setX509ID id)).db = db.insertEml (msg.setX509ID row.x509Id) := by
    intro id
    have hsearch' : db.selectX509SEARCHID (msg.setX509ID id) = some row.x509Id := hsearch
    rw [save_none_found hid hsearch', Message.setX509ID_setX509ID]
  -- the database fails before anything is changed
  have hstopped : ∃ id : ℤ, save (some fail) db msg = ⟨db, msg.setX509ID id, false⟩ := by
    by_cases h1 : fail = .searchX509ID
    · exact ⟨msg.x509Id, by rw [save, if_pos (by rw [h1])]; rfl⟩
    · by_cases h2 : fail = .insertEml
      · exact ⟨row.x509Id, by simp [save, hsearch, hneg, saveEml, h2]⟩
      · simp [save, hsearch, hneg, saveEml, h1, h2] at hfail
  obtain ⟨id, hstopped⟩ := hstopped
  have hretry : afterRetry fail fresh db msg = db.insertEml (msg.setX509ID row.x509Id) := by
    rw [afterRetry, hstopped, again]
    split_ifs
    · exact hagain _
    · exact hagain _
  rw [hretry, archived_insertEml_iff, HasContents]
  exact and_iff_right ⟨row, hrow, rfl, hdescribes⟩

/-- The object has an identifier, and no row is found. -/
theorem archived_stale_iff {db : Database} {msg : Message} {fail : Statement}
    (hfail : (save (some fail) db msg).saved = false) (fresh : Bool) (hid : 0 ≤ msg.x509Id)
    (hsearch : db.selectX509SEARCHID msg = none) :
    Archived (afterRetry fail fresh db msg) msg ↔ fresh = true ∨ HasContents db msg msg.x509Id := by
  have hneg : ¬ msg.x509Id < 0 := by omega
  have hstopped : save (some fail) db msg = ⟨db, msg, false⟩ := by
    by_cases h1 : fail = .searchX509ID
    · rw [save, if_pos (by rw [h1])]
    · by_cases h2 : fail = .insertEml
      · simp [save, hsearch, hneg, saveEml, h2]
        rfl
      · simp [save, hsearch, hneg, saveEml, h1, h2] at hfail
  rw [afterRetry, hstopped, again]
  cases fresh with
  | false =>
    have hagain : (save none db msg).db = db.insertEml (msg.setX509ID msg.x509Id) := by
      simp [save, hsearch, hneg, saveEml]
    rw [if_neg Bool.false_ne_true, hagain, archived_insertEml_iff]
    simp
  | true =>
    rw [if_pos rfl, save_new_archive hsearch]
    exact iff_of_true (archived_archive db msg) (Or.inl rfl)

section New

variable {db : Database} (hdb : db.WF) {msg : Message} (hid : msg.x509Id < 0)
  (hsearch : db.selectX509SEARCHID msg = none) (fresh : Bool)

include hsearch

/-- The database fails before the message has an identifier. -/
theorem archived_early {fail : Statement} (hsave : save (some fail) db msg = ⟨db, msg, false⟩)
    (hid : msg.x509Id < 0) : Archived (afterRetry fail fresh db msg) msg := by
  rw [afterRetry, hsave, again]
  split_ifs
  · rw [save_new_archive hsearch]
    exact archived_archive db msg
  · rw [save_none_new hid hsearch]
    exact archived_archive db msg

include hdb hid

/-- The row is not inserted: the object keeps an identifier that stands for nothing. -/
theorem archived_insertX509_iff :
    Archived (afterRetry .insertX509 fresh db msg) msg ↔ fresh = true := by
  have hsave : save (some .insertX509) db msg
      = ⟨{ db with seq := db.seq + 1 }, msg.setX509ID db.seq, false⟩ := by
    simp [save, hsearch, hid]
  have hsearch' : Database.selectX509SEARCHID msg { db with seq := db.seq + 1 } = none := hsearch
  rw [afterRetry, hsave, again]
  cases fresh with
  | false =>
    have hneg : ¬ db.seq < 0 := by
      have := hdb.seq
      omega
    have hagain : (save none { db with seq := db.seq + 1 } (msg.setX509ID db.seq)).db
        = Database.insertEml (msg.setX509ID db.seq) { db with seq := db.seq + 1 } := by
      simp [save, selectX509SEARCHID_setX509ID, hsearch', hneg, saveEml]
    rw [if_neg Bool.false_ne_true, hagain, archived_insertEml_iff]
    refine iff_of_false ?_ Bool.false_ne_true
    rintro ⟨⟨row, hrow, hrowId, -⟩, -⟩
    have hlt := (hdb.x509 row hrow).2
    omega
  | true =>
    rw [if_pos rfl, save_new_archive hsearch']
    exact iff_of_true (archived_archive _ msg) rfl

/-- The letter is not stored, all the rest is done. -/
theorem archived_insertEml_stopped : Archived (afterRetry .insertEml fresh db msg) msg := by
  have hloop : saveSerialX509 (some .insertEml) (msg.setX509ID db.seq) (withRow db msg)
      = (Database.insertContents (msg.setX509ID db.seq) { db with seq := db.seq + 1 }, true) :=
    saveSerialX509_eq (by simp) _ _
  have hsave := save_new_letter hid hsearch (by simp) hloop
  rw [saveEml, if_pos rfl] at hsave
  have hcontents := hasContents_setX509ID.mp
    (hasContents_insertContents { db with seq := db.seq + 1 } (msg.setX509ID db.seq))
  obtain ⟨p, hx509⟩ := insertContents_updateWhere { db with seq := db.seq + 1 } (msg.setX509ID db.seq)
  have hinserted := inserted_of_updateWhere hsearch hx509
  rw [afterRetry, hsave]
  exact (hinserted.archived_again_iff hdb.seq fresh).mpr (Or.inr hcontents.2)

/-- The loop is stopped when it has applied the numbers `applied` and stored the numbers `stored` after them. -/
theorem archived_stopped_iff (htype : msg.x509Type = some X509_CRL) {fail : Statement}
    (hfail : fail ≠ .searchX509ID ∧ fail ≠ .getNewX509ID ∧ fail ≠ .insertX509) {db' : Database}
    {applied stored : List JString}
    (hloop : saveSerials (some fail) (msg.setX509ID db.seq) (withRow db msg) 0 msg.x509Serial = (db', false))
    (hserialR : db'.serialR = db.serialR ++ (applied ++ stored).map (SerialRow.mk db.seq))
    (hx509 : db'.x509 = updateWhere (fun row => decide (row.serial ∈ applied) && row.isCertificate)
      (fun row => { row with dateRL := msg.x509BeginDate })
      (db.x509 ++ [setX509 (msg.setX509ID db.seq)])) :
    Archived (afterRetry fail fresh db msg) msg
      ↔ (fresh = true ∧ ¬ Searchable msg)
        ∨ ∀ serial ∈ msg.x509Serial, serial ∈ applied ∨ (serial ∈ stored ∧ Revoked db msg serial) := by
  have htype' : (msg.setX509ID db.seq).x509Type = some X509_CRL := htype
  have hsave := save_new_stopped hid hsearch hfail ((saveSerialX509_crl htype' _ _).trans hloop)
  have hinserted : Inserted db' msg db.seq := inserted_of_updateWhere hsearch hx509
  rw [afterRetry, hsave]
  refine (hinserted.archived_again_iff hdb.seq fresh).trans (or_congr_right ?_)
  exact applied_iff hdb htype applied stored hserialR hx509

/-- The loop is stopped when it stores a serial number. -/
theorem archived_insertSerialR_iff {k : ℕ}
    (hfail : (save (some (.insertSerialR k)) db msg).saved = false) :
    Archived (afterRetry (.insertSerialR k) fresh db msg) msg
      ↔ (fresh = true ∧ ¬ Searchable msg)
        ∨ ∀ serial ∈ msg.x509Serial, serial ∈ msg.x509Serial.take k := by
  obtain ⟨htype, hk⟩ := reached_of_stopped hid hsearch (Or.inl rfl) hfail
  have hloop := saveSerials_insertSerialR (msg.setX509ID db.seq) (i := 0) hk (withRow db msg)
  rw [Nat.zero_add] at hloop
  have hserialR : ((withRow db msg).applySerials db.seq msg.x509BeginDate (msg.x509Serial.take k)).serialR
      = db.serialR ++ (msg.x509Serial.take k ++ []).map (SerialRow.mk db.seq) := by
    rw [List.append_nil]
    rfl
  rw [archived_stopped_iff hdb hid hsearch fresh htype (by simp) hloop hserialR rfl]
  simp

/-- The loop is stopped when it revokes the certificates with a serial number. -/
theorem archived_updateRL_iff {k : ℕ}
    (hfail : (save (some (.updateRL k)) db msg).saved = false) :
    Archived (afterRetry (.updateRL k) fresh db msg) msg
      ↔ (fresh = true ∧ ¬ Searchable msg)
        ∨ ∀ serial ∈ msg.x509Serial, serial ∈ msg.x509Serial.take k
          ∨ (msg.x509Serial[k]? = some serial ∧ Revoked db msg serial) := by
  obtain ⟨htype, hk⟩ := reached_of_stopped hid hsearch (Or.inr rfl) hfail
  have hloop := saveSerials_updateRL (msg.setX509ID db.seq) (i := 0) hk (withRow db msg)
  rw [Nat.zero_add] at hloop
  have hserialR : (((withRow db msg).applySerials db.seq msg.x509BeginDate
        (msg.x509Serial.take k)).insertSerialR db.seq msg.x509Serial[k]).serialR
      = db.serialR ++ (msg.x509Serial.take k ++ [msg.x509Serial[k]]).map (SerialRow.mk db.seq) := by
    show (db.serialR ++ (msg.x509Serial.take k).map (SerialRow.mk db.seq)) ++ [⟨db.seq, msg.x509Serial[k]⟩] = _
    rw [List.map_append, List.append_assoc]
    rfl
  rw [archived_stopped_iff hdb hid hsearch fresh htype (by simp) hloop hserialR rfl]
  simp only [List.mem_singleton, List.getElem?_eq_getElem hk, Option.some.injEq, eq_comm]

end New

/-- After a `save` that the database stopped at any of its statements and a second one without an error,
the message is archived exactly in the cases of `RetrySafe`. -/
theorem archived_retry_iff {db : Database} (hdb : db.WF) {msg : Message} {fail : Statement}
    (hfail : (save (some fail) db msg).saved = false) (fresh : Bool) :
    Archived (afterRetry fail fresh db msg) msg ↔ RetrySafe fail fresh db msg := by
  unfold RetrySafe
  split
  · rename_i x509Id hsearch
    exact archived_found_iff hdb hfail fresh hsearch
  · rename_i hsearch
    split_ifs with hid
    · exact archived_stale_iff hfail fresh hid hsearch
    · have hid : msg.x509Id < 0 := by omega
      cases fail with
      | searchX509ID =>
        have hsave : save (some .searchX509ID) db msg = ⟨db, msg, false⟩ := rfl
        exact iff_of_true (archived_early hsearch fresh hsave hid) trivial
      | getNewX509ID =>
        have hsave : save (some .getNewX509ID) db msg = ⟨db, msg, false⟩ := by
          simp [save, hsearch, hid]
          rfl
        exact iff_of_true (archived_early hsearch fresh hsave hid) trivial
      | insertX509 => exact archived_insertX509_iff hdb hid hsearch fresh
      | insertSerialR k => exact archived_insertSerialR_iff hdb hid hsearch fresh hfail
      | updateRL k => exact archived_updateRL_iff hdb hid hsearch fresh hfail
      | insertEml => exact iff_of_true (archived_insertEml_stopped hdb hid hsearch fresh) trivial

/-- A revocation list that lists the serial number `5`. -/
def list5 : Message :=
  { Message.new 0 with
    x509Type := some X509_CRL, x509BeginDate := some 2, x509EndDate := some 8
    x509Serial := ["5".toList], x509Subject := some "CN=ca".toList
    x509Issuer := some "CN=ca".toList, bodyBin64 := "MIIC".toList }

/-- The database fails at the letter, and the same object is saved again. -/
theorem archived_retry_letter : Archived (afterRetry .insertEml false .create list5) list5 :=
  (archived_retry_iff Database.WF.create (by decide) false).mpr trivial

/-- The database fails at the serial number, and the list is parsed and saved again: its row is found, and
the number is never stored. -/
theorem not_archived_retry_serial :
    ¬ ∀ (db : Database) (msg : Message) (fail : Statement) (fresh : Bool), db.WF →
      (save (some fail) db msg).saved = false → Archived (afterRetry fail fresh db msg) msg := by
  intro h
  obtain ⟨x509Id, mailUid, ⟨-, happlied⟩, -⟩ :=
    h .create list5 (.insertSerialR 0) true Database.WF.create (by decide)
  have hstored := (happlied rfl "5".toList (by decide)).1
  have hnone : (afterRetry (.insertSerialR 0) true .create list5).serialR = [] := by decide
  rw [hnone] at hstored
  exact absurd hstored (List.not_mem_nil)

end OrgLittle.MailWeb
