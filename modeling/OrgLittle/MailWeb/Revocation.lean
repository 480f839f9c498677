import OrgLittle.MailWeb.FolderDB

/-!
# Revocation marks and the order of arrival

A revocation list marks the certificates that are in the archive when it is saved, by their serial number
alone. A certificate that comes later stays unmarked, and a certificate of another issuer with the same
number is marked too. `revocationCorrect_iff` says for which sequences of files the marks are right in
the end. The issuer is the distinguished name in the file: the archive has it as a text, which one library
prints for a PEM file and another for a DER file.
-/

namespace OrgLittle.MailWeb

open OrgLittle.Java OrgLittle.Lmsg OrgLittle.Lib.Sql

/-! ## Certificates and revocation lists -/

/-- What the parsers make of a certificate: it has one serial number. -/
def IsCertificate (msg : Message) : Prop :=
  msg.x509Type = some X509_CERTIFICATE ∧ ∃ serial, msg.x509Serial = [serial]

/-- What the parsers make of a revocation list: it has a date. -/
def IsCRL (msg : Message) : Prop :=
  msg.x509Type = some X509_CRL ∧ msg.x509BeginDate.isSome

/-- `X500Name.toString`, of BouncyCastle for a PEM file and of the JDK for a DER file. -/
structure NamePrinter (δ : Type*) where
  pem : δ → JString
  der : δ → JString

section Names

variable {δ : Type*}

/-- What the parsers make of the name of the issuer. -/
def PrintsIssuer (printer : NamePrinter δ) (issuer : δ) (msg : Message) : Prop :=
  msg.x509TypeFile = some "PEM".toList ∧ msg.x509Issuer = some (printer.pem issuer)
    ∨ msg.x509TypeFile = some "DER".toList ∧ msg.x509Issuer = some (printer.der issuer)

/-- A certificate or a revocation list on its way into the archive, with the distinguished name of its issuer. -/
structure Document (printer : NamePrinter δ) where
  msg : Message
  issuer : δ
  fresh : msg.x509Id < 0
  wellFormed : IsCertificate msg ∨ IsCRL msg
  printed : PrintsIssuer printer issuer msg

variable {printer : NamePrinter δ}

namespace Document

/-- The document is a revocation list that lists the serial number. -/
def Lists (d : Document printer) (serial : JString) : Prop := IsCRL d.msg ∧ serial ∈ d.msg.x509Serial

theorem isCRL_iff (d : Document printer) : IsCRL d.msg ↔ d.msg.x509Type = some X509_CRL := by
  refine ⟨fun h => h.1, fun htype => ?_⟩
  rcases d.wellFormed with hcert | hcrl
  · rw [hcert.1, Option.some.injEq] at htype
    exact absurd htype (by decide)
  · exact hcrl

/-- A row is marked after the document if it was before, or if the document lists it. -/
theorem revoke_dateRL (d : Document printer) {row : X509Row} (hrow : row.isCertificate = true) :
    (revoke d.msg row).dateRL.isSome = true ↔ row.dateRL.isSome = true ∨ d.Lists row.serial := by
  by_cases htype : d.msg.x509Type = some X509_CRL
  · have hcrl := d.isCRL_iff.mpr htype
    by_cases hserial : row.serial ∈ d.msg.x509Serial
    · simp [revoke, htype, hserial, hrow, Lists, hcrl, hcrl.2]
    · simp [revoke, hserial, Lists]
  · simp [revoke, htype, Lists, d.isCRL_iff]

end Document

/-- The marks that the documents leave on a row, one after the other. -/
def mark (docs : List (Document printer)) (row : X509Row) : X509Row :=
  docs.foldl (fun row d => revoke d.msg row) row

theorem mark_eq (docs : List (Document printer)) (row : X509Row) :
    ∃ date, mark docs row = { row with dateRL := date } := by
  induction docs generalizing row with
  | nil => exact ⟨row.dateRL, rfl⟩
  | cons d docs ih =>
    obtain ⟨date, hrevoke⟩ := revoke_eq d.msg row
    obtain ⟨date', hmark⟩ := ih (revoke d.msg row)
    refine ⟨date', ?_⟩
    show mark docs (revoke d.msg row) = _
    rw [hmark, hrevoke]

theorem mark_dateRL (docs : List (Document printer)) {row : X509Row} (hrow : row.isCertificate = true) :
    (mark docs row).dateRL.isSome = true
      ↔ row.dateRL.isSome = true ∨ ∃ d ∈ docs, d.Lists row.serial := by
  induction docs generalizing row with
  | nil => simp [mark]
  | cons d docs ih =>
    obtain ⟨date, hrevoke⟩ := revoke_eq d.msg row
    have hcert : (revoke d.msg row).isCertificate = true := by
      rw [hrevoke]
      exact hrow
    have hserial : (revoke d.msg row).serial = row.serial := by rw [hrevoke]
    have hrest := ih hcert
    rw [hserial, d.revoke_dateRL hrow] at hrest
    show (mark docs (revoke d.msg row)).dateRL.isSome = true ↔ _
    rw [hrest, List.exists_mem_cons_iff, or_assoc]

/-! ## The archive after a run -/

/-- The documents are saved one after the other. -/
def archiveAll (db : Database) (docs : List (Document printer)) : Database :=
  docs.foldl (fun db d => (save none db d.msg).db) db

/-- The row that a document becomes. -/
def Document.row (d : Document printer) (x509Id : ℤ) : X509Row := setX509 (d.msg.setX509ID x509Id)

/-- The rows of the documents at the end of the run; each is marked by the documents after it. -/
def newRows : ℤ → List (Document printer) → List X509Row
  | _, [] => []
  | seq, d :: docs => mark docs (d.row seq) :: newRows (seq + 2) docs

/-- A run of documents that are not in the archive yet. -/
theorem archiveAll_x509 (db : Database) {docs : List (Document printer)}
    (honce : (docs.map (·.msg.bodyBin64)).Nodup)
    (hnew : ∀ row ∈ db.x509, ∀ d ∈ docs, row.bin ≠ d.msg.bodyBin64) :
    (archiveAll db docs).x509 = db.x509.map (mark docs) ++ newRows db.seq docs := by
  induction docs generalizing db with
  | nil =>
    have hmark : mark ([] : List (Document printer)) = id := rfl
    rw [hmark, List.map_id, newRows, List.append_nil]
    rfl
  | cons d docs ih =>
    rw [List.map_cons, List.nodup_cons] at honce
    have hsearch : db.selectX509SEARCHID d.msg = none := by
      refine Database.selectX509SEARCHID_eq_none.mpr fun row hrow => ?_
      have hbin := hnew row hrow d List.mem_cons_self
      rw [← Bool.not_eq_true, X509Row.isSearched_iff]
      rintro ⟨-, hdescribes⟩
      exact hbin hdescribes.bin
    have hsave : (save none db d.msg).db = db.archive d.msg := by rw [save_none_new d.fresh hsearch]
    have hnew' : ∀ row ∈ (db.archive d.msg).x509, ∀ d' ∈ docs, row.bin ≠ d'.msg.bodyBin64 := by
      intro row hrow d' hd'
      rw [Database.archive_x509, List.mem_append, List.mem_map, List.mem_singleton] at hrow
      rcases hrow with ⟨row', hrow', rfl⟩ | rfl
      · obtain ⟨date, hrevoke⟩ := revoke_eq d.msg row'
        rw [hrevoke]
        exact hnew row' hrow' d' (List.mem_cons_of_mem d hd')
      · exact fun heq => honce.1 (List.mem_map.mpr ⟨d', hd', heq.symm⟩)
    have hrest := ih (db.archive d.msg) honce.2 hnew'
    show (archiveAll (save none db d.msg).db docs).x509 = _
    rw [hsave, hrest, Database.archive_x509, Database.archive_seq, List.map_append, List.map_map,
      List.append_assoc]
    rfl

/-- Every document has a row, which the documents after it have marked. -/
theorem mem_newRows {seq : ℤ} {docs : List (Document printer)} {row : X509Row} :
    row ∈ newRows seq docs
      ↔ ∃ pre d post, docs = pre ++ d :: post
        ∧ row = mark post (d.row (seq + 2 * pre.length)) := by
  induction docs generalizing seq with
  | nil => simp [newRows]
  | cons d docs ih =>
    rw [newRows, List.mem_cons, ih]
    constructor
    · rintro (rfl | ⟨pre, d', post, rfl, rfl⟩)
      · exact ⟨[], d, docs, rfl, by simp⟩
      · have hid : seq + 2 * ((d :: pre).length : ℤ) = seq + 2 + 2 * (pre.length : ℤ) := by
          rw [List.length_cons]
          omega
        exact ⟨d :: pre, d', post, rfl, by rw [hid]⟩
    · rintro ⟨pre, d', post, hdocs, rfl⟩
      rcases pre with _ | ⟨d₀, pre⟩
      · obtain ⟨rfl, rfl⟩ := List.cons.inj hdocs
        exact Or.inl (by simp)
      · obtain ⟨rfl, rfl⟩ := List.cons.inj hdocs
        have hid : seq + 2 * ((d :: pre).length : ℤ) = seq + 2 + 2 * (pre.length : ℤ) := by
          rw [List.length_cons]
          omega
        exact Or.inr ⟨pre, d', post, rfl, by rw [hid]⟩

/-! ## When the marks are right -/

/-- The row of a certificate is marked exactly if a revocation list of its issuer in the archive lists it. -/
def RevocationCorrect (docs : List (Document printer)) : Prop :=
  ∀ c ∈ docs, ∀ row ∈ (archiveAll .create docs).x509, row.bin = c.msg.bodyBin64 → row.isCertificate = true →
    (row.dateRL.isSome = true ↔ ∃ d ∈ docs, d.Lists row.serial ∧ d.issuer = c.issuer)

/-- For documents that are saved once each, the marks are right exactly if for every certificate, one of
the revocation lists saved after it lists its serial number just when a list of its own issuer does,
saved at any time. -/
theorem revocationCorrect_iff {docs : List (Document printer)}
    (honce : (docs.map (·.msg.bodyBin64)).Nodup) :
    RevocationCorrect docs
      ↔ ∀ pre c post, docs = pre ++ c :: post → IsCertificate c.msg →
        ((∃ d ∈ post, d.Lists c.msg.getX509Serials)
          ↔ ∃ d ∈ docs, d.Lists c.msg.getX509Serials ∧ d.issuer = c.issuer) := by
  have hx509 : (archiveAll .create docs).x509 = newRows 1000 docs :=
    archiveAll_x509 .create honce (by simp [Database.create])
  -- what is known of the row of a document
  have hrow : ∀ (post : List (Document printer)) (c : Document printer) (id : ℤ),
      (mark post (c.row id)).isCertificate = sqlEq c.msg.x509Type (some X509_CERTIFICATE)
      ∧ (mark post (c.row id)).serial = c.msg.getX509Serials
      ∧ (mark post (c.row id)).bin = c.msg.bodyBin64 := by
    intro post c id
    obtain ⟨date, hmark⟩ := mark_eq post (c.row id)
    rw [hmark]
    exact ⟨rfl, rfl, rfl⟩
  have hmarked : ∀ (post : List (Document printer)) (c : Document printer) (id : ℤ), IsCertificate c.msg →
      ((mark post (c.row id)).dateRL.isSome = true ↔ ∃ d ∈ post, d.Lists c.msg.getX509Serials) := by
    intro post c id hc
    have hcert : (c.row id).isCertificate = true := by
      rw [X509Row.isCertificate, Document.row, setX509_type, Message.setX509ID_x509Type, hc.1]
      decide
    have hdate := mark_dateRL post hcert
    simpa [Document.row] using hdate
  unfold RevocationCorrect
  rw [hx509]
  constructor
  · intro h pre c post hdocs hc
    obtain ⟨hcert, hserial, hbin⟩ := hrow post c (1000 + 2 * pre.length)
    have hmem : mark post (c.row (1000 + 2 * pre.length)) ∈ newRows 1000 docs :=
      mem_newRows.mpr ⟨pre, c, post, hdocs, rfl⟩
    have hcorrect := h c (hdocs ▸ List.mem_append_right pre List.mem_cons_self) _ hmem hbin
      (by rw [hcert, hc.1]; decide)
    rwa [hmarked post c _ hc, hserial] at hcorrect
  · intro h c hc row hmem hbin hcert
    obtain ⟨pre, c', post, hdocs, rfl⟩ := mem_newRows.mp hmem
    obtain ⟨hcert', hserial, hbin'⟩ := hrow post c' (1000 + 2 * pre.length)
    -- the bytes of a file tell whose row it is
    obtain rfl : c' = c :=
      List.inj_on_of_nodup_map honce (hdocs ▸ List.mem_append_right pre List.mem_cons_self) hc
        (hbin'.symm.trans hbin)
    have hcertificate : IsCertificate c'.msg := by
      refine c'.wellFormed.resolve_right fun hcrl => ?_
      rw [hcert', hcrl.1] at hcert
      exact absurd hcert (by decide)
    rw [hmarked post c' _ hcertificate, hserial]
    exact h pre c' post hdocs hcertificate

end Names

/-- Names that are printed as the two libraries do: BouncyCastle in the order of the file, the JDK from the end. -/
def NamePrinter.relativeNames : NamePrinter (List JString) where
  pem names := List.intercalate ",".toList names
  der names := List.intercalate ", ".toList names.reverse

/-- The name of an authority. -/
def authority : List JString := ["C=ru".toList, "CN=ca".toList]

/-- A certificate with the serial number `5`, as a DER file. -/
def certificate5 : Document .relativeNames where
  msg := { Message.new 0 with
    x509Type := some X509_CERTIFICATE, x509TypeFile := some "DER".toList
    x509BeginDate := some 1, x509EndDate := some 9
    x509Serial := ["5".toList], x509Issuer := some "CN=ca, C=ru".toList, bodyBin64 := "MIIB".toList }
  issuer := authority
  fresh := by decide
  wellFormed := Or.inl ⟨rfl, _, rfl⟩
  printed := Or.inr ⟨rfl, by decide⟩

/-- A revocation list of the issuer of that certificate, which lists it, as a PEM file. -/
def crl5 : Document .relativeNames where
  msg := { Message.new 0 with
    x509Type := some X509_CRL, x509TypeFile := some "PEM".toList
    x509BeginDate := some 2, x509EndDate := some 8
    x509Serial := ["5".toList], x509Issuer := some "C=ru,CN=ca".toList, bodyBin64 := "MIIC".toList }
  issuer := authority
  fresh := by decide
  wellFormed := Or.inr ⟨rfl, rfl⟩
  printed := Or.inl ⟨rfl, by decide⟩

/-- The revocation list comes after the certificate. -/
theorem revocationCorrect_crl_last : RevocationCorrect [certificate5, crl5] := by
  refine (revocationCorrect_iff (by decide)).mpr fun pre c post hdocs hc => ?_
  have hlists : crl5.Lists certificate5.msg.getX509Serials := ⟨⟨rfl, rfl⟩, by decide⟩
  rcases pre with _ | ⟨d, pre⟩
  · obtain ⟨rfl, rfl⟩ := List.cons.inj hdocs
    exact ⟨fun _ => ⟨crl5, by simp, hlists, rfl⟩, fun _ => ⟨crl5, by simp, hlists⟩⟩
  · have hc' : c ∈ [crl5] := by
      rw [(List.cons.inj hdocs).2]
      simp
    rw [List.mem_singleton.mp hc', IsCertificate] at hc
    exact absurd hc.1 (by decide)

/-- The revocation list comes before the certificate, which stays unmarked. -/
theorem not_revocationCorrect_crl_first :
    ¬ ∀ docs : List (Document .relativeNames), (docs.map (·.msg.bodyBin64)).Nodup → RevocationCorrect docs := by
  intro h
  have hrow : certificate5.row 1002 ∈ (archiveAll .create [crl5, certificate5]).x509 := by decide
  have hiff := h [crl5, certificate5] (by decide) certificate5 (by simp) _ hrow rfl (by decide)
  have hlists : crl5.Lists (certificate5.row 1002).serial := ⟨⟨rfl, rfl⟩, by decide⟩
  exact absurd (hiff.mpr ⟨crl5, by simp, hlists, rfl⟩) (by decide)

end OrgLittle.MailWeb
