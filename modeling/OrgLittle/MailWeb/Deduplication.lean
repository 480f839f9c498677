import OrgLittle.Lib.Machine
import OrgLittle.MailWeb.FolderDB

/-!
# One row for each file

`ImapLoadBox` takes the attachments out of the letters, unpacks archives, lets `lMessageX509` parse every
file and saves the files that it recognises. A file that comes again is found by the fields that the parser
has set. Two parsers spoil that: the one for PEM revocation lists dates the list with the clock, and the one
for PEM requests returns a request that it cannot read, without any dates. A DER revocation list without a
date for the next one has a `NULL` in the row. If no file is of these three kinds, every file has one row
(`deduplicates_of_reproducible`).
-/

namespace OrgLittle.MailWeb

open OrgLittle.Java OrgLittle.Lmsg OrgLittle.Lib OrgLittle.Util

/-! ## `ImapLoadBox` -/

/-- A part of a letter; `content` is `none` if it cannot be read. -/
structure BodyPart where
  contentType : JString
  fileName : Option JString
  content : Option (List UInt8)

/-- A letter, and what the clock shows while it is loaded: when the message objects are created, and for
each file when it is parsed. -/
structure Letter where
  from_ : Option JString
  recipients : List JString
  number : ℤ
  subject : Option JString
  sentDate : Option Date
  messageID : Option JString
  newID : JString
  contentType : JString
  multipart : Option (List BodyPart)
  created : Date
  received : Date
  clock : ℕ → Date × Date

/-- `ZipInputStream`: the entries up to the end or an exception, and whether the end is reached. -/
abbrev Unzip := List UInt8 → List (JString × List UInt8) × Bool

/-- A file of a letter on its way to the parser. -/
structure LetterFile where
  msg : Message
  filename : Option JString
  buf : List UInt8
  now : Date × Date

/-- `s.contains("TEXT/PLAIN")`. -/
def isTextPlain (contentType : JString) : Bool := contentType.tails.any fun s =>
  startsWith s "TEXT/PLAIN".toList

/-- The message of `parseMessage`, before the parts are looked at. -/
def Letter.message (letter : Letter) : Message :=
  { Message.new letter.created with
    from_ := some (letter.from_.getD [])
    to_ := letter.recipients
    uid := -1
    num := letter.number
    subject := letter.subject
    createDate := letter.sentDate
    sentDate := letter.sentDate
    receiveDate := some letter.received
    id := some (letter.messageID.getD letter.newID) }

/-- `ParsePart`: the entries of an archive. The attachment itself is tried if there are none, and if an
exception ends the archive. -/
def unpack (unzip : Unzip) (filename : Option JString) (buf : List UInt8) :
    List (Option JString × List UInt8) :=
  let (entries, ended) := unzip buf
  entries.map (fun entry => (some (Message.textOf filename ++ '|' :: entry.1), entry.2))
    ++ if ended && !entries.isEmpty then [] else [(filename, buf)]

/-- The files of a part. -/
def BodyPart.files (unzip : Unzip) (part : BodyPart) : List (Option JString × List UInt8) :=
  if isTextPlain part.contentType then []
  else
    match part.content with
    | none => []
    | some buf => unpack unzip part.fileName buf

/-- `parseMessage`: the files of a letter, in order. -/
def Letter.files (unzip : Unzip) (letter : Letter) : List LetterFile :=
  if isTextPlain letter.contentType then []
  else
    match letter.multipart with
    | none => []
    | some parts =>
      (parts.flatMap (·.files unzip)).mapIdx fun i file =>
        ⟨letter.message, file.1, file.2, letter.clock i⟩

/-- The message that `ParsePart` makes for one file. -/
def LetterFile.message (file : LetterFile) : Message :=
  ((file.msg.copy file.now.1).setFilename file.filename).setBodyBin (some file.buf)

/-- `ParsePart` for one file, up to the database: the message that is saved. -/
def LetterFile.parse (lib : X509Library) (file : LetterFile) : Option Message :=
  let (msg, ret) := Lmsg.parse lib file.now file.message
  if ret then some msg else none

/-- `ParsePart` for one file. -/
def archiveFile (lib : X509Library) (db : Database) (file : LetterFile) : Database :=
  match file.parse lib with
  | none => db
  | some msg => (save none db msg).db

/-- The archive, which takes one file after the other. -/
def loadBox (lib : X509Library) : Machine Database LetterFile Empty where
  step db file := (archiveFile lib db file, [])

/-! ## What a file leaves in a row -/

/-- The X.509 fields of a message that has not been parsed. -/
def noX509 : X509Info := (Message.new 0).x509Info

/-- The X.509 fields of a file, whenever it is parsed. -/
def fileInfo (lib : X509Library) (buf : List UInt8) : X509Info :=
  ((parseX509 lib buf (0, 0)).run noX509).2

/-- The message has the contents of the file. -/
structure IsFile (lib : X509Library) (buf : List UInt8) (msg : Message) : Prop where
  info : msg.x509Info = fileInfo lib buf
  bin : msg.bodyBin64 = Base64.byteArrayToBase64 buf

/-- The messages of one file fit the same rows. -/
theorem IsFile.describes {lib : X509Library} {buf : List UInt8} {msg msg' : Message}
    (h : IsFile lib buf msg) (h' : IsFile lib buf msg') {row : X509Row} (hrow : row.Describes msg) :
    row.Describes msg' := by
  have hinfo : msg.x509Info = msg'.x509Info := h.info.trans h'.info.symm
  simp only [Message.x509Info, X509Info.mk.injEq] at hinfo
  obtain ⟨htype, htypeFile, hbegin, hend, hserial, hsubject, hissuer⟩ := hinfo
  have hserials : msg.getX509Serials = msg'.getX509Serials := by
    rw [Message.getX509Serials, Message.getX509Serials, hserial]
  exact ⟨hrow.type.trans htype, hrow.typeFile.trans htypeFile, hrow.beginDate.trans hbegin,
    hrow.endDate.trans hend, hrow.serial.trans hserials, hrow.subject.trans hsubject,
    hrow.issuer.trans hissuer, hrow.bin.trans (h.bin.trans h'.bin.symm)⟩

/-- What is known of a message that is saved. -/
theorem LetterFile.parse_spec {lib : X509Library} {file : LetterFile}
    (hrep : Reproducible lib file.buf) (hfresh : file.msg.x509Info = noX509) {msg : Message}
    (h : file.parse lib = some msg) : IsFile lib file.buf msg ∧ Searchable msg ∧ msg.x509Id < 0 := by
  have hinfo : file.message.x509Info = noX509 := hfresh
  rw [LetterFile.parse] at h
  dsimp only at h
  by_cases hret : (Lmsg.parse lib file.now file.message).2 = true
  · rw [if_pos hret, Option.some.injEq] at h
    subst h
    obtain ⟨htrue, hfields, hbin, hid⟩ := parse_returned rfl hret
    rw [hinfo] at htrue hfields
    have hcomplete := parseX509_complete hrep file.now noX509 htrue
    rw [← hfields] at hcomplete
    rw [parseX509_now hrep file.now (0, 0)] at hfields
    refine ⟨⟨hfields, hbin⟩, ?_, ?_⟩
    · exact ⟨hcomplete.type, hcomplete.typeFile, hcomplete.beginDate, hcomplete.endDate,
        hcomplete.subject, hcomplete.issuer⟩
    · rw [hid]
      show (-1 : ℤ) < 0
      omega
  · rw [if_neg hret] at h
    cases h

theorem X509Row.Describes.revoke {row : X509Row} {msg : Message} (h : row.Describes msg)
    (msg' : Message) : (revoke msg' row).Describes msg := by
  obtain ⟨date, hrevoke⟩ := revoke_eq msg' row
  rw [hrevoke]
  exact ⟨h.type, h.typeFile, h.beginDate, h.endDate, h.serial, h.subject, h.issuer, h.bin⟩

/-- Every row is that of a file that is read in the same way every time, and no two rows are of one file. -/
structure OneRowEach (lib : X509Library) (db : Database) : Prop where
  wf : db.WF
  rows : ∀ row ∈ db.x509, ∃ buf msg, IsFile lib buf msg ∧ row.Describes msg
  bins : (db.x509.map (·.bin)).Nodup

namespace OneRowEach

variable {lib : X509Library} {db : Database}

theorem create (lib : X509Library) : OneRowEach lib .create :=
  ⟨Database.WF.create, by simp [Database.create], by simp [Database.create]⟩

/-- The bytes decide the other columns. -/
theorem describes (h : OneRowEach lib db) {row : X509Row} (hrow : row ∈ db.x509) {buf : List UInt8}
    {msg : Message} (hmsg : IsFile lib buf msg) (hbin : row.bin = msg.bodyBin64) :
    row.Describes msg := by
  obtain ⟨buf', msg', hmsg', hdescribes⟩ := h.rows row hrow
  have hbuf : buf' = buf := by
    apply Base64.byteArrayToBase64_injective
    rw [← hmsg'.bin, ← hdescribes.bin, hbin, hmsg.bin]
  subst hbuf
  exact hmsg'.describes hmsg hdescribes

/-- A file that has a row is found. -/
theorem selectX509SEARCHID (h : OneRowEach lib db) {row : X509Row} (hrow : row ∈ db.x509)
    {buf : List UInt8} {msg : Message} (hmsg : IsFile lib buf msg) (hsearchable : Searchable msg)
    (hbin : row.bin = msg.bodyBin64) : db.selectX509SEARCHID msg = some row.x509Id := by
  have hfound : row.isSearched msg = true :=
    X509Row.isSearched_iff.mpr ⟨hsearchable, h.describes hrow hmsg hbin⟩
  rcases hid : db.selectX509SEARCHID msg with _ | id
  · rw [Database.selectX509SEARCHID_eq_none.mp hid row hrow] at hfound
    cases hfound
  · obtain ⟨row', hrow', hfound', rfl⟩ := Database.exists_of_selectX509SEARCHID hid
    have hbin' := (X509Row.isSearched_iff.mp hfound').2.bin
    rw [List.inj_on_of_nodup_map h.bins hrow hrow' (hbin.trans hbin'.symm)]

/-- Saving a file that has no row makes one. -/
theorem archive (h : OneRowEach lib db) {buf : List UInt8} {msg : Message} (hmsg : IsFile lib buf msg)
    (hnew : ∀ row ∈ db.x509, row.bin ≠ msg.bodyBin64) (hwf : (db.archive msg).WF) :
    OneRowEach lib (db.archive msg) := by
  refine ⟨hwf, ?_, ?_⟩
  · intro row hrow
    rw [Database.archive_x509, List.mem_append, List.mem_map, List.mem_singleton] at hrow
    rcases hrow with ⟨row', hrow', rfl⟩ | rfl
    · obtain ⟨buf', msg', hmsg', hdescribes⟩ := h.rows row' hrow'
      exact ⟨buf', msg', hmsg', hdescribes.revoke msg⟩
    · exact ⟨buf, msg.setX509ID db.seq, ⟨hmsg.info, hmsg.bin⟩, setX509_describes _⟩
  · rw [Database.archive_x509, List.map_append, List.map_map, List.map_singleton, List.nodup_append]
    have hbins : (fun row : X509Row => row.bin) ∘ revoke msg = fun row => row.bin := by
      funext row
      obtain ⟨date, hrevoke⟩ := revoke_eq msg row
      rw [Function.comp_apply, hrevoke]
    rw [hbins]
    refine ⟨h.bins, by simp, fun bin hmem bin' hbin' => ?_⟩
    obtain ⟨row, hrow, rfl⟩ := List.mem_map.mp hmem
    rw [List.mem_singleton.mp hbin']
    exact hnew row hrow

theorem save (h : OneRowEach lib db) {buf : List UInt8} {msg : Message} (hmsg : IsFile lib buf msg)
    (hsearchable : Searchable msg) (hid : msg.x509Id < 0) :
    OneRowEach lib (MailWeb.save none db msg).db := by
  have hwf := save_wf h.wf none msg
  rcases hsearch : db.selectX509SEARCHID msg with _ | id
  · rw [save_none_new hid hsearch] at hwf ⊢
    refine h.archive hmsg (fun row hrow hbin => ?_) hwf
    rw [h.selectX509SEARCHID hrow hmsg hsearchable hbin] at hsearch
    cases hsearch
  · obtain ⟨row, hrow, -, rfl⟩ := Database.exists_of_selectX509SEARCHID hsearch
    rw [save_none_found (h.wf.x509 row hrow).1 hsearch] at hwf ⊢
    exact ⟨hwf, h.rows, h.bins⟩

end OneRowEach

/-! ## Runs -/

/-- After the file is archived, no two rows have the same bytes and type; and if there was a row with the
bytes and the type of the file, the file has got the identifier of that row and the table is as it was. -/
structure Deduplicates (lib : X509Library) (db : Database) (file : LetterFile) : Prop where
  distinct : ((archiveFile lib db file).x509.map fun row => (row.bin, row.type)).Nodup
  reused : ∀ msg, file.parse lib = some msg → ∀ row ∈ db.x509, row.bin = msg.bodyBin64 →
    row.type = msg.x509Type →
      (save none db msg).msg.x509Id = row.x509Id ∧ (save none db msg).db.x509 = db.x509

section steps

variable {lib : X509Library} {db : Database} {file : LetterFile}

theorem OneRowEach.archiveFile (h : OneRowEach lib db) (hrep : Reproducible lib file.buf)
    (hfresh : file.msg.x509Info = noX509) : OneRowEach lib (archiveFile lib db file) := by
  unfold MailWeb.archiveFile
  rcases hmsg : file.parse lib with _ | msg
  · exact h
  · obtain ⟨hfile, hsearchable, hid⟩ := LetterFile.parse_spec hrep hfresh hmsg
    exact h.save hfile hsearchable hid

theorem OneRowEach.deduplicates (h : OneRowEach lib db) (hrep : Reproducible lib file.buf)
    (hfresh : file.msg.x509Info = noX509) : Deduplicates lib db file := by
  refine ⟨?_, fun msg hmsg row hrow hbin _ => ?_⟩
  · apply List.Nodup.of_map Prod.fst
    rw [List.map_map]
    exact (h.archiveFile hrep hfresh).bins
  · obtain ⟨hfile, hsearchable, -⟩ := LetterFile.parse_spec hrep hfresh hmsg
    rw [save_none_found (h.wf.x509 row hrow).1 (h.selectX509SEARCHID hrow hfile hsearchable hbin)]
    exact ⟨rfl, rfl⟩

end steps

theorem Letter.files_fresh (unzip : Unzip) (letter : Letter) :
    ∀ file ∈ letter.files unzip, file.msg.x509Info = noX509 := by
  unfold Letter.files
  split_ifs
  · simp
  · rcases letter.multipart with _ | parts
    · simp
    · intro file hfile
      obtain ⟨i, hi, rfl⟩ := List.mem_mapIdx.mp hfile
      rfl

/-- If every file of the letters is read in the same way every time, each has one row in every state that is
reached, and a file that comes again gets the identifier of its row. -/
theorem deduplicates_of_reproducible (lib : X509Library) (unzip : Unzip) {letters : List Letter}
    (h : ∀ letter ∈ letters, ∀ file ∈ letter.files unzip, Reproducible lib file.buf) :
    (loadBox lib).Along (Deduplicates lib) .create (letters.flatMap (·.files unzip)) := by
  have hfiles : ∀ file ∈ letters.flatMap (·.files unzip),
      Reproducible lib file.buf ∧ file.msg.x509Info = noX509 := by
    intro file hfile
    obtain ⟨letter, hletter, hfile⟩ := List.mem_flatMap.mp hfile
    exact ⟨h letter hletter file hfile, letter.files_fresh unzip file hfile⟩
  have hstep : ∀ db file, OneRowEach lib db →
      Reproducible lib file.buf ∧ file.msg.x509Info = noX509 →
        OneRowEach lib ((loadBox lib).step db file).1 :=
    fun db file hinv hfile => hinv.archiveFile hfile.1 hfile.2
  have hrun := Machine.along_of_forall (m := loadBox lib) .create hfiles
  exact hrun.of_invariant hstep (fun db file hinv hfile => hinv.deduplicates hfile.1 hfile.2)
    (OneRowEach.create lib)

/-- `ZipInputStream` on a file that is no archive. -/
def noArchive : Unzip := fun _ => ([], true)

/-- A letter with one attachment, which is parsed at the time `now`. -/
def letterWith (now : Date) (buf : List UInt8) : Letter where
  from_ := some "ca@mail".toList
  recipients := ["av@mail".toList]
  number := 1
  subject := some "x509".toList
  sentDate := some now
  messageID := some "<1@mail>".toList
  newID := []
  contentType := "multipart/mixed".toList
  multipart := some [⟨"application/octet-stream".toList, some "file".toList, some buf⟩]
  created := now
  received := now
  clock := fun _ => (now, now)

/-- A DER request with the subject `CN=a`. -/
def requestFile : List UInt8 :=
  [48, 68, 48, 47, 2, 1, 0, 48, 12, 49, 10, 48, 8, 6, 3, 85, 4, 3, 12, 1, 97, 48, 26, 48, 13, 6,
   9, 42, 134, 72, 134, 247, 13, 1, 1, 1, 5, 0, 3, 9, 0, 48, 6, 2, 1, 15, 2, 1, 3, 160, 0, 48,
   13, 6, 9, 42, 134, 72, 134, 247, 13, 1, 1, 11, 5, 0, 3, 2, 0, 0]

/-- What the libraries make of that request. -/
def requestLibrary : X509Library where
  pemType := fun _ => .ok none
  readObject := fun _ => .ok .null
  generateCertificate := fun _ => .error .illegalArgument
  generateCRL := fun _ => .error .illegalArgument
  certificationRequest := fun _ => .ok ⟨.ok (.ok "CN=a".toList), .ok ()⟩
  date1980 := 315532800000
  toString := fun _ => "Tue Jan 01 00:00:00 UTC 1980".toList

/-- The request comes twice and has one row. -/
theorem deduplicates_request_twice :
    (loadBox requestLibrary).Along (Deduplicates requestLibrary) .create
      ([letterWith 1 requestFile, letterWith 2 requestFile].flatMap (·.files noArchive))
    ∧ ((loadBox requestLibrary).run .create
        ([letterWith 1 requestFile, letterWith 2 requestFile].flatMap (·.files noArchive))).x509.length
      = 1 := by
  refine ⟨deduplicates_of_reproducible requestLibrary noArchive fun letter _ file _ => ?_,
    by decide +kernel⟩
  refine ⟨rfl, rfl, fun _ _ crl hcrl => ?_⟩
  cases hcrl

/-- A PEM revocation list of the issuer `CN=ca` without entries. -/
def pemCRLFile : List UInt8 :=
  ascii ("-----BEGIN X509 CRL-----\n"
    ++ "MFEwPDANBgkqhkiG9w0BAQsFADANMQswCQYDVQQDDAJjYRcNMjQwMTAxMDAwMDAw\n"
    ++ "WhcNMjQwMjAxMDAwMDAwWjANBgkqhkiG9w0BAQsFAAMCAAA=\n"
    ++ "-----END X509 CRL-----\n")

/-- What the libraries make of that list. -/
def pemCRLLibrary : X509Library where
  pemType := fun _ => .ok (some "X509 CRL".toList)
  readObject := fun _ => .ok (.crl ⟨.ok (.ok "CN=ca".toList), .ok []⟩)
  generateCertificate := fun _ => .error .illegalArgument
  generateCRL := fun _ => .ok ⟨.ok none, .ok "CN=ca".toList, .ok "CN=ca".toList,
    .ok 1704067200000, .ok (some 1706745600000)⟩
  certificationRequest := fun _ => .error .illegalArgument
  date1980 := 315532800000
  toString := fun _ => "Tue Jan 01 00:00:00 UTC 1980".toList

/-- The list comes twice and has two rows. -/
theorem not_deduplicates_pem_crl_twice :
    ¬ ∀ (lib : X509Library) (unzip : Unzip) (letters : List Letter),
      (loadBox lib).Along (Deduplicates lib) .create (letters.flatMap (·.files unzip)) := by
  intro h
  have htwice := h pemCRLLibrary noArchive [letterWith 1 pemCRLFile, letterWith 2 pemCRLFile]
  exact absurd htwice.2.1.distinct (by decide +kernel)

end OrgLittle.MailWeb
