import OrgLittle.Lmsg.X509

/-!
# What an attempt to parse an attachment leaves

The fields that an object of each kind has, and what the parsers leave when they give up. A certificate in PEM whose
name has no text leaves its other fields, and a revocation list the serial numbers in front of an entry that cannot
be read; a list without entries keeps the serial numbers of the message; and an exception for a request in PEM is
taken for a success (`allOrNothing_iff`).
-/

namespace OrgLittle.Lmsg

open OrgLittle.Java OrgLittle.Lib X509Block

/-! ## The fields of an object -/

/-- The serial numbers of a list, if all of its entries can be read. -/
def wholeSerials : List (Call JString) → Option (List JString)
  | [] => some []
  | .ok n :: entries => (wholeSerials entries).map (n :: ·)
  | .error _ :: _ => none

/-- The fields of a certificate in PEM. -/
def CertificateHolder.info (holder : CertificateHolder) : Option X509Info := do
  let n ← (holder.getSerialNumber.bind id).toOption
  let issuer ← (holder.getIssuer.bind id).toOption
  let subject ← (holder.getSubject.bind id).toOption
  let start ← holder.getNotBefore.toOption
  let stop ← holder.getNotAfter.toOption
  some ⟨some X509_CERTIFICATE, some "PEM".toList, some start, some stop, [n], some subject, some issuer⟩

/-- The fields of a revocation list in PEM, whose dates are those of its reading. -/
def CRLHolder.info (now : Date × Date) (crl : CRLHolder) : Option X509Info := do
  let issuer ← (crl.getIssuer.bind id).toOption
  let serials ← crl.getRevokedCertificates.toOption.bind wholeSerials
  some ⟨some X509_CRL, some "PEM".toList, some now.1, some now.2, serials, some issuer, some issuer⟩

/-- The fields of a request, which has neither dates nor a serial number nor an issuer. -/
def CertificationRequest.info (date1980 : Date) (typeFile issuer : JString) (csr : CertificationRequest) :
    Option X509Info := do
  let subject ← (csr.getSubject.bind id).toOption
  csr.getAttributes.toOption
  some ⟨some X509_CERTIFICATE_REQUEST, some typeFile, some date1980, some date1980, ["0".toList], some subject,
    some issuer⟩

/-- The fields of a certificate in DER. -/
def X509Certificate.info (cert : X509Certificate) : Option X509Info := do
  let n ← cert.getSerialNumber.toOption
  let _ ← cert.getIssuerX500Principal.toOption
  let issuer ← cert.getIssuerDN.toOption
  let _ ← cert.getSubjectX500Principal.toOption
  let subject ← cert.getSubjectDN.toOption
  let start ← cert.getNotBefore.toOption
  let stop ← cert.getNotAfter.toOption
  some ⟨some X509_CERTIFICATE, some "DER".toList, some start, some stop, [n], some subject, some issuer⟩

/-- The issuer and the dates of a revocation list in DER. -/
def X509CRL.heading (crl : X509CRL) : Option (JString × Date × Option Date) := do
  let _ ← crl.getIssuerX500Principal.toOption
  let issuer ← crl.getIssuerDN.toOption
  let start ← crl.getThisUpdate.toOption
  let stop ← crl.getNextUpdate.toOption
  some (issuer, start, stop)

/-- The serial numbers of a revocation list in DER, if all of them can be read. -/
def X509CRL.serials (crl : X509CRL) : Option (List JString) :=
  crl.getRevokedCertificates.toOption.bind fun entries => entries.elim (some []) wholeSerials

/-- The fields of a revocation list in DER, out of its heading and its serial numbers. -/
def derCRLInfo (heading : JString × Date × Option Date) (serials : List JString) : X509Info :=
  ⟨some X509_CRL, some "DER".toList, some heading.2.1, heading.2.2, serials, some heading.1, some heading.1⟩

/-- The fields of a revocation list in DER. -/
def X509CRL.info (crl : X509CRL) : Option X509Info := do
  let serials ← crl.serials
  let heading ← crl.heading
  some (derCRLInfo heading serials)

/-- The fields of a PEM object, if it is one of those that are read. -/
def PemObject.info (lib : X509Library) (now : Date × Date) : PemObject → Option X509Info
  | .certificate holder => holder.info
  | .crl list => list.info now
  | .request csr => csr.info lib.date1980 "PEM".toList []
  | .null | .other => none

section objects

variable (lib : X509Library) (buf : List UInt8) (now : Date × Date)

/-- The certificate in DER that is read. -/
def certificateInfo : Option X509Info := (lib.generateCertificate buf).toOption.bind X509Certificate.info

/-- The request in DER that is read. -/
def requestInfo : Option X509Info :=
  (lib.certificationRequest buf).toOption.bind (CertificationRequest.info lib.date1980 "DER".toList " ".toList)

/-- The fields are those of one object that a library made of the bytes. -/
inductive Describes : X509Info → Prop
  | pem {obj : PemObject} {info : X509Info} (hobj : lib.readObject buf = .ok obj) (h : obj.info lib now = some info) :
    Describes info
  | certificate {info : X509Info} (h : certificateInfo lib buf = some info) : Describes info
  | crl {crl : X509CRL} {info : X509Info} (hcrl : lib.generateCRL buf = .ok crl) (h : crl.info = some info) :
    Describes info
  | request {info : X509Info} (h : requestInfo lib buf = some info) : Describes info

end objects

/-- Either nothing is returned and the fields are what they were, or they are all those of one object. -/
def AllOrNothing (lib : X509Library) (now : Date × Date) (msg : Message) : Prop :=
  if (parse lib now msg).2 then
    ∃ buf, msg.bodyBin = some buf ∧ Describes lib buf now (parse lib now msg).1.x509Info
  else (parse lib now msg).1.x509Info = msg.x509Info

/-! ## What a failed attempt leaves -/

/-- The serial numbers in front of the first entry that cannot be read. -/
def serialsBefore : List (Call JString) → List JString
  | [] => []
  | .ok n :: entries => n :: serialsBefore entries
  | .error _ :: _ => []

/-- The first serial number that is read replaces those of the message. -/
def replaceSerials (old new : List JString) : List JString := if new = [] then old else new

/-- What the attempt to read a certificate in PEM leaves if a text is missing. -/
def CertificateHolder.left (holder : CertificateHolder) (info : X509Info) : X509Info :=
  match holder.getSerialNumber, holder.getIssuer, holder.getSubject, holder.getNotBefore, holder.getNotAfter with
  | .ok n, .ok _, .ok subject, .ok start, .ok stop =>
    let dated := { info with
      type := some X509_CERTIFICATE
      typeFile := some "PEM".toList
      beginDate := some start
      endDate := some stop }
    match n, subject with
    | .error _, _ => dated
    | .ok n, .error _ => { dated with serial := [n] }
    | .ok n, .ok subject => { dated with serial := [n], subject := some subject }
  | _, _, _, _, _ => info

/-- What the attempt to read a revocation list in PEM leaves if an entry cannot be read. -/
def CRLHolder.left (crl : CRLHolder) (info : X509Info) : X509Info :=
  match crl.getIssuer.bind id, crl.getRevokedCertificates with
  | .ok _, .ok entries => { info with serial := replaceSerials info.serial (serialsBefore entries) }
  | _, _ => info

/-- The serial numbers of a message after the entries of a revocation list in DER have been read. -/
def X509CRL.leftSerials (crl : X509CRL) (old : List JString) : List JString :=
  match crl.getRevokedCertificates with
  | .ok (some entries) => replaceSerials old (serialsBefore entries)
  | _ => old

/-- Where all entries are read, none is left out. -/
theorem wholeSerials_eq_some {entries : List (Call JString)} {serials : List JString}
    (h : wholeSerials entries = some serials) : serialsBefore entries = serials := by
  induction entries generalizing serials with
  | nil => exact Option.some.inj h
  | cons p entries ih =>
    cases p with
    | error e => cases h
    | ok n =>
      obtain ⟨rest, hrest, rfl⟩ := Option.map_eq_some_iff.mp h
      rw [serialsBefore, ih hrest]

/-! ## The runs of the parsers -/

section runs

variable {α β : Type}

/-- A call of the library that succeeds. -/
@[simp] theorem run_call_ok (a : α) (f : α → X509Block β) (info : X509Info) :
    (Block.call (.ok a) >>= f).run.run info = (f a).run.run info := rfl

/-- A call of the library that fails. -/
@[simp] theorem run_call_error (e : JavaException) (f : α → X509Block β) (info : X509Info) :
    (Block.call (.error e) >>= f).run.run info = (.error e, info) := rfl

@[simp] theorem run_update (g : X509Info → X509Info) (f : PUnit → X509Block β) (info : X509Info) :
    (Block.update g >>= f).run.run info = (f ⟨⟩).run.run (g info) := rfl

@[simp] theorem run_pure (a : α) (info : X509Info) : (pure a : X509Block α).run.run info = (.ok a, info) := rfl

/-- The loop over a list whose first entry has been read adds serial numbers. -/
theorem run_readSerials_true (entries : List (Call JString)) (info : X509Info) :
    ∃ r : Except JavaException Unit, (readSerials true entries).run.run info
        = (r, { info with serial := info.serial ++ serialsBefore entries })
      ∧ r.isOk = (wholeSerials entries).isSome := by
  induction entries generalizing info with
  | nil => exact ⟨.ok (), by rw [serialsBefore, List.append_nil]; rfl, rfl⟩
  | cons p entries ih =>
    cases p with
    | error e => exact ⟨.error e, by rw [serialsBefore, List.append_nil]; rfl, rfl⟩
    | ok n =>
      obtain ⟨r, hrun, hok⟩ := ih { info with serial := info.serial ++ [n] }
      refine ⟨r, ?_, ?_⟩
      · rw [readSerials, run_call_ok, if_pos rfl, run_update, hrun, List.append_assoc]
        rfl
      · rw [hok, wholeSerials, Option.isSome_map]

/-- The loop over a list replaces the serial numbers, unless there is nothing to read in front of the first entry that
fails. -/
theorem run_readSerials (entries : List (Call JString)) (info : X509Info) :
    ∃ r : Except JavaException Unit, (readSerials false entries).run.run info
        = (r, { info with serial := replaceSerials info.serial (serialsBefore entries) })
      ∧ r.isOk = (wholeSerials entries).isSome := by
  cases entries with
  | nil => exact ⟨.ok (), rfl, rfl⟩
  | cons p entries =>
    cases p with
    | error e => exact ⟨.error e, rfl, rfl⟩
    | ok n =>
      obtain ⟨r, hrun, hok⟩ := run_readSerials_true entries { info with serial := [n] }
      refine ⟨r, ?_, ?_⟩
      · rw [readSerials, run_call_ok, if_neg Bool.false_ne_true, run_update, hrun]
        rfl
      · rw [hok, wholeSerials, Option.isSome_map]

variable (lib : X509Library) (buf : List UInt8) (info : X509Info)

/-- What a parser returns and leaves, if `read` are the fields of its object and `left` is what a failure leaves. -/
def result (read : Option X509Info) (left : X509Info) : Bool × X509Info :=
  read.elim (false, left) fun info => (true, info)

/-- What is left of the PEM branch for a certificate. -/
theorem run_pemCertificate {holder : CertificateHolder} (hobj : lib.readObject buf = .ok (.certificate holder)) :
    ((pemCertificate lib buf).orElse false).run info = result holder.info (holder.left info) := by
  obtain ⟨serial, issuer, subject, start, stop⟩ := holder
  rw [Block.run_orElse, pemCertificate, hobj, run_call_ok]
  dsimp only
  rcases serial with e | n
  · rfl
  rcases issuer with e | issuer
  · cases n <;> rfl
  rcases subject with e | subject
  · cases n <;> cases issuer <;> rfl
  rcases start with e | start
  · cases n <;> cases issuer <;> cases subject <;> rfl
  rcases stop with e | stop
  · cases n <;> cases issuer <;> cases subject <;> rfl
  -- now the fields are set, and only the texts of the serial number and the names are left
  cases n with
  | error e => rfl
  | ok n => cases subject <;> cases issuer <;> rfl

/-- The fields of a revocation list as they are set: without entries the old serial numbers stay. -/
def keepSerials (old : List JString) (info : X509Info) : X509Info :=
  { info with serial := replaceSerials old info.serial }

/-- What is left of the PEM branch for a revocation list. -/
theorem run_pemCRL {crl : CRLHolder} (hobj : lib.readObject buf = .ok (.crl crl)) (now : Date × Date) :
    ((pemCRL lib buf now).orElse false).run info
      = result ((crl.info now).map (keepSerials info.serial)) (crl.left info) := by
  obtain ⟨issuer, entries⟩ := crl
  rw [Block.run_orElse, pemCRL, hobj, run_call_ok]
  dsimp only
  rw [Block.run_bind, pemCRLEntries]
  rcases issuer with e | issuer
  · rfl
  rcases issuer with e | issuer
  · rfl
  rcases entries with e | entries
  · rfl
  rw [run_call_ok, run_call_ok, run_call_ok, Block.run_bind]
  obtain ⟨r, hrun, hok⟩ := run_readSerials entries info
  rw [hrun]
  cases hwhole : wholeSerials entries with
  | none =>
    rw [hwhole] at hok
    rcases r with e | _
    · have hinfo : CRLHolder.info now ⟨.ok (.ok issuer), .ok entries⟩ = none := by
        simp [CRLHolder.info, Except.toOption, Except.bind, hwhole]
      rw [hinfo]
      rfl
    · cases hok
  | some serials =>
    rw [hwhole] at hok
    rcases r with e | _
    · cases hok
    · have hinfo : CRLHolder.info now ⟨.ok (.ok issuer), .ok entries⟩
          = some ⟨some X509_CRL, some "PEM".toList, some now.1, some now.2, serials, some issuer, some issuer⟩ := by
        simp [CRLHolder.info, Except.toOption, Except.bind, hwhole]
      rw [hinfo, wholeSerials_eq_some hwhole]
      rfl

/-- What is left of the PEM branch for a request. -/
theorem run_pemRequest {csr : CertificationRequest} (hobj : lib.readObject buf = .ok (.request csr)) :
    ((pemRequest lib buf).orElse true).run info
      = (true, (csr.info lib.date1980 "PEM".toList []).getD info) := by
  obtain ⟨subject, attributes⟩ := csr
  rw [Block.run_orElse, pemRequest, hobj, run_call_ok]
  dsimp only
  rcases subject with e | subject
  · rfl
  rcases subject with e | subject
  · rfl
  cases attributes <;> rfl

/-- The DER branch for certificates sets everything or nothing. -/
theorem run_parseX509CERDER2MSG :
    (parseX509CERDER2MSG lib buf).run info = result (certificateInfo lib buf) info := by
  rw [parseX509CERDER2MSG, Block.run_orElse, derCertificate, certificateInfo]
  rcases lib.generateCertificate buf with e | cert
  · rfl
  obtain ⟨serial, issuerPrincipal, issuer, subjectPrincipal, subject, start, stop⟩ := cert
  -- Each call in turn ends the block, or the block goes on.
  rcases serial with e | serial
  · rfl
  rcases issuerPrincipal with e | issuerPrincipal
  · rfl
  rcases issuer with e | issuer
  · rfl
  rcases subjectPrincipal with e | subjectPrincipal
  · rfl
  rcases subject with e | subject
  · rfl
  rcases start with e | start
  · rfl
  rcases stop with e | stop
  · rfl
  · rfl

/-- The DER branch for requests sets everything or nothing. -/
theorem run_parseX509CSRDER2MSG :
    (parseX509CSRDER2MSG lib buf).run info = result (requestInfo lib buf) info := by
  rw [parseX509CSRDER2MSG, Block.run_orElse, derRequest, requestInfo]
  rcases lib.certificationRequest buf with e | csr
  · rfl
  obtain ⟨subject, attributes⟩ := csr
  rcases subject with e | subject
  · rfl
  rcases subject with e | subject
  · rfl
  cases attributes <;> rfl

/-- The entries change the serial numbers only. -/
theorem run_derCRLEntries (crl : X509CRL) :
    ((derCRLEntries crl).orElse ()).run info = ((), { info with serial := crl.leftSerials info.serial }) := by
  obtain ⟨entries, principal, issuer, start, stop⟩ := crl
  rw [Block.run_orElse, derCRLEntries]
  rcases entries with e | _ | entries
  · rfl
  · rfl
  · obtain ⟨r, hrun, -⟩ := run_readSerials entries info
    rw [run_call_ok]
    dsimp only
    rw [hrun]
    cases r <;> rfl

theorem run_derCRL (crl : X509CRL) :
    ((derCRL crl).orElse false).run info
      = result (crl.heading.map fun heading => derCRLInfo heading info.serial) info := by
  obtain ⟨entries, principal, issuer, start, stop⟩ := crl
  rw [Block.run_orElse, derCRL]
  cases principal <;> cases issuer <;> cases start <;> cases stop <;> rfl

/-- What the attempt to read a revocation list in DER leaves. -/
def leftByCRL : X509Info :=
  match lib.generateCRL buf with
  | .ok crl => { info with serial := crl.leftSerials info.serial }
  | .error _ => info

/-- What is left of the DER branch for revocation lists. -/
theorem run_parseX509CRLDER2MSG :
    (parseX509CRLDER2MSG lib buf).run info
      = result ((lib.generateCRL buf).toOption.bind fun crl =>
          crl.heading.map fun heading => derCRLInfo heading (crl.leftSerials info.serial))
        (leftByCRL lib buf info) := by
  rw [parseX509CRLDER2MSG, leftByCRL]
  rcases lib.generateCRL buf with e | crl
  · rfl
  · have hentries := run_derCRLEntries info crl
    have hblock := run_derCRL { info with serial := crl.leftSerials info.serial } crl
    dsimp only
    rw [StateT.run_bind, hentries]
    exact hblock

/-- The next branch is tried if one reads nothing. -/
theorem run_orTry_result {ret next : StateM X509Info Bool} {read : Option X509Info} {left : X509Info}
    (h : ret.run info = result read left) :
    (orTry ret next).run info = read.elim (next.run left) fun read => (true, read) := by
  rw [run_orTry, h]
  cases read <;> rfl

/-- The three attempts to read DER. -/
def parseDER : StateM X509Info Bool :=
  orTry (parseX509CERDER2MSG lib buf) (orTry (parseX509CRLDER2MSG lib buf) (parseX509CSRDER2MSG lib buf))

/-- What is left of the DER branches. -/
theorem run_parseDER :
    (parseDER lib buf).run info
      = (certificateInfo lib buf).elim
          (((lib.generateCRL buf).toOption.bind fun crl =>
              crl.heading.map fun heading => derCRLInfo heading (crl.leftSerials info.serial)).elim
            (result (requestInfo lib buf) (leftByCRL lib buf info)) fun read => (true, read))
          fun read => (true, read) := by
  rw [parseDER, run_orTry_result info (run_parseX509CERDER2MSG lib buf info),
    run_orTry_result info (run_parseX509CRLDER2MSG lib buf info), run_parseX509CSRDER2MSG]

/-! ## When nothing is half done -/

/-- The attempts to read DER leave the fields `info` as they were, or set all of them to those of one object, where
the attempt to read PEM has left the fields `left`. -/
def DerWhole (left info : X509Info) : Prop :=
  (certificateInfo lib buf).isSome
    ∨ match lib.generateCRL buf with
      | .error _ => (requestInfo lib buf).isSome ∨ left = info
      | .ok crl =>
        if crl.heading.isSome then ∃ serials, crl.serials = some serials ∧ (serials ≠ [] ∨ left.serial = [])
        else (requestInfo lib buf).isSome ∨ { left with serial := crl.leftSerials left.serial } = info

/-- The attachments for which nothing is half done. -/
def Whole (now : Date × Date) : Prop :=
  if pemKind lib buf = some X509_CERTIFICATE then
    match lib.readObject buf with
    | .ok (.certificate holder) => holder.info.isSome ∨ DerWhole lib buf (holder.left info) info
    | _ => DerWhole lib buf info info
  else if pemKind lib buf = some X509_CRL then
    match lib.readObject buf with
    | .ok (.crl list) =>
      match list.info now with
      | some read => read.serial ≠ [] ∨ info.serial = []
      | none => DerWhole lib buf (list.left info) info
    | _ => DerWhole lib buf info info
  else if pemKind lib buf = some X509_CERTIFICATE_REQUEST then
    match lib.readObject buf with
    | .ok (.request csr) => (csr.info lib.date1980 "PEM".toList []).isSome ∨ Describes lib buf now info
    | .error _ => Describes lib buf now info
    | _ => DerWhole lib buf info info
  else DerWhole lib buf info info

/-- What a parser returns and leaves is nothing and the old fields, or all fields of one object. -/
def Settled (now : Date × Date) (ret : Bool × X509Info) : Prop :=
  if ret.1 then Describes lib buf now ret.2 else ret.2 = info

variable {lib buf info}

theorem settled_read {now : Date × Date} {read : X509Info} :
    Settled lib buf info now (true, read) ↔ Describes lib buf now read := Iff.rfl

/-- What is read of PEM says so. -/
theorem PemObject.info_typeFile {now : Date × Date} {obj : PemObject} (h : obj.info lib now = some info) :
    info.typeFile = some "PEM".toList := by
  cases obj with
  | null => cases h
  | other => cases h
  | certificate holder =>
    simp only [PemObject.info, CertificateHolder.info, Option.bind_eq_bind, Option.bind_eq_some_iff,
      Option.some.injEq] at h
    obtain ⟨-, -, -, -, -, -, -, -, -, -, rfl⟩ := h
    rfl
  | crl list =>
    simp only [PemObject.info, CRLHolder.info, Option.bind_eq_bind, Option.bind_eq_some_iff, Option.some.injEq] at h
    obtain ⟨-, -, -, -, rfl⟩ := h
    rfl
  | request csr =>
    simp only [PemObject.info, CertificationRequest.info, Option.bind_eq_bind, Option.bind_eq_some_iff,
      Option.some.injEq] at h
    obtain ⟨-, -, -, -, rfl⟩ := h
    rfl

/-- What is read of a certificate says so. -/
theorem certificateInfo_type (h : certificateInfo lib buf = some info) : info.type = some X509_CERTIFICATE := by
  simp only [certificateInfo, X509Certificate.info, Option.bind_eq_bind, Option.bind_eq_some_iff,
    Option.some.injEq] at h
  obtain ⟨-, -, -, -, -, -, -, -, -, -, -, -, -, -, -, -, rfl⟩ := h
  rfl

/-- What is read of a request says so. -/
theorem requestInfo_type (h : requestInfo lib buf = some info) : info.type = some X509_CERTIFICATE_REQUEST := by
  simp only [requestInfo, CertificationRequest.info, Option.bind_eq_bind, Option.bind_eq_some_iff,
    Option.some.injEq] at h
  obtain ⟨-, -, -, -, -, -, rfl⟩ := h
  rfl

theorem X509CRL.info_eq {crl : X509CRL} {heading : JString × Date × Option Date}
    (hheading : crl.heading = some heading) : crl.info = crl.serials.map (derCRLInfo heading) := by
  rw [X509CRL.info, hheading]
  cases crl.serials <;> rfl

/-- What is read of DER says so. -/
theorem X509CRL.info_typeFile {crl : X509CRL} (h : crl.info = some info) : info.typeFile = some "DER".toList := by
  simp only [X509CRL.info, Option.bind_eq_bind, Option.bind_eq_some_iff, Option.some.injEq] at h
  obtain ⟨-, -, -, -, rfl⟩ := h
  rfl

/-- Fields with the heading of a revocation list in DER are those of an object only if the serial numbers are. -/
theorem describes_derCRL {now : Date × Date} {crl : X509CRL} (hcrl : lib.generateCRL buf = .ok crl)
    {heading : JString × Date × Option Date} (hheading : crl.heading = some heading) (serials : List JString) :
    Describes lib buf now (derCRLInfo heading serials) ↔ crl.serials = some serials := by
  constructor
  · rintro (⟨-, h⟩ | h | ⟨hcrl', h⟩ | h)
    · exact absurd (PemObject.info_typeFile h) (show some "DER".toList ≠ some "PEM".toList by decide)
    · exact absurd (certificateInfo_type h) (show some X509_CRL ≠ some X509_CERTIFICATE by decide)
    · rw [hcrl] at hcrl'
      rw [← Except.ok.inj hcrl', X509CRL.info_eq hheading] at h
      obtain ⟨serials', hserials, heq⟩ := Option.map_eq_some_iff.mp h
      have hsame : serials' = serials := congrArg X509Info.serial heq
      rw [hserials, hsame]
    · exact absurd (requestInfo_type h) (show some X509_CRL ≠ some X509_CERTIFICATE_REQUEST by decide)
  · intro h
    refine .crl hcrl ?_
    rw [X509CRL.info_eq hheading, h]
    rfl

/-- The serial numbers of a message after the loop are those of the list only if it has entries or there were no
others. -/
theorem serials_eq_left_iff (crl : X509CRL) (old : List JString) :
    crl.serials = some (crl.leftSerials old) ↔ ∃ serials, crl.serials = some serials ∧ (serials ≠ [] ∨ old = []) := by
  unfold X509CRL.serials X509CRL.leftSerials
  rcases crl.getRevokedCertificates with e | _ | entries
  · exact iff_of_false (fun h => by cases h) fun ⟨_, h, _⟩ => by cases h
  · constructor
    · intro h
      exact ⟨[], rfl, .inr (Option.some.inj h).symm⟩
    · rintro ⟨serials, h, hne⟩
      obtain rfl : [] = serials := Option.some.inj h
      exact congrArg some (hne.resolve_left fun hne => hne rfl).symm
  · change wholeSerials entries = some (replaceSerials old (serialsBefore entries)) ↔
      ∃ serials, wholeSerials entries = some serials ∧ (serials ≠ [] ∨ old = [])
    cases hwhole : wholeSerials entries with
    | none => exact iff_of_false (fun h => by cases h) fun ⟨_, h, _⟩ => by cases h
    | some serials =>
      rw [wholeSerials_eq_some hwhole, replaceSerials, Option.some_inj]
      simp only [Option.some_inj, exists_eq_left']
      split_ifs with hempty
      · rw [hempty]
        exact ⟨fun h => .inr h.symm, fun h => (h.resolve_left fun h => h rfl).symm⟩
      · exact iff_of_true rfl (.inl hempty)

/-- The branch for requests is right if it reads one, or if it is left what was there. -/
theorem settled_result_request {now : Date × Date} {left : X509Info} :
    Settled lib buf info now (result (requestInfo lib buf) left) ↔ (requestInfo lib buf).isSome ∨ left = info := by
  cases hrequest : requestInfo lib buf with
  | none => exact (or_iff_right (by decide)).symm
  | some read => exact iff_of_true (.request hrequest) (.inl rfl)

/-- When the DER branches are right. -/
theorem settled_der_iff {now : Date × Date} (left : X509Info) :
    Settled lib buf info now ((parseDER lib buf).run left) ↔ DerWhole lib buf left info := by
  rw [run_parseDER, DerWhole]
  cases hcertificate : certificateInfo lib buf with
  | some read => exact iff_of_true (.certificate hcertificate) (.inl rfl)
  | none =>
    rw [Option.elim_none, or_iff_right (by decide)]
    unfold leftByCRL
    rcases hcrl : lib.generateCRL buf with e | crl
    · exact settled_result_request
    dsimp only [Except.toOption, Option.bind_some]
    cases hheading : crl.heading with
    | none =>
      rw [if_neg (by decide)]
      exact settled_result_request
    | some heading =>
      rw [if_pos Option.isSome_some, ← serials_eq_left_iff]
      exact describes_derCRL hcrl hheading _

/-- A revocation list in PEM that is read is right if its serial numbers have replaced the old ones, or there were
none. -/
theorem describes_keepSerials {now : Date × Date} {list : CRLHolder} (hobj : lib.readObject buf = .ok (.crl list))
    {read : X509Info} (hread : list.info now = some read) (old : List JString) :
    Describes lib buf now (keepSerials old read) ↔ read.serial ≠ [] ∨ old = [] := by
  have hpem : (PemObject.crl list).info lib now = some read := hread
  have hfile : (keepSerials old read).typeFile = some "PEM".toList := by
    rw [← PemObject.info_typeFile hpem]
    rfl
  have htype : (keepSerials old read).type = some X509_CRL := by
    simp only [CRLHolder.info, Option.bind_eq_bind, Option.bind_eq_some_iff, Option.some.injEq] at hread
    obtain ⟨-, -, -, -, rfl⟩ := hread
    rfl
  have hsame : keepSerials old read = read ↔ read.serial ≠ [] ∨ old = [] := by
    have hserials : keepSerials old read = read ↔ replaceSerials old read.serial = read.serial :=
      ⟨congrArg X509Info.serial, fun h => by rw [keepSerials, h]⟩
    rw [hserials, replaceSerials]
    split_ifs with hempty
    · rw [hempty]
      exact (or_iff_right fun h => h rfl).symm
    · exact iff_of_true rfl (.inl hempty)
  rw [← hsame]
  constructor
  · rintro (⟨hobj', h⟩ | h | ⟨-, h⟩ | h)
    · rw [hobj] at hobj'
      rw [← Except.ok.inj hobj'] at h
      exact (Option.some.inj (hread.symm.trans h)).symm
    · exact absurd (htype.symm.trans (certificateInfo_type h)) (by decide)
    · exact absurd (hfile.symm.trans (X509CRL.info_typeFile h)) (by decide)
    · exact absurd (htype.symm.trans (requestInfo_type h)) (by decide)
  · intro h
    rw [h]
    exact .pem hobj hread

/-- The DER branches follow the PEM branch. -/
theorem run_parseX509 (now : Date × Date) {read : Option X509Info} {left : X509Info}
    (h : (parsePEM2MSG lib buf now).run info = result read left) :
    (parseX509 lib buf now).run info = read.elim ((parseDER lib buf).run left) fun read => (true, read) :=
  run_orTry_result info h

/-- Nothing is half done exactly for the attachments of `Whole`. -/
theorem settled_iff (now : Date × Date) :
    Settled lib buf info now ((parseX509 lib buf now).run info) ↔ Whole lib buf info now := by
  -- where the attempt to read PEM has left everything as it was, DER decides
  have hnothing (h : (parsePEM2MSG lib buf now).run info = (false, info)) :
      Settled lib buf info now ((parseX509 lib buf now).run info) ↔ DerWhole lib buf info info := by
    have hnone : (parsePEM2MSG lib buf now).run info = result none info := h
    rw [run_parseX509 now hnone]
    exact settled_der_iff info
  unfold Whole
  split_ifs with hcertificate hlist hrequest
  · have hpem : parsePEM2MSG lib buf now = (pemCertificate lib buf).orElse false := by
      rw [parsePEM2MSG, hcertificate]
      exact if_pos rfl
    rcases hobj : lib.readObject buf with e | _ | holder | list | csr | _
    case ok.certificate =>
      have hrun := hpem ▸ run_pemCertificate lib buf info hobj
      rw [run_parseX509 now hrun]
      dsimp only
      cases hread : holder.info with
      | some read => exact iff_of_true (.pem hobj hread) (.inl rfl)
      | none => exact (settled_der_iff _).trans (or_iff_right (by decide)).symm
    all_goals
      apply hnothing
      rw [hpem, Block.run_orElse, pemCertificate, hobj]
      rfl
  · have hpem : parsePEM2MSG lib buf now = (pemCRL lib buf now).orElse false := by
      rw [parsePEM2MSG, hlist]
      rfl
    rcases hobj : lib.readObject buf with e | _ | holder | list | csr | _
    case ok.crl =>
      have hrun := hpem ▸ run_pemCRL lib buf info hobj now
      rw [run_parseX509 now hrun]
      dsimp only
      cases hread : list.info now with
      | some read => exact describes_keepSerials hobj hread info.serial
      | none => exact settled_der_iff _
    all_goals
      apply hnothing
      rw [hpem, Block.run_orElse, pemCRL, hobj]
      rfl
  · have hpem : parsePEM2MSG lib buf now = (pemRequest lib buf).orElse true := by
      rw [parsePEM2MSG, hrequest]
      rfl
    have htrue {read : X509Info} (h : (parsePEM2MSG lib buf now).run info = (true, read)) :
        Settled lib buf info now ((parseX509 lib buf now).run info) ↔ Describes lib buf now read := by
      have hsome : (parsePEM2MSG lib buf now).run info = result (some read) info := h
      rw [run_parseX509 now hsome]
      exact settled_read
    rcases hobj : lib.readObject buf with e | _ | holder | list | csr | _
    case error =>
      apply htrue
      rw [hpem, Block.run_orElse, pemRequest, hobj]
      rfl
    case ok.request =>
      rw [htrue (hpem ▸ run_pemRequest lib buf info hobj)]
      dsimp only
      cases hread : csr.info lib.date1980 "PEM".toList [] with
      | some read => exact iff_of_true (.pem hobj hread) (.inl rfl)
      | none => exact (or_iff_right (by decide)).symm
    all_goals
      apply hnothing
      rw [hpem, Block.run_orElse, pemRequest, hobj]
      rfl
  · apply hnothing
    unfold parsePEM2MSG
    cases hkind : pemKind lib buf with
    | none => rfl
    | some type =>
      rw [hkind, Option.some_inj] at hcertificate hlist hrequest
      dsimp only
      rw [if_neg hcertificate, if_neg hlist, if_neg hrequest]
      rfl

/-- `parse` sets the fields of the certificate and no others. -/
theorem parse_fields (lib : X509Library) (now : Date × Date) {msg : Message} (hbuf : msg.bodyBin = some buf) :
    ((parse lib now msg).2, (parse lib now msg).1.x509Info) = (parseX509 lib buf now).run msg.x509Info := by
  rw [parse, hbuf]
  dsimp only
  rcases (parseX509 lib buf now).run msg.x509Info with ⟨_ | _, left⟩
  · rfl
  · rfl

/-- Parsing the attachment of a message is all or nothing exactly for these attachments. -/
theorem allOrNothing_iff (lib : X509Library) (now : Date × Date) (msg : Message) :
    AllOrNothing lib now msg ↔ ∀ buf, msg.bodyBin = some buf → Whole lib buf msg.x509Info now := by
  cases hbuf : msg.bodyBin with
  | none =>
    have hparse : parse lib now msg = (msg, false) := by rw [parse, hbuf]
    rw [AllOrNothing, hparse]
    exact iff_of_true rfl fun buf h => by cases h
  | some buf =>
    have hret : (parse lib now msg).2 = ((parseX509 lib buf now).run msg.x509Info).1 :=
      congrArg Prod.fst (parse_fields lib now hbuf)
    have hleft : (parse lib now msg).1.x509Info = ((parseX509 lib buf now).run msg.x509Info).2 :=
      congrArg Prod.snd (parse_fields lib now hbuf)
    have hsettled : Settled lib buf msg.x509Info now ((parseX509 lib buf now).run msg.x509Info)
        ↔ Whole lib buf msg.x509Info now := settled_iff now
    simp only [Option.some_inj, forall_eq']
    rw [← hsettled, Settled, AllOrNothing, ← hret, ← hleft]
    simp only [hbuf, Option.some_inj, exists_eq_left']

end runs

/-! ## A request that cannot be read -/

/-- A request in PEM whose octets are none of a request. -/
def corruptRequest : List UInt8 :=
  ascii "-----BEGIN CERTIFICATE REQUEST-----\nAAAA\n-----END CERTIFICATE REQUEST-----\n"

/-- What the libraries make of that request. -/
def corruptLibrary : X509Library where
  pemType := fun _ => .ok (some "CERTIFICATE REQUEST".toList)
  readObject := fun _ => .error .illegalArgument
  generateCertificate := fun _ => .error .illegalArgument
  generateCRL := fun _ => .error .illegalArgument
  certificationRequest := fun _ => .error .illegalArgument
  date1980 := 315532800000
  toString := fun _ => "Tue Jan 01 00:00:00 UTC 1980".toList

/-- The message is returned although there is no object. -/
theorem not_allOrNothing_corruptRequest :
    ¬ AllOrNothing corruptLibrary (0, 0) ((Message.new 0).setBodyBin (some corruptRequest)) := by
  have hreturned : (parse corruptLibrary (0, 0) ((Message.new 0).setBodyBin (some corruptRequest))).2 = true := rfl
  rw [AllOrNothing, if_pos hreturned]
  rintro ⟨buf, -, ⟨hobj, -⟩ | h | ⟨hcrl, -⟩ | h⟩
  · cases hobj
  · cases h
  · cases hcrl
  · cases h

end OrgLittle.Lmsg
