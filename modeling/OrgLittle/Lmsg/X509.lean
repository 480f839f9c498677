import OrgLittle.Lib.Effect
import OrgLittle.Lmsg.Message

/-!
# `lMessageX509`: recognising certificates, requests and revocation lists

Four parsers are tried in turn on the attachment of a message: PEM, and DER for each of the three kinds of
files. Each sets the X.509 fields of the message step by step and gives up at the first exception, with
what it has set so far left in the message. What the security libraries make of the bytes is a parameter.
-/

namespace OrgLittle.Lmsg

open OrgLittle.Java OrgLittle.Lib

/-! ## The libraries -/

/-- `X509_CERTIFICATE`. -/
def X509_CERTIFICATE : JString := "CERTIFICATE".toList

/-- `X509_PRIVATE_KEY`. -/
def X509_PRIVATE_KEY : JString := "PRIVATE KEY".toList

/-- `X509_CERTIFICATE_REQUEST`. -/
def X509_CERTIFICATE_REQUEST : JString := "CERTIFICATE REQUEST".toList

/-- `X509_CRL`. -/
def X509_CRL : JString := "X509 CRL".toList

/-- A call into a library. -/
abbrev Call := Except JavaException

/-- `X500Name`: its `toString`. -/
abbrev X500Name := Call JString

/-- `BigInteger`: its `toString`. -/
abbrev BigInteger := Call JString

/-- `X509CertificateHolder`. -/
structure CertificateHolder where
  getSerialNumber : Call BigInteger
  getIssuer : Call X500Name
  getSubject : Call X500Name
  getNotBefore : Call Date
  getNotAfter : Call Date

/-- `X509CRLHolder`. The entries are the serial numbers that their iterator gives. -/
structure CRLHolder where
  getIssuer : Call X500Name
  getRevokedCertificates : Call (List (Call JString))

/-- `PKCS10CertificationRequest`. -/
structure CertificationRequest where
  getSubject : Call X500Name
  getAttributes : Call Unit

/-- What `PEMParser.readObject` returns. -/
inductive PemObject
  | null
  | certificate (holder : CertificateHolder)
  | crl (crl : CRLHolder)
  | request (csr : CertificationRequest)
  | other

/-- `java.security.cert.X509Certificate`. A serial number is its decimal text. -/
structure X509Certificate where
  getSerialNumber : Call JString
  getIssuerX500Principal : Call JString
  getIssuerDN : Call JString
  getSubjectX500Principal : Call JString
  getSubjectDN : Call JString
  getNotBefore : Call Date
  getNotAfter : Call Date

/-- `java.security.cert.X509CRL`. The list of entries may be `null`, and so may be the date of the next list. -/
structure X509CRL where
  getRevokedCertificates : Call (Option (List (Call JString)))
  getIssuerX500Principal : Call JString
  getIssuerDN : Call JString
  getThisUpdate : Call Date
  getNextUpdate : Call (Option Date)

/-- The libraries, as functions of the bytes. `pemType` is the type of `readPemObject`, or `null`;
`date1980` is the first of January 1980 in the zone of the server, and `toString` is that of `Date`. -/
structure X509Library where
  pemType : List UInt8 → Call (Option JString)
  readObject : List UInt8 → Call PemObject
  generateCertificate : List UInt8 → Call X509Certificate
  generateCRL : List UInt8 → Call X509CRL
  certificationRequest : List UInt8 → Call CertificationRequest
  date1980 : Date
  toString : Date → JString

/-! ## The fields of the message -/

/-- The X.509 fields of a message. -/
structure X509Info where
  type : Option JString
  typeFile : Option JString
  beginDate : Option Date
  endDate : Option Date
  serial : List JString
  subject : Option JString
  issuer : Option JString
deriving DecidableEq

namespace Message

/-- The X.509 fields. -/
def x509Info (m : Message) : X509Info :=
  ⟨m.x509Type, m.x509TypeFile, m.x509BeginDate, m.x509EndDate, m.x509Serial, m.x509Subject, m.x509Issuer⟩

/-- The message with these X.509 fields. -/
def withX509Info (info : X509Info) (m : Message) : Message :=
  { m with
    x509Type := info.type
    x509TypeFile := info.typeFile
    x509BeginDate := info.beginDate
    x509EndDate := info.endDate
    x509Serial := info.serial
    x509Subject := info.subject
    x509Issuer := info.issuer }

/-- A text in a concatenation. -/
def textOf (s : Option JString) : JString := s.getD "null".toList

/-- `printx509`. A message that is parsed has no date of revocation and no date of an alarm. -/
def printx509 (toString : Date → JString) (m : Message) : JString :=
  '\n' :: textOf m.x509Type ++ '\n' :: textOf m.x509TypeFile
    ++ '\n' :: textOf (m.x509BeginDate.map toString) ++ '\n' :: textOf (m.x509EndDate.map toString)
    ++ '\n' :: '[' :: m.getX509Serials ++ ']' :: '\n' :: textOf m.x509Subject
    ++ '\n' :: textOf m.x509Issuer ++ '\n' :: textOf none ++ '\n' :: textOf none ++ ['\n']

end Message

/-! ## The parsers

A parser returns whether its result is a message. -/

/-- The body of a `try` that works on the fields. -/
abbrev X509Block := Block JavaException X509Info

namespace X509Block

/-- `setX509Type`. -/
abbrev setX509Type (s : JString) : X509Block Unit := Block.update fun i => { i with type := some s }

/-- `setX509TypeFile`. -/
abbrev setX509TypeFile (s : JString) : X509Block Unit := Block.update fun i => { i with typeFile := some s }

/-- `setX509BeginDate`. -/
abbrev setX509BeginDate (s : Option Date) : X509Block Unit := Block.update fun i => { i with beginDate := s }

/-- `setX509EndDate`. -/
abbrev setX509EndDate (s : Option Date) : X509Block Unit := Block.update fun i => { i with endDate := s }

/-- `setX509Serial`. -/
abbrev setX509Serial (s : JString) : X509Block Unit := Block.update fun i => { i with serial := [s] }

/-- `addX509Serial`. -/
abbrev addX509Serial (s : JString) : X509Block Unit :=
  Block.update fun i => { i with serial := i.serial ++ [s] }

/-- `setX509Subject`. -/
abbrev setX509Subject (s : JString) : X509Block Unit := Block.update fun i => { i with subject := some s }

/-- `setX509Issuer`. -/
abbrev setX509Issuer (s : JString) : X509Block Unit := Block.update fun i => { i with issuer := some s }

/-- The loop over the entries of a revocation list: the first one replaces the serial numbers. -/
def readSerials : Bool → List (Call JString) → X509Block Unit
  | _, [] => pure ()
  | isAdd, p :: crlNumber => do
    let n ← Block.call p
    if isAdd then addX509Serial n else setX509Serial n
    readSerials true crlNumber

end X509Block

open X509Block

/-- `checkPEMType`. -/
def checkPEMType (type : JString) : Option JString :=
  if type = "CERTIFICATE".toList ∨ type = "X509 CERTIFICATE".toList then some X509_CERTIFICATE
  else if type = "PRIVATE KEY".toList ∨ type = "RSA PRIVATE KEY".toList then some X509_PRIVATE_KEY
  else if type = "NEW CERTIFICATE REQUEST".toList ∨ type = "CERTIFICATE REQUEST".toList then
    some X509_CERTIFICATE_REQUEST
  else if type = "X509 CRL".toList then some X509_CRL
  else none

section parsers

variable (lib : X509Library) (buf : List UInt8)

/-- The kind of file that the PEM header announces, or `none` if `parsePEM2MSG` returns at once. -/
def pemKind : Option JString :=
  match lib.pemType buf with
  | .ok (some type) => checkPEMType type
  | _ => none

/-- The PEM parser, for a certificate. -/
def pemCertificate : X509Block Bool := do
  match ← Block.call (lib.readObject buf) with
  | .certificate holder =>
    let n ← Block.call holder.getSerialNumber
    let issuer ← Block.call holder.getIssuer
    let subject ← Block.call holder.getSubject
    let start ← Block.call holder.getNotBefore
    let stop ← Block.call holder.getNotAfter
    setX509Type X509_CERTIFICATE
    setX509TypeFile "PEM".toList
    setX509BeginDate (some start)
    setX509EndDate (some stop)
    setX509Serial (← Block.call n)
    setX509Subject (← Block.call subject)
    setX509Issuer (← Block.call issuer)
    pure true
  | _ => pure false

/-- What the PEM parser reads of a revocation list: its issuer and the serial numbers. -/
def pemCRLEntries (crl : CRLHolder) : X509Block JString := do
  let issuer ← Block.call (← Block.call crl.getIssuer)
  let crlNumber ← Block.call crl.getRevokedCertificates
  readSerials false crlNumber
  pure issuer

/-- The PEM parser, for a revocation list: `now` is what the clock shows for the two dates. -/
def pemCRL (now : Date × Date) : X509Block Bool := do
  match ← Block.call (lib.readObject buf) with
  | .crl crl =>
    let issuer ← pemCRLEntries crl
    setX509Type X509_CRL
    setX509TypeFile "PEM".toList
    setX509BeginDate (some now.1)
    setX509EndDate (some now.2)
    setX509Subject issuer
    setX509Issuer issuer
    pure true
  | _ => pure false

/-- The PEM parser, for a request. -/
def pemRequest : X509Block Bool := do
  match ← Block.call (lib.readObject buf) with
  | .request csr =>
    let subject ← Block.call (← Block.call csr.getSubject)
    Block.call csr.getAttributes
    setX509Type X509_CERTIFICATE_REQUEST
    setX509TypeFile "PEM".toList
    setX509BeginDate (some lib.date1980)
    setX509EndDate (some lib.date1980)
    setX509Serial "0".toList
    setX509Subject subject
    setX509Issuer []
    pure true
  | _ => pure false

/-- `parsePEM2MSG`. An exception for a request is not the end: the message is returned as it is. -/
def parsePEM2MSG (now : Date × Date) : StateM X509Info Bool :=
  match pemKind lib buf with
  | none => pure false
  | some type =>
    if type = X509_CERTIFICATE then (pemCertificate lib buf).orElse false
    else if type = X509_CRL then (pemCRL lib buf now).orElse false
    else if type = X509_CERTIFICATE_REQUEST then (pemRequest lib buf).orElse true
    else pure false

/-- The block of `parseX509CERDER2MSG`. -/
def derCertificate : X509Block Bool := do
  let cert ← Block.call (lib.generateCertificate buf)
  let n ← Block.call cert.getSerialNumber
  let _ ← Block.call cert.getIssuerX500Principal
  let issuer ← Block.call cert.getIssuerDN
  let _ ← Block.call cert.getSubjectX500Principal
  let subject ← Block.call cert.getSubjectDN
  let start ← Block.call cert.getNotBefore
  let stop ← Block.call cert.getNotAfter
  setX509Type X509_CERTIFICATE
  setX509TypeFile "DER".toList
  setX509BeginDate (some start)
  setX509EndDate (some stop)
  setX509Serial n
  setX509Subject subject
  setX509Issuer issuer
  pure true

/-- `parseX509CERDER2MSG`. -/
def parseX509CERDER2MSG : StateM X509Info Bool := (derCertificate lib buf).orElse false

/-- The last block of `parseX509CRLDER2MSG`. -/
def derCRL (crl : X509CRL) : X509Block Bool := do
  let _ ← Block.call crl.getIssuerX500Principal
  let issuer ← Block.call crl.getIssuerDN
  let start ← Block.call crl.getThisUpdate
  let stop ← Block.call crl.getNextUpdate
  setX509Type X509_CRL
  setX509TypeFile "DER".toList
  setX509BeginDate (some start)
  setX509EndDate stop
  setX509Subject issuer
  setX509Issuer issuer
  pure true

/-- The block of `parseX509CRLDER2MSG` that reads the entries. The list is `null` where there are none. -/
def derCRLEntries (crl : X509CRL) : X509Block Unit := do
  match ← Block.call crl.getRevokedCertificates with
  | none => Block.call (.error .nullPointer)
  | some crlNumber => readSerials false crlNumber

/-- `parseX509CRLDER2MSG`. An exception in the loop over the entries only ends the loop. -/
def parseX509CRLDER2MSG : StateM X509Info Bool :=
  match lib.generateCRL buf with
  | .error _ => pure false
  | .ok crl => do
    (derCRLEntries crl).orElse ()
    (derCRL crl).orElse false

/-- The block of `parseX509CSRDER2MSG`. -/
def derRequest : X509Block Bool := do
  let csr ← Block.call (lib.certificationRequest buf)
  let subject ← Block.call (← Block.call csr.getSubject)
  Block.call csr.getAttributes
  setX509Type X509_CERTIFICATE_REQUEST
  setX509TypeFile "DER".toList
  setX509BeginDate (some lib.date1980)
  setX509EndDate (some lib.date1980)
  setX509Serial "0".toList
  setX509Subject subject
  setX509Issuer " ".toList
  pure true

/-- `parseX509CSRDER2MSG`. -/
def parseX509CSRDER2MSG : StateM X509Info Bool := (derRequest lib buf).orElse false

/-- `if(ret==null)ret=next(msg,buf)`. -/
def orTry (ret next : StateM X509Info Bool) : StateM X509Info Bool := do
  if ← ret then pure true else next

/-- The four parsers, one after the other. -/
def parseX509 (now : Date × Date) : StateM X509Info Bool :=
  orTry (parsePEM2MSG lib buf now)
    (orTry (parseX509CERDER2MSG lib buf)
      (orTry (parseX509CRLDER2MSG lib buf) (parseX509CSRDER2MSG lib buf)))

end parsers

/-- `parse`: what becomes of the message object, and whether it is returned. -/
def parse (lib : X509Library) (now : Date × Date) (msg : Message) : Message × Bool :=
  match msg.bodyBin with
  | none => (msg, false)
  | some buf =>
    let (ret, info) := (parseX509 lib buf now).run msg.x509Info
    let msg := msg.withX509Info info
    if ret then ({ msg with bodyTxt := some (msg.printx509 lib.toString) }, true) else (msg, false)

/-! ## Which parser takes a file -/

theorem isOk_iff {α : Type} {c : Call α} : c.isOk = true ↔ ∃ a, c = .ok a := by
  rcases c with e | a
  · simp [Except.isOk, Except.toBool]
  · simp [Except.isOk, Except.toBool]

/-- A name that the library returns and that has a text. -/
theorem bind_id_eq_ok {α : Type} {c : Call (Call α)} {a : α} :
    c.bind id = .ok a ↔ c = .ok (.ok a) := by
  rcases c with e | c
  · simp [Except.bind]
  · simp [Except.bind]

namespace CertificateHolder

/-- Every call of the parser succeeds. -/
def readable (holder : CertificateHolder) : Bool :=
  (holder.getSerialNumber.bind id).isOk && (holder.getIssuer.bind id).isOk && (holder.getSubject.bind id).isOk
    && holder.getNotBefore.isOk && holder.getNotAfter.isOk

end CertificateHolder

namespace CRLHolder

/-- Every call of the parser succeeds. -/
def readable (crl : CRLHolder) : Bool :=
  (crl.getIssuer.bind id).isOk && (crl.getRevokedCertificates.toOption.any (·.all (·.isOk)))

end CRLHolder

namespace CertificationRequest

/-- Every call of the parser succeeds. -/
def readable (csr : CertificationRequest) : Bool :=
  (csr.getSubject.bind id).isOk && csr.getAttributes.isOk

end CertificationRequest

namespace X509Certificate

/-- Every call of the parser succeeds. -/
def readable (cert : X509Certificate) : Bool :=
  cert.getSerialNumber.isOk && cert.getIssuerX500Principal.isOk && cert.getIssuerDN.isOk
    && cert.getSubjectX500Principal.isOk && cert.getSubjectDN.isOk && cert.getNotBefore.isOk
    && cert.getNotAfter.isOk

end X509Certificate

section reading

variable (lib : X509Library) (buf : List UInt8)

/-- The file is read as a PEM revocation list. -/
def readsPemCRL : Bool :=
  match pemKind lib buf, lib.readObject buf with
  | some type, .ok (.crl crl) => decide (type = X509_CRL) && crl.readable
  | _, _ => false

/-- The file is announced as a PEM request, and an exception ends the attempt to read it. -/
def failsPemRequest : Bool :=
  match pemKind lib buf, lib.readObject buf with
  | some type, .ok (.request csr) => decide (type = X509_CERTIFICATE_REQUEST) && !csr.readable
  | some type, .error _ => decide (type = X509_CERTIFICATE_REQUEST)
  | _, _ => false

/-- The file is read as a PEM certificate or request. -/
def readsPem : Bool :=
  match pemKind lib buf, lib.readObject buf with
  | some type, .ok (.certificate holder) => decide (type = X509_CERTIFICATE) && holder.readable
  | some type, .ok (.request csr) => decide (type = X509_CERTIFICATE_REQUEST) && csr.readable
  | _, _ => false

/-- The file is read as a DER certificate. -/
def readsDerCertificate : Bool := (lib.generateCertificate buf).toOption.any (·.readable)

/-- The fields that are set for the file depend on the file alone, and all of them are set. -/
structure Reproducible : Prop where
  pemCRL : readsPemCRL lib buf = false
  pemRequest : failsPemRequest lib buf = false
  derCRL : readsPem lib buf = false → readsDerCertificate lib buf = false →
    ∀ crl, lib.generateCRL buf = .ok crl → crl.getNextUpdate ≠ .ok none

end reading

/-! ## What the parsers set -/

/-- All fields are set. -/
structure X509Info.Complete (info : X509Info) : Prop where
  type : info.type.isSome
  typeFile : info.typeFile.isSome
  beginDate : info.beginDate.isSome
  endDate : info.endDate.isSome
  subject : info.subject.isSome
  issuer : info.issuer.isSome

section specs

variable {lib : X509Library} {buf : List UInt8}

/-- A parser that returns the message has set all fields. -/
def Completes (p : StateM X509Info Bool) : Prop :=
  ∀ info, (p.run info).1 = true → (p.run info).2.Complete

/-- A reader whose exception is caught completes if it does so whenever it answers `true`. -/
theorem Completes.orElse_false {b : X509Block Bool}
    (h : ∀ info, b.wp (fun ret info => ret = true → info.Complete) (fun _ _ => True) info) :
    Completes (b.orElse false) := by
  intro info
  apply (Block.wp_orElse (Q := fun ret (info : X509Info) => ret = true → info.Complete)).mpr
  simpa using h info

/-- A certificate in PEM: all fields are set, or the answer is `false`. -/
theorem pemCertificate_complete : Completes ((pemCertificate lib buf).orElse false) := by
  apply Completes.orElse_false
  intro info
  simp only [pemCertificate, Block.wp_bind, Block.wp_call, implies_true, and_true]
  rintro (_ | holder | _ | _ | _) -
  all_goals simp only [Block.wp_bind, Block.wp_call, Block.wp_update, Block.wp_pure,
    Bool.false_eq_true, false_implies, implies_true, and_true]
  intros
  constructor <;> rfl

/-- An exception would be one that `failsPemRequest` excludes. -/
theorem pemRequest_complete (hkind : pemKind lib buf = some X509_CERTIFICATE_REQUEST)
    (h : failsPemRequest lib buf = false) : Completes ((pemRequest lib buf).orElse true) := by
  rw [failsPemRequest, hkind] at h
  intro info
  apply (Block.wp_orElse (Q := fun ret (info : X509Info) => ret = true → info.Complete)).mpr
  simp only [pemRequest, Block.wp_bind, Block.wp_call]
  refine ⟨?_, fun e he => ?_⟩
  · rintro (_ | _ | _ | csr | _) hobj
    all_goals simp only [Block.wp_bind, Block.wp_call, Block.wp_update, Block.wp_pure,
      Bool.false_eq_true, false_implies]
    simp only [hobj, decide_true, Bool.true_and, Bool.not_eq_eq_eq_not, Bool.not_false,
      CertificationRequest.readable, Bool.and_eq_true, isOk_iff, bind_id_eq_ok] at h
    obtain ⟨⟨subject, hsubject⟩, _, hattributes⟩ := h
    simp only [hsubject, hattributes, Except.ok.injEq, forall_eq', reduceCtorEq, false_implies,
      implies_true, and_true, forall_const]
    constructor <;> rfl
  · simp [he] at h

theorem pemCRL_complete (now : Date × Date) : Completes ((pemCRL lib buf now).orElse false) := by
  apply Completes.orElse_false
  intro info
  simp only [pemCRL, Block.wp_bind, Block.wp_call, implies_true, and_true]
  rintro (_ | _ | crl | _ | _) -
  all_goals simp only [Block.wp_bind, Block.wp_pure, Bool.false_eq_true, false_implies]
  apply Block.wp_of_forall
  · intro issuer info
    simp only [Block.wp_bind, Block.wp_update, Block.wp_pure]
    intro
    constructor <;> rfl
  · intros
    trivial

theorem derCertificate_complete : Completes (parseX509CERDER2MSG lib buf) := by
  apply Completes.orElse_false
  intro info
  simp only [derCertificate, Block.wp_bind, Block.wp_call, Block.wp_update, Block.wp_pure,
    implies_true, and_true]
  intros
  constructor <;> rfl

theorem derRequest_complete : Completes (parseX509CSRDER2MSG lib buf) := by
  apply Completes.orElse_false
  intro info
  simp only [derRequest, Block.wp_bind, Block.wp_call, Block.wp_update, Block.wp_pure,
    implies_true, and_true]
  intros
  constructor <;> rfl

/-- A list in DER completes if its next update is not missing. -/
theorem derCRL_complete (h : ∀ crl, lib.generateCRL buf = .ok crl → crl.getNextUpdate ≠ .ok none) :
    Completes (parseX509CRLDER2MSG lib buf) := by
  rw [parseX509CRLDER2MSG]
  rcases hcrl : lib.generateCRL buf with e | crl
  · intro info hret
    cases hret
  · intro info
    have hblock : Completes ((derCRL crl).orElse false) := by
      apply Completes.orElse_false
      intro info
      simp only [derCRL, Block.wp_bind, Block.wp_call, Block.wp_update, Block.wp_pure,
        implies_true, and_true]
      rintro - - issuer - start - (_ | stop) hstop -
      · exact absurd hstop (h crl hcrl)
      · constructor <;> rfl
    exact hblock _

/-- A PEM file that is read is returned. -/
theorem parsePEM2MSG_of_readsPem (h : readsPem lib buf = true) (now : Date × Date) (info : X509Info) :
    ((parsePEM2MSG lib buf now).run info).1 = true := by
  rw [readsPem] at h
  rcases hkind : pemKind lib buf with _ | type
  · simp [hkind] at h
  rcases hobj : lib.readObject buf with e | _ | holder | _ | csr | _
  all_goals simp only [hkind, hobj, Bool.false_eq_true, Bool.and_eq_true, decide_eq_true_eq,
    CertificateHolder.readable, CertificationRequest.readable, isOk_iff, bind_id_eq_ok] at h
  · obtain ⟨rfl, ⟨⟨⟨⟨n, hn⟩, issuer, hissuer⟩, subject, hsubject⟩, start, hstart⟩, stop, hstop⟩ := h
    simp only [parsePEM2MSG, hkind, ↓reduceIte]
    apply (Block.wp_orElse (Q := fun ret (_ : X509Info) => ret = true)).mpr
    simp [pemCertificate, hobj, hn, hissuer, hsubject, hstart, hstop]
  · obtain ⟨rfl, ⟨subject, hsubject⟩, _, hattributes⟩ := h
    simp only [parsePEM2MSG, hkind]
    apply (Block.wp_orElse (Q := fun ret (_ : X509Info) => ret = true)).mpr
    simp [pemRequest, hobj, hsubject, hattributes]

theorem parseX509CERDER2MSG_of_reads (h : readsDerCertificate lib buf = true) (info : X509Info) :
    ((parseX509CERDER2MSG lib buf).run info).1 = true := by
  rw [readsDerCertificate] at h
  rcases hcert : lib.generateCertificate buf with e | cert
  · rw [hcert] at h
    cases h
  · simp only [hcert, Except.toOption, Option.any_some, X509Certificate.readable, Bool.and_eq_true,
      isOk_iff] at h
    obtain ⟨⟨⟨⟨⟨⟨⟨n, hn⟩, _, hissuer'⟩, issuer, hissuer⟩, _, hsubject'⟩, subject, hsubject⟩, start,
      hstart⟩, stop, hstop⟩ := h
    apply (Block.wp_orElse (Q := fun ret (_ : X509Info) => ret = true)).mpr
    simp [derCertificate, hcert, hn, hissuer', hissuer, hsubject', hsubject, hstart, hstop]

theorem parsePEM2MSG_complete (h : Reproducible lib buf) (now : Date × Date) :
    Completes (parsePEM2MSG lib buf now) := by
  unfold parsePEM2MSG
  rcases hkind : pemKind lib buf with _ | type
  · intro info hret
    cases hret
  dsimp only
  split_ifs with hcert hcrl hrequest
  · exact pemCertificate_complete
  · exact pemCRL_complete now
  · subst hrequest
    exact pemRequest_complete hkind h.pemRequest
  · intro info hret
    cases hret

/-- The second reader starts from what the first has left behind. -/
theorem run_orTry (ret next : StateM X509Info Bool) (info : X509Info) :
    (orTry ret next).run info
      = if (ret.run info).1 = true then (true, (ret.run info).2) else next.run (ret.run info).2 := by
  rw [orTry, StateT.run_bind]
  show (match ret.run info with | (a, s') => _ : Id _) = _
  rcases ret.run info with ⟨_ | _, info'⟩
  · rfl
  · rfl

theorem Completes.orTry {ret next : StateM X509Info Bool} (hret : Completes ret)
    (hnext : (∀ info, (ret.run info).1 = true) ∨ Completes next) : Completes (orTry ret next) := by
  intro info
  rw [run_orTry]
  by_cases htrue : (ret.run info).1 = true
  · rw [if_pos htrue]
    exact fun _ => hret info htrue
  · rw [if_neg htrue]
    rcases hnext with halways | hnext
    · exact absurd (halways info) htrue
    · exact hnext _

/-- Whatever is returned for such a file has all fields. -/
theorem parseX509_complete (h : Reproducible lib buf) (now : Date × Date) :
    Completes (parseX509 lib buf now) := by
  apply Completes.orTry (parsePEM2MSG_complete h now)
  by_cases hpem : readsPem lib buf = true
  · exact Or.inl (parsePEM2MSG_of_readsPem hpem now)
  right
  apply Completes.orTry derCertificate_complete
  by_cases hder : readsDerCertificate lib buf = true
  · exact Or.inl (parseX509CERDER2MSG_of_reads hder)
  right
  have hcrl := h.derCRL (Bool.eq_false_iff.mpr hpem) (Bool.eq_false_iff.mpr hder)
  exact Completes.orTry (derCRL_complete hcrl) (Or.inr derRequest_complete)

/-! ## The clock -/

theorem readSerials_isOk (isAdd : Bool) (entries : List (Call JString)) (info : X509Info) :
    (readSerials isAdd entries).wp (fun _ _ => ∀ p ∈ entries, p.isOk = true) (fun _ _ => True) info := by
  induction entries generalizing isAdd info with
  | nil => simp [readSerials]
  | cons p entries ih =>
    have hrest := ih true
    rw [readSerials, Block.wp_bind, Block.wp_call]
    refine ⟨?_, fun _ _ => trivial⟩
    rintro n rfl
    cases isAdd
    all_goals simpa [Except.isOk, Except.toBool] using hrest _

/-- A block that reads all entries has met no exception. -/
theorem pemCRLEntries_readable (crl : CRLHolder) (info : X509Info) :
    (pemCRLEntries crl).wp (fun _ _ => crl.readable = true) (fun _ _ => True) info := by
  simp only [pemCRLEntries, Block.wp_bind, Block.wp_call, implies_true, and_true]
  rintro _ hname issuer rfl entries hentries
  have hreadable : crl.readable = true ↔ ∀ p ∈ entries, p.isOk = true := by
    rw [CRLHolder.readable, hname, hentries]
    simp [Except.bind, Except.toOption, Except.isOk, Except.toBool]
  show (readSerials false entries).wp (fun _ _ => crl.readable = true) (fun _ _ => True) info
  simp only [hreadable]
  exact readSerials_isOk false entries info

/-- The clock is read only for a PEM revocation list. -/
theorem pemCRL_now (h : readsPemCRL lib buf = false) (hkind : pemKind lib buf = some X509_CRL)
    (now now' : Date × Date) (info : X509Info) :
    (pemCRL lib buf now).run.run info = (pemCRL lib buf now').run.run info := by
  rw [readsPemCRL, hkind] at h
  have hcall : (Block.call (lib.readObject buf) : X509Block PemObject).run.run info
      = (lib.readObject buf, info) := rfl
  rw [pemCRL, pemCRL, Block.run_bind, Block.run_bind, hcall]
  rcases hobj : lib.readObject buf with e | _ | _ | crl | _ | _
  case ok.crl =>
    simp only [hobj, decide_true, Bool.true_and] at h
    have hentries := pemCRLEntries_readable crl info
    simp only [Block.run_bind]
    rcases hrun : (pemCRLEntries crl).run.run info with ⟨e | issuer, info'⟩
    · rfl
    · rw [Block.wp, hrun, h] at hentries
      cases hentries
  all_goals rfl

/-- Only the dates of a list in PEM are taken from the clock. -/
theorem parsePEM2MSG_now (h : readsPemCRL lib buf = false) (now now' : Date × Date) :
    parsePEM2MSG lib buf now = parsePEM2MSG lib buf now' := by
  unfold parsePEM2MSG
  rcases hkind : pemKind lib buf with _ | type
  · rfl
  · by_cases htype : type = X509_CRL
    · subst htype
      have hrun : (pemCRL lib buf now).orElse false = (pemCRL lib buf now').orElse false := by
        apply StateT.ext
        intro info
        rw [Block.run_orElse, Block.run_orElse, pemCRL_now h hkind now now']
      rw [hrun]
    · simp only [if_neg htype]

/-- Reproducible files are read alike at any time. -/
theorem parseX509_now (h : Reproducible lib buf) (now now' : Date × Date) :
    parseX509 lib buf now = parseX509 lib buf now' := by
  rw [parseX509, parseX509, parsePEM2MSG_now h.pemCRL now now']

/-- A message that is returned has the fields that the parsers have set, and is otherwise the old one. -/
theorem parse_returned {msg : Message} (hbuf : msg.bodyBin = some buf) {now : Date × Date}
    (h : (parse lib now msg).2 = true) :
    ((parseX509 lib buf now).run msg.x509Info).1 = true
      ∧ (parse lib now msg).1.x509Info = ((parseX509 lib buf now).run msg.x509Info).2
      ∧ (parse lib now msg).1.bodyBin64 = msg.bodyBin64 ∧ (parse lib now msg).1.x509Id = msg.x509Id := by
  revert h
  rw [parse, hbuf]
  dsimp only
  rcases (parseX509 lib buf now).run msg.x509Info with ⟨_ | _, info⟩
  · intro h
    cases h
  · exact fun _ => ⟨rfl, rfl, rfl, rfl⟩

end specs

end OrgLittle.Lmsg
