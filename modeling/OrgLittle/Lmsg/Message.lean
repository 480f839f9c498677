import OrgLittle.Java.Text
import OrgLittle.Util.Base64

/-!
# `lMessage`

The record that the mail servers, the message files and the archive pass around. A reference that may be
`null` is an `Option`, and a `Date` is its number of milliseconds.
-/

namespace OrgLittle.Lmsg

open OrgLittle.Java OrgLittle.Util

/-- `java.util.Date` and `java.sql.Timestamp`. -/
abbrev Date := ℤ

/-- The fields of `lMessage` that are stored: the letter, its bodies and what is known of an attached
X.509 file. -/
structure Message where
  from_ : Option JString
  to_ : List JString
  id : Option JString
  subject : Option JString
  filename : Option JString
  mime : Option JString
  createDate : Option Date
  sentDate : Option Date
  receiveDate : Option Date
  answerDate : Option Date
  delDate : Option Date
  bodyTxt : Option JString
  bodyBin : Option (List UInt8)
  bodyBin64 : JString
  size : ℤ
  num : ℤ
  uid : ℤ
  x509Id : ℤ
  x509Type : Option JString
  x509TypeFile : Option JString
  x509BeginDate : Option Date
  x509EndDate : Option Date
  x509Serial : List JString
  x509Subject : Option JString
  x509Issuer : Option JString
deriving DecidableEq

namespace Message

/-- `new lMessage()` at the time `now`. -/
def new (now : Date) : Message where
  from_ := some []
  to_ := []
  id := some []
  subject := some []
  filename := some []
  mime := some []
  createDate := some now
  sentDate := none
  receiveDate := none
  answerDate := none
  delDate := none
  bodyTxt := some []
  bodyBin := none
  bodyBin64 := []
  size := 0
  num := 0
  uid := 0
  x509Id := -1
  x509Type := some []
  x509TypeFile := some "PEM".toList
  x509BeginDate := none
  x509EndDate := none
  x509Serial := []
  x509Subject := some []
  x509Issuer := some []

/-- `new lMessage(m)` at the time `now`: `set` leaves the number, the identifiers, the MIME type, the
answer date and the base64 text of the new object as they are. -/
def copy (now : Date) (m : Message) : Message :=
  { m with
    mime := (new now).mime
    answerDate := (new now).answerDate
    bodyBin64 := (new now).bodyBin64
    num := (new now).num
    uid := (new now).uid
    x509Id := (new now).x509Id }

/-- `setX509ID`. -/
def setX509ID (id : ℤ) (m : Message) : Message := { m with x509Id := id }

/-- `setFilename`. -/
def setFilename (filename : Option JString) (m : Message) : Message := { m with filename := filename }

/-- `setBodyBin`. -/
def setBodyBin (b : Option (List UInt8)) (m : Message) : Message :=
  { m with
    bodyBin := b
    bodyBin64 := b.elim [] Base64.byteArrayToBase64
    size := b.elim 0 fun b => (b.length : ℤ) }

/-- `getTOs`. -/
def getTOs (m : Message) : JString := [','].intercalate m.to_

/-- `getX509Serials`. -/
def getX509Serials (m : Message) : JString := [',', ' '].intercalate m.x509Serial

section setX509ID

variable (id : ℤ) (m : Message)

@[simp] theorem setX509ID_x509Id : (m.setX509ID id).x509Id = id := rfl
@[simp] theorem setX509ID_x509Type : (m.setX509ID id).x509Type = m.x509Type := rfl
@[simp] theorem setX509ID_x509Serial : (m.setX509ID id).x509Serial = m.x509Serial := rfl
@[simp] theorem setX509ID_getX509Serials : (m.setX509ID id).getX509Serials = m.getX509Serials := rfl

@[simp] theorem setX509ID_setX509ID (id' : ℤ) :
    (m.setX509ID id).setX509ID id' = m.setX509ID id' := rfl

end setX509ID

end Message

end OrgLittle.Lmsg
