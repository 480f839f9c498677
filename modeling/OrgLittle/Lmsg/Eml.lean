import OrgLittle.Lmsg.X509

/-!
# `ELM2lMessage`: a letter and its attachments

A letter becomes one message for each part with a file name, wherever it stands in the tree of parts. All of
them have the header of the letter (`parse_header`); the header of an attached letter is not read.
-/

namespace OrgLittle.Lmsg

open OrgLittle.Java

/-- `javax.mail.Part`, as far as it is read. -/
inductive MimePart
  /-- the content type or the file name is an exception, or the content is neither text nor a stream -/
  | unreadable
  /-- text or a stream, with its bytes -/
  | single (getFileName : Option JString) (getContent : Call (List UInt8))
  /-- `multipart/*`: the parts up to the first exception -/
  | multipart (parts : List MimePart)
  /-- `message/rfc822` -/
  | message (content : MimePart)

/-- `javax.mail.internet.MimeMessage`. An address is its text, and `null` is `none`. -/
structure MimeMessage where
  getFrom : Call (Option (List JString))
  getAllRecipients : Call (Option (List JString))
  getSubject : Call (Option JString)
  getSentDate : Call (Option Date)
  getMessageID : Call (Option JString)
  part : MimePart

namespace ELM2lMessage

/-- `getLocalUser`. -/
def getLocalUser (addr : JString) : JString := addr.takeWhile (· ≠ '@')

/-- What `parse` reads of the sender. -/
def setFrom (msg : Message) : Option (List JString) → Call Message
  | none => .ok msg
  | some [] => .error .indexOutOfBounds
  | some (addr :: _) => .ok { msg with from_ := some (getLocalUser addr) }

/-- The header of the letter, with `newID` for a letter that has no identifier. -/
def header (now : Date) (newID : JString) (eml : MimeMessage) : Call Message := do
  let msg ← setFrom (Message.new now) (← eml.getFrom)
  let addr ← eml.getAllRecipients
  let subject ← eml.getSubject
  let sentDate ← eml.getSentDate
  let id ← eml.getMessageID
  return { msg with
    to_ := (addr.getD []).map getLocalUser
    subject := subject
    createDate := sentDate
    sentDate := sentDate
    id := some (id.getD newID)
    receiveDate := some now }

/-- What a content with bytes adds to the list: nothing if it has no file name. -/
def attachment (now : Date) (msg : Message) (getFileName : Option JString)
    (getContent : Call (List UInt8)) : List Message :=
  match getContent, getFileName with
  | .ok buf, some filename =>
    if filename = [] then []
    else [((msg.copy now).setFilename (some filename)).setBodyBin (some buf)]
  | _, _ => []

mutual

/-- `_eml2msg`: the messages that a part adds to the list. -/
def eml2msg (now : Date) (msg : Message) : MimePart → List Message
  | .unreadable => []
  | .single getFileName getContent => attachment now msg getFileName getContent
  | .multipart parts => eml2msgs now msg parts
  | .message content => eml2msg now msg content

/-- The loop over the parts of a multipart. -/
def eml2msgs (now : Date) (msg : Message) : List MimePart → List Message
  | [] => []
  | p :: parts => eml2msg now msg p ++ eml2msgs now msg parts

end

/-- `parse`: a letter without attachments is no message. -/
def parse (now : Date) (newID : JString) (eml : MimeMessage) : Option (List Message) :=
  match header now newID eml with
  | .error _ => none
  | .ok msg =>
    let list := eml2msg now msg eml.part
    if list = [] then none else some list

mutual

/-- Every attachment has the sender and the recipients of the letter. -/
theorem eml2msg_header (now : Date) (msg : Message) (p : MimePart) :
    ∀ m ∈ eml2msg now msg p, m.from_ = msg.from_ ∧ m.to_ = msg.to_ := by
  intro m hm
  cases p with
  | unreadable => cases hm
  | single getFileName getContent =>
    rw [eml2msg] at hm
    unfold attachment at hm
    split at hm
    · split_ifs at hm
      · cases hm
      · rw [List.mem_singleton.mp hm]
        exact ⟨rfl, rfl⟩
    · cases hm
  | multipart parts =>
    rw [eml2msg] at hm
    exact eml2msgs_header now msg parts m hm
  | message content =>
    rw [eml2msg] at hm
    exact eml2msg_header now msg content m hm

theorem eml2msgs_header (now : Date) (msg : Message) (parts : List MimePart) :
    ∀ m ∈ eml2msgs now msg parts, m.from_ = msg.from_ ∧ m.to_ = msg.to_ := by
  intro m hm
  cases parts with
  | nil => cases hm
  | cons p parts =>
    rw [eml2msgs] at hm
    rcases List.mem_append.mp hm with hm | hm
    · exact eml2msg_header now msg p m hm
    · exact eml2msgs_header now msg parts m hm

end

/-- The recipients that the header of a letter names. -/
def recipients (eml : MimeMessage) : List JString :=
  match eml.getAllRecipients with
  | .ok (some addr) => addr.map getLocalUser
  | _ => []

theorem header_to {now : Date} {newID : JString} {eml : MimeMessage} {msg : Message}
    (h : header now newID eml = .ok msg) : msg.to_ = recipients eml := by
  unfold header at h
  simp only [bind, Except.bind, pure, Except.pure] at h
  split at h
  · cases h
  · split at h
    · cases h
    · split at h
      · cases h
      · next addr haddr =>
        split at h
        · cases h
        · split at h
          · cases h
          · split at h
            · cases h
            · rw [← Except.ok.inj h, recipients, haddr]
              cases addr <;> rfl

theorem parse_ne_nil {now : Date} {newID : JString} {eml : MimeMessage} {msgs : List Message}
    (h : parse now newID eml = some msgs) : msgs ≠ [] := by
  unfold parse at h
  split at h
  · cases h
  · dsimp only at h
    split_ifs at h with hlist
    rw [← Option.some.inj h]
    exact hlist

/-- The recipients of every attachment are those that the header names. -/
theorem parse_to {now : Date} {newID : JString} {eml : MimeMessage} {msgs : List Message}
    (h : parse now newID eml = some msgs) : ∀ m ∈ msgs, m.to_ = recipients eml := by
  unfold parse at h
  split at h
  · cases h
  · next msg hmsg =>
    dsimp only at h
    split_ifs at h
    rw [← Option.some.inj h]
    intro m hm
    rw [(eml2msg_header now msg eml.part m hm).2, header_to hmsg]

end ELM2lMessage

end OrgLittle.Lmsg
