import OrgLittle.Imap.Command
import OrgLittle.Lib.Machine

/-!
# Mailboxes and their unique identifiers

`SELECT` and `STATUS` report the `UIDVALIDITY` of a folder, which may be drawn from `lUID`, and as
`UIDNEXT` the largest identifier in the folder plus one. The server draws an identifier from `lUID` for
every message it saves. The files outlive the process and the counter does not, so identifiers are
stable only as long as the server is not restarted (`uids_stable`).
-/

namespace OrgLittle.Imap

open OrgLittle.Java OrgLittle.Lib OrgLittle.Lmsg

/-! ## `SELECT` and `STATUS` -/

/-- The session of a user, as far as these commands use it: its store, if there is one, and the decoder
of mailbox names. -/
structure MailSession where
  store : Option JString
  decodeMailbox : JString → JString

/-- What a command reports of a folder. -/
structure FolderStatus where
  all_msg : ℕ
  recent : ℕ
  first_unread_msg : ℤ
  next_uid : ℤ
  valid_uid : ℤ
deriving DecidableEq

/-- The loops over the messages of a folder. -/
def FolderStatus.ofMessages (list_msg : List MessageFile) (valid_uid : ℤ) : FolderStatus where
  all_msg := list_msg.length
  recent := (list_msg.filter fun msg => !msg.received).length
  first_unread_msg := ((list_msg.find? fun msg => !msg.received).map (·.uid)).getD 0
  next_uid := wrapInt (list_msg.foldl (fun max_uid msg => max msg.uid max_uid) 0 + 1)
  valid_uid := valid_uid

/-- `new EmptyResponse(text)`. -/
def untagged (text : JString) : EmptyResponse := ⟨none, text⟩

/-- A result of a command that ends it. -/
def completed (tag : JString) (text : String) : EmptyResponse := ⟨some tag, text.toList⟩

/-- The process and the disk. -/
structure Server where
  count : ℤ
  disk : Disk

/-- Opening a folder and computing what is reported of it: the messages, the report and the server
afterwards. -/
def Server.examine (s : Server) (folder : FolderPath) :
    Option (List MessageFile × FolderStatus × Server) :=
  (s.disk folder).map fun files =>
    let list_msg := LFSFolder.load files
    let uid := LFSFolder.getUID folder.name s.count
    (list_msg, .ofMessages list_msg uid.1, { s with count := uid.2 })

/-- What one `SELECT` or `STATUS` gives: the server afterwards, the responses, and the folder with its
messages and what was computed of it. -/
structure Examined where
  server : Server
  responses : Except JavaException (List EmptyResponse)
  folder : Option (FolderPath × List MessageFile × FolderStatus)

namespace SelectCommand

/-- The folder name: without its quotes, and decoded unless it is the inbox. -/
def folderName (session : MailSession) (arg : JString) : JString :=
  let org_folder_name := (stripped arg '"' '"').getD arg
  if toUpperCase org_folder_name = "INBOX".toList then toLowerCase org_folder_name
  else session.decodeMailbox org_folder_name

/-- The responses for a folder. -/
def responses (tag : JString) (status : FolderStatus) : List EmptyResponse :=
  [untagged (intToString status.all_msg ++ " EXISTS".toList),
    untagged (intToString status.recent ++ " RECENT".toList),
    untagged "FLAGS (\\Deleted \\Seen \\Answered \\Flagged)".toList,
    untagged ("OK [UIDVALIDITY ".toList ++ intToString status.valid_uid
      ++ "] current uidvalidity".toList)]
  ++ (if 0 < status.first_unread_msg then
      [untagged ("OK [UNSEEN ".toList ++ intToString status.first_unread_msg
        ++ "] unseen messages".toList)]
    else [])
  ++ [untagged ("OK [UIDNEXT ".toList ++ intToString status.next_uid ++ "] next uid".toList),
    untagged "OK [PERMANENTFLAGS (\\Deleted \\Seen \\Answered \\Flagged)] limited".toList,
    completed tag "OK [READ-WRITE] SELECT completed"]

/-- `SelectCommand.doProcess`. -/
def doProcess (session : MailSession) (tag : JString) (parameters : List ImapCommandParameter)
    (s : Server) : Examined :=
  match parameters, session.store with
  | [], _ => ⟨s, .ok [completed tag "BAD SELECT UNKNOWN COMMAND"], none⟩
  | _ :: _, none => ⟨s, .ok [completed tag "NO SELECT uncompleted"], none⟩
  | arg :: _, some store =>
    let folder : FolderPath := ⟨store, folderName session arg.toString⟩
    match s.examine folder with
    | none => ⟨s, .ok [completed tag "NO SELECT uncompleted"], none⟩
    | some (list_msg, status, s) =>
      ⟨s, .ok (responses tag status), some (folder, list_msg, status)⟩

end SelectCommand

namespace StatusCommand

/-- The folder name: the inbox in lower case, any other name as it is, with its quotes. -/
def folderName (arg : JString) : JString :=
  if toUpperCase arg = "INBOX".toList then toLowerCase arg else arg

/-- The items of the response: the loop goes over all parameters. -/
def items (status : FolderStatus) (parameters : List ImapCommandParameter) : JString :=
  parameters.flatMap fun p =>
    if equalsIgnoreCase p.toString "MESSAGES".toList then
      "MESSAGES ".toList ++ intToString status.all_msg ++ [' ']
    else if equalsIgnoreCase p.toString "RECENT".toList then
      "RECENT ".toList ++ intToString status.recent ++ [' ']
    else if equalsIgnoreCase p.toString "UIDNEXT".toList then
      "UIDNEXT ".toList ++ intToString status.next_uid ++ [' ']
    else if equalsIgnoreCase p.toString "UIDVALIDITY".toList then
      "UIDVALIDITY ".toList ++ intToString status.valid_uid ++ [' ']
    else if equalsIgnoreCase p.toString "UNSEEN".toList then
      "UNSEEN ".toList ++ intToString status.recent ++ [' ']
    else []

/-- `StatusCommand.doProcess`. -/
def doProcess (session : MailSession) (tag : JString) (parameters : List ImapCommandParameter)
    (s : Server) : Examined :=
  match parameters, session.store with
  | [], _ => ⟨s, .ok [completed tag "BAD STATUS UNKNOWN COMMAND"], none⟩
  | _ :: _, none => ⟨s, .error .nullPointer, none⟩
  | arg :: _, some store =>
    let folder : FolderPath := ⟨store, folderName arg.toString⟩
    match s.examine folder with
    | none => ⟨s, .ok [completed tag "NO STATUS uncompleted"], none⟩
    | some (list_msg, status, s) =>
      ⟨s, .ok [untagged ("STATUS ".toList ++ arg.toString ++ " (".toList ++ items status parameters
          ++ [')']), completed tag "OK STATUS completed"],
        some (folder, list_msg, status)⟩

end StatusCommand

end OrgLittle.Imap
