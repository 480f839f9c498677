import OrgLittle.Imap.Fetch
import OrgLittle.Imap.Login
import OrgLittle.Util.StringWildCard

/-!
# The commands of a connection

`ImapCommandBuilder.build` chooses the class of a command by its name, and `ImapCommandHandler` calls its `doProcess`
with the context of the connection. The commands reach the mail only through the interfaces `lStore` and `lFolder`
(`LStore`), and the store only through the transaction that `LOGIN` opens.
-/

namespace OrgLittle.Imap

open OrgLittle.Java OrgLittle.Lib OrgLittle.Lmsg OrgLittle.Util

/-! ## Stores and folders -/

/-- An `lFolder` that has been opened: its name and the messages that `getMsg` gives. -/
structure LFolder where
  name : JString
  list_msg : List FetchMessage

/-- The `lStore` that `lRoot.getStore` gives for a user, with the calls of its folders; `σ` is the state of the process
and of the whole disk, so that each may read and write the files of any other. What `save` saves gets its identifier
first. -/
structure LStore (σ : Type*) where
  getListFolder : σ → List (Option LFolder)
  getFolder : JString → σ → Option LFolder
  createFolder : JString → σ → Option LFolder × σ
  deleteFolder : JString → σ → σ
  getUID : LFolder → σ → ℤ × σ
  save : LFolder → LMessage → σ → σ

/-- What a message looks like in its file, as far as `SELECT` and `STATUS` count it. -/
def FetchMessage.file (msg : FetchMessage) : MessageFile :=
  ⟨[], msg.uid, msg.uid, msg.receiveDate.isSome, true⟩

/-- What the code outside the commands answers: the user directory, the clock and the printers of `FETCH`,
`BASE64MailboxDecoder.decode`, `BASE64MailboxEncoder.encode` and the parsers of mail texts. -/
structure CommandEnv where
  login : LoginEnv
  fetch : FetchEnv
  decodeMailbox : JString → JString
  encodeMailbox : JString → JString
  parseEml : List UInt8 → Option (List (Option LMessage))
  parseX509 : LMessage → Option LMessage

/-- A directory with one user, and mailbox names and mails that are texts as they are. -/
def CommandEnv.stub : CommandEnv where
  login := .stub
  fetch := ⟨"localhost".toList, 0, fun _ => ⟨1, 0, 2020, 0, 0, 0, 0⟩, fun _ => [], id, fun _ => []⟩
  decodeMailbox := id
  encodeMailbox := id
  parseEml _ := some []
  parseX509 := some

/-- A store with an inbox; the server is the counter of identifiers. -/
def LStore.stub : LStore ℤ where
  getListFolder _ := [some ⟨"inbox".toList, []⟩]
  getFolder name _ := if name = "inbox".toList then some ⟨name, []⟩ else none
  createFolder _ count := (none, count)
  deleteFolder _ count := count
  getUID folder count := LFSFolder.getUID folder.name count
  save _ _ count := (LUID.get count).2

/-! ## The context of a connection -/

/-- `IMAPTransaction` with the folder that is selected. -/
structure MailTransaction extends IMAPTransaction where
  foldername : Option JString
  folder : Option LFolder
  list_msg : Option (List FetchMessage)

/-- `SessionContext`. -/
structure MailContext where
  imapTransaction : Option MailTransaction

namespace MailContext

/-- The context that `SessionInitiationHandler` makes for a new connection. -/
def new : MailContext := ⟨none⟩

/-- The part of the context that `LOGIN` looks at. -/
def login (ctx : MailContext) : ImapSession := ⟨ctx.imapTransaction.map (·.toIMAPTransaction)⟩

/-- `txSession.getStore()`; without a transaction or in one without a store there is nothing to call. -/
def store (ctx : MailContext) : Option JString := ctx.imapTransaction.bind (·.store)

/-- `txSession.getFolder()`. -/
def folder (ctx : MailContext) : Option LFolder := ctx.imapTransaction.bind (·.folder)

/-- The context after `setMsg`. -/
def setMsg (ctx : MailContext) (list_msg : List FetchMessage) : MailContext :=
  ⟨ctx.imapTransaction.map fun txSession => { txSession with list_msg := some list_msg }⟩

/-- The context after `setFolderName`, `setFolder` and `setMsg`. -/
def select (ctx : MailContext) (folder_name : JString) (folder : LFolder) : MailContext :=
  ⟨ctx.imapTransaction.map fun txSession =>
    { txSession with foldername := some folder_name, folder := some folder, list_msg := some folder.list_msg }⟩

end MailContext

/-- What one command gives: the context and the server afterwards, and the responses or an exception. -/
structure CommandResult (σ : Type*) where
  ctx : MailContext
  server : σ
  result : Except JavaException (List EmptyResponse)

/-- `arg` without its quotation marks. -/
def unquote (arg : JString) : Except JavaException JString :=
  if startsWith arg ['"'] ∧ endsWith arg ['"'] then substring arg 1 (arg.length - 1) else .ok arg

/-- The inbox in lower case, any other name as it is. -/
def inboxName (org_folder_name : JString) : JString :=
  if toUpperCase org_folder_name = "INBOX".toList then toLowerCase org_folder_name else org_folder_name

/-! ## Commands that only answer -/

/-- The responses of a command that does nothing. -/
def done (name : String) (tag : JString) : List EmptyResponse := [completed tag ("OK " ++ name ++ " completed")]

/-- `CheckCommand.doProcess`. -/
def CheckCommand.doProcess (tag : JString) : List EmptyResponse := done "CHECK" tag

/-- `CopyCommand.doProcess`. -/
def CopyCommand.doProcess (tag : JString) : List EmptyResponse := done "COPY" tag

/-- `ExamineCommand.doProcess`: `EXAMINE` opens nothing. -/
def ExamineCommand.process (tag : JString) : List EmptyResponse := done "EXAMINE" tag

/-- `ExpungeCommand.doProcess`. -/
def ExpungeCommand.doProcess (tag : JString) : List EmptyResponse := done "EXPUNGE" tag

/-- `NoopCommand.doProcess`. -/
def NoopCommand.doProcess (tag : JString) : List EmptyResponse := done "NOOP" tag

/-- `QuotaCommand.doProcess`. -/
def QuotaCommand.doProcess (tag : JString) : List EmptyResponse := done "QUOTA" tag

/-- `RenameCommand.doProcess`. -/
def RenameCommand.doProcess (tag : JString) : List EmptyResponse := done "RENAME" tag

/-- `SetQuotaCommand.doProcess`. -/
def SetQuotaCommand.doProcess (tag : JString) : List EmptyResponse := done "SETQUOTA" tag

/-- `SortCommand.doProcess`. -/
def SortCommand.doProcess (tag : JString) : List EmptyResponse := done "SORT" tag

/-- `StoreCommand.doProcess`. -/
def StoreCommand.doProcess (tag : JString) : List EmptyResponse := done "STORE" tag

/-- `LogoutCommand.doProcess`: no untagged response, and the transaction stays open. -/
def LogoutCommand.doProcess (tag : JString) : List EmptyResponse :=
  [completed tag "OK LOGOUT completed IMAP4rev1 Server logging out"]

/-- `CapabilityCommand.doProcess`. -/
def CapabilityCommand.doProcess (tag : JString) : List EmptyResponse :=
  untagged "CAPABILITY IMAP4rev1 IMAP4 QUOTA".toList :: done "CAPABILITY" tag

/-- `AuthenticateCommand.doProcess`. -/
def AuthenticateCommand.doProcess (tag : JString) :
    List ImapCommandParameter → Except JavaException (List EmptyResponse)
  | [] => .error .indexOutOfBounds
  | _ :: _ => .ok [completed tag "NO AUTHENTICATE uncompleted"]

/-- `UnsubscribeCommand.doProcess`. -/
def UnsubscribeCommand.doProcess (tag : JString) :
    List ImapCommandParameter → Except JavaException (List EmptyResponse)
  | [] => .ok [completed tag "BAD UNSUBSCRIBE UNKNOWN COMMAND"]
  | arg :: _ => (unquote (inboxName arg.toString)).map fun _ => done "UNSUBSCRIBE" tag

/-- `QuotaRootCommand.doProcess`. -/
def QuotaRootCommand.doProcess (tag : JString) :
    List ImapCommandParameter → Except JavaException (List EmptyResponse)
  | [] => .ok [completed tag "BAD GETQUOTAROOT UNKNOWN COMMAND"]
  | arg :: _ => (unquote (inboxName arg.toString)).map fun _ =>
      untagged ("QUOTAROOT ".toList ++ arg.toString ++ " \"\"".toList) :: untagged "QUOTA \"\" ()".toList
        :: done "GETQUOTAROOT" tag

/-- `ImapCommand.doProcess`, for a command that is not known. -/
def ImapCommand.doProcess (tag command : JString) : List EmptyResponse :=
  [⟨some tag, "BAD [".toList ++ command ++ "] uncompleted ???????".toList⟩]

/-! ## Commands that ask the store -/

section store

variable {σ : Type*} (root : JString → LStore σ) (env : CommandEnv) (tag : JString)

/-- `SubscribeCommand.doProcess`: `OK` for a folder that does not open. The quotation marks are taken off twice. -/
def SubscribeCommand.doProcess (ctx : MailContext) (s : σ) :
    List ImapCommandParameter → Except JavaException (List EmptyResponse)
  | [] => .ok [completed tag "BAD SUBSCRIBE UNKNOWN COMMAND"]
  | arg :: _ => do
    let folder_name ← unquote (inboxName arg.toString)
    match ctx.store with
    | none => .ok [completed tag "NO SUBSCRIBE uncompleted"]
    | some store =>
      let folder_name ← unquote folder_name
      let _ ← unquote arg.toString
      match (root store).getFolder folder_name s with
      | none => .ok (done "SUBSCRIBE" tag)
      | some _ => .ok [completed tag "NO SUBSCRIBE uncompleted"]

namespace ListCommand

/-- `DELIMITER`. -/
def DELIMITER : JString := ['/']

/-- What the loop does with one folder of the list. -/
def line (arg2 : JString) : Option LFolder → Except JavaException (List EmptyResponse)
  | none => .error .nullPointer
  | some folder =>
    if StringWildCard.wildcardMatch (some (utf16 (toUpperCase folder.name))) (some (utf16 (env.decodeMailbox arg2)))
        .INSENSITIVE then
      .ok [untagged ("LIST (\\HasNoChildren) \"".toList ++ DELIMITER ++ "\" \"".toList
        ++ env.encodeMailbox folder.name ++ ['"'])]
    else .ok []

/-- `ListCommand.doProcess`. Without two arguments `arg1` is `null`. -/
def doProcess (ctx : MailContext) (s : σ) : List ImapCommandParameter → Except JavaException (List EmptyResponse)
  | arg1 :: arg2 :: _ => do
    let arg1 ← unquote arg1.toString
    let arg2 ← unquote arg2.toString
    if arg1 = [] ∧ arg2 = [] then
      .ok (untagged ("LIST (\\Noselect) \"".toList ++ DELIMITER ++ "\" \"\"".toList) :: done "LIST" tag)
    else
      match ctx.store with
      | none => .error .nullPointer
      | some store =>
        if arg1 = [] ∨ arg1 = DELIMITER then do
          let lines ← ((root store).getListFolder s).mapM (line env arg2)
          .ok (lines.flatten ++ done "LIST" tag)
        else .ok (done "LIST" tag)
  | _ => .error .nullPointer

end ListCommand

namespace LsubCommand

/-- What the loop does with one folder of the list. -/
def line (arg2 : JString) : Option LFolder → Except JavaException (List EmptyResponse)
  | none => .error .nullPointer
  | some folder =>
    if StringWildCard.wildcardMatch (some (utf16 folder.name)) (some (utf16 arg2)) .INSENSITIVE then
      .ok [untagged ("LSUB (\\HasNoChildren) \".\" \"".toList ++ env.encodeMailbox folder.name ++ ['"'])]
    else .ok []

/-- `LsubCommand.doProcess`. -/
def doProcess (ctx : MailContext) (s : σ) : List ImapCommandParameter → Except JavaException (List EmptyResponse)
  | arg1 :: arg2 :: _ => do
    let arg1 ← unquote arg1.toString
    let arg2 ← unquote arg2.toString
    match ctx.store with
    | none => .error .nullPointer
    | some store =>
      if arg1 = [] ∨ arg1 = ['.'] then do
        let lines ← ((root store).getListFolder s).mapM (line env arg2)
        .ok (lines.flatten ++ done "LSUB" tag)
      else .ok (done "LSUB" tag)
  | _ => .ok [untagged "LSUB (\\NoSelect) \".\" \"\"".toList, completed tag "BAD LSUB UNKNOWN COMMAND"]

end LsubCommand

/-- `SearchCommand.doProcess`: all messages of the folder, whatever the parameters are. -/
def SearchCommand.doProcess (isUID : Bool) (ctx : MailContext) : Except JavaException (List EmptyResponse) :=
  match ctx.folder with
  | none => .error .nullPointer
  | some folder =>
    let num_msg := [' '].intercalate (folder.list_msg.map fun msg => intToString (msg.number isUID))
    .ok (untagged ("SEARCH ".toList ++ num_msg ++ [' ']) :: if isUID then [] else done "SEARCH" tag)

/-! ## Commands that change the context or the store -/

/-- `LoginCommand.doProcess`: a new transaction has no folder. -/
def LoginCommand.process (parameters : List ImapCommandParameter) (ctx : MailContext) (s : σ) : CommandResult σ :=
  let login := LoginCommand.doProcess ⟨env.login, tag, parameters⟩ ctx.login
  match ctx.imapTransaction with
  | some _ => ⟨ctx, s, login.result⟩
  | none => ⟨⟨login.session.imapTransaction.map fun txSession => ⟨txSession, none, none, none⟩⟩, s, login.result⟩

/-- `CloseCommand.doProcess`. -/
def CloseCommand.doProcess (ctx : MailContext) (s : σ) : CommandResult σ :=
  match ctx.imapTransaction with
  | none => ⟨ctx, s, .error .nullPointer⟩
  | some txSession =>
    ⟨⟨some { txSession with foldername := none, folder := none, list_msg := none }⟩, s, .ok (done "CLOSE" tag)⟩

/-- `DeleteCommand.doProcess`. -/
def DeleteCommand.doProcess (parameters : List ImapCommandParameter) (ctx : MailContext) (s : σ) : CommandResult σ :=
  match parameters with
  | [] => ⟨ctx, s, .ok [completed tag "BAD DELETE UNKNOWN COMMAND"]⟩
  | arg :: _ =>
    if toUpperCase arg.toString = "INBOX".toList then ⟨ctx, s, .ok [completed tag "NO DELETE uncompleted"]⟩
    else
      match ctx.store with
      | none => ⟨ctx, s, .error .nullPointer⟩
      | some store => ⟨ctx, (root store).deleteFolder arg.toString s, .ok (done "DELETE" tag)⟩

/-- The folder name of `SELECT` and `CREATE`: without its quotation marks, and decoded unless it is the inbox. -/
def mailboxName (arg : JString) : Except JavaException JString :=
  (unquote arg).map fun org_folder_name =>
    if toUpperCase org_folder_name = "INBOX".toList then toLowerCase org_folder_name
    else env.decodeMailbox org_folder_name

/-- `CreateCommand.doProcess`. -/
def CreateCommand.process (parameters : List ImapCommandParameter) (ctx : MailContext) (s : σ) : CommandResult σ :=
  match parameters with
  | [] => ⟨ctx, s, .ok [completed tag "BAD CREATE UNKNOWN COMMAND"]⟩
  | arg :: _ =>
    match mailboxName env arg.toString, ctx.store with
    | .error e, _ => ⟨ctx, s, .error e⟩
    | .ok _, none => ⟨ctx, s, .ok [completed tag "NO CREATE uncompleted"]⟩
    | .ok folder_name, some store =>
      let (folder, s) :=
        match (root store).getFolder folder_name s with
        | some folder => (some folder, s)
        | none => (root store).createFolder folder_name s
      ⟨ctx, s, .ok (if folder.isSome then done "CREATE" tag else [completed tag "NO CREATE uncompleted"])⟩

/-- `SelectCommand.doProcess`. The folder that was selected stays if there is none with the name. -/
def SelectCommand.process (parameters : List ImapCommandParameter) (ctx : MailContext) (s : σ) : CommandResult σ :=
  match parameters with
  | [] => ⟨ctx, s, .ok [completed tag "BAD SELECT UNKNOWN COMMAND"]⟩
  | arg :: _ =>
    match mailboxName env arg.toString, ctx.store with
    | .error e, _ => ⟨ctx, s, .error e⟩
    | .ok _, none => ⟨ctx, s, .ok [completed tag "NO SELECT uncompleted"]⟩
    | .ok folder_name, some store =>
      match (root store).getFolder folder_name s with
      | none => ⟨ctx, s, .ok [completed tag "NO SELECT uncompleted"]⟩
      | some folder =>
        let uid := (root store).getUID folder s
        ⟨ctx.select folder_name folder, uid.2,
          .ok (SelectCommand.responses tag (.ofMessages (folder.list_msg.map FetchMessage.file) uid.1))⟩

/-- `StatusCommand.doProcess`. -/
def StatusCommand.process (parameters : List ImapCommandParameter) (ctx : MailContext) (s : σ) : CommandResult σ :=
  match parameters, ctx.store with
  | [], _ => ⟨ctx, s, .ok [completed tag "BAD STATUS UNKNOWN COMMAND"]⟩
  | _ :: _, none => ⟨ctx, s, .error .nullPointer⟩
  | arg :: _, some store =>
    match (root store).getFolder (inboxName arg.toString) s with
    | none => ⟨ctx, s, .ok [completed tag "NO STATUS uncompleted"]⟩
    | some folder =>
      let uid := (root store).getUID folder s
      let status := FolderStatus.ofMessages (folder.list_msg.map FetchMessage.file) uid.1
      ⟨ctx, uid.2, .ok (untagged ("STATUS ".toList ++ arg.toString ++ " (".toList
        ++ StatusCommand.items status parameters ++ [')']) :: done "STATUS" tag)⟩

/-- `AppendCommand.doProcess`, which saves the messages of the literal one by one in the folder that it opened. -/
def AppendCommand.process (cmd : ImapCommand) (ctx : MailContext) (s : σ) : CommandResult σ :=
  let folder (folder_name : JString) : Option LFolder :=
    ctx.store.bind fun store => (root store).getFolder folder_name s
  let out := AppendCommand.doProcess
    ⟨ctx.store.isSome, env.parseEml, env.parseX509, fun folder_name => (folder folder_name).isSome⟩ cmd
  ⟨ctx,
    out.saved.foldl (fun s msg =>
      match ctx.store, folder msg.1 with
      | some store, some folder => (root store).save folder msg.2 s
      | _, _ => s) s,
    out.result⟩

/-- `FetchCommand.doProcess` and `UidCommand.doProcess` in the context: the messages that were fetched stay in it. -/
def FetchOutcome.process (outcome : FetchOutcome) (ctx : MailContext) (s : σ) : CommandResult σ :=
  ⟨match outcome.msgs with
    | none => ctx
    | some msgs => ctx.setMsg msgs,
    s, outcome.result.map fun responses => responses.map FetchResponse.toEmptyResponse⟩

/-- The commands of `UID` that are not `FETCH`; for any other one there is no command. -/
def UidCommand.other (ctx : MailContext) (command_name : JString) (_ : List ImapCommandParameter) : FetchOutcome :=
  ⟨none,
    if equalsIgnoreCase "SEARCH".toList command_name then
      (SearchCommand.doProcess tag true ctx).map fun responses => responses.map .status
    else if equalsIgnoreCase "COPY".toList command_name then .ok ((CopyCommand.doProcess tag).map .status)
    else if equalsIgnoreCase "STORE".toList command_name then .ok ((StoreCommand.doProcess tag).map .status)
    else .ok []⟩

end store

/-! ## The choice of the command -/

/-- The classes that `ImapCommandBuilder.build` chooses from. -/
inductive CommandClass
  | APPEND | AUTHENTICATE | CAPABILITY | CHECK | CLOSE | COPY | CREATE | DELETE | EXAMINE | EXPUNGE | FETCH | LIST
  | LOGIN | LOGOUT | LSUB | NOOP | QUOTA | GETQUOTAROOT | RENAME | SEARCH | SELECT | SETQUOTA | SORT | STATUS | STORE
  | SUBSCRIBE | UID | UNSUBSCRIBE | unknown
deriving DecidableEq

/-- The names of the commands, in the order in which they are tried. -/
def CommandClass.names : List (JString × CommandClass) :=
  [("APPEND".toList, .APPEND), ("AUTHENTICATE".toList, .AUTHENTICATE), ("CAPABILITY".toList, .CAPABILITY),
    ("CHECK".toList, .CHECK), ("CLOSE".toList, .CLOSE), ("COPY".toList, .COPY), ("CREATE".toList, .CREATE),
    ("DELETE".toList, .DELETE), ("EXAMINE".toList, .EXAMINE), ("EXPUNGE".toList, .EXPUNGE), ("FETCH".toList, .FETCH),
    ("LIST".toList, .LIST), ("LOGIN".toList, .LOGIN), ("LOGOUT".toList, .LOGOUT), ("LSUB".toList, .LSUB),
    ("NOOP".toList, .NOOP), ("QUOTA".toList, .QUOTA), ("GETQUOTAROOT".toList, .GETQUOTAROOT),
    ("RENAME".toList, .RENAME), ("SEARCH".toList, .SEARCH), ("SELECT".toList, .SELECT),
    ("SETQUOTA".toList, .SETQUOTA), ("SORT".toList, .SORT), ("STATUS".toList, .STATUS), ("STORE".toList, .STORE),
    ("SUBSCRIBE".toList, .SUBSCRIBE), ("UID".toList, .UID), ("UNSUBSCRIBE".toList, .UNSUBSCRIBE)]

/-- The class of the command that `ImapCommandBuilder.build` makes. -/
def ImapCommand.class (cmd : ImapCommand) : CommandClass :=
  ((CommandClass.names.find? fun entry => equalsIgnoreCase entry.1 cmd.command).map Prod.snd).getD .unknown

section handler

variable {σ : Type*} (root : JString → LStore σ)

/-- `request.doProcess(sessionContext)`. -/
def ImapCommand.process (env : CommandEnv) (cmd : ImapCommand) (ctx : MailContext) (s : σ) : CommandResult σ :=
  let answer (result : Except JavaException (List EmptyResponse)) : CommandResult σ := ⟨ctx, s, result⟩
  match cmd.class with
  | .APPEND => AppendCommand.process root env cmd ctx s
  | .AUTHENTICATE => answer (AuthenticateCommand.doProcess cmd.tag cmd.parameters)
  | .CAPABILITY => answer (.ok (CapabilityCommand.doProcess cmd.tag))
  | .CHECK => answer (.ok (CheckCommand.doProcess cmd.tag))
  | .CLOSE => CloseCommand.doProcess cmd.tag ctx s
  | .COPY => answer (.ok (CopyCommand.doProcess cmd.tag))
  | .CREATE => CreateCommand.process root env cmd.tag cmd.parameters ctx s
  | .DELETE => DeleteCommand.doProcess root cmd.tag cmd.parameters ctx s
  | .EXAMINE => answer (.ok (ExamineCommand.process cmd.tag))
  | .EXPUNGE => answer (.ok (ExpungeCommand.doProcess cmd.tag))
  | .FETCH =>
    (FetchCommand.doProcess env.fetch false cmd.tag cmd.parameters (ctx.folder.map (·.list_msg))).process ctx s
  | .LIST => answer (ListCommand.doProcess root env cmd.tag ctx s cmd.parameters)
  | .LOGIN => LoginCommand.process env cmd.tag cmd.parameters ctx s
  | .LOGOUT => answer (.ok (LogoutCommand.doProcess cmd.tag))
  | .LSUB => answer (LsubCommand.doProcess root env cmd.tag ctx s cmd.parameters)
  | .NOOP => answer (.ok (NoopCommand.doProcess cmd.tag))
  | .QUOTA => answer (.ok (QuotaCommand.doProcess cmd.tag))
  | .GETQUOTAROOT => answer (QuotaRootCommand.doProcess cmd.tag cmd.parameters)
  | .RENAME => answer (.ok (RenameCommand.doProcess cmd.tag))
  | .SEARCH => answer (SearchCommand.doProcess cmd.tag false ctx)
  | .SELECT => SelectCommand.process root env cmd.tag cmd.parameters ctx s
  | .SETQUOTA => answer (.ok (SetQuotaCommand.doProcess cmd.tag))
  | .SORT => answer (.ok (SortCommand.doProcess cmd.tag))
  | .STATUS => StatusCommand.process root cmd.tag cmd.parameters ctx s
  | .STORE => answer (.ok (StoreCommand.doProcess cmd.tag))
  | .SUBSCRIBE => answer (SubscribeCommand.doProcess root cmd.tag ctx s cmd.parameters)
  | .UID =>
    (UidCommand.doProcess env.fetch (UidCommand.other cmd.tag ctx) cmd.tag cmd.parameters
      (ctx.folder.map (·.list_msg))).process ctx s
  | .UNSUBSCRIBE => answer (UnsubscribeCommand.doProcess cmd.tag cmd.parameters)
  | .unknown => answer (.ok (ImapCommand.doProcess cmd.tag cmd.command))

/-- A command as it reaches `ImapCommandHandler`, with the surroundings at that moment. -/
structure Received where
  env : CommandEnv
  cmd : ImapCommand

/-- `ImapCommandHandler`: one connection. After an exception nothing is written. -/
def imapCommandHandler : Machine (MailContext × σ) Received EmptyResponse where
  step st r :=
    let out := r.cmd.process root r.env st.1 st.2
    ((out.ctx, out.server), match out.result with
      | .ok responses => responses
      | .error _ => [])

end handler

end OrgLittle.Imap
