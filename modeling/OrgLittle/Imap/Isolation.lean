import OrgLittle.Imap.Mailbox
import OrgLittle.Lmsg.StorePath

/-!
# Mailbox names that leave the store of their user

`SELECT`, `CREATE`, `STATUS` and `APPEND` put the name that the client sends into a path. A name stays in the
store of the user exactly if, reduced by itself, it does not go up or comes back down on the way that it went
up (`isolated_iff`).
-/

namespace OrgLittle.Imap

open OrgLittle.Java OrgLittle.Lib OrgLittle.Lmsg

/-! ## Commands with a mailbox name -/

namespace CreateCommand

/-- What one `CREATE` gives: the file system afterwards, the response, and the directory that was opened or
made. -/
structure Created where
  fs : FileSystem
  responses : List EmptyResponse
  directory : Option Directory

/-- Opens the folder, or makes it. -/
def getOrCreate (fs : FileSystem) (store name : JString) : Option Directory × FileSystem :=
  match LFSStore.getFolder fs store name with
  | some dir => (some dir, fs)
  | none => LFSStore.createFolder fs store name

/-- `CreateCommand.doProcess`. The folder name is that of `SELECT`. -/
def doProcess (session : MailSession) (tag : JString) (parameters : List ImapCommandParameter)
    (fs : FileSystem) : Created :=
  match parameters, session.store with
  | [], _ => ⟨fs, [completed tag "BAD CREATE UNKNOWN COMMAND"], none⟩
  | _ :: _, none => ⟨fs, [completed tag "NO CREATE uncompleted"], none⟩
  | arg :: _, some store =>
    match getOrCreate fs store (SelectCommand.folderName session arg.toString) with
    | (some dir, fs) => ⟨fs, [completed tag "OK CREATE completed"], some dir⟩
    | (none, fs) => ⟨fs, [completed tag "NO CREATE uncompleted"], none⟩

end CreateCommand

/-- The folder name of `AppendCommand.doProcess`: without its quotes, and not decoded. -/
def AppendCommand.folderName (arg : JString) : JString := (stripped arg '"' '"').getD arg

/-- A command with a mailbox name. -/
inductive MailboxCommand
  | SELECT | CREATE | STATUS | APPEND
deriving DecidableEq

namespace MailboxCommand

/-- The folder name that the command makes of its argument. -/
def folderName (session : MailSession) (arg : JString) : MailboxCommand → JString
  | .SELECT => SelectCommand.folderName session arg
  | .CREATE => SelectCommand.folderName session arg
  | .STATUS => StatusCommand.folderName arg
  | .APPEND => AppendCommand.folderName arg

/-- The directory that the command opens or makes in the store of the user. -/
def directory (fs : FileSystem) (store name : JString) : MailboxCommand → Option Directory
  | .CREATE => (CreateCommand.getOrCreate fs store name).1
  | _ => LFSStore.getFolder fs store name

/-- What `directory` says of `CREATE` is what `doProcess` does. -/
theorem directory_create (store : JString) (decode : JString → JString) (tag : JString)
    (arg : ImapCommandParameter) (args : List ImapCommandParameter) (fs : FileSystem) :
    (CreateCommand.doProcess ⟨some store, decode⟩ tag (arg :: args) fs).directory
      = directory fs store (folderName ⟨some store, decode⟩ arg.toString .CREATE) .CREATE := by
  show (match CreateCommand.getOrCreate fs store _ with
    | (some dir, fs) => CreateCommand.Created.mk fs _ (some dir)
    | (none, fs) => ⟨fs, _, none⟩).directory = (CreateCommand.getOrCreate fs store _).1
  split
  · next heq => rw [folderName, heq]
  · next heq => rw [folderName, heq]

/-- Whatever is opened or made is where the path leads to. -/
theorem directory_eq {fs : FileSystem} {store name : JString} {cmd : MailboxCommand} {dir : Directory}
    (h : cmd.directory fs store name = some dir) : dir = fs.resolve (LFSFolder.fullName store name) := by
  have hget : ∀ dir', LFSStore.getFolder fs store name = some dir' →
      dir' = fs.resolve (LFSFolder.fullName store name) := by
    intro dir' hdir
    unfold LFSStore.getFolder at hdir
    split_ifs at hdir
    exact (Option.some.inj hdir).symm
  cases cmd with
  | CREATE =>
    rw [directory, CreateCommand.getOrCreate] at h
    split at h
    · next dir' hdir =>
      rw [← Option.some.inj h]
      exact hget dir' hdir
    · unfold LFSStore.createFolder at h
      split_ifs at h
      exact (Option.some.inj h).symm
  | SELECT => exact hget dir h
  | STATUS => exact hget dir h
  | APPEND => exact hget dir h

end MailboxCommand

/-! ## Isolation -/

/-- The name stays below this directory, or comes back to it on the way that it went up. -/
def ComesBack (dir : Directory) (name : JString) : Prop :=
  dir.drop (dir.length - (Path.reduce "..".toList (components ("f_".toList ++ name))).levels)
    <+: (Path.reduce "..".toList (components ("f_".toList ++ name))).down

instance (dir : Directory) (name : JString) : Decidable (ComesBack dir name) :=
  inferInstanceAs (Decidable (_ <+: _))

/-- In every tree of directories, the command opens or makes a directory in the user's own store. -/
def Isolated (cwd : Directory) (store name : JString) (cmd : MailboxCommand) : Prop :=
  ∀ isDirectory : Directory → Bool, ∀ dir, cmd.directory ⟨cwd, isDirectory⟩ store name = some dir →
    LFSStore.directory ⟨cwd, isDirectory⟩ store <+: dir

/-- For every user, every command and every argument, the command stays in the store of the user exactly if
the folder name comes back to it. -/
theorem isolated_iff (cwd : Directory) (session : MailSession) (store : JString) (cmd : MailboxCommand)
    (arg : ImapCommandParameter) :
    Isolated cwd store (cmd.folderName session arg.toString) cmd
      ↔ ComesBack (LFSStore.directory ⟨cwd, fun _ => true⟩ store) (cmd.folderName session arg.toString) := by
  have hinside : ∀ isDirectory, LFSStore.directory ⟨cwd, isDirectory⟩ store
      <+: FileSystem.resolve ⟨cwd, isDirectory⟩
        (LFSFolder.fullName store (cmd.folderName session arg.toString))
      ↔ ComesBack (LFSStore.directory ⟨cwd, fun _ => true⟩ store)
        (cmd.folderName session arg.toString) := by
    intro isDirectory
    rw [resolve_folder, Path.prefix_resolve_iff]
    rfl
  constructor
  · intro h
    -- where every path is a directory, the folder is opened
    have hopens : cmd.directory ⟨cwd, fun _ => true⟩ store (cmd.folderName session arg.toString)
        = some (FileSystem.resolve ⟨cwd, fun _ => true⟩
          (LFSFolder.fullName store (cmd.folderName session arg.toString))) := by
      have hall : FileSystem.opens ⟨cwd, fun _ => true⟩
          (LFSFolder.fullName store (cmd.folderName session arg.toString)) = true :=
        List.all_eq_true.mpr fun _ _ => rfl
      cases cmd <;>
        simp only [MailboxCommand.directory, CreateCommand.getOrCreate, LFSStore.getFolder, hall, if_true]
    exact (hinside _).mp (h _ _ hopens)
  · intro h isDirectory dir hdir
    rw [MailboxCommand.directory_eq hdir]
    exact (hinside isDirectory).mpr h

/-- The folders of two users. -/
def twoUsers : FileSystem where
  cwd := []
  isDirectory dir := dir ∈ [[], ["var"], ["var", "mbox"], ["var", "mbox", "s_av"],
    ["var", "mbox", "s_av", "f_inbox"], ["var", "mbox", "s_iap"],
    ["var", "mbox", "s_iap", "f_inbox"]].map (List.map String.toList)

/-- One of them selects the inbox of the other. -/
theorem not_isolated_other_inbox :
    MailboxCommand.SELECT.directory twoUsers "av".toList
        (MailboxCommand.SELECT.folderName ⟨some "av".toList, id⟩
          (ImapCommandParameter.atom "inbox/../../s_iap/f_inbox".toList).toString)
      = some (["var", "mbox", "s_iap", "f_inbox"].map String.toList)
    ∧ ¬ ∀ cwd session store cmd arg,
      Isolated cwd store (MailboxCommand.folderName session (ImapCommandParameter.toString arg) cmd) cmd := by
  have hdir : MailboxCommand.SELECT.directory twoUsers "av".toList
        (MailboxCommand.SELECT.folderName ⟨some "av".toList, id⟩
          (ImapCommandParameter.atom "inbox/../../s_iap/f_inbox".toList).toString)
      = some (["var", "mbox", "s_iap", "f_inbox"].map String.toList) := by decide
  have hstore : LFSStore.directory twoUsers "av".toList = ["var", "mbox", "s_av"].map String.toList := by
    decide
  refine ⟨hdir, fun h => ?_⟩
  have hinside := h [] ⟨some "av".toList, id⟩ "av".toList .SELECT _ twoUsers.isDirectory _ hdir
  change LFSStore.directory twoUsers "av".toList <+: _ at hinside
  rw [hstore] at hinside
  exact absurd hinside (by decide)

end OrgLittle.Imap
