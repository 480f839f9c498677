import OrgLittle.Imap.UidStability
import OrgLittle.Smtp.Command

/-!
# Delivered mail and the inbox of its recipient

The SMTP server saves a message into the folder `INBOX` of each recipient. `SELECT` and `STATUS` open the
inbox under its name in lower case. Where names that differ in case are different directories, no spelling of
the inbox leads to the delivered message (`delivered_not_shown`).
-/

namespace OrgLittle.Imap

open OrgLittle.Java OrgLittle.Lib OrgLittle.Lmsg

/-! ## Delivery -/

/-- The folder into which an event saves a message. -/
def savedInto : Smtp.Event → Option FolderPath
  | .save store folder _ => some ⟨store, folder⟩
  | _ => none

/-- The saves of a delivery, as operations of the server; `files i` is what the `i`-th of them saves. -/
def delivery (events : List Smtp.Event) (files : ℕ → NewFile) : List ServerOp :=
  (events.filterMap savedInto).mapIdx fun i folder => .save folder (files i)

/-- The surroundings of the SMTP server, with the folders that are on the disk. -/
def Server.env (s : Server) (env : Smtp.Env) : Smtp.Env :=
  { env with hasFolder := fun store folder => (s.disk ⟨store, folder⟩).isSome }

/-- `Content.processCommand` on the server: the messages that its lines make are saved. -/
def received (s : Server) (cfg : Smtp.CommonSMTP) (env : Smtp.Env) (parameters : List JString)
    (smtp : Smtp.SmtpSessionContext) (files : ℕ → NewFile) : List ServerOp :=
  delivery (Smtp.Content.processCommand cfg (s.env env) parameters smtp).events files

/-! ## Looking into the inbox -/

/-- A command that opens a folder and lists it. -/
inductive ExamineCommand
  | SELECT | STATUS
deriving DecidableEq

/-- `doProcess` of the command. -/
def ExamineCommand.doProcess (session : MailSession) (tag : JString)
    (parameters : List ImapCommandParameter) (s : Server) : ExamineCommand → Examined
  | .SELECT => SelectCommand.doProcess session tag parameters s
  | .STATUS => StatusCommand.doProcess session tag parameters s

/-- The argument is a spelling of the inbox, with or without quotes. -/
def SpellsInbox (arg : JString) : Prop :=
  toUpperCase ((stripped arg '"' '"').getD arg) = "INBOX".toList

instance (arg : JString) : Decidable (SpellsInbox arg) := inferInstanceAs (Decidable (_ = _))

/-- The command has opened this folder, and this file is among its messages. -/
def Examined.Shows (r : Examined) (folder : FolderPath) (file : JString) : Prop :=
  ∃ list_msg status, r.folder = some (folder, list_msg, status) ∧ ∃ msg ∈ list_msg, msg.name = file

/-! ## The folder that is opened -/

theorem toLowerCase_ne_inbox (s : JString) : toLowerCase s ≠ "INBOX".toList := by
  intro h
  exact not_mem_toLowerCase (d := 'I') (by decide) s (h ▸ by decide)

theorem SelectCommand.folderName_ne_inbox (session : MailSession) {arg : JString} (h : SpellsInbox arg) :
    folderName session arg ≠ "INBOX".toList := by
  unfold SpellsInbox at h
  rw [folderName, if_pos h]
  exact toLowerCase_ne_inbox _

theorem StatusCommand.folderName_ne_inbox (arg : JString) : folderName arg ≠ "INBOX".toList := by
  rw [folderName]
  split_ifs with h
  · exact toLowerCase_ne_inbox arg
  · rintro rfl
    exact h (by decide)

/-- The folder that `SELECT` or `STATUS` opens for a spelling of the inbox is not the one with the delivered
mail. -/
theorem ExamineCommand.not_shows_inbox (cmd : ExamineCommand) (session : MailSession) (tag : JString)
    {arg : ImapCommandParameter} (args : List ImapCommandParameter) (s : Server) (store file : JString)
    (h : SpellsInbox arg.toString) :
    ¬ (cmd.doProcess session tag (arg :: args) s).Shows ⟨store, "INBOX".toList⟩ file := by
  rintro ⟨list_msg, status, hfolder, -⟩
  obtain ⟨_ | user, decode⟩ := session
  · cases cmd <;> cases hfolder
  · cases cmd with
    | SELECT =>
      simp only [doProcess, SelectCommand.doProcess] at hfolder
      split at hfolder
      · cases hfolder
      · have hname := congrArg FolderPath.name (congrArg Prod.fst (Option.some.inj hfolder))
        exact SelectCommand.folderName_ne_inbox _ h hname
    | STATUS =>
      simp only [doProcess, StatusCommand.doProcess] at hfolder
      split at hfolder
      · cases hfolder
      · have hname := congrArg FolderPath.name (congrArg Prod.fst (Option.some.inj hfolder))
        exact StatusCommand.folderName_ne_inbox _ hname

/-! ## Saved messages -/

/-- A message that was saved with this identifier is on the disk, in this folder and file. -/
def Server.Holds (s : Server) (folder : FolderPath) (file : JString) (uid : ℤ) : Prop :=
  ∃ files, s.disk folder = some files ∧ ∃ msg ∈ files, msg.name = file ∧ msg.given = uid

/-- A save keeps the messages that are on the disk. -/
theorem Server.Holds.save {s : Server} {folder : FolderPath} {file : JString} {uid : ℤ}
    (h : s.Holds folder file uid) (p : Platform) (folder' : FolderPath) (new : NewFile) :
    (s.save p folder' new).1.Holds folder file uid := by
  obtain ⟨files, hfiles, msg, hmsg, hname, huid⟩ := h
  unfold Server.save
  split
  · exact ⟨files, hfiles, msg, hmsg, hname, huid⟩
  · next files' hfiles' =>
    dsimp only
    split
    · exact ⟨files, hfiles, msg, hmsg, hname, huid⟩
    · by_cases hfolder : folder = folder'
      · subst hfolder
        rw [hfiles] at hfiles'
        cases hfiles'
        exact ⟨_, Function.update_self _ _ _, msg, List.mem_append_left _ hmsg, hname, huid⟩
      · refine ⟨files, ?_, msg, hmsg, hname, huid⟩
        exact (Function.update_of_ne hfolder _ _).trans hfiles

/-- What a save reports is on the disk. -/
theorem Server.holds_of_save {p : Platform} {s : Server} {folder folder' : FolderPath} {file : JString} {uid : ℤ}
    {new : NewFile} (h : .assigned folder file uid ∈ (s.save p folder' new).2) :
    (s.save p folder' new).1.Holds folder file uid := by
  unfold Server.save at h ⊢
  split at h
  · cases h
  · next files hfiles =>
    dsimp only at h ⊢
    split at h
    · cases h
    · cases List.mem_singleton.mp h
      exact ⟨_, Function.update_self _ _ _, _, List.mem_append_right _ (List.mem_singleton_self _),
        rfl, rfl⟩

/-- After a run of saves, every message that was reported is on the disk. -/
theorem holds_of_saves {p : Platform} {s : Server} {ops : List ServerOp} {folder : FolderPath} {file : JString}
    {uid : ℤ} (hops : ∀ op ∈ ops, ∃ folder new, op = .save folder new)
    (h : s.Holds folder file uid ∨ .assigned folder file uid ∈ (mailServer p).outputs s ops) :
    ((mailServer p).run s ops).Holds folder file uid := by
  induction ops generalizing s with
  | nil => exact h.resolve_right (List.not_mem_nil)
  | cons op ops ih =>
    obtain ⟨folder', new, rfl⟩ := hops op List.mem_cons_self
    refine ih (fun op hop => hops op (List.mem_cons_of_mem _ hop)) ?_
    rcases h with h | h
    · exact Or.inl (h.save p folder' new)
    · rcases List.mem_append.mp h with h | h
      · exact Or.inl (Server.holds_of_save h)
      · exact Or.inr h

theorem received_saves (s : Server) (cfg : Smtp.CommonSMTP) (env : Smtp.Env) (parameters : List JString)
    (smtp : Smtp.SmtpSessionContext) (files : ℕ → NewFile) :
    ∀ op ∈ received s cfg env parameters smtp files, ∃ folder new, op = .save folder new := by
  intro op hop
  obtain ⟨i, hi, rfl⟩ := List.mem_mapIdx.mp hop
  exact ⟨_, _, rfl⟩

/-! ## Delivered mail is not shown -/

/-- Whatever the SMTP server saves into the inbox of a user is there, but neither `SELECT` nor `STATUS` of that
user shows it, now or later, for any spelling of the inbox. -/
theorem delivered_not_shown (p : Platform) (s : Server) (cfg : Smtp.CommonSMTP) (env : Smtp.Env)
    (parameters : List JString) (smtp : Smtp.SmtpSessionContext) (files : ℕ → NewFile)
    {store file : JString} {uid : ℤ}
    (hsaved : .assigned ⟨store, "INBOX".toList⟩ file uid
      ∈ (mailServer p).outputs s (received s cfg env parameters smtp files)) :
    ((mailServer p).run s (received s cfg env parameters smtp files)).Holds ⟨store, "INBOX".toList⟩ file uid
      ∧ ∀ (later : List ServerOp) (cmd : ExamineCommand) (decode : JString → JString) (tag : JString)
          (arg : ImapCommandParameter) (args : List ImapCommandParameter), SpellsInbox arg.toString →
        ¬ (cmd.doProcess ⟨some store, decode⟩ tag (arg :: args)
            ((mailServer p).run s (received s cfg env parameters smtp files ++ later))).Shows
          ⟨store, "INBOX".toList⟩ file := by
  refine ⟨holds_of_saves (received_saves s cfg env parameters smtp files) (Or.inr hsaved), ?_⟩
  intro later cmd decode tag arg args harg
  exact cmd.not_shows_inbox _ tag args _ store file harg

/-- A user `u` with an inbox under either name. -/
def Server.twoInboxes : Server :=
  ⟨LUID.count, fun folder => if folder.store = ['u'] then some [] else none⟩

/-- Surroundings in which every content is one message from `a` to `u`. -/
def letterToU : Smtp.Env :=
  { Smtp.Env.stub with parseEml := fun _ => some [some ⟨['a'], [['u']]⟩] }

/-- The names of the files are `m`. -/
def plainFiles (_i : ℕ) : NewFile := letter ['m']

/-- A letter to `u` is saved as `m`, and `u` does not see it. -/
theorem delivered_not_shown_letter :
    .assigned ⟨['u'], "INBOX".toList⟩ ['m'] 10
        ∈ (mailServer Platform.utc).outputs .twoInboxes
          (received .twoInboxes .stub letterToU [] (.channelActive .stub) plainFiles)
      ∧ ¬ (ExamineCommand.SELECT.doProcess ⟨some ['u'], id⟩ ['t'] [.atom "INBOX".toList]
          ((mailServer Platform.utc).run .twoInboxes
            (received .twoInboxes .stub letterToU [] (.channelActive .stub) plainFiles ++ []))).Shows
        ⟨['u'], "INBOX".toList⟩ ['m'] := by
  have hsaved : .assigned ⟨['u'], "INBOX".toList⟩ ['m'] 10
      ∈ (mailServer Platform.utc).outputs .twoInboxes
        (received .twoInboxes .stub letterToU [] (.channelActive .stub) plainFiles) := by decide
  exact ⟨hsaved, (delivered_not_shown _ _ _ _ _ _ _ hsaved).2 [] .SELECT id ['t'] _ [] (by decide)⟩

/-- `STATUS INBOX` opens an empty folder when there is a letter. -/
theorem not_delivered_shown_letter :
    (ExamineCommand.STATUS.doProcess ⟨some ['u'], id⟩ ['t'] [.atom "INBOX".toList]
        ((mailServer Platform.utc).run .twoInboxes
          (received .twoInboxes .stub letterToU [] (.channelActive .stub) plainFiles))).folder.map
        (fun r => (r.1, r.2.1)) = some (⟨['u'], "inbox".toList⟩, [])
      ∧ ¬ ∀ p s cfg env parameters smtp files store file uid,
        .assigned ⟨store, "INBOX".toList⟩ file uid
          ∈ (mailServer p).outputs s (received s cfg env parameters smtp files) →
        ∀ cmd decode tag (arg : ImapCommandParameter) args, SpellsInbox arg.toString →
          (ExamineCommand.doProcess ⟨some store, decode⟩ tag (arg :: args)
            ((mailServer p).run s (received s cfg env parameters smtp files)) cmd).Shows
            ⟨store, "INBOX".toList⟩ file := by
  refine ⟨by decide, fun h => ?_⟩
  have hshown := h Platform.utc .twoInboxes .stub letterToU [] (.channelActive .stub) plainFiles ['u'] ['m'] 10
    (by decide) .STATUS id ['t'] (.atom "INBOX".toList) [] (by decide)
  exact ExamineCommand.STATUS.not_shows_inbox _ _ [] _ _ _ (by decide) hshown

end OrgLittle.Imap
