import OrgLittle.Imap.Mailbox
import OrgLittle.Lmsg.SavedUid

/-!
# Stability of unique identifiers

A run of the server mixes deliveries, folder reloads, `SELECT`, `STATUS` and restarts. `Stable` is what a
mail client relies on: a pair of `UIDVALIDITY` and identifier stands for one message for all time, the
identifiers in a folder increase, and `UIDNEXT` is not above the next one.

`uids_stable` shows that this holds as long as the server is not restarted with messages on its disk, `lUID`
does not overflow and no text of a saved message is read as another identifier. After such a restart the next
message saved in a folder with messages breaks it.
-/

namespace OrgLittle.Imap

open OrgLittle.Java OrgLittle.Lib OrgLittle.Lmsg

/-! ## The server -/

/-- A message to be saved. The names to try for its file come from the clock and a random generator; `hash` is the
hash code of the array of its serial numbers, and the file is read at the time `now`. -/
structure NewFile where
  newNames : List JString
  hash : UInt32
  now : Date
  message : Message

/-- The message with an identifier. -/
def NewFile.setUID (new : NewFile) (uid : ℤ) : Message := { new.message with uid := uid }

/-- What happens to the server. -/
inductive ServerOp
  | create (folder : FolderPath)
  | save (folder : FolderPath) (new : NewFile)
  | reload (folder : FolderPath)
  | select (session : MailSession) (tag : JString) (parameters : List ImapCommandParameter)
  | status (session : MailSession) (tag : JString) (parameters : List ImapCommandParameter)
  | restart

/-- What the server tells of folders and messages; a message is a file in a folder. -/
inductive Report
  /-- a message was saved with an identifier -/
  | assigned (folder : FolderPath) (file : JString) (uid : ℤ)
  /-- the messages of a folder and their identifiers -/
  | loaded (folder : FolderPath) (messages : List (JString × ℤ))
  | uidValidity (folder : FolderPath) (uid : ℤ)
  | uidNext (folder : FolderPath) (uid : ℤ)
deriving DecidableEq

/-- The messages of a folder, as they are reported. -/
def Report.ofMessages (folder : FolderPath) (list_msg : List MessageFile) : Report :=
  .loaded folder (list_msg.map fun msg => (msg.name, msg.uid))

/-- What the responses of `SELECT` say. -/
def SelectCommand.reports : Option (FolderPath × List MessageFile × FolderStatus) → List Report
  | none => []
  | some (folder, list_msg, status) =>
    [.ofMessages folder list_msg, .uidValidity folder status.valid_uid,
      .uidNext folder status.next_uid]

/-- What the responses of `STATUS` say: the items that were asked for. -/
def StatusCommand.reports (parameters : List ImapCommandParameter) :
    Option (FolderPath × List MessageFile × FolderStatus) → List Report
  | none => []
  | some (folder, _, status) =>
    parameters.flatMap fun p =>
      if equalsIgnoreCase p.toString "UIDNEXT".toList then [.uidNext folder status.next_uid]
      else if equalsIgnoreCase p.toString "UIDVALIDITY".toList then
        [.uidValidity folder status.valid_uid]
      else []

namespace Server

/-- The server before its first message. -/
def initial : Server := ⟨LUID.count, fun _ => none⟩

/-- `msg.setUID(lUID.get()); folder.save(msg)`, for a folder that could be opened. -/
def save (p : Platform) (s : Server) (folder : FolderPath) (new : NewFile) : Server × List Report :=
  match s.disk folder with
  | none => (s, [])
  | some files =>
    let (uid, count) := LUID.get s.count
    match LFSFolder.createMessageXML files new.newNames with
    | none => ({ s with count := count }, [])
    | some name =>
      let file := MessageFile.ofBytes p new.now name uid (saveFile p new.hash (new.setUID uid))
      (⟨count, Function.update s.disk folder (some (files ++ [file]))⟩, [.assigned folder name uid])

/-- One step. A restart keeps the disk. -/
def step (p : Platform) (s : Server) : ServerOp → Server × List Report
  | .create folder => ({ s with disk := LFSFolder.create s.disk folder }, [])
  | .save folder new => save p s folder new
  | .reload folder =>
    (s, ((s.disk folder).map fun files => Report.ofMessages folder (LFSFolder.load files)).toList)
  | .select session tag parameters =>
    let r := SelectCommand.doProcess session tag parameters s
    (r.server, SelectCommand.reports r.folder)
  | .status session tag parameters =>
    let r := StatusCommand.doProcess session tag parameters s
    (r.server, StatusCommand.reports parameters r.folder)
  | .restart => ({ s with count := LUID.count }, [])

end Server

/-- The server. -/
def mailServer (p : Platform) : Machine Server ServerOp Report := ⟨Server.step p⟩

/-! ## Stability -/

/-- The pair of a `UIDVALIDITY` and an identifier was reported for this message. -/
def Denotes (reports : List Report) (validity uid : ℤ) (folder : FolderPath) (file : JString) : Prop :=
  .uidValidity folder validity ∈ reports
    ∧ ∃ messages, .loaded folder messages ∈ reports ∧ (file, uid) ∈ messages

/-- Identifiers given one after the other in the same folder increase. -/
def Increases (r r' : Report) : Prop :=
  ∀ folder file file' uid uid', r = .assigned folder file uid → r' = .assigned folder file' uid' →
    uid < uid'

/-- A `UIDNEXT` is not above an identifier given in the folder later. -/
def NextBelow (r r' : Report) : Prop :=
  ∀ folder file next uid, r = .uidNext folder next → r' = .assigned folder file uid → next ≤ uid

/-- What a client relies on. -/
structure Stable (reports : List Report) : Prop where
  /-- a pair of `UIDVALIDITY` and identifier stands for one message -/
  denotes : ∀ validity uid folder folder' file file', Denotes reports validity uid folder file →
    Denotes reports validity uid folder' file' → folder = folder' ∧ file = file'
  increases : reports.Pairwise Increases
  next : reports.Pairwise NextBelow

/-- The step does not restart a server with messages, `lUID` does not overflow, and no text of a saved message is
read as another identifier. -/
def KeepsCounting (p : Platform) (s : Server) : ServerOp → Prop
  | .restart => ∀ folder files, s.disk folder = some files → files = []
  | .save _ new => s.count < 2 ^ 31 - 1 ∧ KeepsUid p new.hash (new.setUID s.count)
  | _ => s.count < 2 ^ 31 - 1

/-! ## What one step can do -/

/-- What may be reported of a disk without changing it. -/
def ReportOf (disk : Disk) : Report → Prop
  | .assigned _ _ _ => False
  | .loaded folder messages => ∃ files, disk folder = some files ∧
      ∀ message ∈ messages, ∃ file ∈ LFSFolder.load files, message = (file.name, file.uid)
  | .uidValidity _ _ => True
  | .uidNext folder next => ∃ files, disk folder = some files ∧
      (next = 1 ∨ ∃ file ∈ LFSFolder.load files, next = wrapInt (file.uid + 1))

/-- The four kinds of steps that keep counting. -/
inductive Effect (s : Server) : Server × List Report → Prop
  | look {count : ℤ} {reports : List Report} (hlimit : s.count < 2 ^ 31 - 1)
      (hcount : count = s.count ∨ count = wrapInt (s.count + 1))
      (hreports : ∀ r ∈ reports, ReportOf s.disk r) : Effect s (⟨count, s.disk⟩, reports)
  | create {folder : FolderPath} (hnone : s.disk folder = none) :
      Effect s (⟨s.count, Function.update s.disk folder (some [])⟩, [])
  | save {folder : FolderPath} {files : List MessageFile} {file : MessageFile}
      (hlimit : s.count < 2 ^ 31 - 1) (hfiles : s.disk folder = some files) (hgiven : file.given = s.count)
      (huid : file.readable = true → file.uid = file.given) :
      Effect s (⟨wrapInt (s.count + 1), Function.update s.disk folder (some (files ++ [file]))⟩,
        [.assigned folder file.name file.given])
  | restart (hempty : ∀ folder files, s.disk folder = some files → files = []) :
      Effect s (⟨LUID.count, s.disk⟩, [])

/-- The largest identifier of a list is zero or belongs to one of the messages. -/
theorem foldl_max_cases (list_msg : List MessageFile) (max_uid : ℤ) :
    list_msg.foldl (fun max_uid msg => max msg.uid max_uid) max_uid = max_uid
      ∨ ∃ msg ∈ list_msg,
        list_msg.foldl (fun max_uid msg => max msg.uid max_uid) max_uid = msg.uid := by
  induction list_msg generalizing max_uid with
  | nil => exact Or.inl rfl
  | cons msg list_msg ih =>
    rw [List.foldl_cons]
    obtain hsame | ⟨msg', hmem, hmax⟩ := ih (max msg.uid max_uid)
    · rw [hsame]
      obtain hle | hle := le_total msg.uid max_uid
      · exact Or.inl (max_eq_right hle)
      · exact Or.inr ⟨msg, List.mem_cons_self, max_eq_left hle⟩
    · exact Or.inr ⟨msg', List.mem_cons_of_mem _ hmem, hmax⟩

section Reports

variable {disk : Disk} {folder : FolderPath} {files : List MessageFile}

/-- What is only reported of the disk gives no identifier. -/
theorem ReportOf.ne_assigned {r : Report} (h : ReportOf disk r) (name : JString) (uid : ℤ) :
    r ≠ .assigned folder name uid := by
  rintro rfl
  exact h

theorem reportOf_ofMessages (h : disk folder = some files) :
    ReportOf disk (.ofMessages folder (LFSFolder.load files)) := by
  refine ⟨files, h, fun message hmessage => ?_⟩
  obtain ⟨msg, hmsg, rfl⟩ := List.mem_map.mp hmessage
  exact ⟨msg, hmsg, rfl⟩

theorem reportOf_uidNext (h : disk folder = some files) (valid_uid : ℤ) :
    ReportOf disk
      (.uidNext folder (FolderStatus.ofMessages (LFSFolder.load files) valid_uid).next_uid) := by
  refine ⟨files, h, ?_⟩
  obtain hzero | ⟨msg, hmsg, hmax⟩ := foldl_max_cases (LFSFolder.load files) 0
  · left
    rw [FolderStatus.ofMessages, hzero]
    rfl
  · right
    exact ⟨msg, hmsg, by rw [FolderStatus.ofMessages, hmax]⟩

end Reports

/-- Opening a folder changes at most the counter, and what is reported of it is on the disk. -/
theorem examine_eq_some {s s' : Server} {folder : FolderPath} {list_msg : List MessageFile}
    {status : FolderStatus} (h : s.examine folder = some (list_msg, status, s')) :
    (∃ count, s' = ⟨count, s.disk⟩ ∧ (count = s.count ∨ count = wrapInt (s.count + 1)))
      ∧ ReportOf s.disk (.ofMessages folder list_msg)
      ∧ ReportOf s.disk (.uidNext folder status.next_uid) := by
  rw [Server.examine, Option.map_eq_some_iff] at h
  obtain ⟨files, hfiles, heq⟩ := h
  cases heq
  exact ⟨⟨_, rfl, LFSFolder.getUID_snd _ _⟩, reportOf_ofMessages hfiles, reportOf_uidNext hfiles _⟩

section effects

variable {p : Platform} {s : Server}

theorem select_effect (hlimit : s.count < 2 ^ 31 - 1) (session : MailSession)
    (tag : JString) (parameters : List ImapCommandParameter) :
    Effect s (s.step p (.select session tag parameters)) := by
  have hnothing : Effect s (s, []) := .look hlimit (Or.inl rfl) (by simp)
  simp only [Server.step, SelectCommand.doProcess]
  split
  · exact hnothing
  · exact hnothing
  · split
    · exact hnothing
    · rename_i hexamine
      obtain ⟨⟨count, rfl, hcount⟩, hmessages, hnext⟩ := examine_eq_some hexamine
      refine .look hlimit hcount fun r hr => ?_
      simp only [SelectCommand.reports, List.mem_cons, List.not_mem_nil, or_false] at hr
      obtain rfl | rfl | rfl := hr
      · exact hmessages
      · trivial
      · exact hnext

theorem status_effect (hlimit : s.count < 2 ^ 31 - 1) (session : MailSession)
    (tag : JString) (parameters : List ImapCommandParameter) :
    Effect s (s.step p (.status session tag parameters)) := by
  have hnothing : Effect s (s, []) := .look hlimit (Or.inl rfl) (by simp)
  simp only [Server.step, StatusCommand.doProcess]
  split
  · exact hnothing
  · exact hnothing
  · split
    · exact hnothing
    · rename_i hexamine
      obtain ⟨⟨count, rfl, hcount⟩, -, hnext⟩ := examine_eq_some hexamine
      refine .look hlimit hcount fun r hr => ?_
      obtain ⟨p, -, hp⟩ := List.mem_flatMap.mp hr
      split_ifs at hp
      · rw [List.mem_singleton.mp hp]
        exact hnext
      · rw [List.mem_singleton.mp hp]
        trivial
      · cases hp

/-- A file that keeps the identifier of its message is read with it. -/
theorem uid_ofBytes {new : NewFile} {uid : ℤ} (hkeeps : KeepsUid p new.hash (new.setUID uid)) (name : JString)
    (h : (MessageFile.ofBytes p new.now name uid (saveFile p new.hash (new.setUID uid))).readable = true) :
    (MessageFile.ofBytes p new.now name uid (saveFile p new.hash (new.setUID uid))).uid = uid := by
  obtain ⟨m, hload⟩ := Option.isSome_iff_exists.mp h
  rw [MessageFile.ofBytes, hload]
  exact uid_of_loadFile hkeeps hload

theorem save_effect (hlimit : s.count < 2 ^ 31 - 1) (folder : FolderPath) {new : NewFile}
    (hkeeps : KeepsUid p new.hash (new.setUID s.count)) : Effect s (s.save p folder new) := by
  unfold Server.save
  cases hfiles : s.disk folder with
  | none => exact .look hlimit (Or.inl rfl) (by simp)
  | some files =>
    cases hname : LFSFolder.createMessageXML files new.newNames with
    | none =>
      simp only [hname]
      exact .look hlimit (Or.inr rfl) (by simp)
    | some name =>
      simp only [hname, LUID.get]
      exact Effect.save hlimit hfiles rfl (uid_ofBytes hkeeps name)

/-- Every step is of one of the four kinds. -/
theorem step_effect {op : ServerOp} (h : KeepsCounting p s op) : Effect s (s.step p op) := by
  cases op with
  | create folder =>
    simp only [Server.step, LFSFolder.create]
    split_ifs with hnone
    · exact .create hnone
    · exact .look h (Or.inl rfl) (by simp)
  | save folder new => exact save_effect h.1 folder h.2
  | reload folder =>
    refine .look h (Or.inl rfl) fun r hr => ?_
    cases hfiles : s.disk folder with
    | none => simp [hfiles] at hr
    | some files =>
      simp only [hfiles, Option.map_some, Option.toList_some, List.mem_singleton] at hr
      rw [hr]
      exact reportOf_ofMessages hfiles
  | select session tag parameters => exact select_effect h session tag parameters
  | status session tag parameters => exact status_effect h session tag parameters
  | restart => exact .restart h

end effects

/-! ## The invariant -/

/-- The server and all it has reported. -/
structure Recorded (s : Server) (reports : List Report) : Prop where
  count_lo : LUID.count ≤ s.count
  count_hi : s.count < 2 ^ 31
  /-- every message on the disk was given its identifier, and is loaded with it -/
  disk : ∀ {folder files file}, s.disk folder = some files → file ∈ files →
    .assigned folder file.name file.given ∈ reports ∧ (file.readable = true → file.uid = file.given)
  /-- every message that was given an identifier is on the disk, with an identifier below the counter -/
  assigned : ∀ {folder name uid}, .assigned folder name uid ∈ reports →
    (LUID.count ≤ uid ∧ uid < s.count) ∧ ∃ files, s.disk folder = some files ∧ files ≠ []
  /-- an identifier was given once -/
  unique : ∀ {folder folder' name name' uid}, .assigned folder name uid ∈ reports →
    .assigned folder' name' uid ∈ reports → folder = folder' ∧ name = name'
  loaded : ∀ {folder messages name uid}, .loaded folder messages ∈ reports → (name, uid) ∈ messages →
    .assigned folder name uid ∈ reports
  next : ∀ {folder next}, .uidNext folder next ∈ reports →
    next = 1 ∨ ∃ name uid, .assigned folder name uid ∈ reports ∧ next = uid + 1
  increases : reports.Pairwise Increases
  nextBelow : reports.Pairwise NextBelow

theorem recorded_initial : Recorded .initial [] where
  count_lo := le_refl _
  count_hi := by decide
  disk := nofun
  assigned := nofun
  unique := nofun
  loaded := nofun
  next := nofun
  increases := List.Pairwise.nil
  nextBelow := List.Pairwise.nil

namespace Recorded

variable {s : Server} {reports : List Report}

theorem stable (h : Recorded s reports) : Stable reports where
  denotes := by
    rintro validity uid folder folder' file file' ⟨-, messages, hmessages, hmem⟩
      ⟨-, messages', hmessages', hmem'⟩
    exact h.unique (h.loaded hmessages hmem) (h.loaded hmessages' hmem')
  increases := h.increases
  next := h.nextBelow

/-- A message that is loaded was given the identifier that it has. -/
theorem of_load (h : Recorded s reports) {folder : FolderPath} {files : List MessageFile} {file : MessageFile}
    (hfiles : s.disk folder = some files) (hfile : file ∈ LFSFolder.load files) :
    .assigned folder file.name file.uid ∈ reports := by
  obtain ⟨hmem, hreadable⟩ := LFSFolder.mem_load.mp hfile
  obtain ⟨hassigned, huid⟩ := h.disk hfiles hmem
  rw [huid hreadable]
  exact hassigned

/-- What is known of a `UIDNEXT` stays true when more is reported. -/
theorem next_append (h : Recorded s reports) {folder : FolderPath} {next : ℤ}
    (hmem : .uidNext folder next ∈ reports) (new : List Report) :
    next = 1 ∨ ∃ name uid, .assigned folder name uid ∈ reports ++ new ∧ next = uid + 1 := by
  obtain hone | ⟨name, uid, hassigned, hnext⟩ := h.next hmem
  · exact Or.inl hone
  · exact Or.inr ⟨name, uid, List.mem_append_left _ hassigned, hnext⟩

/-- A `UIDNEXT` is one, or one above an identifier that is below the counter. -/
theorem next_le_count (h : Recorded s reports) {folder : FolderPath} {next : ℤ}
    (hmem : .uidNext folder next ∈ reports) : next ≤ s.count := by
  have hlo := h.count_lo
  have hpos : (1 : ℤ) < LUID.count := by decide
  obtain hone | ⟨name, uid, hassigned, hnext⟩ := h.next hmem
  · omega
  · have hlt := (h.assigned hassigned).1.2
    omega

/-- Reports of the disk that give no identifier. -/
theorem look (h : Recorded s reports) {count : ℤ} {new : List Report}
    (hlimit : s.count < 2 ^ 31 - 1) (hcount : count = s.count ∨ count = wrapInt (s.count + 1))
    (hnew : ∀ r ∈ new, ReportOf s.disk r) : Recorded ⟨count, s.disk⟩ (reports ++ new) := by
  have hlo := h.count_lo
  have hpos : (0 : ℤ) < LUID.count := by decide
  have hle : s.count ≤ count ∧ count < 2 ^ 31 := by
    obtain rfl | rfl := hcount
    · exact ⟨le_refl _, h.count_hi⟩
    · rw [wrapInt_of_lt (by omega) (by omega)]
      omega
  have hold : ∀ {folder name uid}, .assigned folder name uid ∈ reports ++ new →
      .assigned folder name uid ∈ reports := by
    intro folder name uid hmem
    exact (List.mem_append.mp hmem).resolve_right fun hn => hnew _ hn
  have hvacuous : ∀ r r', ReportOf s.disk r' → Increases r r' ∧ NextBelow r r' := by
    intro r r' hr'
    exact ⟨fun _ _ _ _ _ _ h' => absurd h' (hr'.ne_assigned _ _),
      fun _ _ _ _ _ h' => absurd h' (hr'.ne_assigned _ _)⟩
  refine ⟨by dsimp only; omega, hle.2, ?_, ?_, ?_, ?_, ?_, ?_, ?_⟩
  · intro folder files file hfiles hfile
    obtain ⟨hassigned, huid⟩ := h.disk hfiles hfile
    exact ⟨List.mem_append_left _ hassigned, huid⟩
  · intro folder name uid hmem
    obtain ⟨⟨hlow, hhigh⟩, hfiles⟩ := h.assigned (hold hmem)
    exact ⟨⟨hlow, by dsimp only; omega⟩, hfiles⟩
  · intro folder folder' name name' uid hmem hmem'
    exact h.unique (hold hmem) (hold hmem')
  · intro folder messages name uid hmem hmessage
    apply List.mem_append_left
    obtain hmem | hmem := List.mem_append.mp hmem
    · exact h.loaded hmem hmessage
    · obtain ⟨files, hfiles, hall⟩ := hnew _ hmem
      obtain ⟨file, hfile, heq⟩ := hall _ hmessage
      cases heq
      exact h.of_load hfiles hfile
  · intro folder next hmem
    obtain hmem | hmem := List.mem_append.mp hmem
    · exact h.next_append hmem new
    · obtain ⟨files, hfiles, hone | ⟨file, hfile, hnext⟩⟩ := hnew _ hmem
      · exact Or.inl hone
      · -- the identifier is below the counter, so the addition does not overflow
        have hassigned := h.of_load hfiles hfile
        obtain ⟨⟨hlow, hhigh⟩, -⟩ := h.assigned hassigned
        rw [wrapInt_of_lt (by omega) (by omega)] at hnext
        exact Or.inr ⟨file.name, file.uid, List.mem_append_left _ hassigned, hnext⟩
  · refine List.pairwise_append.mpr ⟨h.increases, ?_, fun r _ r' hr' => (hvacuous r r' (hnew r' hr')).1⟩
    exact List.pairwise_of_forall_mem_list fun r _ r' hr' => (hvacuous r r' (hnew r' hr')).1
  · refine List.pairwise_append.mpr ⟨h.nextBelow, ?_, fun r _ r' hr' => (hvacuous r r' (hnew r' hr')).2⟩
    exact List.pairwise_of_forall_mem_list fun r _ r' hr' => (hvacuous r r' (hnew r' hr')).2

/-- A new directory. -/
theorem create (h : Recorded s reports) {folder : FolderPath} (hnone : s.disk folder = none) :
    Recorded ⟨s.count, Function.update s.disk folder (some [])⟩ reports := by
  refine { h with disk := ?_, assigned := ?_ }
  · intro folder' files file hfiles hfile
    by_cases heq : folder' = folder
    · rw [heq] at hfiles
      simp only [Function.update_self, Option.some.injEq] at hfiles
      rw [← hfiles] at hfile
      cases hfile
    · simp only [Function.update_of_ne heq] at hfiles
      exact h.disk hfiles hfile
  · intro folder' name uid hmem
    obtain ⟨hrange, files, hfiles, hne⟩ := h.assigned hmem
    -- no message can have been saved in a folder that did not exist
    have hother : folder' ≠ folder := by
      rintro rfl
      rw [hnone] at hfiles
      cases hfiles
    exact ⟨hrange, files, by simp only [Function.update_of_ne hother, hfiles], hne⟩

section save

variable {folder : FolderPath} {files : List MessageFile} {file : MessageFile} (hgiven : file.given = s.count)

theorem save_disk (h : Recorded s reports) (hfiles : s.disk folder = some files)
    (huid : file.readable = true → file.uid = file.given) {folder' : FolderPath} {files' : List MessageFile}
    {file' : MessageFile}
    (hfiles' : Function.update s.disk folder (some (files ++ [file])) folder' = some files') (hfile' : file' ∈ files') :
    .assigned folder' file'.name file'.given ∈ reports ++ [Report.assigned folder file.name file.given]
      ∧ (file'.readable = true → file'.uid = file'.given) := by
  by_cases heq : folder' = folder
  · subst heq
    rw [Function.update_self, Option.some.injEq] at hfiles'
    rw [← hfiles'] at hfile'
    obtain hfile' | hfile' := List.mem_append.mp hfile'
    · obtain ⟨hassigned, huid'⟩ := h.disk hfiles hfile'
      exact ⟨List.mem_append_left _ hassigned, huid'⟩
    · rw [List.mem_singleton.mp hfile']
      exact ⟨List.mem_append_right _ (List.mem_singleton_self _), huid⟩
  · rw [Function.update_of_ne heq] at hfiles'
    obtain ⟨hassigned, huid'⟩ := h.disk hfiles' hfile'
    exact ⟨List.mem_append_left _ hassigned, huid'⟩

include hgiven

/-- The reports after a new message. -/
theorem mem_save {folder' : FolderPath} {name : JString} {uid : ℤ}
    (hmem : .assigned folder' name uid ∈ reports ++ [Report.assigned folder file.name file.given]) :
    .assigned folder' name uid ∈ reports ∨ (folder' = folder ∧ name = file.name ∧ uid = s.count) := by
  obtain hmem | hmem := List.mem_append.mp hmem
  · exact Or.inl hmem
  · cases List.mem_singleton.mp hmem
    exact Or.inr ⟨rfl, rfl, hgiven⟩

/-- Every message that was given an identifier is still on the disk. -/
theorem save_assigned (h : Recorded s reports) {folder' : FolderPath} {name : JString} {uid : ℤ}
    (hmem : .assigned folder' name uid ∈ reports ++ [Report.assigned folder file.name file.given]) :
    (LUID.count ≤ uid ∧ uid < s.count + 1)
      ∧ ∃ files', Function.update s.disk folder (some (files ++ [file])) folder' = some files' ∧ files' ≠ [] := by
  have hlo := h.count_lo
  obtain hmem | ⟨rfl, rfl, rfl⟩ := mem_save hgiven hmem
  · obtain ⟨hrange, files', hfiles', hne⟩ := h.assigned hmem
    refine ⟨⟨hrange.1, by omega⟩, ?_⟩
    by_cases heq : folder' = folder
    · subst heq
      exact ⟨files ++ [file], Function.update_self .., by simp⟩
    · exact ⟨files', by rw [Function.update_of_ne heq]; exact hfiles', hne⟩
  · exact ⟨⟨hlo, by omega⟩, files ++ [file], Function.update_self .., by simp⟩

/-- The counter is an identifier that was not given before. -/
theorem save_unique (h : Recorded s reports) {folder₁ folder₂ : FolderPath} {name₁ name₂ : JString} {uid : ℤ}
    (hmem₁ : .assigned folder₁ name₁ uid ∈ reports ++ [Report.assigned folder file.name file.given])
    (hmem₂ : .assigned folder₂ name₂ uid ∈ reports ++ [Report.assigned folder file.name file.given]) :
    folder₁ = folder₂ ∧ name₁ = name₂ := by
  obtain hold₁ | ⟨hfolder₁, hname₁, huid₁⟩ := mem_save hgiven hmem₁ <;>
    obtain hold₂ | ⟨hfolder₂, hname₂, huid₂⟩ := mem_save hgiven hmem₂
  · exact h.unique hold₁ hold₂
  · have hlt := (h.assigned hold₁).1.2
    omega
  · have hlt := (h.assigned hold₂).1.2
    omega
  · exact ⟨hfolder₁.trans hfolder₂.symm, hname₁.trans hname₂.symm⟩

end save

/-- A new message, with the value of the counter. -/
theorem save (h : Recorded s reports) {folder : FolderPath} {files : List MessageFile}
    {file : MessageFile} (hlimit : s.count < 2 ^ 31 - 1) (hfiles : s.disk folder = some files)
    (hgiven : file.given = s.count) (huid : file.readable = true → file.uid = file.given) :
    Recorded ⟨wrapInt (s.count + 1), Function.update s.disk folder (some (files ++ [file]))⟩
      (reports ++ [Report.assigned folder file.name file.given]) := by
  have hlo := h.count_lo
  have hpos : (0 : ℤ) < LUID.count := by decide
  have hcount : wrapInt (s.count + 1) = s.count + 1 := wrapInt_of_lt (by omega) (by omega)
  rw [hcount]
  refine ⟨by dsimp only; omega, by dsimp only; omega, save_disk h hfiles huid, save_assigned hgiven h,
    save_unique hgiven h, ?_, ?_, ?_, ?_⟩
  · intro folder' messages name uid hmem hmessage
    obtain hmem | hmem := List.mem_append.mp hmem
    · exact List.mem_append_left _ (h.loaded hmem hmessage)
    · cases List.mem_singleton.mp hmem
  · intro folder' next hmem
    obtain hmem | hmem := List.mem_append.mp hmem
    · exact h.next_append hmem _
    · cases List.mem_singleton.mp hmem
  · refine List.pairwise_append.mpr ⟨h.increases, List.pairwise_singleton .., ?_⟩
    intro r hr r' hr' folder' name name' uid uid' heq heq'
    subst heq
    cases heq'.symm.trans (List.mem_singleton.mp hr')
    rw [hgiven]
    exact (h.assigned hr).1.2
  · refine List.pairwise_append.mpr ⟨h.nextBelow, List.pairwise_singleton .., ?_⟩
    intro r hr r' hr' folder' name next uid heq heq'
    subst heq
    cases heq'.symm.trans (List.mem_singleton.mp hr')
    rw [hgiven]
    exact h.next_le_count hr

/-- A restart before the first message. -/
theorem restart (h : Recorded s reports)
    (hempty : ∀ folder files, s.disk folder = some files → files = []) :
    Recorded ⟨LUID.count, s.disk⟩ reports := by
  have hlimit : LUID.count < 2 ^ 31 := by decide
  refine { h with count_lo := le_refl _, count_hi := hlimit, assigned := ?_ }
  -- nothing was assigned, since it would still be on the disk
  intro folder name uid hmem
  obtain ⟨-, files, hfiles, hne⟩ := h.assigned hmem
  exact absurd (hempty folder files hfiles) hne

/-- One step that keeps counting. -/
theorem step {p : Platform} (h : Recorded s reports) {op : ServerOp} (hop : KeepsCounting p s op) :
    Recorded ((mailServer p).step s op).1 (reports ++ ((mailServer p).step s op).2) := by
  have heffect : Effect s ((mailServer p).step s op) := step_effect hop
  generalize (mailServer p).step s op = r at heffect ⊢
  cases heffect with
  | look hlimit hcount hreports => exact h.look hlimit hcount hreports
  | create hnone => rw [List.append_nil]; exact h.create hnone
  | save hlimit hfiles hgiven huid => exact h.save hlimit hfiles hgiven huid
  | restart hempty => rw [List.append_nil]; exact h.restart hempty

end Recorded

/-! ## Every run -/

section runs

variable {p : Platform}

theorem recorded_run {ops : List ServerOp} (h : (mailServer p).Along (KeepsCounting p) .initial ops) :
    Recorded ((mailServer p).run .initial ops) ((mailServer p).outputs .initial ops) :=
  h.outputs_invariant (fun _ _ _ hs hop => hs.step hop) recorded_initial

/-- A message saved after a restart, in a folder that has one already, gets too small an identifier. -/
theorem Recorded.not_stable_of_restart {s : Server} {reports : List Report} (h : Recorded s reports)
    {folder : FolderPath} {files : List MessageFile} {new : NewFile} (hfiles : s.disk folder = some files)
    (hne : files ≠ []) (hname : (LFSFolder.createMessageXML files new.newNames).isSome) :
    ¬ Stable (reports ++ (mailServer p).outputs s [.restart, .save folder new]) := by
  obtain ⟨name, hname⟩ := Option.isSome_iff_exists.mp hname
  obtain ⟨file, hfile⟩ := List.exists_mem_of_ne_nil files hne
  have hnew : (mailServer p).outputs s [.restart, .save folder new] = [.assigned folder name LUID.count] := by
    simp [mailServer, Server.step, Server.save, hfiles, hname, LUID.get]
  have hold := (h.disk hfiles hfile).1
  have hlow := (h.assigned hold).1.1
  intro hstable
  rw [hnew] at hstable
  have hlt := (List.pairwise_append.mp hstable.increases).2.2 _ hold _ (List.mem_singleton_self _)
    folder file.name name file.given LUID.count rfl rfl
  omega

/-- In every run without a restart after the first message, in which `lUID` does not overflow and no text of a
message is read as another identifier, the identifiers are stable. After a restart the next message in any folder
with messages ends that. -/
theorem uids_stable {ops : List ServerOp} (h : (mailServer p).Along (KeepsCounting p) .initial ops) :
    Stable ((mailServer p).outputs .initial ops)
      ∧ ∀ folder files new, ((mailServer p).run .initial ops).disk folder = some files → files ≠ [] →
        (LFSFolder.createMessageXML files new.newNames).isSome →
        ¬ Stable ((mailServer p).outputs .initial (ops ++ [.restart, .save folder new])) := by
  have hrecorded := recorded_run h
  refine ⟨hrecorded.stable, ?_⟩
  intro folder files new hfiles hne hname
  rw [Machine.outputs_append]
  exact hrecorded.not_stable_of_restart hfiles hne hname

end runs

/-- The inbox of a user `u`. -/
def inbox : FolderPath := ⟨['u'], "inbox".toList⟩

/-- A session of the user, who has no mailbox names to decode. -/
def inboxSession : MailSession := ⟨some ['u'], id⟩

/-- A message in a file with this name. -/
def letter (name : JString) : NewFile := ⟨[name], 1, 0, Message.new 0⟩

theorem keepsUid_letter (name : JString) {uid : ℤ} (hlo : -2 ^ 31 ≤ uid) (hhi : uid < 2 ^ 31) :
    KeepsUid Platform.utc (letter name).hash ((letter name).setUID uid) :=
  have hplain : fieldWeight ltWeight (Message.new 0) = 0 := by decide
  keepsUid_of_plain hplain hlo hhi

/-- Two messages in the inbox, and a look at it. -/
theorem uids_stable_inbox :
    Stable ((mailServer Platform.utc).outputs .initial
      [.create inbox, .save inbox (letter ['a']), .save inbox (letter ['b']),
        .select inboxSession ['t'] [.atom "INBOX".toList]]) := by
  refine (uids_stable ?_).1
  simp only [Machine.along_cons, Machine.along_nil, KeepsCounting]
  refine ⟨by decide, ⟨by decide, keepsUid_letter ['a'] (by decide) (by decide)⟩,
    ⟨by decide, keepsUid_letter ['b'] (by decide) (by decide)⟩, by decide, trivial⟩

/-- A message, a restart and another message in the inbox: the pair `(901, 10)` stands for both. -/
theorem uids_restart :
    ¬ ∀ p ops, Stable ((mailServer p).outputs .initial ops) := by
  intro h
  have hstable := h Platform.utc [.create inbox, .save inbox (letter ['a']), .restart,
    .save inbox (letter ['b']), .select inboxSession ['t'] [.atom "INBOX".toList]]
  have hsame := hstable.denotes 901 10 inbox inbox ['a'] ['b']
    ⟨by decide +kernel, [(['a'], 10), (['b'], 10)], by decide +kernel, by decide⟩
    ⟨by decide +kernel, [(['a'], 10), (['b'], 10)], by decide +kernel, by decide⟩
  exact absurd hsame.2 (by decide)

end OrgLittle.Imap
