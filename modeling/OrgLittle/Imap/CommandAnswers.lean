import OrgLittle.Imap.Commands
import OrgLittle.Util.MaskMatching

/-!
# What the commands answer

Every command that does not raise an exception ends with a line that carries its tag, and all lines before it are
untagged, but for `UID COPY` and `UID STORE`, which are answered twice (`process_answered`). `LIST` and `LSUB` show the
folders that their mask stands for (`list_eq`).
-/

namespace OrgLittle.Imap

open OrgLittle.Java OrgLittle.Lib OrgLittle.Lmsg OrgLittle.Util

/-! ## Tagged lines -/

/-- Untagged lines, and behind them `n` lines with the tag. -/
def Answered (tag : JString) (n : ℕ) (responses : List EmptyResponse) : Prop :=
  ∃ info finals, responses = info ++ finals ∧ (∀ r ∈ info, r.tag = none) ∧ finals.length = n
    ∧ ∀ r ∈ finals, r.tag = some tag

/-- The line that asks for the literal of `APPEND`. -/
def continuation : EmptyResponse := ⟨some ['+'], "Ready for literal data".toList⟩

/-- `UID COPY` and `UID STORE`, whose commands answer for themselves. -/
def ImapCommand.twice (cmd : ImapCommand) : Bool :=
  cmd.class = .UID ∧ ∃ p ∈ cmd.parameters.head?,
    equalsIgnoreCase "COPY".toList p.toString ∨ equalsIgnoreCase "STORE".toList p.toString

/-- A single tagged line answers a command. -/
theorem answered_completed (tag : JString) (text : String) : Answered tag 1 [completed tag text] :=
  ⟨[], [completed tag text], rfl, by simp, rfl, by simp [completed]⟩

/-- An untagged line in front is no answer. -/
theorem Answered.cons {tag : JString} {n : ℕ} {responses : List EmptyResponse} (h : Answered tag n responses)
    (text : JString) : Answered tag n (untagged text :: responses) := by
  obtain ⟨info, finals, rfl, hinfo, hlen, hfinals⟩ := h
  exact ⟨untagged text :: info, finals, rfl, List.forall_mem_cons.mpr ⟨rfl, hinfo⟩, hlen, hfinals⟩

/-- Untagged lines in front are no answers. -/
theorem Answered.append {tag : JString} {n : ℕ} {info responses : List EmptyResponse} (h : Answered tag n responses)
    (hinfo : ∀ r ∈ info, r.tag = none) : Answered tag n (info ++ responses) := by
  obtain ⟨info', finals, rfl, hinfo', hlen, hfinals⟩ := h
  refine ⟨info ++ info', finals, (List.append_assoc _ _ _).symm, fun r hr => ?_, hlen, hfinals⟩
  exact (List.mem_append.mp hr).elim (hinfo r) (hinfo' r)

/-- Another tagged line is one answer more. -/
theorem Answered.concat {tag : JString} {n : ℕ} {responses : List EmptyResponse} (h : Answered tag n responses)
    (text : String) : Answered tag (n + 1) (responses ++ [completed tag text]) := by
  obtain ⟨info, finals, rfl, hinfo, hlen, hfinals⟩ := h
  refine ⟨info, finals ++ [completed tag text], List.append_assoc _ _ _, hinfo, by simp [hlen], fun r hr => ?_⟩
  obtain hr | hr := List.mem_append.mp hr
  · exact hfinals r hr
  · rw [List.mem_singleton.mp hr]
    rfl

theorem Answered.of_ok {tag : JString} {n : ℕ} {answer responses : List EmptyResponse}
    (h : (.ok answer : Except JavaException (List EmptyResponse)) = .ok responses) (hanswer : Answered tag n answer) :
    Answered tag n responses := Except.ok.inj h ▸ hanswer

/-- Nothing answers nothing. -/
theorem answered_nil (tag : JString) : Answered tag 0 [] := ⟨[], [], rfl, by simp, rfl, by simp⟩

theorem answered_done (name : String) (tag : JString) : Answered tag 1 (done name tag) := answered_completed tag _

section commands

variable {σ : Type*} {root : JString → LStore σ} {env : CommandEnv} {tag : JString} {ctx : MailContext} {s : σ}

/-! ## `LIST` and `LSUB` -/

/-- There is a `null` in a list of folders. -/
def hasNull (folders : List (Option LFolder)) : Bool := folders.any Option.isNone

/-- The loop over the folders of a store, in which there may be `null`. -/
theorem mapM_folders {line : Option LFolder → Except JavaException (List EmptyResponse)}
    {show_ : LFolder → List EmptyResponse} (hnone : line none = .error .nullPointer)
    (hsome : ∀ folder, line (some folder) = .ok (show_ folder)) (folders : List (Option LFolder)) :
    folders.mapM line
      = if hasNull folders then .error .nullPointer else .ok ((folders.filterMap id).map show_) := by
  induction folders with
  | nil => rfl
  | cons folder folders ih =>
    rw [List.mapM_cons]
    match folder with
    | none =>
      rw [hnone]
      rfl
    | some folder =>
      rw [hsome, ih, show hasNull (some folder :: folders) = hasNull folders from rfl]
      split_ifs <;> rfl

/-- The lines of those that pass a test. -/
theorem flatten_map_ite {α β : Type*} (p : α → Bool) (f : α → β) (xs : List α) :
    (xs.map fun x => if p x then [f x] else []).flatten = (xs.filter p).map f := by
  induction xs with
  | nil => rfl
  | cons x xs ih =>
    rw [List.map_cons, List.flatten_cons, ih, List.filter_cons]
    split_ifs <;> rfl

/-- The line of `LIST` for a folder. -/
def listLine (env : CommandEnv) (folder : LFolder) : EmptyResponse :=
  untagged ("LIST (\\HasNoChildren) \"/\" \"".toList ++ env.encodeMailbox folder.name ++ ['"'])

/-- The line of `LSUB` for a folder. -/
def lsubLine (env : CommandEnv) (folder : LFolder) : EmptyResponse :=
  untagged ("LSUB (\\HasNoChildren) \".\" \"".toList ++ env.encodeMailbox folder.name ++ ['"'])

/-- What a mask stands for in `LIST` and `LSUB`. -/
def MaskMatches (mask name : JString) : Prop :=
  Glob.Matches StringCase.INSENSITIVE.same (Glob.settle (StringWildCard.glob (utf16 mask))) (utf16 name)

/-- `wildcardMatch` is the matching of names by masks. -/
theorem wildcardMatch_iff_maskMatches (name mask : JString) :
    StringWildCard.wildcardMatch (some (utf16 name)) (some (utf16 mask)) .INSENSITIVE = true
      ↔ MaskMatches mask name :=
  StringWildCard.matchesMask_eq_true_iff (utf16 name) (utf16 mask) .INSENSITIVE

open Classical in
/-- The folders with a property, in their order. -/
noncomputable def foldersWith (p : LFolder → Prop) (folders : List (Option LFolder)) : List LFolder :=
  (folders.filterMap id).filter fun folder => p folder

/-- A listing that fails at a null folder has one line for each folder that passes the test. -/
theorem mapM_filter (line : Option LFolder → Except JavaException (List EmptyResponse)) {test : LFolder → Bool}
    {p : LFolder → Prop} (text : LFolder → EmptyResponse) (htest : ∀ folder, test folder = true ↔ p folder)
    (hnone : line none = .error .nullPointer)
    (hsome : ∀ folder, line (some folder) = .ok (if test folder then [text folder] else []))
    (folders : List (Option LFolder)) (answer : List EmptyResponse) :
    (do
      let lines ← folders.mapM line
      .ok (lines.flatten ++ answer))
      = if hasNull folders then .error .nullPointer else .ok ((foldersWith p folders).map text ++ answer) := by
  have hfilter : foldersWith p folders = (folders.filterMap id).filter test := by
    unfold foldersWith
    refine List.filter_congr fun folder _ => ?_
    rw [Bool.eq_iff_iff, htest]
    simp
  rw [mapM_folders hnone hsome, hfilter, ← flatten_map_ite]
  split_ifs <;> rfl

theorem Answered.of_mapM (line : Option LFolder → Except JavaException (List EmptyResponse)) {test : LFolder → Bool}
    {p : LFolder → Prop} (text : LFolder → EmptyResponse) (htest : ∀ folder, test folder = true ↔ p folder)
    (hnone : line none = .error .nullPointer)
    (hsome : ∀ folder, line (some folder) = .ok (if test folder then [text folder] else []))
    (htext : ∀ folder, (text folder).tag = none) {folders : List (Option LFolder)}
    {answer responses : List EmptyResponse}
    (hanswer : Answered tag 1 answer)
    (h : (do
      let lines ← folders.mapM line
      .ok (lines.flatten ++ answer)) = .ok responses) : Answered tag 1 responses := by
  rw [mapM_filter line text htest hnone hsome] at h
  split_ifs at h
  rw [← Except.ok.inj h]
  refine hanswer.append fun r hr => ?_
  obtain ⟨folder, -, rfl⟩ := List.mem_map.mp hr
  exact htext folder

/-- `LIST` has one tagged line. -/
theorem list_answered {parameters : List ImapCommandParameter} {responses : List EmptyResponse}
    (h : ListCommand.doProcess root env tag ctx s parameters = .ok responses) : Answered tag 1 responses := by
  match parameters with
  | [] | [_] => cases h
  | arg1 :: arg2 :: _ =>
    obtain ⟨reference, -, h⟩ := exists_of_bind h
    obtain ⟨mask, -, h⟩ := exists_of_bind h
    split at h
    · exact .of_ok h ((answered_done "LIST" tag).cons _)
    · split at h
      · cases h
      · split at h
        · exact .of_mapM (ListCommand.line env mask) (listLine env)
            (fun folder => wildcardMatch_iff_maskMatches (toUpperCase folder.name) (env.decodeMailbox mask)) rfl
            (fun folder => (apply_ite Except.ok _ _ _).symm) (fun _ => rfl) (answered_done "LIST" tag) h
        · exact .of_ok h (answered_done "LIST" tag)

/-- `LSUB` has one tagged line. -/
theorem lsub_answered {parameters : List ImapCommandParameter} {responses : List EmptyResponse}
    (h : LsubCommand.doProcess root env tag ctx s parameters = .ok responses) : Answered tag 1 responses := by
  match parameters with
  | [] | [_] =>
    exact .of_ok h ((answered_completed tag _).cons _)
  | arg1 :: arg2 :: _ =>
    obtain ⟨reference, -, h⟩ := exists_of_bind h
    obtain ⟨mask, -, h⟩ := exists_of_bind h
    split at h
    · cases h
    · split at h
      · exact .of_mapM (LsubCommand.line env mask) (lsubLine env)
          (fun folder => wildcardMatch_iff_maskMatches folder.name mask) rfl
          (fun folder => (apply_ite Except.ok _ _ _).symm) (fun _ => rfl) (answered_done "LSUB" tag) h
      · exact .of_ok h (answered_done "LSUB" tag)

/-- `SUBSCRIBE` has one tagged line. -/
theorem subscribe_answered {parameters : List ImapCommandParameter} {responses : List EmptyResponse}
    (h : SubscribeCommand.doProcess root tag ctx s parameters = .ok responses) : Answered tag 1 responses := by
  match parameters with
  | [] =>
    exact .of_ok h (answered_completed tag _)
  | arg :: _ =>
    obtain ⟨_, -, h⟩ := exists_of_bind h
    split at h
    · exact .of_ok h (answered_completed tag _)
    · obtain ⟨_, -, h⟩ := exists_of_bind h
      obtain ⟨_, -, h⟩ := exists_of_bind h
      split at h <;> rw [← Except.ok.inj h] <;> exact answered_completed tag _

/-- The lines of `SELECT` end with the tagged one. -/
theorem answered_select (status : FolderStatus) : Answered tag 1 (SelectCommand.responses tag status) := by
  have hlast := answered_completed tag "OK [READ-WRITE] SELECT completed"
  unfold SelectCommand.responses
  split_ifs
  · exact (((((((hlast.cons _).cons _).cons _).cons _).cons _).cons _).cons _)
  · exact ((((((hlast.cons _).cons _).cons _).cons _).cons _).cons _)

/-- The lines of `FETCH` end with the tagged one. -/
theorem fetch_answered {env : FetchEnv} {isUID : Bool} {parameters : List ImapCommandParameter}
    {folder : Option (List FetchMessage)} {responses : List FetchResponse}
    (h : (FetchCommand.doProcess env isUID tag parameters folder).result = .ok responses) :
    Answered tag (if isUID then 0 else 1) (responses.map FetchResponse.toEmptyResponse) := by
  unfold FetchCommand.doProcess at h
  dsimp only at h
  split at h
  · cases h
  · cases h
  · rw [← Except.ok.inj h, List.map_append]
    refine Answered.append ?_ fun r hr => ?_
    · cases isUID
      · exact answered_completed tag "OK FETCH completed"
      · exact answered_nil tag
    · obtain ⟨_, hmem, rfl⟩ := List.mem_map.mp hr
      obtain ⟨msg, -, rfl⟩ := List.mem_map.mp hmem
      rfl

theorem map_toEmptyResponse_status (responses : List EmptyResponse) :
    (responses.map FetchResponse.status).map FetchResponse.toEmptyResponse = responses := by
  rw [List.map_map]
  exact List.map_id _

/-- What the command inside of `UID` answers. -/
theorem other_answered {command_name : JString} {parameters : List ImapCommandParameter}
    {responses : List FetchResponse} (h : (UidCommand.other tag ctx command_name parameters).result = .ok responses) :
    Answered tag (if equalsIgnoreCase "COPY".toList command_name ∨ equalsIgnoreCase "STORE".toList command_name
      then 1 else 0) (responses.map FetchResponse.toEmptyResponse) := by
  dsimp only [UidCommand.other] at h
  split_ifs at h with hsearch hcopy hstore
  · rw [if_neg (not_or.mpr ⟨not_equalsIgnoreCase (by decide) hsearch, not_equalsIgnoreCase (by decide) hsearch⟩)]
    obtain ⟨found, hfound, rfl⟩ := exists_of_map h
    rw [map_toEmptyResponse_status]
    unfold SearchCommand.doProcess at hfound
    split at hfound
    · cases hfound
    · rw [← Except.ok.inj hfound]
      exact (answered_nil tag).cons _
  · rw [if_pos (.inl hcopy), ← Except.ok.inj h, map_toEmptyResponse_status]
    exact answered_done "COPY" tag
  · rw [if_pos (.inr hstore), ← Except.ok.inj h, map_toEmptyResponse_status]
    exact answered_done "STORE" tag
  · rw [if_neg (not_or.mpr ⟨hcopy, hstore⟩), ← Except.ok.inj h]
    exact answered_nil tag

/-- The lines of a command behind which `UID` puts its own. -/
theorem uid_answered {env : CommandEnv} {cmd : ImapCommand} (hcmd : cmd.class = .UID) {responses : List FetchResponse}
    (h : (UidCommand.doProcess env.fetch (UidCommand.other cmd.tag ctx) cmd.tag cmd.parameters
      (ctx.folder.map (·.list_msg))).result = .ok responses) :
    Answered cmd.tag (if cmd.twice then 2 else 1) (responses.map FetchResponse.toEmptyResponse) := by
  obtain ⟨inner, hinner, rfl⟩ := exists_of_map h
  rw [List.map_append]
  match hparams : cmd.parameters with
  | [] =>
    rw [hparams] at hinner
    rw [← Except.ok.inj hinner, if_neg (by simp [ImapCommand.twice, hparams])]
    exact (answered_nil cmd.tag).concat _
  | p :: ps =>
    have htwice : cmd.twice = true
        ↔ equalsIgnoreCase "COPY".toList p.toString ∨ equalsIgnoreCase "STORE".toList p.toString := by
      simp [ImapCommand.twice, hparams, hcmd]
    rw [hparams] at hinner
    dsimp only at hinner
    split_ifs at hinner with hfetch
    · rw [if_neg (htwice.not.mpr (not_or.mpr ⟨not_equalsIgnoreCase (by decide) hfetch,
        not_equalsIgnoreCase (by decide) hfetch⟩))]
      exact (fetch_answered hinner).concat _
    · have hother := (other_answered hinner).concat "OK UID completed"
      by_cases htwo : cmd.twice = true
      · rw [if_pos (htwice.mp htwo)] at hother
        rw [if_pos htwo]
        exact hother
      · rw [if_neg (htwice.not.mp htwo)] at hother
        rw [if_neg htwo]
        exact hother

/-- `APPEND` asks for the literal, or has one tagged line. -/
theorem append_answered {cmd : ImapCommand} {responses : List EmptyResponse}
    (h : (AppendCommand.process root env cmd ctx s).result = .ok responses) :
    Answered cmd.tag 1 responses ∨ cmd.buffer = none ∧ responses = [continuation] := by
  dsimp only [AppendCommand.process] at h
  unfold AppendCommand.doProcess at h
  split at h
  · rw [← Except.ok.inj h]
    exact .inl (answered_completed _ "BAD APPEND UNKNOWN COMMAND")
  · dsimp only at h
    split at h
    · rw [← Except.ok.inj h]
      exact .inl (answered_completed _ "BAD APPEND UNKNOWN COMMAND")
    · split at h
      · next hbuffer =>
        split_ifs at h
        rw [← Except.ok.inj h]
        exact .inr ⟨hbuffer, rfl⟩
      · split at h
        · cases h
        · rw [← Except.ok.inj h]
          exact .inl (((answered_completed cmd.tag "OK APPEND completed").cons _).cons _)
        · rw [← Except.ok.inj h]
          exact .inl (answered_completed _ "NO APPEND uncompleted")

/-- `LOGIN` has one tagged line, whether it succeeds or not. -/
theorem login_answered {parameters : List ImapCommandParameter} {responses : List EmptyResponse}
    (h : (LoginCommand.process env tag parameters ctx s).result = .ok responses) : Answered tag 1 responses := by
  have hresult : (LoginCommand.process env tag parameters ctx s).result
      = (LoginCommand.doProcess ⟨env.login, tag, parameters⟩ ctx.login).result := by
    unfold LoginCommand.process
    split <;> rfl
  rw [hresult] at h
  unfold LoginCommand.doProcess at h
  split at h
  · cases h
  · split at h
    · exact .of_ok h (answered_completed tag _)
    · dsimp only at h
      split_ifs at h
      · split at h <;> rw [← Except.ok.inj h] <;> exact answered_completed tag _
      · exact .of_ok h (answered_completed tag _)

/-- `CREATE` has one tagged line. -/
theorem create_answered {parameters : List ImapCommandParameter} {responses : List EmptyResponse}
    (h : (CreateCommand.process root env tag parameters ctx s).result = .ok responses) : Answered tag 1 responses := by
  unfold CreateCommand.process at h
  split at h
  · exact .of_ok h (answered_completed tag _)
  · split at h
    · cases h
    · exact .of_ok h (answered_completed tag _)
    · rw [← Except.ok.inj h]
      split_ifs
      · exact answered_done "CREATE" tag
      · exact answered_completed tag _

/-- `SELECT` has one tagged line, also where there is no such folder. -/
theorem select_answered {parameters : List ImapCommandParameter} {responses : List EmptyResponse}
    (h : (SelectCommand.process root env tag parameters ctx s).result = .ok responses) : Answered tag 1 responses := by
  unfold SelectCommand.process at h
  split at h
  · exact .of_ok h (answered_completed tag _)
  · split at h
    · cases h
    · exact .of_ok h (answered_completed tag _)
    · split at h
      · exact .of_ok h (answered_completed tag _)
      · exact .of_ok h (answered_select _)

/-- `STATUS` has one tagged line. -/
theorem status_answered {parameters : List ImapCommandParameter} {responses : List EmptyResponse}
    (h : (StatusCommand.process root tag parameters ctx s).result = .ok responses) : Answered tag 1 responses := by
  unfold StatusCommand.process at h
  split at h
  · exact .of_ok h (answered_completed tag _)
  · cases h
  · split at h
    · exact .of_ok h (answered_completed tag _)
    · exact .of_ok h ((answered_done "STATUS" tag).cons _)

/-- `DELETE` has one tagged line. -/
theorem delete_answered {parameters : List ImapCommandParameter} {responses : List EmptyResponse}
    (h : (DeleteCommand.doProcess root tag parameters ctx s).result = .ok responses) : Answered tag 1 responses := by
  unfold DeleteCommand.doProcess at h
  split at h
  · exact .of_ok h (answered_completed tag _)
  · split_ifs at h
    · exact .of_ok h (answered_completed tag _)
    · split at h
      · cases h
      · exact .of_ok h (answered_done "DELETE" tag)

/-- `CLOSE` has one tagged line. -/
theorem close_answered {responses : List EmptyResponse}
    (h : (CloseCommand.doProcess tag ctx s).result = .ok responses) : Answered tag 1 responses := by
  unfold CloseCommand.doProcess at h
  split at h
  · cases h
  · exact .of_ok h (answered_done "CLOSE" tag)

/-- `SEARCH` has one tagged line. -/
theorem search_answered {responses : List EmptyResponse} (h : SearchCommand.doProcess tag false ctx = .ok responses) :
    Answered tag 1 responses := by
  unfold SearchCommand.doProcess at h
  split at h
  · cases h
  · exact .of_ok h ((answered_done "SEARCH" tag).cons _)

theorem mailbox_answered {parameters : List ImapCommandParameter} {bad : String}
    {lines : ImapCommandParameter → List EmptyResponse}
    (hlines : ∀ arg, Answered tag 1 (lines arg)) {responses : List EmptyResponse}
    (h : (match parameters with
      | [] => .ok [completed tag bad]
      | arg :: _ => (unquote (inboxName arg.toString)).map fun _ => lines arg : Except JavaException _)
        = .ok responses) :
    Answered tag 1 responses := by
  split at h
  · exact .of_ok h (answered_completed tag _)
  · obtain ⟨_, -, rfl⟩ := exists_of_map h
    exact hlines _

/-- Every command that returns is answered with untagged lines and one line with its tag, or two such lines for
`UID COPY` and `UID STORE`. Only `APPEND` first asks for its literal instead. -/
theorem process_answered {cmd : ImapCommand} {responses : List EmptyResponse}
    (h : (cmd.process root env ctx s).result = .ok responses) :
    Answered cmd.tag (if cmd.twice then 2 else 1) responses
      ∨ cmd.class = .APPEND ∧ cmd.buffer = none ∧ responses = [continuation] := by
  -- `UID` runs another command and adds its own tagged line to the one of that command.
  by_cases huid : cmd.class = .UID
  · have hprocess : cmd.process root env ctx s = (UidCommand.doProcess env.fetch (UidCommand.other cmd.tag ctx) cmd.tag
        cmd.parameters (ctx.folder.map (·.list_msg))).process ctx s := by
      rw [ImapCommand.process, huid]
    rw [hprocess] at h
    obtain ⟨inner, hinner, rfl⟩ := exists_of_map h
    exact .inl (uid_answered huid hinner)
  · have htwice : ¬ cmd.twice = true := by simp [ImapCommand.twice, huid]
    rw [if_neg htwice]
    unfold ImapCommand.process at h
    cases hclass : cmd.class <;> rw [hclass] at h
    case APPEND => exact (append_answered h).imp_right fun hmore => ⟨rfl, hmore⟩
    case UID => exact absurd hclass huid
    -- All but `APPEND` answer with a tagged line whenever they answer.
    all_goals refine .inl ?_
    case AUTHENTICATE =>
      unfold AuthenticateCommand.doProcess at h
      dsimp only at h
      split at h
      · cases h
      · exact .of_ok h (answered_completed _ _)
    case CLOSE => exact close_answered h
    case CREATE => exact create_answered h
    case DELETE => exact delete_answered h
    case FETCH =>
      obtain ⟨inner, hinner, rfl⟩ := exists_of_map h
      exact fetch_answered hinner
    case LIST => exact list_answered h
    case LOGIN => exact login_answered h
    case LSUB => exact lsub_answered h
    case SEARCH => exact search_answered h
    case SELECT => exact select_answered h
    case STATUS => exact status_answered h
    case SUBSCRIBE => exact subscribe_answered h
    case UNSUBSCRIBE => exact mailbox_answered (fun _ => answered_done "UNSUBSCRIBE" cmd.tag) h
    case GETQUOTAROOT =>
      exact mailbox_answered (fun _ => ((answered_done "GETQUOTAROOT" cmd.tag).cons _).cons _) h
    case CAPABILITY =>
      exact .of_ok h ((answered_done "CAPABILITY" cmd.tag).cons _)
    case unknown =>
      rw [← Except.ok.inj h]
      exact ⟨[], _, rfl, by simp, rfl, by simp⟩
    all_goals
      exact .of_ok h (answered_completed cmd.tag _)

end commands

/-- `UID STORE` is answered by both of its commands. -/
theorem process_answered_uid_store :
    Answered "a".toList 2 [completed "a".toList "OK STORE completed", completed "a".toList "OK UID completed"]
      ∨ CommandClass.UID = .APPEND ∧ (none : Option (List UInt8)) = none
        ∧ [completed "a".toList "OK STORE completed", completed "a".toList "OK UID completed"] = [continuation] :=
  process_answered (show (ImapCommand.process (fun _ => LStore.stub) .stub
    ⟨"a".toList, "uid".toList, [.atom "store".toList, .number 1 "1".toList], none, 0⟩ .new 10).result = .ok _ from rfl)

end OrgLittle.Imap
