import OrgLittle.Lmsg.MessageRoundTrip
import OrgLittle.Lmsg.Store

/-!
# Moving a message to another folder

`lFSMessage.remove` makes a copy in the new folder and deletes the file in the old one. `save` returns `true`
also after an exception, and `del` always returns `false`. So the move never says that it succeeded, and it
deletes the message also when the copy could not be written (`safelyMoved_iff`).
-/

namespace OrgLittle.Lmsg

open OrgLittle.Java

/-! ## The message files of a folder -/

/-- The contents of the message files of each folder. -/
abbrev MessageDisk := FolderPath → JString → Option (List UInt8)

namespace MessageDisk

/-- A file of a folder gets this content, or is deleted. -/
def set (d : MessageDisk) (folder : FolderPath) (name : JString) (file : Option (List UInt8)) : MessageDisk :=
  Function.update d folder (Function.update (d folder) name file)

theorem set_self (d : MessageDisk) (folder : FolderPath) (name : JString) (file : Option (List UInt8)) :
    d.set folder name file folder name = file := by
  rw [set, Function.update_self, Function.update_self]

theorem set_of_ne_name (d : MessageDisk) (folder folder' : FolderPath) {name name' : JString}
    (file : Option (List UInt8)) (h : name' ≠ name) : d.set folder name file folder' name' = d folder' name' := by
  by_cases hfolder : folder' = folder
  · rw [set, hfolder, Function.update_self, Function.update_of_ne h]
  · rw [set, Function.update_of_ne hfolder]

theorem set_of_ne_folder (d : MessageDisk) {folder folder' : FolderPath} (name name' : JString)
    (file : Option (List UInt8)) (h : folder' ≠ folder) :
    d.set folder name file folder' name' = d folder' name' := by
  rw [set, Function.update_of_ne h]

end MessageDisk

/-! ## `lFSMessage` -/

/-- One try to make a new file: its name, and whether the operating system would make it. -/
structure Attempt where
  name : JString
  creatable : Bool

/-- What becomes of writing the copy. -/
inductive Writing
  /-- the file cannot be opened -/
  | openFails
  /-- an exception after some bytes -/
  | writeFails (written : ℕ)
  | completes
deriving DecidableEq

/-- The bytes that are in the file in the end. -/
def Writing.result (bytes : List UInt8) : Writing → List UInt8
  | .openFails => []
  | .writeFails written => bytes.take written
  | .completes => bytes

namespace LFSMessage

/-- `create`: a file that exists is not created. -/
def create (d : MessageDisk) (folder : FolderPath) (a : Attempt) : Bool × MessageDisk :=
  if a.creatable ∧ d folder a.name = none then (true, d.set folder a.name (some [])) else (false, d)

/-- `lFSFolder.createMessageXML`: up to three names are tried. -/
def createMessageXML (d : MessageDisk) (folder : FolderPath) (first second third : Attempt) :
    Option (JString × MessageDisk) :=
  match create d folder first with
  | (true, d) => some (first.name, d)
  | (false, d) =>
    match create d folder second with
    | (true, d) => some (second.name, d)
    | (false, d) =>
      match create d folder third with
      | (true, d) => some (third.name, d)
      | (false, _) => none

/-- `save`: an exception is logged, and the result is the same. -/
def save (p : Platform) (hash : UInt32) (d : MessageDisk) (folder : FolderPath) (name : JString) (msg : Message)
    (w : Writing) : Bool × MessageDisk :=
  (true, d.set folder name (some (w.result (saveFile p hash msg))))

/-- `del`: the result of `delete` is dropped. -/
def del (d : MessageDisk) (folder : FolderPath) (name : JString) (deletable : Bool) : Bool × MessageDisk :=
  (false, if deletable then d.set folder name none else d)

/-- What the operating system does during a move. -/
structure MoveFaults where
  first : Attempt
  second : Attempt
  third : Attempt
  writing : Writing
  deletable : Bool

/-- `copy`. -/
def copy (p : Platform) (hash : UInt32) (d : MessageDisk) (new_folder : FolderPath) (msg : Message)
    (f : MoveFaults) : Bool × MessageDisk :=
  match createMessageXML d new_folder f.first f.second f.third with
  | none => (false, d)
  | some (name, d) => save p hash d new_folder name msg f.writing

/-- `remove`: the message is in the file `name` of `folder`. -/
def remove (p : Platform) (hash : UInt32) (d : MessageDisk) (folder : FolderPath) (name : JString)
    (msg : Message) (new_folder : FolderPath) (f : MoveFaults) : Bool × MessageDisk :=
  match copy p hash d new_folder msg f with
  | (false, d) => (false, d)
  | (true, d) => del d folder name f.deletable

end LFSMessage

/-! ## Safe moves -/

/-- The file loads to the complete message. -/
def LoadsTo (p : Platform) (now : Date) (msg : Message) (file : List UInt8) : Prop :=
  ∃ m', loadFile p now file = some m' ∧ SameMessage msg m'

/-- The folder has a file that loads to the complete message. -/
def HoldsMessage (p : Platform) (now : Date) (msg : Message) (d : MessageDisk) (folder : FolderPath) : Prop :=
  ∃ name file, d folder name = some file ∧ LoadsTo p now msg file

/-- A move with this result does not lose the message, and says whether it has moved it. -/
structure SafelyMoved (p : Platform) (now : Date) (msg : Message) (folder new_folder : FolderPath)
    (r : Bool × MessageDisk) : Prop where
  kept : HoldsMessage p now msg r.2 folder ∨ HoldsMessage p now msg r.2 new_folder
  result : r.1 = true ↔ HoldsMessage p now msg r.2 new_folder ∧ ¬ HoldsMessage p now msg r.2 folder

/-- A new file can be made for one of the names. -/
def Creatable (d : MessageDisk) (folder : FolderPath) (f : LFSMessage.MoveFaults) : Prop :=
  ∃ a, (a = f.first ∨ a = f.second ∨ a = f.third) ∧ a.creatable = true ∧ d folder a.name = none

theorem create_eq (d : MessageDisk) (folder : FolderPath) (a : Attempt) :
    LFSMessage.create d folder a = (true, d.set folder a.name (some [])) ∧ a.creatable = true
        ∧ d folder a.name = none
      ∨ LFSMessage.create d folder a = (false, d) ∧ ¬ (a.creatable = true ∧ d folder a.name = none) := by
  unfold LFSMessage.create
  split_ifs with h
  · exact Or.inl ⟨rfl, h⟩
  · exact Or.inr ⟨rfl, h⟩

/-- A new empty file is made if one can be made. -/
theorem createMessageXML_eq (d : MessageDisk) (folder : FolderPath) (f : LFSMessage.MoveFaults) :
    LFSMessage.createMessageXML d folder f.first f.second f.third = none ∧ ¬ Creatable d folder f
      ∨ ∃ name, d folder name = none ∧ Creatable d folder f
        ∧ LFSMessage.createMessageXML d folder f.first f.second f.third
          = some (name, d.set folder name (some [])) := by
  unfold LFSMessage.createMessageXML
  rcases create_eq d folder f.first with ⟨hfirst, h⟩ | ⟨hfirst, hnot₁⟩
  · rw [hfirst]
    exact Or.inr ⟨_, h.2, ⟨_, Or.inl rfl, h⟩, rfl⟩
  · rcases create_eq d folder f.second with ⟨hsecond, h⟩ | ⟨hsecond, hnot₂⟩
    · rw [hfirst]
      dsimp only
      rw [hsecond]
      exact Or.inr ⟨_, h.2, ⟨_, Or.inr (Or.inl rfl), h⟩, rfl⟩
    · rcases create_eq d folder f.third with ⟨hthird, h⟩ | ⟨hthird, hnot₃⟩
      · rw [hfirst]
        dsimp only
        rw [hsecond]
        dsimp only
        rw [hthird]
        exact Or.inr ⟨_, h.2, ⟨_, Or.inr (Or.inr rfl), h⟩, rfl⟩
      · rw [hfirst]
        dsimp only
        rw [hsecond]
        dsimp only
        rw [hthird]
        refine Or.inl ⟨rfl, ?_⟩
        rintro ⟨a, rfl | rfl | rfl, h⟩
        · exact hnot₁ h
        · exact hnot₂ h
        · exact hnot₃ h

/-- The disk with the copy in the file `copied`. -/
def withCopy (p : Platform) (hash : UInt32) (d : MessageDisk) (new_folder : FolderPath) (copied : JString)
    (msg : Message) (w : Writing) : MessageDisk :=
  (d.set new_folder copied (some [])).set new_folder copied (some (w.result (saveFile p hash msg)))

/-- What a move does: nothing if no file can be made, and otherwise it deletes the message, whatever became of
the copy. -/
theorem remove_eq (p : Platform) (hash : UInt32) (d : MessageDisk) (folder : FolderPath) (name : JString)
    (msg : Message) (new_folder : FolderPath) (f : LFSMessage.MoveFaults) :
    LFSMessage.remove p hash d folder name msg new_folder f = (false, d) ∧ ¬ Creatable d new_folder f
      ∨ ∃ copied, d new_folder copied = none ∧ Creatable d new_folder f
        ∧ LFSMessage.remove p hash d folder name msg new_folder f
          = LFSMessage.del (withCopy p hash d new_folder copied msg f.writing) folder name f.deletable := by
  unfold LFSMessage.remove LFSMessage.copy
  rcases createMessageXML_eq d new_folder f with ⟨hnone, hnot⟩ | ⟨copied, hcopied, hc, hsome⟩
  · rw [hnone]
    exact Or.inl ⟨rfl, hnot⟩
  · rw [hsome]
    exact Or.inr ⟨copied, hcopied, hc, rfl⟩

/-- The copy is a new file, and the other files stay as they are. -/
theorem withCopy_of_some {d : MessageDisk} {folder new_folder : FolderPath} {copied name : JString}
    {file : List UInt8} (p : Platform) (hash : UInt32) (msg : Message) (w : Writing)
    (hcopied : d new_folder copied = none) (hfile : d folder name = some file) :
    withCopy p hash d new_folder copied msg w folder name = some file := by
  by_cases hname : name = copied
  · have hfolder : folder ≠ new_folder := by
      rintro rfl
      rw [hname, hcopied] at hfile
      cases hfile
    rw [withCopy, MessageDisk.set_of_ne_folder _ _ _ _ hfolder, MessageDisk.set_of_ne_folder _ _ _ _ hfolder]
    exact hfile
  · rw [withCopy, MessageDisk.set_of_ne_name _ _ _ _ hname, MessageDisk.set_of_ne_name _ _ _ _ hname]
    exact hfile

theorem withCopy_self (p : Platform) (hash : UInt32) (d : MessageDisk) (new_folder : FolderPath)
    (copied : JString) (msg : Message) (w : Writing) :
    withCopy p hash d new_folder copied msg w new_folder copied
      = some (w.result (saveFile p hash msg)) :=
  MessageDisk.set_self _ _ _ _

/-- A file of the disk with the copy is the copy or was there before. -/
theorem of_withCopy {p : Platform} {hash : UInt32} {d : MessageDisk} {folder new_folder : FolderPath}
    {copied name : JString} {msg : Message} {w : Writing} {file : List UInt8}
    (h : withCopy p hash d new_folder copied msg w folder name = some file) :
    folder = new_folder ∧ file = w.result (saveFile p hash msg) ∨ d folder name = some file := by
  by_cases hfolder : folder = new_folder
  · by_cases hname : name = copied
    · rw [hfolder, hname, withCopy_self] at h
      exact Or.inl ⟨hfolder, (Option.some.inj h).symm⟩
    · rw [withCopy, MessageDisk.set_of_ne_name _ _ _ _ hname, MessageDisk.set_of_ne_name _ _ _ _ hname] at h
      exact Or.inr h
  · rw [withCopy, MessageDisk.set_of_ne_folder _ _ _ _ hfolder, MessageDisk.set_of_ne_folder _ _ _ _ hfolder]
      at h
    exact Or.inr h

/-- A move that says `false` is safe exactly if the old folder still has the message. -/
theorem safelyMoved_iff_holds {p : Platform} {now : Date} {msg : Message} {folder new_folder : FolderPath}
    {r : Bool × MessageDisk} (h : r.1 = false) :
    SafelyMoved p now msg folder new_folder r ↔ HoldsMessage p now msg r.2 folder := by
  constructor
  · rintro ⟨hkept, hresult⟩
    by_contra hold
    have htrue := hresult.mpr ⟨hkept.resolve_left hold, hold⟩
    rw [h] at htrue
    cases htrue
  · intro hold
    refine ⟨Or.inl hold, ?_⟩
    rw [h]
    constructor
    · intro htrue
      cases htrue
    · intro hmoved
      exact absurd hold hmoved.2

/-- Whatever fails while a message is moved, the move is safe exactly if the file of the message is not deleted,
because no copy could be made or the system did not delete it, or the old folder has another file with the
message. -/
theorem safelyMoved_iff (p : Platform) (hash : UInt32) (now : Date) (d : MessageDisk)
    (folder new_folder : FolderPath) (f : LFSMessage.MoveFaults) {name : JString} {file : List UInt8}
    {msg : Message} (hfile : d folder name = some file) (hload : LoadsTo p now msg file) :
    SafelyMoved p now msg folder new_folder (LFSMessage.remove p hash d folder name msg new_folder f)
      ↔ ¬ Creatable d new_folder f ∨ f.deletable = false
        ∨ (∃ name' file', name' ≠ name ∧ d folder name' = some file' ∧ LoadsTo p now msg file')
        ∨ folder = new_folder ∧ LoadsTo p now msg (f.writing.result (saveFile p hash msg)) := by
  rcases remove_eq p hash d folder name msg new_folder f with ⟨hr, hnot⟩ | ⟨copied, hcopied, hc, hr⟩
  · rw [hr, safelyMoved_iff_holds rfl]
    exact iff_of_true ⟨name, file, hfile, hload⟩ (Or.inl hnot)
  · rw [hr, safelyMoved_iff_holds rfl, LFSMessage.del]
    cases hdel : f.deletable with
    | false =>
      refine iff_of_true ⟨name, file, ?_, hload⟩ (Or.inr (Or.inl rfl))
      exact withCopy_of_some p hash msg f.writing hcopied hfile
    | true =>
      -- what is left in the old folder is the copy or another file
      show HoldsMessage p now msg
        ((withCopy p hash d new_folder copied msg f.writing).set folder name none) folder ↔ _
      constructor
      · rintro ⟨name', file', hfile', hload'⟩
        have hname : name' ≠ name := by
          rintro rfl
          rw [MessageDisk.set_self] at hfile'
          cases hfile'
        rw [MessageDisk.set_of_ne_name _ _ _ _ hname] at hfile'
        rcases of_withCopy hfile' with ⟨hfolder, rfl⟩ | hold
        · exact Or.inr (Or.inr (Or.inr ⟨hfolder, hload'⟩))
        · exact Or.inr (Or.inr (Or.inl ⟨name', file', hname, hold, hload'⟩))
      · rintro (hnot | hfalse | ⟨name', file', hname, hold, hload'⟩ | ⟨hfolder, hload'⟩)
        · exact absurd hc hnot
        · cases hfalse
        · refine ⟨name', file', ?_, hload'⟩
          rw [MessageDisk.set_of_ne_name _ _ _ _ hname]
          exact withCopy_of_some p hash msg f.writing hcopied hold
        · subst hfolder
          have hname : copied ≠ name := by
            rintro rfl
            rw [hcopied] at hfile
            cases hfile
          refine ⟨copied, _, ?_, hload'⟩
          rw [MessageDisk.set_of_ne_name _ _ _ _ hname]
          exact withCopy_self p hash d folder copied msg f.writing

/-- A file without any field. -/
def emptyMessageFile : List UInt8 := writeAscii (xmlDecl ++ "<msgbox></msgbox>".toList)

/-- The inbox of a user `u` with one file. -/
def oneMessage : MessageDisk := fun folder name =>
  if folder = ⟨['u'], ['i']⟩ ∧ name = ['m'] then some emptyMessageFile else none

theorem loadsTo_emptyMessageFile : LoadsTo Platform.utc 0 (Message.new 0) emptyMessageFile := by
  have hload : loadFile Platform.utc 0 emptyMessageFile = some (Message.new 0) := by decide
  exact ⟨Message.new 0, hload, ⟨rfl, rfl, rfl, rfl, rfl, rfl, rfl, rfl, rfl, rfl, rfl, rfl, rfl, rfl, rfl, rfl,
    rfl, rfl, rfl, rfl, rfl⟩⟩

/-- A move during which the first name can be used. -/
def fullDisk (deletable : Bool) : LFSMessage.MoveFaults :=
  ⟨⟨['n'], true⟩, ⟨['n'], true⟩, ⟨['n'], true⟩, .writeFails 0, deletable⟩

/-- A move to the folder `t`, when the disk is full and the file cannot be deleted either. -/
theorem safelyMoved_undeletable :
    SafelyMoved Platform.utc 0 (Message.new 0) ⟨['u'], ['i']⟩ ⟨['u'], ['t']⟩
      (LFSMessage.remove Platform.utc 0 oneMessage ⟨['u'], ['i']⟩ ['m'] (Message.new 0) ⟨['u'], ['t']⟩
        (fullDisk false)) :=
  (safelyMoved_iff Platform.utc 0 0 oneMessage ⟨['u'], ['i']⟩ ⟨['u'], ['t']⟩ (fullDisk false) rfl
    loadsTo_emptyMessageFile).mpr (Or.inr (Or.inl rfl))

/-- The disk is full: the copy is an empty file, and the message is deleted. -/
theorem not_safelyMoved_full :
    let r := LFSMessage.remove Platform.utc 0 oneMessage ⟨['u'], ['i']⟩ ['m'] (Message.new 0) ⟨['u'], ['t']⟩
      (fullDisk true)
    LoadsTo Platform.utc 0 (Message.new 0) emptyMessageFile
      ∧ oneMessage ⟨['u'], ['i']⟩ ['m'] = some emptyMessageFile
      ∧ (∀ name, r.2 ⟨['u'], ['i']⟩ name = none) ∧ r.2 ⟨['u'], ['t']⟩ ['n'] = some []
      ∧ ¬ SafelyMoved Platform.utc 0 (Message.new 0) ⟨['u'], ['i']⟩ ⟨['u'], ['t']⟩ r := by
  intro r
  have hr : r.2 = (withCopy Platform.utc 0 oneMessage ⟨['u'], ['t']⟩ ['n'] (Message.new 0)
    (.writeFails 0)).set ⟨['u'], ['i']⟩ ['m'] none := rfl
  have hgone : ∀ name, r.2 ⟨['u'], ['i']⟩ name = none := by
    intro name
    rw [hr]
    by_cases hname : name = ['m']
    · rw [hname]
      exact MessageDisk.set_self _ _ _ _
    · rw [MessageDisk.set_of_ne_name _ _ _ _ hname, withCopy, MessageDisk.set_of_ne_folder _ _ _ _ (by decide),
        MessageDisk.set_of_ne_folder _ _ _ _ (by decide)]
      exact if_neg fun h => hname h.2
  refine ⟨loadsTo_emptyMessageFile, rfl, hgone, rfl, fun h => ?_⟩
  obtain ⟨name, file, hfile, -⟩ := (safelyMoved_iff_holds rfl).mp h
  rw [hgone name] at hfile
  cases hfile

end OrgLittle.Lmsg
