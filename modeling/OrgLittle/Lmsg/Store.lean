import OrgLittle.Java.LetterCase

/-!
# `org.little.lmsg`: messages and the store on the file system

A folder is a directory, and every saved message is a file in it. The unique identifiers of the messages
come from `lUID`, one counter for the whole process, which starts again with the process. It also gives
the `UIDVALIDITY` of the folders that have no fixed one.
-/

namespace OrgLittle.Lmsg

open OrgLittle.Java

/-- The part of an `lMessage` that mail delivery reads. -/
structure LMessage where
  from_ : JString
  to_ : List JString
deriving DecidableEq

/-! ## `lUID` -/

/-- The start value of `lUID.count`. -/
def LUID.count : ℤ := 10

/-- `lUID.get`: the value returned and the counter afterwards. -/
def LUID.get (count : ℤ) : ℤ × ℤ := (count, wrapInt (count + 1))

/-! ## `lFSFolder` -/

/-- A folder on the disk: the store and the name it is opened with. -/
structure FolderPath where
  store : JString
  name : JString
deriving DecidableEq

/-- A message file: its name, the identifier that its message was saved with, and what `lFSMessage.load` finds in
it. A file that cannot be loaded again is not `readable`. -/
structure MessageFile where
  name : JString
  given : ℤ
  uid : ℤ
  received : Bool
  readable : Bool
deriving DecidableEq

/-- The directories and their message files. -/
abbrev Disk := FolderPath → Option (List MessageFile)

namespace LFSFolder

/-- `lFSFolder.load`: the messages of the files, sorted by their names. -/
def load (files : List MessageFile) : List MessageFile :=
  (files.insertionSort fun a b => leIgnoreCase a.name b.name).filter (·.readable)

theorem mem_load {files : List MessageFile} {file : MessageFile} :
    file ∈ load files ↔ file ∈ files ∧ file.readable = true := by
  rw [load, List.mem_filter, List.mem_insertionSort]

/-- `lFSFolder.getUID`: the `UIDVALIDITY` of the folder and the counter afterwards. -/
def getUID (name : JString) (count : ℤ) : ℤ × ℤ :=
  let name := toUpperCase name
  if startsWith name "INBOX".toList then (901, count)
  else if startsWith name "SENT ".toList then (902, count)
  else if startsWith name "SENT".toList then (903, count)
  else if startsWith name "TRASH".toList then (904, count)
  else LUID.get count

theorem getUID_snd (name : JString) (count : ℤ) :
    (getUID name count).2 = count ∨ (getUID name count).2 = wrapInt (count + 1) := by
  unfold getUID
  dsimp only
  split_ifs
  all_goals first
    | exact Or.inl rfl
    | exact Or.inr rfl

/-- `lFSFolder.createMessageXML`: the first of the new names for which there is no file yet. -/
def createMessageXML (files : List MessageFile) (newNames : List JString) : Option JString :=
  newNames.find? fun name => files.all fun file => file.name ≠ name

/-- `lFSStore.createFolder`: a directory that exists is left as it is. -/
def create (disk : Disk) (folder : FolderPath) : Disk :=
  if disk folder = none then Function.update disk folder (some []) else disk

end LFSFolder

end OrgLittle.Lmsg
