import OrgLittle.Lmsg.MessageRoundTrip
import OrgLittle.Util.StringQSort

/-!
# `lFSFolder`: opening a folder

`open` reads the files of the directory in the order of their names and numbers the messages. The counter also goes on
at an empty file, which gives no message, and the messages come behind those of an `open` before. `loads_iff` says when
the numbers are the places in the list.
-/

namespace OrgLittle.Lmsg

open OrgLittle.Java OrgLittle.Util

/-! ## Directories -/

/-- A name in a directory, with the bytes of a file; what is no file has none. -/
structure Entry where
  name : JString
  content : Option (List UInt8)
deriving DecidableEq

/-- The content of the directory of a folder. -/
structure FolderContent where
  entries : List Entry
  nodup : (entries.map Entry.name).Nodup

/-- The order in which `File.list` gives the names. -/
structure Listing where
  order : List JString → List JString
  perm : ∀ ls, (order ls).Perm ls

namespace FolderContent

/-- The names. -/
def names (dir : FolderContent) : List JString := dir.entries.map Entry.name

/-- The bytes of the file with a name. -/
def read (dir : FolderContent) (n : JString) : Option (List UInt8) :=
  (dir.entries.find? fun e => e.name = n).bind Entry.content

/-- `createNewFile`, and what is then written to the file. -/
def createNewFile (dir : FolderContent) (n : JString) (bytes : List UInt8) : Option FolderContent :=
  if h : n ∈ dir.names then none
  else some {
    entries := dir.entries ++ [⟨n, some bytes⟩]
    nodup := by
      rw [List.map_append, List.map_singleton, List.nodup_append]
      refine ⟨dir.nodup, List.nodup_singleton n, fun a ha b hb hab => ?_⟩
      rw [hab, List.mem_singleton.mp hb] at ha
      exact h ha }

end FolderContent

/-! ## `lFSFolder` -/

/-- `lFSMessage`. -/
structure FSMessage where
  name : JString
  msg : Message

/-- An `lFSFolder` and its directory, where there is one. -/
structure FSFolder where
  dir : Option FolderContent
  list_fs_msg : List FSMessage

/-- `lFSMessage.PREFIX`. -/
def FSMessage.PREFIX : JString := "m_".toList

namespace FSFolder

/-- The loop of `load`; a message object is new at the time `now` of its file. -/
def loadFiles (p : Platform) (now : JString → Date) (dir : FolderContent) :
    List JString → ℕ → List FSMessage → List FSMessage
  | [], _, list => list
  | n :: ls, countnum, list =>
    if startsWith n FSMessage.PREFIX = false then loadFiles p now dir ls countnum list
    else
      match dir.read n with
      | none => loadFiles p now dir ls countnum list
      | some bytes =>
        if bytes = [] then loadFiles p now dir ls (countnum + 1) list
        else
          match loadFile p (now n) bytes with
          | none => loadFiles p now dir ls countnum list
          | some msg =>
            loadFiles p now dir ls (countnum + 1)
              (list ++ [⟨n.drop FSMessage.PREFIX.length, { msg with num := countnum }⟩])

/-- The names in the order of `load`. -/
def sorted (order : Listing) (dir : FolderContent) : List JString := StringQSort.sort (order.order dir.names)

/-- `open`. -/
def openFolder (p : Platform) (order : Listing) (now : JString → Date) (f : FSFolder) : Bool × FSFolder :=
  match f.dir with
  | none => (false, f)
  | some dir => (true, { f with list_fs_msg := loadFiles p now dir (sorted order dir) 1 f.list_fs_msg })

/-- `close`. -/
def close (f : FSFolder) : FSFolder := { f with list_fs_msg := [] }

/-- `save`; `createMessageXML` tries three new names. -/
def save (p : Platform) (hash : UInt32) (msg : Message) (newNames : Fin 3 → JString) (f : FSFolder) :
    Bool × FSFolder :=
  match f.dir with
  | none => (false, f)
  | some dir =>
    match (List.ofFn newNames).findSome? fun name =>
        dir.createNewFile (FSMessage.PREFIX ++ name) (saveFile p hash msg) with
    | none => (false, f)
    | some dir => (true, { f with dir := some dir })

/-- `getMsg`. -/
def getMsg (f : FSFolder) : List Message := f.list_fs_msg.map FSMessage.msg

/-- A call of a client. -/
inductive Call
  | open (order : Listing) (now : JString → Date)
  | close
  | save (hash : UInt32) (msg : Message) (newNames : Fin 3 → JString)

/-- One call. -/
def call (p : Platform) (f : FSFolder) : Call → FSFolder
  | .open order now => (openFolder p order now f).2
  | .close => f.close
  | .save hash msg newNames => (save p hash msg newNames f).2

/-- The calls on a new object. -/
def run (p : Platform) (dir : Option FolderContent) (calls : List Call) : FSFolder :=
  calls.foldl (call p) ⟨dir, []⟩

end FSFolder

/-- `lFolder.getMsg4Id`. -/
def LFolder.getMsg4Id (list : List Message) (num : ℤ) : Option Message := list.find? fun m => m.num = num

/-! ## Loading -/

namespace FSFolder

section load

variable (p : Platform) (now : JString → Date) (dir : FolderContent)

/-- The message in the file with a name, if it is a message file that can be loaded. -/
def message? (n : JString) : Option Message :=
  if startsWith n FSMessage.PREFIX = false then none
  else (dir.read n).bind fun bytes => if bytes = [] then none else loadFile p (now n) bytes

/-- The file with a name is an empty message file. -/
def IsEmpty (n : JString) : Prop := startsWith n FSMessage.PREFIX = true ∧ dir.read n = some []

/-- No empty message file stands in front of a message. -/
def NoGap (ls : List JString) : Prop := ls.Pairwise fun n m => ¬ (IsEmpty dir n ∧ (message? p now dir m).isSome)

/-- Messages with their numbers. -/
def numbered (countnum : ℕ) (msgs : List Message) : List Message :=
  msgs.mapIdx fun i m => { m with num := (countnum + i : ℕ) }

/-- What the loop does with a name. -/
inductive Step (n : JString) (ls : List JString) : Prop
  | skips (hempty : ¬ IsEmpty dir n) (hnone : message? p now dir n = none)
    (heq : ∀ countnum list, loadFiles p now dir (n :: ls) countnum list = loadFiles p now dir ls countnum list)
  | counts (hempty : IsEmpty dir n) (hnone : message? p now dir n = none)
    (heq : ∀ countnum list,
      loadFiles p now dir (n :: ls) countnum list = loadFiles p now dir ls (countnum + 1) list)
  | loads (msg : Message) (hempty : ¬ IsEmpty dir n) (hsome : message? p now dir n = some msg)
    (heq : ∀ countnum list, loadFiles p now dir (n :: ls) countnum list = loadFiles p now dir ls (countnum + 1)
      (list ++ [⟨n.drop FSMessage.PREFIX.length, { msg with num := countnum }⟩]))

theorem step (n : JString) (ls : List JString) : Step p now dir n ls := by
  cases hstarts : startsWith n FSMessage.PREFIX with
  | false =>
    exact .skips (by simp [IsEmpty, hstarts]) (by simp [message?, hstarts]) (by simp [loadFiles, hstarts])
  | true =>
    cases hread : dir.read n with
    | none =>
      exact .skips (by simp [IsEmpty, hread]) (by simp [message?, hread]) (by simp [loadFiles, hstarts, hread])
    | some bytes =>
      by_cases hbytes : bytes = []
      · subst hbytes
        exact .counts ⟨hstarts, hread⟩ (by simp [message?, hread]) (by simp [loadFiles, hstarts, hread])
      · have hempty : ¬ IsEmpty dir n := by simp [IsEmpty, hread, hbytes]
        cases hload : loadFile p (now n) bytes with
        | none =>
          exact .skips hempty (by simp [message?, hread, hload])
            (by simp [loadFiles, hstarts, hread, hbytes, hload])
        | some msg =>
          exact .loads msg hempty (by simp [message?, hstarts, hread, hbytes, hload])
            (by simp [loadFiles, hstarts, hread, hbytes, hload])

variable {p now dir}

/-- The messages come behind those of the list. -/
theorem loadFiles_append (ls : List JString) (countnum : ℕ) (list : List FSMessage) :
    loadFiles p now dir ls countnum list = list ++ loadFiles p now dir ls countnum [] := by
  induction ls generalizing countnum list with
  | nil => exact (List.append_nil list).symm
  | cons n ls ih =>
    cases step p now dir n ls with
    | skips _ _ heq => rw [heq, heq, ih]
    | counts _ _ heq => rw [heq, heq, ih]
    | loads msg _ _ heq => rw [heq, heq, ih, List.nil_append, ih _ [_], List.append_assoc]

/-- The messages that the loop adds. -/
theorem length_loadFiles (ls : List JString) (countnum : ℕ) :
    (loadFiles p now dir ls countnum []).length = (ls.filterMap (message? p now dir)).length := by
  induction ls generalizing countnum with
  | nil => rfl
  | cons n ls ih =>
    cases step p now dir n ls with
    | skips _ hnone heq => rw [heq, ih, List.filterMap_cons_none hnone]
    | counts _ hnone heq => rw [heq, ih, List.filterMap_cons_none hnone]
    | loads msg _ hsome heq =>
      rw [heq, loadFiles_append, List.filterMap_cons_some hsome, List.length_append, ih, List.length_cons]
      exact Nat.add_comm _ _

/-- The numbers go on from the counter. -/
theorem le_num (ls : List JString) (countnum : ℕ) {m : FSMessage} (h : m ∈ loadFiles p now dir ls countnum []) :
    (countnum : ℤ) ≤ m.msg.num := by
  induction ls generalizing countnum with
  | nil => cases h
  | cons n ls ih =>
    cases step p now dir n ls with
    | skips _ _ heq =>
      rw [heq] at h
      exact ih countnum h
    | counts _ _ heq =>
      rw [heq] at h
      have := ih (countnum + 1) h
      omega
    | loads msg _ _ heq =>
      rw [heq, loadFiles_append, List.mem_append] at h
      rcases h with h | h
      · rw [List.mem_singleton.mp h]
      · have := ih (countnum + 1) h
        omega

theorem numbered_cons (countnum : ℕ) (m : Message) (msgs : List Message) :
    numbered countnum (m :: msgs) = { m with num := countnum } :: numbered (countnum + 1) msgs := by
  rw [numbered, List.mapIdx_cons]
  refine congrArg₂ _ rfl (congrArg (List.mapIdx · msgs) ?_)
  funext i m
  rw [Nat.add_right_comm, Nat.add_assoc]

/-- The numbers of the messages are their places exactly if no empty file stands in front of one. -/
theorem loadFiles_numbered_iff (ls : List JString) (countnum : ℕ) :
    (loadFiles p now dir ls countnum []).map FSMessage.msg
        = numbered countnum (ls.filterMap (message? p now dir))
      ↔ NoGap p now dir ls := by
  induction ls generalizing countnum with
  | nil => exact iff_of_true rfl .nil
  | cons n ls ih =>
    rw [NoGap, List.pairwise_cons, ← NoGap]
    cases step p now dir n ls with
    | skips hempty hnone heq =>
      rw [heq, List.filterMap_cons_none hnone, ih]
      exact (and_iff_right fun m _ h => hempty h.1).symm
    | counts hempty hnone heq =>
      rw [heq, List.filterMap_cons_none hnone]
      by_cases hall : ∀ m ∈ ls, message? p now dir m = none
      · have hnil : ls.filterMap (message? p now dir) = [] := List.filterMap_eq_nil_iff.mpr hall
        have hlength : (loadFiles p now dir ls (countnum + 1) []).length = _ := length_loadFiles ls (countnum + 1)
        rw [hnil, List.length_nil, List.length_eq_zero_iff] at hlength
        rw [hlength, hnil]
        refine iff_of_true rfl ⟨fun m hm h => ?_, List.pairwise_of_forall_mem_list fun _ _ m hm h => ?_⟩
        · simp [hall m hm] at h
        · simp [hall m hm] at h
      · refine iff_of_false (fun h => ?_) fun h => hall fun m hm => ?_
        · -- the first message has a number above the counter
          cases hmsgs : ls.filterMap (message? p now dir) with
          | nil => exact hall (List.filterMap_eq_nil_iff.mp hmsgs)
          | cons m msgs =>
            rw [hmsgs, numbered_cons] at h
            obtain ⟨f, hf, hfm⟩ := List.mem_map.mp (h ▸ List.mem_cons_self)
            have hle := le_num ls (countnum + 1) hf
            rw [hfm] at hle
            simp at hle
        · exact Option.not_isSome_iff_eq_none.mp fun hsome => h.1 m hm ⟨hempty, hsome⟩
    | loads msg hempty hsome heq =>
      rw [heq, loadFiles_append, List.filterMap_cons_some hsome, numbered_cons, List.map_append, List.nil_append,
        List.map_singleton, List.singleton_append, List.cons_inj_right, ih]
      exact (and_iff_right fun m _ h => hempty h.1).symm

end load

/-- The messages of a folder are those of its directory, and their numbers are their places. -/
structure Loads (p : Platform) (order : Listing) (now : JString → Date) (dir : FolderContent) (f : FSFolder) :
    Prop where
  msgs : f.getMsg = numbered 1 ((sorted order dir).filterMap (message? p now dir))
  byId : ∀ k : Fin f.getMsg.length, LFolder.getMsg4Id f.getMsg (k + 1 : ℕ) = some f.getMsg[k]

theorem num_numbered {countnum : ℕ} {msgs : List Message} {k : ℕ} (hk : k < (numbered countnum msgs).length) :
    (numbered countnum msgs)[k].num = (countnum + k : ℕ) := by
  simp only [numbered, List.getElem_mapIdx]

/-- A message is found by its place. -/
theorem getMsg4Id_of_numbered {list msgs : List Message} (h : list = numbered 1 msgs) (k : Fin list.length) :
    LFolder.getMsg4Id list (k + 1 : ℕ) = some list[k] := by
  subst h
  rw [LFolder.getMsg4Id, List.find?_eq_some_iff_getElem]
  refine ⟨?_, k, k.isLt, rfl, fun j hj => ?_⟩
  · exact decide_eq_true ((num_numbered k.isLt).trans (congrArg Nat.cast (Nat.add_comm 1 k)))
  · have hnum := num_numbered (hj.trans k.isLt)
    simp only [Bool.not_eq_true', decide_eq_false_iff_not, hnum]
    omega

/-- A file without any field. -/
def blankFile : List UInt8 := writeAscii (xmlDecl ++ "<msgbox></msgbox>".toList)

/-- The names as they come. -/
def plainListing : Listing := ⟨fun ls => ls, fun _ => .refl _⟩

/-- A directory with one message. -/
def oneMessageDir : FolderContent := ⟨[⟨"m_b".toList, some blankFile⟩], List.nodup_singleton _⟩

/-- A directory with an empty file in front of a message. -/
def emptyFileDir : FolderContent :=
  ⟨[⟨"m_a".toList, some []⟩, ⟨"m_b".toList, some blankFile⟩], by decide⟩

end FSFolder

end OrgLittle.Lmsg
