import OrgLittle.Lmsg.Folder
import OrgLittle.Lmsg.StorePath

/-!
# `lFSStore.getListFolder`: the folders of a store

`getFolder` walks through the directories below a store. It looks for every name in the directory of the store, also
where the name stands in a folder. `lists_iff` says for which stores this finds the folders.
-/

namespace OrgLittle.Lmsg

open OrgLittle.Java OrgLittle.Util Relation

/-! ## The file system -/

/-- The path of a name in a directory. -/
def inDirectory (dir name : JString) : JString := dir ++ '/' :: name

/-- `File.list` for the directories, by their paths. A name has no `/` in it, and paths are not arbitrarily long. -/
structure DirectoryTree where
  list : JString → Option (List JString)
  nodup : ∀ dir ls, list dir = some ls → ls.Nodup
  names : ∀ dir ls, list dir = some ls → ∀ name ∈ ls, '/' ∉ name
  bound : ℕ
  length_le : ∀ dir ls, list dir = some ls → dir.length ≤ bound

namespace DirectoryTree

/-- `File.isDirectory`. -/
def isDirectory (tree : DirectoryTree) (path : JString) : Bool := (tree.list path).isSome

/-- The names in a directory. -/
def entries (tree : DirectoryTree) (dir : JString) : List JString := (tree.list dir).getD []

end DirectoryTree

/-! ## `lFSStore` -/

/-- `lFSFolder.PREFIX`. -/
def LFSFolder.PREFIX : JString := "f_".toList

namespace LFSStore

/-- `getFolder`, by the full names of the folders; `fuel` bounds the depth. -/
def getFolders (tree : DirectoryTree) (order : Listing) (store : JString) : ℕ → JString → List JString
  | 0, _ => []
  | fuel + 1, folder_name =>
    match tree.list folder_name with
    | none => []
    | some ls =>
      (StringQSort.sort (order.order ls)).flatMap fun short_name =>
        if startsWith short_name LFSFolder.PREFIX = false then []
        else if tree.isDirectory (inDirectory store short_name) = false then []
        else
          let new_folder := LFSElement.fullName folder_name LFSFolder.PREFIX
            (short_name.drop LFSFolder.PREFIX.length)
          new_folder :: getFolders tree order store fuel new_folder

/-- `getCommonFolder`; `null` if it does not open. -/
def getCommonFolder (tree : DirectoryTree) : Option JString :=
  let inbox := LFSFolder.fullName "COMMON".toList "INBOX".toList
  if tree.isDirectory inbox then some inbox else none

/-- `getListFolder` of the store with this name. -/
def getListFolder (tree : DirectoryTree) (order : Listing) (name : JString) : List (Option JString) :=
  (getFolders tree order (fullName name) (tree.bound + 1) (fullName name)).map some ++ [getCommonFolder tree]

end LFSStore

/-! ## The folders below a store -/

section walk

variable (tree : DirectoryTree)

/-- A folder in a directory, where `test` says which names are folders. -/
def Child (test : JString → JString → Bool) (dir d : JString) : Prop :=
  ∃ name ∈ tree.entries dir, startsWith name LFSFolder.PREFIX = true ∧ test dir name = true
    ∧ d = inDirectory dir name

/-- The test for a directory at the place of the name. -/
def realTest (dir name : JString) : Bool := tree.isDirectory (inDirectory dir name)

/-- The test of the source. -/
def storeTest (store _dir name : JString) : Bool := tree.isDirectory (inDirectory store name)

end walk

/-- The path of a folder is that of its directory. -/
theorem fullName_drop {dir name : JString} (h : startsWith name LFSFolder.PREFIX = true) :
    LFSElement.fullName dir LFSFolder.PREFIX (name.drop LFSFolder.PREFIX.length) = inDirectory dir name := by
  obtain ⟨rest, rfl⟩ := List.isPrefixOf_iff_prefix.mp h
  rw [LFSElement.fullName, List.drop_left, inDirectory]

theorem inDirectory_inj {dir dir' name name' : JString} (hname : '/' ∉ name) (hname' : '/' ∉ name')
    (h : inDirectory dir name = inDirectory dir' name') : dir = dir' ∧ name = name' := by
  -- the part of a path behind its last `/` is the name
  have hlast (dir name : JString) (hname : '/' ∉ name) :
      (inDirectory dir name).reverse.span (· ≠ '/') = (name.reverse, '/' :: dir.reverse) := by
    have hall : ∀ c ∈ name.reverse, (c ≠ '/' : Bool) = true := by
      intro c hc
      exact decide_eq_true fun heq => hname (heq ▸ List.mem_reverse.mp hc)
    rw [inDirectory, List.reverse_append, List.reverse_cons, List.append_assoc, List.span_eq_takeWhile_dropWhile,
      List.takeWhile_append_of_pos hall, List.dropWhile_append_of_pos hall]
    simp
  have hspan := (hlast dir name hname).symm.trans ((congrArg (fun s => s.reverse.span (· ≠ '/')) h).trans
    (hlast dir' name' hname'))
  obtain ⟨hname, hdir⟩ := Prod.ext_iff.mp hspan
  exact ⟨List.reverse_injective (List.cons.inj hdir).2, List.reverse_injective hname⟩

/-- Paths that go on from two names in a directory are different. -/
theorem inDirectory_append_inj {dir name name' rest rest' : JString} (hname : '/' ∉ name) (hname' : '/' ∉ name')
    (hrest : ∀ c ∈ rest.head?, c = '/') (hrest' : ∀ c ∈ rest'.head?, c = '/')
    (h : inDirectory dir name ++ rest = inDirectory dir name' ++ rest') : name = name' := by
  have hfirst (name rest : JString) (hname : '/' ∉ name) (hrest : ∀ c ∈ rest.head?, c = '/') :
      (name ++ rest).takeWhile (· ≠ '/') = name := by
    have hall : ∀ c ∈ name, (c ≠ '/' : Bool) = true := fun c hc => decide_eq_true fun heq => hname (heq ▸ hc)
    rw [List.takeWhile_append_of_pos hall]
    cases rest with
    | nil => exact List.append_nil name
    | cons c rest =>
      rw [hrest c rfl, List.takeWhile_cons_of_neg (by simp), List.append_nil]
  rw [inDirectory, inDirectory, List.append_assoc, List.append_assoc, List.append_cancel_left_eq] at h
  have hrests : name ++ rest = name' ++ rest' := (List.cons.inj h).2
  rw [← hfirst name rest hname hrest, ← hfirst name' rest' hname' hrest', hrests]

/-! ## The walk -/

section walk

variable {tree : DirectoryTree} {order : Listing} {store : JString}

theorem slash_notMem {dir name : JString} (h : name ∈ tree.entries dir) : '/' ∉ name := by
  rw [DirectoryTree.entries] at h
  cases hls : tree.list dir with
  | none =>
    rw [hls] at h
    cases h
  | some ls =>
    rw [hls] at h
    exact tree.names dir ls hls name h

theorem entries_nodup (tree : DirectoryTree) (dir : JString) : (tree.entries dir).Nodup := by
  rw [DirectoryTree.entries]
  cases hls : tree.list dir with
  | none => exact List.nodup_nil
  | some ls => exact tree.nodup dir ls hls

theorem sorted_perm (order : Listing) (names : List JString) : (StringQSort.sort (order.order names)).Perm names :=
  (StringQSort.sort_perm _).trans (order.perm names)

/-- What the walk adds for a name. -/
def LFSStore.part (tree : DirectoryTree) (order : Listing) (store : JString) (fuel : ℕ) (dir name : JString) :
    List JString :=
  if startsWith name LFSFolder.PREFIX = true ∧ tree.isDirectory (inDirectory store name) = true then
    inDirectory dir name :: LFSStore.getFolders tree order store fuel (inDirectory dir name)
  else []

theorem getFolders_succ (fuel : ℕ) (dir : JString) :
    LFSStore.getFolders tree order store (fuel + 1) dir
      = (StringQSort.sort (order.order (tree.entries dir))).flatMap
        (LFSStore.part tree order store fuel dir) := by
  rw [LFSStore.getFolders, DirectoryTree.entries]
  cases tree.list dir with
  | none =>
    rw [Option.getD_none, (sorted_perm order []).eq_nil]
    rfl
  | some ls =>
    dsimp only
    congr 1
    funext name
    rw [LFSStore.part]
    by_cases hstarts : startsWith name LFSFolder.PREFIX = true
    · by_cases hdir : tree.isDirectory (inDirectory store name) = true
      · simp [hstarts, hdir, fullName_drop hstarts]
      · simp [hstarts, hdir]
    · simp [hstarts]

/-- The walk finds what its test leads to. -/
theorem mem_getFolders_iff {fuel : ℕ} {dir d : JString} (hfuel : tree.bound < dir.length + fuel) :
    d ∈ LFSStore.getFolders tree order store fuel dir ↔ TransGen (Child tree (storeTest tree store)) dir d := by
  induction fuel generalizing dir d with
  | zero =>
    refine iff_of_false (List.not_mem_nil) fun h => ?_
    obtain ⟨b, ⟨name, hname, -⟩, -⟩ := TransGen.head'_iff.mp h
    rw [DirectoryTree.entries] at hname
    cases hls : tree.list dir with
    | none =>
      rw [hls] at hname
      cases hname
    | some ls =>
      have hle := tree.length_le dir ls hls
      omega
  | succ fuel ih =>
    rw [getFolders_succ, List.mem_flatMap, TransGen.head'_iff]
    have hnext (name : JString) : tree.bound < (inDirectory dir name).length + fuel := by
      rw [inDirectory, List.length_append, List.length_cons]
      omega
    constructor
    · rintro ⟨name, hname, hd⟩
      rw [LFSStore.part] at hd
      split_ifs at hd with htest
      · refine ⟨inDirectory dir name, ⟨name, (sorted_perm order _).mem_iff.mp hname, htest.1, htest.2, rfl⟩, ?_⟩
        rw [reflTransGen_iff_eq_or_transGen, ← ih (hnext name)]
        exact List.mem_cons.mp hd
      · cases hd
    · rintro ⟨_, ⟨name, hname, hstarts, htest, rfl⟩, hrest⟩
      refine ⟨name, (sorted_perm order _).mem_iff.mpr hname, ?_⟩
      rw [LFSStore.part, if_pos ⟨hstarts, htest⟩, List.mem_cons, ih (hnext name)]
      exact reflTransGen_iff_eq_or_transGen.mp hrest

/-- What the walk finds stands below the directory. -/
theorem exists_of_mem_getFolders {fuel : ℕ} {dir d : JString}
    (h : d ∈ LFSStore.getFolders tree order store fuel dir) : ∃ rest, d = inDirectory dir rest := by
  induction fuel generalizing dir d with
  | zero => cases h
  | succ fuel ih =>
    rw [getFolders_succ, List.mem_flatMap] at h
    obtain ⟨name, -, hd⟩ := h
    rw [LFSStore.part] at hd
    split_ifs at hd
    · rcases List.mem_cons.mp hd with rfl | hd
      · exact ⟨name, rfl⟩
      · obtain ⟨rest, rfl⟩ := ih hd
        exact ⟨name ++ '/' :: rest, by simp [inDirectory]⟩
    · cases hd

theorem exists_of_mem_part {fuel : ℕ} {dir name d : JString} (h : d ∈ LFSStore.part tree order store fuel dir name) :
    ∃ rest : JString, (∀ c ∈ rest.head?, c = '/') ∧ d = inDirectory dir name ++ rest := by
  rw [LFSStore.part] at h
  split_ifs at h
  · rcases List.mem_cons.mp h with rfl | h
    · exact ⟨[], nofun, (List.append_nil _).symm⟩
    · obtain ⟨rest, rfl⟩ := exists_of_mem_getFolders h
      exact ⟨'/' :: rest, fun c hc => (Option.some_inj.mp hc).symm, rfl⟩
  · cases h

theorem getFolders_nodup (fuel : ℕ) (dir : JString) : (LFSStore.getFolders tree order store fuel dir).Nodup := by
  induction fuel generalizing dir with
  | zero => exact List.nodup_nil
  | succ fuel ih =>
    rw [getFolders_succ, List.nodup_flatMap]
    constructor
    · intro name _
      rw [LFSStore.part]
      split_ifs
      · refine List.nodup_cons.mpr ⟨fun h => ?_, ih _⟩
        obtain ⟨rest, hrest⟩ := exists_of_mem_getFolders h
        have hlength := congrArg List.length hrest
        simp only [inDirectory, List.length_append, List.length_cons] at hlength
        omega
      · exact List.nodup_nil
    · -- what is found for two names goes on from different paths
      have hnodup := (sorted_perm order _).nodup_iff.mpr (entries_nodup tree dir)
      refine hnodup.imp_of_mem fun hx hy hne d hdx hdy => hne ?_
      have hx := slash_notMem ((sorted_perm order _).mem_iff.mp hx)
      have hy := slash_notMem ((sorted_perm order _).mem_iff.mp hy)
      obtain ⟨rest, hrest, rfl⟩ := exists_of_mem_part hdx
      obtain ⟨rest', hrest', heq⟩ := exists_of_mem_part hdy
      exact inDirectory_append_inj hx hy hrest hrest' heq

end walk

/-! ## Which folders are listed -/

/-- The test of the source tells the folders in all directories that are reached. -/
def TellsFolders (tree : DirectoryTree) (store : JString) : Prop :=
  ∀ dir, ReflTransGen (Child tree (realTest tree)) store dir → ∀ name ∈ tree.entries dir,
    startsWith name LFSFolder.PREFIX = true →
    tree.isDirectory (inDirectory store name) = tree.isDirectory (inDirectory dir name)

/-- The folders in a directory by their paths: a path has one directory and one name. -/
theorem test_of_child {tree : DirectoryTree} {test : JString → JString → Bool} {dir name : JString}
    (hname : name ∈ tree.entries dir) {dir' : JString} (h : Child tree test dir' (inDirectory dir name)) :
    test dir name = true := by
  obtain ⟨name', hname', -, htest, heq⟩ := h
  obtain ⟨rfl, rfl⟩ := inDirectory_inj (slash_notMem hname) (slash_notMem hname') heq
  exact htest

/-- Both walks find the same exactly where both tests agree on what is there. -/
theorem forall_transGen_iff (tree : DirectoryTree) (store : JString) :
    (∀ d, TransGen (Child tree (storeTest tree store)) store d ↔ TransGen (Child tree (realTest tree)) store d)
      ↔ TellsFolders tree store := by
  constructor
  · intro h dir hdir name hname hstarts
    have hvisited : ReflTransGen (Child tree (storeTest tree store)) store dir := by
      rw [reflTransGen_iff_eq_or_transGen] at hdir ⊢
      exact hdir.imp id (h dir).mpr
    rw [Bool.eq_iff_iff]
    constructor
    · intro htest
      have hfound := (h _).mp (TransGen.tail' hvisited ⟨name, hname, hstarts, htest, rfl⟩)
      obtain ⟨dir', -, hchild⟩ := TransGen.tail'_iff.mp hfound
      exact test_of_child hname hchild
    · intro htest
      have hfound := (h _).mpr (TransGen.tail' hdir ⟨name, hname, hstarts, htest, rfl⟩)
      obtain ⟨dir', -, hchild⟩ := TransGen.tail'_iff.mp hfound
      exact test_of_child hname hchild
  · intro h d
    have hchild {dir d : JString} (hdir : ReflTransGen (Child tree (realTest tree)) store dir) :
        Child tree (storeTest tree store) dir d ↔ Child tree (realTest tree) dir d := by
      refine exists_congr fun name => and_congr_right fun hname => and_congr_right fun hstarts => ?_
      rw [storeTest, realTest, h dir hdir name hname hstarts]
    constructor
    · intro hd
      induction hd with
      | single hstep => exact .single ((hchild .refl).mp hstep)
      | tail _ hstep ih => exact ih.tail ((hchild ih.to_reflTransGen).mp hstep)
    · intro hd
      induction hd with
      | single hstep => exact .single ((hchild .refl).mpr hstep)
      | tail hbefore hstep ih => exact ih.tail ((hchild hbefore.to_reflTransGen).mpr hstep)

/-- `getListFolder` gives the common inbox and each folder below the store once, by its path. -/
def ListsFolders (tree : DirectoryTree) (order : Listing) (name : JString) : Prop :=
  ∃ folders : List JString, folders.Nodup
    ∧ (∀ d, d ∈ folders ↔ TransGen (Child tree (realTest tree)) (LFSStore.fullName name) d)
    ∧ (LFSStore.getListFolder tree order name).Perm
      (some (LFSFolder.fullName "COMMON".toList "INBOX".toList) :: folders.map some)

theorem getListFolder_perm (tree : DirectoryTree) (order : Listing) (name : JString) :
    (LFSStore.getListFolder tree order name).Perm (LFSStore.getCommonFolder tree ::
      (LFSStore.getFolders tree order (LFSStore.fullName name) (tree.bound + 1) (LFSStore.fullName name)).map some) :=
  List.perm_append_singleton _ _

/-- The folders are listed exactly if the common inbox opens and each name of a folder that is reached is a directory in
the store where it is one in its own place. -/
theorem lists_iff (tree : DirectoryTree) (order : Listing) (name : JString) :
    ListsFolders tree order name
      ↔ tree.isDirectory (LFSFolder.fullName "COMMON".toList "INBOX".toList) = true
        ∧ TellsFolders tree (LFSStore.fullName name) := by
  have hmem (d : JString) :
      d ∈ LFSStore.getFolders tree order (LFSStore.fullName name) (tree.bound + 1) (LFSStore.fullName name)
        ↔ TransGen (Child tree (storeTest tree (LFSStore.fullName name))) (LFSStore.fullName name) d :=
    mem_getFolders_iff (by omega)
  rw [← forall_transGen_iff]
  constructor
  · rintro ⟨folders, hnodup, hfolders, hperm⟩
    have hperm := (getListFolder_perm tree order name).symm.trans hperm
    have hcommon : tree.isDirectory (LFSFolder.fullName "COMMON".toList "INBOX".toList) = true := by
      by_contra hnot
      have hnone : LFSStore.getCommonFolder tree = none := if_neg hnot
      rw [hnone] at hperm
      have hin := hperm.mem_iff.mp List.mem_cons_self
      simp at hin
    refine ⟨hcommon, fun d => ?_⟩
    rw [LFSStore.getCommonFolder, if_pos hcommon] at hperm
    have hsame := (List.map_perm_map_iff (Option.some_injective _)).mp hperm.cons_inv
    rw [← hmem, ← hfolders, hsame.mem_iff]
  · rintro ⟨hcommon, hsame⟩
    refine ⟨_, getFolders_nodup _ _, fun d => (hmem d).trans (hsame d), ?_⟩
    have hperm := getListFolder_perm tree order name
    rwa [LFSStore.getCommonFolder, if_pos hcommon] at hperm

/-! ## A folder in a folder -/

/-- The directories of a store with a folder in a folder, and the common inbox. -/
def nestedPaths : List (JString × List JString) :=
  [("var/mbox/s_u".toList, ["f_a".toList]), ("var/mbox/s_u/f_a".toList, ["f_b".toList]),
    ("var/mbox/s_u/f_a/f_b".toList, []), ("var/mbox/s_COMMON/f_INBOX".toList, [])]

theorem mem_nestedPaths {dir : JString} {ls : List JString}
    (h : nestedPaths.lookup dir = some ls) : (dir, ls) ∈ nestedPaths := by
  obtain ⟨front, rest, heq, -⟩ := List.lookup_eq_some_iff.mp h
  rw [heq]
  exact List.mem_append_right front List.mem_cons_self

def nestedTree : DirectoryTree where
  list dir := nestedPaths.lookup dir
  nodup dir ls h := (by decide +kernel : ∀ p ∈ nestedPaths, p.2.Nodup) (dir, ls) (mem_nestedPaths h)
  names dir ls h :=
    (by decide +kernel : ∀ p ∈ nestedPaths, ∀ name ∈ p.2, '/' ∉ name) (dir, ls) (mem_nestedPaths h)
  bound := 30
  length_le dir ls h := (by decide +kernel : ∀ p ∈ nestedPaths, p.1.length ≤ 30) (dir, ls) (mem_nestedPaths h)

/-- The folder in the folder is not listed, as there is none with its name in the store. -/
theorem not_lists_nested : ¬ ListsFolders nestedTree FSFolder.plainListing "u".toList := by
  have hnot : some "var/mbox/s_u/f_a/f_b".toList
      ∉ LFSStore.getListFolder nestedTree FSFolder.plainListing "u".toList := by decide
  rintro ⟨folders, -, hfolders, hperm⟩
  have hchild (dir name : String) (h : name.toList ∈ nestedTree.entries dir.toList
      ∧ startsWith name.toList LFSFolder.PREFIX = true ∧ realTest nestedTree dir.toList name.toList = true) :
      Child nestedTree (realTest nestedTree) dir.toList (inDirectory dir.toList name.toList) :=
    ⟨name.toList, h.1, h.2.1, h.2.2, rfl⟩
  have hnested : "var/mbox/s_u/f_a/f_b".toList ∈ folders := (hfolders _).mpr
    (.head (hchild "var/mbox/s_u" "f_a" (by decide))
      (.single (hchild "var/mbox/s_u/f_a" "f_b" (by decide))))
  exact hnot (hperm.mem_iff.mpr (List.mem_cons_of_mem _ (List.mem_map_of_mem hnested)))

end OrgLittle.Lmsg
