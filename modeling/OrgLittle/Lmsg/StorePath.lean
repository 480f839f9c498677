import OrgLittle.Java.Text
import OrgLittle.Lib.Path

/-!
# The directories of `lFSStore`

The name of a store and the name of a folder are put into a path behind a prefix, and nothing in them is
checked: `lFSElement.setFullName` joins them, `File` and the operating system resolve the path.
-/

namespace OrgLittle.Lmsg

open OrgLittle.Java OrgLittle.Lib

/-! ## `lFSElement` -/

/-- `lFSElement.setFullName` of an element with a parent. -/
def LFSElement.fullName (parent prefix_ name : JString) : JString := parent ++ '/' :: (prefix_ ++ name)

/-- The full name of `lFSRoot.root`. -/
def LFSRoot.fullName : JString := "var/mbox".toList

/-- The full name of a store. -/
def LFSStore.fullName (store : JString) : JString := LFSElement.fullName LFSRoot.fullName "s_".toList store

/-- The full name of a folder in a store. -/
def LFSFolder.fullName (store name : JString) : JString :=
  LFSElement.fullName (LFSStore.fullName store) "f_".toList name

/-! ## The file system -/

/-- A directory, named by the way to it from the root. -/
abbrev Directory := List JString

/-- The components of a path; empty ones and `.` do not count. -/
def components (path : JString) : List JString :=
  (Path.split '/' path).filter fun c => c ≠ [] ∧ c ≠ ['.']

theorem components_append (s t : JString) : components (s ++ '/' :: t) = components s ++ components t := by
  rw [components, Path.split_append, List.filter_append]
  rfl

/-- The process runs in a directory of a tree of directories. -/
structure FileSystem where
  cwd : Directory
  isDirectory : Directory → Bool

namespace FileSystem

/-- The directory that a path names. -/
def resolve (fs : FileSystem) (path : JString) : Directory :=
  Path.resolve "..".toList fs.cwd (components path)

/-- The directories on the way of a path. -/
def visited (fs : FileSystem) (path : JString) : List Directory :=
  (components path).inits.map (Path.resolve "..".toList fs.cwd)

/-- `File.exists` and `File.isDirectory`: the operating system walks through the path, so that every
directory on its way has to be there. -/
def opens (fs : FileSystem) (path : JString) : Bool := (fs.visited path).all fs.isDirectory

/-- `File.mkdirs`: the path is resolved first, and the directories above it are made as well. -/
def mkdirs (fs : FileSystem) (path : JString) : FileSystem :=
  { fs with isDirectory := fun dir => fs.isDirectory dir || dir.isPrefixOf (fs.resolve path) }

end FileSystem

/-! ## `lFSStore` -/

namespace LFSStore

/-- The directory of a store. -/
def directory (fs : FileSystem) (store : JString) : Directory := fs.resolve (fullName store)

/-- `lFSStore.getFolder`: the directory of the folder, if it is there. -/
def getFolder (fs : FileSystem) (store name : JString) : Option Directory :=
  if fs.opens (LFSFolder.fullName store name) then some (fs.resolve (LFSFolder.fullName store name))
  else none

/-- `lFSStore.createFolder`: the directory of the folder and the file system afterwards; a folder that is
there is not opened. -/
def createFolder (fs : FileSystem) (store name : JString) : Option Directory × FileSystem :=
  if fs.opens (LFSFolder.fullName store name) then (none, fs)
  else (some (fs.resolve (LFSFolder.fullName store name)), fs.mkdirs (LFSFolder.fullName store name))

end LFSStore

theorem resolve_folder (fs : FileSystem) (store name : JString) :
    fs.resolve (LFSFolder.fullName store name)
      = Path.resolve "..".toList (LFSStore.directory fs store) (components ("f_".toList ++ name)) := by
  rw [FileSystem.resolve, LFSFolder.fullName, LFSElement.fullName, components_append, Path.resolve,
    List.foldl_append]
  rfl

end OrgLittle.Lmsg
