import OrgLittle.Java.Text
import OrgLittle.Lib.Machine

/-!
# `listKIR`: a list of records in files

`write` adds a record to `out.dat`. A flush renames this file, begins a new one, prints the old one to a stream and
renames it once more, to a name with the date; if the stream fails, `revertFlush` is to put the records back. Two of the
paths in `revertFlush` lack the separator behind `work_path`, and `openOUT` cuts off the file that it opens.
-/

namespace OrgLittle.Kir

open OrgLittle.Java OrgLittle.Lib

/-- The texts of the files, by their paths as the methods write them. -/
abbrev Files := JString → Option JString

/-- `File.renameTo`, where it does not fail: a file with the new name is replaced. -/
def renameTo (files : Files) (f1 f2 : JString) : Files :=
  match files f1 with
  | some text => Function.update (Function.update files f2 (some text)) f1 none
  | none => files

/-- The fields of `listKIR`, with the files. `out` tells whether the current file is open, and what is in the buffer of
its writer counts as written; `in_` is what is still to be read of the flash file. `io` is what the next calls of the
file system come to: `none` is done, a text is what a call that fails has read or written until then, and the calls
behind the list are done. -/
structure ListKIR where
  work_path : JString
  files : Files
  flash_filename : JString
  out : Bool
  in_ : Option JString
  io : List (Option JString)

/-- What is seen of it. `archived` is a successful renaming in `commitFlush`. -/
inductive KirEvent
  | written (xml : JString) (ret : Bool)
  | printed (text : JString)
  | archived (date text : JString)
  | nullPointer
deriving DecidableEq

/-- What becomes of the stream of a flush: it takes everything, fails while the records are printed, or fails before. -/
inductive Sink
  | done
  | failsInBody
  | failsAtEntry
deriving DecidableEq

/-- The methods. A record is given as its `printXML`, a date as its `date2filename`. `printFlush` takes a stream and
`printFlushWriter` a `Writer`. -/
inductive KirOp
  | open_
  | write (xml : JString)
  | close
  | printFlush (date : JString) (fails : Bool)
  | printFlushWriter (date : JString) (fails : Bool)
  | zipFlush (date : JString) (sink : Sink)

/-- `preData`. -/
def preData : JString := "<?xml version=\"1.0\" encoding=\"windows-1251\"?>\n<kir_data>\n".toList

/-- `postData`. -/
def postData : JString := "</kir_data>\n".toList

/-- The lines of a text without their ends, as `readLine` gives them. -/
def lines (text : JString) : JString := text.filter fun c => c ≠ '\n' ∧ c ≠ '\r'

namespace ListKIR

/-- The constructor. -/
def new (work_path : JString) (files : Files) (io : List (Option JString)) : ListKIR :=
  ⟨work_path, files, ".dat".toList, false, none, io⟩

variable (s : ListKIR)

/-- `current_filename`. -/
def current_filename : JString := s.work_path ++ "/out.dat".toList

/-- The name of the flash file. -/
def flashFile : JString := s.work_path ++ "/flash.dat".toList

/-- The file of a committed flush. -/
def archiveFile (date : JString) : JString := s.work_path ++ "/kir_".toList ++ date ++ ".dat".toList

/-- The two files of `revertFlush`, beside the work directory. -/
def tmpFile : JString := s.work_path ++ "tmp.dat".toList
def otherFlashFile : JString := s.work_path ++ "flash.dat".toList

/-- What the next call of the file system comes to. -/
def outcome : Option JString := s.io.head?.join

/-- That call is made. -/
def called : ListKIR := { s with io := s.io.tail }

/-- A renaming of files; if it fails, the files stay. -/
def rename (f1 f2 : JString) : ListKIR :=
  match s.outcome with
  | none => { s.called with files := renameTo s.files f1 f2 }
  | some _ => s.called

/-- `closeOUT`. -/
def closeOUT : ListKIR := { s with out := false }

/-- `closeIN`. -/
def closeIN : ListKIR := { s with in_ := none }

/-- `openOUT`. -/
def openOUT : ListKIR :=
  match s.outcome with
  | none => { s.called with files := Function.update s.files s.current_filename (some []), out := true }
  | some _ => s.called.closeOUT

/-- `openIN`. -/
def openIN : ListKIR :=
  match s.outcome with
  | none => { s.called with in_ := s.files s.flash_filename }
  | some _ => s.called.closeIN

/-- `readLine` or `read`, until they return `null` or -1: they do so at an `IOException` as well. -/
def readAll : JString × ListKIR :=
  match s.in_ with
  | none => ([], s)
  | some text => (s.outcome.getD text, s.called)

/-- A text written to the current file. -/
def append (text : JString) : ListKIR :=
  { s with files := Function.update s.files s.current_filename ((s.files s.current_filename).map (· ++ text)) }

/-- `createFlush`. -/
def createFlush : ListKIR :=
  let s := { s with flash_filename := s.flashFile }.closeOUT
  (s.rename s.current_filename s.flash_filename).openOUT.openIN

/-- `commitFlush`. -/
def commitFlush (date : JString) : ListKIR × List KirEvent :=
  let s := s.closeIN
  (s.rename s.flash_filename (s.archiveFile date),
    match s.outcome, s.files s.flash_filename with
    | none, some text => [.archived date text]
    | _, _ => [])

/-- `File.delete`. -/
def delete (f : JString) : ListKIR :=
  match s.outcome with
  | none => { s.called with files := Function.update s.files f none }
  | some _ => s.called

/-- The loop of `revertFlush`, which stops at an `IOException`, and what follows it. There is no reader if the flash
file was not opened, and no writer if the current file was not: then a character that is read, or the end, is the end of
the method. -/
def readBack : ListKIR × List KirEvent :=
  match s.in_ with
  | none => (s, [.nullPointer])
  | some text =>
    if s.out ∨ s.outcome = some [] then
      ((s.called.append (s.outcome.getD text)).closeIN.delete s.flash_filename, [])
    else ({ s.called with in_ := some text.tail }, [.nullPointer])

/-- `revertFlush`; it throws if there is no flash file to be read. -/
def revertFlush : ListKIR × List KirEvent :=
  let s := s.closeIN.closeOUT
  let s := s.rename s.current_filename s.tmpFile
  let s := s.rename s.flash_filename s.current_filename
  let s := s.openOUT
  let s := s.rename s.otherFlashFile s.flash_filename
  s.openIN.readBack

/-- A flush that prints `text` of what it has read. -/
def flush (date : JString) (fails : Bool) (text : JString → JString) : ListKIR × List KirEvent :=
  let (read, s) := s.createFlush.readAll
  if fails then s.revertFlush
  else
    let (s, events) := s.commitFlush date
    (s, .printed (text read) :: events)

/-- `printFlush(OutputStream, Date)`. -/
def printFlush (date : JString) (fails : Bool) : ListKIR × List KirEvent := s.flush date fails lines

/-- `printFlush(Writer)`. -/
def printFlushWriter (date : JString) (fails : Bool) : ListKIR × List KirEvent :=
  s.flush date fails fun text => preData ++ text ++ postData

/-- `zipFlush`. `printFlush` closes the stream, so that the `closeEntry` behind it fails; it fails as well where the
stream has failed before. An exception that is no `IOException` ends the method. -/
def zipFlush (date : JString) (sink : Sink) : ListKIR × List KirEvent :=
  if sink = .failsAtEntry then s.revertFlush
  else
    let (s, events) := s.printFlush date (sink = .failsInBody)
    if .nullPointer ∈ events then (s, events)
    else
      let (s, events') := s.revertFlush
      (s, events ++ events')

/-- `write`. -/
def write (xml : JString) : ListKIR × List KirEvent :=
  if s.out then
    match s.outcome with
    | none => (s.called.append xml, [.written xml true])
    | some part => ((s.called.append part).closeOUT, [.written xml false])
  else (s, [.written xml false])

/-- One call. -/
def step : KirOp → ListKIR × List KirEvent
  | .open_ => (s.openOUT, [])
  | .write xml => s.write xml
  | .close => (s.closeOUT.closeIN, [])
  | .printFlush date fails => s.printFlush date fails
  | .printFlushWriter date fails => s.printFlushWriter date fails
  | .zipFlush date sink => s.zipFlush date sink

end ListKIR

/-- `listKIR` under its calls. -/
def listMachine : Machine ListKIR KirOp KirEvent := ⟨ListKIR.step⟩

end OrgLittle.Kir
