import OrgLittle.Kir.ListKIR
import OrgLittle.Lib.Simulation

/-!
# What `listKIR` keeps

A `Journal` is what the files of a `listKIR` say: the text of the current file and the archived texts by their dates.
`listKIR_journal` says that `listKIR` is this journal as long as no call of the file system fails: a flush that is
refused leaves an empty current file, whatever was in it, and so does `open`. `kept_iff` tells from it in which of these
runs no record is lost, and `kept_in_files` where the records are then.
-/

namespace OrgLittle.Kir

open OrgLittle.Java OrgLittle.Lib

/-! ## The names of the files -/

/-- The files that the methods of a `listKIR` name. -/
inductive Place
  | current
  | flash
  | tmp
  | otherFlash
  | dat
  | archive (date : JString)

/-- Their paths. -/
def path (work_path : JString) : Place → JString
  | .current => work_path ++ "/out.dat".toList
  | .flash => work_path ++ "/flash.dat".toList
  | .tmp => work_path ++ "tmp.dat".toList
  | .otherFlash => work_path ++ "flash.dat".toList
  | .dat => ".dat".toList
  | .archive date => work_path ++ "/kir_".toList ++ date ++ ".dat".toList

/-- No two of the files have one path. -/
theorem path_injective (work_path : JString) : Function.Injective (path work_path) := by
  have dat_ne (p : Place) (hp : p ≠ .dat) : path work_path p ≠ ".dat".toList := fun h => by
    have hlen := congrArg List.length h
    cases p
    case dat => exact hp rfl
    all_goals
      simp [path] at hlen
      try omega
  intro p q h
  cases p <;> cases q
  case archive.archive => simpa [path] using h
  all_goals first
    | rfl
    | exact absurd h (dat_ne _ nofun)
    | exact absurd h.symm (dat_ne _ nofun)
    | simp [path] at h

/-- Different places are different paths. -/
theorem path_ne {work_path : JString} {p q : Place} (h : p ≠ q) : path work_path p ≠ path work_path q :=
  (path_injective work_path).ne h

/-! ## Renaming -/

variable {files : Files} {f1 f2 f : JString}

/-- A file that is not there cannot be renamed. -/
theorem renameTo_of_none (h : files f1 = none) : renameTo files f1 f2 = files := by
  rw [renameTo, h]

/-- The new name takes what the old one had. -/
theorem renameTo_of_some {text : JString} (h : files f1 = some text) :
    renameTo files f1 f2 = Function.update (Function.update files f2 (some text)) f1 none := by
  rw [renameTo, h]

/-- Under the old name there is no file any more. -/
theorem renameTo_source : renameTo files f1 f2 f1 = none := by
  cases htext : files f1 with
  | none => rw [renameTo_of_none htext, htext]
  | some text => rw [renameTo_of_some htext, Function.update_self]

/-- Under the new name is the file that was renamed, or what was there. -/
theorem renameTo_target (h : f1 ≠ f2) : renameTo files f1 f2 f2 = (files f1).or (files f2) := by
  cases htext : files f1 with
  | none => rw [renameTo_of_none htext, Option.none_or]
  | some text => rw [renameTo_of_some htext, Function.update_of_ne h.symm, Function.update_self, Option.some_or]

/-- Other files stay. -/
theorem renameTo_other (h1 : f ≠ f1) (h2 : f ≠ f2) : renameTo files f1 f2 f = files f := by
  cases htext : files f1 with
  | none => rw [renameTo_of_none htext]
  | some text => rw [renameTo_of_some htext, Function.update_of_ne h1, Function.update_of_ne h2]

/-! ## The journal -/

/-- What the files say. -/
structure Journal where
  current : Option JString
  archives : JString → Option JString
  isOpen : Bool

namespace Journal

variable (j : Journal)

/-- The current file is begun anew. -/
def cleared : Journal := { j with current := some [], isOpen := true }

/-- A text is archived, if there is one. -/
def archive (date : JString) : Option JString → Journal
  | some text => { j with archives := Function.update j.archives date (some text) }
  | none => j

/-- The current file is archived. -/
def flushed (date : JString) : Journal := j.cleared.archive date j.current

/-- A flush begins a new current file, so that beginning one is nothing new. -/
theorem cleared_flushed (date : JString) : (j.flushed date).cleared = j.flushed date := by
  unfold flushed
  cases j.current <;> rfl

/-- What is seen of a flush that prints `printed`. -/
def flushEvents (date printed : JString) : List KirEvent :=
  .printed printed :: (j.current.map (.archived date)).toList

/-- What is in the current file. -/
def unflushed : JString := j.current.getD []

/-- One call. -/
def step : KirOp → Journal × List KirEvent
  | .open_ => (j.cleared, [])
  | .write xml =>
    if j.isOpen then ({ j with current := j.current.map (· ++ xml) }, [.written xml true])
    else (j, [.written xml false])
  | .close => ({ j with isOpen := false }, [])
  | .printFlush date false => (j.flushed date, j.flushEvents date (lines j.unflushed))
  | .printFlushWriter date false => (j.flushed date, j.flushEvents date (preData ++ j.unflushed ++ postData))
  | .zipFlush date .done => (j.flushed date, j.flushEvents date (lines j.unflushed) ++ [.nullPointer])
  | .printFlush _ true | .printFlushWriter _ true | .zipFlush _ .failsInBody | .zipFlush _ .failsAtEntry =>
    (j.cleared, [.nullPointer])

end Journal

/-- The journal under its calls. -/
def journalMachine : Machine Journal KirOp KirEvent := ⟨Journal.step⟩

namespace ListKIR

/-! ## The methods where no call of the file system fails -/

section

variable {s : ListKIR} (h : s.io = [])

include h

/-- Where no call is to fail, the next one goes well. -/
theorem outcome_eq : s.outcome = none := by rw [outcome, h]; rfl

theorem called_eq : s.called = s := by
  obtain ⟨work_path, files, flash_filename, out, in_, io⟩ := s
  subst h
  rfl

/-- `rename` without a failure. -/
theorem rename_eq (f1 f2 : JString) : s.rename f1 f2 = { s with files := renameTo s.files f1 f2 } := by
  rw [rename, outcome_eq h, called_eq h]

theorem openOUT_eq :
    s.openOUT = { s with files := Function.update s.files s.current_filename (some []), out := true } := by
  rw [openOUT, outcome_eq h, called_eq h]

theorem openIN_eq : s.openIN = { s with in_ := s.files s.flash_filename } := by
  rw [openIN, outcome_eq h, called_eq h]

theorem readAll_eq : s.readAll = (s.in_.getD [], s) := by
  rw [readAll, outcome_eq h, called_eq h]
  cases s.in_ <;> rfl

theorem write_eq (xml : JString) :
    s.write xml = if s.out then (s.append xml, [.written xml true]) else (s, [.written xml false]) := by
  rw [write, outcome_eq h, called_eq h]

/-- `commitFlush` without a failure. -/
theorem commitFlush_eq (date : JString) :
    s.commitFlush date =
      ({ s with files := renameTo s.files s.flash_filename (s.archiveFile date), in_ := none },
        ((s.files s.flash_filename).map (.archived date)).toList) := by
  have hclosed : s.closeIN.io = [] := h
  have hfiles : s.closeIN.files s.closeIN.flash_filename = s.files s.flash_filename := rfl
  simp only [commitFlush, rename_eq hclosed, outcome_eq hclosed, hfiles]
  cases s.files s.flash_filename <;> rfl

end

/-- The journal of a `listKIR`. -/
def journal (s : ListKIR) : Journal := ⟨s.files s.current_filename, fun date => s.files (s.archiveFile date), s.out⟩

/-- A journal from its parts. -/
theorem journal_eq {s : ListKIR} {current : Option JString} {archives : JString → Option JString} {isOpen : Bool}
    (hcurrent : s.files (path s.work_path .current) = current)
    (harchives : ∀ date, s.files (path s.work_path (.archive date)) = archives date) (hout : s.out = isOpen) :
    s.journal = ⟨current, archives, isOpen⟩ := by
  rw [← hcurrent, ← funext harchives, ← hout]
  rfl

/-- The names under which a flash file is looked for. -/
def spares : List Place := [.flash, .otherFlash, .dat]

/-- The names that are tried are neither those of the current file nor those of archives. -/
theorem ne_of_mem_spares {p : Place} (hp : p ∈ spares) : p ≠ .current ∧ p ≠ .tmp ∧ ∀ date, p ≠ .archive date := by
  refine ⟨?_, ?_, fun date => ?_⟩ <;>
    rintro rfl <;> simp [spares] at hp

/-- There is nothing for `revertFlush` to read back, but perhaps the file `f` of the flush that it is called in, and no
call of the file system fails. -/
structure Revertible (s : ListKIR) (f : Place) : Prop where
  io : s.io = []
  spare : f = .dat ∨ f = .flash
  flash_filename : s.flash_filename = path s.work_path f
  absent : ∀ p ∈ spares, p ≠ f → s.files (path s.work_path p) = none

/-- No flash file is left over, none is read, and no call of the file system fails. -/
structure Settled (s : ListKIR) : Prop where
  revertible : ∃ f, s.Revertible f ∧ s.files (path s.work_path f) = none
  in_ : s.in_ = none

/-- A new `listKIR` with nothing left over. -/
theorem settled_new {work_path : JString} {files : Files}
    (hfree : ∀ p ∈ spares, files (path work_path p) = none) : (new work_path files []).Settled :=
  ⟨⟨.dat, ⟨rfl, .inl rfl, rfl, fun p hp _ => hfree p hp⟩, hfree .dat (by simp [spares])⟩, rfl⟩

variable {s : ListKIR} {f p : Place}

/-- The files of `revertFlush` when it looks for something to read back. -/
def reverted (s : ListKIR) : Files :=
  Function.update (renameTo (renameTo s.files s.current_filename s.tmpFile) s.flash_filename s.current_filename)
    s.current_filename (some [])

/-- `openOUT` has cut off the current file. -/
theorem reverted_current (s : ListKIR) : s.reverted (path s.work_path .current) = some [] := Function.update_self ..

theorem Revertible.ne_current (h : s.Revertible f) : f ≠ .current := by
  rcases h.spare with rfl | rfl <;> nofun

/-- The flash file has been renamed away. -/
theorem Revertible.reverted_self (h : s.Revertible f) : s.reverted (path s.work_path f) = none := by
  have hne : path s.work_path f ≠ s.current_filename := path_ne (q := .current) h.ne_current
  rw [reverted, Function.update_of_ne hne, h.flash_filename, renameTo_source]

/-- `revertFlush` leaves the other files as they are. -/
theorem Revertible.reverted_other (h : s.Revertible f) (hp : p ≠ f) (hcurrent : p ≠ .current) (htmp : p ≠ .tmp) :
    s.reverted (path s.work_path p) = s.files (path s.work_path p) := by
  have hcurrent : path s.work_path p ≠ s.current_filename := path_ne (q := .current) hcurrent
  have htmp : path s.work_path p ≠ s.tmpFile := path_ne (q := .tmp) htmp
  rw [reverted, Function.update_of_ne hcurrent, h.flash_filename, renameTo_other (path_ne hp) hcurrent,
    renameTo_other hcurrent htmp]

/-- No file is left under a name where one is looked for. -/
theorem Revertible.reverted_spare (h : s.Revertible f) (hp : p ∈ spares) : s.reverted (path s.work_path p) = none := by
  by_cases hpf : p = f
  · rw [hpf, h.reverted_self]
  · obtain ⟨hcurrent, htmp, -⟩ := ne_of_mem_spares hp
    rw [h.reverted_other hpf hcurrent htmp, h.absent p hp hpf]

/-- `openOUT` has cut off the file that the renaming has brought, and nothing is left to be read back. -/
theorem Revertible.revertFlush_eq (h : s.Revertible f) :
    s.revertFlush = ({ s with files := s.reverted, out := true, in_ := none }, [.nullPointer]) := by
  have hfiles : renameTo s.reverted s.otherFlashFile s.flash_filename = s.reverted :=
    renameTo_of_none (h.reverted_spare (p := .otherFlash) (by simp [spares]))
  have hin : s.reverted s.flash_filename = none := by rw [h.flash_filename, h.reverted_self]
  simp only [revertFlush, closeIN, closeOUT, rename_eq, openOUT_eq, openIN_eq, h.io]
  show readBack { s with
    files := renameTo s.reverted s.otherFlashFile s.flash_filename
    out := true
    in_ := renameTo s.reverted s.otherFlashFile s.flash_filename s.flash_filename
    io := [] } = _
  rw [hfiles, hin, readBack, ← h.io]

/-- What is left of a flush that is refused. -/
theorem Revertible.revertFlush (h : s.Revertible f) :
    s.revertFlush.1.Settled ∧ s.revertFlush.1.journal = s.journal.cleared ∧ s.revertFlush.2 = [.nullPointer] := by
  rw [h.revertFlush_eq]
  refine ⟨⟨⟨f, ⟨h.io, h.spare, h.flash_filename, fun p hp _ => h.reverted_spare hp⟩, h.reverted_self⟩, rfl⟩, ?_, rfl⟩
  refine journal_eq s.reverted_current (fun date => h.reverted_other (p := .archive date) ?_ nofun nofun) rfl
  rcases h.spare with rfl | rfl <;> nofun

theorem Settled.io (h : s.Settled) : s.io = [] := by
  obtain ⟨⟨f, hf, -⟩, -⟩ := h
  exact hf.io

/-- There is no file under any of the names that are tried. -/
theorem Settled.absent (h : s.Settled) (hp : p ∈ spares) : s.files (path s.work_path p) = none := by
  obtain ⟨⟨f, hf, hnone⟩, -⟩ := h
  by_cases hpf : p = f
  · rw [hpf, hnone]
  · exact hf.absent p hp hpf

/-- The files of `createFlush`. -/
def created (s : ListKIR) : Files :=
  Function.update (renameTo s.files s.current_filename s.flashFile) s.current_filename (some [])

/-- `createFlush` without a failure. -/
theorem createFlush_eq (h : s.io = []) :
    s.createFlush =
      { s with flash_filename := s.flashFile, files := s.created, out := true, in_ := s.created s.flashFile } := by
  simp only [createFlush, closeOUT, rename_eq, openOUT_eq, openIN_eq, h]
  rfl

/-- `createFlush` begins a new current file. -/
theorem created_current (s : ListKIR) : s.created (path s.work_path .current) = some [] := Function.update_self ..

/-- `createFlush` touches no other files than the current one and the flash file. -/
theorem created_other (hcurrent : p ≠ .current) (hflash : p ≠ .flash) :
    s.created (path s.work_path p) = s.files (path s.work_path p) := by
  have hcurrent : path s.work_path p ≠ s.current_filename := path_ne (q := .current) hcurrent
  have hflash : path s.work_path p ≠ s.flashFile := path_ne (q := .flash) hflash
  rw [created, Function.update_of_ne hcurrent, renameTo_other hcurrent hflash]

/-- The flash file is the old current file. -/
theorem Settled.created_flash (h : s.Settled) : s.created s.flashFile = s.files s.current_filename := by
  have hne : s.current_filename ≠ s.flashFile := path_ne (p := .current) (q := .flash) nofun
  have hflash : s.files s.flashFile = none := h.absent (p := .flash) (by simp [spares])
  rw [created, Function.update_of_ne hne.symm, renameTo_target hne, hflash, Option.or_none]

/-- What is left when a flush has been prepared. -/
theorem Settled.createFlush (h : s.Settled) :
    s.createFlush.Revertible .flash ∧ s.createFlush.journal = s.journal.cleared := by
  rw [createFlush_eq h.io]
  constructor
  · refine ⟨h.io, .inr rfl, rfl, fun p hp hpf => ?_⟩
    exact (created_other (ne_of_mem_spares hp).1 hpf).trans (h.absent hp)
  · exact journal_eq s.created_current (fun date => created_other (s := s) (p := .archive date) nofun nofun) rfl

/-- Archives of different dates are different files. -/
theorem archiveFile_injective (s : ListKIR) : Function.Injective s.archiveFile := fun _ _ h =>
  Place.archive.inj (path_injective s.work_path h)

/-- To rename the flash file to an archive is to archive its text. -/
theorem journal_rename_flash (s : ListKIR) (date : JString) :
    { s with files := renameTo s.files s.flashFile (s.archiveFile date) }.journal =
      s.journal.archive date (s.files s.flashFile) := by
  have hcurrent : s.current_filename ≠ s.flashFile := path_ne (p := .current) (q := .flash) nofun
  have hdate : s.current_filename ≠ s.archiveFile date :=
    path_ne (p := .current) (q := .archive date) nofun
  have hflash (d : JString) : s.archiveFile d ≠ s.flashFile :=
    path_ne (p := .archive d) (q := .flash) nofun
  cases htext : s.files s.flashFile with
  | none =>
    rw [renameTo_of_none htext]
    rfl
  | some text =>
    have harchives (d : JString) : renameTo s.files s.flashFile (s.archiveFile date) (s.archiveFile d) =
        Function.update (fun d => s.files (s.archiveFile d)) date (some text) d := by
      rw [renameTo_of_some htext, Function.update_of_ne (hflash d)]
      exact congrFun (Function.update_comp_eq_of_injective s.files s.archiveFile_injective date (some text)) d
    exact journal_eq (renameTo_other hcurrent hdate) harchives rfl

/-- What is left of a flush that the stream has taken. -/
theorem Revertible.commitFlush (h : s.Revertible .flash) (date : JString) :
    (s.commitFlush date).1.Settled ∧
      (s.commitFlush date).1.journal = s.journal.archive date (s.files s.flashFile) ∧
      (s.commitFlush date).2 = ((s.files s.flashFile).map (.archived date)).toList := by
  have hname : s.flash_filename = s.flashFile := h.flash_filename
  have hstate : (s.commitFlush date).1 =
      { s with files := renameTo s.files s.flashFile (s.archiveFile date), in_ := none } := by
    rw [commitFlush_eq h.io, hname]
  refine ⟨?_, ?_, ?_⟩
  · rw [hstate]
    refine ⟨⟨.flash, ⟨h.io, .inr rfl, hname, fun p hp hpf => ?_⟩, renameTo_source⟩, rfl⟩
    have hdate : path s.work_path p ≠ s.archiveFile date := path_ne ((ne_of_mem_spares hp).2.2 date)
    exact (renameTo_other (path_ne (q := .flash) hpf) hdate).trans (h.absent p hp hpf)
  · rw [hstate]
    exact s.journal_rename_flash date
  · rw [commitFlush_eq h.io, hname]

/-- A flush does to the files what it does to the journal, whether the stream takes it or not. -/
theorem Settled.flush (h : s.Settled) (date : JString) (fails : Bool) (text : JString → JString) :
    (s.flush date fails text).1.Settled ∧
      (s.flush date fails text).1.journal = (if fails then s.journal.cleared else s.journal.flushed date) ∧
      (s.flush date fails text).2 =
        if fails then [.nullPointer] else s.journal.flushEvents date (text s.journal.unflushed) := by
  obtain ⟨hcreated, hjournal⟩ := h.createFlush
  rw [ListKIR.flush, readAll_eq hcreated.io]
  cases fails with
  | true =>
    obtain ⟨hsettled, hreverted, hevents⟩ := hcreated.revertFlush
    refine ⟨hsettled, hreverted.trans ?_, hevents⟩
    rw [hjournal]
    rfl
  | false =>
    obtain ⟨hsettled, hcommitted, hevents⟩ := hcreated.commitFlush date
    have hflash : s.createFlush.files s.createFlush.flashFile = s.journal.current := by
      rw [createFlush_eq h.io]
      exact h.created_flash
    refine ⟨hsettled, hcommitted.trans ?_, congrArg₂ List.cons ?_ (hevents.trans ?_)⟩
    · rw [hjournal, hflash]
      rfl
    · rw [createFlush_eq h.io]
      exact congrArg (fun read => KirEvent.printed (text (read.getD []))) h.created_flash
    · rw [hflash]

/-- `zipFlush` as well, with the exception that follows its success. -/
theorem Settled.zipFlush (h : s.Settled) (date : JString) (sink : Sink) :
    (s.zipFlush date sink).1.Settled ∧
      (s.zipFlush date sink).1.journal = (s.journal.step (.zipFlush date sink)).1 ∧
      (s.zipFlush date sink).2 = (s.journal.step (.zipFlush date sink)).2 := by
  cases sink with
  | failsAtEntry =>
    obtain ⟨f, hf, -⟩ := h.revertible
    exact hf.revertFlush
  | failsInBody =>
    have hflush := h.flush date true lines
    have hmem : KirEvent.nullPointer ∈ (s.flush date true lines).2 := by
      rw [hflush.2.2]
      exact List.mem_singleton_self _
    have hzip : s.zipFlush date .failsInBody = s.flush date true lines := (if_neg nofun).trans (if_pos hmem)
    rw [hzip]
    exact hflush
  | done =>
    obtain ⟨hsettled, hjournal, hevents⟩ := h.flush date false lines
    have hmem : KirEvent.nullPointer ∉ (s.flush date false lines).2 := by
      rw [hevents]
      simp [Journal.flushEvents]
    obtain ⟨f, hf, -⟩ := hsettled.revertible
    obtain ⟨hreverted, hcleared, hpointer⟩ := hf.revertFlush
    have hzip : s.zipFlush date .done = ((s.flush date false lines).1.revertFlush.1,
        (s.flush date false lines).2 ++ (s.flush date false lines).1.revertFlush.2) :=
      (if_neg nofun).trans (if_neg hmem)
    rw [hzip]
    refine ⟨hreverted, hcleared.trans ?_, congrArg₂ (· ++ ·) hevents hpointer⟩
    rw [hjournal]
    exact s.journal.cleared_flushed date

/-- The current file is begun or written. -/
theorem Settled.update_current (h : s.Settled) (text : Option JString) (out : Bool) :
    { s with files := Function.update s.files s.current_filename text, out }.Settled ∧
      { s with files := Function.update s.files s.current_filename text, out }.journal =
        { s.journal with current := text, isOpen := out } := by
  have hother (p : Place) (hp : p ≠ .current) :
      Function.update s.files s.current_filename text (path s.work_path p) = s.files (path s.work_path p) :=
    Function.update_of_ne (path_ne (q := .current) hp) _ _
  constructor
  · obtain ⟨⟨f, hf, hnone⟩, hin⟩ := h
    refine ⟨⟨f, ⟨hf.io, hf.spare, hf.flash_filename, fun p hp hpf => ?_⟩, (hother f hf.ne_current).trans hnone⟩, hin⟩
    exact (hother p (ne_of_mem_spares hp).1).trans (hf.absent p hp hpf)
  · exact journal_eq (Function.update_self ..) (fun date => hother (.archive date) nofun) rfl

end ListKIR

/-- `listKIR` is its journal: from a state without a left-over flash file it does what the journal does, as long as no
call of the file system fails. -/
theorem listMachine_simulates : Machine.Simulates listMachine journalMachine fun s j => s.Settled ∧ s.journal = j := by
  rintro s _ op ⟨h, rfl⟩
  rw [and_assoc]
  cases op with
  | open_ =>
    obtain ⟨hsettled, hupdated⟩ := h.update_current (some []) true
    have hopen : s.step .open_ =
        ({ s with files := Function.update s.files s.current_filename (some []), out := true }, []) :=
      congrArg (·, []) (ListKIR.openOUT_eq h.io)
    show (s.step .open_).1.Settled ∧ (s.step .open_).1.journal = _ ∧ (s.step .open_).2 = _
    rw [hopen]
    exact ⟨hsettled, hupdated, rfl⟩
  | write xml =>
    show (s.step (.write xml)).1.Settled ∧ (s.step (.write xml)).1.journal = (s.journal.step (.write xml)).1 ∧
      (s.step (.write xml)).2 = (s.journal.step (.write xml)).2
    cases hout : s.out with
    | true =>
      have hwrite : s.step (.write xml) = (s.append xml, [.written xml true]) :=
        (ListKIR.write_eq h.io xml).trans (if_pos hout)
      have hjournal : s.journal.step (.write xml) =
          ({ s.journal with current := s.journal.current.map (· ++ xml) }, [.written xml true]) := if_pos hout
      rw [hwrite, hjournal]
      obtain ⟨hsettled, hupdated⟩ := h.update_current ((s.files s.current_filename).map (· ++ xml)) s.out
      exact ⟨hsettled, hupdated, rfl⟩
    | false =>
      have hclosed : ¬ s.out := by rw [hout]; nofun
      have hwrite : s.step (.write xml) = (s, [.written xml false]) :=
        (ListKIR.write_eq h.io xml).trans (if_neg hclosed)
      have hjournal : s.journal.step (.write xml) = (s.journal, [.written xml false]) := if_neg hclosed
      rw [hwrite, hjournal]
      exact ⟨h, rfl, rfl⟩
  | close =>
    obtain ⟨f, hf, hnone⟩ := h.revertible
    exact ⟨⟨⟨f, ⟨hf.io, hf.spare, hf.flash_filename, hf.absent⟩, hnone⟩, rfl⟩, rfl, rfl⟩
  | printFlush date fails =>
    have hflush := h.flush date fails lines
    cases fails <;> exact hflush
  | printFlushWriter date fails =>
    have hflush := h.flush date fails fun text => preData ++ text ++ postData
    cases fails <;> exact hflush
  | zipFlush date sink => exact h.zipFlush date sink

/-- What `listKIR` answers and what is in its files after any calls, where no call of the file system fails. -/
theorem listKIR_journal {s : ListKIR} (h : s.Settled) (ops : List KirOp) :
    listMachine.outputs s ops = journalMachine.outputs s.journal ops ∧ (listMachine.run s ops).Settled ∧
      (listMachine.run s ops).journal = journalMachine.run s.journal ops :=
  ⟨listMachine_simulates.outputs ⟨h, rfl⟩ ops, listMachine_simulates.run ⟨h, rfl⟩ ops⟩

/-- A record, then a flush that is refused: the record is gone, and the caller gets an exception. -/
theorem listKIR_journal_refused :
    listMachine.outputs (.new "kir".toList (fun _ => none) []) [.open_, .write ['r'], .printFlush ['d'] true] =
        [.written ['r'] true, .nullPointer] ∧
      (listMachine.run (.new "kir".toList (fun _ => none) [])
        [.open_, .write ['r'], .printFlush ['d'] true]).journal.current = some [] := by
  have hsettled : (ListKIR.new "kir".toList (fun _ => none) []).Settled := ListKIR.settled_new fun _ _ => rfl
  obtain ⟨houtputs, -, hrun⟩ := listKIR_journal hsettled [.open_, .write ['r'], .printFlush ['d'] true]
  exact ⟨houtputs.trans rfl, congrArg Journal.current hrun⟩

/-! ## Records that are kept and records that are lost -/

/-- The records that `write` has accepted, one behind the other. -/
def accepted (events : List KirEvent) : JString :=
  events.flatMap fun
    | .written xml true => xml
    | _ => []

/-- The flushes that have been committed: their dates and texts. -/
def archived (events : List KirEvent) : List (JString × JString) :=
  events.filterMap fun
    | .archived date text => some (date, text)
    | _ => none

/-- The texts of the archived flushes, one behind the other. -/
def archivedText (events : List KirEvent) : JString := (archived events).flatMap Prod.snd

variable (events events' : List KirEvent)

theorem accepted_append : accepted (events ++ events') = accepted events ++ accepted events' := List.flatMap_append

theorem archived_append : archived (events ++ events') = archived events ++ archived events' := List.filterMap_append ..

theorem archivedText_append : archivedText (events ++ events') = archivedText events ++ archivedText events' := by
  rw [archivedText, archived_append, List.flatMap_append]
  rfl

/-- The calls that begin a new current file without archiving the old one. -/
def KirOp.discards : KirOp → Bool
  | .open_ | .printFlush _ true | .printFlushWriter _ true => true
  | .zipFlush _ sink => sink ≠ .done
  | _ => false

namespace Journal

/-- There is a file if it is open. -/
def Begun (j : Journal) : Prop := j.isOpen → j.current.isSome

variable {j : Journal} {op : KirOp}

theorem flushed_current (j : Journal) (date : JString) : (j.flushed date).current = some [] := by
  unfold flushed
  cases j.current <;> rfl

theorem accepted_flushEvents (j : Journal) (date printed : JString) : accepted (j.flushEvents date printed) = [] := by
  unfold flushEvents
  cases j.current <;> rfl

/-- A flush archives what was accepted since the last one. -/
theorem archivedText_flushEvents (j : Journal) (date printed : JString) :
    archivedText (j.flushEvents date printed) = j.unflushed := by
  unfold flushEvents unflushed
  cases j.current with
  | none => rfl
  | some text => exact List.append_nil text

/-- The calls that discard begin a new current file and do no more. -/
theorem step_of_discards (hop : op.discards) : (j.step op).1 = j.cleared := by
  match op, hop with
  | .open_, _ | .printFlush _ true, _ | .printFlushWriter _ true, _ | .zipFlush _ .failsInBody, _
  | .zipFlush _ .failsAtEntry, _ => rfl

/-- They accept nothing. -/
theorem accepted_of_discards (hop : op.discards) : accepted (j.step op).2 = [] := by
  match op, hop with
  | .open_, _ | .printFlush _ true, _ | .printFlushWriter _ true, _ | .zipFlush _ .failsInBody, _
  | .zipFlush _ .failsAtEntry, _ => rfl

/-- They archive nothing. -/
theorem archivedText_of_discards (hop : op.discards) : archivedText (j.step op).2 = [] := by
  match op, hop with
  | .open_, _ | .printFlush _ true, _ | .printFlushWriter _ true, _ | .zipFlush _ .failsInBody, _
  | .zipFlush _ .failsAtEntry, _ => rfl

/-- What a call archives comes from the old file, and what it accepts goes behind the rest of it. -/
theorem Begun.step_kept (h : j.Begun) (hop : op.discards = false) :
    (j.step op).1.Begun ∧
      j.unflushed ++ accepted (j.step op).2 = archivedText (j.step op).2 ++ (j.step op).1.unflushed := by
  have hflush (date printed : JString) (events : List KirEvent) (haccepted : accepted events = [])
      (harchived : archivedText events = []) : (j.flushed date).Begun ∧
        j.unflushed ++ accepted (j.flushEvents date printed ++ events) =
          archivedText (j.flushEvents date printed ++ events) ++ (j.flushed date).unflushed := by
    have hcurrent := j.flushed_current date
    have hunflushed : (j.flushed date).unflushed = [] := congrArg (·.getD []) hcurrent
    refine ⟨fun _ => by rw [hcurrent]; rfl, ?_⟩
    rw [accepted_append, accepted_flushEvents, haccepted, archivedText_append, archivedText_flushEvents, harchived,
      hunflushed]
    simp only [List.append_nil]
  have hflush_only (date printed : JString) := List.append_nil (j.flushEvents date printed) ▸
    hflush date printed [] rfl rfl
  match op, hop with
  | .write xml, _ =>
    rw [step]
    split_ifs with hopen
    · obtain ⟨text, htext⟩ := Option.isSome_iff_exists.mp (h hopen)
      refine ⟨fun _ => ?_, ?_⟩
      · rw [htext]
        rfl
      · simp [unflushed, htext, accepted, archivedText, archived]
    · exact ⟨h, List.append_nil _⟩
  | .close, _ => exact ⟨nofun, List.append_nil _⟩
  | .printFlush date false, _ => exact hflush_only date (lines j.unflushed)
  | .printFlushWriter date false, _ => exact hflush_only date (preData ++ j.unflushed ++ postData)
  | .zipFlush date .done, _ => exact hflush date (lines j.unflushed) [.nullPointer] rfl rfl

/-- No step makes a journal unopened again. -/
theorem Begun.step (h : j.Begun) (op : KirOp) : (j.step op).1.Begun := by
  cases hop : op.discards with
  | true =>
    rw [step_of_discards hop]
    exact fun _ => rfl
  | false => exact (h.step_kept hop).1

/-- A call that discards the current file finds nothing in it. -/
def Careful (j : Journal) (op : KirOp) : Prop := op.discards → j.unflushed = []

/-- No text is archived or left that was not found or accepted. -/
theorem Begun.length_le (h : j.Begun) (ops : List KirOp) :
    (archivedText (journalMachine.outputs j ops)).length + (journalMachine.run j ops).unflushed.length ≤
      j.unflushed.length + (accepted (journalMachine.outputs j ops)).length := by
  induction ops generalizing j with
  | nil => simp [archivedText, archived, accepted]
  | cons op ops ih =>
    have hrest := ih (h.step op)
    rw [Machine.outputs_cons, Machine.run_cons, accepted_append, archivedText_append, List.length_append,
      List.length_append]
    have hstep : (archivedText (j.step op).2).length + (j.step op).1.unflushed.length ≤
        j.unflushed.length + (accepted (j.step op).2).length := by
      cases hop : op.discards with
      | true =>
        rw [step_of_discards hop, archivedText_of_discards hop]
        exact Nat.zero_le _
      | false =>
        have hlength := congrArg List.length (h.step_kept hop).2
        rw [List.length_append, List.length_append] at hlength
        exact hlength.ge
    have hmachine : journalMachine.step j op = j.step op := rfl
    rw [hmachine]
    omega

/-- Everything is kept if and only if nothing is discarded, by induction on the calls. -/
theorem Begun.all_kept_iff (h : j.Begun) (ops : List KirOp) :
    j.unflushed ++ accepted (journalMachine.outputs j ops) =
        archivedText (journalMachine.outputs j ops) ++ (journalMachine.run j ops).unflushed ↔
      journalMachine.Along Careful j ops := by
  induction ops generalizing j with
  | nil => simp [archivedText, archived, accepted]
  | cons op ops ih =>
    have hrest := ih (h.step op)
    rw [Machine.outputs_cons, Machine.run_cons, Machine.along_cons, accepted_append, archivedText_append]
    have hmachine : journalMachine.step j op = j.step op := rfl
    rw [hmachine]
    cases hop : op.discards with
    | true =>
      have hunflushed : (j.step op).1.unflushed = [] := by rw [step_of_discards hop]; rfl
      have hlength := (h.step op).length_le ops
      rw [accepted_of_discards hop, archivedText_of_discards hop, List.nil_append, List.nil_append, ← hrest, hunflushed]
      constructor
      · intro heq
        -- the rest of the run cannot make up for what is discarded here
        have hunflushed' : j.unflushed = [] := by
          have hlengths := congrArg List.length heq
          rw [List.length_append, List.length_append] at hlengths
          rw [hunflushed, List.length_nil] at hlength
          exact List.eq_nil_of_length_eq_zero (by omega)
        exact ⟨fun _ => hunflushed', hunflushed' ▸ heq⟩
      · rintro ⟨hcareful, heq⟩
        rw [hcareful hop, heq]
    | false =>
      have hcareful : j.Careful op := fun hdiscards => absurd (hop.symm.trans hdiscards) nofun
      rw [← List.append_assoc, (h.step_kept hop).2, List.append_assoc, List.append_assoc, List.append_cancel_left_eq,
        hrest]
      exact (and_iff_right hcareful).symm

/-! ### The archives -/

/-- Texts put under their dates, one after the other. -/
def putAll (archives : JString → Option JString) (ps : List (JString × JString)) : JString → Option JString :=
  ps.foldl (fun archives p => Function.update archives p.1 (some p.2)) archives

/-- A date under which nothing is put keeps what it has. -/
theorem putAll_of_notMem (archives : JString → Option JString) (ps : List (JString × JString)) {date : JString}
    (h : date ∉ ps.map Prod.fst) : putAll archives ps date = archives date := by
  induction ps generalizing archives with
  | nil => rfl
  | cons p ps ih =>
    rw [List.map_cons, List.mem_cons, not_or] at h
    exact (ih _ h.2).trans (Function.update_of_ne h.1 _ _)

/-- Under a date that comes once stays what is put there. -/
theorem putAll_of_mem (archives : JString → Option JString) {ps : List (JString × JString)}
    (hdates : (ps.map Prod.fst).Nodup) {p : JString × JString} (hp : p ∈ ps) :
    putAll archives ps p.1 = some p.2 := by
  induction ps generalizing archives with
  | nil => exact absurd hp List.not_mem_nil
  | cons q ps ih =>
    rw [List.map_cons, List.nodup_cons] at hdates
    rcases List.mem_cons.mp hp with rfl | hp
    · exact (putAll_of_notMem _ ps hdates.1).trans (Function.update_self ..)
    · exact ih _ hdates.2 hp

/-- A call leaves in the archives what it archives. -/
theorem step_archives (j : Journal) (op : KirOp) :
    (j.step op).1.archives = putAll j.archives (archived (j.step op).2) := by
  have hflush (date printed : JString) (events : List KirEvent) (harchived : archived events = []) :
      (j.flushed date).archives = putAll j.archives (archived (j.flushEvents date printed ++ events)) := by
    rw [archived_append, harchived, List.append_nil]
    unfold flushed flushEvents
    cases j.current <;> rfl
  have hflush_only (date printed : JString) := List.append_nil (j.flushEvents date printed) ▸ hflush date printed [] rfl
  match op with
  | .open_ | .close | .printFlush _ true | .printFlushWriter _ true | .zipFlush _ .failsInBody
  | .zipFlush _ .failsAtEntry => rfl
  | .write xml =>
    rw [step]
    split_ifs <;> rfl
  | .printFlush date false => exact hflush_only date (lines j.unflushed)
  | .printFlushWriter date false => exact hflush_only date (preData ++ j.unflushed ++ postData)
  | .zipFlush date .done => exact hflush date (lines j.unflushed) [.nullPointer] rfl

/-- The archives after a run are what was archived in it. -/
theorem run_archives (j : Journal) (ops : List KirOp) :
    (journalMachine.run j ops).archives = putAll j.archives (archived (journalMachine.outputs j ops)) := by
  induction ops generalizing j with
  | nil => rfl
  | cons op ops ih =>
    rw [Machine.outputs_cons, Machine.run_cons, archived_append, putAll, List.foldl_append]
    exact (ih _).trans (congrArg (putAll · _) (j.step_archives op))

end Journal

/-! ### The runs of `listKIR` -/

variable (work_path : JString) (files : Files)

/-- The condition on the calls, said of `listKIR` and of its journal. -/
theorem along_careful_iff {s : ListKIR} (h : s.Settled) (ops : List KirOp) :
    listMachine.Along (fun s op => s.journal.Careful op) s ops ↔ journalMachine.Along Journal.Careful s.journal ops :=
  listMachine_simulates.along_iff (fun s j op hs => by rw [hs.2]) ⟨h, rfl⟩ ops

/-- In any run from the constructor in which no call of the file system fails: what is found in the current file and
what is accepted is what is archived and what is in the current file in the end, just if no `open` and no refused flush
meets a current file with records. -/
theorem kept_iff (hfree : ∀ p ∈ ListKIR.spares, files (path work_path p) = none) (ops : List KirOp) :
    let s := ListKIR.new work_path files []
    s.journal.unflushed ++ accepted (listMachine.outputs s ops) =
        archivedText (listMachine.outputs s ops) ++ (listMachine.run s ops).journal.unflushed ↔
      listMachine.Along (fun s op => s.journal.Careful op) s ops := by
  intro s
  have hsettled : s.Settled := ListKIR.settled_new hfree
  have hbegun : s.journal.Begun := nofun
  rw [listMachine_simulates.outputs ⟨hsettled, rfl⟩, (listMachine_simulates.run ⟨hsettled, rfl⟩ ops).2,
    hbegun.all_kept_iff]
  exact (along_careful_iff hsettled ops).symm

/-- A flush, and another that is refused when there is no record. -/
theorem kept_iff_refused_empty :
    let s := ListKIR.new "kir".toList (fun _ => none) []
    let ops : List KirOp := [.open_, .write ['r'], .printFlush ['d'] false, .zipFlush ['e'] .failsInBody]
    [] ++ accepted (listMachine.outputs s ops) =
      archivedText (listMachine.outputs s ops) ++ (listMachine.run s ops).journal.unflushed := by
  intro s ops
  have hsettled : s.Settled := ListKIR.settled_new fun _ _ => rfl
  have hcareful : listMachine.Along (fun s op => s.journal.Careful op) s ops :=
    (along_careful_iff hsettled ops).mpr ⟨fun _ => rfl, nofun, nofun, fun _ => rfl, trivial⟩
  exact (kept_iff "kir".toList (fun _ => none) (fun _ _ => rfl) ops).mpr hcareful

/-- Where the renaming of `createFlush` fails, `openOUT` cuts off the records that were to be flushed. -/
example :
    let s := ListKIR.new "kir".toList (fun _ => none) [none, none, some []]
    let ops : List KirOp := [.open_, .write ['r'], .printFlush ['d'] false]
    listMachine.outputs s ops = [.written ['r'] true, .printed []] ∧
      (listMachine.run s ops).journal.current = some [] := ⟨rfl, rfl⟩

/-- The texts of the archives of these dates, one behind the other. -/
def ListKIR.archivesText (s : ListKIR) (dates : List JString) : JString :=
  dates.flatMap fun date => (s.files (s.archiveFile date)).getD []

/-- Where nothing is discarded, no call of the file system fails and no two flushes have the same date, every accepted
record is in a file in the end, in the order of the records: in the file of a flush or in the current file. -/
theorem kept_in_files (hfree : ∀ p ∈ ListKIR.spares, files (path work_path p) = none) (ops : List KirOp)
    (hcareful : listMachine.Along (fun s op => s.journal.Careful op) (ListKIR.new work_path files []) ops)
    (hdates : ((archived (listMachine.outputs (ListKIR.new work_path files []) ops)).map Prod.fst).Nodup) :
    let s := ListKIR.new work_path files []
    s.journal.unflushed ++ accepted (listMachine.outputs s ops) =
      (listMachine.run s ops).archivesText ((archived (listMachine.outputs s ops)).map Prod.fst) ++
        (listMachine.run s ops).journal.unflushed := by
  intro s
  have hsettled : s.Settled := ListKIR.settled_new hfree
  have hbegun : s.journal.Begun := nofun
  have houtputs : listMachine.outputs s ops = journalMachine.outputs s.journal ops :=
    listMachine_simulates.outputs ⟨hsettled, rfl⟩ ops
  have hrun : (listMachine.run s ops).journal = journalMachine.run s.journal ops :=
    (listMachine_simulates.run ⟨hsettled, rfl⟩ ops).2
  have hkept := (hbegun.all_kept_iff ops).mpr ((along_careful_iff hsettled ops).mp hcareful)
  rw [← houtputs, ← hrun] at hkept
  have harchives (p : JString × JString) (hp : p ∈ archived (listMachine.outputs s ops)) :
      (listMachine.run s ops).files ((listMachine.run s ops).archiveFile p.1) = some p.2 := by
    have harchives := congrFun (s.journal.run_archives ops) p.1
    rw [← hrun, ← houtputs] at harchives
    exact harchives.trans (Journal.putAll_of_mem _ hdates hp)
  rw [hkept, archivedText, ListKIR.archivesText, List.flatMap_map]
  congr 1
  exact List.flatMap_congr fun p hp => by rw [harchives p hp, Option.getD_some]

/-- Two flushes, of which the second ends in an exception, and a record that is not flushed. -/
theorem kept_in_files_two :
    let s := ListKIR.new "kir".toList (fun _ => none) []
    let ops : List KirOp := [.open_, .write ['a'], .printFlush ['d'] false, .write ['b'],
      .zipFlush ['e'] .done, .write ['c']]
    s.journal.unflushed ++ (['a', 'b', 'c'] : JString) =
      (listMachine.run s ops).archivesText [['d'], ['e']] ++ (listMachine.run s ops).journal.unflushed := by
  intro s ops
  have hsettled : s.Settled := ListKIR.settled_new fun _ _ => rfl
  have houtputs : listMachine.outputs s ops = [.written ['a'] true, .printed ['a'],
      .archived ['d'] ['a'], .written ['b'] true, .printed ['b'], .archived ['e'] ['b'],
      .nullPointer, .written ['c'] true] := (listMachine_simulates.outputs ⟨hsettled, rfl⟩ ops).trans rfl
  have hcareful : listMachine.Along (fun s op => s.journal.Careful op) s ops :=
    (along_careful_iff hsettled ops).mpr ⟨fun _ => rfl, nofun, nofun, nofun, nofun, nofun, trivial⟩
  have haccepted : accepted (listMachine.outputs s ops) = ['a', 'b', 'c'] := by
    rw [houtputs]
    rfl
  have hdates : (archived (listMachine.outputs s ops)).map Prod.fst = [['d'], ['e']] := by
    rw [houtputs]
    rfl
  have hnodup : ((archived (listMachine.outputs s ops)).map Prod.fst).Nodup := by
    rw [hdates]
    decide
  rw [← haccepted, ← hdates]
  exact kept_in_files "kir".toList (fun _ => none) (fun _ _ => rfl) ops hcareful hnodup

end OrgLittle.Kir
