import OrgLittle.Java.Text
import OrgLittle.Lib.Interleave

/-!
# `sendDir2MQ`: threads that send the files of one directory

Every `sendDir2MQ` with the same directory works on one list, which `h_list` keeps. A thread asks for its size without
the lock, takes the first file of it under the lock if its time has come, sends the file and deletes it or renames it.
So a list can be empty when a thread that has just asked for its size takes the lock: `list_file.get(0)` throws then,
and the thread is gone. `work_takes` and `work_shares` say that this costs no file: each is handed to `sendFile2MQ` by
one thread, once and not before its time; and any thread that is left can complete the work (`work_recovers`).

A thread is also gone when an exception comes out of the sending: an array of a negative size for a file of 2 GiB and
more, or `toFile()` of a path in a zip file. A step is what a thread does between two points where others can come in.
`getDir` computes the times with `double`, so the list is an input here.
-/

namespace OrgLittle.Mq

open OrgLittle.Java OrgLittle.Lib Machine

variable {κ : Type*} [DecidableEq κ]

/-- `pathElement`: a file, the time, from the start of a thread, before which it is not sent, and whether its path is
one of a zip file. -/
structure PathElement where
  in_file : JString
  start : ℤ
  zip : Bool
deriving DecidableEq

/-- What the threads share: `list_file` and the clock. -/
structure DirList where
  list_file : List PathElement
  currentTimeMillis : ℤ

/-- Where a thread is in `work`: at the condition of the loop, before `synchronized`, in `Thread.sleep`, at
`sender_file.run` with a file, or at the end; `failed` is the end by the exception of `list_file.get(0)`, and `thrown`
by one of the sending. -/
inductive SendPhase
  | new
  | loop
  | lock
  | sleep
  | send (obj_file : PathElement)
  | done
  | failed
  | thrown
deriving DecidableEq

/-- A `sendDir2MQ`. `st` is read when `work` begins, and `is_run` is what the loop reads: that `close` sets it again is
not seen by any loop. -/
structure SendDir2MQ where
  arh_dirname : Option JString
  is_run : Bool
  st : ℤ
  phase : SendPhase

/-- What is seen of a thread; `sent` is a call of `sender_file.run`, which may put a message. -/
inductive SendEvent
  | taken (obj_file : PathElement) (time : ℤ)
  | sent (obj_file : PathElement) (put : Bool)
  | deleted (in_file : JString)
  | renamed (in_file new_file : JString)
  | finished
  | indexOutOfBounds
  | negativeArraySize
  | unsupportedOperation
deriving DecidableEq

/-- The next step of a thread, in which a file that is sent has a size, or none if it cannot be read, and a message may
be put or not; `isRun(false)` from another thread; and time that passes. -/
inductive SendInput
  | go (size : Option ℕ) (put : Bool)
  | stop
  | tick (ms : ℕ)

namespace SendDir2MQ

variable (w : SendDir2MQ) (d : DirList)

/-- What becomes of a file that has been sent: it stays, is deleted or gets the name `arh_dirname`. -/
def archive (in_file : JString) : List SendEvent :=
  match w.arh_dirname with
  | none => []
  | some [] => [.deleted in_file]
  | some arh_dirname => [.renamed in_file arh_dirname]

/-- `buf=new byte[(int)Files.size(_file)]` raises an exception. -/
def TooLarge (size : Option ℕ) : Prop := size.any (fun n => wrapInt n < 0)

instance (size : Option ℕ) : Decidable (TooLarge size) := inferInstanceAs (Decidable (_ = true))

/-- `sender_file.run` with a file and what is done with the file then: where the thread is afterwards. Whether the
message is put makes no difference to what becomes of the file. -/
def sendFile (obj_file : PathElement) (size : Option ℕ) (put : Bool) : SendPhase × List SendEvent :=
  if TooLarge size then (.thrown, [.sent obj_file false, .negativeArraySize])
  else if w.arh_dirname ≠ none ∧ obj_file.zip then
    (.thrown, [.sent obj_file (size.isSome && put), .unsupportedOperation])
  else (.loop, .sent obj_file (size.isSome && put) :: w.archive obj_file.in_file)

/-- One step of `work`. -/
def work (size : Option ℕ) (put : Bool) : (SendDir2MQ × DirList) × List SendEvent :=
  match w.phase with
  | .new => (({ w with st := d.currentTimeMillis, phase := .loop }, d), [])
  | .loop =>
    if d.list_file ≠ [] ∧ w.is_run then (({ w with phase := .lock }, d), [])
    else (({ w with phase := .done }, d), [.finished])
  | .lock =>
    match d.list_file with
    -- another thread has taken the last file since the condition was read
    | [] => (({ w with phase := .failed }, d), [.indexOutOfBounds])
    | obj_file :: list_file =>
      if 0 ≤ d.currentTimeMillis - (obj_file.start + w.st) then
        (({ w with phase := .send obj_file }, { d with list_file }), [.taken obj_file d.currentTimeMillis])
      else (({ w with phase := .sleep }, d), [])
  | .sleep => (({ w with phase := .loop }, d), [])
  | .send obj_file =>
    let (phase, events) := w.sendFile obj_file size put
    (({ w with phase }, d), events)
  | .done | .failed | .thrown => ((w, d), [])

/-- A step of one thread, or something that happens to it. -/
def step : SendInput → (SendDir2MQ × DirList) × List SendEvent
  | .go size put => w.work d size put
  | .stop => (({ w with is_run := false }, d), [])
  | .tick ms => ((w, { d with currentTimeMillis := d.currentTimeMillis + ms }), [])

/-- A thread before `work`. -/
def start (arh_dirname : Option JString) : SendDir2MQ := ⟨arh_dirname, true, 0, .new⟩

/-- The file that a thread has taken and not sent. -/
def held : List PathElement :=
  match w.phase with
  | .send obj_file => [obj_file]
  | _ => []

end SendDir2MQ

/-- One thread with the list. -/
def sendMachine : Machine (SendDir2MQ × DirList) SendInput SendEvent := ⟨fun s i => s.1.step s.2 i⟩

/-- The files that are taken, by events of one thread or of all. -/
def takenBy (events : List SendEvent) : List PathElement :=
  events.filterMap fun
    | .taken obj_file _ => some obj_file
    | _ => none

/-- The files that are handed to `sender_file.run`. -/
def sentBy (events : List SendEvent) : List PathElement :=
  events.filterMap fun
    | .sent obj_file _ => some obj_file
    | _ => none

/-! ## What a step of a thread does -/

section invariant

variable {k j : κ} {w : SendDir2MQ} {d : DirList} {log : List (κ × SendEvent)}

theorem takenBy_append (xs ys : List SendEvent) : takenBy (xs ++ ys) = takenBy xs ++ takenBy ys :=
  List.filterMap_append ..

theorem sentBy_append (xs ys : List SendEvent) : sentBy (xs ++ ys) = sentBy xs ++ sentBy ys := List.filterMap_append ..

theorem takenBy_archive (in_file : JString) : takenBy (w.archive in_file) = [] := by
  unfold SendDir2MQ.archive
  split <;> rfl

theorem sentBy_archive (in_file : JString) : sentBy (w.archive in_file) = [] := by
  unfold SendDir2MQ.archive
  split <;> rfl

theorem SendDir2MQ.of_mem_archive {e : SendEvent} {in_file : JString} (he : e ∈ w.archive in_file) :
    e = .deleted in_file ∨ ∃ new_file, e = .renamed in_file new_file := by
  unfold archive at he
  split at he
  · exact absurd he List.not_mem_nil
  · exact .inl (List.mem_singleton.mp he)
  · exact .inr ⟨_, List.mem_singleton.mp he⟩

/-- The sending takes no file, and hands one to `sender_file.run`. -/
theorem SendDir2MQ.sendFile_spec (w : SendDir2MQ) (obj_file : PathElement) (size : Option ℕ) (put : Bool) :
    ((w.sendFile obj_file size put).1 = .loop ∨ (w.sendFile obj_file size put).1 = .thrown)
      ∧ takenBy (w.sendFile obj_file size put).2 = [] ∧ sentBy (w.sendFile obj_file size put).2 = [obj_file]
      ∧ ∀ e ∈ (w.sendFile obj_file size put).2, (∀ o t, e ≠ .taken o t) ∧ e ≠ .indexOutOfBounds := by
  unfold sendFile
  split_ifs
  · exact ⟨.inr rfl, rfl, rfl, by simp⟩
  · exact ⟨.inr rfl, rfl, rfl, by simp⟩
  · refine ⟨.inl rfl, takenBy_archive _, congrArg (obj_file :: ·) (sentBy_archive _), fun e he => ?_⟩
    rcases List.mem_cons.mp he with rfl | he
    · exact ⟨nofun, nofun⟩
    · obtain rfl | ⟨_, rfl⟩ := of_mem_archive he <;> exact ⟨nofun, nofun⟩

/-- A step takes the first file of the list, or none. -/
theorem SendDir2MQ.takenBy_step (w : SendDir2MQ) (d : DirList) (i : SendInput) :
    takenBy (w.step d i).2 ++ (w.step d i).1.2.list_file = d.list_file := by
  cases i with
  | stop => rfl
  | tick ms => rfl
  | go size put =>
    show takenBy (w.work d size put).2 ++ (w.work d size put).1.2.list_file = d.list_file
    unfold work
    split
    case h_2 => split <;> rfl
    case h_3 =>
      split
      case h_1 => rfl
      case h_2 obj_file list_file hlist =>
        split
        · exact hlist.symm
        · rfl
    case h_5 obj_file _ =>
      show takenBy (w.sendFile obj_file size put).2 ++ d.list_file = d.list_file
      rw [(w.sendFile_spec obj_file size put).2.1, List.nil_append]
    all_goals rfl

/-- The thread has taken a file, and no file has been taken since. -/
def TookLast (k : κ) (log : List (κ × SendEvent)) : Prop :=
  ∃ before o t after, log = before ++ (k, .taken o t) :: after ∧ takenBy (after.map Prod.snd) = []

omit [DecidableEq κ] in
theorem TookLast.append {k : κ} {log : List (κ × SendEvent)} (h : TookLast k log) {more : List (κ × SendEvent)}
    (hmore : takenBy (more.map Prod.snd) = []) : TookLast k (log ++ more) := by
  obtain ⟨before, o, t, after, rfl, hafter⟩ := h
  refine ⟨before, o, t, after ++ more, by simp, ?_⟩
  rw [List.map_append, takenBy_append, hafter, hmore, List.append_nil]

omit [DecidableEq κ] in
/-- Among events that take a file there is a last one. -/
theorem tookLast_of_takenBy {k : κ} (log : List (κ × SendEvent)) {events : List SendEvent} (h : takenBy events ≠ []) :
    TookLast k (log ++ events.map fun e => (k, e)) := by
  induction events using List.reverseRecOn with
  | nil => exact absurd rfl h
  | append_singleton events e ih =>
    rw [List.map_append, ← List.append_assoc]
    by_cases htaken : takenBy [e] = []
    · rw [takenBy_append, htaken, List.append_nil] at h
      exact (ih h).append htaken
    · cases e with
      | taken o t => exact ⟨_, o, t, [], rfl, rfl⟩
      | _ => exact absurd rfl htaken

/-- What holds of a thread: it sends what it has taken, not before the time; it ends when the list is empty, if it is
not stopped; and the last file of a list that it finds empty behind the lock was taken by another thread. -/
structure SendInv (k : κ) (w : SendDir2MQ) (d : DirList) (log : List (κ × SendEvent)) : Prop where
  fresh : w.phase = .new → own k log = []
  held : takenBy (own k log) = sentBy (own k log) ++ w.held
  time : ∀ o t, .taken o t ∈ own k log → o.start + w.st ≤ t
  drained : w.phase = .done ∧ w.is_run ∨ w.phase = .failed → d.list_file = []
  raced : w.phase = .lock ∨ w.phase = .failed → d.list_file = [] → ∃ j, j ≠ k ∧ TookLast j log
  failed : .indexOutOfBounds ∈ own k log → w.phase = .failed

omit [DecidableEq κ] in
theorem map_snd_events (events : List SendEvent) : (events.map fun e => (k, e)).map Prod.snd = events := by
  rw [List.map_map]
  exact List.map_id _

/-- The steps of the other threads only make the list shorter. -/
theorem SendInv.others (h : SendInv j w d log) (hj : j ≠ k) {d' : DirList} {events : List SendEvent}
    (hlist : takenBy events ++ d'.list_file = d.list_file) :
    SendInv j w d' (log ++ events.map fun e => (k, e)) := by
  have hown : own j (log ++ events.map fun e => (k, e)) = own j log := by
    rw [own_append, own_map_of_ne hj.symm, List.append_nil]
  refine ⟨fun hphase => hown.trans (h.fresh hphase), by rw [hown, h.held], by rw [hown]; exact h.time,
    fun hphase => ?_, fun hphase hempty => ?_, by rw [hown]; exact h.failed⟩
  · have hempty := h.drained hphase
    rw [← hlist, List.append_eq_nil_iff] at hempty
    exact hempty.2
  · by_cases hbefore : d.list_file = []
    · obtain ⟨l, hl, htook⟩ := h.raced hphase hbefore
      rw [hbefore, List.append_eq_nil_iff] at hlist
      exact ⟨l, hl, htook.append (by rw [map_snd_events]; exact hlist.1)⟩
    · -- this step has taken the last file
      refine ⟨k, hj.symm, tookLast_of_takenBy log fun hnil => ?_⟩
      rw [hempty, hnil] at hlist
      exact hbefore hlist.symm

/-- A step of the thread itself: what it takes it holds, until it sends it. -/
theorem SendInv.of_step (h : SendInv k w d log) {w' : SendDir2MQ} {d' : DirList} {events : List SendEvent}
    (hfresh : w'.phase = .new → w.phase = .new ∧ events = [])
    (hheld : w.held ++ takenBy events = sentBy events ++ w'.held) (hst : w.phase = .new ∨ w'.st = w.st)
    (htime : ∀ o t, .taken o t ∈ events → o.start + w'.st ≤ t)
    (hdrained : w'.phase = .done ∧ w'.is_run ∨ w'.phase = .failed → d'.list_file = [])
    (hraced : w'.phase = .lock ∨ w'.phase = .failed → d'.list_file = [] →
      takenBy events = [] ∧ ∃ j, j ≠ k ∧ TookLast j log)
    (hfailed : .indexOutOfBounds ∈ events ∨ w.phase = .failed → w'.phase = .failed) :
    SendInv k w' d' (log ++ events.map fun e => (k, e)) := by
  have hown : own k (log ++ events.map fun e => (k, e)) = own k log ++ events := by
    rw [own_append, own_map_self]
  refine ⟨fun hphase => ?_, ?_, fun o t hmem => ?_, hdrained, fun hphase hempty => ?_, fun hmem => ?_⟩
  · obtain ⟨hnew, rfl⟩ := hfresh hphase
    rw [hown, h.fresh hnew, List.append_nil]
  · rw [hown, takenBy_append, sentBy_append, h.held, List.append_assoc, hheld, List.append_assoc]
  · rw [hown, List.mem_append] at hmem
    rcases hmem with hmem | hmem
    · rcases hst with hnew | hst
      · rw [h.fresh hnew] at hmem
        exact absurd hmem List.not_mem_nil
      · rw [hst]
        exact h.time o t hmem
    · exact htime o t hmem
  · obtain ⟨hnone, j, hj, htook⟩ := hraced hphase hempty
    exact ⟨j, hj, htook.append (by rw [map_snd_events]; exact hnone)⟩
  · rw [hown, List.mem_append] at hmem
    exact hfailed (hmem.symm.imp_right h.failed)

/-- What holds behind a step of `work`. -/
def SendInv.Behind (k : κ) (w : SendDir2MQ) (d : DirList) (log : List (κ × SendEvent)) (size : Option ℕ)
    (put : Bool) : Prop :=
  SendInv k (w.work d size put).1.1 (w.work d size put).1.2 (log ++ (w.work d size put).2.map fun e => (k, e))

section work

variable {arh_dirname : Option JString} {is_run : Bool} {st : ℤ} (size : Option ℕ) (put : Bool)

/-- The condition of the loop. -/
theorem SendInv.work_loop (h : SendInv k ⟨arh_dirname, is_run, st, .loop⟩ d log) :
    SendInv.Behind k ⟨arh_dirname, is_run, st, .loop⟩ d log size put := by
  rw [SendInv.Behind]
  dsimp only [SendDir2MQ.work]
  split
  case isTrue hnext =>
    -- the list is not empty here: if it is behind the lock, a step of another thread has emptied it
    exact h.of_step nofun rfl (.inr rfl) nofun nofun (fun _ hempty => absurd hempty hnext.1) nofun
  case isFalse hend =>
    refine h.of_step nofun rfl (.inr rfl) nofun ?_ nofun nofun
    rintro (⟨-, hrun⟩ | ⟨⟨⟩⟩)
    by_contra hlist
    exact hend ⟨hlist, hrun⟩

/-- Behind the lock a file is taken, or is not due yet, or there is none left. -/
theorem SendInv.work_lock (h : SendInv k ⟨arh_dirname, is_run, st, .lock⟩ d log) :
    SendInv.Behind k ⟨arh_dirname, is_run, st, .lock⟩ d log size put := by
  rw [SendInv.Behind]
  dsimp only [SendDir2MQ.work]
  split
  case h_1 hempty =>
    exact h.of_step nofun rfl (.inr rfl) nofun (fun _ => hempty)
      (fun _ hempty => ⟨rfl, h.raced (.inl rfl) hempty⟩) fun _ => rfl
  case h_2 obj_file list_file hlist =>
    split
    case isTrue hnow =>
      refine h.of_step nofun rfl (.inr rfl) (fun o t hmem => ?_) nofun nofun nofun
      obtain ⟨rfl, rfl⟩ : o = obj_file ∧ t = d.currentTimeMillis := by simpa using hmem
      exact Int.sub_nonneg.mp hnow
    case isFalse => exact h.of_step nofun rfl (.inr rfl) nofun nofun nofun nofun

/-- The file that was taken is sent, whatever becomes of it. -/
theorem SendInv.work_send {obj_file : PathElement} (h : SendInv k ⟨arh_dirname, is_run, st, .send obj_file⟩ d log) :
    SendInv.Behind k ⟨arh_dirname, is_run, st, .send obj_file⟩ d log size put := by
  obtain ⟨hphase, htaken, hsent, hplain⟩ :=
    SendDir2MQ.sendFile_spec ⟨arh_dirname, is_run, st, .send obj_file⟩ obj_file size put
  rw [SendInv.Behind]
  dsimp only [SendDir2MQ.work]
  revert hphase htaken hsent hplain
  generalize SendDir2MQ.sendFile _ obj_file size put = sent
  obtain ⟨phase, events⟩ := sent
  intro hphase htaken hsent hplain
  dsimp only at hphase htaken hsent hplain ⊢
  have hbehind : (phase ≠ .new ∧ phase ≠ .lock ∧ phase ≠ .done ∧ phase ≠ .failed)
      ∧ SendDir2MQ.held ⟨arh_dirname, is_run, st, phase⟩ = [] := by
    rcases hphase with rfl | rfl <;> exact ⟨by decide, rfl⟩
  obtain ⟨⟨hnew, hlock, hdone, hfail⟩, hheld⟩ := hbehind
  refine h.of_step (fun heq => absurd heq hnew) ?_ (.inr rfl)
    (fun o t hmem => absurd rfl ((hplain _ hmem).1 o t)) ?_ ?_ ?_
  · rw [htaken, hsent, hheld]
    rfl
  · rintro (⟨heq, -⟩ | heq)
    · exact absurd heq hdone
    · exact absurd heq hfail
  · rintro (heq | heq)
    · exact absurd heq hlock
    · exact absurd heq hfail
  · rintro (hmem | ⟨⟨⟩⟩)
    exact absurd rfl (hplain _ hmem).2

end work

/-- A step of the thread keeps what holds of it, by its phases. -/
theorem SendInv.step (h : SendInv k w d log) (i : SendInput) :
    SendInv k (w.step d i).1.1 (w.step d i).1.2 (log ++ (w.step d i).2.map fun e => (k, e)) := by
  have hheld_nil : w.held ++ takenBy [] = sentBy [] ++ w.held := List.append_nil _
  have hraced (hphase : w.phase = .lock ∨ w.phase = .failed) (hempty : d.list_file = []) :
      takenBy [] = [] ∧ ∃ j, j ≠ k ∧ TookLast j log := ⟨rfl, h.raced hphase hempty⟩
  cases i with
  | tick ms =>
    exact h.of_step (fun hphase => ⟨hphase, rfl⟩) hheld_nil (.inr rfl) nofun h.drained hraced (Or.rec nofun id)
  | stop =>
    refine h.of_step (fun hphase => ⟨hphase, rfl⟩) hheld_nil (.inr rfl) nofun ?_ hraced (Or.rec nofun id)
    rintro (⟨-, hrun⟩ | hfailed)
    · exact absurd hrun nofun
    · exact h.drained (.inr hfailed)
  | go size put =>
    obtain ⟨arh_dirname, is_run, st, phase⟩ := w
    cases phase with
    | new => exact h.of_step nofun rfl (.inl rfl) nofun nofun nofun nofun
    | loop => exact h.work_loop size put
    | lock => exact h.work_lock size put
    | sleep => exact h.of_step nofun rfl (.inr rfl) nofun nofun nofun nofun
    | send obj_file => exact h.work_send size put
    | done => exact h.of_step nofun hheld_nil (.inr rfl) nofun h.drained hraced (Or.rec nofun id)
    | failed => exact h.of_step nofun hheld_nil (.inr rfl) nofun h.drained hraced (Or.rec nofun id)
    | thrown => exact h.of_step nofun hheld_nil (.inr rfl) nofun h.drained hraced (Or.rec nofun id)

theorem SendInv.start (k : κ) (arh_dirname : Option JString) (d : DirList) :
    SendInv k (.start arh_dirname) d ([] : List (κ × SendEvent)) :=
  ⟨fun _ => rfl, rfl, nofun, nofun, nofun, nofun⟩

end invariant

/-! ## Runs of threads -/

/-- Threads before `work`, with one list. -/
def sendDirs (arh_dirname : κ → Option JString) (d : DirList) : (κ → SendDir2MQ) × DirList :=
  (fun k => .start (arh_dirname k), d)

theorem sendDirs_inv (arh_dirname : κ → Option JString) (d : DirList) (is : List (κ × SendInput)) :
    let s := sendMachine.interleave.run (sendDirs arh_dirname d) is
    let events := sendMachine.interleave.outputs (sendDirs arh_dirname d) is
    takenBy (events.map Prod.snd) ++ s.2.list_file = d.list_file ∧ ∀ k, SendInv k (s.1 k) s.2 events := by
  refine interleave_invariants (m := sendMachine) (P := fun _ => True)
    (I := fun d' log => takenBy (log.map Prod.snd) ++ d'.list_file = d.list_file) (L := SendInv)
    (fun k w d' log i _ hshared h => ⟨?_, h.step i, fun j hj w' h' => h'.others hj (w.takenBy_step d' i)⟩)
    (fun _ _ => trivial) rfl fun k => .start k (arh_dirname k) d
  have hevents : ((sendMachine.step (w, d') i).2.map fun e => (k, e)).map Prod.snd = (w.step d' i).2 :=
    map_snd_events _
  rw [List.map_append, takenBy_append, hevents, List.append_assoc]
  exact (congrArg _ (w.takenBy_step d' i)).trans hshared

/-- In any run of threads with one list: the files are taken from its front, each by one thread; a thread sends what it
takes, in this order, but for a file that it has in hand, and takes none before its time; and a thread finds the list
empty behind the lock only if another thread has taken its last file. -/
theorem work_takes (arh_dirname : κ → Option JString) (d : DirList) (is : List (κ × SendInput)) :
    let s := sendMachine.interleave.run (sendDirs arh_dirname d) is
    let events := sendMachine.interleave.outputs (sendDirs arh_dirname d) is
    takenBy (events.map Prod.snd) ++ s.2.list_file = d.list_file
      ∧ ∀ k, takenBy (own k events) = sentBy (own k events) ++ (s.1 k).held
        ∧ (∀ o t, (k, .taken o t) ∈ events → o.start + (s.1 k).st ≤ t)
        ∧ ((k, .indexOutOfBounds) ∈ events →
          (s.1 k).phase = .failed ∧ s.2.list_file = [] ∧ ∃ j, j ≠ k ∧ ∃ o, d.list_file.getLast? = some o
            ∧ o ∈ takenBy (own j events)) := by
  intro s events
  obtain ⟨hlist, hinv⟩ := sendDirs_inv arh_dirname d is
  refine ⟨hlist, fun k => ⟨(hinv k).held, fun o t hmem => (hinv k).time o t (mem_own.mpr hmem), fun hmem => ?_⟩⟩
  have hfailed := (hinv k).failed (mem_own.mpr hmem)
  have hempty := (hinv k).drained (.inr hfailed)
  obtain ⟨j, hj, before, o, t, after, hsplit, hafter⟩ := (hinv k).raced (.inr hfailed) hempty
  refine ⟨hfailed, hempty, j, hj, o, ?_, ?_⟩
  · rw [hempty, List.append_nil] at hlist
    rw [← hlist, hsplit, List.map_append, List.map_cons, takenBy_append]
    show (takenBy (before.map Prod.snd) ++ o :: takenBy (after.map Prod.snd)).getLast? = some o
    rw [hafter]
    simp
  · refine List.mem_filterMap.mpr ⟨.taken o t, mem_own.mpr ?_, rfl⟩
    rw [show events = _ from hsplit]
    exact List.mem_append_right _ List.mem_cons_self

theorem perm_of_ended (arh_dirname : κ → Option JString) (d : DirList) (is : List (κ × SendInput))
    (hheld : ∀ k, ((sendMachine.interleave.run (sendDirs arh_dirname d) is).1 k).held = [])
    (hend : ∃ k, let w := (sendMachine.interleave.run (sendDirs arh_dirname d) is).1 k
      w.phase = .done ∧ w.is_run ∨ w.phase = .failed) :
    (sentBy ((sendMachine.interleave.outputs (sendDirs arh_dirname d) is).map Prod.snd)).Perm d.list_file := by
  obtain ⟨hlist, hinv⟩ := sendDirs_inv arh_dirname d is
  obtain ⟨k, hk⟩ := hend
  rw [(hinv k).drained hk, List.append_nil] at hlist
  rw [← hlist]
  refine filterMap_perm_of_own fun j => ?_
  have hsent := (hinv j).held
  rw [hheld j, List.append_nil] at hsent
  exact hsent.symm

/-- When no thread has a file in hand and one has ended, by itself or by the exception of the empty list, every file of
the list has been handed to `sendFile2MQ`, by one thread and once. -/
theorem work_shares (arh_dirname : κ → Option JString) (d : DirList) (is : List (κ × SendInput))
    (hheld : ∀ k, ((sendMachine.interleave.run (sendDirs arh_dirname d) is).1 k).held = [])
    (hend : ∃ k, let w := (sendMachine.interleave.run (sendDirs arh_dirname d) is).1 k
      w.phase = .done ∧ w.is_run ∨ w.phase = .failed) :
    (sentBy ((sendMachine.interleave.outputs (sendDirs arh_dirname d) is).map Prod.snd)).Perm d.list_file :=
  perm_of_ended arh_dirname d is hheld hend

/-- Two threads see one file; the first finds the list empty behind the lock. -/
theorem work_shares_raced :
    let d : DirList := ⟨[⟨['a'], 5, false⟩], 100⟩
    let go := SendInput.go (some 10) true
    let is := [(false, go), (true, go), (false, go), (true, go), (true, .tick 5), (true, go), (false, go), (true, go),
      (true, go)]
    let events := sendMachine.interleave.outputs (sendDirs (fun _ => some []) d) is
    (false, .indexOutOfBounds) ∈ events ∧ (sentBy (events.map Prod.snd)).Perm d.list_file :=
  ⟨by decide, work_shares _ _ _ (by decide) ⟨true, .inl (by decide)⟩⟩

/-- A file that can be sent and archived by a thread. -/
def SendDir2MQ.Archives (w : SendDir2MQ) (o : PathElement) : Prop := w.arh_dirname = none ∨ o.zip = false

instance (w : SendDir2MQ) (o : PathElement) : Decidable (w.Archives o) := inferInstanceAs (Decidable (_ ∨ _))

theorem SendDir2MQ.sendFile_loop {w : SendDir2MQ} {o : PathElement} (h : w.Archives o) {size : Option ℕ}
    (hsize : ¬ TooLarge size) (put : Bool) :
    w.sendFile o size put = (.loop, .sent o (size.isSome && put) :: w.archive o.in_file) := by
  rw [sendFile, if_neg hsize, if_neg]
  rintro ⟨harh, hzip⟩
  rcases h with h | h
  · exact harh h
  · rw [h] at hzip
    exact Bool.false_ne_true hzip

/-- A thread that goes on alone once the time of every file has come takes all of them and ends, if no exception comes
out of the sending: three steps for each file and one to see that there is none left. -/
theorem work_completes {w : SendDir2MQ} {d : DirList} (hloop : w.phase = .loop) (hrun : w.is_run)
    (htime : ∀ o ∈ d.list_file, o.start + w.st ≤ d.currentTimeMillis) (harchives : ∀ o ∈ d.list_file, w.Archives o)
    {gos : List (Option ℕ × Bool)} (hsize : ∀ g ∈ gos, ¬ SendDir2MQ.TooLarge g.1)
    (hlength : gos.length = 3 * d.list_file.length + 1) :
    sendMachine.run (w, d) (gos.map fun g => .go g.1 g.2)
      = ({ w with phase := .done }, { d with list_file := [] }) := by
  obtain ⟨arh_dirname, is_run, st, phase⟩ := w
  obtain ⟨list_file, now⟩ := d
  obtain rfl : phase = .loop := hloop
  obtain rfl : is_run = true := hrun
  induction list_file generalizing gos with
  | nil =>
    obtain ⟨g, rfl⟩ := List.length_eq_one_iff.mp hlength
    rfl
  | cons obj_file list_file ih =>
    rw [List.forall_mem_cons] at htime harchives
    obtain _ | ⟨g₁, _ | ⟨g₂, _ | ⟨g₃, gos⟩⟩⟩ := gos
    iterate 3 simp at hlength
    have hnext : sendMachine.step (⟨arh_dirname, true, st, .loop⟩, ⟨obj_file :: list_file, now⟩) (.go g₁.1 g₁.2)
        = ((⟨arh_dirname, true, st, .lock⟩, ⟨obj_file :: list_file, now⟩), []) := rfl
    have htake : sendMachine.step (⟨arh_dirname, true, st, .lock⟩, ⟨obj_file :: list_file, now⟩) (.go g₂.1 g₂.2)
        = ((⟨arh_dirname, true, st, .send obj_file⟩, ⟨list_file, now⟩), [.taken obj_file now]) :=
      if_pos (Int.sub_nonneg.mpr htime.1)
    have hsend : (sendMachine.step (⟨arh_dirname, true, st, .send obj_file⟩, ⟨list_file, now⟩) (.go g₃.1 g₃.2)).1
        = (⟨arh_dirname, true, st, .loop⟩, ⟨list_file, now⟩) := by
      have hfile := SendDir2MQ.sendFile_loop (w := ⟨arh_dirname, true, st, .send obj_file⟩) harchives.1
        (hsize g₃ (by simp)) g₃.2
      show (SendDir2MQ.work _ _ g₃.1 g₃.2).1 = _
      dsimp only [SendDir2MQ.work]
      rw [hfile]
    rw [List.map_cons, List.map_cons, List.map_cons, Machine.run_cons, hnext, Machine.run_cons, htake,
      Machine.run_cons, hsend]
    refine ih (fun g hg => hsize g (by simp [hg])) ?_ htime.2 harchives.2
    simp only [List.length_cons] at hlength ⊢
    omega

/-- Whatever the threads have done, as long as none has a file in hand: one of them that is at the condition of the loop
and goes on alone, when the time of the files that are left has come, completes the work, if no exception comes out of
the sending. Every file is sent once. -/
theorem work_recovers (arh_dirname : κ → Option JString) (d : DirList) (is : List (κ × SendInput)) (k : κ)
    (gos : List (Option ℕ × Bool))
    (hheld : ∀ j, ((sendMachine.interleave.run (sendDirs arh_dirname d) is).1 j).held = [])
    (hloop : ((sendMachine.interleave.run (sendDirs arh_dirname d) is).1 k).phase = .loop)
    (hrun : ((sendMachine.interleave.run (sendDirs arh_dirname d) is).1 k).is_run)
    (htime : ∀ o ∈ (sendMachine.interleave.run (sendDirs arh_dirname d) is).2.list_file,
      o.start + ((sendMachine.interleave.run (sendDirs arh_dirname d) is).1 k).st
        ≤ (sendMachine.interleave.run (sendDirs arh_dirname d) is).2.currentTimeMillis)
    (harchives : ∀ o ∈ (sendMachine.interleave.run (sendDirs arh_dirname d) is).2.list_file,
      ((sendMachine.interleave.run (sendDirs arh_dirname d) is).1 k).Archives o)
    (hsize : ∀ g ∈ gos, ¬ SendDir2MQ.TooLarge g.1)
    (hlength : gos.length
      = 3 * (sendMachine.interleave.run (sendDirs arh_dirname d) is).2.list_file.length + 1) :
    (sentBy ((sendMachine.interleave.outputs (sendDirs arh_dirname d)
      (is ++ gos.map fun g => (k, .go g.1 g.2))).map Prod.snd)).Perm d.list_file := by
  generalize hs : sendMachine.interleave.run (sendDirs arh_dirname d) is = s at hheld hloop hrun htime harchives hlength
  have hend : sendMachine.interleave.run (sendDirs arh_dirname d) (is ++ gos.map fun g => (k, .go g.1 g.2))
      = (Function.update s.1 k { s.1 k with phase := .done }, { s.2 with list_file := [] }) := by
    have hgoes : (gos.map fun g => (k, SendInput.go g.1 g.2))
        = (gos.map fun g => SendInput.go g.1 g.2).map fun i => (k, i) := List.map_map.symm
    rw [Machine.run_append, hs, hgoes, Machine.interleave_run_alone,
      work_completes hloop hrun htime harchives hsize hlength]
  apply perm_of_ended
  · intro j
    rw [hend]
    show (Function.update s.1 k _ j).held = []
    by_cases hj : j = k
    · rw [hj, Function.update_self]
      rfl
    · rw [Function.update_of_ne hj]
      exact hheld j
  · refine ⟨k, .inl ?_⟩
    rw [hend]
    show (Function.update s.1 k _ k).phase = .done ∧ (Function.update s.1 k _ k).is_run
    rw [Function.update_self]
    exact ⟨rfl, hrun⟩

/-- One thread dies of a file of 2 GiB, the first of two; the other sends the second. -/
theorem work_recovers_thrown :
    let d : DirList := ⟨[⟨['a'], 0, false⟩, ⟨['b'], 5, false⟩], 100⟩
    let is := [(false, .go (some (2 ^ 31)) true), (false, .go (some (2 ^ 31)) true), (false, .go (some (2 ^ 31)) true),
      (false, .go (some (2 ^ 31)) true), (true, .go (some 10) true), (true, .tick 5)]
    (sentBy ((sendMachine.interleave.outputs (sendDirs (fun _ => some []) d)
      (is ++ (List.replicate 4 (some 10, true)).map fun g => (true, .go g.1 g.2))).map Prod.snd)).Perm d.list_file :=
  work_recovers _ _ _ true _ (by decide) (by decide) (by decide) (by decide) (by decide) (by decide) (by decide)

end OrgLittle.Mq
