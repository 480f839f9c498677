import OrgLittle.Lib.Machine

/-!
# `scheduler` and `task`

One thread picks the tasks that are due and hands them to a thread pool. Whether a task may be picked is told
by its state alone: it is written by the picking thread, again by the worker that starts the task, once more
when `work()` returns, and by `KILL`. The state keeps a task from being run twice at a time
(`Exclusive`). It does not keep a `KILL` that comes between the pick and the start of the worker, and an
exception of `work()` leaves it at `EXECUTED` for good.
-/

namespace OrgLittle.Util

open OrgLittle.Lib

/-! ## `task` -/

/-- The values of `task.state`. -/
inductive TaskState
  | VIRGIN | KILL | EXECUTED
deriving DecidableEq

/-- The fields of a `task` that the scheduler uses. Times are in milliseconds, the period in seconds. -/
structure Task where
  state : TaskState
  startExecutionTime : ℤ
  stopExecutionTime : ℤ
  nextExecutionTime : ℤ
  period : ℤ
deriving DecidableEq

namespace Task

/-- The constructor `task(start, delay)` at the time `now`. The other two have `start = 0`. -/
def create (now start delay : ℤ) : Task :=
  ⟨.VIRGIN, now + start * 1000, 0, now + start * 1000, delay⟩

/-- `setStart`. -/
def setStart (now start : ℤ) (t : Task) : Task :=
  { t with startExecutionTime := now + start * 1000, nextExecutionTime := now + start * 1000 }

/-- `setDelay(start, delay)`. `setDelay(delay)` has `start = 0`. -/
def setDelay (now start delay : ℤ) (t : Task) : Task := { t.setStart now start with period := delay }

/-- `KILL`. -/
def KILL (t : Task) : Task := { t with state := .KILL }

/-- `VIRGIN`. -/
def VIRGIN (now : ℤ) (t : Task) : Task :=
  { t with
    state := if t.state ≠ .KILL then .VIRGIN else t.state
    stopExecutionTime := now
    nextExecutionTime := now + t.period * 1000 }

/-- `EXECUTED`, which does not look at the state. (The clock does not move during a step.) -/
def EXECUTED (now : ℤ) (t : Task) : Task :=
  { t with
    state := .EXECUTED
    startExecutionTime := now
    stopExecutionTime := 0
    nextExecutionTime := now + t.period * 1000 }

@[simp] theorem create_state (now start delay : ℤ) : (create now start delay).state = .VIRGIN := rfl

@[simp] theorem setStart_state (now start : ℤ) (t : Task) : (t.setStart now start).state = t.state := rfl

@[simp] theorem setDelay_state (now start delay : ℤ) (t : Task) :
    (t.setDelay now start delay).state = t.state := rfl

@[simp] theorem KILL_state (t : Task) : t.KILL.state = .KILL := rfl

@[simp] theorem EXECUTED_state (now : ℤ) (t : Task) : (t.EXECUTED now).state = .EXECUTED := rfl

/-- A task that was killed stays killed. -/
theorem VIRGIN_state_eq_KILL (now : ℤ) (t : Task) : (t.VIRGIN now).state = .KILL ↔ t.state = .KILL := by
  by_cases h : t.state = .KILL <;> simp [VIRGIN, h]

end Task

/-! ## `scheduler` -/

section

variable {T : Type*} [DecidableEq T]

/-- The objects around a scheduler: the tasks, `list_task` (which may hold `null`), the task that the loop has
picked and not yet given to the executor, the tasks that wait in the executor, and those that are
inside `work()`, one for each busy worker. -/
structure Scheduler (T : Type*) where
  tasks : T → Task
  listTask : List (Option T)
  picked : Option T
  queue : List T
  running : List T

/-- `scheduler.get`. A `null` in the list ends the search. -/
def Scheduler.get (tasks : T → Task) (start : ℤ) : List (Option T) → Option T
  | [] => none
  | none :: _ => none
  | some t :: ts =>
    if (tasks t).state = .VIRGIN ∧ start > (tasks t).nextExecutionTime then some t
    else Scheduler.get tasks start ts

/-- The atomic steps. The KILL calls at the end of `scheduler.run` are among those of `kill`: after them the
loop picks no more. -/
inductive SchedulerStep (T : Type*)
  | add (t : Option T)
  | del (t : T)
  | pick (start now : ℤ)
  | execute
  | start (t : T) (now : ℤ)
  | complete (t : T) (now : ℤ)
  | throw (t : T)
  | kill (t : T)
  | setStart (t : T) (now start : ℤ)
  | setDelay (t : T) (now start delay : ℤ)
deriving DecidableEq

/-- What can be seen of a step: a task was picked, or a worker has begun its `work()`. -/
inductive SchedulerEvent (T : Type*)
  | picked (t : T)
  | began (t : T)
deriving DecidableEq

namespace Scheduler

/-- `t` is changed in place. -/
def modify (s : Scheduler T) (t : T) (f : Task → Task) : Scheduler T :=
  { s with tasks := Function.update s.tasks t (f (s.tasks t)) }

/-- The picking thread: `get` and `EXECUTED` under the lock of the list. While a picked task is not handed over
the thread is not at the head of its loop. -/
def pick (start now : ℤ) (s : Scheduler T) : Scheduler T × List (SchedulerEvent T) :=
  match s.picked, get s.tasks start s.listTask with
  | none, some t => ({ s.modify t (Task.EXECUTED now) with picked := some t }, [.picked t])
  | _, _ => (s, [])

/-- `runner.execute`. -/
def execute (s : Scheduler T) : Scheduler T :=
  match s.picked with
  | some t => { s with picked := none, queue := s.queue ++ [t] }
  | none => s

/-- A free worker takes a task (in which order is left to the executor) and enters `task.run`. -/
def start (nThread : ℕ+) (t : T) (now : ℤ) (s : Scheduler T) : Scheduler T × List (SchedulerEvent T) :=
  if t ∈ s.queue ∧ s.running.length < nThread then
    ({ s.modify t (Task.EXECUTED now) with queue := s.queue.erase t, running := t :: s.running }, [.began t])
  else (s, [])

/-- `work()` returns. -/
def complete (t : T) (now : ℤ) (s : Scheduler T) : Scheduler T :=
  if t ∈ s.running then { s.modify t (Task.VIRGIN now) with running := s.running.erase t } else s

/-- `work()` throws: the worker is gone and `VIRGIN` is not called. -/
def throw (t : T) (s : Scheduler T) : Scheduler T :=
  { s with running := s.running.erase t }

end Scheduler

/-- A scheduler with a pool of `nThread` workers. -/
def scheduler (T : Type*) [DecidableEq T] (nThread : ℕ+) :
    Machine (Scheduler T) (SchedulerStep T) (SchedulerEvent T) where
  step s
    | .add t => ({ s with listTask := s.listTask ++ [t] }, [])
    | .del t => ({ s with listTask := s.listTask.erase (some t) }, [])
    | .pick begin now => s.pick begin now
    | .execute => (s.execute, [])
    | .start t now => s.start nThread t now
    | .complete t now => (s.complete t now, [])
    | .throw t => (s.throw t, [])
    | .kill t => (s.modify t Task.KILL, [])
    | .setStart t now begin => (s.modify t (Task.setStart now begin), [])
    | .setDelay t now begin delay => (s.modify t (Task.setDelay now begin delay), [])

/-- A scheduler without tasks. `created` has the arguments of each task's constructor. -/
def Scheduler.init (created : T → ℤ × ℤ × ℤ) : Scheduler T where
  tasks t := Task.create (created t).1 (created t).2.1 (created t).2.2
  listTask := []
  picked := none
  queue := []
  running := []

namespace Scheduler

variable {s : Scheduler T} {t : T}

/-- The tasks that were picked and that no worker has started yet. -/
def waiting (s : Scheduler T) : List T := s.picked.toList ++ s.queue

/-- The state of a task. -/
def stateOf (s : Scheduler T) (t : T) : TaskState := (s.tasks t).state

theorem stateOf_modify (u : T) (f : Task → Task) :
    (s.modify t f).stateOf u = if u = t then (f (s.tasks t)).state else s.stateOf u := by
  by_cases h : u = t
  · subst h
    simp [stateOf, modify]
  · simp [stateOf, modify, h]

omit [DecidableEq T] in
/-- Only tasks in the state `VIRGIN` are picked. -/
theorem get_state {tasks : T → Task} {begin : ℤ} {list : List (Option T)}
    (h : get tasks begin list = some t) : (tasks t).state = .VIRGIN := by
  induction list with
  | nil => cases h
  | cons o list ih =>
    cases o with
    | none => cases h
    | some u =>
      rw [get] at h
      split at h
      · next hdue =>
        cases h
        exact hdue.1
      · exact ih h

/-- What a pick can do. -/
theorem pick_cases (s : Scheduler T) (begin now : ℤ) :
    s.pick begin now = (s, [])
      ∨ ∃ t, s.picked = none ∧ s.stateOf t = .VIRGIN
        ∧ s.pick begin now = ({ s.modify t (Task.EXECUTED now) with picked := some t }, [.picked t]) := by
  rw [pick]
  split
  · next t hpicked hget => exact .inr ⟨t, hpicked, get_state hget, rfl⟩
  · exact .inl rfl

/-- What a worker's start can do. -/
theorem start_cases (nThread : ℕ+) (t : T) (now : ℤ) (s : Scheduler T) :
    s.start nThread t now = (s, [])
      ∨ t ∈ s.queue ∧ s.start nThread t now
        = ({ s.modify t (Task.EXECUTED now) with queue := s.queue.erase t, running := t :: s.running },
            [.began t]) := by
  rw [start]
  split
  · next h => exact .inr ⟨h.1, rfl⟩
  · exact .inl rfl

/-! ## Exclusion -/

/-- No task is picked, queued or run more than once, and only tasks that are none of these are `VIRGIN`. -/
structure Exclusive (s : Scheduler T) : Prop where
  nodup : (s.waiting ++ s.running).Nodup
  state : ∀ t ∈ s.waiting ++ s.running, s.stateOf t ≠ .VIRGIN

omit [DecidableEq T] in
/-- No task runs. -/
theorem exclusive_init (created : T → ℤ × ℤ × ℤ) : Exclusive (init created) where
  nodup := List.nodup_nil
  state := fun _ h => absurd h List.not_mem_nil

omit [DecidableEq T] in
/-- Exclusion is kept by a step that moves or drops tasks and makes none of those that are left `VIRGIN`. -/
theorem Exclusive.of_subperm {s' : Scheduler T} (h : Exclusive s)
    (hsub : List.Subperm (s'.waiting ++ s'.running) (s.waiting ++ s.running))
    (hstate : ∀ u ∈ s'.waiting ++ s'.running, s'.stateOf u = .VIRGIN → s.stateOf u = .VIRGIN) :
    Exclusive s' := by
  obtain ⟨l, hperm, hlist⟩ := hsub
  refine ⟨hperm.nodup (h.nodup.sublist hlist), fun u hu hvirgin => ?_⟩
  exact h.state u (hlist.subset (hperm.mem_iff.mpr hu)) (hstate u hu hvirgin)

/-- A task is changed without becoming `VIRGIN`. -/
theorem Exclusive.modify (h : Exclusive s) (t : T) {f : Task → Task}
    (hf : ∀ x, (f x).state = .VIRGIN → x.state = .VIRGIN) : Exclusive (s.modify t f) := by
  refine h.of_subperm (List.Perm.refl _).subperm fun u _ hu => ?_
  rw [stateOf_modify] at hu
  split at hu
  · next hut =>
    rw [hut]
    exact hf _ hu
  · exact hu

/-- A task that is picked was neither waiting nor running. -/
theorem Exclusive.pick (h : Exclusive s) (begin now : ℤ) : Exclusive (s.pick begin now).1 := by
  obtain heq | ⟨t, hpicked, hvirgin, heq⟩ := pick_cases s begin now
  · rw [heq]
    exact h
  · rw [heq]
    -- a task that is `VIRGIN` is not among those that wait or run
    have hnot : t ∉ s.waiting ++ s.running := fun hmem => h.state t hmem hvirgin
    have hnodup := h.nodup
    simp only [waiting, hpicked, Option.toList_none, List.nil_append] at hnot hnodup
    refine ⟨List.nodup_cons.mpr ⟨hnot, hnodup⟩, fun u hu => ?_⟩
    change (s.modify t (Task.EXECUTED now)).stateOf u ≠ _
    rw [stateOf_modify]
    split
    · simp
    · next hut =>
      have hmem : u ∈ s.waiting ++ s.running := by
        simp only [waiting, hpicked, Option.toList_none, List.nil_append]
        exact (List.mem_cons.mp hu).resolve_left hut
      exact h.state u hmem

omit [DecidableEq T] in
/-- A task that is handed over is taken off the list. -/
theorem Exclusive.execute (h : Exclusive s) : Exclusive s.execute := by
  rw [Scheduler.execute]
  split
  · next t hpicked =>
    refine h.of_subperm (List.Perm.subperm ?_) fun u _ hu => hu
    refine List.Perm.append_right _ ?_
    simp only [waiting, hpicked, Option.toList_none, Option.toList_some, List.nil_append,
      List.singleton_append]
    exact List.perm_append_singleton t s.queue
  · exact h

/-- A task that begins runs once. -/
theorem Exclusive.start (h : Exclusive s) (nThread : ℕ+) (t : T) (now : ℤ) :
    Exclusive (s.start nThread t now).1 := by
  obtain heq | ⟨hmem, heq⟩ := start_cases nThread t now s
  · rw [heq]
    exact h
  · rw [heq]
    refine (h.modify t (f := Task.EXECUTED now) (by simp)).of_subperm (List.Perm.subperm ?_)
      fun u _ hu => hu
    change (s.picked.toList ++ s.queue.erase t ++ t :: s.running).Perm (s.picked.toList ++ s.queue ++ s.running)
    rw [List.append_assoc, List.append_assoc]
    refine List.Perm.append_left _ ?_
    calc (s.queue.erase t ++ t :: s.running).Perm (t :: (s.queue.erase t ++ s.running)) := List.perm_middle
      _ = t :: s.queue.erase t ++ s.running := rfl
      List.Perm _ (s.queue ++ s.running) := (List.perm_cons_erase hmem).symm.append_right _

/-- A worker that is done with `t` no longer has it. -/
theorem Exclusive.throw (h : Exclusive s) (t : T) : Exclusive (s.throw t) :=
  h.of_subperm (List.Sublist.append_left List.erase_sublist _).subperm fun _ _ hu => hu

/-- A task that has thrown is gone from both lists. -/
theorem Exclusive.not_mem_throw (h : Exclusive s) (hmem : t ∈ s.running) :
    t ∉ (s.throw t).waiting ++ (s.throw t).running := by
  intro hu
  have hnodup := List.nodup_append'.mp h.nodup
  rcases List.mem_append.mp hu with hwait | hrun
  · exact hnodup.2.2 hwait hmem
  · exact hnodup.2.1.not_mem_erase hrun

/-- A task that has ended does not run any more. -/
theorem Exclusive.complete (h : Exclusive s) (t : T) (now : ℤ) : Exclusive (s.complete t now) := by
  rw [Scheduler.complete]
  split
  · next hmem =>
    refine (h.throw t).of_subperm (List.Perm.refl _).subperm fun u hu hvirgin => ?_
    have hne : u ≠ t := by
      rintro rfl
      exact h.not_mem_throw hmem hu
    have hstate := stateOf_modify (s := s) (t := t) u (Task.VIRGIN now)
    rw [if_neg hne] at hstate
    exact hstate.symm.trans hvirgin
  · exact h

/-- Every step keeps the exclusion. -/
theorem Exclusive.step (h : Exclusive s) (nThread : ℕ+) (e : SchedulerStep T) :
    Exclusive ((scheduler T nThread).step s e).1 := by
  cases e with
  | add t => exact ⟨h.nodup, h.state⟩
  | del t => exact ⟨h.nodup, h.state⟩
  | pick begin now => exact h.pick begin now
  | execute => exact h.execute
  | start t now => exact h.start nThread t now
  | complete t now => exact h.complete t now
  | throw t => exact h.throw t
  | kill t => exact h.modify t (by simp)
  | setStart t now begin => exact h.modify t fun _ hx => hx
  | setDelay t now begin delay => exact h.modify t fun _ hx => hx

end Scheduler

open Scheduler

/-- In every run no task is in two places. -/
theorem exclusive_run (nThread : ℕ+) (created : T → ℤ × ℤ × ℤ) (is : List (SchedulerStep T)) :
    Exclusive ((scheduler T nThread).run (init created) is) := by
  have hall : (scheduler T nThread).Along (fun _ _ => True) (init created) is :=
    Machine.along_of_forall _ fun _ _ => trivial
  exact hall.run_invariant (fun s e hs _ => hs.step nThread e) (exclusive_init created)

/-- In every state of every run no task is inside `work()` in two workers, and none is queued for execution
twice. -/
theorem scheduler_exclusive (nThread : ℕ+) (created : T → ℤ × ℤ × ℤ) (is : List (SchedulerStep T)) :
    ((scheduler T nThread).run (init created) is).running.Nodup
      ∧ ((scheduler T nThread).run (init created) is).waiting.Nodup := by
  obtain ⟨hwaiting, hrunning, -⟩ := List.nodup_append'.mp (exclusive_run nThread created is).nodup
  exact ⟨hrunning, hwaiting⟩

/-! ## `KILL` -/

namespace Scheduler

variable {s : Scheduler T} {t : T} {nThread : ℕ+}

/-- `t` is killed and on no way to a worker. -/
structure Dead (t : T) (s : Scheduler T) : Prop where
  state : s.stateOf t = .KILL
  waiting : t ∉ s.waiting

/-- The other steps do not touch the state `KILL`. -/
theorem Dead.modify (h : Dead t s) (u : T) {f : Task → Task}
    (hf : ∀ x, x.state = .KILL → (f x).state = .KILL) : Dead t (s.modify u f) := by
  refine ⟨?_, h.waiting⟩
  rw [stateOf_modify]
  split
  · next htu =>
    subst htu
    exact hf _ h.state
  · exact h.state

/-- A change of another task leaves a dead task as it is. -/
theorem Dead.stateOf_modify_of_ne (h : Dead t s) {u : T} (htu : t ≠ u) (f : Task → Task) :
    (s.modify u f).stateOf t = .KILL := by
  rw [stateOf_modify, if_neg htu]
  exact h.state

/-- A dead task is not picked. -/
theorem Dead.pick (h : Dead t s) (begin now : ℤ) : Dead t (s.pick begin now).1 ∧ .began t ∉ (s.pick begin now).2 := by
  obtain heq | ⟨u, hpicked, hvirgin, heq⟩ := pick_cases s begin now
  · rw [heq]
    exact ⟨h, List.not_mem_nil⟩
  · rw [heq]
    have htu : t ≠ u := by
      rintro rfl
      rw [h.state] at hvirgin
      cases hvirgin
    have hqueue : t ∉ s.queue := fun hmem => h.waiting (List.mem_append_right _ hmem)
    have hwaiting : t ∉ u :: s.queue := List.not_mem_cons_of_ne_of_not_mem htu hqueue
    exact ⟨⟨h.stateOf_modify_of_ne htu _, hwaiting⟩, by simp⟩

omit [DecidableEq T] in
/-- A dead task is not handed over. -/
theorem Dead.execute (h : Dead t s) : Dead t s.execute := by
  rw [Scheduler.execute]
  split
  · next u hpicked =>
    refine ⟨h.state, ?_⟩
    have hwaiting := h.waiting
    simp only [Scheduler.waiting, hpicked, Option.toList_some, List.singleton_append, List.mem_cons,
      not_or] at hwaiting
    simpa [Scheduler.waiting, not_or] using ⟨hwaiting.2, hwaiting.1⟩
  · exact h

/-- A dead task is not begun. -/
theorem Dead.start (h : Dead t s) (nThread : ℕ+) (u : T) (now : ℤ) :
    Dead t (s.start nThread u now).1 ∧ .began t ∉ (s.start nThread u now).2 := by
  obtain heq | ⟨hmem, heq⟩ := start_cases nThread u now s
  · rw [heq]
    exact ⟨h, List.not_mem_nil⟩
  · rw [heq]
    have htu : t ≠ u := by
      rintro rfl
      exact h.waiting (List.mem_append_right _ hmem)
    refine ⟨⟨h.stateOf_modify_of_ne htu _, fun hwait => h.waiting ?_⟩, by simp [htu]⟩
    rcases List.mem_append.mp hwait with hpicked | hqueue
    · exact List.mem_append_left _ hpicked
    · exact List.mem_append_right _ (List.mem_of_mem_erase hqueue)

/-- A dead task stays dead when another one ends. -/
theorem Dead.complete (h : Dead t s) (u : T) (now : ℤ) : Dead t (s.complete u now) := by
  rw [Scheduler.complete]
  split
  · have hmodify := h.modify u (f := Task.VIRGIN now) fun x hx => (Task.VIRGIN_state_eq_KILL now x).mpr hx
    exact ⟨hmodify.state, hmodify.waiting⟩
  · exact h

/-- A dead task stays dead, and no worker begins its `work()`. -/
theorem Dead.step (h : Dead t s) (nThread : ℕ+) (e : SchedulerStep T) :
    Dead t ((scheduler T nThread).step s e).1 ∧ .began t ∉ ((scheduler T nThread).step s e).2 := by
  cases e with
  | add u => exact ⟨⟨h.state, h.waiting⟩, List.not_mem_nil⟩
  | del u => exact ⟨⟨h.state, h.waiting⟩, List.not_mem_nil⟩
  | pick begin now => exact h.pick begin now
  | execute => exact ⟨h.execute, List.not_mem_nil⟩
  | start u now => exact h.start nThread u now
  | complete u now => exact ⟨h.complete u now, List.not_mem_nil⟩
  | throw u => exact ⟨⟨h.state, h.waiting⟩, List.not_mem_nil⟩
  | kill u => exact ⟨h.modify u fun _ _ => rfl, List.not_mem_nil⟩
  | setStart u now begin => exact ⟨h.modify u fun _ hx => hx, List.not_mem_nil⟩
  | setDelay u now begin delay => exact ⟨h.modify u fun _ hx => hx, List.not_mem_nil⟩

/-- A dead task never begins again. -/
theorem Dead.not_began (h : Dead t s) (later : List (SchedulerStep T)) :
    .began t ∉ (scheduler T nThread).outputs s later := by
  induction later generalizing s with
  | nil => exact List.not_mem_nil
  | cons e later ih =>
    obtain ⟨hdead, hout⟩ := h.step nThread e
    rw [Machine.outputs_cons, List.mem_append, not_or]
    exact ⟨hout, ih hdead⟩

/-- All workers finish. -/
theorem run_complete_all (nThread : ℕ+) (s : Scheduler T) (running : List T) (hrunning : s.running = running) :
    let s' := (scheduler T nThread).run s (running.map fun u => .complete u 0)
    s'.running = [] ∧ s'.picked = s.picked ∧ s'.queue = s.queue := by
  induction running generalizing s with
  | nil => exact ⟨hrunning, rfl, rfl⟩
  | cons u running ih =>
    have hstep : ((scheduler T nThread).step s (.complete u 0)).1
        = { s.modify u (Task.VIRGIN 0) with running := running } := by
      change s.complete u 0 = _
      rw [Scheduler.complete, if_pos (by simp [hrunning])]
      simp [hrunning]
    rw [List.map_cons, Machine.run_cons, hstep]
    exact ih _ rfl

/-- A task that waits can be begun, whatever its state: when all workers are free the executor gives it to one. -/
theorem exists_began (nThread : ℕ+) (hwaiting : t ∈ s.waiting) :
    ∃ later, .began t ∈ (scheduler T nThread).outputs s later := by
  obtain ⟨hrunning, hpicked, hqueue⟩ := run_complete_all nThread s s.running rfl
  refine ⟨s.running.map (fun u => SchedulerStep.complete u 0) ++ [SchedulerStep.execute, .start t 0], ?_⟩
  rw [Machine.outputs_append, List.mem_append]
  right
  generalize (scheduler T nThread).run s (s.running.map fun u => .complete u 0) = s' at hrunning hpicked hqueue ⊢
  have hmem : t ∈ s'.execute.queue ∧ s'.execute.running.length < nThread := by
    rw [Scheduler.waiting, ← hpicked, ← hqueue] at hwaiting
    rw [Scheduler.execute]
    cases hp : s'.picked with
    | none =>
      rw [hp] at hwaiting
      exact ⟨hwaiting, by simp [hrunning]⟩
    | some u =>
      rw [hp] at hwaiting
      refine ⟨?_, by simp [hrunning]⟩
      simpa [or_comm] using hwaiting
  change SchedulerEvent.began t ∈ [] ++ ((s'.execute.start nThread t 0).2 ++ [])
  rw [Scheduler.start, if_pos hmem]
  simp

end Scheduler

/-- `KILL` is final in a run: however the run goes on after a `KILL`, `work()` of that task is not begun. -/
def KillFinal (nThread : ℕ+) (s : Scheduler T) (is : List (SchedulerStep T)) : Prop :=
  ∀ (before : List (SchedulerStep T)) (t : T) (after : List (SchedulerStep T)), is = before ++ .kill t :: after →
    ∀ later : List (SchedulerStep T),
      .began t ∉ (scheduler T nThread).outputs ((scheduler T nThread).run s (before ++ [.kill t])) later

/-- Failures are retried in a run: when `work()` of a task that was not killed has thrown, then, as long as the
task is neither killed nor picked, a pick after its next execution time finds it. -/
def FailureRetried (nThread : ℕ+) (s : Scheduler T) (is : List (SchedulerStep T)) : Prop :=
  ∀ (before : List (SchedulerStep T)) (t : T) (after : List (SchedulerStep T)), is = before ++ .throw t :: after →
    t ∈ ((scheduler T nThread).run s before).running → .kill t ∉ before →
    ∀ later : List (SchedulerStep T), .kill t ∉ later →
      .picked t ∉ (scheduler T nThread).outputs ((scheduler T nThread).run s (before ++ [.throw t])) later →
      let s' := (scheduler T nThread).run s (before ++ .throw t :: later)
      ∀ now > (s'.tasks t).nextExecutionTime, get s'.tasks now [some t] = some t

/-- `KILL` is not called between the pick of a task and the start of its worker. -/
def NotKilledWaiting (nThread : ℕ+) (s : Scheduler T) (is : List (SchedulerStep T)) : Prop :=
  ∀ (before : List (SchedulerStep T)) (t : T) (after : List (SchedulerStep T)), is = before ++ .kill t :: after →
    t ∉ ((scheduler T nThread).run s before).waiting

/-- `work()` throws only in tasks that were killed. -/
def ThrowsKilled (nThread : ℕ+) (s : Scheduler T) (is : List (SchedulerStep T)) : Prop :=
  ∀ (before : List (SchedulerStep T)) (t : T) (after : List (SchedulerStep T)), is = before ++ .throw t :: after →
    t ∈ ((scheduler T nThread).run s before).running → .kill t ∈ before

/-- A kill is final if and only if the task does not wait for its worker. -/
theorem killFinal_iff (nThread : ℕ+) (s : Scheduler T) (is : List (SchedulerStep T)) :
    KillFinal nThread s is ↔ NotKilledWaiting nThread s is := by
  refine ⟨fun h before t after his hwaiting => ?_, fun h before t after his later => ?_⟩
  · -- `KILL` leaves the task where it is
    obtain ⟨later, hbegan⟩ := exists_began nThread
      (s := ((scheduler T nThread).run s before).modify t Task.KILL) hwaiting
    refine h before t after his later ?_
    rw [Machine.run_append]
    exact hbegan
  · rw [Machine.run_append]
    have hdead : Dead t (((scheduler T nThread).run s before).modify t Task.KILL) := by
      refine ⟨?_, h before t after his⟩
      rw [stateOf_modify, if_pos rfl, Task.KILL_state]
    exact hdead.not_began later

/-- A task whose `work()` has thrown is not `VIRGIN` and will not be picked. -/
theorem get_throw {s : Scheduler T} {t : T} (h : Exclusive s) (hmem : t ∈ s.running) (now : ℤ) :
    get (s.throw t).tasks now [some t] = none := by
  have hstate : (s.tasks t).state ≠ .VIRGIN := h.state t (List.mem_append_right _ hmem)
  change get s.tasks now [some t] = none
  rw [Scheduler.get, if_neg fun hdue => hstate hdue.1, Scheduler.get]

/-- Failures are retried if and only if no task throws that was not killed before: no failure is retried. -/
theorem failureRetried_iff (nThread : ℕ+) (created : T → ℤ × ℤ × ℤ) (is : List (SchedulerStep T)) :
    FailureRetried nThread (init created) is ↔ ThrowsKilled nThread (init created) is := by
  refine ⟨fun h before t after his hmem => ?_, fun h before t after his hmem hkill => ?_⟩
  · by_contra hkill
    have hretry := h before t after his hmem hkill [] List.not_mem_nil List.not_mem_nil _ (lt_add_one _)
    have hnone := get_throw (exclusive_run nThread created before) hmem
    rw [Machine.run_append] at hretry
    exact absurd (hretry.symm.trans (hnone _)) (by simp)
  · exact absurd (h before t after his hmem) hkill

/-- Over every run, `KILL` is final and failures are retried exactly when `KILL` does not meet a task between
its pick and its start and only killed tasks throw. -/
theorem kill_final_failures_retried_iff (nThread : ℕ+) (created : T → ℤ × ℤ × ℤ)
    (is : List (SchedulerStep T)) :
    KillFinal nThread (init created) is ∧ FailureRetried nThread (init created) is
      ↔ NotKilledWaiting nThread (init created) is ∧ ThrowsKilled nThread (init created) is := by
  rw [killFinal_iff, failureRetried_iff]

/-- The steps up to the moment when the one task waits in the executor. -/
def queueOne : List (SchedulerStep Unit) := [.add (some ()), .pick 1 1, .execute]

/-- A `KILL` while the task waits is lost, and a task that throws is not picked again. -/
theorem kill_lost_and_failure_stuck :
    ¬ KillFinal 1 (init fun _ : Unit => (0, 0, 60)) (queueOne ++ [SchedulerStep.kill ()])
      ∧ ¬ FailureRetried 1 (init fun _ : Unit => (0, 0, 60)) (queueOne ++ [SchedulerStep.start () 2, .throw ()]) := by
  refine ⟨fun h => ?_, fun h => ?_⟩
  · exact absurd (h queueOne () [] rfl [.start () 2]) (by decide)
  · exact absurd (h (queueOne ++ [.start () 2]) () [] rfl (by decide) (by decide) [] (by decide) (by decide)
      1000000 (by decide)) (by decide)

end

end OrgLittle.Util
