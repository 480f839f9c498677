import OrgLittle.Java.Text

/-!
# `Router`: starting and stopping the processors

A router makes a processor for each interface of its configuration and starts it. When one of them cannot be started,
it calls `cmd_close` for its whole array, where the processors behind the failed one are still `null`. And `stop_proc`
waits for the flag of each processor, which it has set itself, and not for the thread. `startFailure_iff` says that all
goes well only if there is no `null` and the threads end in time.
-/

namespace OrgLittle.Mq.Routing

open OrgLittle.Java

/-! ## `Processor` -/

/-- `def.CMD_INIT`. -/
def CMD_INIT : ℤ := 0

/-- `def.CMD_RUN`. -/
def CMD_RUN : ℤ := 1

/-- `def.CMD_STOP`. -/
def CMD_STOP : ℤ := -1

/-- `def.RET_OK`. -/
def RET_OK : ℤ := 0

/-- `def.RET_ERROR`. -/
def RET_ERROR : ℤ := -2

/-- An interface of the configuration, as far as its processor needs it: whether MQ opens the manager, the source queue,
the error queue and each queue of the routes. -/
structure Interface where
  manager : Bool
  source : Bool
  error : Bool
  outputs : List Bool
deriving DecidableEq

/-- A `Processor`; `running` says that its thread was started and has not ended. The thread leaves its loop when it
sees that `isStop` holds. -/
structure Processor where
  id : ℕ
  flagState : ℤ
  running : Bool
deriving DecidableEq

namespace Processor

/-- The constructor. -/
def new (id : ℕ) : Processor := ⟨id, CMD_INIT, false⟩

/-- `cmd_close`. -/
def cmdClose (p : Processor) : Processor := { p with flagState := CMD_STOP }

/-- `close`, which swallows the exceptions of MQ. -/
def close (p : Processor) : Processor := p.cmdClose

/-- `isStop`. -/
def isStop (p : Processor) : Bool := p.flagState < CMD_RUN

/-- `init`. -/
def init (p : Processor) (inter : Interface) : Processor × ℤ :=
  if !inter.manager then (p.close, -1)
  else if !inter.source then (p.close, -1)
  else if !inter.error then (p.close, -1)
  else if inter.outputs.all (· = true) then ({ p with flagState := CMD_RUN }, RET_OK)
  else ({ p.close with flagState := CMD_STOP }, RET_ERROR)

/-- `fork`. -/
def fork (p : Processor) : Processor := { p with running := true }

/-- The end of `run`, which closes the processor. -/
def finish (p : Processor) : Processor := { p.close with running := false }

end Processor

/-- `Processor.init` fails for the interface. -/
def Interface.Fails (inter : Interface) : Prop := inter.manager = false ∨ inter.source = false
  ∨ inter.error = false ∨ false ∈ inter.outputs

/-! ## `Router` -/

/-- A `Router`, with the flag of its `Command`. The array refers to the processors by their index; `none` is `null`. -/
structure Router where
  flagState : ℤ
  cmdFlagState : ℤ
  proc : Option (List (Option ℕ))
  processors : List Processor
  strCfg : Option JString
deriving DecidableEq

/-- How a call ends: the router, the processors whose `cmd_close` was called, and the result or an exception. -/
structure Outcome (α : Type) where
  router : Router
  closed : List ℕ
  result : Except JavaException α

/-- The threads that end meanwhile, because they have seen their flag or after an exception of MQ. -/
def settle (ended : ℕ → Bool) (processors : List Processor) : List Processor :=
  processors.mapIdx fun k p => if p.running && ended k then p.finish else p

/-- The loop over the array that calls `cmd_close`. -/
def closeAll (processors : List Processor) :
    List (Option ℕ) → List Processor × List ℕ × Except JavaException Unit
  | [] => (processors, [], .ok ())
  | none :: _ => (processors, [], .error .nullPointer)
  | some k :: proc =>
    let (processors, closed, result) := closeAll (processors.modify k Processor.cmdClose) proc
    (processors, k :: closed, result)

/-- `cmd_close`. -/
def cmdClose (r : Router) : Outcome Unit :=
  let r := { r with flagState := CMD_STOP }
  match r.proc with
  | none => ⟨{ r with cmdFlagState := -1 }, [], .ok ()⟩
  | some proc =>
    match closeAll r.processors proc with
    | (processors, closed, .ok ()) => ⟨{ r with processors := processors, cmdFlagState := -1 }, closed, .ok ()⟩
    | (processors, closed, .error e) => ⟨{ r with processors := processors }, closed, .error e⟩

/-- The loop of `start_proc` from the index `i` on; `ended i` are the threads that end during a turn. -/
def startFrom (ended : ℕ → ℕ → Bool) (i : ℕ) : List Interface → Router → Outcome ℤ
  | [], r => ⟨{ r with strCfg := none }, [], .ok RET_OK⟩
  | inter :: interfaces, r =>
    let (p, ret) := (Processor.new (i + 1)).init inter
    let proc := r.proc.map (·.set i (some i))
    if ret < 0 then
      let outcome := cmdClose { r with proc := proc, processors := settle (ended i) r.processors ++ [p] }
      ⟨outcome.router, outcome.closed, outcome.result.map fun _ => RET_ERROR⟩
    else
      startFrom ended (i + 1) interfaces
        { r with proc := proc, processors := settle (ended i) r.processors ++ [p.fork] }

/-- `start_proc`, with the parser of the configuration. A parsed configuration has a size, so that the branch for a
negative one is never taken. The processors of an older array are not reached any more. -/
def startProc (parse : JString → Option (List Interface)) (ended : ℕ → ℕ → Bool) (r : Router) : Outcome ℤ :=
  match r.strCfg with
  | none => ⟨r, [], .ok RET_ERROR⟩
  | some str_cfg =>
    match parse str_cfg with
    | none => ⟨r, [], .ok RET_ERROR⟩
    | some interfaces =>
      startFrom ended 0 interfaces
        { r with proc := some (List.replicate interfaces.length none), processors := [] }

/-- One turn of the waiting loop: the entries that are left, and whether there was one. -/
def waitTurn (processors : List Processor) (proc : List (Option ℕ)) : List (Option ℕ) × Bool :=
  (proc.map fun entry => entry.bind fun k =>
      if (processors[k]?.elim true Processor.isStop) then none else some k,
    proc.any Option.isSome)

/-- The waiting loop of `stop_proc` from the given turn on; `none` if more turns are needed than there are. The threads
`ended turn` end during a turn. -/
def wait (ended : ℕ → ℕ → Bool) (turn : ℕ) : ℕ → List Processor → List (Option ℕ) → Option (List Processor)
  | 0, _, _ => none
  | turns + 1, processors, proc =>
    let processors := settle (ended turn) processors
    match waitTurn processors proc with
    | (proc, true) => wait ended (turn + 1) turns processors proc
    | (_, false) => some processors

/-- `stop_proc`. -/
def stopProc (ended : ℕ → ℕ → Bool) (turns : ℕ) (r : Router) : Option (Outcome Unit) :=
  match r.proc with
  | none => some ⟨r, [], .ok ()⟩
  | some proc =>
    match closeAll r.processors proc with
    | (processors, closed, .error e) => some ⟨{ r with processors := processors }, closed, .error e⟩
    | (processors, closed, .ok ()) =>
      (wait ended 0 turns processors proc).map fun processors =>
        ⟨{ r with proc := none, processors := processors }, closed, .ok ()⟩

/-- What should happen when `init` fails at the index `i`: `start_proc` returns `RET_ERROR`, all processors in front of
`i` have got `cmd_close`, and `stop_proc` ends without an exception and leaves no thread of a processor running. -/
structure StartFailure (parse : JString → Option (List Interface)) (ended ended' : ℕ → ℕ → Bool) (r : Router)
    (i : ℕ) : Prop where
  returned : (startProc parse ended r).result = .ok RET_ERROR
  closed : ∀ k < i, k ∈ (startProc parse ended r).closed
  stopped : ∃ turns outcome, stopProc ended' turns (startProc parse ended r).router = some outcome
    ∧ outcome.result = .ok () ∧ ∀ p ∈ outcome.router.processors, p.running = false

/-- The thread of the processor `k` ends in time for a failure at the index `i`: while `start_proc` goes on to `i`, or
during one of the two turns that `stop_proc` waits. -/
def EndsInTime (ended ended' : ℕ → ℕ → Bool) (i k : ℕ) : Prop :=
  (∃ j, k < j ∧ j ≤ i ∧ ended j k = true) ∨ ended' 0 k = true ∨ ended' 1 k = true

/-! ## `init` and the flags -/

/-- `init` fails if the library or the configuration does. -/
theorem init_of_fails {inter : Interface} (h : inter.Fails) (p : Processor) : (p.init inter).2 < 0 := by
  have hnegative : (-1 : ℤ) < 0 := by decide
  rw [Processor.init]
  split_ifs with hmanager hsource herror houtputs
  · exact hnegative
  · exact hnegative
  · exact hnegative
  · have hall := List.all_eq_true.mp houtputs
    rcases h with h | h | h | h
    · exact absurd h (by simpa using hmanager)
    · exact absurd h (by simpa using hsource)
    · exact absurd h (by simpa using herror)
    · exact absurd (hall false h) (by decide)
  · exact show RET_ERROR < 0 by decide

theorem init_of_not_fails {inter : Interface} (h : ¬ inter.Fails) (p : Processor) : ¬ (p.init inter).2 < 0 := by
  simp only [Interface.Fails, not_or, Bool.not_eq_false] at h
  obtain ⟨hmanager, hsource, herror, houtputs⟩ := h
  have hall : inter.outputs.all (· = true) = true := by
    refine List.all_eq_true.mpr fun opened hopened => ?_
    cases opened with
    | true => rfl
    | false => exact absurd hopened houtputs
  rw [Processor.init, hmanager, hsource, herror, hall]
  exact lt_irrefl 0

/-- A processor that is there has stopped. -/
def StoppedAt (processors : List Processor) (k : ℕ) : Prop := ∀ p ∈ processors[k]?, p.isStop = true

theorem stoppedAt_modify_self (processors : List Processor) (k : ℕ) :
    StoppedAt (processors.modify k Processor.cmdClose) k := by
  intro p hp
  rw [List.getElem?_modify_eq] at hp
  obtain ⟨q, -, rfl⟩ := Option.map_eq_some_iff.mp hp
  rfl

/-- What has been told to stop stays so, whatever else is told. -/
theorem StoppedAt.modify {processors : List Processor} {j : ℕ} (h : StoppedAt processors j) (k : ℕ) :
    StoppedAt (processors.modify k Processor.cmdClose) j := by
  by_cases hjk : k = j
  · exact hjk ▸ stoppedAt_modify_self processors k
  · intro p hp
    rw [List.getElem?_modify_ne _ _ hjk] at hp
    exact h p hp

/-- Threads that end take no command back. -/
theorem StoppedAt.settle {processors : List Processor} {k : ℕ} (h : StoppedAt processors k) (ended : ℕ → Bool) :
    StoppedAt (settle ended processors) k := by
  intro p hp
  rw [Routing.settle, List.getElem?_mapIdx] at hp
  obtain ⟨q, hq, rfl⟩ := Option.map_eq_some_iff.mp hp
  split
  · rfl
  · exact h q hq

theorem length_settle (ended : ℕ → Bool) (processors : List Processor) :
    (settle ended processors).length = processors.length := List.length_mapIdx

/-- The thread of a processor runs. -/
def RunsAt (processors : List Processor) (k : ℕ) : Bool := processors[k]?.any Processor.running

theorem running_init (p : Processor) (inter : Interface) : (p.init inter).1.running = p.running := by
  rw [Processor.init]
  split_ifs <;> rfl

/-- A thread runs on unless it has ended. -/
theorem runsAt_settle (ended : ℕ → Bool) (processors : List Processor) (k : ℕ) :
    RunsAt (settle ended processors) k = (RunsAt processors k && !ended k) := by
  rw [RunsAt, RunsAt, settle, List.getElem?_mapIdx]
  cases processors[k]? with
  | none => rfl
  | some p =>
    simp only [Option.map_some, Option.any_some]
    cases hrunning : p.running <;> cases hended : ended k <;> simp [hrunning, Processor.finish]

/-- A command by itself ends no thread. -/
theorem runsAt_modify (processors : List Processor) (j k : ℕ) :
    RunsAt (processors.modify j Processor.cmdClose) k = RunsAt processors k := by
  rw [RunsAt, RunsAt, List.getElem?_modify]
  cases processors[k]? with
  | none => rfl
  | some p =>
    simp only [Option.map_eq_map, Option.map_some, Option.any_some]
    split_ifs <;> rfl

theorem runsAt_concat_of_lt {processors : List Processor} {k : ℕ} (h : k < processors.length) (p : Processor) :
    RunsAt (processors ++ [p]) k = RunsAt processors k := by
  rw [RunsAt, RunsAt, List.getElem?_append_left h]

theorem runsAt_concat_length (processors : List Processor) (p : Processor) :
    RunsAt (processors ++ [p]) processors.length = p.running := by
  rw [RunsAt, List.getElem?_concat_length, Option.any_some]

/-! ## The loop over the array -/

/-- The entries in front of the first `null` all get `cmd_close`, and no thread ends by that. -/
theorem closeAll_spec (processors : List Processor) (ks : List ℕ) (rest : List (Option ℕ)) :
    ∃ processors', closeAll processors (ks.map some ++ rest)
        = ((closeAll processors' rest).1, ks ++ (closeAll processors' rest).2.1, (closeAll processors' rest).2.2)
      ∧ processors'.length = processors.length
      ∧ (∀ k ∈ ks, StoppedAt processors' k)
      ∧ (∀ k, StoppedAt processors k → StoppedAt processors' k)
      ∧ ∀ k, RunsAt processors' k = RunsAt processors k := by
  induction ks generalizing processors with
  | nil => exact ⟨processors, rfl, rfl, fun k hk => absurd hk List.not_mem_nil, fun k hk => hk, fun _ => rfl⟩
  | cons k ks ih =>
    obtain ⟨processors', heq, hlength, hstopped, hkept, hruns⟩ := ih (processors.modify k Processor.cmdClose)
    refine ⟨processors', ?_, ?_, ?_, fun j hj => hkept j (hj.modify k), fun j => ?_⟩
    · rw [List.map_cons, List.cons_append, closeAll, heq]
      rfl
    · rw [hlength, List.length_modify]
    · rw [List.forall_mem_cons]
      exact ⟨hkept k (stoppedAt_modify_self processors k), hstopped⟩
    · rw [hruns, runsAt_modify]

/-- `cmd_close` and the first loop of `stop_proc` on an array with `k` processors and then `null`s. -/
theorem closeAll_range (processors : List Processor) (k left : ℕ) :
    ∃ processors', closeAll processors ((List.range k).map some ++ List.replicate left none)
        = (processors', List.range k, if left = 0 then .ok () else .error .nullPointer)
      ∧ processors'.length = processors.length ∧ (∀ j < k, StoppedAt processors' j)
      ∧ ∀ j, RunsAt processors' j = RunsAt processors j := by
  obtain ⟨processors', heq, hlength, hstopped, -, hruns⟩ :=
    closeAll_spec processors (List.range k) (List.replicate left none)
  refine ⟨processors', ?_, hlength, fun j hj => hstopped j (List.mem_range.mpr hj), hruns⟩
  rw [heq]
  cases left with
  | zero => rw [List.replicate_zero, closeAll, List.append_nil, if_pos rfl]
  | succ left => rw [List.replicate_succ, closeAll, List.append_nil, if_neg (Nat.succ_ne_zero left)]

/-! ## `start_proc` -/

/-- The loop has filled the array up to the index `i`. The threads that have not ended in a turn so far still run. -/
structure Filled (ended : ℕ → ℕ → Bool) (r : Router) (i left : ℕ) : Prop where
  proc : r.proc = some ((List.range i).map some ++ List.replicate left none)
  length : r.processors.length = i
  running : ∀ k < i, (RunsAt r.processors k = true ↔ ∀ j, k < j → j < i → ended j k = false)

/-- The state after a failure at the index `i`: the failed processor has no thread. -/
structure Failed (ended : ℕ → ℕ → Bool) (r : Router) (i left : ℕ) : Prop where
  proc : r.proc = some ((List.range (i + 1)).map some ++ List.replicate left none)
  length : r.processors.length = i + 1
  running : ∀ k < i, (RunsAt r.processors k = true ↔ ∀ j, k < j → j ≤ i → ended j k = false)
  last : RunsAt r.processors i = false

/-- The table of processors is filled from its front. -/
theorem set_filled (i left : ℕ) :
    ((List.range i).map some ++ List.replicate (left + 1) none).set i (some i)
      = (List.range (i + 1)).map some ++ List.replicate left none := by
  rw [List.set_append_right _ _ (by simp), List.length_map, List.length_range, Nat.sub_self, List.replicate_succ,
    List.set_cons_zero, List.range_succ, List.map_append, List.append_assoc]
  rfl

/-- A turn is one more in which a thread can end. -/
theorem Filled.running_settle {ended : ℕ → ℕ → Bool} {r : Router} {i left k : ℕ} (h : Filled ended r i left)
    (hk : k < i) (p : Processor) :
    RunsAt (settle (ended i) r.processors ++ [p]) k = true ↔ ∀ j, k < j → j ≤ i → ended j k = false := by
  have hlength : k < (settle (ended i) r.processors).length := by rw [length_settle, h.length]; exact hk
  rw [runsAt_concat_of_lt hlength, runsAt_settle, Bool.and_eq_true, h.running k hk, Bool.not_eq_true']
  constructor
  · rintro ⟨hbefore, hnow⟩ j hkj hji
    rcases hji.lt_or_eq with hlt | rfl
    · exact hbefore j hkj hlt
    · exact hnow
  · exact fun hall => ⟨fun j hkj hji => hall j hkj hji.le, hall i hk le_rfl⟩

theorem Filled.running_concat {ended : ℕ → ℕ → Bool} {r : Router} {i left : ℕ} (h : Filled ended r i left)
    (p : Processor) : RunsAt (settle (ended i) r.processors ++ [p]) i = p.running := by
  have hlast := runsAt_concat_length (settle (ended i) r.processors) p
  rwa [length_settle, h.length] at hlast

/-- One turn that goes well. -/
theorem startFrom_cons_ok {ended : ℕ → ℕ → Bool} {i left : ℕ} {inter : Interface} {r : Router}
    (hok : ¬ inter.Fails) (hfilled : Filled ended r i (left + 1)) (interfaces : List Interface) :
    ∃ r', startFrom ended i (inter :: interfaces) r = startFrom ended (i + 1) interfaces r'
      ∧ Filled ended r' (i + 1) left := by
  refine ⟨{ r with
    proc := r.proc.map (·.set i (some i))
    processors := settle (ended i) r.processors ++ [((Processor.new (i + 1)).init inter).1.fork] }, ?_, ?_, ?_, ?_⟩
  · rw [startFrom]
    simp only [if_neg (init_of_not_fails hok _)]
  · rw [hfilled.proc, Option.map_some, set_filled]
  · rw [List.length_append, length_settle, hfilled.length]
    rfl
  · intro k hk
    rcases Nat.lt_succ_iff_lt_or_eq.mp hk with hlt | rfl
    · rw [hfilled.running_settle hlt]
      exact forall_congr' fun j => by rw [Nat.lt_succ_iff]
    · rw [hfilled.running_concat]
      exact iff_of_true rfl fun j hkj hjk => by omega

/-- The turn that fails: the processors up to the failed one are closed, the rest of the array is `null`. -/
theorem startFrom_cons_fails {ended : ℕ → ℕ → Bool} {i left : ℕ} {inter : Interface} {r : Router}
    (hfails : inter.Fails) (hfilled : Filled ended r i (left + 1)) (interfaces : List Interface) :
    (startFrom ended i (inter :: interfaces) r).result
        = (if left = 0 then .ok RET_ERROR else .error .nullPointer)
      ∧ (startFrom ended i (inter :: interfaces) r).closed = List.range (i + 1)
      ∧ Failed ended (startFrom ended i (inter :: interfaces) r).router i left := by
  have hproc : r.proc.map (·.set i (some i)) = some ((List.range (i + 1)).map some ++ List.replicate left none) := by
    rw [hfilled.proc, Option.map_some, set_filled]
  obtain ⟨processors', hclose, hlength, -, hruns⟩ := closeAll_range
    (settle (ended i) r.processors ++ [((Processor.new (i + 1)).init inter).1]) (i + 1) left
  rw [List.length_append, length_settle, hfilled.length] at hlength
  have hrunning : ∀ k < i, (RunsAt processors' k = true ↔ ∀ j, k < j → j ≤ i → ended j k = false) :=
    fun k hk => by rw [hruns, hfilled.running_settle hk]
  have hlast : RunsAt processors' i = false := by rw [hruns, hfilled.running_concat, running_init]; rfl
  rw [startFrom]
  simp only [if_pos (init_of_fails hfails _), hproc, cmdClose, hclose]
  by_cases hzero : left = 0
  · simp only [if_pos hzero]
    exact ⟨rfl, trivial, rfl, hlength, hrunning, hlast⟩
  · simp only [if_neg hzero]
    exact ⟨rfl, trivial, rfl, hlength, hrunning, hlast⟩

/-- The turns up to the failure. -/
theorem startFrom_front {ended : ℕ → ℕ → Bool} {front : List Interface} (hfront : ∀ inter ∈ front, ¬ inter.Fails)
    (rest : List Interface) {i : ℕ} {r : Router} (hfilled : Filled ended r i (front.length + rest.length)) :
    ∃ r', startFrom ended i (front ++ rest) r = startFrom ended (i + front.length) rest r'
      ∧ Filled ended r' (i + front.length) rest.length := by
  induction front generalizing i r with
  | nil =>
    rw [List.length_nil, Nat.zero_add] at hfilled
    exact ⟨r, rfl, hfilled⟩
  | cons inter front ih =>
    rw [List.forall_mem_cons] at hfront
    rw [List.length_cons, Nat.add_right_comm] at hfilled
    obtain ⟨r', hturn, hfilled'⟩ := startFrom_cons_ok hfront.1 hfilled (front ++ rest)
    obtain ⟨r'', hturns, hfilled''⟩ := ih hfront.2 hfilled'
    refine ⟨r'', ?_, ?_⟩
    · rw [List.cons_append, hturn, hturns, List.length_cons, Nat.add_right_comm, Nat.add_assoc i]
    · rwa [List.length_cons, Nat.add_comm front.length 1, ← Nat.add_assoc]

/-! ## `stop_proc` -/

/-- When the flags of all processors say that they stop, the loop takes two turns, whatever the threads do. -/
theorem wait_stopped (ended : ℕ → ℕ → Bool) {processors : List Processor} {k : ℕ}
    (h : ∀ j < k + 1, StoppedAt processors j) :
    wait ended 0 0 processors ((List.range (k + 1)).map some) = none
      ∧ wait ended 0 1 processors ((List.range (k + 1)).map some) = none
      ∧ ∀ turns, wait ended 0 (turns + 2) processors ((List.range (k + 1)).map some)
        = some (settle (ended 1) (settle (ended 0) processors)) := by
  have hstopped (j : ℕ) (hj : j < k + 1) : (settle (ended 0) processors)[j]?.elim true Processor.isStop = true := by
    cases hp : (settle (ended 0) processors)[j]? with
    | none => rfl
    | some p => exact (h j hj).settle (ended 0) p hp
  have hnone : (waitTurn (settle (ended 0) processors) ((List.range (k + 1)).map some)).1
      = List.replicate (k + 1) none := by
    refine List.eq_replicate_iff.mpr ⟨by simp [waitTurn], fun entry hentry => ?_⟩
    simp only [waitTurn, List.map_map, List.mem_map, List.mem_range] at hentry
    obtain ⟨j, hj, rfl⟩ := hentry
    simp only [Function.comp_apply, Option.bind_some, if_pos (hstopped j hj)]
  have hfirst : (waitTurn (settle (ended 0) processors) ((List.range (k + 1)).map some)).2 = true := by
    rw [waitTurn, List.range_succ_eq_map]
    rfl
  have hlast (processors : List Processor) : (waitTurn processors (List.replicate (k + 1) none)).2 = false := by
    rw [waitTurn, List.any_eq_false]
    intro entry hentry
    rw [List.eq_of_mem_replicate hentry]
    decide
  have hturn (turns : ℕ) : wait ended 0 (turns + 1) processors ((List.range (k + 1)).map some)
      = wait ended 1 turns (settle (ended 0) processors) (List.replicate (k + 1) none) := by
    rw [wait, ← Prod.mk.eta (p := waitTurn _ _), hfirst, hnone]
  refine ⟨rfl, hturn 0, fun turns => ?_⟩
  rw [hturn, wait, ← Prod.mk.eta (p := waitTurn _ _), hlast]

/-- A thread runs no more behind two turns if and only if it ends in time. -/
theorem Failed.not_runs_iff {ended ended' : ℕ → ℕ → Bool} {r : Router} {i left k : ℕ} (h : Failed ended r i left)
    (hk : k < i) :
    (RunsAt r.processors k && !ended' 0 k && !ended' 1 k) = false ↔ EndsInTime ended ended' i k := by
  rw [Bool.and_eq_false_iff, Bool.and_eq_false_iff, Bool.not_eq_false', Bool.not_eq_false', or_assoc]
  refine or_congr_left ?_
  rw [← Bool.not_eq_true, h.running k hk]
  simp only [not_forall, Bool.not_eq_false, exists_prop]

/-- The threads that are left behind two turns are those that did not end in time. -/
theorem Failed.all_ended_iff {ended ended' : ℕ → ℕ → Bool} {r : Router} {i left : ℕ} (h : Failed ended r i left)
    {processors : List Processor} (hlength : processors.length = r.processors.length)
    (hruns : ∀ k, RunsAt processors k = RunsAt r.processors k) :
    (∀ p ∈ settle (ended' 1) (settle (ended' 0) processors), p.running = false)
      ↔ ∀ k < i, EndsInTime ended ended' i k := by
  have hend (k : ℕ) : RunsAt (settle (ended' 1) (settle (ended' 0) processors)) k
      = (RunsAt r.processors k && !ended' 0 k && !ended' 1 k) := by
    rw [runsAt_settle, runsAt_settle, hruns]
  have hlen : (settle (ended' 1) (settle (ended' 0) processors)).length = i + 1 := by
    rw [length_settle, length_settle, hlength, h.length]
  have hindex : (∀ p ∈ settle (ended' 1) (settle (ended' 0) processors), p.running = false)
      ↔ ∀ k < i + 1, RunsAt (settle (ended' 1) (settle (ended' 0) processors)) k = false := by
    rw [List.forall_mem_iff_getElem, ← hlen]
    refine forall_congr' fun k => forall_congr' fun hk => ?_
    rw [RunsAt, List.getElem?_eq_getElem hk, Option.any_some]
  rw [hindex]
  constructor
  · intro hnone k hk
    exact (h.not_runs_iff hk).mp ((hend k).symm.trans (hnone k (by omega)))
  · intro hends k hk
    rw [hend]
    rcases Nat.lt_succ_iff_lt_or_eq.mp hk with hlt | rfl
    · exact (h.not_runs_iff hlt).mpr (hends k hlt)
    · rw [h.last]
      rfl

/-- On an array without a `null`, `stop_proc` ends without an exception, and the threads that are left then are those
that did not end in time. -/
theorem stopProc_failed {ended ended' : ℕ → ℕ → Bool} {r : Router} {i : ℕ} (h : Failed ended r i 0) :
    (∃ turns outcome, stopProc ended' turns r = some outcome ∧ outcome.result = .ok ()
        ∧ ∀ p ∈ outcome.router.processors, p.running = false)
      ↔ ∀ k < i, EndsInTime ended ended' i k := by
  obtain ⟨processors, hclose, hlength, hstopped, hruns⟩ := closeAll_range r.processors (i + 1) 0
  obtain ⟨hwait0, hwait1, hwait2⟩ := wait_stopped ended' hstopped
  rw [List.replicate_zero, List.append_nil, if_pos rfl] at hclose
  have hproc := h.proc
  rw [List.replicate_zero, List.append_nil] at hproc
  have hstop (turns : ℕ) : stopProc ended' turns r
      = (wait ended' 0 turns processors ((List.range (i + 1)).map some)).map fun processors =>
          ⟨{ r with proc := none, processors := processors }, List.range (i + 1), .ok ()⟩ := by
    rw [stopProc, hproc]
    simp only [hclose]
  rw [← h.all_ended_iff hlength hruns]
  constructor
  · rintro ⟨turns, outcome, hsome, -, hrunning⟩
    rw [hstop] at hsome
    match turns with
    | 0 => rw [hwait0] at hsome; cases hsome
    | 1 => rw [hwait1] at hsome; cases hsome
    | turns + 2 =>
      rw [hwait2, Option.map_some] at hsome
      obtain rfl := Option.some.inj hsome
      exact hrunning
  · intro hrunning
    refine ⟨2, ⟨{ r with proc := none, processors := settle (ended' 1) (settle (ended' 0) processors) },
      List.range (i + 1), .ok ()⟩, ?_, rfl, hrunning⟩
    rw [hstop, hwait2 0, Option.map_some]

/-- A failed start goes as it should if and only if the interface that fails is the last one, and the threads of those
in front of it end in time. -/
theorem startFailure_iff {parse : JString → Option (List Interface)} {r : Router} {str_cfg : JString}
    {front back : List Interface} {inter : Interface} (hstr : r.strCfg = some str_cfg)
    (hparse : parse str_cfg = some (front ++ inter :: back)) (hfront : ∀ inter ∈ front, ¬ inter.Fails)
    (hfails : inter.Fails) (ended ended' : ℕ → ℕ → Bool) :
    StartFailure parse ended ended' r front.length
      ↔ back = [] ∧ ∀ k < front.length, EndsInTime ended ended' front.length k := by
  have hstart : startProc parse ended r = startFrom ended 0 (front ++ inter :: back)
      { r with proc := some (List.replicate (front ++ inter :: back).length none), processors := [] } := by
    rw [startProc, hstr]
    simp only [hparse]
  have hempty : Filled ended
      { r with proc := some (List.replicate (front ++ inter :: back).length none), processors := [] } 0
      (front.length + (inter :: back).length) :=
    ⟨by rw [List.length_append]; rfl, rfl, fun k hk => absurd hk (Nat.not_lt_zero k)⟩
  obtain ⟨r', hfrom, hfilled⟩ := startFrom_front hfront (inter :: back) hempty
  rw [Nat.zero_add] at hfrom hfilled
  obtain ⟨hresult, hclosed, hfailed⟩ := startFrom_cons_fails hfails hfilled back
  rw [← hfrom, ← hstart] at hresult hclosed hfailed
  constructor
  · intro h
    obtain rfl : back = [] := by
      by_contra hne
      rw [if_neg (mt List.length_eq_zero_iff.mp hne), h.returned] at hresult
      cases hresult
    exact ⟨rfl, (stopProc_failed hfailed).mp h.stopped⟩
  · rintro ⟨rfl, hends⟩
    refine ⟨hresult, fun k hk => ?_, (stopProc_failed hfailed).mpr hends⟩
    rw [hclosed, List.mem_range]
    omega

/-- The second of two interfaces fails, and the thread of the first one ends while `stop_proc` waits. -/
theorem startFailure_second :
    StartFailure (fun _ => some [⟨true, true, true, [true]⟩, ⟨true, false, true, []⟩]) (fun _ _ => false)
      (fun turn _ => turn = 1) ⟨CMD_RUN, 1, none, [], some []⟩ 1 :=
  (@startFailure_iff _ _ [] [⟨true, true, true, [true]⟩] [] ⟨true, false, true, []⟩ rfl rfl
    (fun inter hmem => by
      rw [List.mem_singleton.mp hmem, Interface.Fails]
      decide)
    (.inr (.inl rfl)) _ _).mpr ⟨rfl, fun _ _ => .inr (.inr rfl)⟩

/-- The first of two interfaces fails. -/
theorem not_startFailure_first :
    ¬ StartFailure (fun _ => some [⟨false, true, true, []⟩, ⟨true, true, true, [true]⟩]) (fun _ _ => false)
      (fun _ _ => true) ⟨CMD_RUN, 1, none, [], some []⟩ 0 := by
  intro h
  have hresult : (startProc (fun _ => some [⟨false, true, true, []⟩, ⟨true, true, true, [true]⟩]) (fun _ _ => false)
      ⟨CMD_RUN, 1, none, [], some []⟩).result = .error .nullPointer := rfl
  have hreturned := h.returned
  rw [hresult] at hreturned
  cases hreturned

end OrgLittle.Mq.Routing
