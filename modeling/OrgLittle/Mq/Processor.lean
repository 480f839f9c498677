import OrgLittle.Lib.Machine
import OrgLittle.Lib.UnitOfWork
import OrgLittle.Mq.UfpsParser
import OrgLittle.Util.StringWildCard

/-!
# `Processor`: a router between queues

A processor gets a message, looks up the queues for its addresses, puts a copy into each of them (or one into the
error queue) and commits. The queues are opened under syncpoint. When a put or the commit throws, the loop
goes on with the next message and does not back out, so that the next commit covers both; and the lookup
has a wrong index that ends the thread.
-/

namespace OrgLittle.Mq

open OrgLittle.Java OrgLittle.Lib OrgLittle.Util

/-! ## `cfg_addr`, `cfg_point` and `cfg_interface` -/

/-- A `cfg_point`. Its parser demands a mask and a queue. -/
structure CfgPoint where
  queueName : JString
  qmName : Option JString
  mask : JString
  isLast : Bool
deriving DecidableEq

namespace CfgPoint

/-- `getID`. -/
def getID (p : CfgPoint) : JString := p.queueName ++ "@".toList ++ p.qmName.getD "null".toList

/-- `equals(cfg_addr)`. Two points without a manager cannot be compared. -/
def equals (p q : CfgPoint) : Except JavaException Bool :=
  if p.queueName ≠ q.queueName then .ok false
  else
    match p.qmName, q.qmName with
    | some _, none => .ok false
    | none, some _ => .ok false
    | none, none => .error .nullPointer
    | some a, some b => .ok (a = b)

end CfgPoint

/-- A `cfg_interface`, with the default route at the end of the masks. -/
structure CfgInterface where
  error : JString
  maskRoute : List CfgPoint
deriving DecidableEq

namespace CfgInterface

/-- The inner loop of `getRoute`, with `count` turns left. It reads the address at `i`, the index of the mask. -/
def isNew (p : CfgPoint) (i : ℕ) (outqueue : List CfgPoint) : ℕ → Except JavaException Bool
  | 0 => .ok true
  | count + 1 =>
    match outqueue[i]? with
    | none => .error .indexOutOfBounds
    | some pp =>
      match p.equals pp with
      | .error e => .error e
      | .ok true => .ok false
      | .ok false => isNew p i outqueue count

/-- `getRoute`, from the mask with the index `i` on. -/
def getRoute (uicTo : JString) (outqueue : List CfgPoint) (i : ℕ) :
    List CfgPoint → Except JavaException (List CfgPoint)
  | [] => .ok outqueue
  | p :: masks =>
    if StringWildCard.wildcardMatch (some (utf16 uicTo)) (some (utf16 p.mask)) .SENSITIVE then
      match isNew p i outqueue outqueue.length with
      | .error e => .error e
      | .ok new =>
        let outqueue := if new then outqueue ++ [p] else outqueue
        if p.isLast then .ok outqueue else getRoute uicTo outqueue (i + 1) masks
    else getRoute uicTo outqueue (i + 1) masks

end CfgInterface

/-! ## `Processor` -/

namespace Processor

/-- `route`. The return code of the parser is not looked at. -/
def route (cfg : CfgInterface) (reader : StaxReader) (m : MqMsg) :
    Except JavaException (Option (List CfgPoint)) :=
  match reader m with
  | none => .ok none
  | some events => do
    let outqueue ← (UfpsParser.parse [] none events).tos.foldlM
      (fun outqueue uis => CfgInterface.getRoute uis outqueue 0 cfg.maskRoute) []
    return if outqueue = [] then none else some outqueue

/-- The queues that a message goes to. -/
def targets (cfg : CfgInterface) : Option (List CfgPoint) → List JString
  | some outqueue => outqueue.map CfgPoint.getID
  | none => [cfg.error]

/-- The answer of `q_in.get`: the next message if there is one, or a message that is too long, or an exception. -/
inductive GetAnswer
  | message
  | tooLong (size : ℕ)
  | exception
deriving DecidableEq

/-- What MQ does in one turn of the loop; `put n` says whether the `n`-th put succeeds. -/
structure Turn where
  get : GetAnswer
  put : ℕ → Bool
  commit : UnitOfWork.CommitAnswer

/-- A message arrives at the input queue, the loop makes a turn, or somebody calls `cmd_close`. -/
inductive Input
  | arrive (m : MqMsg)
  | turn (t : Turn)
  | cmdClose

/-- Whether the thread runs, has left the loop, or has died of an exception. -/
inductive ThreadState
  | running | stopped | dead
deriving DecidableEq

/-- The state of a processor and of its queues. -/
structure State where
  thread : ThreadState
  unit : UnitOfWork JString MqMsg
deriving DecidableEq

/-- A successful commit, with all that was got and put since the last. -/
inductive Event
  | committed (gets : List MqMsg) (puts : List (JString × MqMsg))
deriving DecidableEq

/-- `def.BFRLNGTH_MAX`. -/
def BFRLNGTH_MAX : ℕ := 314572800

/-- The puts of one message, up to the first exception. `n` counts them. -/
def putAll (put : ℕ → Bool) (m : MqMsg) :
    List JString → ℕ → UnitOfWork JString MqMsg → UnitOfWork JString MqMsg × Bool
  | [], _, u => (u, true)
  | q :: qs, n, u => if put n then putAll put m qs (n + 1) (u.put q m) else (u, false)

/-- `qm.commit()`. -/
def commit (answer : UnitOfWork.CommitAnswer) (u : UnitOfWork JString MqMsg) :
    UnitOfWork JString MqMsg × List Event :=
  match answer with
  | .done => (u.commit, [.committed u.gets u.puts])
  | .failed => (u, [])
  | .backedOut => (u.backout, [])

/-- The part of a turn after a message was got. -/
def process (cfg : CfgInterface) (reader : StaxReader) (t : Turn) (m : MqMsg)
    (u : UnitOfWork JString MqMsg) : State × List Event :=
  match route cfg reader m with
  | .error _ => (⟨.dead, u⟩, [])
  | .ok outqueue =>
    match putAll t.put m (targets cfg outqueue) 0 u with
    | (u, true) => (⟨.running, (commit t.commit u).1⟩, (commit t.commit u).2)
    | (u, false) => (⟨.running, u⟩, [])

/-- One turn of the loop. -/
def turn (cfg : CfgInterface) (reader : StaxReader) (t : Turn) (s : State) : State × List Event :=
  match t.get with
  | .exception => ({ s with thread := .stopped }, [])
  | .tooLong size => (if size > BFRLNGTH_MAX then { s with thread := .stopped } else s, [])
  | .message =>
    match s.unit.get with
    | none => (s, [])
    | some (m, u) => process cfg reader t m u

end Processor

/-- A processor as a machine. -/
def processor (cfg : CfgInterface) (reader : StaxReader) :
    Machine Processor.State Processor.Input Processor.Event where
  step s
    | .arrive m => ({ s with unit := s.unit.arrive m }, [])
    | .turn t => if s.thread = .running then Processor.turn cfg reader t s else (s, [])
    | .cmdClose => (if s.thread = .running then { s with thread := .stopped } else s, [])

/-! ## Atomicity -/

namespace Processor

variable {cfg : CfgInterface} {reader : StaxReader}

/-- The copies that are due for a message, if `route` does not throw. -/
def copies (cfg : CfgInterface) (reader : StaxReader) (m : MqMsg) : Option (List (JString × MqMsg)) :=
  match route cfg reader m with
  | .ok outqueue => some ((targets cfg outqueue).map fun q => (q, m))
  | .error _ => none

/-- The message that a step gets. -/
def got (s : State) : Input → Option MqMsg
  | .turn t => if s.thread = .running ∧ t.get = .message then s.unit.source.head? else none
  | _ => none

/-- A step is atomic: a commit covers one message and all its copies, and a message that was got and not
committed is back in its queue together with all else that was got, and its puts are gone. -/
def Atomic (cfg : CfgInterface) (reader : StaxReader) (s : State) (i : Input) : Prop :=
  let next := (processor cfg reader).step s i
  (∀ gets puts, .committed gets puts ∈ next.2 → ∃ m, gets = [m] ∧ copies cfg reader m = some puts)
    ∧ ∀ m, got s i = some m → next.2 = [] → next.1.unit = s.unit.backout

/-- `route` does not throw for the message, all its puts succeed, and the commit succeeds or is turned into a
backout by the queue manager. -/
def Passes (cfg : CfgInterface) (reader : StaxReader) (t : Turn) (m : MqMsg) : Prop :=
  ∃ outqueue, route cfg reader m = .ok outqueue
    ∧ (∀ n < (targets cfg outqueue).length, t.put n = true) ∧ t.commit ≠ .failed

/-- The message that the step gets, if any, passes. -/
def Settles (cfg : CfgInterface) (reader : StaxReader) (s : State) : Input → Prop
  | .turn t => ∀ m, got s (.turn t) = some m → Passes cfg reader t m
  | _ => True

@[simp] theorem putAll_gets (put : ℕ → Bool) (m : MqMsg) (qs : List JString) (n : ℕ)
    (u : UnitOfWork JString MqMsg) : (putAll put m qs n u).1.gets = u.gets := by
  induction qs generalizing n u with
  | nil => rfl
  | cons q qs ih =>
    rw [putAll]
    split
    · exact ih _ _
    · rfl

/-- The puts are backed out with the rest. -/
@[simp] theorem putAll_backout (put : ℕ → Bool) (m : MqMsg) (qs : List JString) (n : ℕ)
    (u : UnitOfWork JString MqMsg) : (putAll put m qs n u).1.backout = u.backout := by
  induction qs generalizing n u with
  | nil => rfl
  | cons q qs ih =>
    rw [putAll]
    split
    · rw [ih, UnitOfWork.backout_put]
    · rfl

/-- Without an exception every queue has its copy. -/
theorem putAll_puts {put : ℕ → Bool} {m : MqMsg} {qs : List JString} {n : ℕ}
    {u u' : UnitOfWork JString MqMsg} (h : putAll put m qs n u = (u', true)) :
    u'.puts = u.puts ++ qs.map fun q => (q, m) := by
  induction qs generalizing n u with
  | nil =>
    obtain ⟨rfl, -⟩ := Prod.mk.inj h
    simp
  | cons q qs ih =>
    rw [putAll] at h
    split at h
    · rw [ih h]
      simp [UnitOfWork.put]
    · cases h

theorem putAll_isOk (put : ℕ → Bool) (m : MqMsg) (qs : List JString) (n : ℕ)
    (u : UnitOfWork JString MqMsg) :
    (putAll put m qs n u).2 = true ↔ ∀ k < qs.length, put (n + k) = true := by
  induction qs generalizing n u with
  | nil => simp [putAll]
  | cons q qs ih =>
    rw [putAll, List.length_cons, Nat.forall_lt_succ_left]
    by_cases hput : put n = true
    · simp only [hput, if_true, ih, Nat.add_zero, true_and]
      refine forall₂_congr fun k _ => ?_
      rw [Nat.add_right_comm, Nat.add_assoc]
    · simp [hput]

/-- A step that gets no message commits nothing and leaves an empty unit of work empty. -/
theorem step_idle (cfg : CfgInterface) (reader : StaxReader) {s : State} {i : Input} (h : got s i = none) :
    ((processor cfg reader).step s i).2 = []
      ∧ (s.unit.Settled → ((processor cfg reader).step s i).1.unit.Settled) := by
  cases i with
  | arrive m => exact ⟨rfl, fun hs => hs.arrive m⟩
  | cmdClose =>
    refine ⟨rfl, fun hs => ?_⟩
    change (if s.thread = .running then { s with thread := .stopped } else s).unit.Settled
    split <;> exact hs
  | turn t =>
    change (if s.thread = .running then Processor.turn cfg reader t s else (s, [])).2 = []
      ∧ (_ → (if s.thread = .running then Processor.turn cfg reader t s else (s, [])).1.unit.Settled)
    split
    · next hrunning =>
      rw [Processor.turn]
      split
      · exact ⟨rfl, fun hs => hs⟩
      · refine ⟨rfl, fun hs => ?_⟩
        dsimp only
        split <;> exact hs
      · next hget =>
        have hsource : s.unit.source = [] := by
          simpa [got, hrunning, hget] using h
        rw [UnitOfWork.get, hsource]
        exact ⟨rfl, fun hs => hs⟩
    · exact ⟨rfl, fun hs => hs⟩

theorem step_got (cfg : CfgInterface) (reader : StaxReader) {s : State} {t : Turn} {m : MqMsg}
    (h : got s (.turn t) = some m) :
    ∃ u, s.unit.get = some (m, u) ∧ u.gets = s.unit.gets ++ [m] ∧ u.puts = s.unit.puts
      ∧ (processor cfg reader).step s (.turn t) = process cfg reader t m u := by
  rw [got] at h
  split at h
  · next hturn =>
    obtain ⟨rest, hsource⟩ := List.head?_eq_some_iff.mp h
    have hget : s.unit.get = some (m, { s.unit with source := rest, gets := s.unit.gets ++ [m] }) := by
      rw [UnitOfWork.get, hsource]
    refine ⟨_, hget, rfl, rfl, ?_⟩
    change (if s.thread = .running then Processor.turn cfg reader t s else (s, [])) = _
    rw [if_pos hturn.1, Processor.turn, hturn.2]
    simp only [hget]
  · cases h

/-- What comes of a message that was got, and when. -/
inductive Outcome (cfg : CfgInterface) (reader : StaxReader) (t : Turn) (m : MqMsg)
    (u : UnitOfWork JString MqMsg) : State × List Event → Prop
  | died (e : JavaException) (hroute : route cfg reader m = .error e) :
    Outcome cfg reader t m u (⟨.dead, u⟩, [])
  | putFailed (outqueue : Option (List CfgPoint)) (hroute : route cfg reader m = .ok outqueue)
      (hput : ¬ ∀ n < (targets cfg outqueue).length, t.put n = true) (u' : UnitOfWork JString MqMsg)
      (hgets : u'.gets = u.gets) : Outcome cfg reader t m u (⟨.running, u'⟩, [])
  | ended (outqueue : Option (List CfgPoint)) (hroute : route cfg reader m = .ok outqueue)
      (hput : ∀ n < (targets cfg outqueue).length, t.put n = true) (u' : UnitOfWork JString MqMsg)
      (hgets : u'.gets = u.gets) (hbackout : u'.backout = u.backout)
      (hputs : u'.puts = u.puts ++ (targets cfg outqueue).map fun q => (q, m)) :
    Outcome cfg reader t m u (⟨.running, (commit t.commit u').1⟩, (commit t.commit u').2)

theorem process_spec (cfg : CfgInterface) (reader : StaxReader) (t : Turn) (m : MqMsg) (u : UnitOfWork JString MqMsg) :
    Outcome cfg reader t m u (process cfg reader t m u) := by
  rw [process]
  split
  · next e hroute => exact .died e hroute
  · next outqueue hroute =>
    have hok := putAll_isOk t.put m (targets cfg outqueue) 0 u
    have hgets := putAll_gets t.put m (targets cfg outqueue) 0 u
    have hbackout := putAll_backout t.put m (targets cfg outqueue) 0 u
    simp only [Nat.zero_add] at hok
    split
    · next u' hput =>
      rw [hput] at hok hgets hbackout
      exact .ended outqueue hroute (hok.mp rfl) u' hgets hbackout (putAll_puts hput)
    · next u' hput =>
      rw [hput] at hok hgets
      exact .putFailed outqueue hroute (fun hall => absurd (hok.mpr hall) (by simp)) u' hgets

/-- A unit of work that still has the message is not backed out. -/
theorem not_backout {s u : UnitOfWork JString MqMsg} {m : MqMsg} (hgets : u.gets = [m]) : u ≠ s.backout := by
  rintro rfl
  cases hgets

/-- What comes of a message is atomic exactly if nothing fails, and then the unit of work is empty again. -/
theorem Outcome.atomic_iff {t : Turn} {m : MqMsg} {u start : UnitOfWork JString MqMsg} {next : State × List Event}
    (h : Outcome cfg reader t m u next) (hgets : u.gets = [m]) (hputs : u.puts = [])
    (hback : u.backout = start.backout) :
    ((∀ gets puts, .committed gets puts ∈ next.2 → ∃ m, gets = [m] ∧ copies cfg reader m = some puts)
        ∧ (next.2 = [] → next.1.unit = start.backout) ↔ Passes cfg reader t m)
      ∧ (Passes cfg reader t m → next.1.unit.Settled) := by
  cases h with
  | died e hroute =>
    -- the thread dies with the message in its unit of work
    have hfalse : ¬ Passes cfg reader t m := by
      rintro ⟨outqueue, hok, -⟩
      rw [hroute] at hok
      cases hok
    exact ⟨iff_of_false (fun h => not_backout hgets (h.2 rfl)) hfalse, fun h => absurd h hfalse⟩
  | putFailed outqueue hroute hput u' hgets' =>
    have hfalse : ¬ Passes cfg reader t m := by
      rintro ⟨outqueue', hok, hput', -⟩
      rw [hroute] at hok
      cases hok
      exact hput hput'
    exact ⟨iff_of_false (fun h => not_backout (hgets'.trans hgets) (h.2 rfl)) hfalse, fun h => absurd h hfalse⟩
  | ended outqueue hroute hput u' hgets' hbackout hputs' =>
    cases hanswer : t.commit with
    | done =>
      have hpasses : Passes cfg reader t m := ⟨outqueue, hroute, hput, by simp [hanswer]⟩
      refine ⟨iff_of_true ⟨fun gets puts h => ?_, fun h => by cases h⟩ hpasses,
        fun _ => UnitOfWork.settled_commit u'⟩
      obtain ⟨rfl, rfl⟩ : gets = u'.gets ∧ puts = u'.puts := by simpa [commit] using h
      refine ⟨m, hgets'.trans hgets, ?_⟩
      rw [copies, hroute, hputs', hputs, List.nil_append]
    | failed =>
      have hfalse : ¬ Passes cfg reader t m := fun ⟨_, _, _, hcommit⟩ => hcommit hanswer
      exact ⟨iff_of_false (fun h => not_backout (hgets'.trans hgets) (h.2 rfl)) hfalse, fun h => absurd h hfalse⟩
    | backedOut =>
      have hpasses : Passes cfg reader t m := ⟨outqueue, hroute, hput, by simp [hanswer]⟩
      refine ⟨iff_of_true ⟨fun gets puts h => ?_, fun _ => hbackout.trans hback⟩ hpasses,
        fun _ => UnitOfWork.settled_backout u'⟩
      cases h

/-- A step that gets no message is atomic. -/
theorem atomic_idle {s : State} {i : Input} (hgot : got s i = none) :
    Atomic cfg reader s i ∧ Settles cfg reader s i := by
  refine ⟨⟨fun gets puts h => ?_, fun m hm => ?_⟩, ?_⟩
  · rw [(step_idle cfg reader hgot).1] at h
    cases h
  · rw [hgot] at hm
    cases hm
  · cases i with
    | turn t =>
      intro m hm
      rw [hgot] at hm
      cases hm
    | arrive m => trivial
    | cmdClose => trivial

/-- From an empty unit of work, a step is atomic exactly if nothing fails in it, and then the unit of work is empty
again. -/
theorem atomic_step {s : State} (hs : s.unit.Settled) (i : Input) :
    (Atomic cfg reader s i ↔ Settles cfg reader s i)
      ∧ (Settles cfg reader s i → ((processor cfg reader).step s i).1.unit.Settled) := by
  cases hgot : got s i with
  | none =>
    obtain ⟨hatomic, hsettles⟩ := atomic_idle hgot
    exact ⟨iff_of_true hatomic hsettles, fun _ => (step_idle cfg reader hgot).2 hs⟩
  | some m =>
    cases i with
    | arrive m => cases hgot
    | cmdClose => cases hgot
    | turn t =>
      obtain ⟨u, hget, hgets, hputs, hstep⟩ := step_got cfg reader hgot
      rw [hs.gets, List.nil_append] at hgets
      rw [hs.puts] at hputs
      simp only [Atomic, Settles, hgot, Option.some.injEq, forall_eq', hstep]
      exact (process_spec cfg reader t m u).atomic_iff hgets hputs (UnitOfWork.backout_get hget)

end Processor

/-- Over every run of a processor, every commit covers exactly one message with all its copies and every other message
that was got is backed out, if and only if no lookup, put or commit fails. -/
theorem processor_atomic_iff (cfg : CfgInterface) (reader : StaxReader) (source : List MqMsg)
    (is : List Processor.Input) :
    (processor cfg reader).Along (Processor.Atomic cfg reader) ⟨.running, .start source⟩ is
      ↔ (processor cfg reader).Along (Processor.Settles cfg reader) ⟨.running, .start source⟩ is :=
  Machine.along_congr_of_kept (fun s i (hs : s.unit.Settled) h => (Processor.atomic_step hs i).2 h)
    (fun _ i hs => (Processor.atomic_step hs i).1) (UnitOfWork.settled_start source) is

namespace Processor

/-- An interface with one route. -/
def oneRoute : CfgInterface := ⟨"ERROR".toList, [⟨"OUT".toList, some "QM".toList, "*".toList, false⟩]⟩

/-- A reader that finds one address in every message. -/
def oneAddress : StaxReader := fun _ => some [.startElement "To".toList, .characters "uic".toList false]

/-- The put of the first message fails; then the second is processed without a failure. -/
def putFails : List Input := [.turn ⟨.message, fun _ => false, .done⟩, .turn ⟨.message, fun _ => true, .done⟩]

end Processor

open Processor

/-- After a failed put the message stays in the unit of work, and the next commit removes it together with the
next message, although no copy was put. -/
theorem processor_commits_failed_message :
    (processor oneRoute oneAddress).outputs ⟨.running, .start [⟨[1]⟩, ⟨[2]⟩]⟩ putFails
        = [.committed [⟨[1]⟩, ⟨[2]⟩] [("OUT@QM".toList, ⟨[2]⟩)]]
      ∧ ¬ (processor oneRoute oneAddress).Along (Atomic oneRoute oneAddress)
        ⟨.running, .start [⟨[1]⟩, ⟨[2]⟩]⟩ putFails := by
  refine ⟨by decide, fun h => ?_⟩
  exact absurd (h.1.2 ⟨[1]⟩ rfl rfl) (by decide)

end OrgLittle.Mq
