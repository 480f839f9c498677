import OrgLittle.Lib.Machine
import OrgLittle.Lib.UnitOfWork
import OrgLittle.Mq.UfpsParser

/-!
# `copyQ`: copies one queue into another

The program gets a message, parses it for its statistics, puts it into the target and commits. The source is opened
with `openTruncQ`: messages are got without syncpoint, so that no backout gives them back, and those above the
length of the buffer are cut off. A message that does not parse, or whose put or commit fails, is lost.
-/

namespace OrgLittle.Mq

open OrgLittle.Java OrgLittle.Lib

namespace CopyQ

/-- The argument of `setMaxLen`. -/
def maxLen : ℕ := 100000

/-- `MQGMO_ACCEPT_TRUNCATED_MSG`: the message as it is got. -/
def accept (m : MqMsg) : MqMsg := ⟨m.data.take maxLen⟩

/-- `parse`; only whether there is a result matters. -/
def parse (reader : StaxReader) (m : MqMsg) : Bool :=
  match reader m with
  | none => false
  | some events => (UfpsParser.parse [] none events).isOk

/-- The answer of a call of MQ: it is done, it returns another code than `RET_OK`, or it throws. -/
inductive Answer
  | ok | notOk | exception
deriving DecidableEq

/-- What MQ does in one turn of the loop; `backout` says whether a backout succeeds. -/
structure Turn where
  get : Answer
  put : Answer
  commit : UnitOfWork.CommitAnswer
  backout : Bool
deriving DecidableEq

/-- A message arrives at the source, the loop makes a turn, or the loop is stopped from outside (the global flag is
shared by all copies). -/
inductive Input
  | arrive (m : MqMsg)
  | turn (t : Turn)
  | close
deriving DecidableEq

/-- The state of the program and of its two queues. -/
structure State where
  isStop : Bool
  unit : UnitOfWork Unit MqMsg
deriving DecidableEq

/-- The part of a turn after a message was got. -/
def process (reader : StaxReader) (t : Turn) (m : MqMsg) (u : UnitOfWork Unit MqMsg) : State :=
  if parse reader m then
    match t.put with
    | .ok =>
      match t.commit with
      | .done => ⟨false, (u.put () m).commit⟩
      | .failed => ⟨true, u.put () m⟩
      | .backedOut => ⟨true, (u.put () m).backout⟩
    | .notOk => if t.backout then ⟨false, u.backout⟩ else ⟨true, u⟩
    | .exception => ⟨true, u⟩
  else ⟨false, u⟩

/-- One turn of the loop. -/
def turn (reader : StaxReader) (t : Turn) (s : State) : State :=
  match t.get with
  | .exception => { s with isStop := true }
  | .notOk => s
  | .ok =>
    match s.unit.take with
    | none => s
    | some (m, u) => process reader t (accept m) u

end CopyQ

/-- `copyQ` as a machine. -/
def copyQ (reader : StaxReader) : Machine CopyQ.State CopyQ.Input Unit where
  step s
    | .arrive m => ({ s with unit := s.unit.arrive m }, [])
    | .turn t => (if s.isStop then s else CopyQ.turn reader t s, [])
    | .close => ({ s with isStop := true }, [])

/-! ## No message is lost -/

namespace CopyQ

variable {reader : StaxReader}

/-- The message that a step gets. -/
def got (s : State) : Input → Option MqMsg
  | .turn t => if s.isStop = false ∧ t.get = .ok then s.unit.source.head? else none
  | _ => none

/-- A message that the step gets is in the target and committed when the step ends, or it is back in the source. -/
def KeepsMessage (reader : StaxReader) (s : State) (i : Input) : Prop :=
  ∀ m, got s i = some m →
    let next := ((copyQ reader).step s i).1.unit
    next.Settled ∧ (next.source = s.unit.source.tail ∧ next.delivered = s.unit.delivered ++ [((), m)]
      ∨ next.source = s.unit.source ∧ next.delivered = s.unit.delivered)

/-- The message fits into the buffer and can be parsed, and it is put and committed without an error. -/
structure Passes (reader : StaxReader) (t : Turn) (m : MqMsg) : Prop where
  length : m.data.length ≤ maxLen
  parse : parse reader m = true
  put : t.put = .ok
  commit : t.commit = .done

/-- The message that the step gets, if any, passes. -/
def Copies (reader : StaxReader) (s : State) : Input → Prop
  | .turn t => ∀ m, got s (.turn t) = some m → Passes reader t m
  | _ => True

/-- A message that fits is got as it is. -/
theorem accept_eq_iff (m : MqMsg) : accept m = m ↔ m.data.length ≤ maxLen := by
  obtain ⟨data⟩ := m
  simp [accept]

theorem step_got (reader : StaxReader) {s : State} {t : Turn} {m : MqMsg} (h : got s (.turn t) = some m) :
    ∃ rest, s.unit.source = m :: rest
      ∧ ((copyQ reader).step s (.turn t)).1 = process reader t (accept m) { s.unit with source := rest } := by
  rw [got] at h
  split at h
  · next hturn =>
    obtain ⟨rest, hsource⟩ := List.head?_eq_some_iff.mp h
    refine ⟨rest, hsource, ?_⟩
    change (if s.isStop then s else CopyQ.turn reader t s) = _
    rw [hturn.1, if_neg (by simp), turn, hturn.2]
    simp only [UnitOfWork.take, hsource]
  · cases h

theorem step_idle {s : State} {i : Input} (hs : s.unit.Settled) (h : got s i = none) :
    ((copyQ reader).step s i).1.unit.Settled := by
  cases i with
  | arrive m => exact hs.arrive m
  | close => exact hs
  | turn t =>
    change (if s.isStop then s else CopyQ.turn reader t s).unit.Settled
    split
    · exact hs
    · next hrun =>
      rw [turn]
      split
      · exact hs
      · exact hs
      · next hget =>
        have hsource : s.unit.source = [] := by simpa [got, hrun, hget] using h
        rw [UnitOfWork.take, hsource]
        exact hs

/-- No way through a turn brings the message back to the source. -/
theorem process_source (reader : StaxReader) (t : Turn) (m : MqMsg) {u : UnitOfWork Unit MqMsg} (hu : u.gets = []) :
    (process reader t m u).unit.source = u.source := by
  rw [process]
  split
  · split
    · split
      · rfl
      · rfl
      · simp [UnitOfWork.backout, UnitOfWork.put, hu]
    · split
      · simp [UnitOfWork.backout, hu]
      · rfl
    · rfl
  · rfl

/-- One way brings it to the target. -/
theorem process_delivered (reader : StaxReader) (t : Turn) (m : MqMsg) {u : UnitOfWork Unit MqMsg} (hu : u.puts = []) :
    parse reader m = true ∧ t.put = .ok ∧ t.commit = .done
        ∧ (process reader t m u).unit.delivered = u.delivered ++ [((), m)]
      ∨ ¬ (parse reader m = true ∧ t.put = .ok ∧ t.commit = .done)
        ∧ (process reader t m u).unit.delivered = u.delivered := by
  rw [process]
  split
  · next hparse =>
    split
    · next hput =>
      split
      · next hcommit => exact .inl ⟨hparse, hput, hcommit, by simp [UnitOfWork.commit, UnitOfWork.put, hu]⟩
      · next hcommit => exact .inr ⟨by simp [hcommit], rfl⟩
      · next hcommit => exact .inr ⟨by simp [hcommit], rfl⟩
    · next hput =>
      refine .inr ⟨by simp [hput], ?_⟩
      split <;> rfl
    · next hput => exact .inr ⟨by simp [hput], rfl⟩
  · next hparse => exact .inr ⟨fun h => hparse h.1, rfl⟩

theorem process_settled {t : Turn} {m : MqMsg} (u : UnitOfWork Unit MqMsg) (hparse : parse reader m = true)
    (hput : t.put = .ok) (hcommit : t.commit = .done) : (process reader t m u).unit.Settled := by
  rw [process, if_pos hparse, hput, hcommit]
  exact UnitOfWork.settled_commit _

/-- The message comes to the target as it was exactly if it passes. -/
theorem process_delivered_iff {t : Turn} {m : MqMsg} {u : UnitOfWork Unit MqMsg} (hu : u.puts = []) :
    (process reader t (accept m) u).unit.delivered = u.delivered ++ [((), m)] ↔ Passes reader t m := by
  obtain ⟨hparse, hput, hcommit, hdelivered⟩ | ⟨hnot, hdelivered⟩ := process_delivered reader t (accept m) hu
  · rw [hdelivered]
    refine ⟨fun hkept => ?_, fun hpass => by rw [(accept_eq_iff m).mpr hpass.length]⟩
    have haccept : accept m = m := by simpa using hkept
    rw [haccept] at hparse
    exact ⟨(accept_eq_iff m).mp haccept, hparse, hput, hcommit⟩
  · rw [hdelivered]
    refine iff_of_false (by simp) fun hpass => ?_
    rw [(accept_eq_iff m).mpr hpass.length] at hnot
    exact hnot ⟨hpass.parse, hpass.put, hpass.commit⟩

/-- A step that gets no message loses none. -/
theorem keepsMessage_idle {s : State} {i : Input} (hgot : got s i = none) :
    KeepsMessage reader s i ∧ Copies reader s i := by
  refine ⟨fun m hm => ?_, ?_⟩
  · rw [hgot] at hm
    cases hm
  · cases i with
    | turn t =>
      intro m hm
      rw [hgot] at hm
      cases hm
    | arrive m => trivial
    | close => trivial

/-- From an empty unit of work, the message of a step is kept exactly if it passes, and then the unit of work is empty
again. -/
theorem keepsMessage_step {s : State} (hs : s.unit.Settled) (i : Input) :
    (KeepsMessage reader s i ↔ Copies reader s i)
      ∧ (Copies reader s i → ((copyQ reader).step s i).1.unit.Settled) := by
  cases hgot : got s i with
  | none =>
    obtain ⟨hkeeps, hcopies⟩ := keepsMessage_idle hgot
    exact ⟨iff_of_true hkeeps hcopies, fun _ => step_idle hs hgot⟩
  | some m =>
    cases i with
    | arrive m => cases hgot
    | close => cases hgot
    | turn t =>
      obtain ⟨rest, hsource, hstep⟩ := step_got reader hgot
      have hgets : ({ s.unit with source := rest } : UnitOfWork Unit MqMsg).gets = [] := hs.gets
      have hputs : ({ s.unit with source := rest } : UnitOfWork Unit MqMsg).puts = [] := hs.puts
      have hgone := process_source reader t (accept m) hgets
      have hsettled : Passes reader t m →
          (process reader t (accept m) { s.unit with source := rest }).unit.Settled := by
        intro hpass
        rw [(accept_eq_iff m).mpr hpass.length]
        exact process_settled _ hpass.parse hpass.put hpass.commit
      simp only [KeepsMessage, Copies, hgot, Option.some.injEq, forall_eq', hstep, hgone, hsource,
        List.tail_cons]
      refine ⟨⟨fun ⟨_, hkept⟩ => ?_, fun hpass => ⟨hsettled hpass, .inl ⟨trivial, ?_⟩⟩⟩, hsettled⟩
      · -- the source has lost the message, so it must be in the target
        obtain ⟨-, hkept⟩ | ⟨hback, -⟩ := hkept
        · exact (process_delivered_iff hputs).mp hkept
        · simp at hback
      · exact (process_delivered_iff hputs).mpr hpass

end CopyQ

/-- Over every run of `copyQ`, each message that is got is committed in the target or back in the source at the end of
its turn, if and only if each of them fits, parses, and is put and committed without an error. -/
theorem copyQ_keeps_iff (reader : StaxReader) (source : List MqMsg) (is : List CopyQ.Input) :
    (copyQ reader).Along (CopyQ.KeepsMessage reader) ⟨false, .start source⟩ is
      ↔ (copyQ reader).Along (CopyQ.Copies reader) ⟨false, .start source⟩ is :=
  Machine.along_congr_of_kept (fun s i (hs : s.unit.Settled) h => (CopyQ.keepsMessage_step hs i).2 h)
    (fun _ i hs => (CopyQ.keepsMessage_step hs i).1) (UnitOfWork.settled_start source) is

/-- A message that does not parse is in neither queue, and the loop goes on. -/
theorem copyQ_loses_unparsed :
    (copyQ fun _ => none).run ⟨false, .start [⟨[1]⟩]⟩ [.turn ⟨.ok, .ok, .done, true⟩] = ⟨false, .start []⟩
      ∧ ¬ (copyQ fun _ => none).Along (CopyQ.KeepsMessage fun _ => none) ⟨false, .start [⟨[1]⟩]⟩
        [.turn ⟨.ok, .ok, .done, true⟩] := by
  refine ⟨by decide, fun h => ?_⟩
  exact absurd (h.1 ⟨[1]⟩ rfl).2 (by decide)

end OrgLittle.Mq
