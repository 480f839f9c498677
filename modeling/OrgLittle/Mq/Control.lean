import OrgLittle.Java.Text
import OrgLittle.Lib.Machine

/-!
# `fc_controlL`: the control queue of a stream

A stream is stopped by a message in its control queue and runs while the queue is empty. The controller takes
a message that it has not announced with its own flag for one that was put there by hand, and then leaves the
queue alone. Where MQ fails, it forgets its flag and not its message, so it may take its own message for a
foreign one. `never_manual` says which failures it survives.
-/

namespace OrgLittle.Mq

open OrgLittle.Java OrgLittle.Lib

/-! ## `mq_util` and `mq_contrl` -/

/-- What MQ does during one call: which connections can be opened, whether a message gets into the queue,
after how many messages `clear` is interrupted, and whether the depth can be inquired. -/
structure MqAnswer where
  openUtil : Bool
  openContrl : Bool
  put : Bool
  clear : Option ℕ
  depth : Bool
deriving DecidableEq

/-- MQ without failures. -/
def MqAnswer.works : MqAnswer := ⟨true, true, true, none, true⟩

/-- `mq_util.putMsg`, which logs its exceptions. -/
def MqUtil.putMsg (mq : MqAnswer) (queue : ℕ) : ℕ := if mq.put then queue + 1 else queue

/-- `mq_util.clear`, which logs its exceptions. -/
def MqUtil.clear (mq : MqAnswer) (queue : ℕ) : ℕ :=
  match mq.clear with
  | none => 0
  | some got => queue - got

/-- `mq_contrl.lengthLocalQueues`: after an exception the result is 0. -/
def MqContrl.lengthLocalQueues (depth : Bool) (queue : ℕ) : ℕ := if depth then queue else 0

/-! ## `fc_controlL` -/

/-- `fc_control.STOP`. -/
def STOP : Bool := true

/-- `fc_control.RUN`. -/
def RUN : Bool := false

/-- The answer of `setFlag`. -/
inductive ControlReply
  | MANUAL | OK
deriving DecidableEq

/-- `fc_controlL`, and the messages in its queue. `cntrl` and `mon` say which connections are not `null`. -/
structure FcControlL where
  isManual : Bool
  isFlag : Bool
  cntrl : Bool
  mon : Bool
  queue : ℕ
deriving DecidableEq

namespace FcControlL

/-- `reopen`. -/
def reopen (mq : MqAnswer) (c : FcControlL) : FcControlL :=
  { c with cntrl := c.cntrl || mq.openUtil, mon := c.mon || mq.openContrl }

/-- The controller after `init`, with an empty queue. -/
def init (mq : MqAnswer) : FcControlL := reopen mq ⟨false, false, false, false, 0⟩

/-- `fc_control.controlFlag`. -/
def controlFlag (flag : Bool) (c : FcControlL) : FcControlL :=
  if c.isManual then c else { c with isFlag := flag }

/-- `setFlag`. Without a connection nothing is done, not even a try to open one. (The calls of `mq_util` throw
nothing, so that the branch for their exceptions is not reached.) -/
def setFlag (flag : Bool) (mq : MqAnswer) (c : FcControlL) : FcControlL × ControlReply :=
  let c := c.controlFlag flag
  if c.isManual || !c.cntrl then (c, .MANUAL)
  else
    let c := c.reopen mq
    if c.isFlag then ({ c with queue := MqUtil.putMsg mq c.queue }, .OK)
    else ({ c with queue := MqUtil.clear mq c.queue }, .OK)

/-- `work`. Without a connection the queue counts as empty. -/
def work (mq : MqAnswer) (c : FcControlL) : FcControlL :=
  let c := c.reopen mq
  let len := if c.mon then MqContrl.lengthLocalQueues mq.depth c.queue else 0
  if 0 < len then { c with isManual := !c.isFlag }
  else { c with isManual := false, isFlag := false }

end FcControlL

/-- The calls of a controller. -/
inductive ControlCall
  | setFlag (flag : Bool) (mq : MqAnswer)
  | work (mq : MqAnswer)
deriving DecidableEq

/-- The controller as a machine. -/
def control : Machine FcControlL ControlCall ControlReply where
  step c
    | .setFlag flag mq => ((c.setFlag flag mq).1, [(c.setFlag flag mq).2])
    | .work mq => (c.work mq, [])

/-! ## The flag and the queue -/

/-- The controller does not think that its queue was written by hand, and it remembers its own message. -/
structure Remembers (c : FcControlL) : Prop where
  manual : c.isManual = false
  flag : 0 < c.queue → c.isFlag = true

/-- As long as there is a message, `work` can read the depth of the queue, and `RUN` has a connection from
before and removes all messages. -/
def KeepsPace (c : FcControlL) : ControlCall → Prop
  | .work mq => 0 < c.queue → (c.mon || mq.openContrl) = true ∧ mq.depth = true
  | .setFlag flag mq => flag = RUN → 0 < c.queue → c.cntrl = true ∧ MqUtil.clear mq c.queue = 0

theorem Remembers.work {c : FcControlL} {mq : MqAnswer} (h : Remembers c) (hpace : KeepsPace c (.work mq)) :
    Remembers (c.work mq) := by
  rw [FcControlL.work]
  rcases Nat.eq_zero_or_pos c.queue with hempty | hpos
  · -- an empty queue has no messages, whether it is read or not
    have hlen : (if (c.reopen mq).mon then MqContrl.lengthLocalQueues mq.depth (c.reopen mq).queue else 0)
        = 0 := by
      simp [FcControlL.reopen, MqContrl.lengthLocalQueues, hempty]
    simp only [hlen, Nat.lt_irrefl, if_false]
    refine ⟨rfl, fun hqueue => ?_⟩
    exact absurd hempty (Nat.ne_of_gt hqueue)
  · obtain ⟨hmon, hdepth⟩ := hpace hpos
    have hlen : (if (c.reopen mq).mon then MqContrl.lengthLocalQueues mq.depth (c.reopen mq).queue else 0)
        = c.queue := by
      simp only [FcControlL.reopen, hmon, if_true, MqContrl.lengthLocalQueues, hdepth]
    have hflag : (c.reopen mq).isFlag = true := h.flag hpos
    simp only [hlen, if_pos hpos, hflag]
    exact ⟨rfl, fun _ => rfl⟩

/-- What `setFlag` does while the queue is not taken for one written by hand. -/
theorem setFlag_eq {c : FcControlL} (flag : Bool) (mq : MqAnswer) (h : c.isManual = false) :
    (c.setFlag flag mq).1.isManual = false ∧ (c.setFlag flag mq).1.isFlag = flag
      ∧ (c.setFlag flag mq).1.queue
        = if c.cntrl then if flag then MqUtil.putMsg mq c.queue else MqUtil.clear mq c.queue
          else c.queue := by
  obtain ⟨isManual, isFlag, cntrl, mon, queue⟩ := c
  obtain rfl : isManual = false := h
  cases cntrl <;> cases flag <;> exact ⟨rfl, rfl, rfl⟩

theorem clear_zero (mq : MqAnswer) : MqUtil.clear mq 0 = 0 := by
  rw [MqUtil.clear]
  split
  · rfl
  · exact Nat.zero_sub _

theorem Remembers.setFlag {c : FcControlL} {flag : Bool} {mq : MqAnswer} (h : Remembers c)
    (hpace : KeepsPace c (.setFlag flag mq)) : Remembers (c.setFlag flag mq).1 := by
  obtain ⟨hmanual, hflag, hqueue⟩ := setFlag_eq flag mq h.manual
  refine ⟨hmanual, fun hpos => ?_⟩
  rw [hflag]
  by_contra hrun
  obtain rfl : flag = RUN := Bool.not_eq_true _ ▸ hrun
  -- after `RUN` the queue is empty
  have hempty : (c.setFlag RUN mq).1.queue = 0 := by
    rw [hqueue, if_neg hrun]
    rcases Nat.eq_zero_or_pos c.queue with hzero | hmsg
    · rw [hzero, clear_zero, ite_self]
    · obtain ⟨hcntrl, hclear⟩ := hpace rfl hmsg
      rw [if_pos hcntrl, hclear]
  omega

theorem remembers_step (c : FcControlL) (call : ControlCall) (h : Remembers c) (hpace : KeepsPace c call) :
    Remembers (control.step c call).1 := by
  cases call with
  | setFlag flag mq => exact h.setFlag hpace
  | work mq => exact h.work hpace

/-- A controller that remembers its message removes it once MQ works. -/
theorem Remembers.run_clears {c : FcControlL} (h : Remembers c) :
    (control.run c [.work .works, .setFlag RUN .works]).queue = 0 := by
  have hpace : KeepsPace c (.work .works) := fun _ => ⟨Bool.or_true _, rfl⟩
  have hmanual := (h.work hpace).manual
  have hcntrl : (c.work .works).cntrl = true := by
    rw [FcControlL.work]
    split_ifs <;> exact Bool.or_true _
  have hqueue := (setFlag_eq RUN .works hmanual).2.2
  rw [if_pos hcntrl] at hqueue
  exact hqueue

/-- In every run in which the depth can be read and `RUN` works as long as there is a message, the controller
never takes its queue for one that was written by hand, and `RUN` clears the queue once MQ works. -/
theorem never_manual (mq : MqAnswer) {calls : List ControlCall}
    (h : control.Along KeepsPace (.init mq) calls) :
    (control.run (.init mq) calls).isManual = false
      ∧ (control.run (.init mq) (calls ++ [.work .works, .setFlag RUN .works])).queue = 0 := by
  have hstart : Remembers (.init mq) := ⟨rfl, fun hqueue => absurd hqueue (Nat.lt_irrefl 0)⟩
  have hend := h.run_invariant remembers_step hstart
  refine ⟨hend.manual, ?_⟩
  rw [Machine.run_append]
  exact hend.run_clears

/-- The stream is stopped and runs again, while MQ works. -/
theorem never_manual_works :
    (control.run (.init .works) [.setFlag STOP .works, .work .works, .setFlag RUN .works]).isManual
      = false := by
  have h : control.Along KeepsPace (.init .works) [.setFlag STOP .works, .work .works, .setFlag RUN .works] :=
    ⟨fun h => absurd h (by decide), fun _ => ⟨rfl, rfl⟩, fun _ _ => ⟨rfl, rfl⟩, trivial⟩
  exact (never_manual .works h).1

/-- MQ does not answer once when the depth is inquired. -/
def noDepth : MqAnswer := { MqAnswer.works with depth := false }

/-- The controller stops the stream, fails to read the depth of its queue once, and then takes its own message
for a foreign one. `RUN` does not remove it. -/
theorem manual_after_failure :
    (control.run (.init .works) [.setFlag STOP .works, .work noDepth, .work .works]).isManual = true
      ∧ (control.run (.init .works) [.setFlag STOP .works, .work noDepth, .work .works,
          .work .works, .setFlag RUN .works]).queue = 1
      ∧ ¬ ∀ mq calls, (control.run (.init mq) calls).isManual = false := by
  refine ⟨by decide, by decide, fun h => ?_⟩
  have hmanual := h .works [.setFlag STOP .works, .work noDepth, .work .works]
  exact absurd hmanual (by decide)

end OrgLittle.Mq
