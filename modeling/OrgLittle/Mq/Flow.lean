import OrgLittle.Mq.Control

/-!
# `fc_flowL`: the alarm of a flow

A flow raises an alarm when one of its queues is longer than its limit, and ends the alarm when the depths of its
queues add up to 0. A queue whose manager cannot be reached counts as -1 in this sum, and one whose depth cannot
be inquired as 0. So the alarm may end while there are messages (`hysteresis_run_iff`).
-/

namespace OrgLittle.Mq

open OrgLittle.Java OrgLittle.Lib

/-! ## `fc_QL` -/

/-- What MQ has and answers for one queue: its depth, whether the manager can be opened, and whether the depth
can be inquired. -/
structure QInput where
  depth : ℕ
  openOk : Bool
  inquiryOk : Bool
deriving DecidableEq

/-- `fc_QL`, with the limit `deep_alarm`. -/
structure FcQL where
  deepAlarm : ℤ
  isOpen : Bool
  deepQ : ℤ
  isAlarm : Bool
  startAlarm : ℤ
deriving DecidableEq

namespace FcQL

/-- A queue with this limit after `init`. -/
def init (deepAlarm : ℤ) : FcQL := ⟨deepAlarm, false, 0, false, 0⟩

/-- `fc_Q.isAlarm(a)` at the time `now`. -/
def setAlarm (now : ℤ) (a : Bool) (q : FcQL) : FcQL :=
  { q with isAlarm := a, startAlarm := if a then now else 0 }

/-- `fc_Q.getTimeAlarm` at the time `now`. -/
def getTimeAlarm (now : ℤ) (q : FcQL) : ℤ := if q.isAlarm then now - q.startAlarm else 0

/-- The manager is open, from before or now. -/
def opened (q : FcQL) (x : QInput) : Bool := q.isOpen || x.openOk

/-- `fc_QL.work`. If the manager cannot be opened, the alarm of the queue stays as it is. -/
def work (now : ℤ) (q : FcQL) (x : QInput) : FcQL :=
  if q.opened x then
    let len := MqContrl.lengthLocalQueues x.inquiryOk x.depth
    { q.setAlarm now (q.deepAlarm < len) with isOpen := true, deepQ := len }
  else { q with deepQ := -1 }

end FcQL

/-! ## `fc_channelL` -/

/-- The kinds of texts that `statusChannel` returns: `INACTIVE`, `MQCHS_STOP…`, another `MQCHS_…`, or the empty
text. -/
inductive ChannelStatus
  | inactive | stop | running | none
deriving DecidableEq

/-- What MQ does when a channel is asked for its status. -/
structure ChannelAnswer where
  openOk : Bool
  status : Option ChannelStatus
deriving DecidableEq

/-- `fc_channelL`. -/
structure FcChannelL where
  name : Option JString
  cntrl : Bool
  isRun : Bool
deriving DecidableEq

/-- `fc_channelL.work`. -/
def FcChannelL.work (x : ChannelAnswer) (c : FcChannelL) : FcChannelL :=
  if c.name.isNone then c
  else if c.cntrl || x.openOk then
    match x.status with
    | none => { c with cntrl := false, isRun := false }
    | some .inactive => { c with cntrl := true, isRun := true }
    | some .stop => { c with cntrl := true, isRun := false }
    | some .running => { c with cntrl := true, isRun := true }
    | some .none => { c with cntrl := true }
  else c

/-! ## `fc_flowL` -/

/-- What a flow meets during one `work`: the times at which the queues are read and evaluated, its queues, the
answers to its control and channel, and what `node.isControlStream()` says. -/
structure FlowInput where
  now : ℤ
  later : ℤ
  queues : ℕ → QInput
  control : MqAnswer
  setFlag : MqAnswer
  channel : ChannelAnswer
  isControlStream : Bool

/-- `fc_flowL`. A flow without a `cntrl` or `channel` element has a plain control or channel, which does
nothing. -/
structure FcFlowL where
  queues : List FcQL
  control : Option FcControlL
  channel : Option FcChannelL
  isAlarm : Bool
  timeAlarm : ℤ

/-- `flow_contrl.setFlag(flag)`, called by `fc_flowL.work` itself. -/
inductive FlowEvent
  | setFlag (flag : Bool)
deriving DecidableEq

namespace FcFlowL

/-- The queues with what MQ has for them. -/
def inputs (f : FcFlowL) (x : FlowInput) : List (FcQL × QInput) :=
  f.queues.mapIdx fun i q => (q, x.queues i)

/-- The first part of `work`: the queues, the control and the channel are read. -/
def read (f : FcFlowL) (x : FlowInput) : FcFlowL :=
  { f with
    queues := (f.inputs x).map fun p => p.1.work x.now p.2
    control := f.control.map fun c => c.work x.control
    channel := f.channel.map fun c => c.work x.channel }

/-- The sum of the depths, as an `int`. -/
def sumDeepQ (f : FcFlowL) : ℤ := f.queues.foldl (fun len q => wrapInt (len + q.deepQ)) 0

/-- `flow_contrl.setFlag(flag)`. -/
def setControl (flag : Bool) (mq : MqAnswer) (f : FcFlowL) : FcFlowL :=
  { f with control := f.control.map fun c => (c.setFlag flag mq).1 }

/-- `work`. -/
def work (f : FcFlowL) (x : FlowInput) : FcFlowL × List FlowEvent :=
  let f := f.read x
  if f.isAlarm then
    if f.sumDeepQ = 0 then
      let f := { f with isAlarm := false }
      if x.isControlStream then (f.setControl RUN x.setFlag, [.setFlag RUN]) else (f, [])
    else (f, [])
  else
    let isAlarm := f.queues.any (·.isAlarm)
    let timeAlarm :=
      if isAlarm then f.queues.foldl (fun t q => max t (q.getTimeAlarm x.later)) f.timeAlarm else 0
    let f := { f with isAlarm := isAlarm, timeAlarm := timeAlarm }
    if isAlarm && x.isControlStream then (f.setControl STOP x.setFlag, [.setFlag STOP]) else (f, [])

end FcFlowL

/-- A flow as a machine. -/
def flow : Machine FcFlowL FlowInput FlowEvent := ⟨FcFlowL.work⟩

/-! ## Hysteresis -/

/-- The depth of the queue was read. -/
def wasRead (p : FcQL × QInput) : Bool := p.1.opened p.2 && p.2.inquiryOk

/-- The alarm begins only when a queue is longer than its limit. It ends, and the stream is set to `RUN`, only in
a step in which every queue was read and is empty. -/
structure Hysteresis (f : FcFlowL) (x : FlowInput) : Prop where
  enters : f.isAlarm = false → (f.work x).1.isAlarm = true →
    ∃ p ∈ f.inputs x, p.1.deepAlarm < p.2.depth
  leaves : (f.isAlarm = true ∧ (f.work x).1.isAlarm = false) ∨ .setFlag RUN ∈ (f.work x).2 →
    ∀ p ∈ f.inputs x, wasRead p = true ∧ p.2.depth = 0

/-- The depths that were read, together. -/
def totalDepth (l : List (FcQL × QInput)) : ℕ := (l.map fun p => if wasRead p then p.2.depth else 0).sum

/-- The number of queues whose manager is not open. -/
def unopened (l : List (FcQL × QInput)) : ℕ := l.countP fun p => !p.1.opened p.2

/-- During an alarm: if all queues are read, their depths do not add up to a multiple of `2 ^ 32` other than 0, and
if not, the depths that are read do not add up to the number of queues that could not be opened (as numbers of
32 bits). -/
def CountsRight (f : FcFlowL) (x : FlowInput) : Prop :=
  f.isAlarm = true →
    if ∀ p ∈ f.inputs x, wasRead p = true then totalDepth (f.inputs x) % 2 ^ 32 = 0 → totalDepth (f.inputs x) = 0
    else totalDepth (f.inputs x) % 2 ^ 32 ≠ unopened (f.inputs x) % 2 ^ 32

/-! ## The sum of the depths -/

theorem wrapInt_wrapInt_add (a b : ℤ) : wrapInt (wrapInt a + b) = wrapInt (a + b) := by
  unfold wrapInt
  omega

/-- A sum wraps to zero at the multiples of 2^32. -/
theorem wrapInt_eq_zero (a : ℤ) : wrapInt a = 0 ↔ a % 2 ^ 32 = 0 := by
  unfold wrapInt
  omega

theorem foldl_wrapInt (l : List FcQL) (a : ℤ) :
    l.foldl (fun len q => wrapInt (len + q.deepQ)) (wrapInt a) = wrapInt (a + (l.map (·.deepQ)).sum) := by
  induction l generalizing a with
  | nil => rw [List.foldl_nil, List.map_nil, List.sum_nil, Int.add_zero]
  | cons q l ih => rw [List.foldl_cons, wrapInt_wrapInt_add, ih, List.map_cons, List.sum_cons, Int.add_assoc]

/-- A queue that cannot be opened counts as -1, and one whose inquiry fails as 0. -/
theorem FcQL.work_deepQ (now : ℤ) (q : FcQL) (x : QInput) :
    (q.work now x).deepQ = if q.opened x then if x.inquiryOk then (x.depth : ℤ) else 0 else -1 := by
  rw [work]
  split_ifs with hopen hinquiry
  · simp [MqContrl.lengthLocalQueues, hinquiry]
  · simp [MqContrl.lengthLocalQueues, hinquiry]
  · rfl

/-- What the queues report adds up to the depths that were read, less one for every queue that could not be
opened. -/
theorem sum_deepQ (now : ℤ) (l : List (FcQL × QInput)) :
    (l.map fun p => (p.1.work now p.2).deepQ).sum = totalDepth l - unopened l := by
  induction l with
  | nil => rfl
  | cons p l ih =>
    have htotal : totalDepth (p :: l) = (if wasRead p then p.2.depth else 0) + totalDepth l := rfl
    have hunopened : unopened (p :: l) = unopened l + if !p.1.opened p.2 then 1 else 0 := List.countP_cons
    rw [List.map_cons, List.sum_cons, ih, FcQL.work_deepQ, htotal, hunopened, wasRead]
    cases p.1.opened p.2 <;> cases p.2.inquiryOk <;> simp <;> omega

/-- The sum is that of the depths, less one for each queue that could not be opened. -/
theorem sumDeepQ_read (f : FcFlowL) (x : FlowInput) :
    (f.read x).sumDeepQ = wrapInt (totalDepth (f.inputs x) - unopened (f.inputs x)) := by
  have hfold := foldl_wrapInt (f.read x).queues 0
  rw [Int.zero_add] at hfold
  rw [FcFlowL.sumDeepQ, ← sum_deepQ x.now]
  refine Eq.trans hfold ?_
  rw [FcFlowL.read, List.map_map]
  rfl

/-- So the sum can be zero for a flow that is not empty. -/
theorem sumDeepQ_eq_zero (f : FcFlowL) (x : FlowInput) :
    (f.read x).sumDeepQ = 0 ↔ totalDepth (f.inputs x) % 2 ^ 32 = unopened (f.inputs x) % 2 ^ 32 := by
  rw [sumDeepQ_read, wrapInt_eq_zero]
  omega

/-- Depths that add up to nothing. -/
theorem depth_eq_zero {l : List (FcQL × QInput)} (h : totalDepth l = 0) {p : FcQL × QInput} (hp : p ∈ l)
    (hread : wasRead p = true) : p.2.depth = 0 := by
  have hzero := List.sum_eq_zero_iff.mp h _ (List.mem_map_of_mem hp)
  rwa [if_pos hread] at hzero

theorem totalDepth_eq_zero {l : List (FcQL × QInput)} (h : ∀ p ∈ l, p.2.depth = 0) : totalDepth l = 0 := by
  refine List.sum_eq_zero_iff.mpr fun n hn => ?_
  obtain ⟨p, hp, rfl⟩ := List.mem_map.mp hn
  rw [h p hp, ite_self]

theorem unopened_eq_zero {l : List (FcQL × QInput)} (h : ∀ p ∈ l, wasRead p = true) : unopened l = 0 := by
  rw [unopened, List.countP_eq_zero]
  intro p hp hopen
  have hread := h p hp
  rw [wasRead, Bool.and_eq_true] at hread
  rw [hread.1] at hopen
  cases hopen

/-! ## What a step does to the alarm -/

/-- During an alarm. -/
theorem work_of_alarm {f : FcFlowL} (x : FlowInput) (h : f.isAlarm = true) :
    (f.work x).1.isAlarm = decide ((f.read x).sumDeepQ ≠ 0)
      ∧ (.setFlag RUN ∈ (f.work x).2 → (f.read x).sumDeepQ = 0) := by
  have hread : (f.read x).isAlarm = true := h
  rw [FcFlowL.work]
  simp only [hread, if_true]
  by_cases hsum : (f.read x).sumDeepQ = 0
  · simp only [hsum, if_true]
    split_ifs
    · exact ⟨rfl, fun _ => trivial⟩
    · exact ⟨rfl, fun _ => trivial⟩
  · simp only [hsum, if_false]
    exact ⟨hread.trans (decide_eq_true hsum).symm, fun hmem => by cases hmem⟩

/-- Outside an alarm. -/
theorem work_of_not_alarm {f : FcFlowL} (x : FlowInput) (h : f.isAlarm = false) :
    (f.work x).1.isAlarm = (f.read x).queues.any (·.isAlarm)
      ∧ (f.work x).2
        = if (f.read x).queues.any (·.isAlarm) && x.isControlStream then [.setFlag STOP] else [] := by
  have hread : (f.read x).isAlarm = false := h
  rw [FcFlowL.work]
  simp only [hread, Bool.false_eq_true, if_false]
  split_ifs
  all_goals exact ⟨rfl, rfl⟩

/-- When a flow stops its stream by itself. -/
theorem stop_mem_work (f : FcFlowL) (x : FlowInput) :
    .setFlag STOP ∈ (f.work x).2
      ↔ (!f.isAlarm && (f.read x).queues.any (·.isAlarm)) = true ∧ x.isControlStream = true := by
  cases halarm : f.isAlarm with
  | false =>
    rw [(work_of_not_alarm x halarm).2]
    cases (f.read x).queues.any (·.isAlarm) <;> cases x.isControlStream <;> simp
  | true =>
    have hread : (f.read x).isAlarm = true := halarm
    rw [FcFlowL.work]
    simp only [hread, if_true]
    split_ifs <;> simp [STOP, RUN]

/-- A queue with an alarm has a manager that is open. -/
def AlarmsOpen (f : FcFlowL) : Prop := ∀ q ∈ f.queues, q.isAlarm = true → q.isOpen = true

theorem FcQL.work_open (now : ℤ) {q : FcQL} (x : QInput) (h : q.isAlarm = true → q.isOpen = true) :
    (q.work now x).isAlarm = true → (q.work now x).isOpen = true := by
  intro halarm
  rw [work] at halarm ⊢
  split_ifs at halarm ⊢
  · rfl
  · exact h halarm

theorem work_queues (f : FcFlowL) (x : FlowInput) : (f.work x).1.queues = (f.read x).queues := by
  rw [FcFlowL.work]
  dsimp only
  split_ifs <;> rfl

/-- A queue in alarm has been opened. -/
theorem alarmsOpen_step (f : FcFlowL) (x : FlowInput) (h : AlarmsOpen f) : AlarmsOpen (f.work x).1 := by
  intro q hq
  rw [work_queues] at hq
  obtain ⟨p, hp, rfl⟩ := List.mem_map.mp hq
  obtain ⟨i, hi, rfl⟩ := List.mem_mapIdx.mp hp
  exact FcQL.work_open x.now _ (h _ (List.getElem_mem hi))

/-- A queue that has an alarm after it was read is longer than its limit. -/
theorem FcQL.deepAlarm_lt {now : ℤ} {q : FcQL} {x : QInput} (h : q.isAlarm = true → q.isOpen = true)
    (halarm : (q.work now x).isAlarm = true) : q.deepAlarm < x.depth := by
  rw [work] at halarm
  split_ifs at halarm with hopen
  · -- a depth that cannot be inquired counts as 0, which is not more than the queue has
    have hlt : q.deepAlarm < MqContrl.lengthLocalQueues x.inquiryOk x.depth := of_decide_eq_true halarm
    have hle : MqContrl.lengthLocalQueues x.inquiryOk x.depth ≤ x.depth := by
      rw [MqContrl.lengthLocalQueues]
      split_ifs
      · exact Nat.le_refl _
      · exact Nat.zero_le _
    omega
  · rw [opened, h halarm] at hopen
    exact absurd rfl hopen

/-- During an alarm only its end matters. -/
theorem hysteresis_of_alarm {f : FcFlowL} {x : FlowInput} (h : f.isAlarm = true) :
    Hysteresis f x ↔ ((f.isAlarm = true ∧ (f.work x).1.isAlarm = false) ∨ .setFlag RUN ∈ (f.work x).2 →
      ∀ p ∈ f.inputs x, wasRead p = true ∧ p.2.depth = 0) := by
  refine ⟨fun hh => hh.leaves, fun hleaves => ⟨fun hfalse => ?_, hleaves⟩⟩
  rw [h] at hfalse
  cases hfalse

/-- A flow without an alarm. -/
theorem hysteresis_of_not_alarm {f : FcFlowL} (x : FlowInput) (h : AlarmsOpen f) (halarm : f.isAlarm = false) :
    Hysteresis f x ↔ CountsRight f x := by
  obtain ⟨hafter, hevents⟩ := work_of_not_alarm x halarm
  refine iff_of_true ⟨fun _ hwork => ?_, fun hleaves => ?_⟩ (fun htrue => ?_)
  · rw [hafter] at hwork
    obtain ⟨q, hq, hqalarm⟩ := List.any_eq_true.mp hwork
    obtain ⟨p, hp, rfl⟩ := List.mem_map.mp hq
    obtain ⟨i, hi, rfl⟩ := List.mem_mapIdx.mp hp
    exact ⟨_, hp, FcQL.deepAlarm_lt (h _ (List.getElem_mem hi)) hqalarm⟩
  · rcases hleaves with hleaves | hrun
    · rw [halarm] at hleaves
      cases hleaves.1
    · rw [hevents] at hrun
      split_ifs at hrun
      · exact absurd hrun (by decide)
      · cases hrun
  · rw [halarm] at htrue
    cases htrue

/-- A step keeps to the rule exactly if it counts right. -/
theorem hysteresis_iff {f : FcFlowL} (x : FlowInput) (h : AlarmsOpen f) :
    Hysteresis f x ↔ CountsRight f x := by
  cases halarm : f.isAlarm with
  | false => exact hysteresis_of_not_alarm x h halarm
  | true =>
    obtain ⟨hafter, hevents⟩ := work_of_alarm x halarm
    have hleaves : (f.isAlarm = true ∧ (f.work x).1.isAlarm = false) ∨ .setFlag RUN ∈ (f.work x).2
        ↔ totalDepth (f.inputs x) % 2 ^ 32 = unopened (f.inputs x) % 2 ^ 32 := by
      rw [← sumDeepQ_eq_zero]
      constructor
      · rintro (⟨-, hfalse⟩ | hrun)
        · rw [hafter] at hfalse
          exact not_not.mp (of_decide_eq_false hfalse)
        · exact hevents hrun
      · intro hsum
        refine Or.inl ⟨halarm, ?_⟩
        rw [hafter]
        exact decide_eq_false (not_not.mpr hsum)
    rw [hysteresis_of_alarm halarm, hleaves, CountsRight]
    by_cases hall : ∀ p ∈ f.inputs x, wasRead p = true
    · rw [if_pos hall, unopened_eq_zero hall]
      constructor
      · intro hzero _ htotal
        exact totalDepth_eq_zero fun p hp => (hzero htotal p hp).2
      · intro hzero htotal p hp
        exact ⟨hall p hp, depth_eq_zero (hzero halarm htotal) hp (hall p hp)⟩
    · rw [if_neg hall]
      constructor
      · intro hzero _ htotal
        exact hall fun p hp => (hzero htotal p hp).1
      · intro hne htotal
        exact absurd htotal (hne halarm)

/-- A flow after `init`. -/
structure IsInit (f : FcFlowL) : Prop where
  queues : ∀ q ∈ f.queues, q = FcQL.init q.deepAlarm
  alarm : f.isAlarm = false

/-- A run keeps to the rule at every step exactly if every step counts right. -/
theorem hysteresis_run_iff {f : FcFlowL} (h : IsInit f) (xs : List FlowInput) :
    flow.Along Hysteresis f xs ↔ flow.Along CountsRight f xs := by
  have hstart : AlarmsOpen f := by
    intro q hq halarm
    rw [h.queues q hq] at halarm
    cases halarm
  exact Machine.along_congr_of_invariant (m := flow) alarmsOpen_step (fun f x hf => hysteresis_iff x hf)
    hstart xs

/-- A flow of two queues with the limit 150. -/
def twoQueues : FcFlowL := ⟨[.init 150, .init 150], some (.init .works), none, false, 0⟩

/-- One queue has this depth, and the manager of the other one cannot be reached. -/
def oneReachable (depth : ℕ) : FlowInput where
  now := 0
  later := 0
  queues i := if i = 0 then ⟨depth, true, true⟩ else ⟨0, false, false⟩
  control := .works
  setFlag := .works
  channel := ⟨false, none⟩
  isControlStream := true

theorem isInit_twoQueues : IsInit twoQueues :=
  ⟨List.forall_mem_cons.mpr ⟨rfl, List.forall_mem_cons.mpr ⟨rfl, List.forall_mem_nil _⟩⟩, rfl⟩

/-- While the reachable queue has 200 messages, the alarm stays. -/
theorem hysteresis_run_long : flow.Along Hysteresis twoQueues [oneReachable 200, oneReachable 200] := by
  refine (hysteresis_run_iff isInit_twoQueues _).mpr ⟨?_, ?_, trivial⟩
  · intro h
    cases h
  · intro _
    decide

/-- With one message left, the depths 1 and -1 add up to 0: the alarm ends and the stream runs. -/
theorem not_hysteresis_one_left :
    (flow.run twoQueues [oneReachable 200]).isAlarm = true
      ∧ flow.outputs twoQueues [oneReachable 200, oneReachable 1] = [.setFlag STOP, .setFlag RUN]
      ∧ (flow.run twoQueues [oneReachable 200, oneReachable 1]).isAlarm = false
      ∧ ¬ flow.Along Hysteresis twoQueues [oneReachable 200, oneReachable 1] := by
  refine ⟨by decide, by decide, by decide, fun h => ?_⟩
  have hleaves := h.2.1.leaves (Or.inr (by decide)) _ List.mem_cons_self
  exact absurd hleaves.2 (by decide)

end OrgLittle.Mq
