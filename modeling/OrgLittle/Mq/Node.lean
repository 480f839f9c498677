import OrgLittle.Mq.Flow

/-!
# `fc_node`: how many flows keep working

A flow that raises an alarm stops its stream if the node allows it. The node looks at a number of working flows
that it counted some time ago, and the flow that is about to be stopped is among them. `keepsMinimum_run_iff`
says in which runs enough flows are left nevertheless.
-/

namespace OrgLittle.Mq

open OrgLittle.Java OrgLittle.Lib

/-! ## `fc_groupL` and `fc_node` -/

/-- `fc_groupL`, with what its last `work` has counted. -/
structure FcGroupL where
  flows : List FcFlowL
  countActiveFlow : ℕ
  isAlarm : Bool
  timeAlarm : ℤ

/-- `fc_node`, with its configuration and what its last `work` has counted. -/
structure FcNode where
  isControlStreamSet : Bool
  minCountGroup : ℤ
  groups : List FcGroupL
  countActiveFlow : ℤ
  isAlarm : Bool
  timeAlarm : ℤ

/-- The flows of a list that are not in alarm. -/
def working (flows : List FcFlowL) : ℕ := flows.countP fun f => !f.isAlarm

namespace FcGroupL

/-- The beginning of `fc_groupL.work`. -/
def reset (g : FcGroupL) : FcGroupL := { g with countActiveFlow := 0, isAlarm := false, timeAlarm := 0 }

/-- The second loop of `fc_groupL.work`. -/
def count (g : FcGroupL) : FcGroupL :=
  { g with
    countActiveFlow := working g.flows
    isAlarm := g.flows.any (·.isAlarm)
    timeAlarm := g.flows.foldl (fun t f => max t f.timeAlarm) 0 }

end FcGroupL

namespace FcNode

/-- `isControlStream`. -/
def isControlStream (n : FcNode) : Bool :=
  n.isControlStreamSet && decide (0 ≤ wrapInt (n.countActiveFlow - n.minCountGroup))

/-- `work`. -/
def work (n : FcNode) : FcNode :=
  { n with
    countActiveFlow := n.groups.foldl (fun count g => wrapInt (count + g.countActiveFlow)) 0
    isAlarm := n.groups.any (·.isAlarm)
    timeAlarm := n.groups.foldl (fun t g => max t g.timeAlarm) 0 }

/-- The flows of the node that are not in alarm. -/
def workingFlows (n : FcNode) : ℕ := (n.groups.map fun g => working g.flows).sum

/-- `flow.work()` of one flow, which asks the node. -/
def flowWork (n : FcNode) (g : FcGroupL) (f : FcFlowL) (group i : ℕ) (x : FlowInput) :
    FcNode × List FlowEvent :=
  let r := f.work { x with isControlStream := n.isControlStream }
  ({ n with groups := n.groups.set group { g with flows := g.flows.set i r.1 } }, r.2)

end FcNode

/-- The steps of the tasks of a node: `fc_groupL.work` begins, works on one flow after the other and counts;
`fc_node.work` is one step. -/
inductive NodeStep
  | reset (group : ℕ)
  | flow (group i : ℕ) (x : FlowInput)
  | count (group : ℕ)
  | node

/-- One step. -/
def FcNode.step (n : FcNode) : NodeStep → FcNode × List FlowEvent
  | .reset group => ({ n with groups := n.groups.modify group FcGroupL.reset }, [])
  | .flow group i x =>
    match n.groups[group]? with
    | none => (n, [])
    | some g =>
      match g.flows[i]? with
      | none => (n, [])
      | some f => n.flowWork g f group i x
  | .count group => ({ n with groups := n.groups.modify group FcGroupL.count }, [])
  | .node => (n.work, [])

/-- A node as a machine. -/
def nodeTasks : Machine FcNode NodeStep FlowEvent := ⟨FcNode.step⟩

/-- The steps of one `fc_groupL.work` over this number of flows. -/
def groupWork (group size : ℕ) (x : ℕ → FlowInput) : List NodeStep :=
  .reset group :: (List.range size).map (fun i => .flow group i (x i)) ++ [.count group]

/-! ## A minimum of working flows -/

/-- When a flow is stopped, at least `min_count_group` flows of the node are not in alarm. -/
def KeepsMinimum (n : FcNode) (s : NodeStep) : Prop :=
  .setFlag STOP ∈ (n.step s).2 → n.minCountGroup ≤ (n.step s).1.workingFlows

/-- The flow is not in alarm yet and finds one of its queues too long. -/
def raisesAlarm (f : FcFlowL) (x : FlowInput) : Bool := !f.isAlarm && (f.read x).queues.any (·.isAlarm)

/-- If a flow raises an alarm while the node allows it to be stopped, more than `min_count_group` flows are
working before. -/
def LeavesEnough (n : FcNode) : NodeStep → Prop
  | .flow group i x => ∀ g f, n.groups[group]? = some g → g.flows[i]? = some f → raisesAlarm f x = true →
      n.isControlStream = true → n.minCountGroup < n.workingFlows
  | _ => True

theorem working_set {flows : List FcFlowL} {i : ℕ} {f : FcFlowL} (f' : FcFlowL) (h : flows[i]? = some f)
    (hf : f.isAlarm = false) (hf' : f'.isAlarm = true) : working (flows.set i f') + 1 = working flows := by
  obtain ⟨hi, hget⟩ := List.getElem?_eq_some_iff.mp h
  have hpos : 0 < working flows := by
    refine List.countP_pos_iff.mpr ⟨f, hget ▸ List.getElem_mem hi, ?_⟩
    rw [hf]
    rfl
  rw [working, List.countP_set hi, hget, hf, hf']
  show working flows - 1 + 0 + 1 = working flows
  omega

theorem sum_map_set {α : Type} (c : α → ℕ) {l : List α} {i : ℕ} {a : α} (b : α) (h : l[i]? = some a) :
    ((l.set i b).map c).sum + c a = (l.map c).sum + c b := by
  induction l generalizing i with
  | nil => cases h
  | cons d l ih =>
    cases i with
    | zero =>
      obtain rfl : d = a := Option.some.inj h
      rw [List.set_cons_zero, List.map_cons, List.sum_cons, List.map_cons, List.sum_cons]
      omega
    | succ i =>
      have hl := ih (show l[i]? = some a from h)
      rw [List.set_cons_succ, List.map_cons, List.sum_cons, List.map_cons, List.sum_cons]
      omega

/-- A flow that goes into alarm is one working flow less. -/
theorem workingFlows_flowWork {n : FcNode} {g : FcGroupL} {f : FcFlowL} {group i : ℕ} (x : FlowInput)
    (hg : n.groups[group]? = some g) (hf : g.flows[i]? = some f) (halarm : f.isAlarm = false)
    (hafter : (f.work { x with isControlStream := n.isControlStream }).1.isAlarm = true) :
    (n.flowWork g f group i x).1.workingFlows + 1 = n.workingFlows := by
  have hsum := sum_map_set (fun g => working g.flows)
    ({ g with flows := g.flows.set i (f.work { x with isControlStream := n.isControlStream }).1 }) hg
  have hset := working_set _ hf halarm hafter
  rw [FcNode.workingFlows, FcNode.workingFlows, FcNode.flowWork]
  dsimp only at hsum hset ⊢
  omega

/-- A step of a flow that is there. -/
theorem keepsMinimum_flow_iff {n : FcNode} {g : FcGroupL} {f : FcFlowL} {group i : ℕ} (x : FlowInput)
    (hg : n.groups[group]? = some g) (hf : g.flows[i]? = some f) :
    KeepsMinimum n (.flow group i x) ↔ LeavesEnough n (.flow group i x) := by
  have hstep : n.step (.flow group i x) = n.flowWork g f group i x := by
    simp only [FcNode.step, hg, hf]
  have hstop : .setFlag STOP ∈ (n.flowWork g f group i x).2
      ↔ raisesAlarm f x = true ∧ n.isControlStream = true := stop_mem_work f _
  have hless : raisesAlarm f x = true →
      (n.flowWork g f group i x).1.workingFlows + 1 = n.workingFlows := by
    intro hraises
    rw [raisesAlarm, Bool.and_eq_true, Bool.not_eq_true'] at hraises
    refine workingFlows_flowWork x hg hf hraises.1 ?_
    rw [(work_of_not_alarm _ hraises.1).1]
    exact hraises.2
  rw [KeepsMinimum, hstep, hstop, LeavesEnough]
  constructor
  · intro h g' f' hg' hf' hraises hcontrol
    rw [hg] at hg'
    obtain rfl := Option.some.inj hg'
    rw [hf] at hf'
    obtain rfl := Option.some.inj hf'
    have hkept := h ⟨hraises, hcontrol⟩
    have hcount := hless hraises
    omega
  · rintro h ⟨hraises, hcontrol⟩
    have henough := h g f hg hf hraises hcontrol
    have hcount := hless hraises
    omega

/-- A step keeps the minimum exactly if it leaves enough. -/
theorem keepsMinimum_iff (n : FcNode) (s : NodeStep) : KeepsMinimum n s ↔ LeavesEnough n s := by
  have hquiet : (n.step s).2 = [] → KeepsMinimum n s := by
    intro hnil hstop
    rw [hnil] at hstop
    cases hstop
  cases s with
  | reset group => exact iff_of_true (hquiet rfl) trivial
  | count group => exact iff_of_true (hquiet rfl) trivial
  | node => exact iff_of_true (hquiet rfl) trivial
  | flow group i x =>
    cases hg : n.groups[group]? with
    | none =>
      refine iff_of_true (hquiet ?_) fun g f hg' => ?_
      · simp only [FcNode.step, hg]
      · rw [hg] at hg'
        cases hg'
    | some g =>
      cases hf : g.flows[i]? with
      | none =>
        refine iff_of_true (hquiet ?_) fun g' f hg' hf' => ?_
        · simp only [FcNode.step, hg, hf]
        · rw [hg] at hg'
          obtain rfl := Option.some.inj hg'
          rw [hf] at hf'
          cases hf'
      | some f => exact keepsMinimum_flow_iff x hg hf

/-- For every node and all steps of its tasks in any order: the minimum is kept at every step exactly if every step
leaves enough. -/
theorem keepsMinimum_run_iff (n : FcNode) (steps : List NodeStep) :
    nodeTasks.Along KeepsMinimum n steps ↔ nodeTasks.Along LeavesEnough n steps :=
  Machine.along_congr (m := nodeTasks) keepsMinimum_iff n steps

/-- A flow of one queue with the limit 150. -/
def oneQueue : FcFlowL := ⟨[.init 150], some (.init .works), none, false, 0⟩

/-- A node that wants two working flows and has these. -/
def twoFlows : FcNode := ⟨true, 2, [⟨[oneQueue, oneQueue], 0, false, 0⟩], 0, false, 0⟩

/-- Both tasks with empty queues, and then with 200 messages in each. -/
def bothLong : List NodeStep :=
  groupWork 0 2 (fun _ => oneReachable 0) ++ [.node] ++ groupWork 0 2 (fun _ => oneReachable 200)

/-- The first flow is stopped when it leaves one working flow, and the second one when there is none. -/
theorem not_keepsMinimum_both :
    nodeTasks.outputs twoFlows bothLong = [.setFlag STOP, .setFlag STOP]
      ∧ (nodeTasks.run twoFlows bothLong).workingFlows = 0
      ∧ ¬ nodeTasks.Along KeepsMinimum twoFlows bothLong := by
  refine ⟨by decide, by decide, fun h => ?_⟩
  -- the first flow in the second pass of the group
  have hkept := h.2.2.2.2.2.2.1 (by decide)
  exact absurd hkept (by decide)

end OrgLittle.Mq
