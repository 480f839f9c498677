import OrgLittle.Lib.Machine
import OrgLittle.Mq.Stat

/-!
# `fc_groupR`: the mirror of a group of another manager

`fc_groupR.work` asks the other manager for the state of its local groups and copies the group with its remote id.
It takes the first node of the answer, whatever its id, writes over the flows that it has from earlier polls, and
does not copy all fields. `mirrors_run` says for which polls the mirror shows the group nevertheless.
-/

namespace OrgLittle.Mq

open OrgLittle.Java OrgLittle.Lib

/-! ## The manager that answers -/

/-- What `fc_group.getStat` reads of a local group. -/
structure FcGroup where
  id : Option JString
  name : Option JString
  flows : List FcFlow
  countActiveFlow : Int32
  isAlarm : Bool
  timeAlarm : Int64
deriving DecidableEq

/-- `fc_groupR`, the mirror. -/
structure FcGroupR where
  id : Option JString
  remoteId : Option JString
  url : Option JString
  flows : List FcFlow
  countActiveFlow : Int32
  isAlarm : Bool
  timeAlarm : Int64
deriving DecidableEq

/-- The groups of a node. -/
inductive Group
  | groupL (g : FcGroup)
  | groupR (r : FcGroupR)
deriving DecidableEq

/-- A node of a manager, with its groups. -/
structure MngrNode where
  id : JString
  groups : List Group
deriving DecidableEq

/-- `fc_mngr`. -/
structure FcMngr where
  nodes : List MngrNode
deriving DecidableEq

/-- `fc_group.getStat(grp)`, for a local group. -/
def FcGroup.getStat (now : Int64) (nodeId : JString) (g : FcGroup) : JSONObject :=
  JSONObject.new
    |>.put "type" (some (.str "group".toList))
    |>.put "node" (some (.str nodeId))
    |>.put "id" (text g.id)
    |>.put "rid" (text g.id)
    |>.put "state" (some (.num g.countActiveFlow.toInt))
    |>.put "alarm" (some (.bool g.isAlarm))
    |>.put "time_alarm" (some (.num g.timeAlarm.toInt))
    |>.put "name" (text g.name)
    |>.put "list_flow" (some (.arr (g.flows.map fun f => .obj (f.getStat now))))
    |>.put "size" (some (.num g.flows.length))

namespace MngrNode

/-- The local groups of a node. -/
def localGroups (n : MngrNode) : List FcGroup :=
  n.groups.filterMap fun
    | .groupL g => some g
    | .groupR _ => none

/-- `fc_node.getLocalStat()`. -/
def getLocalStat (now : Int64) (n : MngrNode) : JSONObject :=
  JSONObject.new
    |>.put "type" (some (.str "local state".toList))
    |>.put "list_group" (some (.arr (n.localGroups.map fun g => .obj (g.getStat now n.id))))
    |>.put "size" (some (.num n.localGroups.length))

end MngrNode

/-- `fc_mngr.getLocalStat()`. -/
def FcMngr.getLocalStat (now : Int64) (m : FcMngr) : JSONObject :=
  JSONObject.new
    |>.put "type" (some (.str "local state".toList))
    |>.put "list_node" (some (.arr (m.nodes.map fun n => .obj (n.getLocalStat now))))
    |>.put "size" (some (.num m.nodes.length))

/-! ## `fc_groupR.work` -/

/-- `id.equalsIgnoreCase(other)`, where `other` may be `null`. -/
def isId (id : JString) (other : Option JString) : Bool := other.any (equalsIgnoreCase id)

namespace FcGroupR

/-- The loop of `work` over the flows of a group, from the index `i` on. -/
def readFlows (now : Int64) (i : ℕ) : List Json → Block Unit FcGroupR Unit
  | [] => pure ()
  | json :: flist => do
    Block.update fun r =>
      { r with flows := if r.flows.length ≤ i then r.flows ++ [FcFlow.new] else r.flows }
    let root ← getter json.asObject
    Block.update fun r => { r with flows := r.flows.modify i (FcFlow.setState now root) }
    readFlows now (i + 1) flist

/-- The body of the loop of `work` for a group with the remote id. -/
def readGroup (now : Int64) (groot : JSONObject) : Block Unit FcGroupR Unit := do
  let flist ← getter (groot.getJSONArray "list_flow")
  readFlows now 0 flist
  let count ← getter (groot.getInt "state")
  Block.update fun r => { r with countActiveFlow := count }
  let a ← getter (groot.getBoolean "alarm")
  Block.update fun r => { r with isAlarm := a }
  let t ← getter (groot.getLong "time_alarm")
  Block.update fun r => { r with timeAlarm := t }

/-- The loop of `work` over the groups. -/
def readGroups (now : Int64) (remoteId : Option JString) : List Json → Block Unit FcGroupR Unit
  | [] => pure ()
  | json :: glist => do
    let groot ← getter json.asObject
    let rid ← getter (groot.getString "id")
    if isId rid remoteId then readGroup now groot else pure ()
    readGroups now remoteId glist

/-- `work()`; `none` if there is no answer. -/
def work (now : Int64) (answer : Option JSONObject) (r : FcGroupR) : FcGroupR :=
  let r := { r with countActiveFlow := 0, isAlarm := false, timeAlarm := 0 }
  match answer with
  | none => r
  | some root =>
    attempt (do
      let nlist ← getter (root.getJSONArray "list_node")
      let node ← getter (nlist[0]?.bind Json.asObject)
      let glist ← getter (node.getJSONArray "list_group")
      readGroups now r.remoteId glist) r

/-! ## What is copied -/

/-- The flows of the mirror after those of a group were written over them. -/
def overlay (now before : Int64) : List FcFlow → List FcFlow → List FcFlow
  | ps, [] => ps
  | [], f :: fs => FcFlow.new.setState now (f.getStat before) :: overlay now before [] fs
  | p :: ps, f :: fs => p.setState now (f.getStat before) :: overlay now before ps fs

/-- The mirror after a group was copied. -/
def take (now before : Int64) (r : FcGroupR) (g : FcGroup) : FcGroupR :=
  { r with
    flows := overlay now before r.flows g.flows
    countActiveFlow := g.countActiveFlow, isAlarm := g.isAlarm, timeAlarm := g.timeAlarm }

theorem modify_append_length {α : Type} (l : List α) (a : α) (m : List α) (f : α → α) :
    (l ++ a :: m).modify l.length f = l ++ f a :: m := by
  induction l with
  | nil => rfl
  | cons b l ih => rw [List.cons_append, List.length_cons, List.modify_succ_cons, ih, List.cons_append]

variable (now before : Int64)

theorem attempt_readFlows (fs : List FcFlow) (b : Unit → Block Unit FcGroupR Unit) (r : FcGroupR)
    (done rest : List FcFlow) (hr : r.flows = done ++ rest) :
    attempt (readFlows now done.length (fs.map fun f => .obj (f.getStat before)) >>= b) r
      = attempt (b ()) { r with flows := done ++ overlay now before rest fs } := by
  induction fs generalizing r done rest with
  | nil =>
    rw [overlay, ← hr]
    exact congrArg (attempt · r) (pure_bind () b)
  | cons f fs ih =>
    -- the flow at this index: one that is there, or a new one
    obtain ⟨p, ps, hflows, hover⟩ : ∃ p ps,
        (if r.flows.length ≤ done.length then r.flows ++ [FcFlow.new] else r.flows) = done ++ p :: ps
        ∧ overlay now before rest (f :: fs) = p.setState now (f.getStat before) :: overlay now before ps fs := by
      cases rest with
      | nil =>
        refine ⟨FcFlow.new, [], ?_, rfl⟩
        rw [hr, List.append_nil, if_pos (Nat.le_refl _)]
      | cons p ps =>
        refine ⟨p, ps, ?_, rfl⟩
        rw [hr, if_neg (by simp)]
    rw [List.map_cons, readFlows]
    simp only [bind_assoc, Json.asObject, attempt_getter_some, attempt_update, hflows, modify_append_length]
    have hnext := ih { r with flows := done ++ p.setState now (f.getStat before) :: ps }
      (done ++ [p.setState now (f.getStat before)]) ps (by simp)
    rw [List.length_append, List.length_singleton] at hnext
    rw [hnext, hover, List.append_assoc]
    rfl

theorem attempt_readGroup (g : FcGroup) (nodeId : JString) (b : Unit → Block Unit FcGroupR Unit) (r : FcGroupR) :
    attempt (readGroup now (g.getStat before nodeId) >>= b) r = attempt (b ()) (r.take now before g) := by
  have hflows := fun b => attempt_readFlows now before g.flows b r [] r.flows rfl
  rw [List.length_nil] at hflows
  simp [readGroup, FcGroup.getStat, JSONObject.getJSONArray, JSONObject.getInt, JSONObject.getBoolean,
    JSONObject.getLong, Json.asArray, Json.asInt, Json.asBoolean, Json.asLong, hflows, take]

/-- The groups of a list that `work` copies: those with the remote id, up to one that has no id. -/
def copied (remoteId : Option JString) (groups : List FcGroup) : List FcGroup :=
  (groups.takeWhile (·.id.isSome)).filter fun g => g.id.any (isId · remoteId)

theorem attempt_readGroups (remoteId : Option JString) (groups : List FcGroup) (nodeId : JString) (r : FcGroupR) :
    attempt (readGroups now remoteId (groups.map fun g => .obj (g.getStat before nodeId))) r
      = (copied remoteId groups).foldl (take now before) r := by
  induction groups generalizing r with
  | nil => rfl
  | cons g groups ih =>
    have hid : (g.getStat before nodeId).getString "id" = g.id := by
      simp [FcGroup.getStat, JSONObject.getString]
    rw [List.map_cons, readGroups, Json.asObject, attempt_getter_some, hid]
    cases hg : g.id with
    | none => simp [copied, hg]
    | some id =>
      rw [attempt_getter_some]
      by_cases hmatch : isId id remoteId = true
      · rw [if_pos hmatch, attempt_readGroup, ih]
        simp [copied, hg, hmatch]
      · rw [if_neg hmatch, ih]
        simp [copied, hg, hmatch]

/-- The groups of an answer that `work` copies. They are in the first node. -/
def answered (remoteId : Option JString) (m : FcMngr) : List FcGroup :=
  (m.nodes.head?.map fun n => copied remoteId n.localGroups).getD []

/-- The mirror before an answer is read. -/
def reset (r : FcGroupR) : FcGroupR := { r with countActiveFlow := 0, isAlarm := false, timeAlarm := 0 }

/-- What `work` does with the answer of a manager. -/
theorem work_getLocalStat (m : FcMngr) (r : FcGroupR) :
    r.work now (some (m.getLocalStat before)) = (answered r.remoteId m).foldl (take now before) r.reset := by
  have hnodes : (m.getLocalStat before).getJSONArray "list_node"
      = some (m.nodes.map fun n => .obj (n.getLocalStat before)) := by
    simp [FcMngr.getLocalStat, JSONObject.getJSONArray, Json.asArray]
  rw [work, hnodes]
  dsimp only
  rw [attempt_getter_some]
  cases hm : m.nodes with
  | nil =>
    simp [answered, hm, reset]
  | cons n nodes =>
    have hgroups : (n.getLocalStat before).getJSONArray "list_group"
        = some (n.localGroups.map fun g => .obj (g.getStat before n.id)) := by
      simp [MngrNode.getLocalStat, JSONObject.getJSONArray, Json.asArray]
    rw [List.map_cons, List.getElem?_cons_zero, Option.bind_some, Json.asObject, attempt_getter_some, hgroups,
      attempt_getter_some, attempt_readGroups, answered, hm]
    rfl

end FcGroupR

/-! ## The mirror shows the group -/

/-- What is shown of a queue. -/
def FcQ.shown (q : FcQ) : JString × JString × Int32 × Bool := (q.mngr, q.queue, q.deepQ, q.isAlarm)

/-- The state of a control: the names of its queue and manager are configuration. -/
def FcControl.shown (c : FcControl) : Bool × Bool := (c.isManual, c.isFlag)

/-- The state of a channel. -/
def FcChannel.shown (c : FcChannel) : Option JString × Bool := (c.name, c.isRun)

/-- A flow of the mirror shows a flow. -/
structure SameFlow (p f : FcFlow) : Prop where
  id : p.id = f.id
  name : p.name = f.name
  queues : p.queues.map FcQ.shown = f.queues.map FcQ.shown
  control : p.control.shown = f.control.shown
  channel : p.channel.shown = f.channel.shown
  isAlarm : p.isAlarm = f.isAlarm
  timeAlarm : p.timeAlarm = f.timeAlarm

/-- The mirror shows a group, with all its flows and no other. -/
structure Mirrors (r : FcGroupR) (g : FcGroup) : Prop where
  flows : List.Forall₂ SameFlow r.flows g.flows
  countActiveFlow : r.countActiveFlow = g.countActiveFlow
  isAlarm : r.isAlarm = g.isAlarm
  timeAlarm : r.timeAlarm = g.timeAlarm

/-- Everything that is shown of `f` is copied or is in `p`, the flow of the mirror, already. -/
structure Copies (p f : FcFlow) : Prop where
  /-- The time of an alarm is not copied. -/
  timeAlarm : f.timeAlarm = 0
  /-- Nothing after an id or a name that is missing is copied. -/
  named : (f.id.isSome ∧ f.name.isSome)
    ∨ f.name = none ∧ f.queues = [] ∧ f.isAlarm = p.isAlarm ∧ f.control.shown = p.control.shown
  /-- A channel without a name is not copied. -/
  channel : (f.id.isSome ∧ f.name.isSome ∧ f.channel.name.isSome) ∨ f.channel.shown = p.channel.shown

theorem shown_copied (now : Int64) (queues : List FcQ) :
    (queues.map (FcFlow.copied now)).map FcQ.shown = queues.map FcQ.shown := by
  rw [List.map_map]
  rfl

/-- A channel is shown after `setState` if it has a name, or if it was shown before. -/
theorem channel_setState_iff (p c : FcChannel) :
    (p.setState c.getState).shown = c.shown ↔ c.name.isSome ∨ c.shown = p.shown := by
  rw [FcChannel.setState_getState]
  split_ifs with h
  · exact iff_of_true rfl (Or.inl h)
  · exact ⟨fun heq => Or.inr heq.symm, fun hor => (hor.resolve_left h).symm⟩

theorem sameFlow_setState_iff (now before : Int64) (p f : FcFlow) :
    SameFlow (p.setState now (f.getStat before)) f ↔ Copies p f := by
  by_cases hnone : f.id = none ∨ f.name = none
  · have hnot : ¬ (f.id.isSome ∧ f.name.isSome) := by
      rintro ⟨hid, hname⟩
      rcases hnone with h | h
      · simp [h] at hid
      · simp [h] at hname
    rw [FcFlow.setState_getStat_of_none hnone]
    constructor
    · intro h
      refine ⟨h.timeAlarm.symm, Or.inr ⟨h.name.symm, ?_, h.isAlarm.symm, h.control.symm⟩, Or.inr h.channel.symm⟩
      exact List.map_eq_nil_iff.mp h.queues.symm
    · intro h
      obtain ⟨hname, hqueues, halarm, hcontrol⟩ := h.named.resolve_left hnot
      have hchannel := h.channel.resolve_left fun hc => hnot ⟨hc.1, hc.2.1⟩
      exact ⟨rfl, hname.symm, by rw [hqueues]; rfl, hcontrol.symm, hchannel.symm, halarm.symm, h.timeAlarm.symm⟩
  · obtain ⟨hid, hname⟩ := not_or.mp hnone
    obtain ⟨id, hid⟩ := Option.ne_none_iff_exists'.mp hid
    obtain ⟨name, hname⟩ := Option.ne_none_iff_exists'.mp hname
    rw [FcFlow.setState_getStat hid hname]
    constructor
    · intro h
      refine ⟨h.timeAlarm.symm, Or.inl ⟨by simp [hid], by simp [hname]⟩, ?_⟩
      refine ((channel_setState_iff _ _).mp h.channel).imp_left fun hchannel => ⟨?_, ?_, hchannel⟩
      · simp [hid]
      · simp [hname]
    · intro h
      refine ⟨hid.symm, hname.symm, shown_copied now f.queues, rfl, ?_, rfl, h.timeAlarm.symm⟩
      exact (channel_setState_iff _ _).mpr (h.channel.imp_left fun hc => hc.2.2)

/-- The flow of the mirror at an index, or a new one. -/
def flowAt (ps : List FcFlow) (i : ℕ) : FcFlow := ps[i]?.getD FcFlow.new

theorem forall₂_overlay_iff (now before : Int64) (ps fs : List FcFlow) :
    List.Forall₂ SameFlow (FcGroupR.overlay now before ps fs) fs
      ↔ ps.length ≤ fs.length ∧ ∀ i f, fs[i]? = some f → Copies (flowAt ps i) f := by
  induction fs generalizing ps with
  | nil =>
    rw [FcGroupR.overlay, List.forall₂_nil_right_iff, List.length_nil, Nat.le_zero, List.length_eq_zero_iff]
    exact ⟨fun h => ⟨h, fun i f hf => by cases hf⟩, fun h => h.1⟩
  | cons f fs ih =>
    have hindex : ∀ p ps', (∀ i, flowAt ps (i + 1) = flowAt ps' i) → flowAt ps 0 = p →
        ((Copies p f ∧ ps'.length ≤ fs.length ∧ ∀ i g, fs[i]? = some g → Copies (flowAt ps' i) g)
          ↔ ps'.length ≤ fs.length ∧ ∀ i g, (f :: fs)[i]? = some g → Copies (flowAt ps i) g) := by
      intro p ps' hsucc hzero
      constructor
      · rintro ⟨hf, hlen, hall⟩
        refine ⟨hlen, fun i g hg => ?_⟩
        cases i with
        | zero =>
          obtain rfl : f = g := Option.some.inj hg
          rwa [hzero]
        | succ i =>
          rw [hsucc]
          exact hall i g hg
      · rintro ⟨hlen, hall⟩
        refine ⟨hzero ▸ hall 0 f rfl, hlen, fun i g hg => ?_⟩
        rw [← hsucc]
        exact hall (i + 1) g hg
    cases ps with
    | nil =>
      rw [FcGroupR.overlay, List.forall₂_cons, sameFlow_setState_iff, ih, hindex FcFlow.new [] (fun i => rfl) rfl]
      simp
    | cons p ps =>
      rw [FcGroupR.overlay, List.forall₂_cons, sameFlow_setState_iff, ih, hindex p ps (fun i => rfl) rfl,
        List.length_cons, List.length_cons, Nat.add_le_add_iff_right]

/-- The mirror has no more flows than the group, and everything that is shown of these is copied. -/
def CopiesAll (r : FcGroupR) (g : FcGroup) : Prop :=
  r.flows.length ≤ g.flows.length ∧ ∀ i f, g.flows[i]? = some f → Copies (flowAt r.flows i) f

/-- When the mirror shows a group that it has copied. -/
theorem mirrors_take_iff (now before : Int64) (r : FcGroupR) (g : FcGroup) :
    Mirrors (r.take now before g) g ↔ CopiesAll r g := by
  rw [CopiesAll, ← forall₂_overlay_iff now before]
  exact ⟨fun h => h.flows, fun h => ⟨h, rfl, rfl, rfl⟩⟩

/-! ## Polls -/

/-- One `work` of the mirror: the times at which the answer is read and written, and the state of the other manager
when it answers, or `none` if there is no answer. -/
structure Poll where
  now : Int64
  before : Int64
  mngr : Option FcMngr

/-- The mirror as a machine. -/
def mirror : Machine FcGroupR Poll Unit :=
  ⟨fun r p => (r.work p.now (p.mngr.map (·.getLocalStat p.before)), [])⟩

/-- The local group of a manager with a node id and a group id. -/
def FcMngr.localGroup (nodeId : JString) (groupId : Option JString) (m : FcMngr) : Option FcGroup :=
  (m.nodes.find? fun n => equalsIgnoreCase n.id nodeId).bind fun n =>
    n.localGroups.find? fun g => g.id.any (isId · groupId)

/-- After a poll with an answer, the mirror shows the local group with its node id and remote id. -/
def Mirrored (nodeId : JString) (r : FcGroupR) (p : Poll) : Prop :=
  ∀ m g, p.mngr = some m → m.localGroup nodeId r.remoteId = some g → Mirrors (mirror.step r p).1 g

/-- If there is a group to be mirrored, it is the only one that the first node lists under the remote id, and all that
is shown of it is copied. -/
def Copyable (nodeId : JString) (r : FcGroupR) (p : Poll) : Prop :=
  ∀ m g, p.mngr = some m → m.localGroup nodeId r.remoteId = some g →
    FcGroupR.answered r.remoteId m = [g] ∧ CopiesAll r g

/-- If the group is the only one that is read, the mirror shows it in exactly these cases. -/
theorem mirrors_work_iff {m : FcMngr} {r : FcGroupR} {g : FcGroup} (h : FcGroupR.answered r.remoteId m = [g])
    (now before : Int64) : Mirrors (r.work now (some (m.getLocalStat before))) g ↔ CopiesAll r g := by
  rw [FcGroupR.work_getLocalStat, h, List.foldl_cons, List.foldl_nil, mirrors_take_iff]
  rfl

/-- In every run of polls in which the group is the one that is read and all of it is copied, the mirror shows the
group after every answer. -/
theorem mirrors_run (nodeId : JString) (r : FcGroupR) (polls : List Poll)
    (h : mirror.Along (Copyable nodeId) r polls) : mirror.Along (Mirrored nodeId) r polls := by
  refine Machine.Along.of_invariant (fun r p (_ : True) _ => trivial) ?_ h trivial
  intro r p _ hcopy m g hm hg
  obtain ⟨hread, hall⟩ := hcopy m g hm hg
  have hwork := (mirrors_work_iff hread p.now p.before).mpr hall
  show Mirrors (r.work p.now (p.mngr.map (·.getLocalStat p.before))) g
  rwa [hm]

/-- A mirror that has not been polled yet. -/
def FcGroupR.init (id : JString) : FcGroupR := ⟨some id, some id, none, [], 0, false, 0⟩

/-- A flow with one queue and a channel. -/
def quietFlow (id : String) (deepQ : Int32) : FcFlow :=
  { FcFlow.new with
    id := some id.toList, name := some []
    queues := [⟨"M1".toList, "Q1".toList, deepQ, false, 0⟩]
    channel := { FcChannel.new with name := some "TO.M2".toList } }

/-- A node with one local group, in which no flow is in alarm. -/
def quietNode (id : String) (flows : List FcFlow) : MngrNode :=
  ⟨id.toList, [.groupL ⟨some "G".toList, some "NO NAME".toList, flows, Int32.ofNat flows.length, false, 0⟩]⟩

/-- A group with one flow, which has two in the next poll. -/
theorem mirrors_run_grows :
    mirror.Along (Mirrored "0".toList) (.init "g".toList)
      [⟨1000, 999, some ⟨[quietNode "0" [quietFlow "A" 7]]⟩⟩,
        ⟨2000, 1999, some ⟨[quietNode "0" [quietFlow "A" 3, quietFlow "B" 0]]⟩⟩] := by
  refine mirrors_run _ _ _ ⟨?_, ?_, trivial⟩
  · intro m g hm hg
    obtain rfl := Option.some.inj hm
    obtain rfl := Option.some.inj hg
    refine ⟨by decide, by decide, fun i f hf => ?_⟩
    have hmem : f ∈ [quietFlow "A" 7] := List.mem_of_getElem? hf
    obtain rfl := List.mem_singleton.mp hmem
    exact ⟨by decide, Or.inl (by decide), Or.inl (by decide)⟩
  · intro m g hm hg
    obtain rfl := Option.some.inj hm
    obtain rfl := Option.some.inj hg
    refine ⟨by decide, by decide, fun i f hf => ?_⟩
    have hmem : f ∈ [quietFlow "A" 3, quietFlow "B" 0] := List.mem_of_getElem? hf
    rw [List.mem_pair] at hmem
    rcases hmem with rfl | rfl
    · exact ⟨by decide, Or.inl (by decide), Or.inl (by decide)⟩
    · exact ⟨by decide, Or.inl (by decide), Or.inl (by decide)⟩

/-- The mirror of a group of the second node shows the group of the first. -/
theorem not_mirrors_second_node :
    ¬ mirror.Along (Mirrored "1".toList) (.init "g".toList)
      [⟨1000, 999, some ⟨[quietNode "0" [quietFlow "A" 7], quietNode "1" [quietFlow "B" 0, quietFlow "C" 5]]⟩⟩] := by
  intro h
  have hcount := (h.1 _ _ rfl rfl).countActiveFlow
  revert hcount
  decide

end OrgLittle.Mq
