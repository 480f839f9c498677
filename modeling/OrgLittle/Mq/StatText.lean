import OrgLittle.Java.JsonTransfer
import OrgLittle.Mq.Mirror

/-!
# The state of a manager as a text

`webMngr.doGetState` writes what `fc_mngr.getLocalStat` has put together, and `fc_groupR.work` of another manager reads
it. `Mirror` hands the object over as it is; `getLocalStat_found` says that the text in between changes nothing.
-/

namespace OrgLittle.Mq

open OrgLittle.Java OrgLittle.Java.JsonText

/-- A `String` field, which may be `null`. -/
theorem transferable_put_text {o : JSONObject} (h : (Json.obj o).Transferable) (key : String) (s : Option JString) :
    (Json.obj (o.put key (text s))).Transferable := by
  cases s with
  | none => exact h.putNull key
  | some s => exact h.put key (.str s)

/-! ## The lists of a manager -/

/-- The list of the queues is one of Java, so that its size is an `int`. -/
def FcFlow.Sized (f : FcFlow) : Prop := f.queues.length < 2 ^ 31

/-- The lists of a group are lists of Java. -/
def FcGroup.Sized (g : FcGroup) : Prop := g.flows.length < 2 ^ 31 ∧ ∀ f ∈ g.flows, f.Sized

/-- The lists of a node are lists of Java. -/
def MngrNode.Sized (n : MngrNode) : Prop := n.localGroups.length < 2 ^ 31 ∧ ∀ g ∈ n.localGroups, g.Sized

/-- The lists of a manager are lists of Java. -/
def FcMngr.Sized (m : FcMngr) : Prop := m.nodes.length < 2 ^ 31 ∧ ∀ n ∈ m.nodes, n.Sized

/-! ## What is put together can be transferred -/

variable (now : Int64)

theorem FcQ.transferable (q : FcQ) : (Json.obj (q.getState now)).Transferable :=
  Json.Transferable.new
    |>.put "type" (.str _)
    |>.put "queue" (.str _)
    |>.put "mngr" (.str _)
    |>.put "len" (.int _)
    |>.put "alarm" (.bool _)
    |>.put "time_alarm" (.long _)

theorem FcControl.transferable (c : FcControl) : (Json.obj c.getState).Transferable :=
  Json.Transferable.new
    |>.put "type" (.str _)
    |>.put "is_manual" (.bool _)
    |>.put "is_flag" (.bool _)
    |>.put "queue" (.str _)
    |>.put "mngr" (.str _)

theorem FcChannel.transferable (c : FcChannel) : (Json.obj c.getState).Transferable := by
  have hrun := Json.Transferable.new |>.put "type" (.str "channel".toList) |>.put "is_run" (.bool c.isRun)
  exact (transferable_put_text hrun "chl" c.name).put "mngr" (.str _)

theorem FcFlow.transferable {f : FcFlow} (h : f.Sized) : (Json.obj (f.getStat now)).Transferable := by
  have htype := Json.Transferable.new.put "type" (.str "flow".toList)
  have hname := transferable_put_text (transferable_put_text htype "id" f.id) "name" f.name
  exact hname
    |>.put "alarm" (.bool _)
    |>.put "time_alarm" (.long _)
    |>.put "list_queue" (.objects fun q _ => q.transferable now)
    |>.put "size" (.size h)
    |>.put "control" f.control.transferable
    |>.put "channel" f.channel.transferable

theorem FcGroup.transferable (nodeId : JString) {g : FcGroup} (h : g.Sized) :
    (Json.obj (g.getStat now nodeId)).Transferable := by
  have hnode := Json.Transferable.new |>.put "type" (.str "group".toList) |>.put "node" (.str nodeId)
  have hid := transferable_put_text (transferable_put_text hnode "id" g.id) "rid" g.id
  have hstate := hid
    |>.put "state" (.int g.countActiveFlow)
    |>.put "alarm" (.bool g.isAlarm)
    |>.put "time_alarm" (.long g.timeAlarm)
  exact transferable_put_text hstate "name" g.name
    |>.put "list_flow" (.objects fun f hf => FcFlow.transferable now (h.2 f hf))
    |>.put "size" (.size h.1)

theorem MngrNode.transferable {n : MngrNode} (h : n.Sized) : (Json.obj (n.getLocalStat now)).Transferable :=
  Json.Transferable.new
    |>.put "type" (.str _)
    |>.put "list_group" (.objects fun g hg => FcGroup.transferable now n.id (h.2 g hg))
    |>.put "size" (.size h.1)

theorem FcMngr.transferable {m : FcMngr} (h : m.Sized) : (Json.obj (m.getLocalStat now)).Transferable :=
  Json.Transferable.new
    |>.put "type" (.str _)
    |>.put "list_node" (.objects fun n hn => MngrNode.transferable now (h.2 n hn))
    |>.put "size" (.size h.1)

/-! ## The poll -/

variable {D : Type*} (runtime : Runtime D)

/-- The manager that polls finds in the text of the answer, under every key and at every depth, what the other manager
has put there, and nothing else. -/
theorem getLocalStat_found (hkeys : ∀ ks, (runtime.keys ks).Perm ks) {m : FcMngr} (h : m.Sized) :
    ∃ v, parseJSONObject runtime
        (writeValue runtime 0 0 ((Json.obj (m.getLocalStat now)).toValue.listed runtime.keys)) = .ok v
      ∧ (Json.obj (m.getLocalStat now)).FoundAs v :=
  found_transferred runtime hkeys 0 (FcMngr.transferable now h)

/-- A manager with one node, one group and one flow. -/
def oneFlow : FcMngr := ⟨[⟨"n".toList, [.groupL ⟨some "g".toList, none, [FcFlow.new], 0, false, 0⟩]⟩]⟩

/-- The keys are listed backwards. -/
theorem getLocalStat_found_backwards :
    ∃ v, parseJSONObject { oneAndHalf with keys := List.reverse }
        (writeValue { oneAndHalf with keys := List.reverse } 0 0
          ((Json.obj (oneFlow.getLocalStat 0)).toValue.listed List.reverse)) = .ok v
      ∧ (Json.obj (oneFlow.getLocalStat 0)).FoundAs v := by
  refine getLocalStat_found 0 _ List.reverse_perm ⟨by decide, fun n hn => ?_⟩
  obtain rfl := List.mem_singleton.mp hn
  refine ⟨by decide, fun g hg => ?_⟩
  obtain rfl := List.mem_singleton.mp hg
  refine ⟨by decide, fun f hf => ?_⟩
  obtain rfl := List.mem_singleton.mp hf
  exact (by decide : ([] : List FcQ).length < 2 ^ 31)

end OrgLittle.Mq
