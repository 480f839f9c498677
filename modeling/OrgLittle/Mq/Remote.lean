import OrgLittle.Java.Query
import OrgLittle.Mq.Mirror

/-!
# Commands to remote groups

A command to a remote group becomes a request to the manager that has the group, which looks for a node and a group
with the ids of the request and may find a remote group again. The ids stand in the URL as they are, without escapes.
The command for all flows of a group reaches all groups of the node, and the command to clear a queue does not carry the
flow. `sameAsLocal_iff` says in which configurations a command does what it would do on the local group.
-/

namespace OrgLittle.Mq

open OrgLittle.Java OrgLittle.Lib

/-! ## Commands on a local group -/

/-- The commands of `fc_group`. A `none` is `null`. -/
inductive Command
  | setFlag (flow : Option JString) (isFlag : Bool)
  | setFlagAll (isFlag : Bool)
  | setChannel (flow : Option JString) (isRun : Bool)
  | setChannelAll (isRun : Bool)
  | clearQ (flow mngr q : Option JString)
deriving DecidableEq

/-- What is called on a flow: `setFlag`, `setChannel`, or `ClearQ` of its queue at an index. -/
inductive FlowCall
  | setFlag (flag : Bool)
  | setChannel (isRun : Bool)
  | clearQ (queue : ℕ)
deriving DecidableEq

/-- The index of the first queue with these names. -/
def FcFlow.findQueue (mngr q : Option JString) (f : FcFlow) : Option ℕ :=
  f.queues.findIdx? fun x => decide (some x.queue = q) && decide (some x.mngr = mngr)

namespace FcGroup

/-- The first flow with an id. A flow without an id before it raises an exception. -/
def findFlow (same : JString → Bool) (g : FcGroup) : Option (FcFlow × ℕ) :=
  (g.flows.zipIdx.takeWhile (·.1.id.isSome)).find? fun p => p.1.id.any same

/-- The calls on the flows of a local group, by their index. -/
def call (g : FcGroup) : Command → List (ℕ × FlowCall)
  | .setFlag flow isFlag => ((g.findFlow (isId · flow)).map fun p => (p.2, .setFlag isFlag)).toList
  | .setFlagAll isFlag => g.flows.zipIdx.map fun p => (p.2, .setFlag isFlag)
  | .setChannel flow isRun => ((g.findFlow (isId · flow)).map fun p => (p.2, .setChannel isRun)).toList
  | .setChannelAll isRun => g.flows.zipIdx.map fun p => (p.2, .setChannel isRun)
  | .clearQ flow mngr q =>
    ((g.findFlow fun id => decide (some id = flow)).bind fun p =>
      (p.1.findQueue mngr q).map fun i => (p.2, .clearQ i)).toList

end FcGroup

/-! ## Requests -/

/-- The commands that `webMngr` has a path for. -/
inductive WebPath
  | setFlag | setFlagAll | setChannel | setChannelAll | clearQ
deriving DecidableEq

/-- The path of a command. -/
def Command.path : Command → WebPath
  | setFlag _ _ => .setFlag
  | setFlagAll _ => .setFlagAll
  | setChannel _ _ => .setChannel
  | setChannelAll _ => .setChannelAll
  | clearQ _ _ _ => .clearQ

/-- A request as it is received: its path and its parameters. -/
structure Request where
  path : WebPath
  parameters : List (JString × JString)
deriving DecidableEq

/-- A text in a URL; `null` is written as a word. -/
def param (s : Option JString) : JString := s.getD "null".toList

/-- `String.valueOf(b)`. -/
def boolText (b : Bool) : JString := if b then "true".toList else "false".toList

/-- The names and texts that `fc_groupR` writes into the query of its URL. The last parameter `_`, a number that nothing
reads, is left out. -/
def FcGroupR.pairs (nodeId : JString) (r : FcGroupR) : Command → List (String × JString)
  | .setFlag flow isFlag => [("node", nodeId), ("group", param r.remoteId), ("flow", param flow),
      ("state", boolText isFlag)]
  | .setFlagAll isFlag => [("node", nodeId), ("group", param r.remoteId), ("state", boolText isFlag)]
  | .setChannel flow isRun => [("node", nodeId), ("group", param r.remoteId), ("flow", param flow),
      ("state", boolText isRun)]
  | .setChannelAll isRun => [("node", nodeId), ("group", param r.remoteId), ("state", boolText isRun)]
  | .clearQ _ mngr q => [("node", nodeId), ("group", param r.remoteId), ("mngr", param mngr), ("q", param q)]

namespace Request

/-- `request.getParameter(name)`. -/
def getParameter (req : Request) (name : String) : Option JString := req.parameters.lookup name.toList

/-- `Boolean.parseBoolean(request.getParameter("state"))`. -/
def state (req : Request) : Bool := (req.getParameter "state").any (equalsIgnoreCase · "true".toList)

/-- The command that `webMngr` reads from a request, besides the node and the group. -/
def command (req : Request) : Command :=
  match req.path with
  | .setFlag => .setFlag (req.getParameter "flow") req.state
  | .setFlagAll => .setFlagAll req.state
  | .setChannel => .setChannel (req.getParameter "flow") req.state
  | .setChannelAll => .setChannelAll req.state
  | .clearQ => .clearQ (req.getParameter "flow") (req.getParameter "mngr") (req.getParameter "q")

end Request

/-! ## Dispatch -/

/-- `getID()` of a group. -/
def Group.id : Group → Option JString
  | .groupL g => g.id
  | .groupR r => r.id

/-- The first node with an id. -/
def FcMngr.findNode (nodeId : Option JString) (m : FcMngr) : Option (MngrNode × ℕ) :=
  m.nodes.zipIdx.find? fun p => isId p.1.id nodeId

namespace MngrNode

/-- The first group with an id. A group without an id before it raises an exception. -/
def findGroup (groupId : Option JString) (n : MngrNode) : Option (Group × ℕ) :=
  (n.groups.zipIdx.takeWhile (·.1.id.isSome)).find? fun p => p.1.id.any (isId · groupId)

/-- The groups of the node on which `fc_node` calls a command. -/
def addressed (groupId : Option JString) (n : MngrNode) : Command → List (Group × ℕ)
  | .setFlagAll _ => n.groups.zipIdx
  | .setChannelAll _ => n.groups.zipIdx
  | _ => (n.findGroup groupId).toList

end MngrNode

/-- A group of a manager: the indices of the manager, the node and the group. -/
structure Place where
  mngr : ℕ
  node : ℕ
  group : ℕ
deriving DecidableEq

/-- A call on a flow at a place. -/
structure Change where
  place : Place
  flow : ℕ
  call : FlowCall
deriving DecidableEq

/-- The managers, which of them a URL leads to, the charset in which a manager's container reads a query, and the normal
form of texts. -/
structure Net where
  mngrs : List FcMngr
  host : Option JString → Option ℕ
  charset : ℕ → Charset
  normalize : JString → JString

/-- The calls of a command on a local group at a place. -/
def FcGroup.changes (g : FcGroup) (place : Place) (cmd : Command) : List Change :=
  (g.call cmd).map fun c => ⟨place, c.1, c.2⟩

/-- One list after the other, unless one does not end. -/
def joinAll {α : Type} : List (Option (List α)) → Option (List α)
  | [] => some []
  | x :: xs => x.bind fun a => (joinAll xs).map fun b => a ++ b

namespace Net

/-- The node of a manager with an id, and its index. -/
def node (net : Net) (i : ℕ) (nodeId : Option JString) : Option (MngrNode × ℕ) :=
  net.mngrs[i]?.bind (FcMngr.findNode nodeId)

/-- The request that a command to a remote group becomes, and the manager that receives it; none if the URL is not
well-formed (`URISyntaxException`) or leads nowhere. -/
def arrives (net : Net) (nodeId : JString) (r : FcGroupR) (cmd : Command) : Option (ℕ × Request) :=
  (URI.rawQuery (query (r.pairs nodeId cmd))).bind fun raw =>
    (net.host r.url).map fun i =>
      (i, ⟨cmd.path, parameters (net.charset i) (toASCIIString net.normalize raw)⟩)

/-- `webMngr.doRun` and what `fc_mngr` and `fc_node` do with the request; `none` if the requests that follow from it
do not end within `fuel` rounds. -/
def doRun (net : Net) : ℕ → ℕ → Request → Option (List Change)
  | 0, _, _ => none
  | fuel + 1, i, req =>
    match net.node i (req.getParameter "node") with
    | none => some []
    | some (n, k) =>
      joinAll ((n.addressed (req.getParameter "group") req.command).map fun
        | (.groupL g, j) => some (g.changes ⟨i, k, j⟩ req.command)
        | (.groupR r, _) =>
          match net.arrives n.id r req.command with
          | none => some []
          | some (i', req') => net.doRun fuel i' req')

/-- A command to a remote group of a node with the id `nodeId`. -/
def callR (net : Net) (fuel : ℕ) (nodeId : JString) (r : FcGroupR) (cmd : Command) : Option (List Change) :=
  match net.arrives nodeId r cmd with
  | none => some []
  | some (i, req) => net.doRun fuel i req

end Net

/-! ## The same command on the local group -/

/-- The first local group with an id. -/
def MngrNode.findLocal (groupId : Option JString) (n : MngrNode) : Option (FcGroup × ℕ) :=
  n.groups.zipIdx.findSome? fun
    | (.groupL g, j) => if g.id.any (isId · groupId) then some (g, j) else none
    | (.groupR _, _) => none

/-- The local group with the node id and the remote id of a remote group, at the manager that it leads to. -/
def Net.target (net : Net) (nodeId : JString) (r : FcGroupR) : Option (Place × FcGroup) :=
  (net.host r.url).bind fun i => (net.node i (some nodeId)).bind fun p =>
    (p.1.findLocal r.remoteId).map fun q => (⟨i, p.2, q.2⟩, q.1)

/-- A command to a remote group ends after finitely many requests and leads to the same calls as the command on the
local group, and to no others. -/
def SameAsLocal (net : Net) (nodeId : JString) (r : FcGroupR) (cmd : Command) : Prop :=
  ∀ place g, net.target nodeId r = some (place, g) →
    ∃ fuel, net.callR fuel nodeId r cmd = some (g.changes place cmd)

/-! ## The condition -/

/-- The groups on which the manager `i` calls the command of a request, and the node that has them. -/
def Net.addressed (net : Net) (i : ℕ) (req : Request) : Option (MngrNode × ℕ × List (Group × ℕ)) :=
  (net.node i (req.getParameter "node")).map fun p =>
    (p.1, p.2, p.1.addressed (req.getParameter "group") req.command)

/-- A command to a remote group ends, and nothing is called on any flow. -/
inductive Idle (net : Net) : JString → FcGroupR → Command → Prop
  | notSent {nodeId r cmd} (harrives : net.arrives nodeId r cmd = none) : Idle net nodeId r cmd
  | noNode {nodeId r cmd i req} (harrives : net.arrives nodeId r cmd = some (i, req))
      (hnode : net.addressed i req = none) : Idle net nodeId r cmd
  | node {nodeId r cmd i req n k groups} (harrives : net.arrives nodeId r cmd = some (i, req))
      (hnode : net.addressed i req = some (n, k, groups))
      (hlocal : ∀ g j, (.groupL g, j) ∈ groups → g.call req.command = [])
      (hremote : ∀ r' j, (.groupR r', j) ∈ groups → Idle net n.id r' req.command) : Idle net nodeId r cmd

/-- Nothing is called through this group of a node with the id `nodeId`. -/
def IdleGroup (net : Net) (nodeId : JString) (cmd : Command) : Group → Prop
  | .groupL g => g.call cmd = []
  | .groupR r => Idle net nodeId r cmd

/-- A command to a remote group ends at a local group, where another command is read from the last request, and nothing
is called through the other groups that are addressed on the way. -/
inductive Reaches (net : Net) : JString → FcGroupR → Command → Place → FcGroup → Command → Prop
  | here {nodeId r cmd i req n k} {groups : List (Group × ℕ)} {l : ℕ} {g j}
      (harrives : net.arrives nodeId r cmd = some (i, req)) (hnode : net.addressed i req = some (n, k, groups))
      (hgroup : groups[l]? = some (.groupL g, j))
      (hothers : ∀ (l' : ℕ) p, l' ≠ l → groups[l']? = some p → IdleGroup net n.id req.command p.1) :
      Reaches net nodeId r cmd ⟨i, k, j⟩ g req.command
  | forward {nodeId r cmd i req n k} {groups : List (Group × ℕ)} {l : ℕ} {r' j place g cmd'}
      (harrives : net.arrives nodeId r cmd = some (i, req)) (hnode : net.addressed i req = some (n, k, groups))
      (hgroup : groups[l]? = some (.groupR r', j))
      (hothers : ∀ (l' : ℕ) p, l' ≠ l → groups[l']? = some p → IdleGroup net n.id req.command p.1)
      (hreaches : Reaches net n.id r' req.command place g cmd') : Reaches net nodeId r cmd place g cmd'

/-- The condition under which a command to a remote group does the same as on the local group: there is nothing to call
and nothing is called, or the command ends at this group, where the command that is read calls the same. -/
def KeepsScope (net : Net) (nodeId : JString) (r : FcGroupR) (place : Place) (g : FcGroup) (cmd : Command) : Prop :=
  (g.call cmd = [] ∧ Idle net nodeId r cmd)
    ∨ ∃ cmd', Reaches net nodeId r cmd place g cmd' ∧ g.call cmd' = g.call cmd

/-! ## Lists that are joined -/

section joinAll

variable {α β : Type}

/-- A joined list has parts, all of which end. -/
theorem joinAll_eq_some {l : List (Option (List α))} {log : List α} (h : joinAll l = some log) :
    ∃ parts : List (List α), l = parts.map some ∧ parts.flatten = log := by
  induction l generalizing log with
  | nil => exact ⟨[], rfl, Option.some.inj h⟩
  | cons x l ih =>
    obtain ⟨a, rfl, hl⟩ := Option.bind_eq_some_iff.mp h
    obtain ⟨b, hb, rfl⟩ := Option.map_eq_some_iff.mp hl
    obtain ⟨parts, rfl, rfl⟩ := ih hb
    exact ⟨a :: parts, rfl, rfl⟩

/-- Where all parts are known, so is the joined list. -/
theorem joinAll_map {f : β → Option (List α)} {g : β → List α} {l : List β} (h : ∀ p ∈ l, f p = some (g p)) :
    joinAll (l.map f) = some (l.map g).flatten := by
  induction l with
  | nil => rfl
  | cons p l ih =>
    rw [List.map_cons, joinAll, h p List.mem_cons_self, ih fun q hq => h q (List.mem_cons_of_mem p hq)]
    rfl

/-- All parts but one are empty. -/
theorem flatten_eq_of_others {parts : List (List α)} {j : ℕ} {b : List α} (hj : parts[j]? = some b)
    (h : ∀ j' a, j' ≠ j → parts[j']? = some a → a = []) : parts.flatten = b := by
  induction parts generalizing j with
  | nil => cases hj
  | cons c parts ih =>
    rw [List.flatten_cons]
    cases j with
    | zero =>
      obtain rfl : c = b := Option.some.inj hj
      have hnil : parts.flatten = [] := by
        refine List.flatten_eq_nil_iff.mpr fun a ha => ?_
        obtain ⟨j', hj'⟩ := List.mem_iff_getElem?.mp ha
        exact h (j' + 1) a (Nat.succ_ne_zero j') hj'
      rw [hnil, List.append_nil]
    | succ j =>
      rw [h 0 c (Nat.zero_ne_add_one j) rfl, List.nil_append]
      exact ih hj fun j' a hne ha => h (j' + 1) a (fun heq => hne (Nat.succ.inj heq)) ha

/-- If one element is counted in the parts, and every part that is not empty has one, the other parts are empty. -/
theorem exists_part {p : α → Bool} {parts : List (List α)} (hcount : parts.flatten.countP p = 1)
    (hpart : ∀ a ∈ parts, a.countP p = 0 → a = []) :
    ∃ l : ℕ, parts[l]? = some parts.flatten ∧ ∀ (l' : ℕ) a, l' ≠ l → parts[l']? = some a → a = [] := by
  induction parts with
  | nil => cases hcount
  | cons b parts ih =>
    rw [List.forall_mem_cons] at hpart
    rw [List.flatten_cons, List.countP_append] at hcount
    by_cases hb : b.countP p = 0
    · rw [hb, Nat.zero_add] at hcount
      obtain ⟨l, hl, hothers⟩ := ih hcount hpart.2
      rw [List.flatten_cons, hpart.1 hb, List.nil_append]
      refine ⟨l + 1, hl, fun l' a hne ha => ?_⟩
      cases l' with
      | zero => exact (Option.some.inj ha).symm
      | succ l' => exact hothers l' a (fun heq => hne (congrArg (· + 1) heq)) ha
    · have hrest : parts.flatten.countP p = 0 := by omega
      have hnil : ∀ a ∈ parts, a = [] := by
        intro a ha
        refine hpart.2 a ha (List.countP_eq_zero.mpr fun x hx => ?_)
        exact List.countP_eq_zero.mp hrest x (List.mem_flatten.mpr ⟨a, ha, hx⟩)
      rw [List.flatten_cons, List.flatten_eq_nil_iff.mpr hnil, List.append_nil]
      refine ⟨0, rfl, fun l' a hne ha => ?_⟩
      obtain ⟨l', rfl⟩ := Nat.exists_eq_succ_of_ne_zero hne
      exact hnil a (List.mem_of_getElem? ha)

/-- One number of rounds that is enough for all elements of a list. -/
theorem exists_fuel_forall {P : ℕ → β → Prop} (hmono : ∀ {m n p}, m ≤ n → P m p → P n p) {l : List β}
    (h : ∀ p ∈ l, ∃ fuel, P fuel p) : ∃ fuel, ∀ p ∈ l, P fuel p := by
  induction l with
  | nil => exact ⟨0, fun p hp => by cases hp⟩
  | cons p l ih =>
    obtain ⟨m, hm⟩ := h p List.mem_cons_self
    obtain ⟨n, hn⟩ := ih fun q hq => h q (List.mem_cons_of_mem p hq)
    refine ⟨max m n, fun q hq => ?_⟩
    rcases List.mem_cons.mp hq with rfl | hq
    · exact hmono (Nat.le_max_left m n) hm
    · exact hmono (Nat.le_max_right m n) (hn q hq)

end joinAll

/-! ## Calls on one group -/

/-- The path is for all flows. -/
def WebPath.isAll : WebPath → Bool
  | .setFlagAll => true
  | .setChannelAll => true
  | _ => false

/-- The calls that are counted: of those of one command on one group, the first. -/
def isFirst (path : WebPath) (c : Change) : Bool := !path.isAll || c.flow == 0

/-- The command that is read from a request is the one that its path names. -/
theorem path_command (req : Request) : req.command.path = req.path := by
  rw [Request.command]
  cases req.path <;> rfl

/-- At most one change of a single flow counts. -/
theorem countP_toList {x : Option (ℕ × FlowCall)} {place : Place} {path : WebPath} (hpath : path.isAll = false) :
    (x.toList.map fun c => (⟨place, c.1, c.2⟩ : Change)).countP (isFirst path) = if x.toList = [] then 0 else 1 := by
  cases x with
  | none => rfl
  | some c => simp [isFirst, hpath]

/-- Of the changes of all flows of a group one counts, if there is a flow. -/
theorem countP_zipIdx (flows : List FcFlow) (call : FlowCall) {place : Place} {path : WebPath}
    (hpath : path.isAll = true) :
    ((flows.zipIdx.map fun p => (p.2, call)).map fun c => (⟨place, c.1, c.2⟩ : Change)).countP (isFirst path)
      = if flows.zipIdx.map (fun p => (p.2, call)) = [] then 0 else 1 := by
  cases flows with
  | nil => rfl
  | cons f flows =>
    have hrest : ((flows.zipIdx 1).map fun p => (⟨place, p.2, call⟩ : Change)).countP (isFirst path) = 0 := by
      refine List.countP_eq_zero.mpr fun c hc => ?_
      obtain ⟨p, hp, rfl⟩ := List.mem_map.mp hc
      have hle := List.le_snd_of_mem_zipIdx hp
      simp only [isFirst, hpath, Bool.not_true, Bool.false_or, beq_iff_eq]
      omega
    rw [List.map_map, List.zipIdx_cons, List.map_cons, List.map_cons, if_neg (List.cons_ne_nil _ _),
      List.countP_cons_of_pos (by simp [isFirst])]
    exact congrArg (· + 1) hrest

/-- One call is counted on a group on which anything is called. -/
theorem countP_changes (g : FcGroup) (place : Place) (cmd : Command) :
    (g.changes place cmd).countP (isFirst cmd.path) = if g.call cmd = [] then 0 else 1 := by
  cases cmd with
  | setFlag flow isFlag => exact countP_toList rfl
  | setFlagAll isFlag => exact countP_zipIdx g.flows _ rfl
  | setChannel flow isRun => exact countP_toList rfl
  | setChannelAll isRun => exact countP_zipIdx g.flows _ rfl
  | clearQ flow mngr q => exact countP_toList rfl

/-- There are no changes if there are no calls. -/
theorem changes_eq_nil {g : FcGroup} {place : Place} {cmd : Command} :
    g.changes place cmd = [] ↔ g.call cmd = [] := List.map_eq_nil_iff

/-! ## One round -/

section round

variable {net : Net} {nodeId : JString} {r : FcGroupR} {cmd : Command}

/-- What one of the addressed groups leads to. -/
def Net.part (net : Net) (fuel i : ℕ) (n : MngrNode) (k : ℕ) (cmd : Command) : Group × ℕ → Option (List Change)
  | (.groupL g, j) => some (g.changes ⟨i, k, j⟩ cmd)
  | (.groupR r, _) => net.callR fuel n.id r cmd

/-- What arrives is a command of the same kind. -/
theorem path_of_arrives {i : ℕ} {req : Request} (h : net.arrives nodeId r cmd = some (i, req)) :
    req.command.path = cmd.path := by
  obtain ⟨raw, -, h⟩ := Option.bind_eq_some_iff.mp h
  obtain ⟨i', -, h⟩ := Option.map_eq_some_iff.mp h
  rw [path_command, ← (Prod.mk.inj h).2]

/-- What a manager does with a request. -/
theorem doRun_succ (net : Net) (fuel i : ℕ) (req : Request) :
    net.doRun (fuel + 1) i req = match net.addressed i req with
      | none => some []
      | some (n, k, groups) => joinAll (groups.map (net.part fuel i n k req.command)) := by
  rw [Net.doRun, Net.addressed]
  rcases net.node i (req.getParameter "node") with _ | ⟨n, k⟩
  · rfl
  · refine congrArg joinAll (List.map_congr_left fun p _ => ?_)
    rcases p with ⟨g | r, j⟩
    · rfl
    · rfl

/-- A request that is not sent changes nothing. -/
theorem callR_notSent (h : net.arrives nodeId r cmd = none) (fuel : ℕ) : net.callR fuel nodeId r cmd = some [] := by
  rw [Net.callR, h]

/-- A request for a node that is not there changes nothing. -/
theorem callR_noNode {i : ℕ} {req : Request} (harrives : net.arrives nodeId r cmd = some (i, req))
    (hnode : net.addressed i req = none) (fuel : ℕ) : net.callR (fuel + 1) nodeId r cmd = some [] := by
  rw [Net.callR, harrives]
  dsimp only
  rw [doRun_succ, hnode]

/-- A request for a node is one for its groups. -/
theorem callR_node {i k : ℕ} {req : Request} {n : MngrNode} {groups : List (Group × ℕ)}
    (harrives : net.arrives nodeId r cmd = some (i, req)) (hnode : net.addressed i req = some (n, k, groups))
    (fuel : ℕ) :
    net.callR (fuel + 1) nodeId r cmd = joinAll (groups.map (net.part fuel i n k req.command)) := by
  rw [Net.callR, harrives]
  dsimp only
  rw [doRun_succ, hnode]

/-- How a command to a remote group can end. -/
theorem callR_cases {fuel : ℕ} {log : List Change} (h : net.callR fuel nodeId r cmd = some log) :
    (net.arrives nodeId r cmd = none ∧ log = [])
      ∨ (∃ fuel' i req, fuel = fuel' + 1 ∧ net.arrives nodeId r cmd = some (i, req) ∧ net.addressed i req = none
        ∧ log = [])
      ∨ ∃ (fuel' i : ℕ) (req : Request) (n : MngrNode) (k : ℕ) (groups : List (Group × ℕ))
        (parts : List (List Change)), fuel = fuel' + 1 ∧ net.arrives nodeId r cmd = some (i, req)
        ∧ net.addressed i req = some (n, k, groups)
        ∧ groups.map (net.part fuel' i n k req.command) = parts.map some ∧ parts.flatten = log := by
  cases harrives : net.arrives nodeId r cmd with
  | none =>
    rw [callR_notSent harrives] at h
    exact Or.inl ⟨rfl, (Option.some.inj h).symm⟩
  | some p =>
    obtain ⟨i, req⟩ := p
    cases fuel with
    | zero =>
      rw [Net.callR, harrives] at h
      cases h
    | succ fuel =>
      cases hnode : net.addressed i req with
      | none =>
        rw [callR_noNode harrives hnode] at h
        exact Or.inr (Or.inl ⟨fuel, i, req, rfl, rfl, hnode, (Option.some.inj h).symm⟩)
      | some q =>
        obtain ⟨n, k, groups⟩ := q
        rw [callR_node harrives hnode] at h
        obtain ⟨parts, hparts, hflatten⟩ := joinAll_eq_some h
        exact Or.inr (Or.inr ⟨fuel, i, req, n, k, groups, parts, rfl, rfl, hnode, hparts, hflatten⟩)

/-- The part of an addressed group. -/
theorem part_of_getElem {fuel i k : ℕ} {n : MngrNode} {groups : List (Group × ℕ)} {parts : List (List Change)}
    (hparts : groups.map (net.part fuel i n k cmd) = parts.map some) {l : ℕ} {p : Group × ℕ}
    (hp : groups[l]? = some p) : ∃ a, parts[l]? = some a ∧ net.part fuel i n k cmd p = some a := by
  have hl := congrArg (·[l]?) hparts
  simp only [List.getElem?_map, hp, Option.map_some] at hl
  obtain ⟨a, ha, hpart⟩ := Option.map_eq_some_iff.mp hl.symm
  exact ⟨a, ha, hpart.symm⟩

/-- The group of a part. -/
theorem group_of_getElem {fuel i k : ℕ} {n : MngrNode} {groups : List (Group × ℕ)} {parts : List (List Change)}
    (hparts : groups.map (net.part fuel i n k cmd) = parts.map some) {l : ℕ} {a : List Change}
    (ha : parts[l]? = some a) : ∃ p, groups[l]? = some p ∧ net.part fuel i n k cmd p = some a := by
  have hl := congrArg (·[l]?) hparts
  simp only [List.getElem?_map, ha, Option.map_some] at hl
  exact Option.map_eq_some_iff.mp hl

/-- More rounds than needed make no difference. -/
theorem callR_mono {fuel fuel' : ℕ} {log : List Change} (hle : fuel ≤ fuel')
    (h : net.callR fuel nodeId r cmd = some log) : net.callR fuel' nodeId r cmd = some log := by
  induction fuel generalizing fuel' nodeId r cmd log with
  | zero =>
    rcases callR_cases h with ⟨harrives, rfl⟩ | ⟨_, _, _, hfuel, _⟩ | ⟨_, _, _, _, _, _, _, hfuel, _⟩
    · exact callR_notSent harrives fuel'
    · cases hfuel
    · cases hfuel
  | succ fuel ih =>
    obtain ⟨fuel', rfl⟩ : ∃ m, fuel' = m + 1 := Nat.exists_eq_succ_of_ne_zero (by omega)
    rcases callR_cases h with ⟨harrives, rfl⟩ | ⟨_, i, req, _, harrives, hnode, rfl⟩
      | ⟨_, i, req, n, k, groups, parts, hfuel, harrives, hnode, hparts, _⟩
    · exact callR_notSent harrives _
    · exact callR_noNode harrives hnode fuel'
    · obtain rfl := Nat.succ.inj hfuel
      rw [← h, callR_node harrives hnode, callR_node harrives hnode]
      refine congrArg joinAll (List.map_congr_left fun p hp => ?_)
      obtain ⟨l, hl⟩ := List.mem_iff_getElem?.mp hp
      -- every part ended with the smaller number of rounds
      obtain ⟨a, -, ha⟩ := part_of_getElem hparts hl
      rcases p with ⟨g | r', j⟩
      · rfl
      · exact (ih (Nat.le_of_succ_le_succ hle) ha).trans ha.symm

/-- Nor do they for one group. -/
theorem part_mono {fuel fuel' i k : ℕ} {n : MngrNode} {p : Group × ℕ} {log : List Change} (hle : fuel ≤ fuel')
    (h : net.part fuel i n k cmd p = some log) : net.part fuel' i n k cmd p = some log := by
  rcases p with ⟨g | r, j⟩
  · exact h
  · exact callR_mono hle h

/-! ## Commands that call nothing -/

/-- Where nothing is changed, the request was idle, by induction on the rounds. -/
theorem idle_of_callR {fuel : ℕ} (h : net.callR fuel nodeId r cmd = some []) : Idle net nodeId r cmd := by
  induction fuel generalizing nodeId r cmd with
  | zero =>
    rcases callR_cases h with ⟨harrives, -⟩ | ⟨_, _, _, hfuel, _⟩ | ⟨_, _, _, _, _, _, _, hfuel, _⟩
    · exact .notSent harrives
    · cases hfuel
    · cases hfuel
  | succ fuel ih =>
    rcases callR_cases h with ⟨harrives, -⟩ | ⟨_, i, req, _, harrives, hnode, -⟩
      | ⟨_, i, req, n, k, groups, parts, hfuel, harrives, hnode, hparts, hflatten⟩
    · exact .notSent harrives
    · exact .noNode harrives hnode
    · obtain rfl := Nat.succ.inj hfuel
      have hnil : ∀ p ∈ groups, net.part fuel i n k req.command p = some [] := by
        intro p hp
        obtain ⟨l, hl⟩ := List.mem_iff_getElem?.mp hp
        obtain ⟨a, ha, hpart⟩ := part_of_getElem hparts hl
        rw [hpart, List.flatten_eq_nil_iff.mp hflatten a (List.mem_of_getElem? ha)]
      refine .node harrives hnode (fun g j hg => ?_) fun r' j hr' => ih (hnil _ hr')
      exact changes_eq_nil.mp (Option.some.inj (hnil _ hg))

theorem idleGroup_of_part {fuel i k : ℕ} {n : MngrNode} {p : Group × ℕ}
    (h : net.part fuel i n k cmd p = some []) : IdleGroup net n.id cmd p.1 := by
  rcases p with ⟨g | r, j⟩
  · exact changes_eq_nil.mp (Option.some.inj h)
  · exact idle_of_callR h

/-- An idle request ends. -/
theorem callR_of_idle (h : Idle net nodeId r cmd) : ∃ fuel, net.callR fuel nodeId r cmd = some [] := by
  induction h with
  | notSent harrives => exact ⟨0, callR_notSent harrives 0⟩
  | noNode harrives hnode => exact ⟨1, callR_noNode harrives hnode 0⟩
  | @node nodeId r cmd i req n k groups harrives hnode hlocal _ ih =>
    have hparts : ∀ p ∈ groups, ∃ fuel, net.part fuel i n k req.command p = some [] := by
      rintro ⟨g | r', j⟩ hp
      · exact ⟨0, congrArg some (changes_eq_nil.mpr (hlocal g j hp))⟩
      · exact ih r' j hp
    obtain ⟨fuel, hfuel⟩ :=
      exists_fuel_forall (P := fun fuel p => net.part fuel i n k req.command p = some []) part_mono hparts
    refine ⟨fuel + 1, ?_⟩
    rw [callR_node harrives hnode, joinAll_map hfuel]
    simp

/-- An idle group ends. -/
theorem part_of_idleGroup {i k : ℕ} {n : MngrNode} {p : Group × ℕ} (h : IdleGroup net n.id cmd p.1) :
    ∃ fuel, net.part fuel i n k cmd p = some [] := by
  rcases p with ⟨g | r, j⟩
  · exact ⟨0, congrArg some (changes_eq_nil.mpr h)⟩
  · exact callR_of_idle h

/-! ## Commands that end at one group -/

/-- Where nothing is counted, nothing is called. -/
theorem eq_nil_of_countP {fuel : ℕ} {log : List Change} (h : net.callR fuel nodeId r cmd = some log)
    (hcount : log.countP (isFirst cmd.path) = 0) : log = [] := by
  induction fuel generalizing nodeId r cmd log with
  | zero =>
    rcases callR_cases h with ⟨-, hlog⟩ | ⟨_, _, _, hfuel, _⟩ | ⟨_, _, _, _, _, _, _, hfuel, _⟩
    · exact hlog
    · cases hfuel
    · cases hfuel
  | succ fuel ih =>
    rcases callR_cases h with ⟨-, hlog⟩ | ⟨_, _, _, _, _, _, hlog⟩
      | ⟨_, i, req, n, k, groups, parts, hfuel, harrives, hnode, hparts, rfl⟩
    · exact hlog
    · exact hlog
    · obtain rfl := Nat.succ.inj hfuel
      refine List.flatten_eq_nil_iff.mpr fun a ha => ?_
      obtain ⟨l, hl⟩ := List.mem_iff_getElem?.mp ha
      obtain ⟨p, -, hpart⟩ := group_of_getElem hparts hl
      have hzero : a.countP (isFirst req.command.path) = 0 := by
        rw [path_of_arrives harrives]
        refine List.countP_eq_zero.mpr fun c hc => ?_
        exact List.countP_eq_zero.mp hcount c (List.mem_flatten.mpr ⟨a, ha, hc⟩)
      rcases p with ⟨g | r', j⟩
      · obtain rfl := Option.some.inj hpart
        rw [countP_changes] at hzero
        split_ifs at hzero with hnil
        exact changes_eq_nil.mpr hnil
      · exact ih hpart hzero

/-- Where one flow is called once, the request has reached one local group. -/
theorem reaches_of_callR {fuel : ℕ} {log : List Change} (h : net.callR fuel nodeId r cmd = some log)
    (hcount : log.countP (isFirst cmd.path) = 1) :
    ∃ place g cmd', Reaches net nodeId r cmd place g cmd' ∧ log = g.changes place cmd' := by
  induction fuel generalizing nodeId r cmd log with
  | zero =>
    rcases callR_cases h with ⟨-, rfl⟩ | ⟨_, _, _, hfuel, _⟩ | ⟨_, _, _, _, _, _, _, hfuel, _⟩
    · cases hcount
    · cases hfuel
    · cases hfuel
  | succ fuel ih =>
    rcases callR_cases h with ⟨-, rfl⟩ | ⟨_, _, _, _, _, _, rfl⟩
      | ⟨_, i, req, n, k, groups, parts, hfuel, harrives, hnode, hparts, rfl⟩
    · cases hcount
    · cases hcount
    · obtain rfl := Nat.succ.inj hfuel
      rw [← path_of_arrives harrives] at hcount
      -- the one call that is counted is in one part, and the other parts are empty
      obtain ⟨l, hl, hothers⟩ := exists_part hcount fun a ha hzero => by
        obtain ⟨l, hl⟩ := List.mem_iff_getElem?.mp ha
        obtain ⟨p, -, hpart⟩ := group_of_getElem hparts hl
        rcases p with ⟨g | r', j⟩
        · obtain rfl := Option.some.inj hpart
          rw [countP_changes] at hzero
          split_ifs at hzero with hnil
          exact changes_eq_nil.mpr hnil
        · exact eq_nil_of_countP hpart hzero
      have hidle : ∀ l' p, l' ≠ l → groups[l']? = some p → IdleGroup net n.id req.command p.1 := by
        intro l' p hne hp
        obtain ⟨a, ha, hpart⟩ := part_of_getElem hparts hp
        rw [hothers l' a hne ha] at hpart
        exact idleGroup_of_part hpart
      obtain ⟨p, hp, hpart⟩ := group_of_getElem hparts hl
      rcases p with ⟨g | r', j⟩
      · exact ⟨_, _, _, .here harrives hnode hp hidle, (Option.some.inj hpart).symm⟩
      · obtain ⟨place, g, cmd', hreaches, hlog⟩ := ih hpart hcount
        exact ⟨place, g, cmd', .forward harrives hnode hp hidle hreaches, hlog⟩

/-- The rounds in which one addressed group leads to some calls and the others to none. -/
theorem callR_of_part {i k l : ℕ} {req : Request} {n : MngrNode} {groups : List (Group × ℕ)} {p : Group × ℕ}
    {log : List Change} (harrives : net.arrives nodeId r cmd = some (i, req))
    (hnode : net.addressed i req = some (n, k, groups)) (hp : groups[l]? = some p)
    (hpart : ∃ fuel, net.part fuel i n k req.command p = some log)
    (hothers : ∀ (l' : ℕ) p, l' ≠ l → groups[l']? = some p → IdleGroup net n.id req.command p.1) :
    ∃ fuel, net.callR fuel nodeId r cmd = some log := by
  have hparts : ∀ q ∈ groups.zipIdx,
      ∃ fuel, net.part fuel i n k req.command q.1 = some (if q.2 = l then log else []) := by
    rintro ⟨q, l'⟩ hq
    have hl' := List.mk_mem_zipIdx_iff_getElem?.mp hq
    by_cases heq : l' = l
    · obtain rfl := heq
      obtain rfl := Option.some.inj (hl'.symm.trans hp)
      rw [if_pos rfl]
      exact hpart
    · rw [if_neg heq]
      exact part_of_idleGroup (hothers l' q heq hl')
  obtain ⟨fuel, hfuel⟩ := exists_fuel_forall
    (P := fun fuel (q : (Group × ℕ) × ℕ) => net.part fuel i n k req.command q.1 = some (if q.2 = l then log else []))
    part_mono hparts
  refine ⟨fuel + 1, ?_⟩
  have hmap : groups.map (net.part fuel i n k req.command)
      = groups.zipIdx.map fun q => net.part fuel i n k req.command q.1 := by
    conv_lhs => rw [← List.zipIdx_map_fst 0 groups, List.map_map]
    rfl
  rw [callR_node harrives hnode, hmap, joinAll_map hfuel]
  refine congrArg some (flatten_eq_of_others (j := l) ?_ fun l' a hne ha => ?_)
  · rw [List.getElem?_map, List.getElem?_zipIdx, hp]
    simp
  · rw [List.getElem?_map, List.getElem?_zipIdx] at ha
    obtain ⟨q, hq, rfl⟩ := Option.map_eq_some_iff.mp ha
    obtain ⟨G, _, rfl⟩ := Option.map_eq_some_iff.mp hq
    rw [if_neg (by simpa using hne)]

/-- A request that reaches a group ends in the changes of this group. -/
theorem callR_of_reaches {place : Place} {g : FcGroup} {cmd' : Command} (h : Reaches net nodeId r cmd place g cmd') :
    ∃ fuel, net.callR fuel nodeId r cmd = some (g.changes place cmd') := by
  induction h with
  | here harrives hnode hgroup hothers => exact callR_of_part harrives hnode hgroup ⟨0, rfl⟩ hothers
  | forward harrives hnode hgroup hothers _ ih => exact callR_of_part harrives hnode hgroup ih hothers

end round

/-! ## When a command does the same -/

/-- Where the local group of a target is. -/
theorem target_eq_some {net : Net} {nodeId : JString} {r : FcGroupR} {place : Place} {g : FcGroup}
    (h : net.target nodeId r = some (place, g)) :
    net.host r.url = some place.mngr ∧ ∃ n, net.node place.mngr (some nodeId) = some (n, place.node)
      ∧ n.groups[place.group]? = some (.groupL g) := by
  obtain ⟨i, hhost, h⟩ := Option.bind_eq_some_iff.mp h
  obtain ⟨⟨n, k⟩, hnode, h⟩ := Option.bind_eq_some_iff.mp h
  obtain ⟨⟨g', j⟩, hlocal, h⟩ := Option.map_eq_some_iff.mp h
  obtain ⟨rfl, rfl⟩ := Prod.mk.inj h
  refine ⟨hhost, n, hnode, ?_⟩
  obtain ⟨⟨group, j'⟩, hmem, hfound⟩ := List.exists_of_findSome?_eq_some hlocal
  rcases group with g'' | r'
  · dsimp only at hfound
    split_ifs at hfound with hid
    obtain ⟨rfl, rfl⟩ := Prod.mk.inj (Option.some.inj hfound)
    exact List.mk_mem_zipIdx_iff_getElem?.mp hmem
  · cases hfound

/-- The group at a place. -/
def Net.groupAt (net : Net) (place : Place) : Option Group :=
  net.mngrs[place.mngr]?.bind fun m => m.nodes[place.node]?.bind fun n => n.groups[place.group]?

/-- The group in a place is that of the node. -/
theorem groupAt_of_node {net : Net} {i k j : ℕ} {nodeId : Option JString} {n : MngrNode}
    (h : net.node i nodeId = some (n, k)) : net.groupAt ⟨i, k, j⟩ = n.groups[j]? := by
  obtain ⟨m, hm, hfind⟩ := Option.bind_eq_some_iff.mp h
  have hn : m.nodes[k]? = some n := List.mk_mem_zipIdx_iff_getElem?.mp (List.mem_of_find?_eq_some hfind)
  rw [Net.groupAt, hm, Option.bind_some, hn, Option.bind_some]

theorem getElem?_of_findGroup {n : MngrNode} {groupId : Option JString} {group : Group} {j : ℕ}
    (h : n.findGroup groupId = some (group, j)) : n.groups[j]? = some group := by
  have hmem := (List.takeWhile_sublist _).mem (List.mem_of_find?_eq_some h)
  exact List.mk_mem_zipIdx_iff_getElem?.mp hmem

theorem getElem?_of_addressed {n : MngrNode} {groupId : Option JString} {cmd : Command} {group : Group} {j : ℕ}
    (h : (group, j) ∈ n.addressed groupId cmd) : n.groups[j]? = some group := by
  cases cmd with
  | setFlagAll isFlag => exact List.mk_mem_zipIdx_iff_getElem?.mp h
  | setChannelAll isRun => exact List.mk_mem_zipIdx_iff_getElem?.mp h
  | setFlag flow isFlag => exact getElem?_of_findGroup (Option.mem_toList.mp h)
  | setChannel flow isRun => exact getElem?_of_findGroup (Option.mem_toList.mp h)
  | clearQ flow mngr q => exact getElem?_of_findGroup (Option.mem_toList.mp h)

/-- The local group at which a command ends. -/
theorem Reaches.groupAt {net : Net} {nodeId : JString} {r : FcGroupR} {cmd cmd' : Command} {place : Place}
    {g : FcGroup} (h : Reaches net nodeId r cmd place g cmd') : net.groupAt place = some (.groupL g) := by
  induction h with
  | @here nodeId r cmd i req n k groups l g j _ hnode hgroup _ =>
    obtain ⟨⟨n', k'⟩, hfind, heq⟩ := Option.map_eq_some_iff.mp hnode
    have hk : k' = k := (Prod.mk.inj (Prod.mk.inj heq).2).1
    have hgroups : n'.addressed (req.getParameter "group") req.command = groups :=
      (Prod.mk.inj (Prod.mk.inj heq).2).2
    rw [← hk, groupAt_of_node hfind]
    exact getElem?_of_addressed (hgroups ▸ List.mem_of_getElem? hgroup)
  | forward _ _ _ _ _ ih => exact ih

/-- Different calls are different changes. -/
theorem change_injective (place : Place) :
    Function.Injective fun c : ℕ × FlowCall => (⟨place, c.1, c.2⟩ : Change) := by
  rintro ⟨flow, call⟩ ⟨flow', call'⟩ h
  obtain ⟨-, rfl, rfl⟩ := Change.mk.inj h
  rfl

/-- A command to a remote group does what it does on the local group in exactly these configurations. -/
theorem sameAsLocal_iff (net : Net) (nodeId : JString) (r : FcGroupR) (cmd : Command) :
    SameAsLocal net nodeId r cmd
      ↔ ∀ place g, net.target nodeId r = some (place, g) → KeepsScope net nodeId r place g cmd := by
  refine forall_congr' fun place => forall_congr' fun g => imp_congr_right fun htarget => ?_
  obtain ⟨-, n, hnode, hg⟩ := target_eq_some htarget
  have hplace : net.groupAt place = some (.groupL g) := (groupAt_of_node hnode).trans hg
  constructor
  · rintro ⟨fuel, h⟩
    by_cases hcall : g.call cmd = []
    · rw [changes_eq_nil.mpr hcall] at h
      exact Or.inl ⟨hcall, idle_of_callR h⟩
    · obtain ⟨place', g', cmd', hreaches, hlog⟩ :=
        reaches_of_callR h ((countP_changes g place cmd).trans (if_neg hcall))
      -- a call names its place, so the group that was found is the local group
      obtain ⟨c, hc⟩ := List.exists_mem_of_ne_nil _ (changes_eq_nil.not.mpr hcall)
      obtain rfl : place' = place := by
        obtain ⟨_, _, rfl⟩ := List.mem_map.mp hc
        obtain ⟨_, _, heq⟩ := List.mem_map.mp (hlog ▸ hc)
        exact congrArg Change.place heq
      obtain rfl : g' = g := Group.groupL.inj (Option.some.inj (hreaches.groupAt.symm.trans hplace))
      exact Or.inr ⟨cmd', hreaches, (List.map_injective_iff.mpr (change_injective place') hlog).symm⟩
  · rintro (⟨hcall, hidle⟩ | ⟨cmd', hreaches, hcall⟩)
    · rw [changes_eq_nil.mpr hcall]
      exact callR_of_idle hidle
    · obtain ⟨fuel, hfuel⟩ := callR_of_reaches hreaches
      exact ⟨fuel, hfuel.trans (congrArg some (congrArg (List.map _) hcall))⟩

/-- A request whose texts have no character with a meaning in a URL is received as it is meant. -/
theorem arrives_of_plain (net : Net) {nodeId : JString} {r : FcGroupR} {cmd : Command}
    (h : ∀ p ∈ r.pairs nodeId cmd, PlainPair p) :
    net.arrives nodeId r cmd = (net.host r.url).map fun i =>
      (i, ⟨cmd.path, (r.pairs nodeId cmd).map fun p => (p.1.toList, p.2)⟩) := by
  have hne : r.pairs nodeId cmd ≠ [] := by cases cmd <;> exact List.cons_ne_nil _ _
  have hread := fun i => parameters_query (net.charset i) net.normalize hne h
  rw [Net.arrives]
  cases hraw : URI.rawQuery (query (r.pairs nodeId cmd)) with
  | none =>
    rw [hraw] at hread
    cases hread 0
  | some raw =>
    rw [hraw] at hread
    rw [Option.bind_some]
    refine congrArg (Option.map · (net.host r.url)) (funext fun i => ?_)
    exact congrArg (fun params => (i, (⟨cmd.path, params⟩ : Request))) (Option.some.inj (hread i))

/-- The group with an id of the manager with a URL. -/
def remoteGroup (id url : String) : FcGroupR := { FcGroupR.init id.toList with url := some url.toList }

/-- A local group with one flow. -/
def localGroup (id : String) : FcGroup :=
  ⟨some id.toList, some "NO NAME".toList, [quietFlow "F" 7], 1, false, 0⟩

/-- A node with a local group and a group of another manager. -/
def sharedNode (own other url : String) : MngrNode :=
  ⟨"0".toList, [.groupL (localGroup own), .groupR (remoteGroup other url)]⟩

/-- Two managers, each with a local group and the group of the other as a remote one. -/
def twoManagers : Net where
  mngrs := [⟨[sharedNode "A" "B" "http://b"]⟩, ⟨[sharedNode "B" "A" "http://a"]⟩]
  host url := if url = some "http://a".toList then some 0 else if url = some "http://b".toList then some 1 else none
  charset _ := Charset.latin1
  normalize := id

/-- The request for all flows of a group, as it is received. -/
def allRequest (group : String) : Request :=
  ⟨.setFlagAll, [("node".toList, "0".toList), ("group".toList, group.toList), ("state".toList, "true".toList)]⟩

/-- Each of them passes a command for all flows on to the other. -/
theorem twoManagers_loop (fuel : ℕ) :
    twoManagers.callR fuel "0".toList (remoteGroup "A" "http://a") (.setFlagAll true) = none
      ∧ twoManagers.callR fuel "0".toList (remoteGroup "B" "http://b") (.setFlagAll true) = none := by
  have hfirst : twoManagers.arrives "0".toList (remoteGroup "A" "http://a") (.setFlagAll true)
      = some (0, allRequest "A") := by
    rw [arrives_of_plain twoManagers (by simp [FcGroupR.pairs, PlainPair, remoteGroup, param, boolText, FcGroupR.init,
      isPlain, isUric, uricMarks])]
    rfl
  have hsecond : twoManagers.arrives "0".toList (remoteGroup "B" "http://b") (.setFlagAll true)
      = some (1, allRequest "B") := by
    rw [arrives_of_plain twoManagers (by simp [FcGroupR.pairs, PlainPair, remoteGroup, param, boolText, FcGroupR.init,
      isPlain, isUric, uricMarks])]
    rfl
  induction fuel with
  | zero =>
    rw [Net.callR, Net.callR, hfirst, hsecond]
    exact ⟨rfl, rfl⟩
  | succ fuel ih =>
    constructor
    · have hpart : twoManagers.part fuel 0 (sharedNode "A" "B" "http://b") 0 (.setFlagAll true)
          (.groupR (remoteGroup "B" "http://b"), 1) = none := ih.2
      rw [callR_node (n := sharedNode "A" "B" "http://b") (k := 0) hfirst rfl]
      show joinAll [_, twoManagers.part _ _ _ _ _ _] = none
      exact congrArg (fun x => joinAll [_, x]) hpart
    · have hpart : twoManagers.part fuel 1 (sharedNode "B" "A" "http://a") 0 (.setFlagAll true)
          (.groupR (remoteGroup "A" "http://a"), 1) = none := ih.1
      rw [callR_node (n := sharedNode "B" "A" "http://a") (k := 0) hsecond rfl]
      exact congrArg (fun x => joinAll [_, x]) hpart

/-- The command never ends. -/
theorem not_sameAsLocal_twoManagers :
    ¬ SameAsLocal twoManagers "0".toList (remoteGroup "B" "http://b") (.setFlagAll true) := by
  intro h
  obtain ⟨fuel, hfuel⟩ := h ⟨1, 0, 0⟩ (localGroup "B") rfl
  rw [(twoManagers_loop fuel).2] at hfuel
  cases hfuel

end OrgLittle.Mq
