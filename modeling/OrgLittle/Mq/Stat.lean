import OrgLittle.Java.Json
import OrgLittle.Lib.Effect

/-!
# What the parts of a manager report

The classes `fc_Q`, `fc_control`, `fc_channel` and `fc_flow` hold what a manager shows of its queues and flows.
`getState` and `getStat` write it as JSON, and the `setState` of the mirrors reads it. A text that is `null` has no
key in the JSON, and the reader stops at the first key that is missing.
-/

namespace OrgLittle.Mq

open OrgLittle.Java OrgLittle.Lib

/-- A getter of JSON inside a `try`. -/
def getter {σ α : Type} (value : Option α) : Block Unit σ α :=
  Block.call (value.elim (.error ()) .ok)

/-- `try { b } catch { }`, on the object `s`. -/
def attempt {σ : Type} (b : Block Unit σ Unit) (s : σ) : σ := ((b.orElse ()).run s).2

section attempt

variable {σ α : Type} (f : α → Block Unit σ Unit) (s : σ)

@[simp]
theorem attempt_getter_some (a : α) : attempt (getter (some a) >>= f) s = attempt (f a) s := by
  rw [attempt, attempt, Block.run_orElse, Block.run_orElse, Block.run_bind]
  rfl

@[simp]
theorem attempt_getter_none : attempt (getter none >>= f) s = s := by
  rw [attempt, Block.run_orElse, Block.run_bind]
  rfl

@[simp]
theorem attempt_update (u : σ → σ) (b : Unit → Block Unit σ Unit) :
    attempt (Block.update u >>= b) s = attempt (b ()) (u s) := by
  rw [attempt, attempt, Block.run_orElse, Block.run_orElse, Block.run_bind]
  rfl

@[simp]
theorem attempt_update_last (u : σ → σ) : attempt (Block.update u) s = u s := rfl

@[simp]
theorem attempt_pure : attempt (pure () : Block Unit σ Unit) s = s := rfl

end attempt

/-- The value of a text that may be `null`. -/
def text (s : Option JString) : Option Json := s.map .str

@[simp]
theorem text_bind_asString (s : Option JString) : (text s).bind Json.asString = s := by
  cases s with
  | none => rfl
  | some s => rfl

/-! ## `fc_Q` -/

/-- `fc_Q`. -/
structure FcQ where
  mngr : JString
  queue : JString
  deepQ : Int32
  isAlarm : Bool
  startAlarm : Int64
deriving DecidableEq

namespace FcQ

/-- A new `fc_Q`. -/
def new : FcQ := ⟨"noname_mngr".toList, "noname_queue".toList, 0, false, 0⟩

/-- `getTimeAlarm()` at the time `now`. -/
def getTimeAlarm (now : Int64) (q : FcQ) : Int64 := if q.isAlarm then now - q.startAlarm else 0

/-- `isAlarm(a)` at the time `now`. -/
def setAlarm (now : Int64) (a : Bool) (q : FcQ) : FcQ :=
  { q with isAlarm := a, startAlarm := if a then now else 0 }

/-- `getState()`. -/
def getState (now : Int64) (q : FcQ) : JSONObject :=
  JSONObject.new
    |>.put "type" (some (.str "q".toList))
    |>.put "queue" (some (.str q.queue))
    |>.put "mngr" (some (.str q.mngr))
    |>.put "len" (some (.num q.deepQ.toInt))
    |>.put "alarm" (some (.bool q.isAlarm))
    |>.put "time_alarm" (some (.num (q.getTimeAlarm now).toInt))

/-- `setState(root)`. -/
def setState (now : Int64) (root : JSONObject) (q : FcQ) : FcQ :=
  attempt (do
    let mngr ← getter (root.getString "mngr")
    Block.update fun q => { q with mngr }
    let queue ← getter (root.getString "queue")
    Block.update fun q => { q with queue }
    let deepQ ← getter (root.getInt "len")
    Block.update fun q => { q with deepQ }
    let a ← getter (root.getBoolean "alarm")
    Block.update (setAlarm now a)) q

/-- A new queue takes everything over but the time at which the alarm began. -/
theorem setState_getState (now before : Int64) (q p : FcQ) :
    p.setState now (q.getState before) = { q with startAlarm := if q.isAlarm then now else 0 } := by
  simp [setState, getState, JSONObject.getString, JSONObject.getInt, JSONObject.getBoolean, Json.asString,
    Json.asInt, Json.asBoolean, setAlarm]

end FcQ

/-! ## `fc_control` -/

/-- `fc_control`, with the names from its configuration. -/
structure FcControl where
  queue : JString
  mngr : JString
  isManual : Bool
  isFlag : Bool
deriving DecidableEq

namespace FcControl

/-- A new `fc_control`. -/
def new : FcControl := ⟨"noname_queue".toList, "noname_mngr".toList, false, false⟩

/-- `getState()`. -/
def getState (c : FcControl) : JSONObject :=
  JSONObject.new
    |>.put "type" (some (.str "cntrl".toList))
    |>.put "is_manual" (some (.bool c.isManual))
    |>.put "is_flag" (some (.bool c.isFlag))
    |>.put "queue" (some (.str c.queue))
    |>.put "mngr" (some (.str c.mngr))

end FcControl

/-! ## `fc_channel` -/

/-- `fc_channel`, with the manager from its configuration. -/
structure FcChannel where
  mngr : JString
  name : Option JString
  isRun : Bool
deriving DecidableEq

namespace FcChannel

/-- A new `fc_channel`. -/
def new : FcChannel := ⟨"noname_mngr".toList, none, true⟩

/-- `getState()`. -/
def getState (c : FcChannel) : JSONObject :=
  JSONObject.new
    |>.put "type" (some (.str "channel".toList))
    |>.put "is_run" (some (.bool c.isRun))
    |>.put "chl" (text c.name)
    |>.put "mngr" (some (.str c.mngr))

/-- `setState(root)`. The name of the manager is read last, into a field that nothing reads. -/
def setState (root : JSONObject) (c : FcChannel) : FcChannel :=
  attempt (do
    let name ← getter (root.getString "chl")
    Block.update fun c => { c with name := some name }
    let isRun ← getter (root.getBoolean "is_run")
    Block.update fun c => { c with isRun }) c

/-- Only a channel with a name is taken over. -/
theorem setState_getState (c p : FcChannel) :
    p.setState c.getState = if c.name.isSome then { p with name := c.name, isRun := c.isRun } else p := by
  cases hname : c.name with
  | none => simp [setState, getState, JSONObject.getString, hname]
  | some name =>
    simp [setState, getState, JSONObject.getString, JSONObject.getBoolean, Json.asBoolean, hname]

end FcChannel

/-! ## `fc_flow` -/

/-- `fc_flow`. -/
structure FcFlow where
  id : Option JString
  name : Option JString
  queues : List FcQ
  control : FcControl
  channel : FcChannel
  isAlarm : Bool
  timeAlarm : Int64
deriving DecidableEq

namespace FcFlow

/-- A new `fc_flow`. -/
def new : FcFlow := ⟨none, none, [], FcControl.new, FcChannel.new, false, 0⟩

/-- `clear()`: the alarm, the control and the channel stay. -/
def clear (f : FcFlow) : FcFlow := { f with id := none, name := none, queues := [], timeAlarm := 0 }

/-- `_getStat()`. -/
def getStat (now : Int64) (f : FcFlow) : JSONObject :=
  JSONObject.new
    |>.put "type" (some (.str "flow".toList))
    |>.put "id" (text f.id)
    |>.put "name" (text f.name)
    |>.put "alarm" (some (.bool f.isAlarm))
    |>.put "time_alarm" (some (.num f.timeAlarm.toInt))
    |>.put "list_queue" (some (.arr (f.queues.map fun q => .obj (q.getState now))))
    |>.put "size" (some (.num f.queues.length))
    |>.put "control" (some (.obj f.control.getState))
    |>.put "channel" (some (.obj f.channel.getState))

/-- The loop of `setState` over the queues. -/
def setQueues (now : Int64) : List Json → Block Unit FcFlow Unit
  | [] => pure ()
  | json :: list => do
    let root ← getter json.asObject
    Block.update fun f => { f with queues := f.queues ++ [FcQ.new.setState now root] }
    setQueues now list

/-- `fc_flowR.setState(root)`. -/
def setState (now : Int64) (root : JSONObject) (f : FcFlow) : FcFlow :=
  attempt (do
    let type ← getter (root.getString "type")
    if equalsIgnoreCase "flow".toList type then
      let id ← getter (root.getString "id")
      Block.update fun f => { f with id := some id }
      let name ← getter (root.getString "name")
      Block.update fun f => { f with name := some name }
      let a ← getter (root.getBoolean "alarm")
      Block.update fun f => { f with isAlarm := a }
      let list ← getter (root.getJSONArray "list_queue")
      setQueues now list
      let control ← getter (root.getJSONObject "control")
      let isManual ← getter (control.getBoolean "is_manual")
      Block.update fun f => { f with control := { f.control with isManual } }
      let isFlag ← getter (control.getBoolean "is_flag")
      Block.update fun f => { f with control := { f.control with isFlag } }
      let channel ← getter (root.getJSONObject "channel")
      Block.update fun f => { f with channel := f.channel.setState channel }) f.clear

/-- A queue that a mirror has read. -/
def copied (now : Int64) (q : FcQ) : FcQ := { q with startAlarm := if q.isAlarm then now else 0 }

theorem attempt_setQueues (now before : Int64) (queues : List FcQ) (b : Unit → Block Unit FcFlow Unit) (f : FcFlow) :
    attempt (setQueues now (queues.map fun q => .obj (q.getState before)) >>= b) f
      = attempt (b ()) { f with queues := f.queues ++ queues.map (copied now) } := by
  induction queues generalizing f with
  | nil => simp [setQueues]
  | cons q queues ih =>
    rw [List.map_cons, setQueues, Json.asObject, bind_assoc, attempt_getter_some, bind_assoc, attempt_update, ih,
      FcQ.setState_getState]
    simp [copied]

/-- What `setState` takes over from a flow with an id and a name. -/
theorem setState_getStat {f : FcFlow} {id name : JString} (hid : f.id = some id) (hname : f.name = some name)
    (now before : Int64) (p : FcFlow) :
    p.setState now (f.getStat before)
      = { id := some id, name := some name
          queues := f.queues.map (copied now)
          control := { p.control with isManual := f.control.isManual, isFlag := f.control.isFlag }
          channel := p.channel.setState f.channel.getState
          isAlarm := f.isAlarm, timeAlarm := 0 } := by
  simp [setState, getStat, JSONObject.getString, JSONObject.getBoolean, JSONObject.getJSONArray,
    JSONObject.getJSONObject, Json.asString, Json.asBoolean, Json.asArray, Json.asObject, hid, hname, equalsIgnoreCase,
    attempt_setQueues, FcControl.getState, clear]

/-- A flow without an id or a name: nothing but these is taken over. -/
theorem setState_getStat_of_none {f : FcFlow} (h : f.id = none ∨ f.name = none) (now before : Int64) (p : FcFlow) :
    p.setState now (f.getStat before) = { p.clear with id := f.id } := by
  cases hid : f.id with
  | none =>
    simp [setState, getStat, JSONObject.getString, Json.asString, hid, equalsIgnoreCase, clear]
  | some id =>
    have hname : f.name = none := by
      rcases h with h | h
      · rw [hid] at h
        cases h
      · exact h
    simp [setState, getStat, JSONObject.getString, Json.asString, hid, hname, equalsIgnoreCase, clear]

end FcFlow

end OrgLittle.Mq
