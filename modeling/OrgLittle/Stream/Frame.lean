import OrgLittle.Java.Text
import OrgLittle.Lib.Heap
import OrgLittle.Stream.User

/-!
# `ufpsTime` and `ufpsFrame`

A frame carries a message with its addressee, two names and three times. The times are mutable objects, which are kept
here in a heap: `clear` makes all three fields point to the one object `ufpsTime.empty`, and the setters
write into the object that a field points to. Over ZeroMQ a frame travels as nine parts of a message.
-/

namespace OrgLittle.Stream

open OrgLittle.Java OrgLittle.Lib

/-- The libraries around the frames. `format` and `parse` are those of the `SimpleDateFormat` of `ufpsTime` in the zone
of the platform, `encode` and `decode` are UTF-8, the charset of ZeroMQ, and `sax` has the addresses that
`ufpsSAXParser` finds in a message, `none` where it finds no message. -/
structure Platform where
  format : ℤ → JString
  parse : JString → Option ℤ
  format_ne_dash : ∀ t, format t ≠ ['-']
  encode : JString → List UInt8
  decode : List UInt8 → JString
  decode_encode : ∀ s, decode (encode s) = s
  sax : List UInt8 → Option (List (Option JString))

/-! ## `ufpsTime` -/

/-- A `ufpsTime`. A text is there if the time was read from it. (The text that `getText` keeps is not: it would be
the same each time.) -/
structure UfpsTime (p : Platform) where
  time : ℤ
  text : Option JString
  read : ∀ s, text = some s → s ≠ ['-'] ∧ p.parse s = some time

namespace UfpsTime

variable {p : Platform}

/-- `ufpsTime(long)` and `setTime`. -/
def ofMillis (time : ℤ) : UfpsTime p := ⟨time, none, by simp⟩

/-- `ufpsTime(String)` and `setText`. -/
def ofText (p : Platform) (text : JString) : UfpsTime p :=
  if hdash : text = ['-'] then ofMillis 0
  else
    match hparse : p.parse text with
    | some time => ⟨time, some text, by rintro _ ⟨⟩; exact ⟨hdash, hparse⟩⟩
    | none => ofMillis 0

/-- `getText`. -/
def getText (t : UfpsTime p) : JString :=
  if t.time = 0 then ['-'] else t.text.getD (p.format t.time)

@[simp] theorem ofMillis_time (time : ℤ) : (ofMillis time : UfpsTime p).time = time := rfl

theorem ofText_dash : (ofText p ['-']).time = 0 := by simp [ofText]

theorem ofText_time {text : JString} (h : text ≠ ['-']) : (ofText p text).time = (p.parse text).getD 0 := by
  rw [ofText, dif_neg h]
  split
  · next time hparse => simp [hparse]
  · next hparse => simp [hparse]

end UfpsTime

/-- The time objects. -/
abbrev Times (p : Platform) := Heap (UfpsTime p)

/-- The object `ufpsTime.empty`. -/
def emptyTime : ℕ := 0

/-- The objects of a program that has made no frame yet. -/
def Times.init (p : Platform) : Times p := ⟨fun _ => .ofMillis 0, 1⟩

/-! ## `ufpsMsg` and `ufpsFrame` -/

/-- A `ufpsMsg`: its addresses and its bytes. -/
structure UfpsMsg where
  tos : List (Option JString)
  buf : Option (List UInt8)
deriving DecidableEq

/-- `ufpsMsg(byte[])`, which calls a method of what the parser returns. -/
def UfpsMsg.ofBytes (p : Platform) (buf : Option (List UInt8)) : Except JavaException UfpsMsg :=
  match buf with
  | none => .error .nullPointer
  | some data =>
    match p.sax data with
    | none => .error .nullPointer
    | some tos => .ok ⟨tos, some data⟩

/-- `ufpsDef.TYPE_DATA_MSG`. -/
def TYPE_DATA_MSG : JString := "msg".toList

/-- `ufpsDef.TYPE_CMD_MSG`. -/
def TYPE_CMD_MSG : JString := "cmd".toList

/-- A `ufpsFrame`. Its times are references. -/
structure UfpsFrame where
  msg : Option UfpsMsg
  type : Option JString
  queue : Option JString
  user : Option JString
  create : Option ℕ
  arrive : Option ℕ
  receive : Option ℕ
  nodeId : Option JString
  frameMsgId : Option JString
  isLocal : Bool
  httpRetCode : ℤ
deriving DecidableEq

/-- The three times of a frame. -/
inductive TimeField
  | create | arrive | receive
deriving DecidableEq

namespace UfpsFrame

variable {p : Platform}

/-- A field with a time. -/
def timeRef (f : UfpsFrame) : TimeField → Option ℕ
  | .create => f.create
  | .arrive => f.arrive
  | .receive => f.receive

/-- `clear`. -/
def clear : UfpsFrame where
  msg := none
  type := some TYPE_DATA_MSG
  queue := some "no_queue".toList
  user := some "no_user".toList
  create := some emptyTime
  arrive := some emptyTime
  receive := some emptyTime
  nodeId := some "empty_node_id".toList
  frameMsgId := some "empty_frame_msg_id".toList
  isLocal := true
  httpRetCode := 200

/-- `ufpsFrame()`. -/
def new (now : ℤ) (times : Times p) : Times p × UfpsFrame :=
  let create := times.alloc (.ofMillis now)
  (create.1, { clear with create := some create.2 })

/-- `ufpsFrame(user, queue, msg)`. -/
def ofMsg (user queue : Option JString) (msg : Option UfpsMsg) : UfpsFrame :=
  { clear with user, queue, msg }

/-- `setTime` on the object of a field. -/
def setTimeAt (ref : Option ℕ) (time : ℤ) (times : Times p) : Except JavaException (Times p) :=
  match ref with
  | none => .error .nullPointer
  | some r => .ok (times.set r (.ofMillis time))

/-- `setCreate`, `setArrive` and `setReceive`. -/
def setTime (field : TimeField) (now : ℤ) (f : UfpsFrame) (times : Times p) : Except JavaException (Times p) :=
  setTimeAt (f.timeRef field) now times

/-- One line of `set(ufpsFrame)`: the time of a field is copied from another frame, unless a line before has thrown. -/
def copyTime (field : TimeField) (f g : UfpsFrame) (state : Times p × Option JavaException) :
    Times p × Option JavaException :=
  match state with
  | (times, some e) => (times, some e)
  | (times, none) =>
    match f.timeRef field, g.timeRef field with
    | some r, some s => (times.set r (.ofMillis (times.get s).time), none)
    | _, _ => (times, some .nullPointer)

/-- `ufpsCMD(ufpsFrame)`: `set(ufpsFrame)` on a new frame. -/
def copyOf (g : UfpsFrame) (now : ℤ) (times : Times p) : Times p × Except JavaException UfpsFrame :=
  let new := UfpsFrame.new now times
  let copied := copyTime .receive new.2 g (copyTime .arrive new.2 g (copyTime .create new.2 g (new.1, none)))
  match copied with
  | (times, some e) => (times, .error e)
  | (times, none) =>
    (times, .ok { g with create := new.2.create, arrive := new.2.arrive, receive := new.2.receive })

/-- `ufpsCMD(node, user, queue)`. The clock is read twice. -/
def command (node user queue : Option JString) (now now' : ℤ) (times : Times p) : Times p × UfpsFrame :=
  let new := UfpsFrame.new now times
  let times := new.1.set times.next (.ofMillis now')
  (times, { new.2 with
    queue, user
    isLocal := false
    frameMsgId := some "id_empty".toList
    nodeId := node
    type := some TYPE_CMD_MSG })

/-- `set(user, queue, buf, node, id)`. When the message cannot be made, the times are already set. -/
def set (user queue : Option JString) (buf : Option (List UInt8)) (node id : Option JString) (now : ℤ)
    (f : UfpsFrame) (times : Times p) : Times p × UfpsFrame × Option JavaException :=
  let create := times.alloc (.ofMillis now)
  let f := { f with create := some create.2, arrive := none, receive := none }
  match UfpsMsg.ofBytes p buf with
  | .error e => (create.1, f, some e)
  | .ok msg => (create.1, { f with msg := some msg, user, queue, nodeId := node, frameMsgId := id }, none)

end UfpsFrame

/-! ## Frames as messages of ZeroMQ -/

/-- A `ZFrame`: its data, if it has any. -/
abbrev ZFrame := Option (List UInt8)

/-- A `ZMsg`, with the frame that `pop` gives first in front. -/
abbrev ZMsg := List ZFrame

/-- `ZFrame(String)`. -/
def ZFrame.ofString (p : Platform) (s : Option JString) : ZFrame := s.map p.encode

/-- `getString(charset)`. -/
def ZFrame.getString (p : Platform) (z : ZFrame) : JString :=
  match z with
  | none => []
  | some data => p.decode data

/-- A method is called on a reference. -/
def deref {α : Type*} (ref : Option α) : Except JavaException α :=
  match ref with
  | none => .error .nullPointer
  | some a => .ok a

@[simp] theorem deref_eq_ok {α : Type*} {ref : Option α} {a : α} : deref ref = .ok a ↔ ref = some a := by
  cases ref <;> simp [deref]

/-- A computation that ends without an exception, step by step. -/
theorem bind_eq_ok {α β : Type} {x : Except JavaException α} {f : α → Except JavaException β} {b : β} :
    x >>= f = .ok b ↔ ∃ a, x = .ok a ∧ f a = .ok b := by
  cases x with
  | error e => simp [bind, Except.bind]
  | ok a => simp [bind, Except.bind]

namespace UfpsFrame

variable {p : Platform}

/-- The last part of a message: the bytes of a data frame. -/
def bufPart (p : Platform) (type : JString) (f : UfpsFrame) : Except JavaException ZFrame :=
  if type = TYPE_DATA_MSG then (deref f.msg).map UfpsMsg.buf else .ok (ZFrame.ofString p (some []))

/-- The parts of a message, in the order in which they are popped. -/
def parts (times : Times p) (f : UfpsFrame) (create arrive receive : ℕ) (buf : ZFrame) : ZMsg :=
  let text := ZFrame.ofString p
  [text f.type, text f.user, text f.queue, text f.nodeId, text f.frameMsgId,
    text (times.get create).getText, text (times.get arrive).getText, text (times.get receive).getText, buf]

/-- `getZMsg`. -/
def getZMsg (times : Times p) (f : UfpsFrame) : Except JavaException ZMsg := do
  let create ← deref f.create
  let arrive ← deref f.arrive
  let receive ← deref f.receive
  let type ← deref f.type
  let buf ← bufPart p type f
  return parts times f create arrive receive buf

/-- The texts of a message of ZeroMQ are set, and three new times. -/
def setTexts (type user queue node id create arrive receive : JString) (f : UfpsFrame) (times : Times p) :
    Times p × UfpsFrame :=
  let create := times.alloc (.ofText p create)
  let arrive := create.1.alloc (.ofText p arrive)
  let receive := arrive.1.alloc (.ofText p receive)
  (receive.1, { f with
    type := some type
    user := some user
    queue := some queue
    nodeId := some node
    frameMsgId := some id
    create := some create.2
    arrive := some arrive.2
    receive := some receive.2 })

/-- `setZMsg`. `pop` gives `null` when there are no more parts; the last part is looked at in a data frame only. -/
def setZMsg (zmsg : ZMsg) (f : UfpsFrame) (times : Times p) : Except JavaException (Times p × UfpsFrame) :=
  match zmsg with
  | type :: user :: queue :: node :: id :: create :: arrive :: receive :: rest =>
    let text := ZFrame.getString p
    let set := setTexts (text type) (text user) (text queue) (text node) (text id) (text create) (text arrive)
      (text receive) f times
    if text type = TYPE_DATA_MSG then do
      let buf ← deref rest.head?
      let msg ← UfpsMsg.ofBytes p buf
      return (set.1, { set.2 with msg := some msg })
    else return (set.1, { set.2 with msg := none })
  | _ => .error .nullPointer

end UfpsFrame

end OrgLittle.Stream
