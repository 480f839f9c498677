import OrgLittle.Stream.Frame

/-!
# Frames over ZeroMQ

`getZMsg` and `setZMsg` use the same order of the nine parts. Three things can keep a frame from coming back: a `null`
in it (a frame made by `set` has no arrive and no receive time), a message that is not XML, and a time whose text in
the zone of the platform stands for another one.
-/

namespace OrgLittle.Stream

open OrgLittle.Java OrgLittle.Lib

variable {p : Platform}

/-! ## Times -/

/-- A time without its milliseconds. -/
def cut (time : ℤ) : ℤ := time / 1000 * 1000

/-- The text of a time stands for it, to the second: it is not set, or it was read from a text and has no milliseconds,
or the date format reads what it writes. -/
def UfpsTime.Exact (t : UfpsTime p) : Prop :=
  t.time = 0 ∨ t.text ≠ none ∧ cut t.time = t.time
    ∨ t.text = none ∧ (p.parse (p.format t.time)).getD 0 = cut t.time

theorem UfpsTime.ofText_getText_iff (t : UfpsTime p) :
    (UfpsTime.ofText p t.getText).time = cut t.time ↔ t.Exact := by
  rw [UfpsTime.getText, UfpsTime.Exact]
  by_cases hzero : t.time = 0
  · rw [if_pos hzero, hzero, UfpsTime.ofText_dash]
    exact iff_of_true rfl (.inl rfl)
  · rw [if_neg hzero]
    cases htext : t.text with
    | none =>
      rw [Option.getD_none, UfpsTime.ofText_time (p.format_ne_dash _)]
      simp [hzero]
    | some s =>
      obtain ⟨hdash, hparse⟩ := t.read s htext
      rw [Option.getD_some, UfpsTime.ofText_time hdash, hparse, Option.getD_some]
      simp [hzero, eq_comm]

/-! ## The round trip -/

namespace UfpsFrame

/-- The time in a field. -/
def timeAt (times : Times p) (f : UfpsFrame) (field : TimeField) : Option ℤ :=
  (f.timeRef field).map fun r => (times.get r).time

/-- `g` has the contents of `f`, with the times to the second. -/
structure Same (times times' : Times p) (f g : UfpsFrame) : Prop where
  type : g.type = f.type
  user : g.user = f.user
  queue : g.queue = f.queue
  node : g.nodeId = f.nodeId
  id : g.frameMsgId = f.frameMsgId
  buf : f.type = some TYPE_DATA_MSG → g.msg.map UfpsMsg.buf = f.msg.map UfpsMsg.buf
  time : ∀ field, timeAt times' g field = (timeAt times f field).map cut

/-- `getZMsg` does not throw, and `setZMsg` makes the same frame of its result. -/
def RoundTrips (times : Times p) (f target : UfpsFrame) : Prop :=
  ∃ zmsg, f.getZMsg times = .ok zmsg
    ∧ ∃ times' g, target.setZMsg zmsg times = .ok (times', g) ∧ Same times times' f g

/-- The texts and the times of the frame are not `null`, the times are exact, and a data frame has a message with bytes
that can be parsed. -/
structure Complete (times : Times p) (f : UfpsFrame) : Prop where
  type : f.type ≠ none
  user : f.user ≠ none
  queue : f.queue ≠ none
  node : f.nodeId ≠ none
  id : f.frameMsgId ≠ none
  time : ∀ field, ∃ r, f.timeRef field = some r ∧ (times.get r).Exact
  msg : f.type = some TYPE_DATA_MSG →
    ∃ m data, f.msg = some m ∧ m.buf = some data ∧ p.sax data ≠ none

/-- When `getZMsg` does not throw, and what it makes. -/
theorem getZMsg_eq_ok {times : Times p} {f : UfpsFrame} {zmsg : ZMsg} :
    f.getZMsg times = .ok zmsg ↔ ∃ create, f.create = some create ∧ ∃ arrive, f.arrive = some arrive
      ∧ ∃ receive, f.receive = some receive ∧ ∃ type, f.type = some type
      ∧ ∃ buf, bufPart p type f = .ok buf ∧ parts times f create arrive receive buf = zmsg := by
  simp only [getZMsg, bind_eq_ok, deref_eq_ok, pure, Except.pure, Except.ok.injEq]

theorem bufPart_eq_ok {type : JString} {f : UfpsFrame} {buf : ZFrame} (htype : type = TYPE_DATA_MSG) :
    bufPart p type f = .ok buf ↔ ∃ m, f.msg = some m ∧ m.buf = buf := by
  rw [bufPart, if_pos htype]
  cases f.msg <;> simp [deref, Except.map]

/-- The text of a part, if it is not `null`. -/
theorem getString_ofString (s : Option JString) :
    some (ZFrame.getString p (ZFrame.ofString p s)) = s ↔ s ≠ none := by
  cases s with
  | none => simp
  | some s => simp [ZFrame.getString, ZFrame.ofString, p.decode_encode]

theorem getString_ofString_some (s : JString) : ZFrame.getString p (ZFrame.ofString p (some s)) = s :=
  p.decode_encode s

/-- `ufpsMsg(byte[])` on bytes that can be parsed. -/
theorem ofBytes_eq_ok {buf : Option (List UInt8)} {msg : UfpsMsg} :
    UfpsMsg.ofBytes p buf = .ok msg ↔ ∃ data tos, buf = some data ∧ p.sax data = some tos
      ∧ (⟨tos, some data⟩ : UfpsMsg) = msg := by
  cases buf with
  | none => simp [UfpsMsg.ofBytes]
  | some data => cases hsax : p.sax data <;> simp [UfpsMsg.ofBytes, hsax]

/-- The times that `setZMsg` sets are those of the three texts. -/
theorem setTexts_timeAt (type user queue node id create arrive receive : JString) (msg : Option UfpsMsg)
    (f : UfpsFrame) (times : Times p) (field : TimeField) :
    let set := setTexts type user queue node id create arrive receive f times
    timeAt set.1 { set.2 with msg := msg } field
      = some (UfpsTime.ofText p (match field with
        | .create => create
        | .arrive => arrive
        | .receive => receive)).time := by
  have hne : times.next ≠ times.next + 1 + 1 := by omega
  cases field <;> simp [setTexts, timeAt, timeRef, Heap.alloc, Function.update, hne]

/-- What `setZMsg` does with the parts that `getZMsg` makes. -/
def received (times : Times p) (f target : UfpsFrame) (create arrive receive : ℕ) : Times p × UfpsFrame :=
  let text := fun s => ZFrame.getString p (ZFrame.ofString p s)
  setTexts (text f.type) (text f.user) (text f.queue) (text f.nodeId) (text f.frameMsgId)
    (text (times.get create).getText) (text (times.get arrive).getText) (text (times.get receive).getText)
    target times

/-- The frame is the same if nothing in it is `null` and its times are exact. -/
theorem same_received {times : Times p} {f : UfpsFrame} (target : UfpsFrame) {create arrive receive : ℕ}
    (hcreate : f.create = some create) (harrive : f.arrive = some arrive) (hreceive : f.receive = some receive)
    (msg : Option UfpsMsg) :
    Same times (received times f target create arrive receive).1 f
        { (received times f target create arrive receive).2 with msg := msg }
      ↔ (f.type ≠ none ∧ f.user ≠ none ∧ f.queue ≠ none ∧ f.nodeId ≠ none ∧ f.frameMsgId ≠ none)
        ∧ (f.type = some TYPE_DATA_MSG → msg.map UfpsMsg.buf = f.msg.map UfpsMsg.buf)
        ∧ ∀ field, ∃ r, f.timeRef field = some r ∧ (times.get r).Exact := by
  have htime : ∀ field, timeAt (received times f target create arrive receive).1
        { (received times f target create arrive receive).2 with msg := msg } field
          = (timeAt times f field).map cut
      ↔ ∃ r, f.timeRef field = some r ∧ (times.get r).Exact := by
    intro field
    rw [received, setTexts_timeAt]
    cases field <;>
      simp [timeAt, timeRef, hcreate, harrive, hreceive, getString_ofString_some, ← UfpsTime.ofText_getText_iff]
  constructor
  · intro h
    refine ⟨⟨(getString_ofString _).mp h.type, (getString_ofString _).mp h.user,
      (getString_ofString _).mp h.queue, (getString_ofString _).mp h.node, (getString_ofString _).mp h.id⟩,
      h.buf, fun field => (htime field).mp (h.time field)⟩
  · rintro ⟨⟨htype, huser, hqueue, hnode, hid⟩, hbuf, hexact⟩
    exact ⟨(getString_ofString _).mpr htype, (getString_ofString _).mpr huser,
      (getString_ofString _).mpr hqueue, (getString_ofString _).mpr hnode, (getString_ofString _).mpr hid,
      hbuf, fun field => (htime field).mpr (hexact field)⟩

/-- `setZMsg` on the parts that `getZMsg` makes. -/
theorem setZMsg_parts {times : Times p} {f : UfpsFrame} (target : UfpsFrame) (create arrive receive : ℕ)
    {type : JString} (htype : f.type = some type) (buf : ZFrame) {result : Times p × UfpsFrame} :
    target.setZMsg (parts times f create arrive receive buf) times = .ok result
      ↔ ∃ msg, (if type = TYPE_DATA_MSG then ∃ m, UfpsMsg.ofBytes p buf = .ok m ∧ some m = msg else none = msg)
        ∧ ((received times f target create arrive receive).1,
          { (received times f target create arrive receive).2 with msg := msg }) = result := by
  have htext : ZFrame.getString p (ZFrame.ofString p f.type) = type := by
    rw [htype, getString_ofString_some]
  have hreceived : setTexts type (ZFrame.getString p (ZFrame.ofString p f.user))
      (ZFrame.getString p (ZFrame.ofString p f.queue)) (ZFrame.getString p (ZFrame.ofString p f.nodeId))
      (ZFrame.getString p (ZFrame.ofString p f.frameMsgId))
      (ZFrame.getString p (ZFrame.ofString p (times.get create).getText))
      (ZFrame.getString p (ZFrame.ofString p (times.get arrive).getText))
      (ZFrame.getString p (ZFrame.ofString p (times.get receive).getText)) target times
        = received times f target create arrive receive := by
    simp only [received, htext]
  simp only [setZMsg, parts, htext, hreceived]
  split
  · simp only [bind_eq_ok, List.head?_cons, deref_eq_ok, Option.some.injEq, pure, Except.pure, Except.ok.injEq,
      exists_eq_left']
    constructor
    · rintro ⟨m, hm, rfl⟩
      exact ⟨some m, ⟨m, hm, rfl⟩, rfl⟩
    · rintro ⟨_, ⟨m, hm, rfl⟩, rfl⟩
      exact ⟨m, hm, rfl⟩
  · simp only [exists_eq_left', pure, Except.pure, Except.ok.injEq]

theorem RoundTrips.complete {times : Times p} {f target : UfpsFrame} (h : RoundTrips times f target) :
    Complete times f := by
  obtain ⟨zmsg, hget, times', g, hset, hsame⟩ := h
  obtain ⟨create, hcreate, arrive, harrive, receive, hreceive, type, htype, buf, hbuf, rfl⟩ :=
    getZMsg_eq_ok.mp hget
  obtain ⟨msg, hmsg, hresult⟩ := (setZMsg_parts target create arrive receive htype buf).mp hset
  obtain ⟨rfl, rfl⟩ := Prod.mk.inj hresult
  obtain ⟨⟨htype', huser, hqueue, hnode, hid⟩, -, hexact⟩ :=
    (same_received target hcreate harrive hreceive msg).mp hsame
  refine ⟨htype', huser, hqueue, hnode, hid, hexact, fun hdata => ?_⟩
  obtain rfl : type = TYPE_DATA_MSG := Option.some.inj (htype.symm.trans hdata)
  rw [if_pos rfl] at hmsg
  obtain ⟨m, hm, -⟩ := hmsg
  obtain ⟨m', hmsg', rfl⟩ := (bufPart_eq_ok rfl).mp hbuf
  obtain ⟨data, tos, hdata', hsax, -⟩ := ofBytes_eq_ok.mp hm
  exact ⟨m', data, hmsg', hdata', by simp [hsax]⟩

/-- The last part of a complete frame, and the message that `setZMsg` makes of it. -/
theorem Complete.buf {times : Times p} {f : UfpsFrame} (h : Complete times f) {type : JString}
    (htype : f.type = some type) :
    ∃ buf msg, bufPart p type f = .ok buf
      ∧ (if type = TYPE_DATA_MSG then ∃ m, UfpsMsg.ofBytes p buf = .ok m ∧ some m = msg else none = msg)
      ∧ (f.type = some TYPE_DATA_MSG → msg.map UfpsMsg.buf = f.msg.map UfpsMsg.buf) := by
  by_cases hdata : type = TYPE_DATA_MSG
  · obtain ⟨m, data, hmsg, hbuf, hsax⟩ := h.msg (htype.trans (congrArg some hdata))
    obtain ⟨tos, htos⟩ := Option.ne_none_iff_exists'.mp hsax
    refine ⟨some data, some ⟨tos, some data⟩, (bufPart_eq_ok hdata).mpr ⟨m, hmsg, hbuf⟩, ?_, fun _ => ?_⟩
    · rw [if_pos hdata]
      exact ⟨_, ofBytes_eq_ok.mpr ⟨data, tos, rfl, htos, rfl⟩, rfl⟩
    · simp [hmsg, hbuf]
  · refine ⟨ZFrame.ofString p (some []), none, by rw [bufPart, if_neg hdata], by rw [if_neg hdata], fun htype' => ?_⟩
    exact absurd (Option.some.inj (htype.symm.trans htype')) hdata

theorem Complete.roundTrips {times : Times p} {f : UfpsFrame} (h : Complete times f) (target : UfpsFrame) :
    RoundTrips times f target := by
  obtain ⟨type, htype⟩ := Option.ne_none_iff_exists'.mp h.type
  obtain ⟨create, hcreate, -⟩ := h.time .create
  obtain ⟨arrive, harrive, -⟩ := h.time .arrive
  obtain ⟨receive, hreceive, -⟩ := h.time .receive
  obtain ⟨buf, msg, hpart, hmade, hsame⟩ := h.buf htype
  refine ⟨_, getZMsg_eq_ok.mpr ⟨create, hcreate, arrive, harrive, receive, hreceive, type, htype, buf, hpart, rfl⟩,
    _, _, (setZMsg_parts target create arrive receive htype buf).mpr ⟨msg, hmade, rfl⟩, ?_⟩
  exact (same_received target hcreate harrive hreceive msg).mpr
    ⟨⟨h.type, h.user, h.queue, h.node, h.id⟩, hsame, h.time⟩

/-- A frame comes back from its message exactly if it is complete. -/
theorem frame_roundTrips_iff (times : Times p) (f target : UfpsFrame) : RoundTrips times f target ↔ Complete times f :=
  ⟨fun h => h.complete, fun h => h.roundTrips target⟩

/-- A platform on which every text is a message without addresses and the clock is in the first second of the epoch. -/
def firstSecond : Platform where
  format _ := "1970-01-01 00:00:00".toList
  parse _ := some 0
  format_ne_dash _ := by decide
  encode s := s.flatMap String.utf8EncodeChar
  decode data := (data.toByteArray.utf8Decode?.getD #[]).toList
  decode_encode s := by
    rw [← List.utf8Encode, List.utf8Decode?_utf8Encode]
    simp
  sax _ := some []

/-- A frame that was filled by `set` has no arrive time, so that `getZMsg` throws. -/
theorem set_getZMsg_throws :
    let new := UfpsFrame.new 1 (Times.init firstSecond)
    let set := new.2.set (some "user".toList) (some "IN".toList) (some [60, 97, 47, 62]) (some "node".toList)
      (some "id".toList) 2 new.1
    set.2.2 = none ∧ set.2.1.getZMsg set.1 = .error .nullPointer ∧ ¬ RoundTrips set.1 set.2.1 clear := by
  refine ⟨rfl, rfl, ?_⟩
  rintro ⟨zmsg, hget, -⟩
  cases hget

end UfpsFrame

end OrgLittle.Stream
