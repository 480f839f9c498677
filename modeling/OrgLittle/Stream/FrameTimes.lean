import OrgLittle.Lib.Machine
import OrgLittle.Stream.FrameCodec

/-!
# The times of many frames

Every frame should have three times of its own. In the program new frames share the object `ufpsTime.empty`, and the
setters write into it. `FrameTimes` is the intended view, with a value for each time; `frames_independent_iff` says
for which runs the program agrees with it.
-/

namespace OrgLittle.Stream

open OrgLittle.Java OrgLittle.Lib

variable {p : Platform}

/-! ## The program -/

/-- The time objects and all frames. -/
structure FrameWorld (p : Platform) where
  times : Times p
  frames : List UfpsFrame

/-- The creations of frames (the constructors of `ufpsFrame` and `ufpsCMD`) and the calls that set times. Frames are
given by their number. -/
inductive FrameCall
  | newFrame (now : ℤ)
  | newOfMsg (user queue : Option JString) (msg : Option UfpsMsg)
  | newOfZMsg (zmsg : ZMsg)
  | commandOf (i : ℕ) (now : ℤ)
  | commandOfZMsg (zmsg : ZMsg) (now : ℤ)
  | command (node user queue : Option JString) (now now' : ℤ)
  | setTime (field : TimeField) (i : ℕ) (now : ℤ)
  | set (i : ℕ) (user queue : Option JString) (buf : Option (List UInt8)) (node id : Option JString) (now : ℤ)

namespace FrameWorld

/-- A new frame, unless its constructor has thrown. -/
def add (w : FrameWorld p) (made : Except JavaException (Times p × UfpsFrame)) : FrameWorld p :=
  match made with
  | .ok (times, f) => ⟨times, w.frames ++ [f]⟩
  | .error _ => w

/-- A call. Exceptions are those of the caller. -/
def call (w : FrameWorld p) : FrameCall → FrameWorld p
  | .newFrame now => w.add (.ok (UfpsFrame.new now w.times))
  | .newOfMsg user queue msg => w.add (.ok (w.times, UfpsFrame.ofMsg user queue msg))
  | .newOfZMsg zmsg => w.add (UfpsFrame.clear.setZMsg zmsg w.times)
  | .commandOf i now =>
    match w.frames[i]? with
    | none => w
    | some g =>
      match g.copyOf now w.times with
      | (times, .ok f) => ⟨times, w.frames ++ [f]⟩
      | (times, .error _) => { w with times }
  | .commandOfZMsg zmsg now =>
    let new := UfpsFrame.new now w.times
    w.add (new.2.setZMsg zmsg new.1)
  | .command node user queue now now' => w.add (.ok (UfpsFrame.command node user queue now now' w.times))
  | .setTime field i now =>
    match w.frames[i]? with
    | none => w
    | some f =>
      match f.setTime field now w.times with
      | .ok times => { w with times }
      | .error _ => w
  | .set i user queue buf node id now =>
    match w.frames[i]? with
    | none => w
    | some f =>
      let set := f.set user queue buf node id now w.times
      ⟨set.1, w.frames.set i set.2.1⟩

end FrameWorld

/-- The program as a machine. -/
def frameCalls (p : Platform) : Machine (FrameWorld p) FrameCall Unit where
  step w c := (w.call c, [])

/-! ## The intended view -/

/-- The three times of a frame, `none` for `null`. -/
structure FrameTimes where
  create : Option ℤ
  arrive : Option ℤ
  receive : Option ℤ
deriving DecidableEq

namespace FrameTimes

/-- A time is set, if it is not `null`. -/
def setTime (field : TimeField) (now : ℤ) (t : FrameTimes) : FrameTimes :=
  match field with
  | .create => { t with create := t.create.map fun _ => now }
  | .arrive => { t with arrive := t.arrive.map fun _ => now }
  | .receive => { t with receive := t.receive.map fun _ => now }

/-- The times that are read from a message of ZeroMQ, if the constructor does not throw. -/
def ofZMsg (p : Platform) (zmsg : ZMsg) : Option FrameTimes :=
  match UfpsFrame.clear.setZMsg zmsg (Times.init p) with
  | .ok (times, f) => some ⟨f.create.map fun r => (times.get r).time, f.arrive.map fun r => (times.get r).time,
      f.receive.map fun r => (times.get r).time⟩
  | .error _ => none

/-- What a call does to the times of all frames: it appends those of a new frame, or it changes one frame. -/
def call (p : Platform) (ts : List FrameTimes) : FrameCall → List FrameTimes
  | .newFrame now => ts ++ [⟨some now, some 0, some 0⟩]
  | .newOfMsg _ _ _ => ts ++ [⟨some 0, some 0, some 0⟩]
  | .newOfZMsg zmsg => ts ++ (ofZMsg p zmsg).toList
  | .commandOf i _ =>
    match ts[i]? with
    | some ⟨some create, some arrive, some receive⟩ => ts ++ [⟨some create, some arrive, some receive⟩]
    | _ => ts
  | .commandOfZMsg zmsg _ => ts ++ (ofZMsg p zmsg).toList
  | .command _ _ _ _ now' => ts ++ [⟨some now', some 0, some 0⟩]
  | .setTime field i now => ts.modify i (setTime field now)
  | .set i _ _ _ _ _ now => ts.modify i fun _ => ⟨some now, none, none⟩

end FrameTimes

namespace FrameWorld

/-- The times of a frame. -/
def timesOf (times : Times p) (f : UfpsFrame) : FrameTimes where
  create := f.create.map fun r => (times.get r).time
  arrive := f.arrive.map fun r => (times.get r).time
  receive := f.receive.map fun r => (times.get r).time

/-- The times of all frames. -/
def view (w : FrameWorld p) : List FrameTimes := w.frames.map (timesOf w.times)

/-- A call changes only the times that it should change, and `ufpsTime.empty` stays 0. -/
def Independent (w : FrameWorld p) (c : FrameCall) : Prop :=
  (w.call c).view = FrameTimes.call p w.view c ∧ ((w.call c).times.get emptyTime).time = 0

/-- The call does not write another time than 0 into `ufpsTime.empty`: a field that is set has an object of its own, and
a frame that is copied into a command has not arrived and was not received. -/
def SparesEmpty (w : FrameWorld p) : FrameCall → Prop
  | .setTime field i now => ∀ f, w.frames[i]? = some f → f.timeRef field = some emptyTime → now = 0
  | .commandOf i _ => ∀ f, w.frames[i]? = some f → ∀ field, field ≠ .create → ∀ r,
    f.timeRef field = some r → (w.times.get r).time = 0
  | _ => True

end FrameWorld

/-! ## Times by their fields -/

namespace FrameTimes

/-- The time in a field. -/
def get (t : FrameTimes) : TimeField → Option ℤ
  | .create => t.create
  | .arrive => t.arrive
  | .receive => t.receive

/-- A frame's times are its five times. -/
theorem ext_get {t t' : FrameTimes} (h : ∀ field, t.get field = t'.get field) : t = t' := by
  obtain ⟨create, arrive, receive⟩ := t
  obtain ⟨create', arrive', receive'⟩ := t'
  obtain rfl : create = create' := h .create
  obtain rfl : arrive = arrive' := h .arrive
  obtain rfl : receive = receive' := h .receive
  rfl

/-- One time is set, if it is there. -/
theorem get_setTime (field field' : TimeField) (now : ℤ) (t : FrameTimes) :
    (setTime field now t).get field' = if field' = field then (t.get field').map fun _ => now else t.get field' := by
  cases field <;> cases field' <;> rfl

end FrameTimes

namespace FrameWorld

/-- The times that a frame shows. -/
theorem get_timesOf (times : Times p) (f : UfpsFrame) (field : TimeField) :
    (timesOf times f).get field = UfpsFrame.timeAt times f field := by
  cases field <;> rfl

theorem getElem?_view (w : FrameWorld p) (i : ℕ) : w.view[i]? = w.frames[i]?.map (timesOf w.times) :=
  List.getElem?_map ..

/-- A change that changes nothing of what is there. -/
theorem modify_eq_self_of {α : Type*} {l : List α} {i : ℕ} {f : α → α} (h : ∀ a, l[i]? = some a → f a = a) :
    l.modify i f = l := by
  refine List.ext_getElem? fun j => ?_
  by_cases hij : i = j
  · subst hij
    rw [List.getElem?_modify_eq]
    cases hi : l[i]? with
    | none => rfl
    | some a => exact congrArg some (h a hi)
  · rw [List.getElem?_modify_ne f l hij]

/-! ## Frames do not share objects -/

/-- The object of a field of a frame. -/
def refAt (frames : List UfpsFrame) (i : ℕ) (field : TimeField) : Option ℕ :=
  frames[i]?.bind fun f => f.timeRef field

/-- No two fields share an object other than `ufpsTime.empty`, which is 0. -/
structure Separate (w : FrameWorld p) : Prop where
  empty : w.times.get emptyTime = .ofMillis 0
  next : emptyTime < w.times.next
  used : ∀ i field r, refAt w.frames i field = some r → r < w.times.next
  own : ∀ i field j field' r, refAt w.frames i field = some r → refAt w.frames j field' = some r →
    r ≠ emptyTime → i = j ∧ field = field'
  create : ∀ f ∈ w.frames, f.create ≠ none
  both : ∀ f ∈ w.frames, f.arrive = none ↔ f.receive = none

/-- A frame whose times are `ufpsTime.empty` or new objects. -/
structure Fresh (times times' : Times p) (f : UfpsFrame) : Prop where
  ext : times.Extends times'
  ref : ∀ field r, f.timeRef field = some r → r = emptyTime ∨ times.next ≤ r ∧ r < times'.next
  own : ∀ field field' r, f.timeRef field = some r → f.timeRef field' = some r → r ≠ emptyTime → field = field'
  create : f.create ≠ none
  both : f.arrive = none ↔ f.receive = none

/-- Where a frame has its object. -/
theorem refAt_eq_some {frames : List UfpsFrame} {i : ℕ} {field : TimeField} {r : ℕ} :
    refAt frames i field = some r ↔ ∃ f, frames[i]? = some f ∧ f.timeRef field = some r :=
  Option.bind_eq_some_iff

/-- No frame, no shared object. -/
theorem separate_init : Separate ⟨Times.init p, []⟩ where
  empty := rfl
  next := Nat.zero_lt_one
  used := by simp [refAt]
  own := by simp [refAt]
  create := by simp
  both := by simp

/-- The times of a frame stay when objects are added. -/
theorem Separate.timesOf_eq {w : FrameWorld p} (h : Separate w) {times' : Times p} (hext : w.times.Extends times')
    {i : ℕ} {f : UfpsFrame} (hf : w.frames[i]? = some f) : timesOf times' f = timesOf w.times f := by
  refine FrameTimes.ext_get fun field => ?_
  rw [get_timesOf, get_timesOf, UfpsFrame.timeAt, UfpsFrame.timeAt]
  cases hr : f.timeRef field with
  | none => rfl
  | some r =>
    have hlt : r < w.times.next := h.used i field r (refAt_eq_some.mpr ⟨f, hf, hr⟩)
    simp [hext.get_eq r hlt]

section Place

variable {w : FrameWorld p} {times' : Times p} {frames' : List UfpsFrame} {f : UfpsFrame} {i : ℕ}

/-- A new frame is put at a place of its own, or replaces another one. -/
theorem Separate.place (h : Separate w) (hfresh : Fresh w.times times' f)
    (hplace : ∀ j, frames'[j]? = if j = i then some f else w.frames[j]?) : Separate ⟨times', frames'⟩ := by
  have hcases : ∀ j field r, refAt frames' j field = some r →
      j = i ∧ f.timeRef field = some r ∨ j ≠ i ∧ refAt w.frames j field = some r := by
    intro j field r hr
    rw [refAt, hplace] at hr
    split at hr
    · next hj => exact .inl ⟨hj, hr⟩
    · next hj => exact .inr ⟨hj, hr⟩
  have hmem : ∀ g ∈ frames', g = f ∨ g ∈ w.frames := by
    intro g hg
    obtain ⟨j, hj⟩ := List.mem_iff_getElem?.mp hg
    rw [hplace] at hj
    split at hj
    · exact .inl (Option.some.inj hj).symm
    · exact .inr (List.mem_of_getElem? hj)
  -- a new object is not one of an old frame
  have hold : ∀ j field field' r, f.timeRef field = some r → refAt w.frames j field' = some r → r = emptyTime := by
    intro j field field' r hr hr'
    obtain hempty | ⟨hnew, -⟩ := hfresh.ref field r hr
    · exact hempty
    · exact absurd (h.used j field' r hr') (Nat.not_lt.mpr hnew)
  refine ⟨?_, ?_, ?_, ?_, ?_, ?_⟩
  · rw [hfresh.ext.get_eq _ h.next, h.empty]
  · exact h.next.trans_le hfresh.ext.next_le
  · intro j field r hr
    obtain ⟨-, hr⟩ | ⟨-, hr⟩ := hcases j field r hr
    · obtain rfl | ⟨-, hlt⟩ := hfresh.ref field r hr
      · exact h.next.trans_le hfresh.ext.next_le
      · exact hlt
    · exact (h.used j field r hr).trans_le hfresh.ext.next_le
  · intro j field j' field' r hr hr' hne
    obtain ⟨hj, hnew⟩ | ⟨-, hnew⟩ := hcases j field r hr
    · obtain ⟨hj', hnew'⟩ | ⟨-, hnew'⟩ := hcases j' field' r hr'
      · exact ⟨hj.trans hj'.symm, hfresh.own field field' r hnew hnew' hne⟩
      · exact absurd (hold j' field field' r hnew hnew') hne
    · obtain ⟨-, hnew'⟩ | ⟨-, hnew'⟩ := hcases j' field' r hr'
      · exact absurd (hold j field' field r hnew' hnew) hne
      · exact h.own j field j' field' r hnew hnew' hne
  · intro g hg
    obtain rfl | hg := hmem g hg
    · exact hfresh.create
    · exact h.create g hg
  · intro g hg
    obtain rfl | hg := hmem g hg
    · exact hfresh.both
    · exact h.both g hg

/-- A frame is put in a place: the others show what they showed. -/
theorem Separate.view_place (h : Separate w) (hext : w.times.Extends times')
    (hplace : ∀ j, frames'[j]? = if j = i then some f else w.frames[j]?) (j : ℕ) :
    (⟨times', frames'⟩ : FrameWorld p).view[j]? = if j = i then some (timesOf times' f) else w.view[j]? := by
  rw [getElem?_view, getElem?_view, hplace]
  split
  · rfl
  · cases hg : w.frames[j]? with
    | none => rfl
    | some g => exact congrArg some (h.timesOf_eq hext hg)

/-- What a call makes of a world: frames still do not share objects, and their times are `ts`. -/
def Makes (w' : FrameWorld p) (ts : List FrameTimes) : Prop := Separate w' ∧ w'.view = ts

theorem getElem?_concat {α : Type*} (l : List α) (a : α) (j : ℕ) :
    (l ++ [a])[j]? = if j = l.length then some a else l[j]? := by
  split
  · next h => rw [h, List.getElem?_concat_length]
  · next h =>
    rw [List.getElem?_append]
    split
    · rfl
    · next hlt => rw [List.getElem?_eq_none (by simp; omega), List.getElem?_eq_none (by omega)]

/-- A frame is made. -/
theorem Separate.append (h : Separate w) (hfresh : Fresh w.times times' f) :
    Makes ⟨times', w.frames ++ [f]⟩ (w.view ++ [timesOf times' f]) := by
  refine ⟨h.place hfresh (getElem?_concat _ _), List.ext_getElem? fun j => ?_⟩
  rw [h.view_place hfresh.ext (getElem?_concat _ _), getElem?_concat, view, List.length_map]

/-- A frame is made that has not arrived and was not received. -/
theorem Separate.append_new (h : Separate w) (hfresh : Fresh w.times times' f) {create : ℕ}
    (hcreate : f.create = some create) (harrive : f.arrive = some emptyTime) (hreceive : f.receive = some emptyTime) :
    Makes ⟨times', w.frames ++ [f]⟩ (w.view ++ [⟨some (times'.get create).time, some 0, some 0⟩]) := by
  have htimes : timesOf times' f = ⟨some (times'.get create).time, some 0, some 0⟩ := by
    simp [timesOf, hcreate, harrive, hreceive, hfresh.ext.get_eq _ h.next, h.empty]
  rw [← htimes]
  exact h.append hfresh

/-- A frame gets new times. -/
theorem Separate.replace (h : Separate w) (hfresh : Fresh w.times times' f) (hi : i < w.frames.length) :
    Makes ⟨times', w.frames.set i f⟩ (w.view.set i (timesOf times' f)) := by
  have hplace : ∀ j, (w.frames.set i f)[j]? = if j = i then some f else w.frames[j]? := by
    intro j
    rw [List.getElem?_set]
    grind
  refine ⟨h.place hfresh hplace, List.ext_getElem? fun j => ?_⟩
  rw [h.view_place hfresh.ext hplace, List.getElem?_set]
  simp only [view, List.length_map]
  grind

/-- Objects are added, and no frame has them. -/
theorem Separate.extend (h : Separate w) (hext : w.times.Extends times') : Makes { w with times := times' } w.view := by
  refine ⟨⟨?_, ?_, ?_, h.own, h.create, h.both⟩, List.map_congr_left ?_⟩
  · rw [hext.get_eq _ h.next, h.empty]
  · exact h.next.trans_le hext.next_le
  · exact fun i field r hr => (h.used i field r hr).trans_le hext.next_le
  · intro g hg
    obtain ⟨j, hj⟩ := List.mem_iff_getElem?.mp hg
    exact h.timesOf_eq hext hj

end Place

/-! ## Creations -/

/-- What is new is new in every heap that the old one was extended to. -/
theorem Fresh.of_extends {times times' times'' : Times p} {f : UfpsFrame} (hext : times.Extends times')
    (h : Fresh times' times'' f) : Fresh times times'' f where
  ext := hext.trans h.ext
  ref field r hr := (h.ref field r hr).imp_right fun ⟨hnew, hlt⟩ => ⟨hext.next_le.trans hnew, hlt⟩
  own := h.own
  create := h.create
  both := h.both

/-- A frame made from a message shares no object with another. -/
theorem fresh_ofMsg (times : Times p) (user queue : Option JString) (msg : Option UfpsMsg) :
    Fresh times times (UfpsFrame.ofMsg user queue msg) where
  ext := .refl times
  ref field r hr := by cases field <;> exact .inl (Option.some.inj hr).symm
  own field field' r hr _ hne := by cases field <;> exact absurd (Option.some.inj hr).symm hne
  create := Option.some_ne_none _
  both := by simp [UfpsFrame.ofMsg, UfpsFrame.clear]

/-- A frame with a create time of its own. -/
theorem fresh_of_create {times times' : Times p} {f : UfpsFrame} (hext : times.Extends times')
    (hnext : times.next < times'.next) (hcreate : f.create = some times.next)
    (hother : f.arrive = some emptyTime ∧ f.receive = some emptyTime ∨ f.arrive = none ∧ f.receive = none) :
    Fresh times times' f := by
  have hone : ∀ field r, f.timeRef field = some r → r ≠ emptyTime → field = .create ∧ r = times.next := by
    intro field r hr hne
    cases field with
    | create => exact ⟨rfl, Option.some.inj (hr.symm.trans hcreate)⟩
    | arrive => obtain ⟨ha, -⟩ | ⟨ha, -⟩ := hother <;> simp_all [UfpsFrame.timeRef]
    | receive => obtain ⟨-, ha⟩ | ⟨-, ha⟩ := hother <;> simp_all [UfpsFrame.timeRef]
  refine ⟨hext, ?_, ?_, ?_, ?_⟩
  · intro field r hr
    by_cases hne : r = emptyTime
    · exact .inl hne
    · obtain ⟨-, rfl⟩ := hone field r hr hne
      exact .inr ⟨le_rfl, hnext⟩
  · intro field field' r hr hr' hne
    rw [(hone field r hr hne).1, (hone field' r hr' hne).1]
  · simp [hcreate]
  · obtain ⟨ha, hr⟩ | ⟨ha, hr⟩ := hother <;> simp [ha, hr]

/-- A new frame shares no object with another. -/
theorem fresh_new (now : ℤ) (times : Times p) :
    Fresh times (UfpsFrame.new now times).1 (UfpsFrame.new now times).2 :=
  fresh_of_create ((Heap.Extends.refl times).alloc _) (Nat.lt_succ_self _) rfl (.inl ⟨rfl, rfl⟩)

/-- A command shares no object with another. -/
theorem fresh_command (node user queue : Option JString) (now now' : ℤ) (times : Times p) :
    Fresh times (UfpsFrame.command node user queue now now' times).1
      (UfpsFrame.command node user queue now now' times).2 :=
  fresh_of_create (((Heap.Extends.refl times).alloc _).set le_rfl _) (Nat.lt_succ_self _) rfl (.inl ⟨rfl, rfl⟩)

/-- A frame that is set from texts shares no object with another. -/
theorem fresh_setTexts (type user queue node id create arrive receive : JString) (msg : Option UfpsMsg)
    (f : UfpsFrame) (times : Times p) :
    let set := UfpsFrame.setTexts type user queue node id create arrive receive f times
    Fresh times set.1 { set.2 with msg := msg } where
  ext := (((Heap.Extends.refl times).alloc _).alloc _).alloc _
  ref field r hr := by
    cases field <;> obtain rfl := Option.some.inj hr <;>
      exact .inr (by simp only [UfpsFrame.setTexts, Heap.alloc_ref, Heap.alloc_next]; omega)
  own field field' r hr hr' _ := by
    have hnum : ∀ field r, ({ (UfpsFrame.setTexts type user queue node id create arrive receive f times).2 with
        msg := msg } : UfpsFrame).timeRef field = some r → r = times.next + match field with
          | .create => 0
          | .arrive => 1
          | .receive => 2 := by
      intro field r hr
      cases field <;> exact (Option.some.inj hr).symm
    have := (hnum field r hr).symm.trans (hnum field' r hr')
    cases field <;> cases field' <;> simp_all
  create := Option.some_ne_none _
  both := by simp [UfpsFrame.setTexts]

/-- Whether `setZMsg` throws, and which texts it sets, depends on the message only. -/
theorem setZMsg_cases (zmsg : ZMsg) :
    (∃ e, ∀ (f : UfpsFrame) (times : Times p), f.setZMsg zmsg times = .error e)
      ∨ ∃ type user queue node id create arrive receive msg, ∀ (f : UfpsFrame) (times : Times p), f.setZMsg zmsg times
        = .ok ((UfpsFrame.setTexts type user queue node id create arrive receive f times).1,
          { (UfpsFrame.setTexts type user queue node id create arrive receive f times).2 with msg := msg }) := by
  let text := ZFrame.getString p
  match zmsg with
  | type :: user :: queue :: node :: id :: create :: arrive :: receive :: rest =>
    by_cases htype : ZFrame.getString p type = TYPE_DATA_MSG
    · cases hmsg : deref rest.head? >>= UfpsMsg.ofBytes p with
      | error e =>
        refine .inl ⟨e, fun f times => ?_⟩
        simp only [UfpsFrame.setZMsg, if_pos htype]
        rw [← bind_assoc, hmsg]
        rfl
      | ok msg =>
        refine .inr ⟨text type, text user, text queue, text node, text id, text create, text arrive, text receive,
          some msg, fun f times => ?_⟩
        simp only [UfpsFrame.setZMsg, if_pos htype]
        rw [← bind_assoc, hmsg]
        rfl
    · refine .inr ⟨text type, text user, text queue, text node, text id, text create, text arrive, text receive,
        none, fun f times => ?_⟩
      simp only [UfpsFrame.setZMsg, if_neg htype]
      rfl
  | [] | [_] | [_, _] | [_, _, _] | [_, _, _, _] | [_, _, _, _, _] | [_, _, _, _, _, _] | [_, _, _, _, _, _, _] =>
    exact .inl ⟨_, fun _ _ => rfl⟩

/-- A frame is read from a message of ZeroMQ, by one of the constructors. -/
theorem Separate.add_setZMsg {w : FrameWorld p} (h : Separate w) {f : UfpsFrame} {times : Times p}
    (hext : w.times.Extends times) (zmsg : ZMsg) :
    Makes (w.add (f.setZMsg zmsg times)) (w.view ++ (FrameTimes.ofZMsg p zmsg).toList) := by
  obtain ⟨e, herror⟩ | ⟨type, user, queue, node, id, create, arrive, receive, msg, hok⟩ := setZMsg_cases (p := p) zmsg
  · have hnone : FrameTimes.ofZMsg p zmsg = none := by rw [FrameTimes.ofZMsg, herror]
    rw [herror, hnone, Option.toList_none, List.append_nil]
    exact ⟨h, rfl⟩
  · have hsame : FrameTimes.ofZMsg p zmsg
        = some (timesOf (UfpsFrame.setTexts type user queue node id create arrive receive f times).1
          { (UfpsFrame.setTexts type user queue node id create arrive receive f times).2 with msg := msg }) := by
      rw [FrameTimes.ofZMsg, hok]
      refine congrArg some (FrameTimes.ext_get fun field => ?_)
      refine (get_timesOf _ _ field).trans ?_
      rw [get_timesOf, UfpsFrame.setTexts_timeAt, UfpsFrame.setTexts_timeAt]
    rw [hok, hsame]
    exact h.append ((fresh_setTexts ..).of_extends hext)

/-! ## Setters -/

section Calls

variable {w : FrameWorld p} {f : UfpsFrame} {i : ℕ}

/-- A time that is set is the time of one field. -/
theorem Separate.timeAt_set (h : Separate w) {field : TimeField} {r : ℕ} (hf : w.frames[i]? = some f)
    (hr : f.timeRef field = some r) (hne : r ≠ emptyTime) (now : ℤ) {j : ℕ} {g : UfpsFrame}
    (hg : w.frames[j]? = some g) (field' : TimeField) :
    UfpsFrame.timeAt (w.times.set r (.ofMillis now)) g field'
      = if i = j ∧ field' = field then (UfpsFrame.timeAt w.times g field').map fun _ => now
        else UfpsFrame.timeAt w.times g field' := by
  rw [UfpsFrame.timeAt, UfpsFrame.timeAt]
  split
  · next hsame =>
    obtain ⟨rfl, rfl⟩ := hsame
    obtain rfl : g = f := Option.some.inj (hg.symm.trans hf)
    simp [hr]
  · next hother =>
    cases hs : g.timeRef field' with
    | none => rfl
    | some s =>
      have hdiff : s ≠ r := by
        rintro rfl
        obtain ⟨hij, hfield⟩ := h.own i field j field' s (refAt_eq_some.mpr ⟨f, hf, hr⟩)
          (refAt_eq_some.mpr ⟨g, hg, hs⟩) hne
        exact hother ⟨hij, hfield.symm⟩
      simp [Heap.get_set_of_ne hdiff]

/-- A time is set in an object that no other field has. -/
theorem Separate.makes_setTime (h : Separate w) {field : TimeField} {r : ℕ} (hf : w.frames[i]? = some f)
    (hr : f.timeRef field = some r) (hne : r ≠ emptyTime) (now : ℤ) :
    Makes { w with times := w.times.set r (.ofMillis now) } (w.view.modify i (FrameTimes.setTime field now)) := by
  refine ⟨⟨?_, h.next, h.used, h.own, h.create, h.both⟩, List.ext_getElem? fun j => ?_⟩
  · exact (Heap.get_set_of_ne (Ne.symm hne) _).trans h.empty
  rw [List.getElem?_modify, getElem?_view, getElem?_view]
  cases hg : w.frames[j]? with
  | none => rfl
  | some g =>
    refine congrArg some (FrameTimes.ext_get fun field' => ?_)
    rw [get_timesOf, h.timeAt_set hf hr hne now hg]
    by_cases hij : i = j
    · simp [hij, FrameTimes.get_setTime, get_timesOf]
    · simp [hij, get_timesOf]

theorem view_eq_some (hf : w.frames[i]? = some f) : w.view[i]? = some (timesOf w.times f) := by
  rw [getElem?_view, hf, Option.map_some]

/-- A time is set to what it is: it is `null`, or it is `now` already. -/
theorem setTime_timesOf_eq_self {times : Times p} {field : TimeField} {now : ℤ}
    (h : (UfpsFrame.timeAt times f field).map (fun _ => now) = UfpsFrame.timeAt times f field) :
    FrameTimes.setTime field now (timesOf times f) = timesOf times f := by
  refine FrameTimes.ext_get fun field' => ?_
  rw [FrameTimes.get_setTime, get_timesOf]
  split
  · next hfield =>
    subst hfield
    exact h
  · rfl

/-- A change that no frame notices. -/
theorem modify_view_eq_self {g : FrameTimes → FrameTimes}
    (h : ∀ f, w.frames[i]? = some f → g (timesOf w.times f) = timesOf w.times f) : w.view.modify i g = w.view := by
  refine modify_eq_self_of fun t ht => ?_
  rw [getElem?_view] at ht
  obtain ⟨f, hf, rfl⟩ := Option.map_eq_some_iff.mp ht
  exact h f hf

/-- A time is set in its own frame, where the condition holds. -/
theorem Separate.makes_call_setTime (h : Separate w) {field : TimeField} {now : ℤ}
    (hc : SparesEmpty w (.setTime field i now)) :
    Makes (w.call (.setTime field i now)) (w.view.modify i (FrameTimes.setTime field now)) := by
  cases hf : w.frames[i]? with
  | none =>
    rw [modify_view_eq_self (by simp [hf])]
    simp only [call, hf]
    exact ⟨h, rfl⟩
  | some f =>
    cases hr : f.timeRef field with
    | none =>
      have hsame : (UfpsFrame.timeAt w.times f field).map (fun _ => now) = UfpsFrame.timeAt w.times f field := by
        simp [UfpsFrame.timeAt, hr]
      rw [modify_view_eq_self (by simp [hf, setTime_timesOf_eq_self hsame])]
      simp only [call, hf, UfpsFrame.setTime, UfpsFrame.setTimeAt, hr]
      exact ⟨h, rfl⟩
    | some r =>
      simp only [call, hf, UfpsFrame.setTime, UfpsFrame.setTimeAt, hr]
      by_cases hne : r = emptyTime
      · subst hne
        obtain rfl : now = 0 := hc f hf hr
        have hsame : (UfpsFrame.timeAt w.times f field).map (fun _ => 0) = UfpsFrame.timeAt w.times f field := by
          simp [UfpsFrame.timeAt, hr, h.empty]
        rw [modify_view_eq_self (by simp [hf, setTime_timesOf_eq_self hsame]), Heap.set_eq_self h.empty]
        exact ⟨h, rfl⟩
      · exact h.makes_setTime hf hr hne now

/-- A frame is set again. -/
theorem Separate.makes_set (h : Separate w) (user queue : Option JString) (buf : Option (List UInt8))
    (node id : Option JString) (now : ℤ) :
    Makes (w.call (.set i user queue buf node id now)) (w.view.modify i fun _ => ⟨some now, none, none⟩) := by
  cases hf : w.frames[i]? with
  | none =>
    rw [modify_view_eq_self (by simp [hf])]
    simp only [call, hf]
    exact ⟨h, rfl⟩
  | some f =>
    simp only [call, hf]
    have hset : (f.set user queue buf node id now w.times).1 = (w.times.alloc (.ofMillis now)).1
        ∧ (f.set user queue buf node id now w.times).2.1.create = some w.times.next
        ∧ (f.set user queue buf node id now w.times).2.1.arrive = none
        ∧ (f.set user queue buf node id now w.times).2.1.receive = none := by
      rw [UfpsFrame.set]
      split <;> exact ⟨rfl, rfl, rfl, rfl⟩
    obtain ⟨htimes, hcreate, harrive, hreceive⟩ := hset
    have hfresh : Fresh w.times (f.set user queue buf node id now w.times).1
        (f.set user queue buf node id now w.times).2.1 := by
      rw [htimes]
      exact fresh_of_create ((Heap.Extends.refl _).alloc _) (Nat.lt_succ_self _) hcreate (.inr ⟨harrive, hreceive⟩)
    have hnew : timesOf (f.set user queue buf node id now w.times).1 (f.set user queue buf node id now w.times).2.1
        = ⟨some now, none, none⟩ := by
      simp [timesOf, hcreate, harrive, hreceive, htimes]
    rw [← List.set_eq_modify, ← hnew]
    exact h.replace hfresh (List.getElem?_eq_some_iff.mp hf).1

/-! ## Commands from frames -/

/-- The objects when `ufpsCMD(ufpsFrame)` has copied the create time into an object of its own. -/
def copied (times : Times p) (now : ℤ) (create : ℕ) : Times p :=
  let new := (UfpsFrame.new now times).1
  new.set times.next (.ofMillis (new.get create).time)

/-- The objects that were there stay when the create time is copied. -/
theorem extends_copied (times : Times p) (now : ℤ) (create : ℕ) : times.Extends (copied times now create) :=
  ((Heap.Extends.refl times).alloc _).set le_rfl _

/-- A frame without an arrival cannot be copied. -/
theorem copyOf_of_none {g : UfpsFrame} {create : ℕ} (hcreate : g.create = some create) (harrive : g.arrive = none)
    (now : ℤ) (times : Times p) : g.copyOf now times = (copied times now create, .error .nullPointer) := by
  simp [UfpsFrame.copyOf, UfpsFrame.copyTime, UfpsFrame.timeRef, hcreate, harrive, UfpsFrame.new, UfpsFrame.clear,
    copied]

/-- The arrive time and then the receive time are written into `ufpsTime.empty`. -/
theorem copyOf_of_some {g : UfpsFrame} {create arrive receive : ℕ} (hcreate : g.create = some create)
    (harrive : g.arrive = some arrive) (hreceive : g.receive = some receive) (now : ℤ) (times : Times p) :
    let arrived := (copied times now create).set emptyTime (.ofMillis ((copied times now create).get arrive).time)
    g.copyOf now times = (arrived.set emptyTime (.ofMillis (arrived.get receive).time),
      .ok { g with create := some times.next, arrive := some emptyTime, receive := some emptyTime }) := by
  simp [UfpsFrame.copyOf, UfpsFrame.copyTime, UfpsFrame.timeRef, hcreate, harrive, hreceive, UfpsFrame.new,
    UfpsFrame.clear, copied]

/-- The times of the frame are still there when the create time is copied, and the command has the create time. -/
theorem Separate.get_copied (h : Separate w) {g : UfpsFrame} (hf : w.frames[i]? = some g) {create : ℕ}
    (hcreate : g.create = some create) (now : ℤ) :
    (∀ field r, g.timeRef field = some r → (copied w.times now create).get r = w.times.get r)
      ∧ ((copied w.times now create).get w.times.next).time = (w.times.get create).time := by
  have hused : ∀ field r, g.timeRef field = some r → r < w.times.next := fun field r hr =>
    h.used i field r (refAt_eq_some.mpr ⟨g, hf, hr⟩)
  refine ⟨fun field r hr => (extends_copied w.times now create).get_eq r (hused field r hr), ?_⟩
  rw [copied, Heap.get_set_self, UfpsTime.ofMillis_time]
  exact congrArg UfpsTime.time (Heap.get_alloc_of_lt (hused .create create hcreate) _)

/-- A frame that has not arrived and was not received: both writes put 0 into `ufpsTime.empty`, which is 0. -/
theorem Separate.copyOf_eq (h : Separate w) {g : UfpsFrame} (hf : w.frames[i]? = some g)
    {create arrive receive : ℕ} (hcreate : g.create = some create) (harrive : g.arrive = some arrive)
    (hreceive : g.receive = some receive) (harriveTime : (w.times.get arrive).time = 0)
    (hreceiveTime : (w.times.get receive).time = 0) (now : ℤ) :
    g.copyOf now w.times = (copied w.times now create,
      .ok { g with create := some w.times.next, arrive := some emptyTime, receive := some emptyTime }) := by
  obtain ⟨hget, -⟩ := h.get_copied hf hcreate now
  have hempty : (copied w.times now create).get emptyTime = .ofMillis 0 :=
    ((extends_copied w.times now create).get_eq _ h.next).trans h.empty
  have hcopy := copyOf_of_some hcreate harrive hreceive now w.times
  simp only [hget .arrive arrive harrive, harriveTime, Heap.set_eq_self hempty,
    hget .receive receive hreceive, hreceiveTime] at hcopy
  exact hcopy

/-- A command is made of a frame that has not arrived and was not received, or of one whose arrive time is `null`. -/
theorem Separate.makes_commandOf (h : Separate w) {now : ℤ} (hc : SparesEmpty w (.commandOf i now)) :
    Makes (w.call (.commandOf i now)) (FrameTimes.call p w.view (.commandOf i now)) := by
  cases hf : w.frames[i]? with
  | none =>
    simp only [call, FrameTimes.call, getElem?_view, hf, Option.map_none]
    exact ⟨h, rfl⟩
  | some g =>
    have hmem : g ∈ w.frames := List.mem_of_getElem? hf
    obtain ⟨create, hcreate⟩ := Option.ne_none_iff_exists'.mp (h.create g hmem)
    have hext := extends_copied w.times now create
    cases harrive : g.arrive with
    | none =>
      simp only [call, FrameTimes.call, view_eq_some hf, hf, copyOf_of_none hcreate harrive, timesOf, hcreate, harrive,
        Option.map_none, Option.map_some]
      exact h.extend hext
    | some arrive =>
      have hsome : g.receive ≠ none := fun hnone => by simp [(h.both g hmem).mpr hnone] at harrive
      obtain ⟨receive, hreceive⟩ := Option.ne_none_iff_exists'.mp hsome
      have harriveTime : (w.times.get arrive).time = 0 := hc g hf .arrive (by decide) arrive harrive
      have hreceiveTime : (w.times.get receive).time = 0 := hc g hf .receive (by decide) receive hreceive
      have hcopy := h.copyOf_eq hf hcreate harrive hreceive harriveTime hreceiveTime now
      have hfresh : Fresh w.times (copied w.times now create)
          { g with create := some w.times.next, arrive := some emptyTime, receive := some emptyTime } :=
        fresh_of_create hext (Nat.lt_succ_self _) rfl (.inl ⟨rfl, rfl⟩)
      have hmade := h.append_new hfresh rfl rfl rfl
      rw [(h.get_copied hf hcreate now).2] at hmade
      simp only [call, FrameTimes.call, view_eq_some hf, hf, hcopy, timesOf, hcreate, harrive, hreceive,
        Option.map_some, harriveTime, hreceiveTime]
      exact hmade

/-! ## All calls -/

/-- A call that spares `ufpsTime.empty` does to the times what it should. -/
theorem Separate.makes_call (h : Separate w) {c : FrameCall} (hc : SparesEmpty w c) :
    Makes (w.call c) (FrameTimes.call p w.view c) := by
  cases c with
  | newFrame now =>
    have hmade := h.append_new (fresh_new now w.times) rfl rfl rfl
    rwa [UfpsFrame.new, Heap.alloc_ref, Heap.get_alloc_self] at hmade
  | newOfMsg user queue msg =>
    have hmade := h.append_new (fresh_ofMsg w.times user queue msg) rfl rfl rfl
    rwa [h.empty] at hmade
  | newOfZMsg zmsg => exact h.add_setZMsg (.refl _) zmsg
  | commandOf i now => exact h.makes_commandOf hc
  | commandOfZMsg zmsg now => exact h.add_setZMsg (fresh_new now w.times).ext zmsg
  | command node user queue now now' =>
    have hmade := h.append_new (fresh_command node user queue now now' w.times) rfl rfl rfl
    simp only [UfpsFrame.command, UfpsFrame.new, Heap.alloc_ref, Heap.get_set_self] at hmade
    exact hmade
  | setTime field i now => exact h.makes_call_setTime hc
  | set i user queue buf node id now => exact h.makes_set user queue buf node id now

/-- A call that does to the times what it should has spared `ufpsTime.empty`. -/
theorem Separate.spares (h : Separate w) {c : FrameCall} (hc : Independent w c) : SparesEmpty w c := by
  obtain ⟨hview, hempty⟩ := hc
  cases c with
  | setTime field i now =>
    intro f hf hr
    simpa [call, hf, UfpsFrame.setTime, UfpsFrame.setTimeAt, hr] using hempty
  | commandOf i now =>
    intro g hf field hfield r hr
    have hmem : g ∈ w.frames := List.mem_of_getElem? hf
    obtain ⟨create, hcreate⟩ := Option.ne_none_iff_exists'.mp (h.create g hmem)
    have hsome : g.arrive ≠ none ∧ g.receive ≠ none := by
      have := h.both g hmem
      cases field with
      | create => exact absurd rfl hfield
      | arrive => simp_all [UfpsFrame.timeRef]
      | receive => simp_all [UfpsFrame.timeRef]
    obtain ⟨arrive, harrive⟩ := Option.ne_none_iff_exists'.mp hsome.1
    obtain ⟨receive, hreceive⟩ := Option.ne_none_iff_exists'.mp hsome.2
    -- the new frame has one object for both times, and it is 0
    have hlast := congrArg List.getLast? hview
    simp only [call, FrameTimes.call, view_eq_some hf, hf, copyOf_of_some hcreate harrive hreceive, timesOf, hcreate,
      harrive, hreceive, Option.map_some] at hlast hempty
    simp only [view, List.map_append, List.map_cons, List.map_nil, List.getLast?_concat, timesOf, Option.map_some,
      Option.some.injEq, FrameTimes.mk.injEq, hempty] at hlast
    cases field with
    | create => exact absurd rfl hfield
    | arrive =>
      obtain rfl := Option.some.inj (harrive.symm.trans hr)
      exact hlast.2.1.symm
    | receive =>
      obtain rfl := Option.some.inj (hreceive.symm.trans hr)
      exact hlast.2.2.symm
  | _ => trivial

/-- When a call leaves the other frames alone. -/
theorem independent_iff (h : Separate w) (c : FrameCall) : Independent w c ↔ SparesEmpty w c := by
  refine ⟨h.spares, fun hc => ?_⟩
  obtain ⟨hseparate, hview⟩ := h.makes_call hc
  exact ⟨hview, by rw [hseparate.empty, UfpsTime.ofMillis_time]⟩

end Calls

end FrameWorld

/-- The times of the frames are independent in exactly those runs that do not write into `ufpsTime.empty`. -/
theorem frames_independent_iff (is : List FrameCall) :
    (frameCalls p).Along FrameWorld.Independent ⟨Times.init p, []⟩ is
      ↔ (frameCalls p).Along FrameWorld.SparesEmpty ⟨Times.init p, []⟩ is := by
  have hstep : ∀ (w : FrameWorld p) c, w.Separate → w.SparesEmpty c → ((frameCalls p).step w c).1.Separate :=
    fun w c h hc => (h.makes_call hc).1
  have hiff : ∀ (w : FrameWorld p) c, w.Separate → (w.Independent c ↔ w.SparesEmpty c) :=
    fun w c h => FrameWorld.independent_iff h c
  exact Machine.along_congr_of_kept hstep hiff FrameWorld.separate_init is

/-- One frame of two arrives, and all times that were not set have its arrive time. -/
theorem arrive_changes_all_frames :
    let calls := [FrameCall.newFrame 1700000000000, .newFrame 1700000001000, .setTime .arrive 0 1700000002000]
    let w := (frameCalls UfpsFrame.firstSecond).run ⟨Times.init _, []⟩ calls
    w.view = [⟨some 1700000000000, some 1700000002000, some 1700000002000⟩,
        ⟨some 1700000001000, some 1700000002000, some 1700000002000⟩]
      ∧ (w.times.get emptyTime).time = 1700000002000
      ∧ ¬ (frameCalls UfpsFrame.firstSecond).Along FrameWorld.Independent ⟨Times.init _, []⟩ calls := by
  refine ⟨rfl, rfl, ?_⟩
  rintro ⟨-, -, ⟨-, hempty⟩, -⟩
  cases hempty

end OrgLittle.Stream
