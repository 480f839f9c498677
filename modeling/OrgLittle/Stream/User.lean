import OrgLittle.Java.Text
import OrgLittle.Lib.Machine

/-!
# `ufpsQueue` and `ufpsUser`

A user has a default queue and further queues that are created when their names are first used. A new queue is
registered under the name of the default queue, not under its own: the frames put under a new name cannot be
got under it, and they turn up under the name of the default queue (`ufpsUser_mixes_queues`).
-/

namespace OrgLittle.Stream

open OrgLittle.Java OrgLittle.Lib

section

variable {F : Type*}

/-! ## `ufpsQueue` -/

/-- `ufpsQueue`, for frames of the type `F`. -/
structure UfpsQueue (F : Type*) where
  name : JString
  maxSize : ℤ
  frames : List F
deriving DecidableEq

namespace UfpsQueue

/-- `put`. -/
def put (f : F) (q : UfpsQueue F) : UfpsQueue F × Bool :=
  if (q.frames.length : ℤ) ≥ q.maxSize then (q, false) else ({ q with frames := q.frames ++ [f] }, true)

/-- `get`, also with a timeout that passes. -/
def get (q : UfpsQueue F) : UfpsQueue F × Option F := ({ q with frames := q.frames.tail }, q.frames.head?)

/-- What `put` can do. -/
theorem put_cases (f : F) (q : UfpsQueue F) :
    q.put f = (q, false) ∧ q.maxSize ≤ q.frames.length
      ∨ q.put f = ({ q with frames := q.frames ++ [f] }, true) ∧ (q.frames.length : ℤ) < q.maxSize := by
  rw [put]
  split
  · next h => exact .inl ⟨rfl, h⟩
  · next h => exact .inr ⟨rfl, not_le.mp h⟩

@[simp] theorem put_name (f : F) (q : UfpsQueue F) : (q.put f).1.name = q.name := by
  obtain ⟨h, -⟩ | ⟨h, -⟩ := put_cases f q <;> rw [h]

/-- What is taken from the front and what is left make up the queue. -/
theorem get_append (q : UfpsQueue F) : q.get.2.toList ++ q.get.1.frames = q.frames := by
  obtain ⟨name, maxSize, frames⟩ := q
  cases frames <;> rfl

end UfpsQueue

/-! ## `ufpsUser` -/

/-- `ufpsDef.DEF_NAME_IN_QUEUE`. -/
def DEF_NAME_IN_QUEUE : JString := "IN".toList

/-- `ufpsDef.DEF_NAME_OUT_QUEUE`. -/
def DEF_NAME_OUT_QUEUE : JString := "OUT".toList

/-- `ufpsUser`. The queue objects are numbered as they are created; number 0 is the default queue. -/
structure UfpsUser (F : Type*) where
  username : Option JString
  maxSize : ℤ
  queues : ℕ → UfpsQueue F
  created : ℕ
  mngrQueue : JString → Option ℕ

namespace UfpsUser

/-- The constructor. -/
def create (username : Option JString) (maxSize : ℤ) : UfpsUser F where
  username := username
  maxSize := maxSize
  queues := fun _ => ⟨DEF_NAME_IN_QUEUE, maxSize, []⟩
  created := 1
  mngrQueue := Function.update (fun _ => none) DEF_NAME_IN_QUEUE (some 0)

/-- `_getQueue`: the number of the queue. A new queue goes into the map as `queue.getName()`. -/
def findQueue (name : Option JString) (u : UfpsUser F) : UfpsUser F × ℕ :=
  match name with
  | none => (u, 0)
  | some name =>
    match u.mngrQueue name with
    | some q => (u, q)
    | none =>
      ({ u with
          queues := Function.update u.queues u.created ⟨name, u.maxSize, []⟩
          created := u.created + 1
          mngrQueue := Function.update u.mngrQueue (u.queues 0).name (some u.created) },
        u.created)

/-- A queue object is changed. -/
def setQueue (u : UfpsUser F) (q : ℕ) (queue : UfpsQueue F) : UfpsUser F :=
  { u with queues := Function.update u.queues q queue }

/-- `putQueue`. Without a name it is the default queue. -/
def putQueue (name : Option JString) (f : F) (u : UfpsUser F) : UfpsUser F × Bool :=
  let found := u.findQueue name
  let put := (found.1.queues found.2).put f
  (found.1.setQueue found.2 put.1, put.2)

/-- `getQueue`. -/
def getQueue (name : Option JString) (u : UfpsUser F) : UfpsUser F × Option F :=
  let found := u.findQueue name
  let got := (found.1.queues found.2).get
  (found.1.setQueue found.2 got.1, got.2)

end UfpsUser

/-- The calls of a user's queues. -/
inductive QueueCall (F : Type*)
  | putQueue (name : Option JString) (f : F)
  | getQueue (name : Option JString)
deriving DecidableEq

/-- The calls with their results. -/
inductive QueueEvent (F : Type*)
  | put (name : Option JString) (f : F) (accepted : Bool)
  | got (name : Option JString) (f : Option F)
deriving DecidableEq

/-- A user's queues as a machine. -/
def ufpsUser (F : Type*) : Machine (UfpsUser F) (QueueCall F) (QueueEvent F) where
  step u
    | .putQueue name f => ((u.putQueue name f).1, [.put name f (u.putQueue name f).2])
    | .getQueue name => ((u.getQueue name).1, [.got name (u.getQueue name).2])

/-! ## What is put and what is got -/

/-- The name of the queue that a call means: `null` is the default queue. -/
def queueName (name : Option JString) : JString := name.getD DEF_NAME_IN_QUEUE

/-- The frames that were accepted under a name. -/
def accepted (n : JString) (log : List (QueueEvent F)) : List F :=
  log.filterMap fun
    | .put name f true => if queueName name = n then some f else none
    | _ => none

/-- The frames that were got under a name. -/
def returned (n : JString) (log : List (QueueEvent F)) : List F :=
  log.filterMap fun
    | .got name (some f) => if queueName name = n then some f else none
    | _ => none

/-- The call finds its queue. -/
def Registered (u : UfpsUser F) : QueueCall F → Prop
  | .putQueue name _ => ∀ n, name = some n → u.mngrQueue n ≠ none
  | .getQueue name => ∀ n, name = some n → u.mngrQueue n ≠ none

/-- The queues of a user with only the default queue, and all that was put and got. -/
structure OneQueue (u : UfpsUser F) (log : List (QueueEvent F)) : Prop where
  map : u.mngrQueue = Function.update (fun _ => none) DEF_NAME_IN_QUEUE (some 0)
  frames : accepted DEF_NAME_IN_QUEUE log = returned DEF_NAME_IN_QUEUE log ++ (u.queues 0).frames
  others : ∀ n, n ≠ DEF_NAME_IN_QUEUE → accepted n log = [] ∧ returned n log = []

variable {u : UfpsUser F} {log : List (QueueEvent F)} {name : Option JString}

/-- Of the registered names, all are the default queue. -/
theorem OneQueue.findQueue (h : OneQueue u log) (hname : ∀ n, name = some n → u.mngrQueue n ≠ none) :
    queueName name = DEF_NAME_IN_QUEUE ∧ u.findQueue name = (u, 0) := by
  cases name with
  | none => exact ⟨rfl, rfl⟩
  | some n =>
    have hn := hname n rfl
    rw [h.map] at hn
    have heq : n = DEF_NAME_IN_QUEUE := by
      by_contra hne
      exact hn (Function.update_of_ne hne _ _)
    refine ⟨heq, ?_⟩
    rw [UfpsUser.findQueue, h.map, heq, Function.update_self]

theorem accepted_append (n : JString) (log log' : List (QueueEvent F)) :
    accepted n (log ++ log') = accepted n log ++ accepted n log' := List.filterMap_append

theorem returned_append (n : JString) (log log' : List (QueueEvent F)) :
    returned n (log ++ log') = returned n log ++ returned n log' := List.filterMap_append

theorem OneQueue.putQueue (h : OneQueue u log) (f : F) (hname : ∀ n, name = some n → u.mngrQueue n ≠ none) :
    OneQueue (u.putQueue name f).1 (log ++ [.put name f (u.putQueue name f).2]) := by
  obtain ⟨hqueue, hfind⟩ := h.findQueue hname
  rw [UfpsUser.putQueue, hfind]
  obtain ⟨hput, -⟩ | ⟨hput, -⟩ := UfpsQueue.put_cases f (u.queues 0)
  · refine ⟨h.map, ?_, fun n hn => ?_⟩
    · simp only [hput, UfpsUser.setQueue, Function.update_self]
      simpa [accepted_append, returned_append, accepted, returned] using h.frames
    · simpa [accepted_append, returned_append, accepted, returned, hput] using h.others n hn
  · refine ⟨h.map, ?_, fun n hn => ?_⟩
    · simp only [hput, UfpsUser.setQueue, Function.update_self, accepted_append, returned_append, h.frames]
      simp [accepted, returned, hqueue]
    · simpa [accepted_append, returned_append, accepted, returned, hput, hqueue, Ne.symm hn] using h.others n hn

theorem OneQueue.getQueue (h : OneQueue u log) (hname : ∀ n, name = some n → u.mngrQueue n ≠ none) :
    OneQueue (u.getQueue name).1 (log ++ [.got name (u.getQueue name).2])
      ∧ (u.getQueue name).2 = (u.queues 0).frames.head? := by
  obtain ⟨hqueue, hfind⟩ := h.findQueue hname
  rw [UfpsUser.getQueue, hfind]
  refine ⟨⟨h.map, ?_, fun n hn => ?_⟩, rfl⟩
  · simp only [UfpsUser.setQueue, Function.update_self, accepted_append, returned_append, h.frames]
    rw [← UfpsQueue.get_append]
    cases hgot : (u.queues 0).get.2 <;> simp [accepted, returned, hqueue]
  · cases hgot : (u.queues 0).get.2 <;>
      simpa [accepted_append, returned_append, accepted, returned, hqueue, Ne.symm hn, hgot] using h.others n hn

theorem oneQueue_create (username : Option JString) (maxSize : ℤ) :
    OneQueue (UfpsUser.create username maxSize : UfpsUser F) [] :=
  ⟨rfl, rfl, fun _ _ => ⟨rfl, rfl⟩⟩

theorem OneQueue.step (h : OneQueue u log) {call : QueueCall F} (hcall : Registered u call) :
    OneQueue ((ufpsUser F).step u call).1 (log ++ ((ufpsUser F).step u call).2) := by
  cases call with
  | putQueue name f => exact h.putQueue f hcall
  | getQueue name => exact (h.getQueue hcall).1

/-- The frames that were got are, in order, the first of those that were accepted. -/
theorem OneQueue.isPrefix (h : OneQueue u log) (n : JString) : returned n log <+: accepted n log := by
  by_cases hn : n = DEF_NAME_IN_QUEUE
  · rw [hn, h.frames]
    exact List.prefix_append _ _
  · rw [(h.others n hn).1, (h.others n hn).2]

/-- In every run in which no new queue is created, under every name the frames that were got are, in order, the first
of those that were accepted, and a call finds nothing only when all of them were got. -/
theorem ufpsUser_fifo (username : Option JString) (maxSize : ℤ) (is : List (QueueCall F))
    (h : (ufpsUser F).Along Registered (UfpsUser.create username maxSize) is) :
    let u := (ufpsUser F).run (UfpsUser.create username maxSize) is
    let log := (ufpsUser F).outputs (UfpsUser.create username maxSize) is
    ∀ name, returned (queueName name) log <+: accepted (queueName name) log
      ∧ (Registered u (.getQueue name) → (u.getQueue name).2 = none →
        returned (queueName name) log = accepted (queueName name) log) := by
  intro u log name
  have hone : OneQueue u log := h.outputs_invariant (fun _ _ _ hinv hcall => hinv.step hcall)
    (oneQueue_create username maxSize)
  refine ⟨hone.isPrefix _, fun hname hnone => ?_⟩
  rw [(hone.getQueue hname).2, List.head?_eq_none_iff] at hnone
  rw [(hone.findQueue hname).1, hone.frames, hnone, List.append_nil]

/-- Two frames in the default queue, once without and once with its name. -/
theorem ufpsUser_fifo_default :
    returned DEF_NAME_IN_QUEUE ((ufpsUser ℕ).outputs (UfpsUser.create (some "user".toList) 10)
        [.putQueue none 1, .putQueue (some "IN".toList) 2, .getQueue none])
      <+: accepted DEF_NAME_IN_QUEUE ((ufpsUser ℕ).outputs (UfpsUser.create (some "user".toList) 10)
        [.putQueue none 1, .putQueue (some "IN".toList) 2, .getQueue none]) := by
  refine (ufpsUser_fifo (some "user".toList) 10 _ ?_ none).1
  refine ⟨fun n hn => ?_, fun n hn => ?_, fun n hn => ?_, trivial⟩
  · cases hn
  · cases hn
    decide
  · cases hn

/-- A frame that is put under a new name is got under the name of the default queue; and if it is asked for under its
own name, it is lost, because this creates one more queue. -/
theorem ufpsUser_mixes_queues :
    ¬ (∀ n, returned n ((ufpsUser ℕ).outputs (UfpsUser.create (some "user".toList) 10)
          [.putQueue (some "A".toList) 1, .getQueue (some "IN".toList)])
        <+: accepted n ((ufpsUser ℕ).outputs (UfpsUser.create (some "user".toList) 10)
          [.putQueue (some "A".toList) 1, .getQueue (some "IN".toList)]))
      ∧ (ufpsUser ℕ).outputs (UfpsUser.create (some "user".toList) 10)
          [.putQueue (some "A".toList) 1, .getQueue (some "A".toList), .getQueue (some "IN".toList)]
        = [.put (some "A".toList) 1 true, .got (some "A".toList) none, .got (some "IN".toList) none] := by
  refine ⟨fun h => ?_, by decide⟩
  exact absurd (h "IN".toList) (by decide)

end

end OrgLittle.Stream
