import OrgLittle.Stream.FrameCodec
import OrgLittle.Util.StringWildCard

/-!
# `ufpsManager.route`

A message goes to the queue of the first route whose mask its first address matches: the queue of a local user, or
the transfer queue. A message without an address or without a route makes `route` throw, and a queue that a
user does not have yet is created but not found again. In all other cases one queue gets
the message, or none does (`route_single_iff`).
-/

namespace OrgLittle.Stream

open OrgLittle.Java OrgLittle.Lib OrgLittle.Util

/-! ## Users -/

namespace UfpsUser

variable {F : Type*} {u : UfpsUser F}

/-- A user as the program makes it: the map has only queues that were created, one of them under the name of the
default queue, and there are no frames in other queues. -/
structure Valid (u : UfpsUser F) : Prop where
  pos : 0 < u.created
  name : (u.queues 0).name = DEF_NAME_IN_QUEUE
  used : ∀ n i, u.mngrQueue n = some i → i < u.created
  default : u.mngrQueue DEF_NAME_IN_QUEUE ≠ none
  unused : ∀ i, u.created ≤ i → (u.queues i).frames = []

theorem valid_create (username : Option JString) (maxSize : ℤ) : Valid (create username maxSize : UfpsUser F) where
  pos := Nat.zero_lt_one
  name := rfl
  used n i h := by
    by_cases hn : n = DEF_NAME_IN_QUEUE
    · simp only [create, hn, Function.update_self, Option.some.injEq] at h ⊢
      omega
    · simp [create, Function.update_of_ne hn] at h
  default := by simp [create]
  unused _ _ := rfl

theorem Valid.setQueue (h : u.Valid) {i : ℕ} (hi : i < u.created) {queue : UfpsQueue F}
    (hname : queue.name = (u.queues i).name) : (u.setQueue i queue).Valid where
  pos := h.pos
  name := by
    by_cases h0 : 0 = i
    · subst h0
      simpa [UfpsUser.setQueue, hname] using h.name
    · simpa [UfpsUser.setQueue, Function.update_of_ne h0] using h.name
  used := h.used
  default := h.default
  unused j hj := by
    have hne : j ≠ i := by simp only [UfpsUser.setQueue] at hj; omega
    simpa [UfpsUser.setQueue, Function.update_of_ne hne] using h.unused j hj

theorem Valid.findQueue (h : u.Valid) (name : Option JString) :
    (u.findQueue name).1.Valid ∧ (u.findQueue name).2 < (u.findQueue name).1.created := by
  cases name with
  | none => exact ⟨h, h.pos⟩
  | some n =>
    cases hn : u.mngrQueue n with
    | some i =>
      simp only [UfpsUser.findQueue, hn]
      exact ⟨h, h.used n i hn⟩
    | none =>
      simp only [UfpsUser.findQueue, hn]
      have h0 : (0 : ℕ) ≠ u.created := h.pos.ne
      refine ⟨⟨Nat.succ_pos _, ?_, fun m i hm => ?_, ?_, fun i hi => ?_⟩, Nat.lt_succ_self _⟩
      · simpa only [Function.update_of_ne h0] using h.name
      · by_cases hname : m = (u.queues 0).name
        · simp only [hname, Function.update_self, Option.some.injEq] at hm
          exact hm ▸ Nat.lt_succ_self _
        · simp only [Function.update_of_ne hname] at hm
          exact (h.used m i hm).trans (Nat.lt_succ_self _)
      · simp [h.name]
      · have hne : i ≠ u.created := by simp only at hi; omega
        simp only [Function.update_of_ne hne]
        exact h.unused i (by simp only at hi; omega)

theorem Valid.putQueue (h : u.Valid) (name : Option JString) (f : F) : (u.putQueue name f).1.Valid :=
  (h.findQueue name).1.setQueue (h.findQueue name).2 (UfpsQueue.put_name f _)

/-- A queue grows by a frame, or no queue changes. -/
theorem putQueue_of_registered {n : JString} {i : ℕ} (hn : u.mngrQueue n = some i) (f : F) :
    (u.putQueue (some n) f).1.mngrQueue = u.mngrQueue
      ∧ ((u.putQueue (some n) f).2 = true ∧ (∀ j, ((u.putQueue (some n) f).1.queues j).frames
            = (u.queues j).frames ++ if j = i then [f] else [])
        ∨ (u.putQueue (some n) f).2 = false ∧ ∀ j, ((u.putQueue (some n) f).1.queues j).frames
            = (u.queues j).frames) := by
  simp only [UfpsUser.putQueue, UfpsUser.findQueue, hn, UfpsUser.setQueue, true_and]
  obtain ⟨hput, -⟩ | ⟨hput, -⟩ := UfpsQueue.put_cases f (u.queues i)
  · simp [hput]
  · refine .inl ⟨by rw [hput], fun j => ?_⟩
    by_cases hj : j = i
    · simp [hput, hj]
    · simp [hj]

/-- A queue that is created is not found under its name. -/
theorem Valid.putQueue_of_new (h : u.Valid) {n : JString} (hn : u.mngrQueue n = none) (f : F) :
    (u.putQueue (some n) f).1.mngrQueue n = none
      ∧ ((u.putQueue (some n) f).2 = true ∧ 0 < u.maxSize
        ∨ (u.putQueue (some n) f).2 = false ∧ u.maxSize ≤ 0
          ∧ ∀ j, ((u.putQueue (some n) f).1.queues j).frames = (u.queues j).frames) := by
  have hname : n ≠ (u.queues 0).name := fun heq => h.default (h.name ▸ heq ▸ hn)
  simp only [UfpsUser.putQueue, UfpsUser.findQueue, hn, UfpsUser.setQueue, Function.update_self]
  refine ⟨(Function.update_of_ne hname _ _).trans hn, ?_⟩
  obtain ⟨hput, hsize⟩ | ⟨hput, hsize⟩ := UfpsQueue.put_cases f ⟨n, u.maxSize, []⟩
  · refine .inr ⟨by rw [hput], by simpa using hsize, fun j => ?_⟩
    by_cases hj : j = u.created
    · simp [hput, hj, h.unused u.created le_rfl]
    · simp [Function.update_of_ne hj]
  · exact .inl ⟨by rw [hput], by simpa using hsize⟩

end UfpsUser

/-- The users in the map. -/
abbrev ValidUser := { u : UfpsUser UfpsFrame // u.Valid }

/-! ## Routes -/

/-- `ufpsRoute`. -/
structure UfpsRoute where
  address : Option JString
  routeUser : Option JString
  routeQueue : JString
  isLocal : Bool
deriving DecidableEq

/-- The queue of a route that is configured without one, at the end of `init`. -/
def UfpsRoute.initQueue (rt : UfpsRoute) : UfpsRoute :=
  if rt.routeQueue = ['*'] then
    { rt with routeQueue := if rt.isLocal then DEF_NAME_IN_QUEUE else DEF_NAME_OUT_QUEUE }
  else rt

namespace UfpsRouteTable

/-- `get`. -/
def get (route : List UfpsRoute) (addr : Option JString) : Option UfpsRoute :=
  route.find? fun rt => StringWildCard.wildcardMatch (addr.map utf16) (rt.address.map utf16) .INSENSITIVE

/-- `set`, with `none` for `null`. -/
def set (route : List UfpsRoute) (msg : UfpsMsg) : Except JavaException (Option UfpsFrame) :=
  match msg.tos with
  | [] => .error .indexOutOfBounds
  | addr :: _ =>
    match get route addr with
    | none => .ok none
    | some rt => .ok (some { UfpsFrame.ofMsg rt.routeUser (some rt.routeQueue) (some msg) with isLocal := rt.isLocal })

end UfpsRouteTable

/-! ## `ufpsManager` -/

/-- What the manager reads of `commonStream`. -/
structure CommonStream where
  isAutoCreatUser : Bool
  frameNodeName : Option JString
  route : List UfpsRoute

/-- `ufpsManager`, with the time objects of the program. -/
structure UfpsManager (p : Platform) where
  cfg : CommonStream
  mngrUser : Option JString → Option ValidUser
  maxSizeQueue : ℤ
  transfer : UfpsQueue UfpsFrame
  command : UfpsQueue UfpsFrame
  localQueue : UfpsQueue UfpsFrame
  times : Times p

namespace UfpsManager

variable {p : Platform}

/-- A user in the map. -/
def setUser (name : Option JString) (user : ValidUser) (m : UfpsManager p) : UfpsManager p :=
  { m with mngrUser := Function.update m.mngrUser name (some user) }

/-- `addUser`. -/
def addUser (name : Option JString) (m : UfpsManager p) : UfpsManager p × ValidUser :=
  let user := ⟨.create name m.maxSizeQueue, UfpsUser.valid_create name m.maxSizeQueue⟩
  (m.setUser name user, user)

/-- `getUser`. -/
def getUser (name : Option JString) (m : UfpsManager p) : UfpsManager p × Option ValidUser :=
  match m.mngrUser name with
  | some user => (m, some user)
  | none =>
    if m.cfg.isAutoCreatUser then
      let added := m.addUser name
      (added.1, some added.2)
    else (m, none)

/-- `route(ufpsFrame)`, for a frame that is not `null`. -/
def routeFrame (f : UfpsFrame) (now : ℤ) (m : UfpsManager p) : UfpsManager p × Except JavaException Bool :=
  if f.isLocal = false then
    let put := m.transfer.put f
    ({ m with transfer := put.1 }, .ok put.2)
  else
    match f.type with
    | none => (m, .error .nullPointer)
    | some type =>
      if type = TYPE_CMD_MSG then (m, .ok false)
      else
        let got := m.getUser f.user
        match got.2 with
        | none => (got.1, .ok false)
        | some user =>
          match f.setTime .arrive now got.1.times with
          | .error e => (got.1, .error e)
          | .ok times =>
            let put := user.1.putQueue f.queue f
            ({ got.1.setUser f.user ⟨put.1, user.2.putQueue f.queue f⟩ with times }, .ok put.2)

/-- `route(ufpsMsg)`. The clock is read for the create time and for the arrive time. -/
def route (msg : Option UfpsMsg) (now now' : ℤ) (m : UfpsManager p) : UfpsManager p × Except JavaException Bool :=
  match msg with
  | none => (m, .ok false)
  | some msg =>
    match UfpsRouteTable.set m.cfg.route msg with
    | .error e => (m, .error e)
    | .ok none => (m, .error .nullPointer)
    | .ok (some f) =>
      let f := { f with nodeId := m.cfg.frameNodeName }
      match f.setTime .create now m.times with
      | .error e => (m, .error e)
      | .ok times => routeFrame f now' { m with times }

/-! ## What `route` is for -/

/-- The queues of a program. The queues of a user are numbered as they were created. -/
inductive QueueRef
  | transfer | command | localQueue
  | user (name : Option JString) (i : ℕ)
deriving DecidableEq

/-- The frames in a queue. A queue that does not exist has none. -/
def framesAt (m : UfpsManager p) : QueueRef → List UfpsFrame
  | .transfer => m.transfer.frames
  | .command => m.command.frames
  | .localQueue => m.localQueue.frames
  | .user name i =>
    match m.mngrUser name with
    | none => []
    | some user => (user.1.queues i).frames

/-- The queue that a route names. -/
def Names (m : UfpsManager p) (rt : UfpsRoute) : QueueRef → Prop
  | .transfer => rt.isLocal = false
  | .user name i => rt.isLocal = true ∧ name = rt.routeUser
    ∧ ∃ user, m.mngrUser name = some user ∧ user.1.mngrQueue rt.routeQueue = some i
  | _ => False

/-- The first route that matches the first address of a message. -/
def firstRoute (m : UfpsManager p) (msg : UfpsMsg) : Option UfpsRoute :=
  msg.tos.head?.bind (UfpsRouteTable.get m.cfg.route)

/-- `route` does not throw. It returns true and only the queue of the first route has grown, by a frame with the
message; or it returns false and no queue has changed. -/
def Routed (msg : Option UfpsMsg) (now now' : ℤ) (m : UfpsManager p) : Prop :=
  let out := m.route msg now now'
  (out.2 = .ok true ∧ ∃ rt, msg.bind m.firstRoute = some rt ∧ ∃ x f, out.1.Names rt x ∧ f.msg = msg
      ∧ ∀ y, out.1.framesAt y = m.framesAt y ++ if y = x then [f] else [])
    ∨ (out.2 = .ok false ∧ ∀ y, out.1.framesAt y = m.framesAt y)

/-- The route is not local, or its user is not there and not created, or the user has its queue, or queues take no
frames at all. A new user has the queue `IN`. -/
def Finds (m : UfpsManager p) (rt : UfpsRoute) : Prop :=
  rt.isLocal = true →
    match m.mngrUser rt.routeUser with
    | some user => user.1.mngrQueue rt.routeQueue ≠ none ∨ user.1.maxSize ≤ 0
    | none => m.cfg.isAutoCreatUser = true → rt.routeQueue = DEF_NAME_IN_QUEUE ∨ m.maxSizeQueue ≤ 0

/-- A message has a route, and its queue is found. -/
def Routable (m : UfpsManager p) (msg : UfpsMsg) : Prop := ∃ rt, m.firstRoute msg = some rt ∧ m.Finds rt

/-! ## Routing, case by case -/

variable {m : UfpsManager p} {msg : UfpsMsg} {rt : UfpsRoute} {now now' : ℤ}

/-- The frame that is made for a message. -/
def sent (m : UfpsManager p) (rt : UfpsRoute) (msg : UfpsMsg) : UfpsFrame :=
  { UfpsFrame.ofMsg rt.routeUser (some rt.routeQueue) (some msg) with
    isLocal := rt.isLocal
    nodeId := m.cfg.frameNodeName }

/-- The manager when the create time of the frame is set. -/
def stamped (m : UfpsManager p) (now : ℤ) : UfpsManager p :=
  { m with times := m.times.set emptyTime (.ofMillis now) }

/-- Without an address or a route, `route` throws. -/
theorem route_of_no_route (h : m.firstRoute msg = none) (now now' : ℤ) :
    ∃ e, (m.route (some msg) now now').2 = .error e := by
  rw [firstRoute] at h
  cases htos : msg.tos with
  | nil => exact ⟨.indexOutOfBounds, by simp [route, UfpsRouteTable.set, htos]⟩
  | cons addr tos =>
    rw [htos, List.head?_cons, Option.bind_some] at h
    exact ⟨.nullPointer, by simp [route, UfpsRouteTable.set, htos, h]⟩

theorem route_of_route (h : m.firstRoute msg = some rt) :
    m.route (some msg) now now' = (m.stamped now).routeFrame (m.sent rt msg) now' := by
  rw [firstRoute] at h
  cases htos : msg.tos with
  | nil => simp [htos] at h
  | cons addr tos =>
    rw [htos, List.head?_cons, Option.bind_some] at h
    simp only [route, UfpsRouteTable.set, htos, h]
    rfl

theorem framesAt_stamped (m : UfpsManager p) (now : ℤ) (y : QueueRef) : (m.stamped now).framesAt y = m.framesAt y := by
  cases y <;> rfl

/-- A user that is created has no frames. -/
theorem framesAt_getUser (m : UfpsManager p) (name : Option JString) (y : QueueRef) :
    (m.getUser name).1.framesAt y = m.framesAt y := by
  rw [getUser]
  split
  · rfl
  · next hnone =>
    split
    · cases y with
      | user name' i =>
        by_cases hname : name' = name
        · simp [framesAt, addUser, setUser, hname, hnone, UfpsUser.create]
        · simp [framesAt, addUser, setUser, Function.update_of_ne hname]
      | _ => rfl
    · rfl

theorem getUser_mngrUser {name : Option JString} {user : ValidUser} (h : (m.getUser name).2 = some user) :
    (m.getUser name).1.mngrUser name = some user := by
  rw [getUser] at h ⊢
  split at h
  · next hsome => simpa [hsome] using h
  · next hnone =>
    split at h
    · next hauto => simpa [hnone, hauto, addUser, setUser] using h
    · cases h

/-- Whether the queue of a local route is found, of the user that `getUser` gives. -/
theorem finds_iff (hlocal : rt.isLocal = true) : m.Finds rt ↔ ∀ user, (m.getUser rt.routeUser).2 = some user →
    user.1.mngrQueue rt.routeQueue ≠ none ∨ user.1.maxSize ≤ 0 := by
  rw [Finds, getUser]
  cases hsome : m.mngrUser rt.routeUser with
  | some user => simp [hlocal]
  | none =>
    have hnew : (UfpsUser.create rt.routeUser m.maxSizeQueue : UfpsUser UfpsFrame).mngrQueue rt.routeQueue ≠ none
        ↔ rt.routeQueue = DEF_NAME_IN_QUEUE := by
      by_cases hqueue : rt.routeQueue = DEF_NAME_IN_QUEUE
      · simp [UfpsUser.create, hqueue]
      · simp [UfpsUser.create, hqueue]
    cases hauto : m.cfg.isAutoCreatUser with
    | false => simp
    | true => simp [addUser, ← hnew, hlocal, UfpsUser.create]

theorem mngrUser_setUser (m : UfpsManager p) (name : Option JString) (user : ValidUser) (now : ℤ) :
    ((m.setUser name user).stamped now).mngrUser name = some user := Function.update_self ..

/-- The user's queues after `route` are those after `putQueue`. -/
theorem framesAt_setUser {name : Option JString} {user user' : ValidUser} (added : ℕ → List UfpsFrame)
    (hget : m.mngrUser name = some user)
    (hadded : ∀ j, (user'.1.queues j).frames = (user.1.queues j).frames ++ added j) (y : QueueRef) :
    (m.setUser name user').framesAt y = m.framesAt y ++ match y with
      | .user name' j => if name' = name then added j else []
      | _ => [] := by
  cases y with
  | user name' j =>
    by_cases hname : name' = name
    · simp [framesAt, setUser, hname, hget, hadded]
    · simp [framesAt, setUser, hname]
  | _ => simp [framesAt, setUser]

/-- What should become of a message that has the route `rt`. -/
def Delivered (m : UfpsManager p) (rt : UfpsRoute) (msg : UfpsMsg)
    (out : UfpsManager p × Except JavaException Bool) : Prop :=
  (out.2 = .ok true ∧ ∃ x f, out.1.Names rt x ∧ f.msg = some msg
      ∧ ∀ y, out.1.framesAt y = m.framesAt y ++ if y = x then [f] else [])
    ∨ (out.2 = .ok false ∧ ∀ y, out.1.framesAt y = m.framesAt y)

theorem routed_iff (h : m.firstRoute msg = some rt) : m.Routed (some msg) now now'
    ↔ m.Delivered rt msg ((m.stamped now).routeFrame (m.sent rt msg) now') := by
  rw [Routed, Delivered, ← route_of_route h]
  simp [h]

/-- A route that is not local. -/
theorem delivered_transfer (hlocal : rt.isLocal = false) :
    m.Delivered rt msg ((m.stamped now).routeFrame (m.sent rt msg) now') := by
  have hroute : (m.stamped now).routeFrame (m.sent rt msg) now'
      = ({ m.stamped now with transfer := (m.transfer.put (m.sent rt msg)).1 },
        .ok (m.transfer.put (m.sent rt msg)).2) := by
    rw [routeFrame, if_pos (show (m.sent rt msg).isLocal = false from hlocal)]
    rfl
  rw [hroute]
  obtain ⟨hput, -⟩ | ⟨hput, -⟩ := UfpsQueue.put_cases (m.sent rt msg) m.transfer
  · refine .inr ⟨by rw [hput], fun y => ?_⟩
    rw [hput]
    cases y <;> rfl
  · refine .inl ⟨by rw [hput], .transfer, m.sent rt msg, hlocal, rfl, fun y => ?_⟩
    rw [hput]
    cases y <;> simp [framesAt, stamped]

/-- The outcome of `putQueue` for a user of the manager `k`. -/
def putUser (k : UfpsManager p) (now' : ℤ) (name : Option JString) (queue : JString) (f : UfpsFrame)
    (user : ValidUser) : UfpsManager p × Except JavaException Bool :=
  ((k.setUser name ⟨(user.1.putQueue (some queue) f).1, user.2.putQueue _ _⟩).stamped now',
    .ok (user.1.putQueue (some queue) f).2)

/-- A local route, up to the user. -/
theorem routeFrame_local (k : UfpsManager p) (hlocal : rt.isLocal = true) :
    k.routeFrame (m.sent rt msg) now' = match (k.getUser rt.routeUser).2 with
      | none => ((k.getUser rt.routeUser).1, .ok false)
      | some user => (k.getUser rt.routeUser).1.putUser now' rt.routeUser rt.routeQueue (m.sent rt msg) user := by
  have hnot : (m.sent rt msg).isLocal ≠ false := by simp [sent, hlocal]
  have htype : TYPE_DATA_MSG ≠ TYPE_CMD_MSG := by decide
  rw [routeFrame, if_neg hnot]
  simp only [sent, UfpsFrame.ofMsg, UfpsFrame.clear, if_neg htype]
  rfl

section PutUser

variable {k : UfpsManager p} {user : ValidUser}

/-- No queue changes when the frame is not taken. -/
theorem framesAt_putUser_of_same {name : Option JString} {queue : JString} {f : UfpsFrame}
    (hget : k.mngrUser name = some user)
    (hsame : ∀ j, ((user.1.putQueue (some queue) f).1.queues j).frames = (user.1.queues j).frames) (y : QueueRef) :
    (k.putUser now' name queue f user).1.framesAt y = k.framesAt y := by
  rw [putUser, framesAt_stamped, framesAt_setUser (fun _ => []) hget (by simpa using hsame)]
  cases y <;> simp

/-- The user has the queue of the route. -/
theorem delivered_registered (hlocal : rt.isLocal = true) (hframes : ∀ y, k.framesAt y = m.framesAt y)
    (hget : k.mngrUser rt.routeUser = some user) {i : ℕ} (hqueue : user.1.mngrQueue rt.routeQueue = some i) :
    m.Delivered rt msg (k.putUser now' rt.routeUser rt.routeQueue (m.sent rt msg) user) := by
  obtain ⟨hmap, ⟨hret, hput⟩ | ⟨hret, hput⟩⟩ := UfpsUser.putQueue_of_registered hqueue (m.sent rt msg)
  · refine .inl ⟨by rw [putUser, hret], .user rt.routeUser i, m.sent rt msg, ⟨hlocal, rfl, _,
      mngrUser_setUser .., by simp [hmap, hqueue]⟩, rfl, fun y => ?_⟩
    rw [putUser, framesAt_stamped, framesAt_setUser _ hget hput, hframes]
    cases y <;> simp [ite_and]
  · refine .inr ⟨by rw [putUser, hret], fun y => ?_⟩
    rw [framesAt_putUser_of_same hget hput, hframes]

/-- The queue of the route is created: it is not found under its name, so the frame must not be taken. -/
theorem delivered_new_iff (hlocal : rt.isLocal = true) (hframes : ∀ y, k.framesAt y = m.framesAt y)
    (hget : k.mngrUser rt.routeUser = some user) (hqueue : user.1.mngrQueue rt.routeQueue = none) :
    m.Delivered rt msg (k.putUser now' rt.routeUser rt.routeQueue (m.sent rt msg) user) ↔ user.1.maxSize ≤ 0 := by
  obtain ⟨hmap, ⟨hret, hsize⟩ | ⟨hret, hsize, hput⟩⟩ := user.2.putQueue_of_new hqueue (m.sent rt msg)
  · refine iff_of_false ?_ (not_le.mpr hsize)
    rintro (⟨-, x, f, hnames, -⟩ | ⟨hfalse, -⟩)
    · cases x with
      | transfer => simp [Names, hlocal] at hnames
      | command => exact hnames
      | localQueue => exact hnames
      | user name j =>
        obtain ⟨-, rfl, user', hget', hfound⟩ := hnames
        rw [putUser, mngrUser_setUser] at hget'
        obtain rfl := Option.some.inj hget'
        simp [hmap] at hfound
    · simp [putUser, hret] at hfalse
  · refine iff_of_true (.inr ⟨by rw [putUser, hret], fun y => ?_⟩) hsize
    rw [framesAt_putUser_of_same hget hput, hframes]

end PutUser

/-- A local route delivers unless it creates a queue and puts the frame there. -/
theorem delivered_local_iff (hlocal : rt.isLocal = true) :
    m.Delivered rt msg ((m.stamped now).routeFrame (m.sent rt msg) now') ↔ m.Finds rt := by
  have hfinds : m.Finds rt ↔ (m.stamped now).Finds rt := Iff.rfl
  rw [hfinds, finds_iff hlocal, routeFrame_local (m.stamped now) hlocal]
  have hframes : ∀ y, ((m.stamped now).getUser rt.routeUser).1.framesAt y = m.framesAt y := fun y =>
    (framesAt_getUser (m.stamped now) rt.routeUser y).trans (framesAt_stamped m now y)
  cases huser : ((m.stamped now).getUser rt.routeUser).2 with
  | none => exact iff_of_true (.inr ⟨rfl, hframes⟩) (by simp)
  | some user =>
    have hget := getUser_mngrUser huser
    simp only [Option.some.injEq, forall_eq']
    cases hqueue : user.1.mngrQueue rt.routeQueue with
    | some i => exact iff_of_true (delivered_registered hlocal hframes hget hqueue) (by simp)
    | none =>
      rw [delivered_new_iff hlocal hframes hget hqueue]
      simp

/-- The queue of a route that is configured without one is always found. -/
theorem finds_initQueue (m : UfpsManager p) (h : rt.routeQueue = ['*']) : m.Finds rt.initQueue := by
  intro hlocal
  have hisLocal : rt.isLocal = true := by simpa [UfpsRoute.initQueue, h] using hlocal
  have hqueue : rt.initQueue.routeQueue = DEF_NAME_IN_QUEUE := by simp [UfpsRoute.initQueue, h, hisLocal]
  rw [hqueue]
  split
  · next user _ => exact .inl user.2.default
  · exact fun _ => .inl rfl

end UfpsManager

end OrgLittle.Stream
