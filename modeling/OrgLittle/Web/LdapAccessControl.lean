import OrgLittle.Java.Text
import OrgLittle.Lib.Interleave

/-!
# `LdapAccessControl`: roles from a directory, with a cache

`hasRole` looks for an entry in `matchedList` or `unMatchedList` that is not older than `expiration`. If there is none,
it searches the directory with every filter of the policy and starts again. `hasAccess` keeps what it finds out about a
resource in the same two maps. The searches and all changes of the maps are made behind the write lock, the entries are
read behind the read lock, and `containsKey` is called behind neither. A thread takes its steps one by one between those
of the others.
-/

namespace OrgLittle.Web

open OrgLittle.Java OrgLittle.Lib

/-- The fields that `init` sets. `policy` is in the order of its iterator, and `resources` has the `resource.type` and
the attributes of a label. -/
structure AccessConfig where
  policy : List JString
  uniqueOnly : Bool
  expiration : ℕ
  resources : JString → Option (JString × List JString)

/-- What the threads share, with `currentTimeMillis`. -/
structure AccessCache where
  matchedList : JString → Option ℤ
  unMatchedList : JString → Option ℤ
  writeLock : Bool
  clock : ℤ

/-- What the directory answers. -/
inductive Reply
  | hasMoreElements
  | empty
  | exception
deriving DecidableEq

/-- What is seen of the threads. `unmatched` is the entry in `unMatchedList` after a search, and `decided` the entry of
a resource. -/
inductive AccessEvent
  | searched (username attr filter : JString) (found : Bool) (time : ℤ)
  | unmatched (username attr : JString) (time : ℤ)
  | role (username attr : JString) (now : ℤ) (answer : Bool)
  | decided (username resource : JString) (now : ℤ) (matched : Bool)
  | access (username resource : JString) (now : ℤ) (answer : Bool)
deriving DecidableEq

/-- A step of a method goes on, returns or throws. -/
inductive Next (α ρ : Type*)
  | goes (next : α)
  | returns (result : ρ)
  | throws

namespace Next

variable {α β ρ ρ' : Type*}

/-- A method that calls another one. -/
def andThen (f : α → β) (g : ρ → Next β ρ') : Next α ρ → Next β ρ'
  | .goes next => .goes (f next)
  | .returns result => g result
  | .throws => .throws

/-- What holds if the method goes on and what holds if it returns. -/
def All (P : α → Prop) (Q : ρ → Prop) : Next α ρ → Prop
  | .goes next => P next
  | .returns result => Q result
  | .throws => True

theorem All.andThen {P : α → Prop} {Q : ρ → Prop} {P' : β → Prop} {Q' : ρ' → Prop} {f : α → β} {g : ρ → Next β ρ'}
    {next : Next α ρ} (h : next.All P Q) (hf : ∀ a, P a → P' (f a)) (hg : ∀ r, Q r → (g r).All P' Q') :
    (next.andThen f g).All P' Q' := by
  cases next with
  | goes a => exact hf a h
  | returns r => exact hg r h
  | throws => trivial

end Next

namespace AccessCache

variable (s : AccessCache)

/-- `unlock` of the write lock. -/
def unlock : AccessCache := { s with writeLock := false }

/-- `remove` from both maps. -/
def remove (key : JString) : AccessCache :=
  { s with
    matchedList := Function.update s.matchedList key none
    unMatchedList := Function.update s.unMatchedList key none }

/-- `matchedList.put`. -/
def putMatched (key : JString) (time : ℤ) : AccessCache :=
  { s with matchedList := Function.update s.matchedList key (some time) }

/-- `unMatchedList.put`. -/
def putUnMatched (key : JString) (time : ℤ) : AccessCache :=
  { s with unMatchedList := Function.update s.unMatchedList key (some time) }

end AccessCache

/-! ## The two maps -/

/-- The key of a role. -/
def roleKey (username attr : JString) : JString := username ++ "_attr_".toList ++ attr

/-- The key of a resource. -/
def resKey (username resource : JString) : JString := username ++ "_res_".toList ++ resource

/-- Where `matchedExpired` and then `unMatchedExpired` stand: before `containsKey` and before `get`. -/
inductive Lookup
  | matchedContains
  | matchedGet (matched : Bool)
  | unMatchedContains
  | unMatchedGet (unMatched : Bool)

/-- What `matchedExpired` or `unMatchedExpired` returns. It throws if the entry was removed after `containsKey`. -/
def expired (c : AccessConfig) (now : ℤ) (entry : Option ℤ) (contained : Bool) : Option Bool :=
  if contained then entry.map fun time => decide ((c.expiration : ℤ) < now - time) else some true

/-- The answer that the maps have, if they have one. -/
def Lookup.step (c : AccessConfig) (s : AccessCache) (key : JString) (now : ℤ) : Lookup → Next Lookup (Option Bool)
  | .matchedContains => .goes (.matchedGet (s.matchedList key).isSome)
  | .matchedGet matched =>
    if s.writeLock then .goes (.matchedGet matched)
    else match expired c now (s.matchedList key) matched with
      | some false => .returns (some true)
      | some true => .goes .unMatchedContains
      | none => .throws
  | .unMatchedContains => .goes (.unMatchedGet (s.unMatchedList key).isSome)
  | .unMatchedGet unMatched =>
    if s.writeLock then .goes (.unMatchedGet unMatched)
    else match expired c now (s.unMatchedList key) unMatched with
      | some false => .returns (some false)
      | some true => .returns none
      | none => .throws

/-! ## Roles -/

/-- Where `hasRole` stands. From `remove` on it has the write lock. -/
inductive HasRole
  | start
  | lookup (now : ℤ) (state : Lookup)
  | lock
  | remove
  | search (count : ℕ) (filters : List JString)
  | close (count : ℕ)
  | cacheUserInfo

/-- `hasRole` with one attribute. It calls itself after a search. -/
def HasRole.step (c : AccessConfig) (s : AccessCache) (username attr : JString) (reply : Reply) :
    HasRole → Next HasRole Bool × AccessCache × List AccessEvent
  | .start => (.goes (.lookup s.clock .matchedContains), s, [])
  | .lookup now state =>
    match state.step c s (roleKey username attr) now with
    | .goes state => (.goes (.lookup now state), s, [])
    | .returns (some answer) => (.returns answer, s, [.role username attr now answer])
    | .returns none => (.goes .lock, s, [])
    | .throws => (.throws, s, [])
  | .lock => if s.writeLock then (.goes .lock, s, []) else (.goes .remove, { s with writeLock := true }, [])
  | .remove =>
    let s := s.remove (roleKey username attr)
    if reply = .exception then (.throws, s.unlock, []) else (.goes (.search 0 c.policy), s, [])
  | .search count [] => (.goes (.close count), s, [])
  | .search count (filter :: filters) =>
    match reply with
    | .exception => (.throws, s.unlock, [])
    | .empty => (.goes (.search count filters), s, [.searched username attr filter false s.clock])
    | .hasMoreElements =>
      let put := s.putMatched (roleKey username attr) s.clock
      let events := [.searched username attr filter true s.clock]
      if !c.uniqueOnly then (.goes (.close (count + 1)), put, events)
      else if count + 1 > 1 then
        (.throws, { put with matchedList := Function.update put.matchedList (roleKey username attr) none }.unlock,
          events)
      else (.goes (.search (count + 1) filters), put, events)
  | .close count =>
    if reply = .exception then (.throws, s.unlock, [])
    else if count = 0 then
      (.goes .start, (s.putUnMatched (roleKey username attr) s.clock).unlock,
        [.unmatched username attr s.clock])
    else (.goes .cacheUserInfo, s, [])
  | .cacheUserInfo => if reply = .exception then (.throws, s.unlock, []) else (.goes .start, s.unlock, [])

/-- Where `anyRole` or `hasRole` with several attributes stands, with the call of `hasRole` that it waits for. -/
inductive Roles
  | first (attributeX : JString) (attributeYs : List JString) (state : HasRole)
  | any (role : JString) (roles : List JString) (state : HasRole)

/-- The loop of `anyRole`. -/
def anyRole : List JString → Next Roles Bool
  | [] => .returns false
  | role :: roles => .goes (.any role roles .start)

/-- `anyRole` and `hasRole` with several attributes, which returns `false` at once if the user lacks the first one. -/
def Roles.step (c : AccessConfig) (s : AccessCache) (username : JString) (reply : Reply) :
    Roles → Next Roles Bool × AccessCache × List AccessEvent
  | .first attributeX attributeYs state =>
    let (next, s, events) := state.step c s username attributeX reply
    (next.andThen (.first attributeX attributeYs) fun featX => if featX then anyRole attributeYs else .returns false,
      s, events)
  | .any role roles state =>
    let (next, s, events) := state.step c s username role reply
    (next.andThen (.any role roles) fun found => if found then .returns true else anyRole roles, s, events)

/-! ## Resources -/

/-- Where `hasAccess` stands. -/
inductive HasAccess
  | start
  | lookup (now : ℤ) (state : Lookup)
  | resources (now : ℤ)
  | roles (now : ℤ) (state : Roles)
  | put (now : ℤ) (matched : Bool)

/-- The roles that a resource asks for. With one attribute `hasRole` is `anyRole` of it. -/
def rolesOf : JString × List JString → Next Roles Bool
  | (type, attributes) =>
    if type = "has".toList then
      match attributes with
      | [] => .throws
      | [attr] => .goes (.any attr [] .start)
      | attributeX :: attributeYs => .goes (.first attributeX attributeYs .start)
    else if type = "any".toList then anyRole attributes
    else .throws

/-- `hasAccess` with one resource. -/
def HasAccess.step (c : AccessConfig) (s : AccessCache) (username resource : JString) (reply : Reply) :
    HasAccess → Next HasAccess Bool × AccessCache × List AccessEvent
  | .start => (.goes (.lookup s.clock .matchedContains), s, [])
  | .lookup now state =>
    match state.step c s (resKey username resource) now with
    | .goes state => (.goes (.lookup now state), s, [])
    | .returns (some answer) => (.returns answer, s, [.access username resource now answer])
    | .returns none => (.goes (.resources now), s, [])
    | .throws => (.throws, s, [])
  | .resources now =>
    if s.writeLock then (.goes (.resources now), s, [])
    else match c.resources resource with
      | none => (.throws, s, [])
      | some rule => ((rolesOf rule).andThen (.roles now) fun matched => .goes (.put now matched), s, [])
  | .roles now state =>
    let (next, s, events) := state.step c s username reply
    (next.andThen (.roles now) fun matched => .goes (.put now matched), s, events)
  | .put now matched =>
    if s.writeLock then (.goes (.put now matched), s, [])
    else
      let key := resKey username resource
      (.returns matched, if matched then s.putMatched key now else s.putUnMatched key now,
        [.decided username resource now matched, .access username resource now matched])

/-! ## The threads -/

/-- A thread, with the method that it is in. -/
inductive AccessThread
  | idle
  | role (username attr : JString) (state : HasRole)
  | roles (username : JString) (state : Roles)
  | access (username resource : JString) (state : HasAccess)

/-- What happens to a thread: it calls a method, or it takes a step some time after the last one of any thread. -/
inductive AccessInput
  | hasRole (username attr : JString)
  | hasRoles (username attributeX : JString) (attributeYs : List JString)
  | anyRole (username : JString) (attributes : List JString)
  | hasAccess (username resource : JString)
  | go (elapsed : ℕ) (reply : Reply)

/-- A thread that calls a method is in no other one. `hasRole` with several attributes throws if there is only one. -/
def AccessInput.call : AccessInput → AccessThread
  | .hasRole username attr => .role username attr .start
  | .hasRoles username attributeX attributeYs =>
    if attributeYs = [] then .idle else .roles username (.first attributeX attributeYs .start)
  | .anyRole username attributes =>
    match Web.anyRole attributes with
    | .goes roles => .roles username roles
    | _ => .idle
  | .hasAccess username resource => .access username resource .start
  | .go _ _ => .idle

/-- A thread that stays in its method or leaves it. -/
def AccessThread.ofNext {α : Type*} (thread : α → AccessThread) : Next α Bool → AccessThread
  | .goes next => thread next
  | _ => .idle

/-- One step of a thread. -/
def accessMachine (c : AccessConfig) : Machine (AccessThread × AccessCache) AccessInput AccessEvent where
  step
    | (thread, s), .go elapsed reply =>
      let s := { s with clock := s.clock + elapsed }
      match thread with
      | .idle => ((.idle, s), [])
      | .role username attr state =>
        let (next, s, events) := state.step c s username attr reply
        ((.ofNext (.role username attr) next, s), events)
      | .roles username state =>
        let (next, s, events) := state.step c s username reply
        ((.ofNext (.roles username) next, s), events)
      | .access username resource state =>
        let (next, s, events) := state.step c s username resource reply
        ((.ofNext (.access username resource) next, s), events)
    | (.idle, s), input => ((input.call, s), [])
    | (thread, s), _ => ((thread, s), [])

/-- The threads before their first call, and the empty maps. -/
def accessInit (κ : Type*) (clock : ℤ) : (κ → AccessThread) × AccessCache :=
  (fun _ => .idle, ⟨fun _ => none, fun _ => none, false, clock⟩)

end OrgLittle.Web
