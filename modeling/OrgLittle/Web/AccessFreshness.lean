import OrgLittle.Web.LdapAccessControl

/-!
# How old an answer of `LdapAccessControl` can be

An entry for a role is made when a search has found something, or when no filter has. An entry for a resource is dated
back to the start of the call that made it, and the roles behind it can come from entries themselves. So an answer of
`hasRole` rests on searches of at most `expiration` before, and one of `hasAccess` on searches of up to twice that. The
keys join the name and the role with separators that a name may contain; the results are about names without `_`.
-/

namespace OrgLittle.Web

open OrgLittle.Java OrgLittle.Lib Machine

/-! ## Keys -/

/-- A name that no separator can begin in. -/
def Plain (username : JString) : Prop := '_' ∉ username

instance (username : JString) : Decidable (Plain username) := inferInstanceAs (Decidable ('_' ∉ username))

/-- The name ends where the first separator begins. -/
theorem plain_append_inj {u u' x x' : JString} (hu : Plain u) (hu' : Plain u') (h : u ++ '_' :: x = u' ++ '_' :: x') :
    u = u' ∧ x = x' := by
  have htake {v y : JString} (hv : Plain v) : (v ++ '_' :: y).takeWhile (· ≠ '_') = v := by
    rw [List.takeWhile_append_of_pos fun c hc => decide_eq_true (ne_of_mem_of_not_mem hc hv)]
    simp
  have heq : u = u' := by rw [← htake (y := x) hu, h, htake hu']
  subst heq
  exact ⟨rfl, (List.cons.inj (List.append_cancel_left h)).2⟩

/-- Of plain names, the key of a role tells the user and the role. -/
theorem roleKey_inj {u u' a a' : JString} (hu : Plain u) (hu' : Plain u') (h : roleKey u a = roleKey u' a') :
    u = u' ∧ a = a' := by
  rw [roleKey, roleKey, List.append_assoc, List.append_assoc] at h
  obtain ⟨hname, hrest⟩ := plain_append_inj hu hu' h
  exact ⟨hname, List.append_cancel_left hrest⟩

/-- Of plain names, the key of a resource tells the user and the resource. -/
theorem resKey_inj {u u' r r' : JString} (hu : Plain u) (hu' : Plain u') (h : resKey u r = resKey u' r') :
    u = u' ∧ r = r' := by
  rw [resKey, resKey, List.append_assoc, List.append_assoc] at h
  obtain ⟨hname, hrest⟩ := plain_append_inj hu hu' h
  exact ⟨hname, List.append_cancel_left hrest⟩

/-- No key is both. -/
theorem roleKey_ne_resKey {u u' a r : JString} (hu : Plain u) (hu' : Plain u') : roleKey u a ≠ resKey u' r := by
  intro h
  rw [roleKey, resKey, List.append_assoc, List.append_assoc] at h
  have h := (plain_append_inj hu hu' h).2
  exact absurd (List.cons.inj h).1 (by decide)

/-! ## What an answer rests on -/

variable {κ : Type*} [DecidableEq κ] (c : AccessConfig)

/-- A search with this filter that has found nothing. -/
def Missed (username attr filter : JString) (e : AccessEvent) : Prop :=
  ∃ time, e = .searched username attr filter false time

/-- A filter of the policy has found the user with the role at this time; or a thread has searched with every filter
of the policy, one after the other, has found nothing, and was done at this time. -/
def Searched (log : List (κ × AccessEvent)) (username attr : JString) (time : ℤ) : Bool → Prop
  | true => ∃ k, ∃ filter ∈ c.policy, (k, .searched username attr filter true time) ∈ log
  | false => ∃ k before searches after, own k log = before ++ searches ++ .unmatched username attr time :: after
      ∧ List.Forall₂ (Missed username attr) c.policy searches

/-- It was searched for not before `since`. -/
def SearchedSince (log : List (κ × AccessEvent)) (username : JString) (since : ℤ) (answer : Bool) (attr : JString) :
    Prop := ∃ time, since ≤ time ∧ Searched c log username attr time answer

/-- One of the roles, or none. -/
def AnySince (log : List (κ × AccessEvent)) (username : JString) (since : ℤ) (attributes : List JString) :
    Bool → Prop
  | true => ∃ attr ∈ attributes, SearchedSince c log username since true attr
  | false => ∀ attr ∈ attributes, SearchedSince c log username since false attr

/-- What a resource asks for: one of the roles, or the first one and, if there are more, one of the others. -/
def RuleSince (log : List (κ × AccessEvent)) (username : JString) (since : ℤ) (answer : Bool) :
    JString × List JString → Prop
  | (type, attributes) =>
    type = "any".toList ∧ AnySince c log username since attributes answer
    ∨ type = "has".toList ∧ ∃ attr rest, attributes = attr :: rest ∧
      match answer with
      | true => SearchedSince c log username since true attr ∧ (rest = [] ∨ AnySince c log username since rest true)
      | false => SearchedSince c log username since false attr ∨ rest ≠ [] ∧ AnySince c log username since rest false

/-- An answer about a resource that rests on searches not before `since`. -/
def AccessSince (log : List (κ × AccessEvent)) (username resource : JString) (since : ℤ) (answer : Bool) : Prop :=
  ∃ rule, c.resources resource = some rule ∧ RuleSince c log username since answer rule

/-- How old an answer is. -/
def AccessEvent.Fresh (log : List (κ × AccessEvent)) : AccessEvent → Prop
  | .role username attr now answer => SearchedSince c log username (now - c.expiration) answer attr
  | .decided username resource now matched => AccessSince c log username resource (now - c.expiration) matched
  | .access username resource now answer => AccessSince c log username resource (now - 2 * c.expiration) answer
  | _ => True

/-- What an entry of the maps rests on. -/
def Entry (log : List (κ × AccessEvent)) (key : JString) (time : ℤ) (answer : Bool) : Prop :=
  (∃ username attr, Plain username ∧ key = roleKey username attr ∧ Searched c log username attr time answer)
    ∨ ∃ username resource, Plain username ∧ key = resKey username resource
      ∧ AccessSince c log username resource (time - c.expiration) answer

section mono

variable {c} {log log' : List (κ × AccessEvent)} (events : List (κ × AccessEvent)) {username attr : JString}
  {since since' : ℤ}

/-- What was searched for stays so. -/
theorem Searched.append {time : ℤ} {answer : Bool} (h : Searched c log username attr time answer) :
    Searched c (log ++ events) username attr time answer := by
  cases answer with
  | true =>
    obtain ⟨k, filter, hfilter, hmem⟩ := h
    exact ⟨k, filter, hfilter, List.mem_append_left events hmem⟩
  | false =>
    obtain ⟨k, before, searches, after, hown, hsearches⟩ := h
    refine ⟨k, before, searches, after ++ own k events, ?_, hsearches⟩
    rw [own_append, hown, List.append_assoc, List.cons_append]

/-- The time since when may be earlier. -/
theorem SearchedSince.mono {answer : Bool} (h : SearchedSince c log username since answer attr)
    (hle : since' ≤ since) : SearchedSince c (log ++ events) username since' answer attr := by
  obtain ⟨time, htime, h⟩ := h
  exact ⟨time, hle.trans htime, h.append events⟩

theorem AnySince.mono {attributes : List JString} {answer : Bool} (h : AnySince c log username since attributes answer)
    (hle : since' ≤ since) : AnySince c (log ++ events) username since' attributes answer := by
  cases answer with
  | true =>
    obtain ⟨attr, hattr, h⟩ := h
    exact ⟨attr, hattr, h.mono events hle⟩
  | false => exact fun attr hattr => (h attr hattr).mono events hle

theorem RuleSince.mono {rule : JString × List JString} {answer : Bool} (h : RuleSince c log username since answer rule)
    (hle : since' ≤ since) : RuleSince c (log ++ events) username since' answer rule := by
  obtain ⟨type, attributes⟩ := rule
  rcases h with ⟨htype, h⟩ | ⟨htype, attr, rest, hattributes, h⟩
  · exact .inl ⟨htype, h.mono events hle⟩
  · refine .inr ⟨htype, attr, rest, hattributes, ?_⟩
    cases answer with
    | true => exact ⟨h.1.mono events hle, h.2.imp_right fun h => h.mono events hle⟩
    | false => exact h.imp (fun h => h.mono events hle) fun ⟨hrest, h⟩ => ⟨hrest, h.mono events hle⟩

theorem AccessSince.mono {resource : JString} {answer : Bool} (h : AccessSince c log username resource since answer)
    (hle : since' ≤ since) : AccessSince c (log ++ events) username resource since' answer := by
  obtain ⟨rule, hrule, h⟩ := h
  exact ⟨rule, hrule, h.mono events hle⟩

theorem AccessEvent.Fresh.append {e : AccessEvent} (h : e.Fresh c log) : e.Fresh c (log ++ events) := by
  cases e with
  | searched | unmatched => trivial
  | role => exact SearchedSince.mono events h le_rfl
  | decided => exact AccessSince.mono events h le_rfl
  | access => exact AccessSince.mono events h le_rfl

/-- An entry rests on what it rested on. -/
theorem Entry.append {key : JString} {time : ℤ} {answer : Bool} (h : Entry c log key time answer) :
    Entry c (log ++ events) key time answer := by
  rcases h with ⟨username, attr, hplain, hkey, h⟩ | ⟨username, resource, hplain, hkey, h⟩
  · exact .inl ⟨username, attr, hplain, hkey, h.append events⟩
  · exact .inr ⟨username, resource, hplain, hkey, h.mono events le_rfl⟩

end mono

variable {c} {log : List (κ × AccessEvent)} {time : ℤ} {answer : Bool} {username attr resource : JString}

/-- The entry of a role is about this role. -/
theorem Entry.of_roleKey (hplain : Plain username) (h : Entry c log (roleKey username attr) time answer) :
    Searched c log username attr time answer := by
  rcases h with ⟨username', attr', hplain', hkey, h⟩ | ⟨username', resource, hplain', hkey, -⟩
  · obtain ⟨rfl, rfl⟩ := roleKey_inj hplain hplain' hkey
    exact h
  · exact absurd hkey (roleKey_ne_resKey hplain hplain')

/-- The entry of a resource is about this resource. -/
theorem Entry.of_resKey (hplain : Plain username) (h : Entry c log (resKey username resource) time answer) :
    AccessSince c log username resource (time - c.expiration) answer := by
  rcases h with ⟨username', attr, hplain', hkey, -⟩ | ⟨username', resource', hplain', hkey, h⟩
  · exact absurd hkey.symm (roleKey_ne_resKey hplain' hplain)
  · obtain ⟨rfl, rfl⟩ := resKey_inj hplain hplain' hkey
    exact h

/-! ## The invariant -/

/-- Of the maps and of what was seen. -/
structure AccessCache.Inv (c : AccessConfig) (s : AccessCache) (log : List (κ × AccessEvent)) : Prop where
  matched : ∀ key time, s.matchedList key = some time → Entry c log key time true
  unMatched : ∀ key time, s.unMatchedList key = some time → Entry c log key time false
  fresh : ∀ e ∈ log, e.2.Fresh c log

namespace AccessCache.Inv

variable {s : AccessCache}

/-- A step may remove entries and make entries that rest on what was seen. -/
theorem step (h : s.Inv c log) {s' : AccessCache} {events : List (κ × AccessEvent)}
    (hmatched : ∀ key time, s'.matchedList key = some time →
      s.matchedList key = some time ∨ Entry c (log ++ events) key time true)
    (hunMatched : ∀ key time, s'.unMatchedList key = some time →
      s.unMatchedList key = some time ∨ Entry c (log ++ events) key time false)
    (hfresh : ∀ e ∈ events, e.2.Fresh c (log ++ events)) : s'.Inv c (log ++ events) where
  matched := fun key time hkey => (hmatched key time hkey).elim
    (fun hold => (h.matched key time hold).append events) id
  unMatched := fun key time hkey => (hunMatched key time hkey).elim
    (fun hold => (h.unMatched key time hold).append events) id
  fresh := fun e he => (List.mem_append.mp he).elim (fun hold => (h.fresh e hold).append events) (hfresh e)

/-- A step that makes no entry. -/
theorem same (h : s.Inv c log) {s' : AccessCache} {events : List (κ × AccessEvent)}
    (hmatched : ∀ key time, s'.matchedList key = some time → s.matchedList key = some time)
    (hunMatched : ∀ key time, s'.unMatchedList key = some time → s.unMatchedList key = some time)
    (hfresh : ∀ e ∈ events, e.2.Fresh c (log ++ events)) : s'.Inv c (log ++ events) :=
  h.step (fun key time hkey => .inl (hmatched key time hkey)) (fun key time hkey => .inl (hunMatched key time hkey))
    hfresh

end AccessCache.Inv

/-- An answer of the maps rests on an entry that is not too old. -/
theorem Lookup.step_spec {s : AccessCache} (h : s.Inv c log) (key : JString) (now : ℤ) (state : Lookup) :
    (state.step c s key now).All (fun _ => True) fun result => ∀ answer ∈ result,
      ∃ time, now - c.expiration ≤ time ∧ Entry c log key time answer := by
  have hexpired {entry : Option ℤ} {contained : Bool} (hentry : expired c now entry contained = some false) :
      ∃ time, entry = some time ∧ now - c.expiration ≤ time := by
    rw [expired] at hentry
    split at hentry
    · obtain ⟨time, rfl, htime⟩ := Option.map_eq_some_iff.mp hentry
      exact ⟨time, rfl, by simp at htime; omega⟩
    · cases hentry
  cases state with
  | matchedContains => trivial
  | unMatchedContains => trivial
  | matchedGet matched =>
    rw [Lookup.step]
    split
    · trivial
    · split
      · next hentry =>
        obtain ⟨time, hkey, htime⟩ := hexpired hentry
        rintro answer ⟨⟩
        exact ⟨time, htime, h.matched key time hkey⟩
      · trivial
      · trivial
  | unMatchedGet unMatched =>
    rw [Lookup.step]
    split
    · trivial
    · split
      · next hentry =>
        obtain ⟨time, hkey, htime⟩ := hexpired hentry
        rintro answer ⟨⟩
        exact ⟨time, htime, h.unMatched key time hkey⟩
      · exact nofun
      · trivial

/-! ## One step -/

theorem eq_some_of_update_none {f : JString → Option ℤ} {key key' : JString}
    (h : Function.update f key' none key = some time) : f key = some time := by
  by_cases hkey : key = key'
  · rw [hkey, Function.update_self] at h
    cases h
  · rwa [Function.update_of_ne hkey] at h

theorem eq_some_of_update_some {f : JString → Option ℤ} {key key' : JString} {time' : ℤ}
    (h : Function.update f key' (some time') key = some time) : key = key' ∧ time = time' ∨ f key = some time := by
  by_cases hkey : key = key'
  · rw [hkey, Function.update_self] at h
    exact .inl ⟨hkey, (Option.some.inj h).symm⟩
  · rw [Function.update_of_ne hkey] at h
    exact .inr h

/-- What a thread knows in `hasRole`, with its own events: the clock at the start, and what the searches of this round
have found. -/
def HasRole.Local (c : AccessConfig) (username attr : JString) (own : List AccessEvent) (since : ℤ) : HasRole → Prop
  | .lookup now _ => since ≤ now
  | .search count filters => ∃ done, c.policy = done ++ filters
      ∧ (count = 0 → ∃ before searches, own = before ++ searches ∧ List.Forall₂ (Missed username attr) done searches)
  | .close count => count = 0 →
      ∃ before searches, own = before ++ searches ∧ List.Forall₂ (Missed username attr) c.policy searches
  | _ => True

section step

variable {s : AccessCache} {k : κ} {since : ℤ}

/-- The end of a critical section. -/
theorem AccessCache.Inv.unlock (h : s.Inv c log) : s.unlock.Inv c log := ⟨h.matched, h.unMatched, h.fresh⟩

/-- A search that has found something. -/
theorem AccessCache.Inv.searched (h : s.Inv c log) (hplain : Plain username) {filter : JString}
    (hfilter : filter ∈ c.policy) :
    (s.putMatched (roleKey username attr) s.clock).Inv c
      (log ++ [(k, .searched username attr filter true s.clock)]) := by
  refine h.step (fun key time hkey => ?_) (fun key time hkey => .inl hkey) fun e he => ?_
  · rcases eq_some_of_update_some hkey with ⟨rfl, rfl⟩ | hold
    · refine .inr (.inl ⟨username, attr, hplain, rfl, k, filter, hfilter, ?_⟩)
      exact List.mem_append_right log (List.mem_singleton_self _)
    · exact .inl hold
  · rw [List.mem_singleton.mp he]
    trivial

/-- A round in which no search has found anything. -/
theorem AccessCache.Inv.missed (h : s.Inv c log) (hplain : Plain username) {before searches : List AccessEvent}
    (hown : own k log = before ++ searches) (hsearches : List.Forall₂ (Missed username attr) c.policy searches) :
    (s.putUnMatched (roleKey username attr) s.clock).Inv c (log ++ [(k, .unmatched username attr s.clock)]) := by
  refine h.step (fun key time hkey => .inl hkey) (fun key time hkey => ?_) fun e he => ?_
  · rcases eq_some_of_update_some hkey with ⟨rfl, rfl⟩ | hold
    · refine .inr (.inl ⟨username, attr, hplain, rfl, k, before, searches, [], ?_, hsearches⟩)
      rw [own_append, hown]
      exact congrArg _ (own_map_self [_])
    · exact .inl hold
  · rw [List.mem_singleton.mp he]
    trivial

/-- A step of which nothing is seen. -/
theorem AccessCache.Inv.silent (h : s.Inv c log) : s.Inv c (log ++ ([] : List AccessEvent).map fun e => (k, e)) := by
  simpa using h

variable (c) in
/-- What a step of `hasRole` keeps: the invariant with what is seen of the step, the clock, and what the thread knows,
up to its answer. -/
def HasRole.Keeps (s : AccessCache) (k : κ) (log : List (κ × AccessEvent)) (username attr : JString) (since : ℤ)
    (out : Next HasRole Bool × AccessCache × List AccessEvent) : Prop :=
  out.2.1.Inv c (log ++ out.2.2.map fun e => (k, e)) ∧ out.2.1.clock = s.clock
    ∧ out.1.All (Local c username attr (own k log ++ out.2.2) since) fun answer =>
      SearchedSince c (log ++ out.2.2.map fun e => (k, e)) username (since - c.expiration) answer attr

namespace HasRole

variable {reply : Reply}

/-- An answer from the maps is as old as the entry. -/
theorem lookup_keeps (h : s.Inv c log) (hplain : Plain username) {now : ℤ} (hsince : since ≤ now) (state : Lookup) :
    Keeps c s k log username attr since ((HasRole.lookup now state).step c s username attr reply) := by
  have hspec := Lookup.step_spec h (roleKey username attr) now state
  rw [HasRole.step]
  split
  · exact ⟨h.silent, rfl, hsince⟩
  · next answer hlookup =>
    rw [hlookup] at hspec
    obtain ⟨time, htime, hentry⟩ := hspec answer rfl
    have hanswer (since : ℤ) (hle : since ≤ now) : SearchedSince c
        (log ++ [(k, .role username attr now answer)]) username (since - c.expiration) answer attr :=
      ⟨time, by omega, (hentry.of_roleKey hplain).append _⟩
    refine ⟨h.same (fun _ _ => id) (fun _ _ => id) fun e he => ?_, rfl, hanswer since hsince⟩
    rw [List.mem_singleton.mp he]
    exact hanswer now le_rfl
  · exact ⟨h.silent, rfl, trivial⟩
  · exact ⟨h.silent, rfl, trivial⟩

theorem lock_keeps (h : s.Inv c log) :
    Keeps c s k log username attr since (HasRole.lock.step c s username attr reply) := by
  rw [HasRole.step]
  split
  · exact ⟨h.silent, rfl, trivial⟩
  · exact ⟨h.same (fun _ _ => id) (fun _ _ => id) nofun, rfl, trivial⟩

/-- Behind `remove`, no filter has been searched with. -/
theorem remove_keeps (h : s.Inv c log) :
    Keeps c s k log username attr since (HasRole.remove.step c s username attr reply) := by
  have hremoved : (s.remove (roleKey username attr)).Inv c (log ++ ([] : List AccessEvent).map fun e => (k, e)) :=
    h.same (fun _ _ => eq_some_of_update_none) (fun _ _ => eq_some_of_update_none) nofun
  rw [HasRole.step]
  split
  · exact ⟨hremoved.unlock, rfl, trivial⟩
  · exact ⟨hremoved, rfl, [], rfl, fun _ => ⟨own k log, [], rfl, .nil⟩⟩

/-- A search puts the role into the map, or is one more that has found nothing. -/
theorem search_keeps (h : s.Inv c log) (hplain : Plain username) {count : ℕ} {filters : List JString}
    (hlocal : (HasRole.search count filters).Local c username attr (own k log) since) :
    Keeps c s k log username attr since ((HasRole.search count filters).step c s username attr reply) := by
  obtain ⟨done, hpolicy, hdone⟩ := hlocal
  cases filters with
  | nil =>
    rw [List.append_nil] at hpolicy
    refine ⟨h.silent, rfl, fun hcount => ?_⟩
    change ∃ before searches, own k log ++ [] = before ++ searches
      ∧ List.Forall₂ (Missed username attr) c.policy searches
    rw [List.append_nil, hpolicy]
    exact hdone hcount
  | cons filter filters =>
    have hfilter : filter ∈ c.policy := hpolicy ▸ List.mem_append_right done List.mem_cons_self
    cases reply with
    | exception => exact ⟨(h.silent).unlock, rfl, trivial⟩
    | empty =>
      refine ⟨h.same (fun _ _ => id) (fun _ _ => id) fun e he => ?_, rfl, done ++ [filter], ?_, fun hcount => ?_⟩
      · rw [List.mem_singleton.mp he]
        trivial
      · rw [hpolicy, List.append_assoc, List.singleton_append]
      · obtain ⟨before, searches, hown, hsearches⟩ := hdone hcount
        refine ⟨before, searches ++ [_], ?_, List.rel_append hsearches (.cons ⟨s.clock, rfl⟩ .nil)⟩
        rw [hown, List.append_assoc]
        rfl
    | hasMoreElements =>
      have hput : (s.putMatched (roleKey username attr) s.clock).Inv c
          (log ++ [(k, .searched username attr filter true s.clock)]) := h.searched hplain hfilter
      simp only [HasRole.step]
      split_ifs
      · exact ⟨hput, rfl, fun hcount => absurd hcount (Nat.succ_ne_zero count)⟩
      · -- a second filter that finds something takes the entry away again
        refine ⟨⟨fun key time hkey => ?_, hput.unMatched, hput.fresh⟩, rfl, trivial⟩
        exact hput.matched key time (eq_some_of_update_none hkey)
      · refine ⟨hput, rfl, done ++ [filter], ?_, fun hcount => absurd hcount (Nat.succ_ne_zero count)⟩
        rw [hpolicy, List.append_assoc, List.singleton_append]

/-- Where no filter has found anything, the entry that is made rests on all of them. -/
theorem close_keeps (h : s.Inv c log) (hplain : Plain username) {count : ℕ}
    (hlocal : (HasRole.close count).Local c username attr (own k log) since) :
    Keeps c s k log username attr since ((HasRole.close count).step c s username attr reply) := by
  rw [HasRole.step]
  split_ifs with hreply hcount
  · exact ⟨(h.silent).unlock, rfl, trivial⟩
  · obtain ⟨before, searches, hown, hsearches⟩ := hlocal hcount
    exact ⟨(h.missed hplain hown hsearches).unlock, rfl, trivial⟩
  · exact ⟨h.silent, rfl, trivial⟩

theorem cacheUserInfo_keeps (h : s.Inv c log) :
    Keeps c s k log username attr since (HasRole.cacheUserInfo.step c s username attr reply) := by
  rw [HasRole.step]
  split_ifs
  · exact ⟨(h.silent).unlock, rfl, trivial⟩
  · exact ⟨(h.silent).unlock, rfl, trivial⟩

end HasRole

/-- Every step of `hasRole` keeps the invariant, one phase at a time. -/
theorem HasRole.step_keeps (h : s.Inv c log) (hplain : Plain username) (hsince : since ≤ s.clock) {state : HasRole}
    (hlocal : state.Local c username attr (own k log) since) (reply : Reply) {next : Next HasRole Bool}
    {s' : AccessCache} {events : List AccessEvent} (hstep : state.step c s username attr reply = (next, s', events)) :
    s'.Inv c (log ++ events.map fun e => (k, e)) ∧ s'.clock = s.clock
      ∧ next.All (Local c username attr (own k log ++ events) since) fun answer =>
        SearchedSince c (log ++ events.map fun e => (k, e)) username (since - c.expiration) answer attr := by
  have hkeeps : Keeps c s k log username attr since (state.step c s username attr reply) := by
    cases state with
    | start => exact ⟨h.silent, rfl, hsince⟩
    | lookup now state => exact lookup_keeps h hplain hlocal state
    | lock => exact lock_keeps h
    | remove => exact remove_keeps h
    | search count filters => exact search_keeps h hplain hlocal
    | close count => exact close_keeps h hplain hlocal
    | cacheUserInfo => exact cacheUserInfo_keeps h
  rw [hstep] at hkeeps
  exact hkeeps

end step

/-- What a thread knows in `anyRole` or in `hasRole` with several attributes: what the answers that are still to come
would mean. `Q` is what they are asked for. -/
def Roles.Local (c : AccessConfig) (username : JString) (log : List (κ × AccessEvent)) (own : List AccessEvent)
    (since : ℤ) (Q : List (κ × AccessEvent) → Bool → Prop) : Roles → Prop
  | .first attributeX attributeYs state => state.Local c username attributeX own since
      ∧ (∀ log', log <+: log' → SearchedSince c log' username (since - c.expiration) false attributeX → Q log' false)
      ∧ ∀ log', log <+: log' → SearchedSince c log' username (since - c.expiration) true attributeX →
        ∀ answer, AnySince c log' username (since - c.expiration) attributeYs answer → Q log' answer
  | .any role roles state => state.Local c username role own since
      ∧ ∀ log', log <+: log' → ∀ answer, AnySince c log' username (since - c.expiration) (role :: roles) answer →
        Q log' answer

section roles

variable {s : AccessCache} {k : κ} {since : ℤ} {seen : List AccessEvent} {Q : List (κ × AccessEvent) → Bool → Prop}

/-- `anyRole` asks for one role after the other until one is there. -/
theorem anyRole_spec {attributes : List JString}
    (hQ : ∀ log', log <+: log' → ∀ answer, AnySince c log' username (since - c.expiration) attributes answer →
      Q log' answer) :
    (anyRole attributes).All (Roles.Local c username log seen since Q) (Q log) := by
  cases attributes with
  | nil => exact hQ log (List.prefix_refl log) false nofun
  | cons role roles => exact ⟨trivial, hQ⟩

/-- What the roles of a resource are asked for. -/
theorem rolesOf_spec {rule : JString × List JString}
    (hQ : ∀ log', log <+: log' → ∀ answer, RuleSince c log' username (since - c.expiration) answer rule →
      Q log' answer) :
    (rolesOf rule).All (Roles.Local c username log seen since Q) (Q log) := by
  obtain ⟨type, attributes⟩ := rule
  dsimp only [rolesOf]
  split
  · next htype =>
    match attributes with
    | [] => trivial
    | [attr] =>
      refine ⟨trivial, fun log' hlog answer hany => hQ log' hlog answer (.inr ⟨htype, attr, [], rfl, ?_⟩)⟩
      cases answer with
      | true =>
        obtain ⟨attr', hmem, hattr⟩ := hany
        rw [List.mem_singleton.mp hmem] at hattr
        exact ⟨hattr, .inl rfl⟩
      | false => exact .inl (hany attr (List.mem_singleton_self attr))
    | attributeX :: attributeY :: attributeYs =>
      refine ⟨trivial, fun log' hlog hfirst => ?_, fun log' hlog hfirst answer hany => ?_⟩
      · exact hQ log' hlog false (.inr ⟨htype, attributeX, _, rfl, .inl hfirst⟩)
      · refine hQ log' hlog answer (.inr ⟨htype, attributeX, _, rfl, ?_⟩)
        cases answer with
        | true => exact ⟨hfirst, .inr hany⟩
        | false => exact .inr ⟨List.cons_ne_nil _ _, hany⟩
  · split
    · next htype => exact anyRole_spec fun log' hlog answer hany => hQ log' hlog answer (.inl ⟨htype, hany⟩)
    · trivial

/-- A step of the question for several roles is one for the role in turn. -/
theorem Roles.step_keeps (h : s.Inv c log) (hplain : Plain username) (hsince : since ≤ s.clock) {state : Roles}
    (hlocal : state.Local c username log (own k log) since Q) (reply : Reply) {next : Next Roles Bool}
    {s' : AccessCache} {events : List AccessEvent} (hstep : state.step c s username reply = (next, s', events)) :
    s'.Inv c (log ++ events.map fun e => (k, e)) ∧ s'.clock = s.clock
      ∧ next.All (Local c username (log ++ events.map fun e => (k, e)) (own k log ++ events) since Q)
        (Q (log ++ events.map fun e => (k, e))) := by
  cases state with
  | first attributeX attributeYs state =>
    obtain ⟨hrole, hfalse, htrue⟩ := hlocal
    rcases hcall : state.step c s username attributeX reply with ⟨next', s'', events'⟩
    obtain ⟨hinv, hclock, hnext⟩ := HasRole.step_keeps h hplain hsince hrole reply hcall
    rw [Roles.step, hcall] at hstep
    cases hstep
    have hlog := List.prefix_append log (events.map fun e => (k, e))
    refine ⟨hinv, hclock, hnext.andThen (fun state hstate => ?_) fun featX hfeatX => ?_⟩
    · exact ⟨hstate, fun log' hlog' => hfalse log' (hlog.trans hlog'), fun log' hlog' => htrue log' (hlog.trans hlog')⟩
    · cases featX with
      | true =>
        refine anyRole_spec fun log' hlog' => htrue log' (hlog.trans hlog') ?_
        obtain ⟨rest, rfl⟩ := hlog'
        exact hfeatX.mono rest le_rfl
      | false => exact hfalse _ hlog hfeatX
  | any role roles state =>
    obtain ⟨hrole, hQ⟩ := hlocal
    rcases hcall : state.step c s username role reply with ⟨next', s'', events'⟩
    obtain ⟨hinv, hclock, hnext⟩ := HasRole.step_keeps h hplain hsince hrole reply hcall
    rw [Roles.step, hcall] at hstep
    cases hstep
    have hlog := List.prefix_append log (events.map fun e => (k, e))
    refine ⟨hinv, hclock, hnext.andThen (fun state hstate => ?_) fun found hfound => ?_⟩
    · exact ⟨hstate, fun log' hlog' => hQ log' (hlog.trans hlog')⟩
    · cases found with
      | true => exact hQ _ hlog true ⟨role, List.mem_cons_self, hfound⟩
      | false =>
        refine anyRole_spec fun log' hlog' answer hany => hQ log' (hlog.trans hlog') answer ?_
        obtain ⟨rest, rfl⟩ := hlog'
        cases answer with
        | true => exact hany.imp fun attr hattr => ⟨List.mem_cons_of_mem role hattr.1, hattr.2⟩
        | false => exact List.forall_mem_cons.mpr ⟨hfound.mono rest le_rfl, hany⟩

end roles

/-- What a thread knows in `hasAccess`. -/
def HasAccess.Local (c : AccessConfig) (username resource : JString) (clock : ℤ) (log : List (κ × AccessEvent))
    (own : List AccessEvent) : HasAccess → Prop
  | .start => True
  | .lookup now _ => now ≤ clock
  | .resources now => now ≤ clock
  | .roles now state => now ≤ clock ∧ state.Local c username log own now fun log' answer =>
      AccessSince c log' username resource (now - c.expiration) answer
  | .put now matched => AccessSince c log username resource (now - c.expiration) matched

section access

variable {s : AccessCache} {k : κ}

/-- `hasAccess` has got its answer from the roles. -/
theorem AccessCache.Inv.decided (h : s.Inv c log) (hplain : Plain username) {now : ℤ} {matched : Bool}
    (hmatched : AccessSince c log username resource (now - c.expiration) matched) :
    (if matched then s.putMatched (resKey username resource) now
      else s.putUnMatched (resKey username resource) now).Inv c
      (log ++ [(k, .decided username resource now matched), (k, .access username resource now matched)]) := by
  have hfresh : ∀ e ∈ [(k, AccessEvent.decided username resource now matched),
      (k, .access username resource now matched)], e.2.Fresh c
        (log ++ [(k, .decided username resource now matched), (k, .access username resource now matched)]) := by
    intro e he
    rcases List.mem_cons.mp he with rfl | he
    · exact hmatched.mono _ le_rfl
    · rw [List.mem_singleton.mp he]
      exact hmatched.mono _ (by omega)
  have hentry : Entry c
      (log ++ [(k, .decided username resource now matched), (k, .access username resource now matched)])
      (resKey username resource) now matched :=
    .inr ⟨username, resource, hplain, rfl, hmatched.mono _ le_rfl⟩
  cases matched with
  | true =>
    refine h.step (fun key time hkey => ?_) (fun key time hkey => .inl hkey) hfresh
    rcases eq_some_of_update_some hkey with ⟨rfl, rfl⟩ | hold
    · exact .inr hentry
    · exact .inl hold
  | false =>
    refine h.step (fun key time hkey => .inl hkey) (fun key time hkey => ?_) hfresh
    rcases eq_some_of_update_some hkey with ⟨rfl, rfl⟩ | hold
    · exact .inr hentry
    · exact .inl hold

/-- Every step of `hasAccess` keeps the invariant. -/
theorem HasAccess.step_keeps (h : s.Inv c log) (hplain : Plain username) {state : HasAccess}
    (hlocal : state.Local c username resource s.clock log (own k log)) (reply : Reply) {next : Next HasAccess Bool}
    {s' : AccessCache} {events : List AccessEvent}
    (hstep : state.step c s username resource reply = (next, s', events)) :
    s'.Inv c (log ++ events.map fun e => (k, e)) ∧ s'.clock = s.clock
      ∧ next.All (Local c username resource s.clock (log ++ events.map fun e => (k, e)) (own k log ++ events))
        fun _ => True := by
  cases state with
  | start =>
    cases hstep
    exact ⟨h.silent, rfl, le_rfl⟩
  | lookup now state =>
    have hspec := Lookup.step_spec h (resKey username resource) now state
    rw [HasAccess.step] at hstep
    split at hstep
    · cases hstep
      exact ⟨h.silent, rfl, hlocal⟩
    · next answer hlookup =>
      cases hstep
      rw [hlookup] at hspec
      obtain ⟨time, htime, hentry⟩ := hspec answer rfl
      refine ⟨h.same (fun _ _ => id) (fun _ _ => id) fun e he => ?_, rfl, trivial⟩
      rw [List.mem_singleton.mp he]
      exact (hentry.of_resKey hplain).mono _ (by omega)
    · cases hstep
      exact ⟨h.silent, rfl, hlocal⟩
    · cases hstep
      exact ⟨h.silent, rfl, trivial⟩
  | resources now =>
    rw [HasAccess.step] at hstep
    split_ifs at hstep
    · cases hstep
      exact ⟨h.silent, rfl, hlocal⟩
    · split at hstep
      · cases hstep
        exact ⟨h.silent, rfl, trivial⟩
      · next rule hrule =>
        cases hstep
        have hroles : (rolesOf rule).All
            (Roles.Local c username log (own k log) now fun log' answer =>
              AccessSince c log' username resource (now - c.expiration) answer)
            (AccessSince c log username resource (now - c.expiration)) :=
          rolesOf_spec fun log' _ answer hanswer => ⟨rule, hrule, hanswer⟩
        rw [List.map_nil, List.append_nil, List.append_nil]
        exact ⟨h, rfl, hroles.andThen (fun state hstate => ⟨hlocal, hstate⟩) fun matched hmatched => hmatched⟩
  | roles now state =>
    obtain ⟨hnow, hroles⟩ := hlocal
    rcases hcall : state.step c s username reply with ⟨next', s'', events'⟩
    obtain ⟨hinv, hclock, hnext⟩ := Roles.step_keeps h hplain hnow hroles reply hcall
    rw [HasAccess.step, hcall] at hstep
    cases hstep
    exact ⟨hinv, hclock, hnext.andThen (fun state hstate => ⟨hnow, hstate⟩) fun matched hmatched => hmatched⟩
  | put now matched =>
    rw [HasAccess.step] at hstep
    split at hstep
    · cases hstep
      exact ⟨h.silent, rfl, AccessSince.mono _ hlocal le_rfl⟩
    · cases hstep
      exact ⟨h.decided hplain hlocal, by split <;> rfl, trivial⟩

end access

/-! ## Every run -/

/-- What a thread knows. -/
def AccessThread.Local (c : AccessConfig) (clock : ℤ) (log : List (κ × AccessEvent)) (own : List AccessEvent) :
    AccessThread → Prop
  | .idle => True
  | .role username attr state => Plain username ∧ ∃ since ≤ clock, state.Local c username attr own since
  | .roles username state =>
    Plain username ∧ ∃ since ≤ clock, state.Local c username log own since fun _ _ => True
  | .access username resource state => Plain username ∧ state.Local c username resource clock log own

/-- A thread knows no less when the others take their steps. -/
theorem AccessThread.Local.others {thread : AccessThread} {clock clock' : ℤ} {own : List AccessEvent}
    (h : thread.Local c clock log own) (hclock : clock ≤ clock') (events : List (κ × AccessEvent)) :
    thread.Local c clock' (log ++ events) own := by
  have hroles {username : JString} {since : ℤ} {Q : List (κ × AccessEvent) → Bool → Prop} {state : Roles}
      (hstate : state.Local c username log own since Q) : state.Local c username (log ++ events) own since Q := by
    have hlog := List.prefix_append log events
    cases state with
    | first => exact ⟨hstate.1, fun log' hlog' => hstate.2.1 log' (hlog.trans hlog'),
        fun log' hlog' => hstate.2.2 log' (hlog.trans hlog')⟩
    | any => exact ⟨hstate.1, fun log' hlog' => hstate.2 log' (hlog.trans hlog')⟩
  cases thread with
  | idle => trivial
  | role username attr state =>
    obtain ⟨hplain, since, hsince, hstate⟩ := h
    exact ⟨hplain, since, hsince.trans hclock, hstate⟩
  | roles username state =>
    obtain ⟨hplain, since, hsince, hstate⟩ := h
    exact ⟨hplain, since, hsince.trans hclock, hroles hstate⟩
  | access username resource state =>
    obtain ⟨hplain, hstate⟩ := h
    refine ⟨hplain, ?_⟩
    cases state with
    | start => trivial
    | lookup now state => exact le_trans hstate hclock
    | resources now => exact le_trans hstate hclock
    | roles now state => exact ⟨hstate.1.trans hclock, hroles hstate.2⟩
    | put now matched => exact AccessSince.mono events hstate le_rfl

/-- A call is made for a name without a separator. -/
def AccessInput.Plain : AccessInput → Prop
  | .hasRole username _ | .hasRoles username _ _ | .anyRole username _ | .hasAccess username _ => Web.Plain username
  | .go _ _ => True

instance (input : AccessInput) : Decidable input.Plain := by
  unfold AccessInput.Plain
  cases input <;> infer_instance

/-- A call that begins knows nothing yet. -/
theorem AccessInput.call_local {input : AccessInput} (hplain : input.Plain) (clock : ℤ) (own : List AccessEvent) :
    input.call.Local c clock log own := by
  cases input with
  | hasRole username attr => exact ⟨hplain, clock, le_rfl, trivial⟩
  | hasRoles username attributeX attributeYs =>
    rw [call]
    split
    · trivial
    · exact ⟨hplain, clock, le_rfl, trivial, fun _ _ _ => trivial, fun _ _ _ _ _ => trivial⟩
  | anyRole username attributes =>
    cases attributes with
    | nil => trivial
    | cons role roles => exact ⟨hplain, clock, le_rfl, trivial, fun _ _ _ _ => trivial⟩
  | hasAccess username resource => exact ⟨hplain, trivial⟩
  | go elapsed reply => trivial

/-- A thread that has left its method knows nothing. -/
theorem AccessThread.ofNext_local {α : Type*} {next : Next α Bool} {thread : α → AccessThread} {clock : ℤ}
    {own : List AccessEvent} {Q : Bool → Prop} (h : next.All (fun a => (thread a).Local c clock log own) Q) :
    (ofNext thread next).Local c clock log own := by
  cases next with
  | goes a => exact h
  | returns result => trivial
  | throws => trivial

/-- What holds of all outcomes. -/
theorem Next.All.mono {α ρ : Type*} {P P' : α → Prop} {Q Q' : ρ → Prop} {next : Next α ρ} (h : next.All P Q)
    (hP : ∀ a, P a → P' a) (hQ : ∀ r, Q r → Q' r) : next.All P' Q' := by
  cases next with
  | goes a => exact hP a h
  | returns result => exact hQ result h
  | throws => trivial

/-- A step of a thread, with the clock that it leaves. -/
theorem accessMachine_keeps {k : κ} {thread : AccessThread} {s : AccessCache} {input : AccessInput}
    (hplain : input.Plain) (h : s.Inv c log) (hlocal : thread.Local c s.clock log (own k log))
    {thread' : AccessThread} {s' : AccessCache} {events : List AccessEvent}
    (hstep : (accessMachine c).step (thread, s) input = ((thread', s'), events)) :
    s'.Inv c (log ++ events.map fun e => (k, e)) ∧ s.clock ≤ s'.clock
      ∧ thread'.Local c s'.clock (log ++ events.map fun e => (k, e)) (own k log ++ events) := by
  cases input with
  | go elapsed reply =>
    set later : AccessCache := { s with clock := s.clock + elapsed } with hlater
    have hinv : later.Inv c log := ⟨h.matched, h.unMatched, h.fresh⟩
    have hclock : s.clock ≤ later.clock := by simp [hlater]
    cases thread with
    | idle =>
      cases hstep
      exact ⟨by simpa using hinv, hclock, trivial⟩
    | role username attr state =>
      obtain ⟨hplain, since, hsince, hstate⟩ := hlocal
      rcases hcall : state.step c later username attr reply with ⟨next, s'', events'⟩
      obtain ⟨hinv', hclock', hnext⟩ := HasRole.step_keeps hinv hplain (hsince.trans hclock) hstate reply hcall
      simp only [accessMachine, ← hlater, hcall] at hstep
      cases hstep
      refine ⟨hinv', hclock' ▸ hclock, AccessThread.ofNext_local (hnext.mono (fun state hstate => ?_) fun _ => id)⟩
      exact ⟨hplain, since, hclock' ▸ hsince.trans hclock, hstate⟩
    | roles username state =>
      obtain ⟨hplain, since, hsince, hstate⟩ := hlocal
      rcases hcall : state.step c later username reply with ⟨next, s'', events'⟩
      obtain ⟨hinv', hclock', hnext⟩ := Roles.step_keeps hinv hplain (hsince.trans hclock) hstate reply hcall
      simp only [accessMachine, ← hlater, hcall] at hstep
      cases hstep
      refine ⟨hinv', hclock' ▸ hclock, AccessThread.ofNext_local (hnext.mono (fun state hstate => ?_) fun _ => id)⟩
      exact ⟨hplain, since, hclock' ▸ hsince.trans hclock, hstate⟩
    | access username resource state =>
      obtain ⟨hplain, hstate⟩ := AccessThread.Local.others hlocal hclock []
      rw [List.append_nil] at hstate
      rcases hcall : state.step c later username resource reply with ⟨next, s'', events'⟩
      obtain ⟨hinv', hclock', hnext⟩ := HasAccess.step_keeps hinv hplain hstate reply hcall
      simp only [accessMachine, ← hlater, hcall] at hstep
      cases hstep
      refine ⟨hinv', hclock' ▸ hclock, AccessThread.ofNext_local (hnext.mono (fun state hstate => ?_) fun _ => id)⟩
      exact ⟨hplain, hclock' ▸ hstate⟩
  | hasRole | hasRoles | anyRole | hasAccess =>
    cases thread with
    | idle =>
      cases hstep
      exact ⟨by simpa using h, le_rfl, AccessInput.call_local hplain s.clock _⟩
    | role | roles | access =>
      cases hstep
      exact ⟨by simpa using h, le_rfl, by simpa using hlocal⟩

/-- What is seen of any run of any threads. -/
theorem accessMachine_fresh (clock : ℤ) {inputs : List (κ × AccessInput)} (hplain : ∀ i ∈ inputs, i.2.Plain) :
    ∀ e ∈ (accessMachine c).interleave.outputs (accessInit κ clock) inputs,
      e.2.Fresh c ((accessMachine c).interleave.outputs (accessInit κ clock) inputs) := by
  have hinit : AccessCache.Inv c (accessInit κ clock).2 ([] : List (κ × AccessEvent)) := ⟨nofun, nofun, nofun⟩
  have hinv := interleave_invariant (m := accessMachine c) (P := AccessInput.Plain) (I := fun s log => s.Inv c log)
    (L := fun k thread s log => thread.Local c s.clock log (own k log)) (fun k thread s log input hinput h hlocal => ?_)
    (f := (accessInit κ clock).1) hplain hinit fun k => trivial
  · exact hinv.fresh
  · obtain ⟨hinv, hclock, hthread⟩ := accessMachine_keeps hinput h hlocal rfl
    refine ⟨hinv, ?_, fun j hj thread' hlocal' => ?_⟩
    · rw [own_append, own_map_self]
      exact hthread
    · rw [own_append, own_map_of_ne hj.symm, List.append_nil]
      exact hlocal'.others hclock _

/-- The names are needed: `x_attr_y` with the role `z` has the key of `x` with the role `y_attr_z`, who gets the answer
without a search. -/
theorem hasRole_shared_key :
    let c : AccessConfig := ⟨["f".toList], true, 10, fun _ => none⟩
    let call (username attr : JString) : List (ℕ × AccessInput) :=
      (0, .hasRole username attr) :: List.replicate 14 (0, .go 0 .hasMoreElements)
    (accessMachine c).interleave.outputs (accessInit ℕ 0)
        (call "x_attr_y".toList "z".toList ++ call "x".toList "y_attr_z".toList)
      = [(0, .searched "x_attr_y".toList "z".toList "f".toList true 0), (0, .role "x_attr_y".toList "z".toList 0 true),
        (0, .role "x".toList "y_attr_z".toList 0 true)] := by
  decide

end OrgLittle.Web
