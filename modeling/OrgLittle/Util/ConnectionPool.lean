import OrgLittle.Lib.Machine

/-!
# `connection_pool`: queries that are handed out and taken back

The pool is a list of queries. Whether one is in use is told by the two times of its `query_info`: a query that
was handed out has no close time. `open` goes once through the list. It drops the queries without a
connection, takes the first idle one and drops the idle ones after it that are too old. After most removals
the index starts again behind the first query. `connectionPool_exclusive` says that this never touches a
query that a client holds, as long as its connection is open.
-/

namespace OrgLittle.Util

open OrgLittle.Lib

/-! ## `query_info` and `query` -/

/-- `query_info`. -/
structure QueryInfo where
  closeTime : ℤ
  connectTime : ℤ
deriving DecidableEq

namespace QueryInfo

/-- The constructor. -/
def empty : QueryInfo := ⟨0, 0⟩

/-- `restart`. -/
def restart (info : QueryInfo) : QueryInfo := { info with closeTime := 0 }

/-- `start`. -/
def start (now : ℤ) (info : QueryInfo) : QueryInfo := restart { info with connectTime := now }

/-- `stop`. -/
def stop (now : ℤ) (info : QueryInfo) : QueryInfo := { info with closeTime := now }

/-- `isStop`. -/
def isStop (info : QueryInfo) : Bool := info.closeTime ≠ 0 ∧ info.connectTime ≠ 0

theorem closeTime_ne_zero {info : QueryInfo} (h : info.isStop = true) : info.closeTime ≠ 0 :=
  (of_decide_eq_true h).1

end QueryInfo

/-- A `query`. `con` says that it has a connection. -/
structure Query where
  con : Bool
  info : QueryInfo
deriving DecidableEq

/-- `query.clear`. -/
def Query.clear (_ : Query) : Query := ⟨false, .empty⟩

/-- `info.restart()`. -/
def Query.restart (x : Query) : Query := { x with info := x.info.restart }

/-- `info.stop()`, which is also `query.close`. -/
def Query.close (now : ℤ) (x : Query) : Query := { x with info := x.info.stop now }

/-! ## `connection_pool` -/

/-- The query objects and the vector `connections`, which may hold `null`. Queries are numbered as they are
created. -/
structure Pool where
  queries : ℕ → Query
  connections : List (Option ℕ)
  created : ℕ

/-- What the scan sees in one turn: the answer of `isClosed`, `none` if it throws, and the time. -/
structure Look where
  isClosed : Option Bool
  now : ℤ
deriving DecidableEq

/-- `max_timeout`. -/
def maxTimeout : ℤ := 15 * 60 * 1000

/-- What can be seen of a step. `discarded` is a query that is cleared and taken from the pool, together with
whether its connection was found open. -/
inductive PoolEvent (C : Type*)
  | discarded (id : ℕ) (isOpen : Bool)
  | opened (client : C) (id : ℕ)
  | failed (client : C)
deriving DecidableEq

namespace Pool

/-- A query object is changed. -/
def modify (p : Pool) (id : ℕ) (f : Query → Query) : Pool :=
  { p with queries := Function.update p.queries id (f (p.queries id)) }

/-- `removeElementAt`. -/
def removeElementAt (p : Pool) (i : ℕ) : Pool := { p with connections := p.connections.eraseIdx i }

/-- `cur_q.clear(); connections.removeElementAt(i)`. -/
def discard (p : Pool) (id i : ℕ) : Pool := (p.modify id Query.clear).removeElementAt i

/-- `add`: a query with a new connection. -/
def add (p : Pool) (now : ℤ) : Pool where
  queries := Function.update p.queries p.created ⟨true, QueryInfo.empty.start now⟩
  connections := p.connections ++ [some p.created]
  created := p.created + 1

end Pool

/-- The variables of the loop in `open`, and what was discarded. -/
structure Scan where
  pool : Pool
  i : ℕ
  q : Option ℕ
  discarded : List (ℕ × Bool)

namespace Scan

/-- One turn of the loop, with the `i++` at its end. -/
def turn (look : Look) (s : Scan) : Scan :=
  match s.pool.connections[s.i]? with
  | none => s
  | some none => { s with pool := s.pool.removeElementAt s.i, i := 1 }
  | some (some id) =>
    if (s.pool.queries id).con = false ∨ look.isClosed ≠ some false then
      { s with pool := s.pool.discard id s.i, i := 1, discarded := s.discarded ++ [(id, false)] }
    else if (s.pool.queries id).info.isStop then
      match s.q with
      | none =>
        { s with
          pool := s.pool.modify id Query.restart
          q := some id
          i := s.i + 1 }
      | some _ =>
        if look.now - (s.pool.queries id).info.closeTime > maxTimeout then
          { s with pool := s.pool.discard id s.i, i := s.i + 1, discarded := s.discarded ++ [(id, true)] }
        else { s with i := s.i + 1 }
    else { s with i := s.i + 1 }

/-- `i < connections.size()`. -/
def InLoop (s : Scan) : Prop := s.i < s.pool.connections.length

instance (s : Scan) : Decidable s.InLoop := inferInstanceAs (Decidable (_ < _))

/-- What a turn can do. -/
inductive Turn (s : Scan) : Scan → Prop
  | null (hnull : s.pool.connections[s.i]? = some none) :
    Turn s { s with pool := s.pool.removeElementAt s.i, i := 1 }
  | closed (id : ℕ) (hid : s.pool.connections[s.i]? = some (some id)) :
    Turn s { s with pool := s.pool.discard id s.i, i := 1, discarded := s.discarded ++ [(id, false)] }
  | reuse (id : ℕ) (hid : s.pool.connections[s.i]? = some (some id))
      (hstop : (s.pool.queries id).info.isStop = true) (hq : s.q = none) :
    Turn s { s with
      pool := s.pool.modify id Query.restart
      q := some id
      i := s.i + 1 }
  | expired (id taken : ℕ) (hid : s.pool.connections[s.i]? = some (some id))
      (hstop : (s.pool.queries id).info.isStop = true) (hq : s.q = some taken) :
    Turn s { s with pool := s.pool.discard id s.i, i := s.i + 1, discarded := s.discarded ++ [(id, true)] }
  | skip : Turn s { s with i := s.i + 1 }

/-- One turn of the scan, in all its branches. -/
theorem turn_spec (look : Look) {s : Scan} (h : s.InLoop) : Turn s (s.turn look) := by
  rw [turn]
  split
  · next hnone => exact absurd (List.getElem?_eq_none_iff.mp hnone) (Nat.not_le.mpr h)
  · next hnull => exact .null hnull
  · next id hid =>
    split
    · exact .closed id hid
    · split
      · next hstop =>
        split
        · next hq => exact .reuse id hid hstop hq
        · next taken hq =>
          split
          · exact .expired id taken hid hstop hq
          · exact .skip
      · exact .skip

/-- A turn removes a query or goes on to the next. -/
theorem Turn.measure {s s' : Scan} (h : Turn s s') (hloop : s.InLoop) :
    s'.pool.connections.length < s.pool.connections.length
      ∨ s'.pool.connections.length = s.pool.connections.length ∧ s'.i = s.i + 1 := by
  have herase : (s.pool.connections.eraseIdx s.i).length < s.pool.connections.length := by
    rw [List.length_eraseIdx_of_lt hloop]
    exact Nat.sub_one_lt (Nat.ne_of_gt (Nat.zero_lt_of_lt hloop))
  cases h with
  | null hnull => exact .inl herase
  | closed id hid => exact .inl herase
  | reuse id hid hstop hq => exact .inr ⟨rfl, rfl⟩
  | expired id taken hid hstop hq => exact .inl herase
  | skip => exact .inr ⟨rfl, rfl⟩

/-- The loop. `look n` is what the `n`-th turn from here on sees. -/
def loop (look : ℕ → Look) (s : Scan) : Scan :=
  if h : s.InLoop then loop (fun n => look (n + 1)) (s.turn (look 0)) else s
termination_by (s.pool.connections.length, s.pool.connections.length - s.i)
decreasing_by
  rcases (turn_spec (look 0) h).measure h with hless | ⟨heq, hi⟩
  · exact Prod.Lex.left _ _ hless
  · rw [heq, hi]
    exact Prod.Lex.right _ (Nat.sub_succ_lt_self _ _ h)

/-- What every turn keeps, the loop keeps. -/
theorem loop_invariant {Inv : Scan → Prop} (hturn : ∀ s s', Turn s s' → Inv s → Inv s')
    (look : ℕ → Look) {s : Scan} (hs : Inv s) : Inv (s.loop look) := by
  induction look, s using loop.induct with
  | case1 look s h ih =>
    rw [loop, dif_pos h]
    exact ih (hturn _ _ (turn_spec _ h) hs)
  | case2 look s h =>
    rw [loop, dif_neg h]
    exact hs

end Scan

/-! ## The pool and its clients -/

section

variable {C : Type*} [DecidableEq C]

/-- The pool, and which client holds which query. -/
structure PoolSystem (C : Type*) where
  pool : Pool
  held : List (C × ℕ)

/-- The calls. In `openCall` the driver is loaded or not, the turns of the loop see `look`, and a new connection
is made at the time `connect`, if at all. -/
inductive PoolCall (C : Type*)
  | openCall (client : C) (load : Bool) (look : ℕ → Look) (connect : Option ℤ)
  | closeCall (client : C) (id : ℕ) (now : ℤ)

namespace PoolSystem

/-- The queries that are held. -/
def heldIds (s : PoolSystem C) : List ℕ := s.held.map Prod.snd

/-- The loop of `open`. -/
def scan (look : ℕ → Look) (p : Pool) : Scan := Scan.loop look ⟨p, 0, none, []⟩

/-- `open`. Where it throws, the client gets nothing. -/
def openCall (client : C) (load : Bool) (look : ℕ → Look) (connect : Option ℤ) (s : PoolSystem C) :
    PoolSystem C × List (PoolEvent C) :=
  if load then
    let scanned := scan look s.pool
    let events := scanned.discarded.map fun d => .discarded d.1 d.2
    match scanned.q with
    | some id => (⟨scanned.pool, (client, id) :: s.held⟩, events ++ [.opened client id])
    | none =>
      match connect with
      | some now =>
        (⟨scanned.pool.add now, (client, scanned.pool.created) :: s.held⟩,
          events ++ [.opened client scanned.pool.created])
      | none => (⟨scanned.pool, s.held⟩, events ++ [.failed client])
  else (s, [.failed client])

/-- `close(query)`, which a client calls for a query that it has, and does not use it afterwards. -/
def closeCall (client : C) (id : ℕ) (now : ℤ) (s : PoolSystem C) : PoolSystem C :=
  if (client, id) ∈ s.held then
    { pool := s.pool.modify id (Query.close now)
      held := s.held.erase (client, id) }
  else s

/-- A new pool. -/
def init (C : Type*) : PoolSystem C := ⟨⟨fun _ => ⟨false, .empty⟩, [], 0⟩, []⟩

end PoolSystem

/-- The pool and its clients as a machine. -/
def connectionPool (C : Type*) [DecidableEq C] : Machine (PoolSystem C) (PoolCall C) (PoolEvent C) where
  step s
    | .openCall client load look connect => s.openCall client load look connect
    | .closeCall client id now => (s.closeCall client id now, [])

/-! ## Held queries -/

/-- The queries of `held` exist and have no close time, and so do those in the pool exist. -/
structure Pool.Holds (p : Pool) (held : List ℕ) : Prop where
  lt : ∀ id ∈ held, id < p.created
  busy : ∀ id ∈ held, (p.queries id).info.closeTime = 0
  bounded : ∀ id, some id ∈ p.connections → id < p.created

namespace Pool

variable {p : Pool} {held : List ℕ}

/-- A query object is changed and, if it is held, gets no close time. -/
theorem Holds.modify (h : p.Holds held) (id : ℕ) {f : Query → Query}
    (hf : id ∈ held → (f (p.queries id)).info.closeTime = 0) : (p.modify id f).Holds held := by
  refine ⟨h.lt, fun id' hid' => ?_, h.bounded⟩
  by_cases heq : id' = id
  · subst heq
    simpa [Pool.modify] using hf hid'
  · simpa [Pool.modify, heq] using h.busy id' hid'

theorem Holds.removeElementAt (h : p.Holds held) (i : ℕ) : (p.removeElementAt i).Holds held :=
  ⟨h.lt, h.busy, fun id hid => h.bounded id (List.mem_of_mem_eraseIdx hid)⟩

/-- A connection that is thrown away is held by nobody. -/
theorem Holds.discard (h : p.Holds held) (id i : ℕ) : (p.discard id i).Holds held :=
  (h.modify id fun _ => rfl).removeElementAt i

/-- One more query is held. -/
theorem Holds.cons (h : p.Holds held) {id : ℕ} (hlt : id < p.created)
    (hbusy : (p.queries id).info.closeTime = 0) : p.Holds (id :: held) := by
  refine ⟨fun id' hid' => ?_, fun id' hid' => ?_, h.bounded⟩
  · rcases List.mem_cons.mp hid' with rfl | hid'
    · exact hlt
    · exact h.lt id' hid'
  · rcases List.mem_cons.mp hid' with rfl | hid'
    · exact hbusy
    · exact h.busy id' hid'

/-- A new connection is held by the one who asked. -/
theorem Holds.add (h : p.Holds held) (now : ℤ) : (p.add now).Holds (p.created :: held) := by
  have hold : ∀ id ∈ held, ((p.add now).queries id).info.closeTime = 0 := by
    intro id hid
    have hne : id ≠ p.created := Nat.ne_of_lt (h.lt id hid)
    simpa [Pool.add, hne] using h.busy id hid
  have hadd : (p.add now).Holds held := by
    refine ⟨fun id hid => Nat.lt_succ_of_lt (h.lt id hid), hold, fun id hid => ?_⟩
    rcases List.mem_append.mp hid with hid | hid
    · exact Nat.lt_succ_of_lt (h.bounded id hid)
    · obtain rfl : id = p.created := by simpa using hid
      exact Nat.lt_succ_self _
  exact hadd.cons (Nat.lt_succ_self _) (by simp [Pool.add, QueryInfo.start, QueryInfo.restart])

/-- What is removed is the element at the index. -/
theorem mem_removeElementAt {i id id' : ℕ} (hid : p.connections[i]? = some (some id)) (hne : id' ≠ id)
    (hmem : some id' ∈ p.connections) : some id' ∈ (p.removeElementAt i).connections := by
  obtain ⟨j, hj⟩ := List.getElem?_of_mem hmem
  refine List.mem_eraseIdx_iff_getElem?.mpr ⟨j, ?_, hj⟩
  rintro rfl
  rw [hid] at hj
  exact hne (Option.some.inj (Option.some.inj hj)).symm

theorem con_modify (id id' : ℕ) {f : Query → Query} (h : id' ≠ id ∨ (f (p.queries id)).con = (p.queries id).con) :
    ((p.modify id f).queries id').con = (p.queries id').con := by
  by_cases heq : id' = id
  · subst heq
    simpa [Pool.modify] using h
  · simp [Pool.modify, heq]

end Pool

/-- The invariant of the loop, for the queries that clients hold. The query that the loop has taken counts as
held from that turn on. -/
structure Scan.Spares (before : Pool) (held : List ℕ) (s : Scan) : Prop where
  holds : s.pool.Holds (s.q.toList ++ held)
  taken : ∀ id, s.q = some id → id ∉ held
  expired : ∀ id, (id, true) ∈ s.discarded → s.q ≠ none ∧ id ∉ s.q.toList ++ held
  stays : ∀ id, some id ∈ before.connections → (∀ isOpen, (id, isOpen) ∉ s.discarded) →
    some id ∈ s.pool.connections ∧ (s.pool.queries id).con = (before.queries id).con

namespace Scan.Spares

variable {before : Pool} {held : List ℕ} {s s' : Scan}

/-- A query that is idle is not held. -/
theorem not_held (h : s.Spares before held) {id : ℕ} (hstop : (s.pool.queries id).info.isStop = true) :
    id ∉ s.q.toList ++ held := by
  intro hmem
  exact QueryInfo.closeTime_ne_zero hstop (h.holds.busy id hmem)

/-- What stays in the pool when the query at the index is discarded. -/
theorem stays_discard (h : s.Spares before held) {id : ℕ} {isOpen : Bool}
    (hid : s.pool.connections[s.i]? = some (some id)) (id' : ℕ) (hmem : some id' ∈ before.connections)
    (hnot : ∀ o, (id', o) ∉ s.discarded ++ [(id, isOpen)]) :
    some id' ∈ (s.pool.discard id s.i).connections
      ∧ ((s.pool.discard id s.i).queries id').con = (before.queries id').con := by
  have hne : id' ≠ id := by
    rintro rfl
    exact hnot isOpen (by simp)
  obtain ⟨hconn, hcon⟩ := h.stays id' hmem fun o ho => hnot o (List.mem_append_left _ ho)
  refine ⟨Pool.mem_removeElementAt hid hne hconn, ?_⟩
  exact (Pool.con_modify id id' (.inl hne)).trans hcon

theorem turn (h : s.Spares before held) (hturn : Turn s s') : s'.Spares before held := by
  cases hturn with
  | null hnull =>
    refine ⟨h.holds.removeElementAt _, h.taken, h.expired, fun id hmem hnot => ?_⟩
    obtain ⟨hconn, hcon⟩ := h.stays id hmem hnot
    obtain ⟨j, hj⟩ := List.getElem?_of_mem hconn
    refine ⟨List.mem_eraseIdx_iff_getElem?.mpr ⟨j, ?_, hj⟩, hcon⟩
    rintro rfl
    rw [hnull] at hj
    cases hj
  | closed id hid =>
    refine ⟨h.holds.discard _ _, h.taken, fun id' hid' => ?_, h.stays_discard hid⟩
    exact h.expired id' (by simpa using hid')
  | reuse id hid hstop hq =>
    have hnot := h.not_held hstop
    have hholds := h.holds
    rw [hq, Option.toList_none, List.nil_append] at hnot hholds
    refine ⟨?_, ?_, fun id' hid' => absurd hq (h.expired id' hid').1, fun id' hmem hnot' => ?_⟩
    · have hmodify := hholds.modify id (f := Query.restart) fun _ => rfl
      refine hmodify.cons (hholds.bounded id (List.mem_of_getElem? hid)) ?_
      simp [Pool.modify, Query.restart, QueryInfo.restart]
    · rintro id' ⟨⟩
      exact hnot
    · obtain ⟨hconn, hcon⟩ := h.stays id' hmem hnot'
      have hrestart := Pool.con_modify (p := s.pool) id id' (f := Query.restart)
        (.inr rfl)
      exact ⟨hconn, hrestart.trans hcon⟩
  | expired id taken hid hstop hq =>
    refine ⟨h.holds.discard _ _, h.taken, fun id' hid' => ?_, h.stays_discard hid⟩
    rcases List.mem_append.mp hid' with hid' | hid'
    · exact h.expired id' hid'
    · obtain rfl : id' = id := by simpa using hid'
      exact ⟨by simp [hq], h.not_held hstop⟩
  | skip => exact ⟨h.holds, h.taken, h.expired, h.stays⟩

end Scan.Spares

namespace PoolSystem

/-- No query is held twice, and the held queries have no close time. -/
structure Exclusive (s : PoolSystem C) : Prop where
  nodup : s.heldIds.Nodup
  holds : s.pool.Holds s.heldIds

/-- No scan touches a connection that is held. -/
theorem scan_spares {p : Pool} {held : List ℕ} (h : p.Holds held) (look : ℕ → Look) :
    (scan look p).Spares p held := by
  refine Scan.loop_invariant (fun s s' hturn hs => hs.turn hturn) look ?_
  refine ⟨h, ?_, ?_, fun id hmem _ => ⟨hmem, rfl⟩⟩
  · rintro id ⟨⟩
  · exact fun id hid => absurd hid List.not_mem_nil

/-- What is asked of a step: no held query is discarded while its connection is open, and a query of the pool that
is not discarded stays there with its connection. -/
structure Spares (s s' : PoolSystem C) (events : List (PoolEvent C)) : Prop where
  open_held : ∀ id ∈ s.heldIds ++ s'.heldIds, .discarded id true ∉ events
  stays : ∀ id, some id ∈ s.pool.connections → (∀ isOpen, .discarded id isOpen ∉ events) →
    some id ∈ s'.pool.connections ∧ (s'.pool.queries id).con = (s.pool.queries id).con

variable {s : PoolSystem C}

omit [DecidableEq C] in
theorem mem_events {discarded : List (ℕ × Bool)} {e : PoolEvent C} {id : ℕ} {isOpen : Bool}
    (he : e ≠ .discarded id isOpen) :
    .discarded id isOpen ∈ discarded.map (fun d => PoolEvent.discarded (C := C) d.1 d.2) ++ [e]
      ↔ (id, isOpen) ∈ discarded := by
  simp [he.symm]

omit [DecidableEq C] in
/-- The events of a call whose scan spares the held queries. -/
theorem Spares.of_scan {s s' : PoolSystem C} {scanned : Scan} {e : PoolEvent C}
    (h : scanned.Spares s.pool s.heldIds) (he : ∀ id isOpen, e ≠ .discarded id isOpen)
    (hheld : ∀ id ∈ s'.heldIds, id ∈ s.heldIds ∨ (id, true) ∉ scanned.discarded)
    (hconn : ∀ id, some id ∈ s.pool.connections → some id ∈ scanned.pool.connections →
      some id ∈ s'.pool.connections ∧ (s'.pool.queries id).con = (scanned.pool.queries id).con) :
    Spares s s' (scanned.discarded.map (fun d => .discarded d.1 d.2) ++ [e]) := by
  have hbefore : ∀ id ∈ s.heldIds, (id, true) ∉ scanned.discarded := by
    intro id hid hdiscarded
    exact (h.expired id hdiscarded).2 (List.mem_append_right _ hid)
  refine ⟨fun id hid => ?_, fun id hmem hnot => ?_⟩
  · rw [mem_events (he id true)]
    rcases List.mem_append.mp hid with hid | hid
    · exact hbefore id hid
    · exact (hheld id hid).elim (hbefore id) fun hnot => hnot
  · have hstays := h.stays id hmem fun isOpen hdiscarded =>
      hnot isOpen ((mem_events (he id isOpen)).mpr hdiscarded)
    obtain ⟨hconn', hcon⟩ := hconn id hmem hstays.1
    exact ⟨hconn', hcon.trans hstays.2⟩

omit [DecidableEq C] in
/-- `open` gives out what nobody holds. -/
theorem Exclusive.openCall (h : Exclusive s) (client : C) (load : Bool) (look : ℕ → Look)
    (connect : Option ℤ) :
    Exclusive (s.openCall client load look connect).1
      ∧ Spares s (s.openCall client load look connect).1 (s.openCall client load look connect).2 := by
  have hscan := scan_spares h.holds look
  have hholds := hscan.holds
  rw [PoolSystem.openCall]
  split
  · dsimp only
    split
    · next id hq =>
      -- an idle query is handed out
      rw [hq] at hholds
      refine ⟨⟨List.nodup_cons.mpr ⟨hscan.taken id hq, h.nodup⟩, hholds⟩, ?_⟩
      refine Spares.of_scan hscan (by simp) (fun id' hid' => ?_) fun id' _ hmem => ⟨hmem, rfl⟩
      refine (List.mem_cons.mp hid').symm.imp (fun hid' => hid') ?_
      rintro rfl hdiscarded
      exact (hscan.expired _ hdiscarded).2 (by simp [hq])
    · next hq =>
      rw [hq, Option.toList_none, List.nil_append] at hholds
      have hnew : (scan look s.pool).pool.created ∉ s.heldIds :=
        fun hmem => Nat.lt_irrefl _ (hholds.lt _ hmem)
      have hidle : ∀ id, (id, true) ∉ (scan look s.pool).discarded :=
        fun id hdiscarded => (hscan.expired id hdiscarded).1 hq
      split
      · next now =>
        -- a new query, which no client can hold
        refine ⟨⟨List.nodup_cons.mpr ⟨hnew, h.nodup⟩, hholds.add now⟩, ?_⟩
        refine Spares.of_scan hscan (by simp) (fun id' _ => .inr (hidle id')) fun id' _ hmem => ?_
        have hne : id' ≠ (scan look s.pool).pool.created := Nat.ne_of_lt (hholds.bounded id' hmem)
        exact ⟨List.mem_append_left _ hmem, by simp [Pool.add, hne]⟩
      · refine ⟨⟨h.nodup, hholds⟩, ?_⟩
        exact Spares.of_scan hscan (by simp) (fun id' hid' => .inl hid') fun id' _ hmem => ⟨hmem, rfl⟩
  · exact ⟨h, ⟨by simp, fun id hmem _ => ⟨hmem, rfl⟩⟩⟩

/-- `close` gives back what the client holds, if it does. -/
theorem Exclusive.closeCall (h : Exclusive s) (client : C) (id : ℕ) (now : ℤ) :
    Exclusive (s.closeCall client id now) ∧ Spares s (s.closeCall client id now) [] := by
  rw [PoolSystem.closeCall]
  split
  · next hmem =>
    have hperm : (id :: (s.held.erase (client, id)).map Prod.snd).Perm s.heldIds :=
      (List.perm_cons_erase hmem).symm.map Prod.snd
    obtain ⟨hid, hnodup⟩ := List.nodup_cons.mp (hperm.symm.nodup h.nodup)
    have hsub : ∀ id' ∈ (s.held.erase (client, id)).map Prod.snd, id' ∈ s.heldIds :=
      fun id' hid' => hperm.subset (List.mem_cons_of_mem id hid')
    have hless : s.pool.Holds ((s.held.erase (client, id)).map Prod.snd) :=
      ⟨fun id' hid' => h.holds.lt id' (hsub id' hid'), fun id' hid' => h.holds.busy id' (hsub id' hid'),
        h.holds.bounded⟩
    refine ⟨⟨hnodup, hless.modify id (f := Query.close now) fun hmem' => absurd hmem' hid⟩,
      ⟨by simp, fun id' hmem' _ => ?_⟩⟩
    exact ⟨hmem', Pool.con_modify id id' (f := Query.close now) (.inr rfl)⟩
  · exact ⟨h, ⟨by simp, fun id hmem _ => ⟨hmem, rfl⟩⟩⟩

/-- Every call keeps connections exclusive. -/
theorem Exclusive.step (h : Exclusive s) (call : PoolCall C) :
    Exclusive ((connectionPool C).step s call).1
      ∧ Spares s ((connectionPool C).step s call).1 ((connectionPool C).step s call).2 := by
  cases call with
  | openCall client load look connect => exact h.openCall client load look connect
  | closeCall client id now => exact h.closeCall client id now

omit [DecidableEq C] in
theorem exclusive_init : Exclusive (init C) :=
  ⟨List.nodup_nil, by simp [heldIds, init], by simp [heldIds, init], by simp [init]⟩

end PoolSystem

open PoolSystem

/-- In every state of every run no query is held twice, and no call discards a held query whose connection is
open. -/
theorem connectionPool_exclusive (is : List (PoolCall C)) :
    let s := (connectionPool C).run (init C) is
    s.heldIds.Nodup ∧ ∀ call, Spares s ((connectionPool C).step s call).1 ((connectionPool C).step s call).2 := by
  have hall : (connectionPool C).Along (fun _ _ => True) (init C) is :=
    Machine.along_of_forall _ fun _ _ => trivial
  have h := hall.run_invariant (fun s call hs _ => (hs.step call).1) exclusive_init
  exact ⟨h.nodup, fun call => (h.step call).2⟩

end

end OrgLittle.Util
