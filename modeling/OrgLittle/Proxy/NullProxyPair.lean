import OrgLittle.Java.Text
import OrgLittle.Lib.Machine

/-!
# `NullProxyPair`: pairing the two sides of a reverse proxy

A channel that connects on one side asks for a channel of the other side. It gets the first one that waits
there and is still active, and it waits itself if there is none. A channel can become inactive while it
waits; it stays in its list until somebody asks on the other side. A channel that is deleted is looked up by the
short text of its id, which two channels can share: then another one may be removed in its place.
`nullProxyPair_pairs` says what every run hands out in which that does not happen, in terms of what was seen of the
run.
-/

namespace OrgLittle.Proxy

open OrgLittle.Java OrgLittle.Lib

/-! ## The lists -/

/-- A channel: its `id()`, and `id().asShortText()`, which can be the same for two ids. -/
structure Channel where
  id : JString
  asShortText : JString
deriving DecidableEq

/-- The two waiting lists. -/
structure NullProxyPair where
  front : List Channel
  back : List Channel
deriving DecidableEq

/-- The sides of the proxy. -/
inductive Side
  | front
  | back
deriving DecidableEq

/-- The side that a channel of this side is paired with. -/
def Side.other : Side → Side
  | front => back
  | back => front

@[simp] theorem Side.other_other (side : Side) : side.other.other = side := by cases side <;> rfl

@[simp] theorem Side.other_ne (side : Side) : side.other ≠ side := by cases side <;> decide

namespace NullProxyPair

/-- `clear`. -/
def clear : NullProxyPair := ⟨[], []⟩

/-- `delFront`: the first channel with this short text. -/
def delFront (p : NullProxyPair) (channel : Channel) : NullProxyPair :=
  { p with front := p.front.eraseP fun c => c.asShortText = channel.asShortText }

/-- `delBack`. -/
def delBack (p : NullProxyPair) (channel : Channel) : NullProxyPair :=
  { p with back := p.back.eraseP fun c => c.asShortText = channel.asShortText }

/-- `getPair`: the channel returned, `list_wait` and `list_pair`. -/
def getPair (isActive : Channel → Bool) (list_wait : List Channel) (current : Channel) :
    List Channel → Option Channel × List Channel × List Channel
  | [] => (none, list_wait ++ [current], [])
  | pair :: list_pair =>
    if isActive pair then (some pair, list_wait, list_pair)
    else getPair isActive list_wait current list_pair

/-- `getPair4Front`. -/
def getPair4Front (isActive : Channel → Bool) (p : NullProxyPair) (channel : Channel) :
    Option Channel × NullProxyPair :=
  let (pair, front, back) := getPair isActive p.front channel p.back
  (pair, ⟨front, back⟩)

/-- `getPair4Back`. -/
def getPair4Back (isActive : Channel → Bool) (p : NullProxyPair) (channel : Channel) :
    Option Channel × NullProxyPair :=
  let (pair, back, front) := getPair isActive p.back channel p.front
  (pair, ⟨front, back⟩)

/-- The channels that wait on a side. -/
def list (p : NullProxyPair) : Side → List Channel
  | .front => p.front
  | .back => p.back

/-- `delFront` or `delBack`. -/
def del (p : NullProxyPair) : Side → Channel → NullProxyPair
  | .front => p.delFront
  | .back => p.delBack

/-- `getPair4Front` or `getPair4Back`. -/
def getPair4 (isActive : Channel → Bool) (p : NullProxyPair) :
    Side → Channel → Option Channel × NullProxyPair
  | .front => p.getPair4Front isActive
  | .back => p.getPair4Back isActive

/-- Where the channel is looked up, no other one stands in front of it with the same short text. -/
def FindsOwn (p : NullProxyPair) (side : Side) (channel : Channel) : Prop :=
  ∀ c, (p.list side).find? (fun c => c.asShortText = channel.asShortText) = some c → c = channel

instance (p : NullProxyPair) (side : Side) (channel : Channel) : Decidable (p.FindsOwn side channel) :=
  inferInstanceAs (Decidable
    (∀ c, (p.list side).find? (fun c => decide (c.asShortText = channel.asShortText)) = some c → c = channel))

/-- What `getPair` does: it drops the inactive channels in front of the first active one. -/
theorem getPair_spec (isActive : Channel → Bool) (list_wait : List Channel) (current : Channel)
    (list_pair : List Channel) :
    (∃ dead pair rest, list_pair = dead ++ pair :: rest ∧ (∀ c ∈ dead, isActive c = false)
        ∧ isActive pair = true
        ∧ getPair isActive list_wait current list_pair = (some pair, list_wait, rest))
      ∨ ((∀ c ∈ list_pair, isActive c = false)
        ∧ getPair isActive list_wait current list_pair = (none, list_wait ++ [current], [])) := by
  induction list_pair with
  | nil => exact .inr ⟨by simp, rfl⟩
  | cons pair list_pair ih =>
    rw [getPair]
    split_ifs with hactive
    · exact .inl ⟨[], pair, list_pair, rfl, by simp, hactive, rfl⟩
    · rw [Bool.not_eq_true] at hactive
      rcases ih with ⟨dead, next, rest, rfl, hdead, hnext, heq⟩ | ⟨hdead, heq⟩
      · exact .inl ⟨pair :: dead, next, rest, rfl, List.forall_mem_cons.mpr ⟨hactive, hdead⟩, hnext, heq⟩
      · exact .inr ⟨List.forall_mem_cons.mpr ⟨hactive, hdead⟩, heq⟩

end NullProxyPair

/-! ## What is seen of a run -/

/-- What happens to the proxy. -/
inductive PairOp
  | ask (side : Side) (channel : Channel)
  | del (side : Side) (channel : Channel)
  | inactive (channel : Channel)
deriving DecidableEq

/-- What is seen of a step: `paired side channel pair` returns `pair` to `channel`, which asked on `side`. -/
inductive PairEvent
  | paired (side : Side) (channel pair : Channel)
  | waits (side : Side) (channel : Channel)
  | deleted (side : Side) (channel : Channel)
  | inactive (channel : Channel)
deriving DecidableEq

/-- The lists, the channels that have asked and the channels that are inactive. -/
structure PairState where
  pair : NullProxyPair
  asked : List Channel
  dead : List Channel
deriving DecidableEq

namespace PairState

/-- The state before the first channel. -/
def init : PairState := ⟨.clear, [], []⟩

/-- `isActive`. -/
def isActive (s : PairState) (c : Channel) : Bool := c ∉ s.dead

/-- A channel asks once, while it is active. -/
def Allowed (s : PairState) : PairOp → Prop
  | .ask _ channel => channel ∉ s.asked ∧ channel ∉ s.dead
  | _ => True

instance (s : PairState) (op : PairOp) : Decidable (s.Allowed op) := by
  unfold Allowed
  cases op <;> infer_instance

/-- A channel that is deleted is not taken for another one that waits. -/
def DeletesOwn (s : PairState) : PairOp → Prop
  | .del side channel => s.pair.FindsOwn side channel
  | _ => True

instance (s : PairState) (op : PairOp) : Decidable (s.DeletesOwn op) := by
  unfold DeletesOwn
  cases op <;> infer_instance

/-- One operation. -/
def step (s : PairState) : PairOp → PairState × List PairEvent
  | .ask side channel =>
    let r := s.pair.getPair4 s.isActive side channel
    ({ s with pair := r.2, asked := channel :: s.asked },
      [match r.1 with
        | some pair => .paired side channel pair
        | none => .waits side channel])
  | .del side channel => ({ s with pair := s.pair.del side channel }, [.deleted side channel])
  | .inactive channel => ({ s with dead := channel :: s.dead }, [.inactive channel])

end PairState

/-- The pair under its operations. -/
def pairMachine : Machine PairState PairOp PairEvent := ⟨PairState.step⟩

namespace PairEvent

/-- The channels that were returned. -/
def returned (log : List PairEvent) : List Channel :=
  log.filterMap fun e =>
    match e with
    | .paired _ _ pair => some pair
    | _ => none

/-- An event as it changes who waits on a side. -/
def next (side : Side) (waiting : List Channel) : PairEvent → List Channel
  | .paired s _ pair => if s.other = side then waiting.filter (· ≠ pair) else waiting
  | .waits s channel => if s = side then waiting ++ [channel] else waiting
  | .deleted s channel => if s = side then waiting.filter (· ≠ channel) else waiting
  | .inactive _ => waiting

/-- Who waits on a side, in the order of arrival: the channels that got no pair there and were since then
neither returned nor deleted. -/
def waiting (side : Side) (log : List PairEvent) : List Channel := log.foldl (next side) []

/-- Those of them that are active. -/
def ready (side : Side) (log : List PairEvent) : List Channel :=
  (waiting side log).filter fun c => PairEvent.inactive c ∉ log

@[simp] theorem waiting_concat (side : Side) (log : List PairEvent) (e : PairEvent) :
    waiting side (log ++ [e]) = next side (waiting side log) e := by
  simp [waiting]

/-- A channel that waits has got no pair on this side and was not deleted there afterwards. -/
theorem exists_of_mem_waiting {side : Side} {log : List PairEvent} {c : Channel}
    (h : c ∈ waiting side log) :
    ∃ before after, log = before ++ PairEvent.waits side c :: after ∧ PairEvent.deleted side c ∉ after := by
  induction log using List.reverseRecOn with
  | nil => cases h
  | append_singleton log e ih =>
    have later (hold : c ∈ waiting side log) (he : e ≠ .deleted side c) :
        ∃ before after, log ++ [e] = before ++ PairEvent.waits side c :: after
          ∧ PairEvent.deleted side c ∉ after := by
      obtain ⟨before, after, rfl, hafter⟩ := ih hold
      refine ⟨before, after ++ [e], by simp, ?_⟩
      rw [List.mem_append, List.mem_singleton, not_or]
      exact ⟨hafter, he.symm⟩
    rw [waiting_concat] at h
    cases e with
    | paired s channel pair =>
      rw [next] at h
      split_ifs at h
      · exact later (List.mem_filter.mp h).1 nofun
      · exact later h nofun
    | waits s channel =>
      rw [next] at h
      split_ifs at h with hside
      · rcases List.mem_append.mp h with hold | hnew
        · exact later hold nofun
        · rw [List.mem_singleton] at hnew
          rw [hside, ← hnew]
          exact ⟨log, [], rfl, List.not_mem_nil⟩
      · exact later h nofun
    | deleted s channel =>
      rw [next] at h
      split_ifs at h with hside
      · rw [List.mem_filter, decide_eq_true_iff] at h
        exact later h.1 fun heq => h.2 (PairEvent.deleted.inj heq).2.symm
      · refine later h fun heq => hside (PairEvent.deleted.inj heq).1
    | inactive channel => exact later h nofun

section Ready

variable {side : Side} {log : List PairEvent}

/-- The channel that is found is not ready any more. -/
theorem ready_paired (channel pair : Channel) :
    ready side.other (log ++ [.paired side channel pair]) = (ready side.other log).filter (· ≠ pair) := by
  simp [ready, next, List.filter_filter, Bool.and_comm]

/-- On the side that asks nothing changes. -/
theorem ready_paired_same (channel pair : Channel) :
    ready side (log ++ [.paired side channel pair]) = ready side log := by
  simp [ready, next]

/-- A channel that waits is ready unless it was inactive before. -/
theorem ready_waits {channel : Channel} (h : PairEvent.inactive channel ∉ log) :
    ready side (log ++ [.waits side channel]) = ready side log ++ [channel] := by
  simp [ready, next, h]

/-- On the other side nothing changes. -/
theorem ready_waits_other (channel : Channel) :
    ready side.other (log ++ [.waits side channel]) = ready side.other log := by
  simp [ready, next, (Side.other_ne side).symm]

/-- A channel that is deleted is not ready. -/
theorem ready_deleted (channel : Channel) :
    ready side (log ++ [.deleted side channel]) = (ready side log).filter (· ≠ channel) := by
  simp [ready, next, List.filter_filter, Bool.and_comm]

/-- On the other side nothing changes. -/
theorem ready_deleted_other (channel : Channel) :
    ready side.other (log ++ [.deleted side channel]) = ready side.other log := by
  simp [ready, next, (Side.other_ne side).symm]

/-- A channel that has become inactive is not ready. -/
theorem ready_inactive (channel : Channel) :
    ready side (log ++ [.inactive channel]) = (ready side log).filter (· ≠ channel) := by
  simp [ready, next, List.filter_filter, and_comm]

end Ready

/-- A log in which the pairing is right. -/
structure Pairs (log : List PairEvent) : Prop where
  /-- Every channel is returned at most once. -/
  once : (returned log).Nodup
  /-- A channel that is returned waits on the other side; it is active and was not deleted there. -/
  waited : ∀ before side channel pair after, log = before ++ .paired side channel pair :: after →
    .inactive pair ∉ before
      ∧ ∃ earlier later, before = earlier ++ .waits side.other pair :: later
        ∧ .deleted side.other pair ∉ later
  /-- It is the one that arrived first of the active ones. -/
  inOrder : ∀ before side channel pair after, log = before ++ .paired side channel pair :: after →
    (ready side.other before).head? = some pair
  /-- There are never active channels waiting on both sides. -/
  oneSide : ∀ before after, log = before ++ after → ready .front before = [] ∨ ready .back before = []

/-- The first channel that is ready has waited since some event. -/
theorem waited_of_head? {side : Side} {log : List PairEvent} {pair : Channel}
    (h : (ready side log).head? = some pair) :
    .inactive pair ∉ log ∧ ∃ earlier later, log = earlier ++ .waits side pair :: later
      ∧ .deleted side pair ∉ later := by
  have hmem := List.mem_filter.mp (List.mem_of_mem_head? h)
  exact ⟨of_decide_eq_true hmem.2, exists_of_mem_waiting hmem.1⟩

/-- A place in a log with one more event is the last one or was there before. -/
theorem concat_eq_cases {log before after : List PairEvent} {e x : PairEvent}
    (h : log ++ [e] = before ++ x :: after) :
    (before = log ∧ x = e) ∨ ∃ after', log = before ++ x :: after' := by
  rcases List.eq_nil_or_concat' after with rfl | ⟨after', last, rfl⟩
  · obtain ⟨hlog, hlast⟩ := List.append_inj' h rfl
    exact .inl ⟨hlog.symm, (List.cons.inj hlast).1.symm⟩
  · rw [← List.cons_append, ← List.append_assoc] at h
    exact .inr ⟨after', (List.append_inj' h rfl).1⟩

/-- Another event keeps the order of the pairs, if it gives the first channel that is ready. -/
theorem Pairs.concat {log : List PairEvent} {e : PairEvent} (h : Pairs log)
    (honce : (returned (log ++ [e])).Nodup)
    (hhead : ∀ side channel pair, e = .paired side channel pair →
      (ready side.other log).head? = some pair)
    (hone : ready .front (log ++ [e]) = [] ∨ ready .back (log ++ [e]) = []) : Pairs (log ++ [e]) := by
  refine ⟨honce, ?_, ?_, ?_⟩
  · intro before side channel pair after heq
    rcases concat_eq_cases heq with ⟨rfl, he⟩ | ⟨after', hlog⟩
    · exact waited_of_head? (hhead side channel pair he.symm)
    · exact h.waited before side channel pair after' hlog
  · intro before side channel pair after heq
    rcases concat_eq_cases heq with ⟨rfl, he⟩ | ⟨after', hlog⟩
    · exact hhead side channel pair he.symm
    · exact h.inOrder before side channel pair after' hlog
  · intro before after heq
    cases after with
    | nil =>
      rw [List.append_nil] at heq
      exact heq ▸ hone
    | cons x after =>
      rcases concat_eq_cases heq with ⟨rfl, -⟩ | ⟨after', hlog⟩
      · exact h.oneSide before [] (List.append_nil before).symm
      · exact h.oneSide before (x :: after') hlog

end PairEvent

/-! ## Every run -/

namespace NullProxyPair

variable (p : NullProxyPair) (side : Side) (channel : Channel) (isActive : Channel → Bool)

/-- `getPair4Front` and `getPair4Back` give what `getPair` finds. -/
theorem getPair4_fst : (p.getPair4 isActive side channel).1
    = (getPair isActive (p.list side) channel (p.list side.other)).1 := by cases side <;> rfl

/-- They leave of the list of their own side what `getPair` leaves. -/
theorem list_getPair4 : (p.getPair4 isActive side channel).2.list side
    = (getPair isActive (p.list side) channel (p.list side.other)).2.1 := by cases side <;> rfl

/-- They leave of the other list what `getPair` leaves. -/
theorem list_getPair4_other : (p.getPair4 isActive side channel).2.list side.other
    = (getPair isActive (p.list side) channel (p.list side.other)).2.2 := by cases side <;> rfl

/-- `del` takes away the first channel with the short text. -/
theorem list_del : (p.del side channel).list side
    = (p.list side).eraseP fun c => c.asShortText = channel.asShortText := by cases side <;> rfl

/-- The channel itself is removed, if it waits. -/
theorem list_del_eq_filter {side : Side} {channel : Channel} (h : (p.list side).Nodup)
    (hown : p.FindsOwn side channel) :
    (p.del side channel).list side = (p.list side).filter (· ≠ channel) := by
  rw [list_del]
  cases hfind : (p.list side).find? fun c => c.asShortText = channel.asShortText with
  | none =>
    have hnone := List.find?_eq_none.mp hfind
    rw [List.eraseP_of_forall_not hnone, eq_comm, List.filter_eq_self]
    intro c hc
    refine decide_eq_true fun heq => hnone c hc ?_
    rw [heq, decide_eq_true_eq]
  | some c =>
    obtain rfl := hown c hfind
    obtain ⟨hc, before, after, hlist, hbefore⟩ := List.find?_eq_some_iff_append.mp hfind
    have hbefore' : ∀ d ∈ before, ¬ decide (d.asShortText = c.asShortText) = true := fun d hd => by
      simpa using hbefore d hd
    rw [hlist] at h ⊢
    rw [List.eraseP_append_right _ hbefore', List.eraseP_cons_of_pos
      (p := fun d : Channel => decide (d.asShortText = c.asShortText)) hc, List.filter_append,
      List.filter_cons_of_neg (by simp)]
    obtain ⟨-, hafter, hdisjoint⟩ := List.nodup_append.mp h
    congr 1
    · refine (List.filter_eq_self.mpr fun d hd => decide_eq_true ?_).symm
      exact hdisjoint d hd c List.mem_cons_self
    · refine (List.filter_eq_self.mpr fun d hd => decide_eq_true ?_).symm
      rintro rfl
      exact (List.nodup_cons.mp hafter).1 hd

/-- `del` leaves the other list. -/
theorem list_del_other : (p.del side channel).list side.other = p.list side.other := by
  cases side <;> rfl

end NullProxyPair

/-- There are two sides. -/
theorem Side.forall_iff (side : Side) {P : Side → Prop} : (∀ t, P t) ↔ P side ∧ P side.other := by
  refine ⟨fun h => ⟨h _, h _⟩, fun h t => ?_⟩
  cases side <;> cases t
  · exact h.1
  · exact h.2
  · exact h.2
  · exact h.1

open PairEvent

/-- The state after a run, and what was seen of it. -/
structure PairState.Holds (s : PairState) (log : List PairEvent) : Prop where
  dead : ∀ c, c ∈ s.dead ↔ PairEvent.inactive c ∈ log
  asked : ∀ c ∈ returned log, c ∈ s.asked
  listAsked : ∀ side, ∀ c ∈ s.pair.list side, c ∈ s.asked
  listNodup : ∀ side, (s.pair.list side).Nodup
  notReturned : ∀ side, ∀ c ∈ s.pair.list side, c ∉ returned log
  oneSide : ∀ side, s.pair.list side ≠ [] → s.pair.list side.other = []
  ready : ∀ side, ready side log = (s.pair.list side).filter s.isActive
  pairs : Pairs log

namespace PairState.Holds

/-- Nothing has happened. -/
theorem init : PairState.init.Holds [] where
  dead := by simp [PairState.init]
  asked := by simp [returned]
  listAsked := fun side => by cases side <;> simp [PairState.init, NullProxyPair.clear, NullProxyPair.list]
  listNodup := fun side => by cases side <;> exact List.nodup_nil
  notReturned := fun side => by cases side <;> simp [PairState.init, NullProxyPair.clear, NullProxyPair.list]
  oneSide := fun side h => by cases side <;> rfl
  ready := fun side => by cases side <;> rfl
  pairs :=
    { once := List.nodup_nil
      waited := by simp
      inOrder := by simp
      oneSide := fun before after h => .inl <| by
        rw [(List.append_eq_nil_iff.mp h.symm).1]
        rfl }

variable {s : PairState} {log : List PairEvent}

/-- Where only one side waits, only one side has active channels waiting. -/
theorem ready_eq_nil_of {lists : NullProxyPair} {isActive : Channel → Bool}
    (hready : ∀ side, PairEvent.ready side log = (lists.list side).filter isActive)
    (hone : ∀ side, lists.list side ≠ [] → lists.list side.other = []) :
    PairEvent.ready .front log = [] ∨ PairEvent.ready .back log = [] := by
  by_cases hfront : lists.list .front = []
  · left
    rw [hready, hfront]
    rfl
  · right
    rw [hready, show lists.list .back = [] from hone .front hfront]
    rfl

/-- A channel becomes inactive. -/
theorem step_inactive (h : s.Holds log) (channel : Channel) :
    PairState.Holds { s with dead := channel :: s.dead } (log ++ [.inactive channel]) := by
  have hready (side : Side) : PairEvent.ready side (log ++ [.inactive channel])
      = (s.pair.list side).filter fun c => c ∉ channel :: s.dead := by
    rw [ready_inactive, h.ready, List.filter_filter]
    simp [PairState.isActive]
  exact {
    dead := fun c => by simp [h.dead c, or_comm, eq_comm]
    asked := by simpa [returned] using h.asked
    listAsked := h.listAsked
    listNodup := h.listNodup
    notReturned := by simpa [returned] using h.notReturned
    oneSide := h.oneSide
    ready := hready
    pairs := h.pairs.concat (by simpa [returned] using h.pairs.once) nofun
      (ready_eq_nil_of hready h.oneSide) }

/-- A channel is deleted, and it is the one that is found. -/
theorem step_del (h : s.Holds log) {side : Side} {channel : Channel} (hown : s.pair.FindsOwn side channel) :
    PairState.Holds { s with pair := s.pair.del side channel } (log ++ [.deleted side channel]) := by
  have hlist := s.pair.list_del_eq_filter (h.listNodup side) hown
  have hother := s.pair.list_del_other side channel
  have hsub (t : Side) : (s.pair.del side channel).list t ⊆ s.pair.list t := by
    refine (Side.forall_iff side (P := fun t => _ ⊆ s.pair.list t)).mpr ⟨?_, ?_⟩ t
    · exact hlist ▸ List.filter_subset_self _
    · exact hother ▸ List.Subset.refl _
  have hready : ∀ t, PairEvent.ready t (log ++ [.deleted side channel])
      = ((s.pair.del side channel).list t).filter s.isActive := by
    refine (Side.forall_iff side).mpr ⟨?_, ?_⟩
    · rw [ready_deleted, h.ready, hlist, List.filter_comm]
    · rw [ready_deleted_other, h.ready, hother]
  have hempty (t : Side) (ht : s.pair.list t = []) : (s.pair.del side channel).list t = [] :=
    List.eq_nil_of_subset_nil (ht ▸ hsub t)
  have hone (t : Side) (ht : (s.pair.del side channel).list t ≠ []) :
      (s.pair.del side channel).list t.other = [] :=
    hempty _ (h.oneSide t fun hnil => ht (hempty t hnil))
  exact {
    dead := fun c => by simp [h.dead c]
    asked := by simpa [returned] using h.asked
    listAsked := fun t c hc => h.listAsked t c (hsub t hc)
    listNodup := (Side.forall_iff side).mpr
      ⟨hlist ▸ (h.listNodup side).filter _, hother ▸ h.listNodup side.other⟩
    notReturned := fun t c hc => by simpa [returned] using h.notReturned t c (hsub t hc)
    oneSide := hone
    ready := hready
    pairs := h.pairs.concat (by simpa [returned] using h.pairs.once) nofun
      (ready_eq_nil_of hready hone) }

/-- The channel gets a pair: the inactive channels in front of it are dropped with it. -/
theorem step_paired (h : s.Holds log) {side : Side} {channel pair : Channel} {dead rest : List Channel}
    {lists : NullProxyPair} (hpair : s.pair.list side.other = dead ++ pair :: rest)
    (hdead : ∀ c ∈ dead, s.isActive c = false) (hactive : s.isActive pair = true)
    (hside : lists.list side = s.pair.list side) (hother : lists.list side.other = rest) :
    PairState.Holds { s with pair := lists, asked := channel :: s.asked }
      (log ++ [.paired side channel pair]) := by
  have hnodup : (dead ++ pair :: rest).Nodup := hpair ▸ h.listNodup side.other
  have hpairRest : pair ∉ rest := (List.nodup_cons.mp (List.nodup_append.mp hnodup).2.1).1
  -- Only one side waits at a time: the side that asks has nobody, as the other one has.
  have hnil : s.pair.list side = [] := by
    have hne : s.pair.list side.other ≠ [] := by rw [hpair]; simp
    simpa using h.oneSide side.other hne
  have hmem : pair ∈ s.pair.list side.other := by rw [hpair]; simp
  have hold : PairEvent.ready side.other log = pair :: rest.filter s.isActive := by
    rw [h.ready, hpair, List.filter_append, List.filter_eq_nil_iff.mpr (by simpa using hdead),
      List.nil_append, List.filter_cons_of_pos hactive]
  have hrest : (rest.filter s.isActive).filter (· ≠ pair) = rest.filter s.isActive := by
    rw [List.filter_eq_self]
    intro c hc
    exact decide_eq_true fun heq => hpairRest (heq ▸ (List.mem_filter.mp hc).1)
  -- By the log too it is the first of the ready channels that is taken, and the others stay in order.
  have hready : ∀ t, PairEvent.ready t (log ++ [.paired side channel pair])
      = (lists.list t).filter s.isActive := by
    refine (Side.forall_iff side).mpr ⟨?_, ?_⟩
    · rw [ready_paired_same, h.ready, hside]
    · rw [ready_paired, hold, List.filter_cons_of_neg (by simp), hrest, hother]
  have hsub : ∀ t, lists.list t ⊆ s.pair.list t := by
    refine (Side.forall_iff side).mpr ⟨hside ▸ List.Subset.refl _, ?_⟩
    rw [hother, hpair]
    exact fun c hc => List.mem_append_right _ (List.mem_cons_of_mem _ hc)
  have hreturned : returned (log ++ [.paired side channel pair]) = returned log ++ [pair] := by
    simp [returned]
  have hone : ∀ t, lists.list t ≠ [] → lists.list t.other = [] := by
    refine (Side.forall_iff side).mpr ⟨fun hne => absurd (hside.trans hnil) hne, fun _ => ?_⟩
    rw [Side.other_other, hside, hnil]
  exact {
    dead := fun c => by simp [h.dead c]
    asked := fun c hc => by
      rw [hreturned, List.mem_append, List.mem_singleton] at hc
      rcases hc with hc | rfl
      · exact List.mem_cons_of_mem _ (h.asked c hc)
      · exact List.mem_cons_of_mem _ (h.listAsked _ _ hmem)
    listAsked := fun t c hc => List.mem_cons_of_mem _ (h.listAsked t c (hsub t hc))
    listNodup := (Side.forall_iff side).mpr
      ⟨hside ▸ h.listNodup side, hother ▸ (List.nodup_cons.mp (List.nodup_append.mp hnodup).2.1).2⟩
    notReturned := (Side.forall_iff side).mpr ⟨fun c hc => by simp [hside, hnil] at hc, fun c hc => by
      rw [hreturned, List.mem_append, List.mem_singleton, not_or]
      exact ⟨h.notReturned _ c (hsub _ hc), fun heq => hpairRest (heq ▸ hother ▸ hc)⟩⟩
    oneSide := hone
    ready := hready
    pairs := h.pairs.concat
      (by
        rw [hreturned, ← List.concat_eq_append]
        exact h.pairs.once.concat (h.notReturned _ _ hmem))
      (fun t c p heq => by
        cases heq
        rw [hold]
        rfl)
      (ready_eq_nil_of hready hone) }

/-- The channel gets no pair: every channel on the other side was inactive and is dropped. -/
theorem step_waits (h : s.Holds log) {side : Side} {channel : Channel} {lists : NullProxyPair}
    (hallowed : s.Allowed (.ask side channel)) (hdead : ∀ c ∈ s.pair.list side.other, s.isActive c = false)
    (hside : lists.list side = s.pair.list side ++ [channel]) (hother : lists.list side.other = []) :
    PairState.Holds { s with pair := lists, asked := channel :: s.asked }
      (log ++ [.waits side channel]) := by
  have hactive : s.isActive channel = true := decide_eq_true hallowed.2
  have hready : ∀ t, PairEvent.ready t (log ++ [.waits side channel])
      = (lists.list t).filter s.isActive := by
    refine (Side.forall_iff side).mpr ⟨?_, ?_⟩
    · rw [ready_waits fun hin => hallowed.2 ((h.dead channel).mpr hin), h.ready, hside,
        List.filter_append, List.filter_cons_of_pos hactive, List.filter_nil]
    · rw [ready_waits_other, h.ready, hother, List.filter_eq_nil_iff.mpr (by simpa using hdead),
        List.filter_nil]
  have hreturned : returned (log ++ [.waits side channel]) = returned log := by simp [returned]
  have hone : ∀ t, lists.list t ≠ [] → lists.list t.other = [] := by
    exact (Side.forall_iff side).mpr ⟨fun _ => hother, fun hne => absurd hother hne⟩
  exact {
    dead := fun c => by simp [h.dead c]
    asked := fun c hc => List.mem_cons_of_mem _ (h.asked c (hreturned ▸ hc))
    listAsked := (Side.forall_iff side).mpr ⟨fun c hc => by
      rw [hside, List.mem_append, List.mem_singleton] at hc
      rcases hc with hc | rfl
      · exact List.mem_cons_of_mem _ (h.listAsked side c hc)
      · exact List.mem_cons_self, fun c hc => by simp [hother] at hc⟩
    listNodup := (Side.forall_iff side).mpr
      ⟨by
        rw [hside, ← List.concat_eq_append]
        exact (h.listNodup side).concat fun hmem => hallowed.1 (h.listAsked side channel hmem),
        hother ▸ List.nodup_nil⟩
    notReturned := (Side.forall_iff side).mpr ⟨fun c hc => by
      rw [hside, List.mem_append, List.mem_singleton] at hc
      rw [hreturned]
      rcases hc with hc | rfl
      · exact h.notReturned side c hc
      · exact fun hmem => hallowed.1 (h.asked c hmem), fun c hc => by simp [hother] at hc⟩
    oneSide := hone
    ready := hready
    pairs := h.pairs.concat (hreturned ▸ h.pairs.once) nofun (ready_eq_nil_of hready hone) }

/-- A channel asks for a partner. -/
theorem step_ask (h : s.Holds log) (side : Side) (channel : Channel)
    (hallowed : s.Allowed (.ask side channel)) :
    (s.step (.ask side channel)).1.Holds (log ++ (s.step (.ask side channel)).2) := by
  have hfst := s.pair.getPair4_fst side channel s.isActive
  have hside := s.pair.list_getPair4 side channel s.isActive
  have hother := s.pair.list_getPair4_other side channel s.isActive
  simp only [PairState.step]
  rcases NullProxyPair.getPair_spec s.isActive (s.pair.list side) channel (s.pair.list side.other)
    with ⟨dead, pair, rest, hpair, hdead, hactive, heq⟩ | ⟨hdead, heq⟩
  · rw [heq] at hfst hside hother
    rw [hfst]
    exact h.step_paired hpair hdead hactive hside hother
  · rw [heq] at hfst hside hother
    rw [hfst]
    exact h.step_waits hallowed hdead hside hother

/-- Every event keeps what is known. -/
theorem step (h : s.Holds log) (op : PairOp) (hallowed : s.Allowed op) (hown : s.DeletesOwn op) :
    (s.step op).1.Holds (log ++ (s.step op).2) := by
  cases op with
  | ask side channel => exact h.step_ask side channel hallowed
  | del side channel => exact h.step_del hown
  | inactive channel => exact h.step_inactive channel

end PairState.Holds

/-- In every run in which no deleted channel is taken for another one, every channel is returned at most once and to a
channel of the other side, it is active and not deleted when it is returned, the active waiting channels are returned
in the order of their arrival, and there are never active channels waiting on both sides. -/
theorem nullProxyPair_pairs {ops : List PairOp}
    (h : pairMachine.Along (fun s op => s.Allowed op ∧ s.DeletesOwn op) PairState.init ops) :
    Pairs (pairMachine.outputs PairState.init ops) := by
  have hrun := h.outputs_invariant
    (fun s log op (hs : PairState.Holds s log) hop => hs.step op hop.1 hop.2) PairState.Holds.init
  exact hrun.pairs

/-- Two channels of different short texts wait in front, the first one is deleted, and a channel of the other side gets
the second one. -/
theorem nullProxyPair_pairs_deleted_front :
    Pairs (pairMachine.outputs PairState.init
      [.ask .front ⟨"1".toList, "f1".toList⟩, .ask .front ⟨"2".toList, "f2".toList⟩,
        .del .front ⟨"1".toList, "f1".toList⟩, .ask .back ⟨"3".toList, "b1".toList⟩]) :=
  nullProxyPair_pairs ⟨by decide, by decide, by decide, by decide, trivial⟩

/-- Two channels with different ids and one short text wait in front. The second one is deleted, but the first one is
removed, and a channel of the other side gets the second one. -/
theorem not_nullProxyPair_pairs_same_short :
    ¬ ∀ ops : List PairOp, pairMachine.Along PairState.Allowed PairState.init ops →
      Pairs (pairMachine.outputs PairState.init ops) := by
  intro h
  have hpairs := h [.ask .front ⟨"1".toList, "f".toList⟩, .ask .front ⟨"2".toList, "f".toList⟩,
    .del .front ⟨"2".toList, "f".toList⟩, .ask .back ⟨"3".toList, "b".toList⟩]
    ⟨by decide, by decide, by decide, by decide, trivial⟩
  have hhead := hpairs.inOrder
    [.waits .front ⟨"1".toList, "f".toList⟩, .waits .front ⟨"2".toList, "f".toList⟩,
      .deleted .front ⟨"2".toList, "f".toList⟩] .back ⟨"3".toList, "b".toList⟩ ⟨"2".toList, "f".toList⟩ [] (by decide)
  exact absurd hhead (by decide)

end OrgLittle.Proxy
