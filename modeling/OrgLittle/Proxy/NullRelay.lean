import OrgLittle.Proxy.NullProxyPair

/-!
# The reverse proxy passes on what it reads

`NullProxyFServer` accepts channels on two ports. `initChannel` looks for a waiting channel of the other port, and puts
a handler into the pipeline of each of the two that writes to the other. Channels are read only when `read()` was
called. The events of all channels come in any order. `nullProxy_relays` says what a channel is sent in every run: what
its one partner has sent, in order, and nothing of any other channel.
-/

namespace OrgLittle.Proxy

open OrgLittle.Lib

/-- What happens to the channels: `inactive` closes one, and its handler is told so by `channelInactive` later. -/
inductive RelayOp (M : Type*)
  | initChannel (side : Side) (channel : Channel)
  | channelActive (channel : Channel)
  | channelRead (channel : Channel) (msg : M)
  | inactive (channel : Channel)
  | channelInactive (channel : Channel)
  | exceptionCaught (channel : Channel)

/-- What is seen of it. `closing` is the empty buffer after which a channel is closed. -/
inductive RelayEvent (M : Type*)
  | pairing (e : PairEvent)
  | received (channel : Channel) (msg : M)
  | written (channel : Channel) (msg : M)
  | closing (channel : Channel)
deriving DecidableEq

/-- The pairs that are waited for, the field `out_channel` of the handler of each channel, and the channels for which
`read()` was called. A channel without a handler has no `out_channel`. -/
structure RelayState where
  pairing : PairState
  out_channel : Channel → Option Channel
  requested : List Channel

namespace RelayState

/-- The state before the first channel. -/
def init : RelayState := ⟨.init, fun _ => none, []⟩

/-- `closeOnFlush`. -/
def closeOnFlush {M : Type*} (s : RelayState) (channel : Channel) : List (RelayEvent M) :=
  if s.pairing.isActive channel then [.closing channel] else []

/-- `initChannel` of `NullProxyFFInitializer` or `NullProxyFBInitializer`, with what `getPair4Front` or `getPair4Back`
has returned. -/
def addHandlers (out_channel : Channel → Option Channel) : PairEvent → Channel → Option Channel
  | .paired _ channel pair => Function.update (Function.update out_channel channel (some pair)) pair (some channel)
  | _ => out_channel

variable {M : Type*}

/-- A channel comes once, while it is active, it is read after `read()`, and `channelInactive` comes when it is no
longer active. -/
def Allowed (s : RelayState) : RelayOp M → Prop
  | .initChannel side channel => s.pairing.Allowed (.ask side channel)
  | .channelRead channel _ => channel ∈ s.requested
  | .channelInactive channel => channel ∈ s.pairing.dead
  | _ => True

instance (s : RelayState) (op : RelayOp M) : Decidable (s.Allowed op) := by
  unfold Allowed
  cases op <;> infer_instance

/-- One event, with the handlers `NullProxyFFHandler` and `NullProxyFBHandler`. -/
def step (s : RelayState) : RelayOp M → RelayState × List (RelayEvent M)
  | .initChannel side channel =>
    let (pairing, events) := s.pairing.step (.ask side channel)
    ({ s with pairing, out_channel := events.foldl addHandlers s.out_channel }, events.map .pairing)
  | .channelActive channel =>
    match s.out_channel channel with
    | some out => ({ s with requested := channel :: out :: s.requested }, [])
    | none => (s, [])
  | .channelRead channel msg =>
    (s, .received channel msg ::
      match s.out_channel channel with
      | some out => if s.pairing.isActive out then [.written out msg] else []
      | none => [])
  | .inactive channel =>
    let (pairing, events) := s.pairing.step (.inactive channel)
    ({ s with pairing }, events.map .pairing)
  | .channelInactive channel =>
    match s.out_channel channel with
    | some out => ({ s with out_channel := Function.update s.out_channel channel none }, s.closeOnFlush out)
    | none => (s, [])
  | .exceptionCaught channel => (s, s.closeOnFlush channel)

end RelayState

/-- The front server under its events. -/
def relayMachine (M : Type*) : Machine RelayState (RelayOp M) (RelayEvent M) := ⟨RelayState.step⟩

namespace RelayEvent

variable {M : Type*}

/-- The pairs that were made. -/
def pairings (log : List (RelayEvent M)) : List PairEvent :=
  log.filterMap fun e =>
    match e with
    | .pairing e => some e
    | _ => none

/-- What was read from a channel. -/
def receivedFrom (x : Channel) (log : List (RelayEvent M)) : List M :=
  log.filterMap fun e =>
    match e with
    | .received c msg => if c = x then some msg else none
    | _ => none

/-- What was written to a channel. -/
def writtenTo (y : Channel) (log : List (RelayEvent M)) : List M :=
  log.filterMap fun e =>
    match e with
    | .written c msg => if c = y then some msg else none
    | _ => none

/-- The two channels were made a pair. -/
def Linked (log : List (RelayEvent M)) (x y : Channel) : Prop :=
  ∃ side, .paired side x y ∈ pairings log ∨ .paired side y x ∈ pairings log

/-- What a run does with the messages. -/
structure Relayed (s : RelayState) (log : List (RelayEvent M)) : Prop where
  /-- No channel has two partners. -/
  one : ∀ x y y', Linked log x y → Linked log x y' → y = y'
  /-- A channel without a partner is sent nothing. -/
  only : ∀ y, writtenTo y log ≠ [] → ∃ x, Linked log x y
  /-- Nothing is passed on twice or in another order, and what is lost comes at the end. -/
  order : ∀ x y, Linked log x y → writtenTo y log <+: receivedFrom x log
  /-- Nothing is lost while both are active. -/
  complete : ∀ x y, Linked log x y → .inactive x ∉ pairings log → .inactive y ∉ pairings log →
    writtenTo y log = receivedFrom x log
  /-- When the handler of a channel knows that it is inactive, the partner is closed or is being closed. -/
  closes : ∀ x y, Linked log x y → s.out_channel x = none → .closing y ∈ log ∨ .inactive y ∈ pairings log

/-- Two channels are partners of one another. -/
theorem Linked.symm {log : List (RelayEvent M)} {x y : Channel} (h : Linked log x y) : Linked log y x := by
  obtain ⟨side, h⟩ := h
  exact ⟨side, h.symm⟩

section append

variable (log log' : List (RelayEvent M))

@[simp] theorem pairings_append : pairings (log ++ log') = pairings log ++ pairings log' := List.filterMap_append

@[simp] theorem receivedFrom_append (x : Channel) :
    receivedFrom x (log ++ log') = receivedFrom x log ++ receivedFrom x log' := List.filterMap_append

@[simp] theorem writtenTo_append (y : Channel) :
    writtenTo y (log ++ log') = writtenTo y log ++ writtenTo y log' := List.filterMap_append

/-- Links are never undone. -/
theorem linked_append (x y : Channel) : Linked (log ++ log') x y ↔ Linked log x y ∨ Linked log' x y := by
  simp only [Linked, pairings_append, List.mem_append]
  rw [← exists_or]
  exact exists_congr fun side => or_or_or_comm

variable {log'} in
/-- Events that make no pair. -/
theorem linked_append_iff (h : pairings log' = []) (x y : Channel) : Linked (log ++ log') x y ↔ Linked log x y := by
  rw [linked_append, or_iff_left]
  rintro ⟨side, hmem | hmem⟩
  · exact List.not_mem_nil (h ▸ hmem)
  · exact List.not_mem_nil (h ▸ hmem)

end append

@[simp] theorem pairings_map (events : List PairEvent) :
    pairings (events.map (pairing : PairEvent → RelayEvent M)) = events := by
  simp [pairings, List.filterMap_map]

/-- The log of one event. -/
theorem pairings_singleton (e : PairEvent) : pairings ([.pairing e] : List (RelayEvent M)) = [e] := rfl

@[simp] theorem receivedFrom_map (x : Channel) (events : List PairEvent) :
    receivedFrom x (events.map (pairing : PairEvent → RelayEvent M)) = [] := by
  simp [receivedFrom, List.filterMap_map]

@[simp] theorem writtenTo_map (x : Channel) (events : List PairEvent) :
    writtenTo x (events.map (pairing : PairEvent → RelayEvent M)) = [] := by
  simp [writtenTo, List.filterMap_map]

end RelayEvent

/-! ## Every run -/

/-- What `initChannel` finds: a channel that waits on the other side, or nothing. -/
theorem PairState.step_ask_cases (s : PairState) (side : Side) (channel : Channel) :
    (∃ pair, (s.step (.ask side channel)).2 = [.paired side channel pair] ∧ pair ∈ s.pair.list side.other
        ∧ s.isActive pair = true ∧ ∀ t, (s.step (.ask side channel)).1.pair.list t ⊆ s.pair.list t)
      ∨ (s.step (.ask side channel)).2 = [.waits side channel]
        ∧ ∀ t, ∀ c ∈ (s.step (.ask side channel)).1.pair.list t, c = channel ∨ c ∈ s.pair.list t := by
  have hfst := s.pair.getPair4_fst side channel s.isActive
  have hside := s.pair.list_getPair4 side channel s.isActive
  have hother := s.pair.list_getPair4_other side channel s.isActive
  simp only [PairState.step]
  rcases NullProxyPair.getPair_spec s.isActive (s.pair.list side) channel (s.pair.list side.other)
    with ⟨dead, pair, rest, hpair, -, hactive, heq⟩ | ⟨-, heq⟩
  · rw [heq] at hfst hside hother
    rw [hfst]
    refine .inl ⟨pair, rfl, hpair ▸ List.mem_append_right _ List.mem_cons_self, hactive, ?_⟩
    refine (Side.forall_iff side).mpr ⟨hside ▸ List.Subset.refl _, ?_⟩
    rw [hother, hpair]
    exact fun c hc => List.mem_append_right _ (List.mem_cons_of_mem _ hc)
  · rw [heq] at hfst hside hother
    rw [hfst]
    refine .inr ⟨rfl, (Side.forall_iff side).mpr ⟨fun c hc => ?_, fun c hc => ?_⟩⟩
    · rw [hside] at hc
      exact (List.mem_append.mp hc).symm.imp_left List.mem_singleton.mp
    · rw [hother] at hc
      cases hc

open RelayEvent

variable {M : Type*}

/-- What is known of the server and of what was seen. -/
structure RelayState.Inv (s : RelayState) (log : List (RelayEvent M)) : Prop where
  holds : s.pairing.Holds (pairings log)
  asked : ∀ x y, Linked log x y → x ∈ s.pairing.asked
  waiting : ∀ t, ∀ c ∈ s.pairing.pair.list t, ∀ y, ¬ Linked log c y
  one : ∀ x y y', Linked log x y → Linked log x y' → y = y'
  out : ∀ x y, s.out_channel x = some y → Linked log x y
  gone : ∀ x y, Linked log x y → s.out_channel x = none →
    x ∈ s.pairing.dead ∧ (.closing y ∈ log ∨ y ∈ s.pairing.dead)
  requested : ∀ c ∈ s.requested, ∃ y, Linked log c y
  quiet : ∀ c, (∀ y, ¬ Linked log c y) → receivedFrom c log = [] ∧ writtenTo c log = []
  order : ∀ x y, Linked log x y → writtenTo y log <+: receivedFrom x log
  complete : ∀ x y, s.out_channel x = some y → y ∉ s.pairing.dead → writtenTo y log = receivedFrom x log

namespace RelayState.Inv

variable {s : RelayState} {log : List (RelayEvent M)}

/-- Nothing has happened. -/
theorem init : RelayState.init.Inv ([] : List (RelayEvent M)) where
  holds := .init
  asked := by rintro x y ⟨side, h | h⟩ <;> cases h
  waiting := by rintro t c hc y ⟨side, h | h⟩ <;> cases h
  one := by rintro x y y' ⟨side, h | h⟩ <;> cases h
  out := nofun
  gone := by rintro x y ⟨side, h | h⟩ <;> cases h
  requested := nofun
  quiet := fun c _ => ⟨rfl, rfl⟩
  order := by rintro x y ⟨side, h | h⟩ <;> cases h
  complete := nofun

/-- A partner does not change. -/
theorem out_unique (h : s.Inv log) {x y y' : Channel} (hout : s.out_channel x = some y) (hlinked : Linked log x y') :
    y' = y := h.one x y' y hlinked (h.out x y hout)

/-- A step that makes no pair and carries no message. A handler may give up its partner when its channel is inactive
and the partner is closed. -/
theorem silent (h : s.Inv log) {s' : RelayState} {events : List (RelayEvent M)}
    (hholds : s'.pairing.Holds (pairings (log ++ events))) (hlinked : ∀ x y, ¬ Linked events x y)
    (hreceived : ∀ x, receivedFrom x events = []) (hwritten : ∀ y, writtenTo y events = [])
    (hasked : s.pairing.asked ⊆ s'.pairing.asked)
    (hwaiting : ∀ t, ∀ c ∈ s'.pairing.pair.list t, ∀ y, ¬ Linked log c y)
    (hdead : s.pairing.dead ⊆ s'.pairing.dead) (hrequested : ∀ c ∈ s'.requested, ∃ y, Linked log c y)
    (hout : ∀ x, s'.out_channel x = s.out_channel x ∨ s'.out_channel x = none ∧ x ∈ s'.pairing.dead
      ∧ ∀ y, s.out_channel x = some y → .closing y ∈ events ∨ y ∈ s'.pairing.dead) :
    s'.Inv (log ++ events) := by
  have hlog (x y : Channel) : Linked (log ++ events) x y ↔ Linked log x y := by
    rw [linked_append, or_iff_left (hlinked x y)]
  -- The step may only take links away, and where it does both ends are closed or about to be.
  have hold {x y : Channel} (hxy : s'.out_channel x = some y) : s.out_channel x = some y := by
    rcases hout x with heq | ⟨hnone, -, -⟩
    · rw [← heq, hxy]
    · cases hnone.symm.trans hxy
  exact {
    holds := hholds
    asked := fun x y hxy => hasked (h.asked x y ((hlog x y).mp hxy))
    waiting := fun t c hc y hcy => hwaiting t c hc y ((hlog c y).mp hcy)
    one := fun x y y' hxy hxy' => h.one x y y' ((hlog x y).mp hxy) ((hlog x y').mp hxy')
    out := fun x y hxy => (hlog x y).mpr (h.out x y (hold hxy))
    gone := by
      intro x y hxy hnone
      have hxy := (hlog x y).mp hxy
      have hkept (hgone : s.out_channel x = none) :
          x ∈ s'.pairing.dead ∧ (.closing y ∈ log ++ events ∨ y ∈ s'.pairing.dead) := by
        obtain ⟨hx, hy⟩ := h.gone x y hxy hgone
        exact ⟨hdead hx, hy.imp (List.mem_append_left events) fun hy => hdead hy⟩
      rcases hout x with heq | ⟨-, hx, hclosed⟩
      · exact hkept (heq ▸ hnone)
      · cases hsome : s.out_channel x with
        | none => exact hkept hsome
        | some y' =>
          rw [h.out_unique hsome hxy]
          exact ⟨hx, (hclosed y' hsome).imp_left (List.mem_append_right log)⟩
    requested := fun c hc => (hrequested c hc).imp fun y hcy => (hlog c y).mpr hcy
    quiet := fun c hc => by
      rw [receivedFrom_append, writtenTo_append, hreceived, hwritten, List.append_nil, List.append_nil]
      exact h.quiet c fun y hcy => hc y ((hlog c y).mpr hcy)
    order := fun x y hxy => by
      rw [receivedFrom_append, writtenTo_append, hreceived, hwritten, List.append_nil, List.append_nil]
      exact h.order x y ((hlog x y).mp hxy)
    complete := fun x y hxy hy => by
      rw [receivedFrom_append, writtenTo_append, hreceived, hwritten, List.append_nil, List.append_nil]
      exact h.complete x y (hold hxy) fun hin => hy (hdead hin) }

/-- A message goes to the partner, if there is one. -/
theorem step_channelRead (h : s.Inv log) {channel : Channel} (hrequested : channel ∈ s.requested) (msg : M) :
    (s.step (.channelRead channel msg)).1.Inv (log ++ (s.step (.channelRead channel msg)).2) := by
  set events := (s.step (.channelRead channel msg)).2 with hevents
  have hpairings : pairings events = [] := by
    rw [hevents, step]
    split
    · split_ifs <;> rfl
    · rfl
  have hlinked := linked_append_iff log hpairings
  have hreceived (x : Channel) : receivedFrom x events = if channel = x then [msg] else [] := by
    rw [hevents, step]
    dsimp only
    split
    · split_ifs <;> simp_all [receivedFrom]
    · split_ifs <;> simp_all [receivedFrom]
  have hwritten (y : Channel) :
      writtenTo y events = if s.out_channel channel = some y ∧ y ∉ s.pairing.dead then [msg] else [] := by
    rw [hevents, step]
    dsimp only
    cases hout : s.out_channel channel with
    | none => simp [writtenTo]
    | some out =>
      by_cases hy : out = y
      · subst hy
        by_cases hdead : out ∈ s.pairing.dead <;> simp [writtenTo, PairState.isActive, hdead]
      · by_cases hdead : out ∈ s.pairing.dead <;> simp [writtenTo, PairState.isActive, hdead, hy]
  obtain ⟨partner, hpartner⟩ := h.requested channel hrequested
  exact {
    holds := by rw [pairings_append, hpairings, List.append_nil]; exact h.holds
    asked := fun x y hxy => h.asked x y ((hlinked x y).mp hxy)
    waiting := fun t c hc y hcy => h.waiting t c hc y ((hlinked c y).mp hcy)
    one := fun x y y' hxy hxy' => h.one x y y' ((hlinked x y).mp hxy) ((hlinked x y').mp hxy')
    out := fun x y hxy => (hlinked x y).mpr (h.out x y hxy)
    gone := fun x y hxy hnone => (h.gone x y ((hlinked x y).mp hxy) hnone).imp_right
      (Or.imp_left (List.mem_append_left events))
    requested := fun c hc => (h.requested c hc).imp fun y hcy => (hlinked c y).mpr hcy
    quiet := by
      intro c hc
      have hnone (y : Channel) : ¬ Linked log c y := fun hcy => hc y ((hlinked c y).mpr hcy)
      have hne : channel ≠ c := fun heq => hnone partner (heq ▸ hpartner)
      have hout : ¬ (s.out_channel channel = some c ∧ c ∉ s.pairing.dead) :=
        fun hc => hnone channel (h.out channel c hc.1).symm
      rw [receivedFrom_append, writtenTo_append, hreceived, hwritten, if_neg hne, if_neg hout, List.append_nil,
        List.append_nil]
      exact h.quiet c hnone
    order := by
      intro x y hxy
      have hxy := (hlinked x y).mp hxy
      rw [receivedFrom_append, writtenTo_append, hreceived, hwritten]
      by_cases hsent : s.out_channel channel = some y ∧ y ∉ s.pairing.dead
      · -- the only channel that writes to `y` is its partner
        have hx : channel = x := h.one y channel x (h.out channel y hsent.1).symm hxy.symm
        rw [if_pos hsent, if_pos hx, h.complete x y (hx ▸ hsent.1) hsent.2]
      · rw [if_neg hsent, List.append_nil]
        exact (h.order x y hxy).trans (List.prefix_append _ _)
    complete := by
      intro x y hxy hy
      rw [receivedFrom_append, writtenTo_append, hreceived, hwritten, h.complete x y hxy hy]
      by_cases hx : channel = x
      · rw [if_pos hx, if_pos ⟨hx ▸ hxy, hy⟩]
      · rw [if_neg hx, if_neg]
        exact fun hsent => hx (h.one y channel x (h.out channel y hsent.1).symm (h.out x y hxy).symm) }

/-- A channel that is active is read. -/
theorem step_channelActive (h : s.Inv log) (channel : Channel) :
    (s.step (.channelActive channel : RelayOp M)).1.Inv (log ++ (s.step (.channelActive channel)).2) := by
  rw [step]
  split
  · next out hout =>
    rw [List.append_nil]
    have hlinked := h.out channel out hout
    refine { h with requested := fun c hc => ?_ }
    rcases List.mem_cons.mp hc with rfl | hc
    · exact ⟨out, hlinked⟩
    · rcases List.mem_cons.mp hc with rfl | hc
      · exact ⟨channel, hlinked.symm⟩
      · exact h.requested c hc
  · rw [List.append_nil]
    exact h

/-- A channel is closed. -/
theorem step_inactive (h : s.Inv log) (channel : Channel) :
    (s.step (.inactive channel : RelayOp M)).1.Inv (log ++ (s.step (.inactive channel)).2) := by
  refine h.silent ?_ ?_ (fun x => receivedFrom_map x _) (fun y => writtenTo_map y _)
    (List.Subset.refl _) h.waiting (List.subset_cons_self _ _) h.requested fun x => .inl rfl
  · rw [step, pairings_append, pairings_map]
    exact h.holds.step_inactive channel
  · rintro x y ⟨side, hmem⟩
    simp [step, PairState.step, pairings] at hmem

/-- `closeOnFlush` makes no pair and carries no message. -/
theorem of_closeOnFlush (h : s.Inv log) {s' : RelayState} (channel : Channel) (hpairing : s'.pairing = s.pairing)
    (hrequested : s'.requested = s.requested)
    (hout : ∀ x, s'.out_channel x = s.out_channel x ∨ s'.out_channel x = none ∧ x ∈ s.pairing.dead
      ∧ ∀ y, s.out_channel x = some y → y = channel) :
    s'.Inv (log ++ s.closeOnFlush channel) := by
  have hevents : pairings (s.closeOnFlush channel : List (RelayEvent M)) = [] := by
    rw [closeOnFlush]
    split_ifs <;> rfl
  refine h.silent ?_ ?_ ?_ ?_ (hpairing ▸ List.Subset.refl _) (hpairing ▸ h.waiting) (hpairing ▸ List.Subset.refl _)
    (hrequested ▸ h.requested) ?_
  · rw [pairings_append, hevents, List.append_nil, hpairing]
    exact h.holds
  · rintro x y ⟨side, hmem⟩
    simp [hevents] at hmem
  · intro x
    rw [closeOnFlush]
    split_ifs <;> rfl
  · intro y
    rw [closeOnFlush]
    split_ifs <;> rfl
  · refine fun x => (hout x).imp_right fun ⟨hnone, hx, hy⟩ => ⟨hnone, hpairing ▸ hx, fun y hsome => ?_⟩
    rw [hy y hsome, hpairing, closeOnFlush]
    by_cases hdead : channel ∈ s.pairing.dead
    · exact .inr hdead
    · rw [if_pos (show s.pairing.isActive channel = true from decide_eq_true hdead)]
      exact .inl (List.mem_singleton_self _)

/-- The handler of a closed channel closes its partner. -/
theorem step_channelInactive (h : s.Inv log) {channel : Channel} (hdead : channel ∈ s.pairing.dead) :
    (s.step (.channelInactive channel : RelayOp M)).1.Inv (log ++ (s.step (.channelInactive channel)).2) := by
  rw [step]
  split
  · next out hout =>
    refine h.of_closeOnFlush out rfl rfl fun x => ?_
    by_cases hx : x = channel
    · subst hx
      refine .inr ⟨Function.update_self .., hdead, fun y hy => ?_⟩
      exact Option.some.inj (hy.symm.trans hout)
    · exact .inl (Function.update_of_ne hx ..)
  · rw [List.append_nil]
    exact h

/-- An exception closes the channel. -/
theorem step_exceptionCaught (h : s.Inv log) (channel : Channel) :
    (s.step (.exceptionCaught channel : RelayOp M)).1.Inv (log ++ (s.step (.exceptionCaught channel)).2) :=
  h.of_closeOnFlush channel rfl rfl fun _ => .inl rfl

/-! ### A pair is made -/

/-- A pairing links both ways. -/
theorem linked_paired_iff {side : Side} {channel pair : Channel} (x y : Channel) :
    Linked (log ++ [.pairing (.paired side channel pair)]) x y
      ↔ Linked log x y ∨ (x = channel ∧ y = pair ∨ x = pair ∧ y = channel) := by
  rw [linked_append]
  refine or_congr_right ⟨?_, ?_⟩
  · rintro ⟨t, hmem | hmem⟩
    · rw [pairings_singleton, List.mem_singleton] at hmem
      cases hmem
      exact .inl ⟨rfl, rfl⟩
    · rw [pairings_singleton, List.mem_singleton] at hmem
      cases hmem
      exact .inr ⟨rfl, rfl⟩
  · rintro (⟨rfl, rfl⟩ | ⟨rfl, rfl⟩)
    · exact ⟨side, .inl List.mem_cons_self⟩
    · exact ⟨side, .inr List.mem_cons_self⟩

theorem receivedFrom_pairing (x : Channel) (e : PairEvent) :
    receivedFrom x (log ++ [.pairing e]) = receivedFrom x log := by
  rw [receivedFrom_append]
  exact List.append_nil _

theorem writtenTo_pairing (y : Channel) (e : PairEvent) : writtenTo y (log ++ [.pairing e]) = writtenTo y log := by
  rw [writtenTo_append]
  exact List.append_nil _

/-- Each of the two writes to the other. -/
theorem addHandlers_paired (out_channel : Channel → Option Channel) (side : Side) (channel pair x : Channel) :
    RelayState.addHandlers out_channel (.paired side channel pair) x
      = if x = pair then some channel else if x = channel then some pair else out_channel x := by
  simp only [RelayState.addHandlers, Function.update_apply]

section paired

variable {side : Side} {channel pair x y : Channel}

/-- Two channels that had no partner have one each. -/
theorem one_of_paired (h : s.Inv log) (hchannel : ∀ y, ¬ Linked log channel y) (hpair : ∀ y, ¬ Linked log pair y)
    (hne : channel ≠ pair) {y' : Channel} (hxy : Linked (log ++ [.pairing (.paired side channel pair)]) x y)
    (hxy' : Linked (log ++ [.pairing (.paired side channel pair)]) x y') : y = y' := by
  rw [linked_paired_iff] at hxy hxy'
  rcases hxy with hold | ⟨rfl, rfl⟩ | ⟨rfl, rfl⟩
  · rcases hxy' with hold' | ⟨rfl, -⟩ | ⟨rfl, -⟩
    · exact h.one x y y' hold hold'
    · exact absurd hold (hchannel y)
    · exact absurd hold (hpair y)
  · rcases hxy' with hold' | ⟨-, rfl⟩ | ⟨heq, -⟩
    · exact absurd hold' (hchannel y')
    · rfl
    · exact absurd heq hne
  · rcases hxy' with hold' | ⟨heq, -⟩ | ⟨-, rfl⟩
    · exact absurd hold' (hpair y')
    · exact absurd heq.symm hne
    · rfl

/-- A channel writes to the one it is linked with. -/
theorem out_of_paired (h : s.Inv log)
    (hxy : RelayState.addHandlers s.out_channel (.paired side channel pair) x = some y) :
    Linked (log ++ [.pairing (.paired side channel pair)]) x y := by
  rw [linked_paired_iff]
  rw [addHandlers_paired] at hxy
  split_ifs at hxy with hx hx'
  · cases hxy
    exact .inr (.inr ⟨hx, rfl⟩)
  · cases hxy
    exact .inr (.inl ⟨hx', rfl⟩)
  · exact .inl (h.out x y hxy)

/-- The two have their partners, so that what is gone was gone before. -/
theorem gone_of_paired (h : s.Inv log) (hxy : Linked (log ++ [.pairing (.paired side channel pair)]) x y)
    (hnone : RelayState.addHandlers s.out_channel (.paired side channel pair) x = none) :
    x ∈ s.pairing.dead
      ∧ (.closing y ∈ log ++ [.pairing (.paired side channel pair)] ∨ y ∈ s.pairing.dead) := by
  rw [addHandlers_paired] at hnone
  split_ifs at hnone with hx hx'
  have hold : Linked log x y := ((linked_paired_iff x y).mp hxy).resolve_right fun hnew =>
    hnew.elim (fun hnew => hx' hnew.1) fun hnew => hx hnew.1
  exact (h.gone x y hold hnone).imp_right (Or.imp_left (List.mem_append_left _))

/-- Nothing was read from the two, and nothing written to them. -/
theorem order_of_paired (h : s.Inv log) (hchannel : ∀ y, ¬ Linked log channel y) (hpair : ∀ y, ¬ Linked log pair y)
    (hxy : Linked (log ++ [.pairing (.paired side channel pair)]) x y) :
    writtenTo y (log ++ [.pairing (.paired side channel pair)])
      <+: receivedFrom x (log ++ [.pairing (.paired side channel pair)]) := by
  rw [receivedFrom_pairing, writtenTo_pairing]
  rcases (linked_paired_iff x y).mp hxy with hxy | ⟨rfl, rfl⟩ | ⟨rfl, rfl⟩
  · exact h.order x y hxy
  · rw [(h.quiet _ hpair).2]
    exact List.nil_prefix
  · rw [(h.quiet _ hchannel).2]
    exact List.nil_prefix

/-- Nothing has been read or written yet by the two that are paired. -/
theorem complete_of_paired (h : s.Inv log) (hchannel : ∀ y, ¬ Linked log channel y) (hpair : ∀ y, ¬ Linked log pair y)
    (hxy : RelayState.addHandlers s.out_channel (.paired side channel pair) x = some y) (hy : y ∉ s.pairing.dead) :
    writtenTo y (log ++ [.pairing (.paired side channel pair)])
      = receivedFrom x (log ++ [.pairing (.paired side channel pair)]) := by
  rw [receivedFrom_pairing, writtenTo_pairing]
  rw [addHandlers_paired] at hxy
  split_ifs at hxy with hx hx'
  · cases hxy
    rw [hx, (h.quiet _ hpair).1, (h.quiet _ hchannel).2]
  · cases hxy
    rw [hx', (h.quiet _ hpair).2, (h.quiet _ hchannel).1]
  · exact h.complete x y hxy hy

end paired

/-- A channel that comes gets a partner that waited: neither had one. -/
theorem paired (h : s.Inv log) {s' : PairState} {side : Side} {channel pair : Channel}
    (hchannel : channel ∉ s.pairing.asked) (hpair : pair ∈ s.pairing.pair.list side.other)
    (hholds : s'.Holds (pairings log ++ [.paired side channel pair])) (hdead : s'.dead = s.pairing.dead)
    (hasked : s'.asked = channel :: s.pairing.asked) (hlist : ∀ t, s'.pair.list t ⊆ s.pairing.pair.list t) :
    RelayState.Inv { s with
        pairing := s'
        out_channel := RelayState.addHandlers s.out_channel (.paired side channel pair) }
      (log ++ [.pairing (.paired side channel pair)]) := by
  have hchannelAlone (y : Channel) : ¬ Linked log channel y := fun hy => hchannel (h.asked channel y hy)
  have hpairAlone (y : Channel) : ¬ Linked log pair y := h.waiting side.other pair hpair y
  have hpairAsked : pair ∈ s.pairing.asked := h.holds.listAsked side.other pair hpair
  have hne : channel ≠ pair := fun heq => hchannel (heq ▸ hpairAsked)
  exact {
    holds := by rw [pairings_append]; exact hholds
    asked := by
      intro x y hxy
      rw [hasked]
      rcases (linked_paired_iff x y).mp hxy with hxy | ⟨rfl, -⟩ | ⟨rfl, -⟩
      · exact List.mem_cons_of_mem _ (h.asked x y hxy)
      · exact List.mem_cons_self
      · exact List.mem_cons_of_mem _ hpairAsked
    waiting := by
      intro t c hc y hcy
      rcases (linked_paired_iff c y).mp hcy with hcy | ⟨rfl, -⟩ | ⟨rfl, -⟩
      · exact h.waiting t c (hlist t hc) y hcy
      · exact hchannel (h.holds.listAsked t c (hlist t hc))
      · exact hholds.notReturned t c hc (by simp [PairEvent.returned])
    one := fun x y y' => h.one_of_paired hchannelAlone hpairAlone hne
    out := fun x y => h.out_of_paired
    gone := fun x y hxy hnone => by
      rw [hdead]
      exact h.gone_of_paired hxy hnone
    requested := fun c hc => (h.requested c hc).imp fun y hcy => (linked_paired_iff c y).mpr (.inl hcy)
    quiet := by
      intro c hc
      rw [receivedFrom_pairing, writtenTo_pairing]
      exact h.quiet c fun y hcy => hc y ((linked_paired_iff c y).mpr (.inl hcy))
    order := fun x y => h.order_of_paired hchannelAlone hpairAlone
    complete := fun x y hxy hy => h.complete_of_paired hchannelAlone hpairAlone hxy (hdead ▸ hy) }

/-- A channel that comes gets a partner or waits. -/
theorem step_initChannel (h : s.Inv log) {side : Side} {channel : Channel}
    (hallowed : s.pairing.Allowed (.ask side channel)) :
    (s.step (.initChannel side channel : RelayOp M)).1.Inv (log ++ (s.step (.initChannel side channel)).2) := by
  have hholds := h.holds.step_ask side channel hallowed
  rcases s.pairing.step_ask_cases side channel with ⟨pair, hevents, hpair, -, hlist⟩ | ⟨hevents, hlist⟩
  · simp only [step]
    rw [hevents] at hholds ⊢
    exact h.paired hallowed.1 hpair hholds rfl rfl hlist
  · simp only [step]
    rw [hevents] at hholds ⊢
    refine h.silent ?_ ?_ (fun x => receivedFrom_map x _) (fun y => writtenTo_map y _) (List.subset_cons_self _ _) ?_
      (List.Subset.refl _) h.requested fun x => .inl rfl
    · rw [pairings_append, pairings_map]
      exact hholds
    · rintro x y ⟨t, hmem⟩
      simp [pairings] at hmem
    · intro t c hc y hcy
      rcases hlist t c hc with rfl | hc
      · exact hallowed.1 (h.asked c y hcy)
      · exact h.waiting t c hc y hcy

/-- Every event keeps what is known. -/
theorem step (h : s.Inv log) (op : RelayOp M) (hallowed : s.Allowed op) :
    (s.step op).1.Inv (log ++ (s.step op).2) := by
  cases op with
  | initChannel side channel => exact h.step_initChannel hallowed
  | channelActive channel => exact h.step_channelActive channel
  | channelRead channel msg => exact h.step_channelRead hallowed msg
  | inactive channel => exact h.step_inactive channel
  | channelInactive channel => exact h.step_channelInactive hallowed
  | exceptionCaught channel => exact h.step_exceptionCaught channel

/-- What is known says what was relayed. -/
theorem relayed (h : s.Inv log) : Relayed s log where
  one := h.one
  only := fun y hne => by
    by_contra hnone
    exact hne (h.quiet y fun x hyx => hnone ⟨x, hyx.symm⟩).2
  order := h.order
  complete := by
    intro x y hxy hx hy
    rw [← h.holds.dead] at hx hy
    cases hout : s.out_channel x with
    | none => exact absurd (h.gone x y hxy hout).1 hx
    | some y' =>
      rw [h.out_unique hout hxy]
      exact h.complete x y' hout fun hin => hy (h.out_unique hout hxy ▸ hin)
  closes := fun x y hxy hnone => (h.gone x y hxy hnone).2.imp_right (h.holds.dead y).mp

end RelayState.Inv

/-- In every run, what is written to a channel is what was read from its one partner, in order, and only the end of it
can be missing, after one of the two became inactive. -/
theorem nullProxy_relays {ops : List (RelayOp M)} (h : (relayMachine M).Along RelayState.Allowed RelayState.init ops) :
    Relayed ((relayMachine M).run RelayState.init ops) ((relayMachine M).outputs RelayState.init ops) :=
  (h.outputs_invariant
    (fun s log op (hs : RelayState.Inv s log) hallowed => hs.step op hallowed) RelayState.Inv.init).relayed

/-- `b` waits, `f` gets it and both are read. What `f` sends after `b` is inactive goes nowhere, and `f` is closed. -/
theorem nullProxy_relays_one_pair :
    let f : Channel := ⟨"1".toList, "f".toList⟩
    let b : Channel := ⟨"2".toList, "b".toList⟩
    let ops : List (RelayOp ℕ) := [.initChannel .back b, .channelActive b, .initChannel .front f, .channelActive f,
      .channelRead f 1, .channelRead b 2, .channelRead f 3, .inactive b, .channelRead f 4, .channelInactive b]
    Relayed ((relayMachine ℕ).run RelayState.init ops) ((relayMachine ℕ).outputs RelayState.init ops)
      ∧ (relayMachine ℕ).outputs RelayState.init ops
        = [.pairing (.waits .back b), .pairing (.paired .front f b), .received f 1, .written b 1, .received b 2,
          .written f 2, .received f 3, .written b 3, .pairing (.inactive b), .received f 4, .closing f] :=
  ⟨nullProxy_relays ⟨by decide, trivial, by decide, trivial, by decide, by decide, by decide, trivial, by decide,
    by decide, trivial⟩, by decide⟩

end OrgLittle.Proxy
