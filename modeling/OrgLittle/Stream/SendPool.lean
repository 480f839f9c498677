import OrgLittle.Java.LetterCase
import OrgLittle.Stream.User

/-!
# `_ufpsChPool` and `ufpsTSendPoolData`

A pool sends the frames of the transfer queue to the first of its channels that is open. Its channels are picked out
of the configuration by a subtype. They are picked in the constructor of the base class, where the subtype is still
`no_subtype_channel`; the subclass sets it to `trans` afterwards. So the pool has no channel of the subtype
`trans`, and a frame that it takes is not sent where it should be.
-/

namespace OrgLittle.Stream

open OrgLittle.Java OrgLittle.Lib

/-- A `commonChannel` of the configuration. -/
structure CommonChannel where
  type : JString
  subtype : JString
  id : JString
deriving DecidableEq

/-- `ufpsDef.TYPE_CHANNEL_CLIENT`. -/
def TYPE_CHANNEL_CLIENT : JString := "client".toList

/-- `createChannels`: the client channels of a subtype, in the order of their ids. A channel is given by its place in
the configuration. -/
def createChannels (subtypeChannel : JString) (channels : List CommonChannel) : List (CommonChannel × ℕ) :=
  (channels.zipIdx.filter fun ch =>
    equalsIgnoreCase TYPE_CHANNEL_CLIENT ch.1.type && equalsIgnoreCase subtypeChannel ch.1.subtype).insertionSort
      fun lhs rhs => leIgnoreCase lhs.1.id rhs.1.id

/-- The value of `subtype_channel` in the constructor of `_ufpsChPool`. -/
def noSubtype : JString := "no_subtype_channel".toList

/-- The value that `ufpsTSendPoolData` gives it. -/
def transSubtype : JString := "trans".toList

/-- The channels of a `ufpsTSendPoolData`. -/
def sendChannel (channels : List CommonChannel) : List (CommonChannel × ℕ) := createChannels noSubtype channels

section

variable {F : Type*}

/-- The transfer queue, which channels are open, and whether the loop runs. -/
structure SendPool (F : Type*) where
  transfer : UfpsQueue F
  isOpen : ℕ → Bool
  isRun : Bool

/-- A frame is put into the queue, a channel opens or closes, the loop makes a turn, in which `toString` of the frame or
`send` throws or not, or it is stopped. -/
inductive PoolInput (F : Type*)
  | put (f : F)
  | setOpen (ch : ℕ) (isOpen : Bool)
  | turn (throws : Bool)
  | stop
deriving DecidableEq

/-- A frame was given to a channel. -/
inductive PoolOutput (F : Type*)
  | sent (ch : ℕ) (f : F)
deriving DecidableEq

namespace SendPool

/-- The first open channel of a list. -/
def firstOpen (isOpen : ℕ → Bool) (channels : List (CommonChannel × ℕ)) : Option ℕ :=
  (channels.find? fun ch => isOpen ch.2).map Prod.snd

/-- One turn of the loop. The frame is taken before a channel is looked for; an exception ends the loop. -/
def turn (channels : List CommonChannel) (throws : Bool) (s : SendPool F) : SendPool F × List (PoolOutput F) :=
  match s.transfer.get with
  | (transfer, none) => ({ s with transfer }, [])
  | (transfer, some f) =>
    if throws then ({ s with transfer, isRun := false }, [])
    else
      match firstOpen s.isOpen (sendChannel channels) with
      | none => ({ s with transfer }, [])
      | some ch => ({ s with transfer }, [.sent ch f])

end SendPool

/-- `ufpsTSendPoolData` as a machine. -/
def sendPoolData (F : Type*) (channels : List CommonChannel) :
    Machine (SendPool F) (PoolInput F) (PoolOutput F) where
  step s
    | .put f => ({ s with transfer := (s.transfer.put f).1 }, [])
    | .setOpen ch isOpen => ({ s with isOpen := Function.update s.isOpen ch isOpen }, [])
    | .turn throws => if s.isRun then s.turn channels throws else (s, [])
    | .stop => ({ s with isRun := false }, [])

/-! ## Frames that are taken -/

namespace SendPool

/-- The channel that a frame should be sent to: the first open one, in the order of the ids, of the client channels of
subtype `trans`. -/
def transChannel (channels : List CommonChannel) (s : SendPool F) : Option ℕ :=
  firstOpen s.isOpen (createChannels transSubtype channels)

/-- A turn of the loop leaves every frame in the queue, or it takes the first one and gives it to its channel. -/
def Lossless (channels : List CommonChannel) (s : SendPool F) : PoolInput F → Prop
  | .turn throws =>
    let next := (sendPoolData F channels).step s (.turn throws)
    next.1.transfer.frames.Perm s.transfer.frames ∧ next.2 = []
      ∨ ∃ ch f, s.transfer.frames = f :: next.1.transfer.frames ∧ transChannel channels s = some ch
        ∧ next.2 = [.sent ch f]
  | _ => True

/-- The loop finds no frame. -/
def FindsNone (s : SendPool F) : PoolInput F → Prop
  | .turn _ => s.isRun = true → s.transfer.frames = []
  | _ => True

/-- A channel of a list made by `createChannels` has the subtype of the list. -/
theorem subtype_firstOpen {isOpen : ℕ → Bool} {subtype : JString} {channels : List CommonChannel} {ch : ℕ}
    (h : firstOpen isOpen (createChannels subtype channels) = some ch) :
    ∃ c, channels[ch]? = some c ∧ equalsIgnoreCase subtype c.subtype = true := by
  rw [firstOpen, Option.map_eq_some_iff] at h
  obtain ⟨⟨c, i⟩, hfind, rfl⟩ := h
  have hmem := List.mem_of_find?_eq_some hfind
  rw [createChannels, List.mem_insertionSort, List.mem_filter, Bool.and_eq_true] at hmem
  exact ⟨c, List.mk_mem_zipIdx_iff_getElem?.mp hmem.1, hmem.2.2⟩

/-- No channel is of both subtypes. -/
theorem firstOpen_ne_transChannel {channels : List CommonChannel} {s : SendPool F} {ch : ℕ}
    (h : firstOpen s.isOpen (sendChannel channels) = some ch) : transChannel channels s ≠ some ch := by
  intro htrans
  obtain ⟨c, hc, hno⟩ := subtype_firstOpen h
  obtain ⟨c', hc', htrans⟩ := subtype_firstOpen htrans
  obtain rfl : c = c' := Option.some.inj (hc.symm.trans hc')
  have hsame : folded noSubtype = folded transSubtype :=
    (equalsIgnoreCase_iff.mp hno).trans (equalsIgnoreCase_iff.mp htrans).symm
  exact absurd hsame (by decide)

/-- What a turn does with a frame that it finds: it is no longer in the queue, and it is given to at most one channel,
which is not of the subtype `trans`. -/
theorem turn_of_cons (channels : List CommonChannel) {s : SendPool F} {f : F} {rest : List F} (throws : Bool)
    (h : s.transfer.frames = f :: rest) :
    (s.turn channels throws).1.transfer.frames = rest
      ∧ ∀ ch f', (s.turn channels throws).2 = [.sent ch f'] → transChannel channels s ≠ some ch := by
  rw [turn, UfpsQueue.get, h]
  simp only [List.head?_cons, List.tail_cons]
  split
  · exact ⟨rfl, fun ch f' hsent => by cases hsent⟩
  · split
    · exact ⟨rfl, fun ch f' hsent => by cases hsent⟩
    · next ch hopen =>
      refine ⟨rfl, fun ch' f' hsent => ?_⟩
      cases hsent
      exact firstOpen_ne_transChannel hopen

theorem turn_of_nil (channels : List CommonChannel) {s : SendPool F} (throws : Bool)
    (h : s.transfer.frames = []) :
    (s.turn channels throws).1.transfer.frames = s.transfer.frames ∧ (s.turn channels throws).2 = [] := by
  rw [turn, UfpsQueue.get, h]
  exact ⟨rfl, rfl⟩

theorem lossless_iff (channels : List CommonChannel) (s : SendPool F) (i : PoolInput F) :
    Lossless channels s i ↔ FindsNone s i := by
  cases i with
  | turn throws =>
    rw [Lossless, FindsNone, sendPoolData]
    by_cases hrun : s.isRun = true
    · simp only [hrun, if_true, forall_const]
      cases hframes : s.transfer.frames with
      | nil =>
        obtain ⟨hkept, hsent⟩ := turn_of_nil channels throws hframes
        rw [hframes] at hkept
        exact iff_of_true (.inl ⟨hkept ▸ List.Perm.refl _, hsent⟩) rfl
      | cons f rest =>
        obtain ⟨hrest, hsent⟩ := turn_of_cons channels throws hframes
        refine iff_of_false ?_ (List.cons_ne_nil _ _)
        rintro (⟨hperm, -⟩ | ⟨ch, f', -, htrans, hch⟩)
        · rw [hrest] at hperm
          simpa using hperm.length_eq
        · exact hsent ch f' hch htrans
    · simp only [hrun, Bool.false_eq_true, if_false, false_imp_iff, iff_true]
      exact .inl ⟨List.Perm.refl _, trivial⟩
  | put f => exact Iff.rfl
  | setOpen ch isOpen => exact Iff.rfl
  | stop => exact Iff.rfl

end SendPool

open SendPool

/-- Over every configuration and every run, each frame that is taken goes to its channel or stays in the queue, if and
only if no turn of the loop finds a frame. -/
theorem sendPoolData_lossless_iff (channels : List CommonChannel) (s : SendPool F) (is : List (PoolInput F)) :
    (sendPoolData F channels).Along (Lossless channels) s is
      ↔ (sendPoolData F channels).Along FindsNone s is :=
  Machine.along_congr (lossless_iff channels) s is

end

open SendPool

/-- With one client channel of subtype `trans`, which is open, a frame is taken and sent nowhere. -/
theorem sendPoolData_drops_frame :
    let channels : List CommonChannel := [⟨"client".toList, "trans".toList, "1".toList⟩]
    let s : SendPool ℕ := ⟨⟨"TRANSFER".toList, 10, [7]⟩, fun _ => true, true⟩
    transChannel channels s = some 0
      ∧ ((sendPoolData ℕ channels).step s (.turn false)).1.transfer.frames = []
      ∧ ((sendPoolData ℕ channels).step s (.turn false)).2 = []
      ∧ ¬ (sendPoolData ℕ channels).Along (Lossless channels) s [.turn false] := by
  refine ⟨by decide, by decide, by decide, ?_⟩
  rintro ⟨⟨hperm, -⟩ | ⟨ch, f, -, -, hsent⟩, -⟩
  · exact absurd hperm.length_eq (by decide)
  · cases hsent

end OrgLittle.Stream
