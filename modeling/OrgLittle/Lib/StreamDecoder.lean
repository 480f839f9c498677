import OrgLittle.Lib.Machine

/-!
# Decoders of a byte stream that arrives in chunks

A decoder is called with the unread part of the stream and either returns a message, asks for more
input, or fails. Between the calls it keeps a state. `callDecode` is the loop around it: it calls the
decoder again while something was read, and stops at the first failure. `channel` keeps the unread bytes
in front of the next chunk.

`Refines` compares such a decoder with a machine that reads the stream one symbol at a time. Such a
machine does not see chunks at all, so a decoder that refines it gives the same messages however the
stream was cut (`messages_channel`). The comparison leaves room for defects: when a chunk ends in an
`Open` state of the machine nothing is promised, and after a `Lost` state nothing is promised any more.
In a `Between` state nothing is left unread.

`Stuck` states are the opposite of progress: the decoder reads nothing there, so the connection is silent
for good. `SticksAt.outputs` is the rule for decoders that get stuck after a certain kind of message.
-/

namespace OrgLittle.Lib

/-- The outcome of one call of a decoder. -/
inductive Outcome (σ β ο ε : Type*)
  /-- no message -/
  | starved (s : σ) (rest : List β)
  /-- one message -/
  | emitted (o : ο) (s : σ) (rest : List β)
  /-- an exception -/
  | fault (e : ε) (s : σ) (rest : List β)

/-- What leaves the loop around a decoder. -/
inductive Signal (ο ε : Type*)
  | message (o : ο)
  | exception (e : ε)
deriving DecidableEq

/-- The messages among the signals. -/
def messages {ο ε : Type*} (signals : List (Signal ο ε)) : List ο :=
  signals.filterMap fun
    | .message o => some o
    | .exception _ => none

section Messages

variable {ο ε : Type*}

@[simp] theorem messages_nil : messages ([] : List (Signal ο ε)) = [] := rfl

@[simp] theorem messages_message (o : ο) (signals : List (Signal ο ε)) :
    messages (.message o :: signals) = o :: messages signals := rfl

@[simp] theorem messages_exception (e : ε) (signals : List (Signal ο ε)) :
    messages (.exception e :: signals) = messages signals := rfl

@[simp] theorem messages_append (a b : List (Signal ο ε)) :
    messages (a ++ b) = messages a ++ messages b := List.filterMap_append ..

end Messages

/-! ## Chunks -/

section Chunks

variable {β : Type*}

/-- The chunks that are left when the first `n` symbols are taken away. -/
def dropSymbols (n : ℕ) : List (List β) → List (List β)
  | [] => []
  | c :: cs => if n ≤ c.length then c.drop n :: cs else dropSymbols (n - c.length) cs

theorem flatten_dropSymbols (n : ℕ) (chunks : List (List β)) :
    (dropSymbols n chunks).flatten = chunks.flatten.drop n := by
  induction chunks generalizing n with
  | nil => simp [dropSymbols]
  | cons c cs ih =>
    rw [dropSymbols, List.flatten_cons, List.drop_append]
    split_ifs with hn
    · rw [List.flatten_cons, Nat.sub_eq_zero_of_le hn, List.drop_zero]
    · rw [ih, List.drop_eq_nil_of_le (show c.length ≤ n by omega), List.nil_append]

/-- A chunk ends after the first `n` symbols. -/
def CutAfter (n : ℕ) (chunks : List (List β)) : Prop :=
  ∃ k, (chunks.take k).flatten.length = n

instance (n : ℕ) (chunks : List (List β)) : Decidable (CutAfter n chunks) :=
  decidable_of_iff (∃ k, k < chunks.length + 1 ∧ (chunks.take k).flatten.length = n) (by
    constructor
    · rintro ⟨k, -, hk⟩
      exact ⟨k, hk⟩
    · rintro ⟨k, hk⟩
      refine ⟨min k chunks.length, by omega, ?_⟩
      rw [← hk, ← List.take_eq_take_min])

theorem cutAfter_cons {n : ℕ} (hn : 0 < n) (c : List β) (cs : List (List β)) :
    CutAfter n (c :: cs) ↔ c.length ≤ n ∧ CutAfter (n - c.length) cs := by
  constructor
  · rintro ⟨k, hk⟩
    cases k with
    | zero => simp at hk; omega
    | succ k =>
      rw [List.take_succ_cons, List.flatten_cons, List.length_append] at hk
      exact ⟨by omega, k, by omega⟩
  · rintro ⟨hle, k, hk⟩
    refine ⟨k + 1, ?_⟩
    rw [List.take_succ_cons, List.flatten_cons, List.length_append]
    omega

end Chunks

/-- A decoder, and the exception for a message that was decoded from nothing. -/
structure StreamDecoder (σ β ο ε : Type*) where
  decode : σ → List β → Outcome σ β ο ε
  nothingRead : ε

namespace StreamDecoder

variable {σ β ο ε Λ : Type*} (d : StreamDecoder σ β ο ε)

/-- The loop around the decoder. Every round but the last reads a symbol, so the number of unread
symbols is enough fuel. -/
def callDecode : ℕ → σ → List β → (σ × List β) × List (Signal ο ε)
  | 0, s, x => ((s, x), [])
  | fuel + 1, s, x =>
    if x.isEmpty then ((s, x), [])
    else
      match d.decode s x with
      | .starved s' rest =>
        if rest.length < x.length then callDecode fuel s' rest else ((s', rest), [])
      | .emitted o s' rest =>
        if rest.length < x.length then
          ((callDecode fuel s' rest).1, .message o :: (callDecode fuel s' rest).2)
        -- a message without progress is an error of the decoder
        else ((s', rest), [.message o, .exception d.nothingRead])
      | .fault e s' rest => ((s', rest), [.exception e])

/-- The decoder behind a connection: one step takes one chunk. -/
def channel : Machine (σ × List β) (List β) (Signal ο ε) where
  step p chunk := d.callDecode (p.2 ++ chunk).length p.1 (p.2 ++ chunk)

/-- Fuel beyond the number of unread symbols makes no difference. -/
theorem callDecode_fuel (fuel fuel' : ℕ) (s : σ) {x : List β} (hfuel : x.length ≤ fuel)
    (hfuel' : x.length ≤ fuel') : d.callDecode fuel s x = d.callDecode fuel' s x := by
  induction fuel generalizing fuel' s x with
  | zero =>
    obtain rfl : x = [] := List.eq_nil_of_length_eq_zero (by omega)
    cases fuel' <;> rfl
  | succ fuel ih =>
    obtain rfl | hx := x.eq_nil_or_concat
    · cases fuel' <;> rfl
    · obtain ⟨fuel', rfl⟩ : ∃ f, fuel' = f + 1 := by
        refine ⟨fuel' - 1, ?_⟩
        obtain ⟨y, b, rfl⟩ := hx
        simp only [List.concat_eq_append, List.length_append, List.length_singleton] at hfuel'
        omega
      have hnext : ∀ (s' : σ) (rest : List β), rest.length < x.length →
          d.callDecode fuel s' rest = d.callDecode fuel' s' rest := by
        intro s' rest hrest
        exact ih fuel' s' (by omega) (by omega)
      simp only [callDecode]
      cases d.decode s x with
      | starved s' rest =>
        dsimp only
        by_cases hread : rest.length < x.length
        · rw [hnext s' rest hread]
        · rw [if_neg hread, if_neg hread]
      | emitted o s' rest =>
        dsimp only
        by_cases hread : rest.length < x.length
        · rw [hnext s' rest hread]
        · rw [if_neg hread, if_neg hread]
      | fault e s' rest => rfl

/-! ## One chunk -/

@[simp] theorem step_channel_nil (s : σ) : d.channel.step (s, []) [] = ((s, []), []) := rfl

/-- A chunk that the decoder reads to its end without a message. -/
theorem step_channel_starved {s s' : σ} {x : List β} (hx : x ≠ [])
    (h : d.decode s x = .starved s' []) : d.channel.step (s, []) x = ((s', []), []) := by
  obtain ⟨b, x, rfl⟩ := List.exists_cons_of_ne_nil hx
  show d.callDecode (x.length + 1) s (b :: x) = _
  rw [callDecode, h]
  cases x <;> rfl

/-- The calls that are left after the first are enough for the symbols that are left. -/
theorem callDecode_rest {s : σ} {b : β} {x rest : List β} (hrest : rest.length < (b :: x).length) :
    d.callDecode x.length s rest = d.callDecode rest.length s rest := by
  apply callDecode_fuel
  · exact Nat.lt_succ_iff.mp hrest
  · exact Nat.le_refl _

/-- A chunk of which the decoder reads a part without a message: what is left is a chunk for the state
after it. -/
theorem step_channel_continue {s s' : σ} {x rest : List β} (hrest : rest.length < x.length)
    (h : d.decode s x = .starved s' rest) :
    d.channel.step (s, []) x = d.channel.step (s', []) rest := by
  cases x with
  | nil => exact absurd hrest (Nat.not_lt_zero _)
  | cons b x =>
    show d.callDecode (x.length + 1) s (b :: x) = d.callDecode rest.length s' rest
    rw [callDecode, h]
    dsimp only [List.isEmpty_cons]
    rw [if_neg Bool.false_ne_true, if_pos hrest, callDecode_rest d hrest]

/-- A chunk on which the decoder fails. -/
theorem step_channel_fault {s s' : σ} {x rest : List β} {e : ε} (hx : x ≠ [])
    (h : d.decode s x = .fault e s' rest) :
    d.channel.step (s, []) x = ((s', rest), [.exception e]) := by
  obtain ⟨b, x, rfl⟩ := List.exists_cons_of_ne_nil hx
  show d.callDecode (x.length + 1) s (b :: x) = _
  rw [callDecode, h]
  rfl

/-- A chunk with a message: what is left of it is a chunk for the state after the message. -/
theorem step_channel_emitted {s s' : σ} {x rest : List β} {o : ο} (hrest : rest.length < x.length)
    (h : d.decode s x = .emitted o s' rest) :
    d.channel.step (s, []) x
      = ((d.channel.step (s', []) rest).1, .message o :: (d.channel.step (s', []) rest).2) := by
  cases x with
  | nil => exact absurd hrest (Nat.not_lt_zero _)
  | cons b x =>
    show d.callDecode (x.length + 1) s (b :: x) = ((d.callDecode rest.length s' rest).1,
      .message o :: (d.callDecode rest.length s' rest).2)
    rw [callDecode, h]
    dsimp only [List.isEmpty_cons]
    rw [if_neg Bool.false_ne_true, if_pos hrest, callDecode_rest d hrest]

/-! ## Refinement of a machine that reads symbol by symbol -/

/-- What one call of the decoder has to do with the machine `m`. `abs` is the machine's state at the
start of the unread symbols. -/
structure Refines (m : Machine Λ β ο) (abs : σ → Λ) (Good : σ → Prop)
    (Open Lost Between : Λ → Prop) : Prop where
  starved : ∀ {s x s' rest}, Good s → ¬ Open (m.run (abs s) x) → d.decode s x = .starved s' rest →
    Good s' ∧ m.run (abs s') rest = m.run (abs s) x ∧ m.outputs (abs s') rest = []
      ∧ m.outputs (abs s) x = [] ∧ rest.length ≤ x.length
      ∧ (Between (m.run (abs s) x) → rest = [])
  emitted : ∀ {s x o s' rest}, Good s → ¬ Open (m.run (abs s) x) →
    d.decode s x = .emitted o s' rest →
    Good s' ∧ m.run (abs s') rest = m.run (abs s) x
      ∧ m.outputs (abs s) x = o :: m.outputs (abs s') rest ∧ rest.length < x.length
  fault : ∀ {s x e s' rest}, Good s → ¬ Open (m.run (abs s) x) → d.decode s x = .fault e s' rest →
    m.outputs (abs s) x = [] ∧ ¬ Between (m.run (abs s) x) ∧ (¬ Lost (m.run (abs s) x) →
      Good s' ∧ m.run (abs s') rest = m.run (abs s) x ∧ m.outputs (abs s') rest = [])

variable {d} {m : Machine Λ β ο} {abs : σ → Λ} {Good : σ → Prop} {Open Lost Between : Λ → Prop}

/-- One chunk: the loop gives the messages of the machine, and unless these are lost it ends in a state
from which the unread symbols lead to the same place. -/
theorem Refines.callDecode (h : d.Refines m abs Good Open Lost Between) (fuel : ℕ) {s : σ} {x : List β}
    (hfuel : x.length ≤ fuel) (hs : Good s) (hopen : ¬ Open (m.run (abs s) x)) :
    messages (d.callDecode fuel s x).2 = m.outputs (abs s) x ∧
      (¬ Lost (m.run (abs s) x) →
        let p := (d.callDecode fuel s x).1
        Good p.1 ∧ m.run (abs p.1) p.2 = m.run (abs s) x ∧ m.outputs (abs p.1) p.2 = []) := by
  induction fuel generalizing s x with
  | zero =>
    obtain rfl : x = [] := List.eq_nil_of_length_eq_zero (by omega)
    exact ⟨rfl, fun _ => ⟨hs, rfl, rfl⟩⟩
  | succ fuel ih =>
    rw [StreamDecoder.callDecode]
    by_cases hx : x.isEmpty
    · obtain rfl : x = [] := List.isEmpty_iff.mp hx
      exact ⟨rfl, fun _ => ⟨hs, rfl, rfl⟩⟩
    rw [if_neg hx]
    cases hdec : d.decode s x with
    | starved s' rest =>
      obtain ⟨hgood, hrun, hout', hout, hle, -⟩ := h.starved hs hopen hdec
      dsimp only
      by_cases hread : rest.length < x.length
      · -- another round on the rest, on which the machine has nothing to say either
        rw [if_pos hread]
        have hfuel' : rest.length ≤ fuel := by omega
        have hnext := ih hfuel' hgood (by rw [hrun]; exact hopen)
        rw [hrun, hout'] at hnext
        rw [hout]
        exact hnext
      · rw [if_neg hread]
        exact ⟨hout.symm, fun _ => ⟨hgood, hrun, hout'⟩⟩
    | emitted o s' rest =>
      obtain ⟨hgood, hrun, hout, hread⟩ := h.emitted hs hopen hdec
      dsimp only
      rw [if_pos hread]
      have hfuel' : rest.length ≤ fuel := by omega
      have hnext := ih hfuel' hgood (by rw [hrun]; exact hopen)
      rw [hrun] at hnext
      exact ⟨by rw [messages_message, hnext.1, hout], hnext.2⟩
    | fault e s' rest =>
      obtain ⟨hout, -, hgood⟩ := h.fault hs hopen hdec
      exact ⟨hout.symm, hgood⟩

/-- A chunk that ends between two parts of a message is read to its end. -/
theorem Refines.callDecode_rest (h : d.Refines m abs Good Open Lost Between) (fuel : ℕ) {s : σ}
    {x : List β} (hfuel : x.length ≤ fuel) (hs : Good s) (hopen : ¬ Open (m.run (abs s) x))
    (hbetween : Between (m.run (abs s) x)) : (d.callDecode fuel s x).1.2 = [] := by
  induction fuel generalizing s x with
  | zero =>
    obtain rfl : x = [] := List.eq_nil_of_length_eq_zero (by omega)
    rfl
  | succ fuel ih =>
    rw [StreamDecoder.callDecode]
    by_cases hx : x.isEmpty
    · rw [if_pos hx]
      exact List.isEmpty_iff.mp hx
    rw [if_neg hx]
    cases hdec : d.decode s x with
    | starved s' rest =>
      obtain ⟨hgood, hrun, -, -, hle, hrest⟩ := h.starved hs hopen hdec
      dsimp only
      by_cases hread : rest.length < x.length
      · have hfuel' : rest.length ≤ fuel := by omega
        rw [if_pos hread]
        exact ih hfuel' hgood (by rw [hrun]; exact hopen) (by rw [hrun]; exact hbetween)
      · rw [if_neg hread]
        exact hrest hbetween
    | emitted o s' rest =>
      obtain ⟨hgood, hrun, hout, hread⟩ := h.emitted hs hopen hdec
      have hfuel' : rest.length ≤ fuel := by omega
      dsimp only
      rw [if_pos hread]
      exact ih hfuel' hgood (by rw [hrun]; exact hopen) (by rw [hrun]; exact hbetween)
    | fault e s' rest => exact absurd hbetween (h.fault hs hopen hdec).2.1

/-- A whole stream: as long as no chunk ends in an open state and no chunk but the last ends in a lost
one, the messages are those of the machine on the stream. -/
theorem Refines.messages_channel (h : d.Refines m abs Good Open Lost Between) {s : σ} {rest : List β}
    (hs : Good s) (hrest : m.outputs (abs s) rest = []) (chunks : List (List β))
    (hopen : ∀ k, k ≤ chunks.length → ¬ Open (m.run (abs s) (rest ++ (chunks.take k).flatten)))
    (hlost : ∀ k, k < chunks.length → ¬ Lost (m.run (abs s) (rest ++ (chunks.take k).flatten))) :
    messages (d.channel.outputs (s, rest) chunks) = m.outputs (m.run (abs s) rest) chunks.flatten := by
  induction chunks generalizing s rest with
  | nil => rfl
  | cons c cs ih =>
    have hopen1 : ¬ Open (m.run (abs s) (rest ++ c)) := by
      simpa using hopen 1 (by simp)
    obtain ⟨hmsgs, hstate⟩ := h.callDecode (rest ++ c).length (Nat.le_refl _) hs hopen1
    have hhead : m.outputs (abs s) (rest ++ c) = m.outputs (m.run (abs s) rest) c := by
      rw [Machine.outputs_append, hrest, List.nil_append]
    rw [Machine.outputs_cons, messages_append]
    show messages (d.callDecode (rest ++ c).length s (rest ++ c)).2
      ++ messages (d.channel.outputs (d.callDecode (rest ++ c).length s (rest ++ c)).1 cs) = _
    rw [hmsgs, hhead, List.flatten_cons, Machine.outputs_append]
    congr 1
    cases cs with
    | nil => rfl
    | cons c' cs =>
      -- the chunk was not the last one, so the decoder is still in step with the machine
      have hlost1 : ¬ Lost (m.run (abs s) (rest ++ c)) := by
        simpa using hlost 1 (by simp)
      obtain ⟨hgood, hrun, hout⟩ := hstate hlost1
      generalize (d.callDecode (rest ++ c).length s (rest ++ c)).1 = p at hgood hrun hout ⊢
      obtain ⟨s', rest'⟩ := p
      have htake : ∀ k, m.run (abs s') (rest' ++ ((c' :: cs).take k).flatten)
          = m.run (abs s) (rest ++ ((c :: c' :: cs).take (k + 1)).flatten) := by
        intro k
        rw [Machine.run_append, hrun, ← Machine.run_append, List.take_succ_cons, List.flatten_cons,
          List.append_assoc]
      rw [ih hgood hout]
      · rw [hrun, Machine.run_append]
      · intro k hk
        rw [htake]
        exact hopen (k + 1) (by simpa using hk)
      · intro k hk
        rw [htake]
        exact hlost (k + 1) (by simpa using hk)

/-! ## Stuck states -/

/-- A state in which the decoder reads nothing, whatever arrives. -/
def Stuck (d : StreamDecoder σ β ο ε) (s : σ) : Prop := ∀ x, d.decode s x = .starved s x

theorem Stuck.callDecode {s : σ} (h : d.Stuck s) (fuel : ℕ) (x : List β) :
    d.callDecode fuel s x = ((s, x), []) := by
  cases fuel with
  | zero => rfl
  | succ fuel =>
    rw [StreamDecoder.callDecode, h x]
    simp

theorem Stuck.step_channel {s : σ} (h : d.Stuck s) (rest chunk : List β) :
    d.channel.step (s, rest) chunk = ((s, rest ++ chunk), []) := h.callDecode _ _

theorem Stuck.run {s : σ} (h : d.Stuck s) (rest : List β) (chunks : List (List β)) :
    d.Stuck (d.channel.run (s, rest) chunks).1 := by
  induction chunks generalizing rest with
  | nil => exact h
  | cons c cs ih =>
    rw [Machine.run_cons, h.step_channel]
    exact ih (rest ++ c)

theorem Stuck.outputs {s : σ} (h : d.Stuck s) (rest : List β) (chunks : List (List β)) :
    d.channel.outputs (s, rest) chunks = [] := by
  induction chunks generalizing rest with
  | nil => rfl
  | cons c cs ih => rw [Machine.outputs_cons, h.step_channel, ih, List.append_nil]

/-- The decoder is stuck after each message of the kind `P`, as long as it keeps the invariant. -/
structure SticksAt (d : StreamDecoder σ β ο ε) (Inv : σ → Prop) (P : ο → Prop) : Prop where
  starved : ∀ {s x s' rest}, Inv s → d.decode s x = .starved s' rest → Inv s'
  emitted : ∀ {s x o s' rest}, Inv s → d.decode s x = .emitted o s' rest →
    Inv s' ∧ (P o → d.Stuck s')
  fault : ∀ {s x e s' rest}, Inv s → d.decode s x = .fault e s' rest → Inv s'

variable {Inv : σ → Prop} {P : ο → Prop}

/-- One chunk: a message of the kind `P` is the last one, and the decoder is stuck after it. -/
theorem SticksAt.callDecode (h : d.SticksAt Inv P) (fuel : ℕ) {s : σ} (hs : Inv s) (x : List β) :
    Inv (d.callDecode fuel s x).1.1 ∧ ∀ before o after,
      messages (d.callDecode fuel s x).2 = before ++ o :: after → P o →
        after = [] ∧ d.Stuck (d.callDecode fuel s x).1.1 := by
  induction fuel generalizing s x with
  | zero => exact ⟨hs, fun before o after hmsgs => by simp [StreamDecoder.callDecode] at hmsgs⟩
  | succ fuel ih =>
    rw [StreamDecoder.callDecode]
    by_cases hx : x.isEmpty
    · rw [if_pos hx]
      exact ⟨hs, fun before o after hmsgs => by simp at hmsgs⟩
    rw [if_neg hx]
    cases hdec : d.decode s x with
    | starved s' rest =>
      have hinv := h.starved hs hdec
      dsimp only
      by_cases hread : rest.length < x.length
      · rw [if_pos hread]
        exact ih hinv rest
      · rw [if_neg hread]
        exact ⟨hinv, fun before o after hmsgs => by simp at hmsgs⟩
    | emitted o s' rest =>
      obtain ⟨hinv, hstuck⟩ := h.emitted hs hdec
      dsimp only
      by_cases hread : rest.length < x.length
      · rw [if_pos hread]
        refine ⟨(ih hinv rest).1, fun before o' after hmsgs hP => ?_⟩
        dsimp only at hmsgs ⊢
        rw [messages_message] at hmsgs
        cases before with
        | nil =>
          -- the message is `o` itself, and the loop does nothing after it
          obtain ⟨rfl, rfl⟩ := List.cons.inj hmsgs
          rw [(hstuck hP).callDecode]
          exact ⟨rfl, hstuck hP⟩
        | cons _ before => exact (ih hinv rest).2 before o' after (List.cons.inj hmsgs).2 hP
      · rw [if_neg hread]
        refine ⟨hinv, fun before o' after hmsgs hP => ?_⟩
        cases before with
        | nil =>
          obtain ⟨rfl, rfl⟩ := List.cons.inj hmsgs
          exact ⟨rfl, hstuck hP⟩
        | cons _ before => simp at hmsgs
    | fault e s' rest =>
      exact ⟨h.fault hs hdec, fun before o after hmsgs => by simp at hmsgs⟩

/-- A whole stream: a message of the kind `P` is the last one for good. -/
theorem SticksAt.outputs (h : d.SticksAt Inv P) {s : σ} (hs : Inv s) (rest : List β)
    (chunks : List (List β)) {before after : List ο} {o : ο}
    (hmsgs : messages (d.channel.outputs (s, rest) chunks) = before ++ o :: after) (hP : P o) :
    after = [] ∧ d.Stuck (d.channel.run (s, rest) chunks).1 := by
  induction chunks generalizing s rest before with
  | nil => simp at hmsgs
  | cons c cs ih =>
    obtain ⟨hinv, hlast⟩ := h.callDecode (rest ++ c).length hs (rest ++ c)
    rw [Machine.outputs_cons, messages_append] at hmsgs
    rw [Machine.run_cons]
    change messages (d.callDecode (rest ++ c).length s (rest ++ c)).2
      ++ messages (d.channel.outputs (d.callDecode (rest ++ c).length s (rest ++ c)).1 cs) = _ at hmsgs
    show after = [] ∧
      d.Stuck (d.channel.run (d.callDecode (rest ++ c).length s (rest ++ c)).1 cs).1
    generalize d.callDecode (rest ++ c).length s (rest ++ c) = r at hinv hlast hmsgs ⊢
    obtain ⟨⟨s', rest'⟩, signals⟩ := r
    dsimp only at hinv hlast hmsgs ⊢
    obtain ⟨middle, hbefore, hmiddle⟩ | ⟨middle, hsignals, hmiddle⟩ :=
      List.append_eq_append_iff.mp hmsgs
    · -- the message comes with a later chunk
      exact ih hinv rest' hmiddle
    · cases middle with
      | nil => exact ih hinv rest' (show _ = [] ++ o :: after from hmiddle.symm)
      | cons o' middle =>
        obtain ⟨rfl, rfl⟩ := List.cons.inj hmiddle
        obtain ⟨rfl, hstuck⟩ := hlast before o middle hsignals hP
        rw [hstuck.outputs, messages_nil]
        exact ⟨rfl, hstuck.run rest' cs⟩

end StreamDecoder

end OrgLittle.Lib
