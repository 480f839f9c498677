import OrgLittle.Java.Text
import OrgLittle.Lib.Overlap

/-!
# `sequence` and `sequences`: watching for patterns

A matcher counts how many bytes of its pattern it has seen and starts again at zero when a byte does not fit. So it
forgets what that byte, or the end of a partial match, could begin. The matchers are fed one after the other, and those
behind one that completes do not get the byte at all. `watched_of_safe` says that every first occurrence is reported
in the runs where neither does any harm.
-/

namespace OrgLittle.Rcmd

open OrgLittle.Java OrgLittle.Lib

/-! ## The code -/

/-- `sequence`, with the bytes of its pattern. -/
structure Sequence where
  bBuffer : Option (List UInt8)
  point : ℕ
  equal : Bool
  type : JString
  id : JString
deriving DecidableEq

namespace Sequence

/-- The constructor, from the bytes of the pattern. -/
def new (type id : JString) (bBuffer : Option (List UInt8)) : Sequence := ⟨bBuffer, 0, false, type, id⟩

/-- `clear`. -/
def clear (s : Sequence) : Sequence := { s with bBuffer := none, point := 0, equal := false, type := [] }

/-- `put(byte)`. -/
def put (s : Sequence) (ch : UInt8) : Except JavaException (Sequence × Bool) :=
  match s.bBuffer with
  | none => .ok (s.clear, false)
  | some b_buffer =>
    match b_buffer[s.point]? with
    | none => .error .indexOutOfBounds
    | some b =>
      if b = ch then
        if s.point + 1 = b_buffer.length then .ok ({ s with point := 0, equal := true }, true)
        else .ok ({ s with point := s.point + 1, equal := false }, false)
      else .ok ({ s with point := 0, equal := false }, false)

/-- `reset`. -/
def reset (s : Sequence) : Sequence := { s with point := 0, equal := false }

end Sequence

namespace Sequences

/-- `add`. -/
def add (list : List Sequence) (type id : JString) (mask : Option (List UInt8)) : List Sequence :=
  list ++ [Sequence.new type id mask]

/-- `put(byte)`, with the index of the sequence that it returns. -/
def put : List Sequence → UInt8 → Except JavaException (List Sequence × Option ℕ)
  | [], _ => .ok ([], none)
  | s :: list, b => do
    let (s, ret) ← s.put b
    if ret then return (s :: list, some 0)
    let (list, point) ← put list b
    return (s :: list, point.map (· + 1))

/-- `reset`. -/
def reset (list : List Sequence) : List Sequence := list.map Sequence.reset

/-- `put` for each byte of a stream in turn, with all that it returns. -/
def feed : List Sequence → List UInt8 → Except JavaException (List Sequence × List (Option ℕ))
  | list, [] => .ok (list, [])
  | list, b :: stream => do
    let (list, point) ← put list b
    let (list, calls) ← feed list stream
    return (list, point :: calls)

end Sequences

/-! ## What is wanted -/

/-- The arguments of `add`, with a pattern that is not empty. -/
structure Pattern where
  type : JString
  id : JString
  mask : List UInt8
  mask_ne : mask ≠ []

/-- The sequences after `add` for each pattern. -/
def start (patterns : List Pattern) : List Sequence :=
  patterns.foldl (fun list p => Sequences.add list p.type p.id (some p.mask)) []

/-- The index of the byte at which the pattern occurs in the stream for the first time. -/
def firstEnd (mask stream : List UInt8) : Option ℕ :=
  (List.range stream.length).find? fun n => mask <:+ stream.take (n + 1)

/-- The first call that returns the sequence `k` is the one that feeds the last byte of the first occurrence of its
pattern, unless an earlier pattern ends there. -/
def WatchedAt (patterns : List Pattern) (stream : List UInt8) (calls : List (Option ℕ)) (k : ℕ) (p : Pattern) : Prop :=
  calls.findIdx? (· = some k) = firstEnd p.mask stream
    ∨ ∃ n, firstEnd p.mask stream = some n ∧ ∃ q ∈ patterns.take k, q.mask <:+ stream.take (n + 1)

/-- No call raises an exception, and all patterns are watched. -/
def Watched (patterns : List Pattern) (stream : List UInt8) : Prop :=
  ∃ list calls, Sequences.feed (start patterns) stream = .ok (list, calls)
    ∧ ∀ k p, patterns[k]? = some p → WatchedAt patterns stream calls k p

/-! ## The condition -/

/-- The matcher completes its pattern with the byte. -/
def Sequence.completes (s : Sequence) (b : UInt8) : Bool :=
  match s.put b with
  | .ok (_, ret) => ret
  | .error _ => false

/-- The condition on a byte, for a pattern that has not occurred before. If an earlier matcher completes, so that this
one does not get the byte: the byte changes nothing for the pattern, or completes it together with an earlier one. If
it gets the byte: the byte is the next one of the pattern, or no beginning of the pattern ends with it. -/
def Safe (patterns : List Pattern) (list : List Sequence) (before : List UInt8) (b : UInt8) : Prop :=
  ∀ k p s, patterns[k]? = some p → list[k]? = some s → firstEnd p.mask before = none →
    if (list.take k).any (·.completes b) then
      overlap p.mask (p.mask.take s.point ++ [b]) = s.point
        ∨ p.mask <:+ before ++ [b] ∧ ∃ q ∈ patterns.take k, q.mask <:+ before ++ [b]
    else p.mask[s.point]? = some b ∨ overlap p.mask (p.mask.take s.point ++ [b]) = 0

/-! ## First occurrences -/

theorem firstEnd_concat (mask stream : List UInt8) (b : UInt8) :
    firstEnd mask (stream ++ [b])
      = (firstEnd mask stream).or (if mask <:+ stream ++ [b] then some stream.length else none) := by
  have hsame : (List.range stream.length).find? (fun n => mask <:+ (stream ++ [b]).take (n + 1))
      = firstEnd mask stream := by
    rw [firstEnd]
    refine List.find?_congr fun n hn => ?_
    rw [List.take_append_of_le_length (List.mem_range.mp hn)]
  rw [firstEnd, List.length_append, List.length_singleton, List.range_succ, List.find?_append, hsame]
  congr 1
  have hall : (stream ++ [b]).take (stream.length + 1) = stream ++ [b] :=
    List.take_of_length_le (by rw [List.length_append, List.length_singleton])
  rw [List.find?_singleton]
  simp only [hall, decide_eq_true_eq]

theorem firstEnd_lt {mask stream : List UInt8} {n : ℕ} (h : firstEnd mask stream = some n) : n < stream.length :=
  List.mem_range.mp (List.mem_of_find?_eq_some h)

theorem findIdx?_concat (calls : List (Option ℕ)) (c : Option ℕ) (k : ℕ) :
    (calls ++ [c]).findIdx? (· = some k)
      = (calls.findIdx? (· = some k)).or (if c = some k then some calls.length else none) := by
  rw [List.findIdx?_append]
  by_cases hc : c = some k
  · simp [List.findIdx?_cons, hc]
  · simp [List.findIdx?_cons, hc]

/-- Once the first occurrence is there, nothing changes any more. -/
theorem WatchedAt.concat {patterns : List Pattern} {stream : List UInt8} {calls : List (Option ℕ)} {k : ℕ}
    {p : Pattern} (h : WatchedAt patterns stream calls k p) (hseen : firstEnd p.mask stream ≠ none) (b : UInt8)
    (c : Option ℕ) : WatchedAt patterns (stream ++ [b]) (calls ++ [c]) k p := by
  obtain ⟨n, hn⟩ := Option.ne_none_iff_exists'.mp hseen
  have hend : firstEnd p.mask (stream ++ [b]) = some n := by rw [firstEnd_concat, hn, Option.some_or]
  rcases h with h | ⟨m, hm, q, hq, hsuffix⟩
  · left
    rw [hend, findIdx?_concat, h, hn, Option.some_or]
  · obtain rfl : m = n := Option.some.inj (hm.symm.trans hn)
    refine .inr ⟨m, hend, q, hq, ?_⟩
    rwa [List.take_append_of_le_length (firstEnd_lt hn)]

/-! ## One call -/

/-- The sequence looks for the pattern, and has not come to its end. -/
structure Ready (s : Sequence) (p : Pattern) : Prop where
  buffer : s.bBuffer = some p.mask
  point_lt : s.point < p.mask.length

theorem Ready.put {s : Sequence} {p : Pattern} (h : Ready s p) (b : UInt8) :
    ∃ s', s.put b = .ok (s', s.completes b) ∧ Ready s' p
      ∧ s.completes b = decide (p.mask[s.point]? = some b ∧ s.point + 1 = p.mask.length)
      ∧ (s.completes b = false → s'.point = if p.mask[s.point]? = some b then s.point + 1 else 0) := by
  have hget := List.getElem?_eq_getElem h.point_lt
  have hpos : 0 < p.mask.length := List.length_pos_iff.mpr p.mask_ne
  have hlt := h.point_lt
  rw [Sequence.completes, Sequence.put, h.buffer]
  simp only [hget, Option.some.injEq]
  by_cases hb : p.mask[s.point] = b
  · simp only [if_pos hb]
    by_cases hlast : s.point + 1 = p.mask.length
    · simp only [if_pos hlast]
      refine ⟨_, rfl, ⟨rfl, hpos⟩, ?_, fun hfalse => absurd hfalse (by decide)⟩
      exact (decide_eq_true ⟨hb, hlast⟩).symm
    · simp only [if_neg hlast]
      refine ⟨_, rfl, ⟨rfl, ?_⟩, ?_, fun _ => rfl⟩
      · change s.point + 1 < p.mask.length
        omega
      · exact (decide_eq_false fun hboth => hlast hboth.2).symm
  · simp only [if_neg hb]
    refine ⟨_, rfl, ⟨rfl, hpos⟩, ?_, fun _ => rfl⟩
    exact (decide_eq_false fun hboth => hb hboth.1).symm

/-- What `put` does with the sequence `k`: nothing, if an earlier one completes. -/
theorem put_spec {patterns : List Pattern} {list : List Sequence} (h : List.Forall₂ Ready list patterns)
    (b : UInt8) :
    ∃ list' c, Sequences.put list b = .ok (list', c) ∧ List.Forall₂ Ready list' patterns
      ∧ ∀ k s, list[k]? = some s →
        if (list.take k).any (·.completes b) then list'[k]? = some s ∧ c ≠ some k
        else ∃ s', list'[k]? = some s' ∧ s.put b = .ok (s', s.completes b)
          ∧ (c = some k ↔ s.completes b = true) := by
  induction h with
  | nil => exact ⟨[], none, rfl, .nil, fun k s hs => absurd hs (by simp)⟩
  | @cons s p list patterns hs hlist ih =>
    -- A sequence that is complete hides the byte from those behind it; any other hands it on.
    obtain ⟨s', hput, hready, -, -⟩ := hs.put b
    cases hcompletes : s.completes b with
    | true =>
      rw [hcompletes] at hput
      refine ⟨s' :: list, some 0, ?_, .cons hready hlist, fun k t ht => ?_⟩
      · rw [Sequences.put, hput]
        rfl
      · cases k with
        | zero =>
          obtain rfl : s = t := Option.some.inj ht
          rw [if_neg (by simp)]
          exact ⟨s', rfl, hput.trans (by rw [hcompletes]), iff_of_true rfl hcompletes⟩
        | succ k =>
          rw [if_pos (by simp [hcompletes])]
          exact ⟨ht, by simp⟩
    | false =>
      obtain ⟨list', c, hrest, hready', hspec⟩ := ih
      rw [hcompletes] at hput
      refine ⟨s' :: list', c.map (· + 1), ?_, .cons hready hready', fun k t ht => ?_⟩
      · rw [Sequences.put, hput]
        change (Sequences.put list b).bind _ = _
        rw [hrest]
        rfl
      · cases k with
        | zero =>
          obtain rfl : s = t := Option.some.inj ht
          rw [if_neg (by simp)]
          refine ⟨s', rfl, hput.trans (by rw [hcompletes]), iff_of_false ?_ (by rw [hcompletes]; decide)⟩
          cases c with
          | none => simp
          | some c => simp
        | succ k =>
          -- The sequences behind are those of the rest, counted from one on.
          have hspec' := hspec k t ht
          have hany : ((s :: list).take (k + 1)).any (·.completes b) = (list.take k).any (·.completes b) := by
            rw [List.take_succ_cons, List.any_cons, hcompletes, Bool.false_or]
          have hcall : c.map (· + 1) = some (k + 1) ↔ c = some k := by
            cases c with
            | none => simp
            | some c => simp
          rw [hany]
          split
          · rename_i hearlier
            rw [if_pos hearlier] at hspec'
            exact ⟨hspec'.1, fun hc => hspec'.2 (hcall.mp hc)⟩
          · rename_i hearlier
            rw [if_neg hearlier] at hspec'
            obtain ⟨t', ht', hput', hiff⟩ := hspec'
            exact ⟨t', ht', hput', hcall.trans hiff⟩

/-! ## Runs -/

/-- After the bytes `stream`: a pattern that has not occurred has got as far as it can be, and was not returned; the
others are watched. -/
structure Follows (patterns : List Pattern) (list : List Sequence) (stream : List UInt8) (calls : List (Option ℕ)) :
    Prop where
  ready : List.Forall₂ Ready list patterns
  length : calls.length = stream.length
  point : ∀ k p s, patterns[k]? = some p → list[k]? = some s → firstEnd p.mask stream = none →
    s.point = overlap p.mask stream ∧ calls.findIdx? (· = some k) = none
  watched : ∀ k p, patterns[k]? = some p → firstEnd p.mask stream ≠ none → WatchedAt patterns stream calls k p

/-- A byte that meets the condition, for one pattern that has not occurred before. -/
theorem follow_pattern {patterns : List Pattern} {list list' : List Sequence} {stream : List UInt8}
    {calls : List (Option ℕ)} {k : ℕ} {p : Pattern} {s s' : Sequence} {b : UInt8} {c : Option ℕ} (hready : Ready s p)
    (hlength : calls.length = stream.length) (hseen : firstEnd p.mask stream = none)
    (hpoint : s.point = overlap p.mask stream) (hcalls : calls.findIdx? (· = some k) = none)
    (hs' : list'[k]? = some s')
    (hspec : if (list.take k).any (·.completes b) then list'[k]? = some s ∧ c ≠ some k
      else ∃ s', list'[k]? = some s' ∧ s.put b = .ok (s', s.completes b) ∧ (c = some k ↔ s.completes b = true))
    (hsafe : if (list.take k).any (·.completes b) then
        overlap p.mask (p.mask.take s.point ++ [b]) = s.point
          ∨ p.mask <:+ stream ++ [b] ∧ ∃ q ∈ patterns.take k, q.mask <:+ stream ++ [b]
      else p.mask[s.point]? = some b ∨ overlap p.mask (p.mask.take s.point ++ [b]) = 0) :
    (firstEnd p.mask (stream ++ [b]) = none ∧ s'.point = overlap p.mask (stream ++ [b])
        ∧ (calls ++ [c]).findIdx? (· = some k) = none)
      ∨ firstEnd p.mask (stream ++ [b]) ≠ none ∧ WatchedAt patterns (stream ++ [b]) (calls ++ [c]) k p := by
  have hnext : overlap p.mask (stream ++ [b]) = overlap p.mask (p.mask.take s.point ++ [b]) := by
    rw [overlap_concat, hpoint]
  have hlt := hready.point_lt
  have hend : firstEnd p.mask (stream ++ [b])
      = if p.mask <:+ stream ++ [b] then some stream.length else none := by
    rw [firstEnd_concat, hseen, Option.none_or]
  have hcall : (calls ++ [c]).findIdx? (· = some k) = if c = some k then some stream.length else none := by
    rw [findIdx?_concat, hcalls, Option.none_or, hlength]
  by_cases hearlier : (list.take k).any (·.completes b) = true
  · rw [if_pos hearlier] at hspec hsafe
    rw [if_neg hspec.2] at hcall
    obtain rfl : s = s' := Option.some.inj (hspec.1.symm.trans hs')
    rcases hsafe with hsame | ⟨hsuffix, q, hq, hqsuffix⟩
    · left
      have hnot : ¬ p.mask <:+ stream ++ [b] := fun hsuffix => by
        have hfull := overlap_eq_length_iff.mpr hsuffix
        omega
      rw [if_neg hnot] at hend
      exact ⟨hend, by rw [hnext, hsame], hcall⟩
    · right
      rw [if_pos hsuffix] at hend
      refine ⟨by rw [hend]; exact Option.some_ne_none _, .inr ⟨stream.length, hend, q, hq, ?_⟩⟩
      rwa [List.take_of_length_le (by rw [List.length_append, List.length_singleton])]
  · rw [if_neg hearlier] at hspec hsafe
    obtain ⟨t, ht, hput, hiff⟩ := hspec
    obtain rfl : t = s' := Option.some.inj (ht.symm.trans hs')
    obtain ⟨t', hput', -, hcompletes, hnew⟩ := hready.put b
    obtain rfl : t' = t := (Prod.mk.inj (Except.ok.inj (hput'.symm.trans hput))).1
    -- The new counter is the overlap with the longer stream, unless the pattern is complete.
    have hgrows : p.mask[s.point]? = some b → overlap p.mask (stream ++ [b]) = s.point + 1 := by
      intro hb
      have hlt' : overlap p.mask stream < p.mask.length := hpoint ▸ hlt
      rw [hpoint, List.getElem?_eq_getElem hlt', Option.some.injEq] at hb
      rw [overlap_concat_of_eq hlt' hb, hpoint]
    by_cases hfull : s.completes b = true
    · right
      rw [if_pos (hiff.mpr hfull)] at hcall
      rw [hfull] at hcompletes
      obtain ⟨hb, hlast⟩ := of_decide_eq_true hcompletes.symm
      have hsuffix := overlap_eq_length_iff.mp ((hgrows hb).trans hlast)
      rw [if_pos hsuffix] at hend
      exact ⟨by rw [hend]; exact Option.some_ne_none _, .inl (by rw [hcall, hend])⟩
    · left
      rw [if_neg (mt hiff.mp hfull)] at hcall
      have hfalse := Bool.eq_false_iff.mpr hfull
      have hpoint' := hnew hfalse
      rw [hfalse] at hcompletes
      have hnot := of_decide_eq_false hcompletes.symm
      have hoverlap : t'.point = overlap p.mask (stream ++ [b]) := by
        by_cases hb : p.mask[s.point]? = some b
        · rw [hpoint', if_pos hb, hgrows hb]
        · rw [hpoint', if_neg hb, hnext]
          exact (hsafe.resolve_left hb).symm
      have hshort : ¬ p.mask <:+ stream ++ [b] := by
        intro hsuffix
        have hlength' := overlap_eq_length_iff.mpr hsuffix
        by_cases hb : p.mask[s.point]? = some b
        · exact hnot ⟨hb, by rw [← hgrows hb, hlength']⟩
        · rw [hnext, hsafe.resolve_left hb] at hlength'
          omega
      rw [if_neg hshort] at hend
      exact ⟨hend, hoverlap, hcall⟩

/-- A byte that meets the condition. -/
theorem Follows.concat {patterns : List Pattern} {list : List Sequence} {stream : List UInt8}
    {calls : List (Option ℕ)} (h : Follows patterns list stream calls) {b : UInt8}
    (hsafe : Safe patterns list stream b) :
    ∃ list' c, Sequences.put list b = .ok (list', c) ∧ Follows patterns list' (stream ++ [b]) (calls ++ [c]) := by
  obtain ⟨list', c, hput, hready, hspec⟩ := put_spec h.ready b
  have hstep (k : ℕ) (p : Pattern) (s' : Sequence) (hp : patterns[k]? = some p) (hs' : list'[k]? = some s')
      (hseen : firstEnd p.mask stream = none) :
      (firstEnd p.mask (stream ++ [b]) = none ∧ s'.point = overlap p.mask (stream ++ [b])
          ∧ (calls ++ [c]).findIdx? (· = some k) = none)
        ∨ firstEnd p.mask (stream ++ [b]) ≠ none ∧ WatchedAt patterns (stream ++ [b]) (calls ++ [c]) k p := by
    have hlt : k < list.length := by
      rw [h.ready.length_eq]
      exact (List.getElem?_eq_some_iff.mp hp).1
    have hs := List.getElem?_eq_getElem hlt
    have hsready : Ready list[k] p := by
      obtain ⟨hlt', rfl⟩ := List.getElem?_eq_some_iff.mp hp
      exact (List.forall₂_iff_get.mp h.ready).2 k hlt hlt'
    obtain ⟨hpoint, hcalls⟩ := h.point k p _ hp hs hseen
    exact follow_pattern hsready h.length hseen hpoint hcalls hs' (hspec k _ hs) (hsafe k p _ hp hs hseen)
  refine ⟨list', c, hput, hready, ?_, fun k p s' hp hs' hseen => ?_, fun k p hp hseen => ?_⟩
  · rw [List.length_append, List.length_append, h.length]
    rfl
  · have hbefore : firstEnd p.mask stream = none := by
      rw [firstEnd_concat] at hseen
      exact (Option.or_eq_none_iff.mp hseen).1
    rcases hstep k p s' hp hs' hbefore with ⟨-, hpoint, hcalls⟩ | ⟨hnow, -⟩
    · exact ⟨hpoint, hcalls⟩
    · exact absurd hseen hnow
  · by_cases hbefore : firstEnd p.mask stream = none
    · have hlt : k < list'.length := by
        rw [hready.length_eq]
        exact (List.getElem?_eq_some_iff.mp hp).1
      rcases hstep k p _ hp (List.getElem?_eq_getElem hlt) hbefore with ⟨hnone, -⟩ | ⟨-, hwatched⟩
      · exact absurd hnone hseen
      · exact hwatched
    · exact (h.watched k p hp hbefore).concat hbefore b c

theorem feed_concat (list : List Sequence) (stream : List UInt8) (b : UInt8) :
    Sequences.feed list (stream ++ [b]) = do
      let (list, calls) ← Sequences.feed list stream
      let (list, point) ← Sequences.put list b
      return (list, calls ++ [point]) := by
  induction stream generalizing list with
  | nil =>
    rw [List.nil_append, Sequences.feed]
    cases Sequences.put list b with
    | error e => rfl
    | ok r => rfl
  | cons a stream ih =>
    rw [List.cons_append, Sequences.feed, Sequences.feed]
    cases Sequences.put list a with
    | error e => rfl
    | ok r =>
      change (Sequences.feed r.1 (stream ++ [b])).bind _ = ((Sequences.feed r.1 stream).bind _).bind _
      rw [ih]
      cases Sequences.feed r.1 stream with
      | error e => rfl
      | ok r' =>
        change ((Sequences.put r'.1 b).bind _).bind _ = (Sequences.put r'.1 b).bind _
        cases Sequences.put r'.1 b with
        | error e => rfl
        | ok r'' => rfl

theorem start_eq (patterns : List Pattern) :
    start patterns = patterns.map fun p => Sequence.new p.type p.id (some p.mask) := by
  have hfold (list : List Sequence) :
      patterns.foldl (fun list p => Sequences.add list p.type p.id (some p.mask)) list
        = list ++ patterns.map fun p => Sequence.new p.type p.id (some p.mask) := by
    induction patterns generalizing list with
    | nil => exact (List.append_nil list).symm
    | cons p patterns ih =>
      rw [List.foldl_cons, ih, Sequences.add, List.map_cons, List.append_assoc]
      rfl
  exact hfold []

theorem follows_start (patterns : List Pattern) : Follows patterns (start patterns) [] [] := by
  refine ⟨?_, rfl, fun k p s hp hs _ => ⟨?_, rfl⟩, fun k p _ hseen => absurd rfl hseen⟩
  · rw [start_eq, List.forall₂_map_left_iff]
    exact List.forall₂_same.mpr fun p _ => ⟨rfl, List.length_pos_iff.mpr p.mask_ne⟩
  · rw [start_eq, List.getElem?_map, hp] at hs
    obtain rfl := Option.some.inj hs
    rw [overlap_nil]
    rfl

/-- Every pattern is watched in a stream all of whose bytes meet the condition, whatever the stream and the patterns
are. -/
theorem watched_of_safe (patterns : List Pattern) (stream : List UInt8)
    (h : ∀ before b, before ++ [b] <+: stream → ∀ list calls,
      Sequences.feed (start patterns) before = .ok (list, calls) → Safe patterns list before b) :
    Watched patterns stream := by
  have hrun (before : List UInt8) (hbefore : before <+: stream) : ∃ list calls,
      Sequences.feed (start patterns) before = .ok (list, calls) ∧ Follows patterns list before calls := by
    induction before using List.reverseRecOn with
    | nil => exact ⟨start patterns, [], rfl, follows_start patterns⟩
    | append_singleton before b ih =>
      obtain ⟨list, calls, hfeed, hfollows⟩ := ih ((List.prefix_append before [b]).trans hbefore)
      obtain ⟨list', c, hput, hfollows'⟩ := hfollows.concat (h before b hbefore list calls hfeed)
      refine ⟨list', calls ++ [c], ?_, hfollows'⟩
      rw [feed_concat, hfeed]
      change (Sequences.put list b).bind _ = _
      rw [hput]
      rfl
  obtain ⟨list, calls, hfeed, hfollows⟩ := hrun stream (List.prefix_refl stream)
  refine ⟨list, calls, hfeed, fun k p hp => ?_⟩
  by_cases hseen : firstEnd p.mask stream = none
  · have hlt : k < list.length := by
      rw [hfollows.ready.length_eq]
      exact (List.getElem?_eq_some_iff.mp hp).1
    obtain ⟨-, hcalls⟩ := hfollows.point k p _ hp (List.getElem?_eq_getElem hlt) hseen
    exact .inl (hcalls.trans hseen.symm)
  · exact hfollows.watched k p hp hseen

/-- The patterns `ab` and `xab` in the stream `axab`: the second byte does not fit the first pattern, and the last one
completes both. -/
theorem watched_overlapping :
    Watched [⟨[], [], [97, 98], List.cons_ne_nil _ _⟩, ⟨[], [], [120, 97, 98], List.cons_ne_nil _ _⟩]
      [97, 120, 97, 98] := by
  refine watched_of_safe _ _ fun before b hbefore list calls hfeed k p s hp hs _ => ?_
  obtain ⟨i, hb, rfl⟩ : ∃ i, [97, 120, 97, 98][i]? = some b ∧ before = [97, 120, 97, 98].take i := by
    obtain ⟨rest, hrest⟩ := hbefore
    exact ⟨before.length, by simp [← hrest], by simp [← hrest]⟩
  have hi : i < 4 := (List.getElem?_eq_some_iff.mp hb).1
  have hk : k < 2 := (List.getElem?_eq_some_iff.mp hp).1
  interval_cases i <;> interval_cases k
  all_goals
    obtain rfl := Option.some.inj hb
    obtain rfl := Option.some.inj hp
    obtain ⟨rfl, -⟩ := Prod.mk.inj (Except.ok.inj hfeed)
    obtain rfl := Option.some.inj hs
    decide

/-- The pattern `aab` in the stream `aaab`: the third `a` makes the matcher forget the second. -/
theorem not_watched_aab : ¬ Watched [⟨[], [], [97, 97, 98], List.cons_ne_nil _ _⟩] [97, 97, 97, 98] := by
  rintro ⟨list, calls, hfeed, h⟩
  obtain ⟨-, rfl⟩ := Prod.mk.inj (Except.ok.inj hfeed)
  rcases h 0 _ rfl with hcalls | ⟨n, -, q, hq, -⟩
  · exact absurd hcalls (by decide)
  · exact absurd hq List.not_mem_nil

end OrgLittle.Rcmd
