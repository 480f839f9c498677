import OrgLittle.Java.Strings
import OrgLittle.Lib.Machine

/-!
# `_ByteBuilder`: growing byte arrays

A builder keeps an array and the count of the bytes in it. `append(_ByteBuilder)` appends the whole array of the other
builder, also the cells behind its count. The contents of the builders are compared with what was appended to them over
whole runs of calls (`run_right`).
-/

namespace OrgLittle.Util

open OrgLittle.Java OrgLittle.Lib

/-! ## The code -/

/-- `System.arraycopy`; the result is the new destination. -/
def arraycopy (src : List UInt8) (srcPos : ℤ) (dest : List UInt8) (destPos length : ℤ) :
    Except JavaException (List UInt8) :=
  if srcPos < 0 ∨ destPos < 0 ∨ length < 0 ∨ srcPos + length > src.length ∨ destPos + length > dest.length then
    .error .indexOutOfBounds
  else
    .ok (dest.take destPos.toNat ++ (src.drop srcPos.toNat).take length.toNat
      ++ dest.drop (destPos + length).toNat)

/-- `new byte[length]`. -/
def newArray (length : ℤ) : Except JavaException (List UInt8) :=
  if length < 0 then .error .negativeArraySize else .ok (List.replicate length.toNat 0)

/-- `_ByteBuilder`. -/
structure ByteBuilder where
  value : List UInt8
  count : ℕ

/-- What a stream does when a builder reads it: the number it reports to be available, the bytes that it stores, not
more than it is asked for, and whether it raises an `IOException` after that. -/
structure StreamRead where
  available : ℤ
  bytes : List UInt8
  raised : Bool
  length_le : bytes.length ≤ available.toNat

namespace ByteBuilder

/-- `_size`. -/
def size (len : ℤ) : Except JavaException ByteBuilder := do
  let value ← newArray len
  return ⟨value, 0⟩

/-- `_addsize`. -/
def addsize (b : ByteBuilder) (len : ℤ) : Except JavaException ByteBuilder :=
  if wrapInt (b.count + len) > b.value.length then do
    let new_value ← newArray (wrapInt (wrapInt (b.count + len) + 100))
    let value ← arraycopy b.value 0 new_value 0 b.value.length
    return ⟨value, b.count⟩
  else return b

/-- `append(byte[])`, where the array may be `null`. -/
def append (b : ByteBuilder) : Option (List UInt8) → Except JavaException ByteBuilder
  | none => return b
  | some buf => do
    let b ← b.addsize buf.length
    let value ← arraycopy buf 0 b.value b.count buf.length
    return ⟨value, b.count + buf.length⟩

/-- `append(byte)`. -/
def appendByte (b : ByteBuilder) (c : UInt8) : Except JavaException ByteBuilder := do
  let b ← b.addsize 1
  if b.count < b.value.length then return ⟨b.value.set b.count c, b.count + 1⟩
  else throw .indexOutOfBounds

/-- `append(int)`. -/
def appendInt (b : ByteBuilder) (i : Int32) : Except JavaException ByteBuilder :=
  b.appendByte (UInt8.ofInt i.toInt)

/-- `append(_ByteBuilder)`: the array of the other builder. -/
def appendBuilder (b buf : ByteBuilder) : Except JavaException ByteBuilder := b.append (some buf.value)

/-- `reset`. -/
def reset (b : ByteBuilder) : ByteBuilder := { b with count := 0 }

/-- `getBytes`. -/
def getBytes (b : ByteBuilder) : Except JavaException (List UInt8) :=
  arraycopy b.value 0 (List.replicate b.count 0) 0 b.count

/-- `read`, with what it returns; that is `none` for an `IOException` of the stream. -/
def read (b : ByteBuilder) (s : StreamRead) : Except JavaException (ByteBuilder × Option ℤ) :=
  if s.available ≤ 0 then return (b, some (-1))
  else do
    let b ← b.addsize s.available
    if b.count + s.available > b.value.length then throw .indexOutOfBounds
    let value ← arraycopy s.bytes 0 b.value b.count s.bytes.length
    if s.raised then return (⟨value, b.count⟩, none)
    else return (⟨value, b.count + s.bytes.length⟩, some (if s.bytes = [] then -1 else s.bytes.length))

end ByteBuilder

/-! ## Runs of calls -/

/-- A constructor, or a method of the builder with the given index in the order of creation. -/
inductive BuilderCall
  | create
  | createLen (len : Int32)
  | createBytes (buf : List UInt8)
  | appendByte (b : ℕ) (c : UInt8)
  | appendInt (b : ℕ) (i : Int32)
  | append (b : ℕ) (buf : Option (List UInt8))
  | appendBuilder (b buf : ℕ)
  | reset (b : ℕ)
  | read (b : ℕ) (s : StreamRead)

namespace BuilderCall

/-- A new builder is put behind the others, unless its constructor raises an exception. -/
def construct (heap : List ByteBuilder) :
    Except JavaException ByteBuilder → List ByteBuilder × List JavaException
  | .ok b => (heap ++ [b], [])
  | .error e => (heap, [e])

/-- A method of the builder `i`. One that raises an exception leaves the builder as it was. -/
def update (heap : List ByteBuilder) (i : ℕ) (f : ByteBuilder → Except JavaException ByteBuilder) :
    List ByteBuilder × List JavaException :=
  match heap[i]? with
  | none => (heap, [])
  | some b =>
    match f b with
    | .ok b' => (heap.set i b', [])
    | .error e => (heap, [e])

/-- The builders and their calls; the outputs are the exceptions. -/
def machine : Machine (List ByteBuilder) BuilderCall JavaException where
  step heap
    | create => construct heap (ByteBuilder.size 100)
    | createLen len => construct heap (ByteBuilder.size len.toInt)
    | createBytes buf => construct heap ((ByteBuilder.size (wrapInt (buf.length + 160))).bind (·.append (some buf)))
    | appendByte b c => update heap b (·.appendByte c)
    | appendInt b i => update heap b (·.appendInt i)
    | append b buf => update heap b (·.append buf)
    | appendBuilder b buf =>
      match heap[buf]? with
      | none => (heap, [])
      | some buf => update heap b (·.appendBuilder buf)
    | reset b => update heap b fun b => .ok b.reset
    | read b s => update heap b fun b => (b.read s).map Prod.fst

/-! ## What is wanted -/

/-- The contents that the builders should have after one more call. -/
def contentsStep (contents : List (List UInt8)) : BuilderCall → List (List UInt8)
  | create => contents ++ [[]]
  | createLen len => if len.toInt < 0 then contents else contents ++ [[]]
  | createBytes buf => contents ++ [buf]
  | appendByte b c => contents.modify b (· ++ [c])
  | appendInt b i => contents.modify b (· ++ [UInt8.ofInt i.toInt])
  | append b buf => contents.modify b (· ++ buf.getD [])
  | appendBuilder b buf => contents.modify b (· ++ contents.getD buf [])
  | reset b => contents.modify b fun _ => []
  | read b s => contents.modify b (· ++ if s.raised then [] else s.bytes)

/-- No call of the run has left an array, and every builder has the bytes appended to it since its creation or its last
reset. -/
def Right (calls : List BuilderCall) : Prop :=
  JavaException.indexOutOfBounds ∉ machine.outputs [] calls
    ∧ (machine.run [] calls).map ByteBuilder.getBytes = (calls.foldl contentsStep []).map .ok

end BuilderCall

namespace ByteBuilder

/-- There is room for `len` more bytes, or the array can grow as far as an `int` counts. -/
def Room (b : ByteBuilder) (len : ℤ) : Prop :=
  b.count + len ≤ b.value.length ∨ b.count + len + 100 < 2 ^ 31

end ByteBuilder

/-- The condition on a call: the bytes fit, and a builder that is appended is full. -/
def BuilderCall.Fits (heap : List ByteBuilder) : BuilderCall → Prop
  | create => True
  | createLen _ => True
  | createBytes buf => (buf.length : ℤ) + 160 < 2 ^ 31
  | appendByte i _ => ∀ b ∈ heap[i]?, b.Room 1
  | appendInt i _ => ∀ b ∈ heap[i]?, b.Room 1
  | append i buf => ∀ b ∈ heap[i]?, b.Room (buf.getD []).length
  | appendBuilder i j =>
    ∀ b ∈ heap[i]?, ∀ buf ∈ heap[j]?, buf.count = buf.value.length ∧ b.Room buf.value.length
  | reset _ => True
  | read i s => ∀ b ∈ heap[i]?, b.Room s.available

/-! ## One call -/

namespace ByteBuilder

/-- The bytes in front of the count. -/
def content (b : ByteBuilder) : List UInt8 := b.value.take b.count

/-- The count lies in the array. -/
structure WellFormed (b : ByteBuilder) : Prop where
  count_le : b.count ≤ b.value.length
  length_lt : (b.value.length : ℤ) < 2 ^ 31

theorem arraycopy_ok {src dest : List UInt8} {pos : ℕ} (h : pos + src.length ≤ dest.length) :
    arraycopy src 0 dest pos src.length = .ok (dest.take pos ++ src ++ dest.drop (pos + src.length)) := by
  rw [arraycopy, if_neg (by omega)]
  have hsum : ((pos : ℤ) + src.length).toNat = pos + src.length := by omega
  rw [hsum, Int.toNat_natCast, Int.toNat_natCast, Int.toNat_zero, List.drop_zero, List.take_length]

theorem getBytes_eq {b : ByteBuilder} (hb : b.WellFormed) : b.getBytes = .ok b.content := by
  have hle := hb.count_le
  rw [getBytes, arraycopy, if_neg (by rw [List.length_replicate]; omega), content]
  simp

/-- Where there is room, the array has it afterwards, with the same content. -/
theorem addsize_ok {b : ByteBuilder} (hb : b.WellFormed) {len : ℕ} (hroom : b.Room len) :
    ∃ value, b.addsize len = .ok ⟨value, b.count⟩ ∧ b.count + len ≤ value.length
      ∧ (value.length : ℤ) < 2 ^ 31 ∧ value.take b.count = b.content := by
  have hle := hb.count_le
  have hlt := hb.length_lt
  by_cases hfits : b.count + len ≤ b.value.length
  · refine ⟨b.value, ?_, hfits, hlt, rfl⟩
    rw [addsize, wrapInt_of_lt (by omega) (by omega), if_neg (by omega)]
    rfl
  · have hgrow : (b.count : ℤ) + len + 100 < 2 ^ 31 := by
      rcases hroom with hroom | hroom
      · omega
      · exact hroom
    refine ⟨b.value ++ List.replicate (b.count + len + 100 - b.value.length) 0, ?_, ?_, ?_, ?_⟩
    · have hsize : ((b.count : ℤ) + len + 100).toNat = b.count + len + 100 := by omega
      have hcopy : arraycopy b.value 0 (List.replicate (b.count + len + 100) 0) ((0 : ℕ) : ℤ) b.value.length = _ :=
        arraycopy_ok (by rw [List.length_replicate]; omega)
      rw [addsize, wrapInt_of_lt (by omega) (by omega), wrapInt_of_lt (by omega) hgrow, if_pos (by omega), newArray,
        if_neg (by omega), hsize]
      change (arraycopy b.value 0 _ 0 b.value.length).bind _ = _
      rw [show arraycopy b.value 0 (List.replicate (b.count + len + 100) 0) 0 b.value.length = _ from hcopy,
        List.take_zero, List.nil_append, Nat.zero_add, List.drop_replicate]
      rfl
    · rw [List.length_append, List.length_replicate]
      omega
    · rw [List.length_append, List.length_replicate]
      omega
    · rw [List.take_append_of_le_length hle, content]

theorem append_ok {b : ByteBuilder} (hb : b.WellFormed) {buf : List UInt8} (hroom : b.Room buf.length) :
    ∃ b', b.append (some buf) = .ok b' ∧ b'.WellFormed ∧ b'.content = b.content ++ buf := by
  obtain ⟨value, hsize, hfits, hlt, hcontent⟩ := addsize_ok hb hroom
  refine ⟨⟨value.take b.count ++ buf ++ value.drop (b.count + buf.length), b.count + buf.length⟩, ?_, ⟨?_, ?_⟩, ?_⟩
  · rw [append, hsize]
    change (arraycopy buf 0 value b.count buf.length).bind _ = _
    rw [arraycopy_ok hfits]
    rfl
  · exact (length_stored hfits).symm ▸ hfits
  · exact (length_stored hfits).symm ▸ hlt
  · rw [content, take_stored (by omega), hcontent]

/-- A builder with free cells is never appended as it should be. -/
theorem appendBuilder_free {b buf b' : ByteBuilder} (hb : b.WellFormed) (hroom : b.Room buf.value.length)
    (hfree : buf.count < buf.value.length) (h : b.appendBuilder buf = .ok b') :
    b'.content ≠ b.content ++ buf.content := by
  obtain ⟨c, hok, -, hcontent⟩ := append_ok hb hroom
  obtain rfl : c = b' := Except.ok.inj (hok.symm.trans h)
  rw [hcontent]
  intro hsame
  have hlength := congrArg List.length (List.append_cancel_left hsame)
  rw [content, List.length_take] at hlength
  omega

theorem appendByte_ok {b : ByteBuilder} (hb : b.WellFormed) (hroom : b.Room 1) (c : UInt8) :
    ∃ b', b.appendByte c = .ok b' ∧ b'.WellFormed ∧ b'.content = b.content ++ [c] := by
  obtain ⟨value, hsize, hfits, hlt, hcontent⟩ := addsize_ok hb (show b.Room ((1 : ℕ) : ℤ) from hroom)
  refine ⟨⟨value.set b.count c, b.count + 1⟩, ?_, ⟨?_, ?_⟩, ?_⟩
  · rw [appendByte, show b.addsize 1 = _ from hsize]
    change (if b.count < value.length then _ else _) = _
    rw [if_pos (by omega)]
    rfl
  · rwa [List.length_set]
  · rwa [List.length_set]
  · rw [content, List.take_succ_eq_append_getElem (by rw [List.length_set]; omega), List.getElem_set_self,
      List.take_set_of_le (le_refl _), hcontent]

theorem read_ok {b : ByteBuilder} (hb : b.WellFormed) {s : StreamRead} (hroom : b.Room s.available) :
    ∃ b' ret, b.read s = .ok (b', ret) ∧ b'.WellFormed
      ∧ b'.content = b.content ++ if s.raised then [] else s.bytes := by
  have hbytes := s.length_le
  by_cases hnone : s.available ≤ 0
  · have hnil : s.bytes = [] := List.length_eq_zero_iff.mp (by omega)
    refine ⟨b, some (-1), ?_, hb, ?_⟩
    · rw [read, if_pos hnone]
      rfl
    · rw [hnil, ite_self, List.append_nil]
  · obtain ⟨len, hlen⟩ := Int.eq_ofNat_of_zero_le (show 0 ≤ s.available by omega)
    rw [hlen] at hroom hnone hbytes
    rw [Int.toNat_natCast] at hbytes
    obtain ⟨value, hsize, hfits, hlt, hcontent⟩ := addsize_ok hb hroom
    have hcount : b.count ≤ value.length := le_trans (Nat.le_add_right _ _) hfits
    have hstored : b.count + s.bytes.length ≤ value.length := by omega
    have hread : b.read s = if s.raised then
        .ok (⟨value.take b.count ++ s.bytes ++ value.drop (b.count + s.bytes.length), b.count⟩, none)
      else .ok (⟨value.take b.count ++ s.bytes ++ value.drop (b.count + s.bytes.length), b.count + s.bytes.length⟩,
        some (if s.bytes = [] then -1 else s.bytes.length)) := by
      rw [read, hlen, if_neg hnone, hsize]
      change (if (b.count : ℤ) + (len : ℤ) > value.length then _ else _) = _
      rw [if_neg (by omega)]
      change (arraycopy s.bytes 0 value b.count s.bytes.length).bind _ = _
      rw [arraycopy_ok hstored]
      rfl
    cases hraised : s.raised with
    | true =>
      rw [hraised, if_pos rfl] at hread
      refine ⟨_, _, hread, ⟨?_, ?_⟩, ?_⟩
      · rw [length_stored hstored]
        exact hcount
      · rwa [length_stored hstored]
      · rw [if_pos rfl, List.append_nil, content, List.append_assoc, List.take_append_of_le_length
          (by rw [List.length_take, Nat.min_eq_left hcount]), List.take_take, Nat.min_self, hcontent]
    | false =>
      rw [hraised, if_neg Bool.false_ne_true] at hread
      refine ⟨_, _, hread, ⟨?_, ?_⟩, ?_⟩
      · rwa [length_stored hstored]
      · rwa [length_stored hstored]
      · rw [if_neg Bool.false_ne_true, content, take_stored (by omega), hcontent]

end ByteBuilder

/-! ## Runs -/

namespace BuilderCall

/-- The builders have the given contents. -/
structure Holds (heap : List ByteBuilder) (contents : List (List UInt8)) : Prop where
  wellFormed : ∀ b ∈ heap, b.WellFormed
  content : heap.map ByteBuilder.content = contents

/-- What a call should do: no exception of an index, and the new contents. -/
def Kept (result : List ByteBuilder × List JavaException) (contents : List (List UInt8)) : Prop :=
  Holds result.1 contents ∧ JavaException.indexOutOfBounds ∉ result.2

theorem kept_construct {heap : List ByteBuilder} {contents : List (List UInt8)} (h : Holds heap contents)
    {b : ByteBuilder} (hb : b.WellFormed) :
    Kept (construct heap (.ok b)) (contents ++ [b.content]) := by
  refine ⟨⟨fun c hc => ?_, ?_⟩, List.not_mem_nil⟩
  · rcases List.mem_append.mp hc with hc | hc
    · exact h.wellFormed c hc
    · rwa [List.mem_singleton.mp hc]
  · rw [construct, List.map_append, h.content, List.map_singleton]

/-- A method that adds to the content of a builder as it should. -/
theorem kept_update {heap : List ByteBuilder} {contents : List (List UInt8)} (h : Holds heap contents) (i : ℕ)
    {f : ByteBuilder → Except JavaException ByteBuilder} {g : List UInt8 → List UInt8}
    (hf : ∀ b ∈ heap[i]?, b.WellFormed → ∃ b', f b = .ok b' ∧ b'.WellFormed ∧ b'.content = g b.content) :
    Kept (update heap i f) (contents.modify i g) := by
  have hget : contents[i]? = heap[i]?.map ByteBuilder.content := by rw [← h.content, List.getElem?_map]
  cases hb : heap[i]? with
  | none =>
    rw [hb, Option.map_none] at hget
    rw [update, hb, List.modify_eq_set_getElem?, hget]
    exact ⟨h, List.not_mem_nil⟩
  | some b =>
    obtain ⟨b', hok, hwell, hcontent⟩ := hf b hb (h.wellFormed b (List.mem_of_getElem? hb))
    rw [hb, Option.map_some] at hget
    rw [update, hb, List.modify_eq_set_getElem?, hget]
    simp only [hok]
    refine ⟨⟨fun c hc => ?_, ?_⟩, List.not_mem_nil⟩
    · rcases List.mem_or_eq_of_mem_set hc with hc | rfl
      · exact h.wellFormed c hc
      · exact hwell
    · rw [List.map_set, h.content, hcontent]
      rfl

theorem size_ok {len : ℤ} (hpos : 0 ≤ len) : ByteBuilder.size len = .ok ⟨List.replicate len.toNat 0, 0⟩ := by
  rw [ByteBuilder.size, newArray, if_neg (by omega)]
  rfl

theorem wellFormed_new {len : ℤ} (hlt : len < 2 ^ 31) :
    ByteBuilder.WellFormed ⟨List.replicate len.toNat 0, 0⟩ := by
  refine ⟨Nat.zero_le _, ?_⟩
  rw [List.length_replicate]
  omega

/-- A builder of a given length, or the exception for a negative one. -/
theorem kept_createLen {heap : List ByteBuilder} {contents : List (List UInt8)} (h : Holds heap contents)
    (len : Int32) :
    Kept (construct heap (ByteBuilder.size len.toInt)) (if len.toInt < 0 then contents else contents ++ [[]]) := by
  by_cases hneg : len.toInt < 0
  · have hsize : ByteBuilder.size len.toInt = .error .negativeArraySize := by
      rw [ByteBuilder.size, newArray, if_pos hneg]
      rfl
    rw [hsize, if_pos hneg]
    exact ⟨h, fun hmem => absurd (List.mem_singleton.mp hmem) (by decide)⟩
  · have hkept := kept_construct h (wellFormed_new len.toInt_lt)
    rw [← size_ok (by omega)] at hkept
    rwa [if_neg hneg]

/-- A builder of given bytes. -/
theorem kept_createBytes {heap : List ByteBuilder} {contents : List (List UInt8)} (h : Holds heap contents)
    {buf : List UInt8} (hlimit : (buf.length : ℤ) + 160 < 2 ^ 31) :
    Kept (construct heap ((ByteBuilder.size (wrapInt (buf.length + 160))).bind (·.append (some buf))))
      (contents ++ [buf]) := by
  have hroom : ByteBuilder.Room ⟨List.replicate ((buf.length : ℤ) + 160).toNat 0, 0⟩ buf.length := by
    left
    rw [List.length_replicate]
    change ((0 : ℕ) : ℤ) + _ ≤ _
    omega
  obtain ⟨b, hok, hwell, hcontent⟩ := ByteBuilder.append_ok (wellFormed_new hlimit) hroom
  have hkept := kept_construct h hwell
  rw [hcontent, ByteBuilder.content, List.take_zero, List.nil_append] at hkept
  rw [wrapInt_of_lt (by omega) hlimit, size_ok (by omega), Except.bind, hok]
  exact hkept

/-- A builder without free cells is appended as it should be, where there is room. -/
theorem kept_appendBuilder {heap : List ByteBuilder} {contents : List (List UInt8)} (h : Holds heap contents)
    (i j : ℕ) (hfits : ∀ b ∈ heap[i]?, ∀ buf ∈ heap[j]?, buf.count = buf.value.length ∧ b.Room buf.value.length) :
    Kept (match heap[j]? with | none => (heap, []) | some buf => update heap i (·.appendBuilder buf))
      (contents.modify i (· ++ contents.getD j [])) := by
  have hget : contents.getD j [] = (heap[j]?.map ByteBuilder.content).getD [] := by
    rw [← h.content, List.getD_eq_getElem?_getD, List.getElem?_map]
  cases hj : heap[j]? with
  | none =>
    have hsame : contents.modify i (· ++ []) = contents := by
      simp only [List.append_nil]
      exact List.modify_id i contents
    rw [hj, Option.map_none, Option.getD_none] at hget
    rw [hget, hsame]
    exact ⟨h, List.not_mem_nil⟩
  | some buf =>
    rw [hj, Option.map_some, Option.getD_some] at hget
    rw [hget]
    refine kept_update h i fun b hb hwell => ?_
    obtain ⟨hfull, hroom⟩ := hfits b hb buf hj
    have hcontent : buf.content = buf.value := by rw [ByteBuilder.content, hfull, List.take_length]
    rw [hcontent]
    exact ByteBuilder.append_ok hwell hroom

/-- One call that meets the condition. -/
theorem step_kept {heap : List ByteBuilder} {contents : List (List UInt8)} (h : Holds heap contents)
    {call : BuilderCall} (hfits : call.Fits heap) :
    Kept (machine.step heap call) (contentsStep contents call) := by
  cases call with
  | create =>
    have hkept := kept_construct h (wellFormed_new (show (100 : ℤ) < 2 ^ 31 by omega))
    rwa [← size_ok (by omega)] at hkept
  | createLen len => exact kept_createLen h len
  | createBytes buf =>
    have hlimit : (buf.length : ℤ) + 160 < 2 ^ 31 := hfits
    simp only [machine, contentsStep]
    exact kept_createBytes h hlimit
  | appendByte i c =>
    have hroom : ∀ b ∈ heap[i]?, b.Room 1 := hfits
    change Kept (update heap i (·.appendByte c)) (contents.modify i (· ++ [c]))
    exact kept_update h i fun b hb hwell => ByteBuilder.appendByte_ok hwell (hroom b hb) c
  | appendInt i c =>
    have hroom : ∀ b ∈ heap[i]?, b.Room 1 := hfits
    change Kept (update heap i (·.appendInt c)) (contents.modify i (· ++ [UInt8.ofInt c.toInt]))
    exact kept_update h i fun b hb hwell => ByteBuilder.appendByte_ok hwell (hroom b hb) _
  | append i buf =>
    refine kept_update h i fun b hb hwell => ?_
    cases buf with
    | none => exact ⟨b, rfl, hwell, (List.append_nil _).symm⟩
    | some buf => exact ByteBuilder.append_ok hwell (hfits b hb)
  | appendBuilder i j => exact kept_appendBuilder h i j hfits
  | reset i =>
    exact kept_update h i fun b _ hwell => ⟨b.reset, rfl, ⟨Nat.zero_le _, hwell.length_lt⟩, List.take_zero⟩
  | read i s =>
    refine kept_update h i fun b hb hwell => ?_
    obtain ⟨b', ret, hok, hread⟩ := ByteBuilder.read_ok hwell (hfits b hb)
    exact ⟨b', by rw [hok]; rfl, hread⟩

/-- A run whose calls all meet the condition keeps all contents. -/
theorem run_kept {heap : List ByteBuilder} {contents : List (List UInt8)} (h : Holds heap contents)
    {calls : List BuilderCall} (hfits : machine.Along (fun heap call => call.Fits heap) heap calls) :
    Kept (machine.run heap calls, machine.outputs heap calls) (calls.foldl contentsStep contents) := by
  induction calls generalizing heap contents with
  | nil => exact ⟨h, List.not_mem_nil⟩
  | cons call calls ih =>
    obtain ⟨hholds, hfree⟩ := step_kept h hfits.1
    obtain ⟨hholds', hfree'⟩ := ih hholds hfits.2
    exact ⟨hholds', fun hmem => (List.mem_append.mp hmem).elim hfree hfree'⟩

/-- In every state of a run whose calls all meet the condition the builders give back what was appended to them. -/
theorem run_right (calls : List BuilderCall)
    (h : machine.Along (fun heap call => call.Fits heap) [] calls) : Right calls := by
  have hstart : Holds [] [] := ⟨fun b hb => absurd hb List.not_mem_nil, rfl⟩
  obtain ⟨⟨hwell, hcontent⟩, hfree⟩ := run_kept hstart h
  refine ⟨hfree, ?_⟩
  rw [← hcontent, List.map_map]
  exact List.map_congr_left fun b hb => ByteBuilder.getBytes_eq (hwell b hb)

/-- A full builder of one byte is appended to itself. -/
theorem run_right_self : Right [.createLen 1, .appendByte 0 7, .appendBuilder 0 0] := by
  refine run_right _ ⟨trivial, fun b hb => ?_, fun b hb buf hbuf => ?_, trivial⟩
  · obtain rfl : ⟨[0], 0⟩ = b := Option.some.inj hb
    exact .inl (by decide)
  · obtain rfl : ⟨[7], 1⟩ = b := Option.some.inj hb
    obtain rfl : ⟨[7], 1⟩ = buf := Option.some.inj hbuf
    exact ⟨rfl, .inr (by decide)⟩

/-- A builder with room for two bytes and one byte in it is appended with both. -/
theorem not_right_free : ¬ Right [.createLen 2, .createLen 2, .appendByte 0 1, .appendBuilder 1 0] := by
  intro h
  have hrun : machine.run [] [.createLen 2, .createLen 2, .appendByte 0 1, .appendBuilder 1 0]
      = [⟨[1, 0], 1⟩, ⟨[1, 0], 2⟩] := rfl
  have hbytes := h.2
  rw [hrun] at hbytes
  have hsecond := congrArg (fun l => l[1]?.map fun bytes => bytes.toOption.map List.length) hbytes
  exact absurd hsecond (by decide)

end BuilderCall

end OrgLittle.Util
