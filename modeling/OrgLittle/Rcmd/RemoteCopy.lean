import OrgLittle.Java.Strings

/-!
# `rCP_Remote2Buffer`: copying a remote file into a buffer

`_run` speaks the protocol of `scp -f`: a line with mode, size and name, then the content, then a status byte. Four
loops read the stream, each with its own idea of the end of the stream. `copied_iff` says for which streams, cut off
anywhere, the copy ends and is complete.
-/

namespace OrgLittle.Rcmd

open OrgLittle.Java

/-! ## Reading -/

/-- What `_run` works on: the bytes that the remote side still sends, its `buf` and the field `buffer`. `last` is the
header that was read last, with the stream behind it. -/
structure CopyState where
  input : List UInt8
  buf : List UInt8
  buffer : Option (List UInt8)
  last : Option (List UInt8 × List UInt8)

/-- How many bytes a read for `len` of them gets. It may get fewer than there are; between two reads that get something
the stream becomes shorter, so that `chunk` can depend on what is left alone. -/
def readLength (chunk : ℕ → ℕ) (input : List UInt8) (len : ℕ) : ℕ :=
  min (min len input.length) (max 1 (chunk input.length))

/-- `in.read(buf, off, len)`, with the number of bytes, or -1 at the end of the stream. -/
def readBuf (chunk : ℕ → ℕ) (s : CopyState) (off len : ℤ) : Except JavaException (ℤ × CopyState) :=
  if off < 0 ∨ len < 0 ∨ off + len > s.buf.length then .error .indexOutOfBounds
  else if len = 0 then .ok (0, s)
  else if s.input = [] then .ok (-1, s)
  else
    let k := readLength chunk s.input len.toNat
    .ok (k, { s with
      input := s.input.drop k
      buf := s.buf.take off.toNat ++ s.input.take k ++ s.buf.drop (off.toNat + k) })

/-- The loop of `checkAck` that reads a message line, with the number of turns that it may take. At the end of the
stream `read` gives -1, which is not the line end either. -/
def ackLoop : ℕ → List UInt8 → Option (List UInt8)
  | 0, _ => none
  | turns + 1, [] => ackLoop turns []
  | turns + 1, c :: input => if c = LF then some input else ackLoop turns input

/-- `checkAck`, with what is left of the stream. -/
def checkAck (turns : ℕ) : List UInt8 → Option (ℤ × List UInt8)
  | [] => some (-1, [])
  | b :: input =>
    if b = 1 ∨ b = 2 then (ackLoop turns input).map fun input => ((b.toNat : ℤ), input)
    else some ((b.toNat : ℤ), input)

/-! ## `_run` -/

/-- The value that a `long` keeps. -/
def wrapLong (v : ℤ) : ℤ := (v + 2 ^ 63) % 2 ^ 64 - 2 ^ 63

/-- `filesize*10L+(long)(buf[0]-'0')`. -/
def sizeStep (filesize : ℤ) (b : UInt8) : ℤ := wrapLong (wrapLong (filesize * 10) + (b.toInt8.toInt - 48))

/-- The loop that reads the size, byte by byte into `buf[0]`, up to a blank or the end of the stream. -/
def sizeLoop (buf : List UInt8) (filesize : ℤ) : List UInt8 → ℤ × List UInt8 × List UInt8
  | [] => (filesize, buf, [])
  | b :: input =>
    let buf := buf.set 0 b
    if b = SP then (filesize, buf, input) else sizeLoop buf (sizeStep filesize b) input

/-- The loop that reads the name from the index `i` on, with the number of turns that are left. -/
def nameLoop (chunk : ℕ → ℕ) : ℕ → ℕ → CopyState → Except JavaException CopyState
  | 0, _, _ => .error .indexOutOfBounds
  | turns + 1, i, s =>
    match readBuf chunk s i 1 with
    | .error e => .error e
    | .ok (_, s) => if s.buf[i]? = some LF then .ok s else nameLoop chunk turns (i + 1) s

/-- The header behind the `C`: mode, size and name. No index of `buf` is greater than its length. -/
def readHeader (chunk : ℕ → ℕ) (s : CopyState) : Except JavaException (ℤ × CopyState) := do
  let text := s.input
  let (_, s) ← readBuf chunk s 0 5
  let (filesize, buf, input) := sizeLoop s.buf 0 s.input
  let s ← nameLoop chunk (s.buf.length + 1) 0 { s with buf := buf, input := input }
  return (filesize, { s with last := some (67 :: text.take (text.length - s.input.length), s.input) })

/-- The loop that reads the content, with the number of turns that it may take. -/
def contentLoop (chunk : ℕ → ℕ) :
    ℕ → ℤ → List UInt8 → CopyState → Option (Except JavaException (List UInt8 × CopyState))
  | 0, _, _, _ => none
  | turns + 1, filesize, fos, s =>
    let foo := if (s.buf.length : ℤ) < filesize then (s.buf.length : ℤ) else wrapInt filesize
    match readBuf chunk s 0 foo with
    | .error e => some (.error e)
    | .ok (foo, s) =>
      if foo < 0 then some (.ok (fos, s))
      else
        let fos := fos ++ s.buf.take foo.toNat
        let filesize := wrapLong (filesize - foo)
        if filesize = 0 then some (.ok (fos, s)) else contentLoop chunk turns filesize fos s

/-- `buf[0]=0`, before a zero is sent. -/
def clearFirst (s : CopyState) : CopyState := { s with buf := s.buf.set 0 0 }

/-- The loop of `_run`, with the number of turns that it may take, and that of the loops in it. -/
def copyLoop (chunk : ℕ → ℕ) (inner : ℕ) :
    ℕ → Bool → CopyState → Option (Except JavaException (Bool × CopyState))
  | 0, _, _ => none
  | turns + 1, ret, s =>
    match checkAck inner s.input with
    | none => none
    | some (c, input) =>
      if c ≠ 67 then some (.ok (ret, { s with input := input }))
      else
        match readHeader chunk { s with input := input } with
        | .error e => some (.error e)
        | .ok (filesize, s) =>
          match contentLoop chunk inner filesize [] (clearFirst s) with
          | none => none
          | some (.error e) => some (.error e)
          | some (.ok (fos, s)) =>
            let s := { s with buffer := some fos }
            match checkAck inner s.input with
            | none => none
            | some (ack, input) =>
              let s := { s with input := input }
              if ack ≠ 0 then some (.ok (true, s)) else copyLoop chunk inner turns true (clearFirst s)

/-- `_run` on a stream; what it sends goes through. -/
def copy (chunk : ℕ → ℕ) (turns : ℕ) (stream : List UInt8) : Option (Except JavaException (Bool × CopyState)) :=
  copyLoop chunk turns turns false ⟨stream, List.replicate 1024 0, none, none⟩

/-! ## What is wanted -/

/-- The header line announces `n` bytes. The mode has four octal digits. -/
inductive Announces : List UInt8 → ℕ → Prop
  | header {mode digits name : List UInt8} (hmode : mode.length = 4 ∧ ∀ d ∈ mode, 48 ≤ d ∧ d ≤ 55)
      (hdigits : digits ≠ [] ∧ ∀ d ∈ digits, 48 ≤ d ∧ d ≤ 57) (hname : LF ∉ name) :
      Announces (67 :: (mode ++ SP :: (digits ++ SP :: (name ++ [LF]))))
        (Nat.ofDigits 10 (digits.reverse.map fun d => d.toNat - 48))

/-- If `_run` returns true, the buffer is the announced number of bytes that follow the last header. -/
def CopyState.Delivers (s : CopyState) (ret : Bool) : Prop :=
  ret = true → ∃ header rest n, s.last = some (header, rest) ∧ Announces header n ∧ n ≤ rest.length
    ∧ s.buffer = some (rest.take n)

/-- `_run` ends without an exception, and what it leaves is right. -/
def Copied (chunk : ℕ → ℕ) (stream : List UInt8) : Prop :=
  ∃ turns ret s, copy chunk turns stream = some (.ok (ret, s)) ∧ s.Delivers ret

/-! ## The condition -/

/-- The number that `_run` makes of a size field. -/
def sizeOf (field : List UInt8) : ℤ := field.foldl sizeStep 0

/-- What the content loop leaves of a stream; `none` if it does not come to an end. A negative number is cut down to
its low 32 bits, and only the end of the stream can stop the loop. -/
def behind (filesize : ℤ) (rest : List UInt8) : Option (List UInt8) :=
  if 0 ≤ filesize then some (rest.drop filesize.toNat)
  else if (rest.length : ℤ) < wrapInt filesize ∧ wrapInt filesize ≤ 1024 then some []
  else none

/-- A status byte that begins a message has a line end behind it. -/
def AckEnds (input : List UInt8) : Prop := ∀ b rest, input = b :: rest → b = 1 ∨ b = 2 → LF ∈ rest

/-- A file as it is found in the stream: its header, the number that `_run` makes of the size, and what follows. -/
structure RemoteFile where
  header : List UInt8
  size : ℤ
  rest : List UInt8

/-- The announced bytes are there, and their number is the one read, or the stream ends right behind them, which
stops a loop that would go on. -/
def RemoteFile.Complete (f : RemoteFile) : Prop :=
  ∃ n, Announces f.header n ∧ n ≤ f.rest.length
    ∧ (f.size = n ∨ n = f.rest.length ∧ ¬ (0 ≤ f.size ∧ f.size ≤ n))

/-- The condition on a stream, behind the file `last`. The fields of a header are as `_run` reads them. -/
inductive Deliverable (chunk : ℕ → ℕ) : Option RemoteFile → List UInt8 → Prop
  /-- no file begins here -/
  | stop {last : Option RemoteFile} {input : List UInt8} (hack : AckEnds input) (hcode : input.head? ≠ some 67)
      (hlast : ∀ f ∈ last, f.Complete) : Deliverable chunk last input
  /-- a file with a status of zero -/
  | file {last : Option RemoteFile} {mode field name rest next : List UInt8}
      (hmode : mode.length = readLength chunk (mode ++ (field ++ SP :: (name ++ LF :: rest))) 5)
      (hfield : SP ∉ field) (hname : LF ∉ name) (hlength : name.length < 1024)
      (hbehind : behind (sizeOf field) rest = some (0 :: next))
      (hnext : Deliverable chunk (some ⟨67 :: (mode ++ (field ++ SP :: (name ++ [LF]))), sizeOf field, rest⟩) next) :
      Deliverable chunk last (67 :: (mode ++ (field ++ SP :: (name ++ LF :: rest))))
  /-- a file with another status, or the end of the stream behind it -/
  | lastFile {last : Option RemoteFile} {mode field name rest after : List UInt8}
      (hmode : mode.length = readLength chunk (mode ++ (field ++ SP :: (name ++ LF :: rest))) 5)
      (hfield : SP ∉ field) (hname : LF ∉ name) (hlength : name.length < 1024)
      (hbehind : behind (sizeOf field) rest = some after) (hack : AckEnds after) (hcode : after.head? ≠ some 0)
      (hcomplete : RemoteFile.Complete ⟨67 :: (mode ++ (field ++ SP :: (name ++ [LF]))), sizeOf field, rest⟩) :
      Deliverable chunk last (67 :: (mode ++ (field ++ SP :: (name ++ LF :: rest))))

/-! ## The reads -/

section reads

variable {chunk : ℕ → ℕ}

/-- A read that is not at the end gives something, and not too much. -/
theorem readLength_bounds (chunk : ℕ → ℕ) {input : List UInt8} (hinput : input ≠ []) {len : ℕ} (hlen : 0 < len) :
    0 < readLength chunk input len ∧ readLength chunk input len ≤ len
      ∧ readLength chunk input len ≤ input.length := by
  have hpos : 0 < input.length := List.length_pos_iff.mpr hinput
  have hmax : 1 ≤ max 1 (chunk input.length) := le_max_left _ _
  rw [readLength]
  omega

/-- A read that fits into `buf`. -/
theorem readBuf_ok (chunk : ℕ → ℕ) (s : CopyState) {off len : ℕ} (hlen : 0 < len) (hfits : off + len ≤ s.buf.length) :
    readBuf chunk s off len = if s.input = [] then .ok (-1, s) else
      .ok ((readLength chunk s.input len : ℤ), { s with
        input := s.input.drop (readLength chunk s.input len)
        buf := s.buf.take off ++ s.input.take (readLength chunk s.input len)
          ++ s.buf.drop (off + readLength chunk s.input len) }) := by
  rw [readBuf, if_neg (by omega), if_neg (by omega)]
  simp only [Int.toNat_natCast]

/-- One byte of the name. -/
theorem readBuf_one (chunk : ℕ → ℕ) {s : CopyState} {i : ℕ} (hi : i < s.buf.length) {b : UInt8}
    {input : List UInt8} (hinput : s.input = b :: input) :
    readBuf chunk s i 1 = .ok (1, { s with input := input, buf := s.buf.set i b }) := by
  have hlength : readLength chunk (b :: input) 1 = 1 := by
    rw [readLength, List.length_cons]
    omega
  have hset : s.buf.take i ++ [b] ++ s.buf.drop (i + 1) = s.buf.set i b := by
    rw [List.set_eq_take_append_cons_drop, if_pos hi, List.append_assoc]
    rfl
  have hread := readBuf_ok chunk s Nat.one_pos (show i + 1 ≤ s.buf.length from hi)
  rw [hinput, if_neg (List.cons_ne_nil _ _), hlength] at hread
  rw [← hset]
  exact hread

/-! ### The name -/

/-- A name that is short enough. -/
theorem nameLoop_ok (chunk : ℕ → ℕ) {turns i : ℕ} {s : CopyState} {name rest : List UInt8}
    (hinput : s.input = name ++ LF :: rest) (hname : LF ∉ name) (hlength : i + name.length < s.buf.length)
    (hturns : name.length < turns) :
    ∃ buf, nameLoop chunk turns i s = .ok { s with input := rest, buf := buf } ∧ buf.length = s.buf.length := by
  induction name generalizing turns i s with
  | nil =>
    obtain ⟨turns, rfl⟩ := Nat.exists_eq_succ_of_ne_zero (Nat.ne_of_gt hturns)
    rw [List.length_nil, Nat.add_zero] at hlength
    refine ⟨s.buf.set i LF, ?_, List.length_set⟩
    rw [nameLoop, readBuf_one chunk hlength hinput]
    simp only [List.getElem?_set_self hlength, if_true]
  | cons b name ih =>
    obtain ⟨turns, rfl⟩ := Nat.exists_eq_succ_of_ne_zero (Nat.ne_of_gt (Nat.zero_lt_of_lt hturns))
    rw [List.mem_cons, not_or] at hname
    rw [List.length_cons] at hlength hturns
    have hi : i < s.buf.length := by omega
    obtain ⟨buf, hloop, hbuf⟩ := @ih turns (i + 1) { s with input := name ++ LF :: rest, buf := s.buf.set i b } rfl
      hname.2 (by rw [List.length_set]; omega) (by omega)
    refine ⟨buf, ?_, hbuf.trans List.length_set⟩
    rw [nameLoop, readBuf_one chunk hi hinput]
    simp only [List.getElem?_set_self hi, Option.some.injEq, if_neg (Ne.symm hname.1)]
    exact hloop

/-- The loop keeps the length of `buf` and the other fields. -/
structure Frame (s s' : CopyState) : Prop where
  length : s'.buf.length = s.buf.length
  buffer : s'.buffer = s.buffer
  last : s'.last = s.last

theorem Frame.refl (s : CopyState) : Frame s s := ⟨rfl, rfl, rfl⟩

theorem Frame.trans {s s' s'' : CopyState} (h : Frame s s') (h' : Frame s' s'') : Frame s s'' :=
  ⟨h'.length.trans h.length, h'.buffer.trans h.buffer, h'.last.trans h.last⟩

/-- A name that was read: it was there, or the stream has come to its end and `buf` had an old line end. -/
theorem nameLoop_inv {turns i : ℕ} {s s' : CopyState} (h : nameLoop chunk turns i s = .ok s') :
    Frame s s' ∧ ((∃ name, s.input = name ++ LF :: s'.input ∧ LF ∉ name ∧ i + name.length < s.buf.length)
        ∨ LF ∉ s.input ∧ s'.input = []) := by
  induction turns generalizing i s with
  | zero => cases h
  | succ turns ih =>
    rw [nameLoop] at h
    by_cases hi : i < s.buf.length
    · cases hinput : s.input with
      | nil =>
        have hread := readBuf_ok chunk s Nat.one_pos (show i + 1 ≤ s.buf.length from hi)
        rw [if_pos hinput] at hread
        rw [show readBuf chunk s i 1 = _ from hread] at h
        simp only at h
        split at h
        · obtain rfl := Except.ok.inj h
          exact ⟨Frame.refl s, .inr ⟨List.not_mem_nil, hinput⟩⟩
        · obtain ⟨hframe, ⟨name, hname, -⟩ | ⟨-, hnil⟩⟩ := ih h
          · rw [hinput] at hname
            exact absurd hname (by simp)
          · exact ⟨hframe, .inr ⟨List.not_mem_nil, hnil⟩⟩
      | cons b input =>
        have hset : Frame s { s with input := input, buf := s.buf.set i b } := ⟨List.length_set, rfl, rfl⟩
        rw [readBuf_one chunk hi hinput] at h
        simp only [List.getElem?_set_self hi, Option.some.injEq] at h
        split at h
        · rename_i hb
          obtain rfl := Except.ok.inj h
          exact ⟨hset, .inl ⟨[], by rw [hb]; rfl, List.not_mem_nil, hi⟩⟩
        · rename_i hb
          have hnot : ¬ LF = b := fun hlf => hb hlf.symm
          obtain ⟨hframe, ⟨name, hname, hmem, hlength⟩ | ⟨hmem, hnil⟩⟩ := ih h
          · rw [List.length_set] at hlength
            refine ⟨hset.trans hframe, .inl ⟨b :: name, congrArg (List.cons b) hname, ?_, ?_⟩⟩
            · rw [List.mem_cons, not_or]
              exact ⟨hnot, hmem⟩
            · rw [List.length_cons]
              omega
          · refine ⟨hset.trans hframe, .inr ⟨?_, hnil⟩⟩
            rw [List.mem_cons, not_or]
            exact ⟨hnot, hmem⟩
    · rw [readBuf, if_pos (by omega)] at h
      cases h

/-! ### The header -/

/-- What is wrapped around is a `long`. -/
theorem wrapLong_range (v : ℤ) : -2 ^ 63 ≤ wrapLong v ∧ wrapLong v < 2 ^ 63 := by
  rw [wrapLong]
  omega

/-- A `long` stays as it is. -/
theorem wrapLong_of_range {v : ℤ} (hlo : -2 ^ 63 ≤ v) (hhi : v < 2 ^ 63) : wrapLong v = v := by
  rw [wrapLong]
  omega

/-- Whatever the field is, what is read as the size is a `long`. -/
theorem sizeOf_range (field : List UInt8) : -2 ^ 63 ≤ sizeOf field ∧ sizeOf field < 2 ^ 63 := by
  rcases List.eq_nil_or_concat field with rfl | ⟨field, b, rfl⟩
  · exact ⟨by decide, by decide⟩
  · rw [sizeOf, List.concat_eq_append, List.foldl_concat, sizeStep]
    exact wrapLong_range _

/-- The size is read up to the blank. -/
theorem sizeLoop_blank (buf : List UInt8) (filesize : ℤ) {field : List UInt8} (hfield : SP ∉ field)
    (rest : List UInt8) : ∃ buf', sizeLoop buf filesize (field ++ SP :: rest)
        = (field.foldl sizeStep filesize, buf', rest) ∧ buf'.length = buf.length := by
  induction field generalizing buf filesize with
  | nil => exact ⟨buf.set 0 SP, rfl, List.length_set⟩
  | cons b field ih =>
    rw [List.mem_cons, not_or] at hfield
    obtain ⟨buf', hloop, hlength⟩ := ih (buf.set 0 b) (sizeStep filesize b) hfield.2
    refine ⟨buf', ?_, hlength.trans List.length_set⟩
    rw [List.cons_append, sizeLoop, if_neg (Ne.symm hfield.1), hloop]
    rfl

/-- Without a blank the size is read up to the end. -/
theorem sizeLoop_end (buf : List UInt8) (filesize : ℤ) {input : List UInt8} (hinput : SP ∉ input) :
    ∃ buf', sizeLoop buf filesize input = (input.foldl sizeStep filesize, buf', []) ∧ buf'.length = buf.length := by
  induction input generalizing buf filesize with
  | nil => exact ⟨buf, rfl, rfl⟩
  | cons b input ih =>
    rw [List.mem_cons, not_or] at hinput
    obtain ⟨buf', hloop, hlength⟩ := ih (buf.set 0 b) (sizeStep filesize b) hinput.2
    refine ⟨buf', ?_, hlength.trans List.length_set⟩
    rw [sizeLoop, if_neg (Ne.symm hinput.1), hloop]
    rfl

/-- The read of the mode. -/
theorem readBuf_mode (chunk : ℕ → ℕ) {s : CopyState} (hbuf : s.buf.length = 1024) :
    ∃ ret buf, readBuf chunk s 0 5
        = .ok (ret, { s with input := s.input.drop (readLength chunk s.input 5), buf := buf })
      ∧ buf.length = 1024 := by
  have hread := readBuf_ok chunk s (show 0 < 5 by omega) (show 0 + 5 ≤ s.buf.length by omega)
  by_cases hinput : s.input = []
  · rw [if_pos hinput] at hread
    refine ⟨-1, s.buf, ?_, hbuf⟩
    rw [hinput, List.drop_nil]
    exact hread.trans (by rw [← hinput])
  · rw [if_neg hinput] at hread
    obtain ⟨-, hle, hinside⟩ := readLength_bounds chunk hinput (show 0 < 5 by omega)
    refine ⟨_, _, hread, ?_⟩
    have htake : (s.input.take (readLength chunk s.input 5)).length = readLength chunk s.input 5 :=
      List.length_take_of_le hinside
    have hstored := @length_stored UInt8 s.buf (s.input.take (readLength chunk s.input 5)) 0 (by rw [htake]; omega)
    rw [htake, hbuf] at hstored
    exact hstored

/-- What was read of a text, when `rest` is left. -/
theorem take_front {text front rest : List UInt8} (h : text = front ++ rest) :
    text.take (text.length - rest.length) = front := by
  rw [h, List.length_append, Nat.add_sub_cancel, List.take_left]

/-- A header that is all there. -/
theorem readHeader_ok (chunk : ℕ → ℕ) {s : CopyState} {mode field name rest : List UInt8} (hbuf : s.buf.length = 1024)
    (hinput : s.input = mode ++ (field ++ SP :: (name ++ LF :: rest)))
    (hmode : mode.length = readLength chunk s.input 5) (hfield : SP ∉ field) (hname : LF ∉ name)
    (hlength : name.length < 1024) :
    ∃ buf, readHeader chunk s = .ok (sizeOf field, { s with
        input := rest
        buf := buf
        last := some (67 :: (mode ++ (field ++ SP :: (name ++ [LF]))), rest) })
      ∧ buf.length = 1024 := by
  obtain ⟨ret, buf₁, hread, hbuf₁⟩ := readBuf_mode chunk hbuf
  have hdrop : s.input.drop (readLength chunk s.input 5) = field ++ SP :: (name ++ LF :: rest) := by
    rw [← hmode, hinput, List.drop_left]
  obtain ⟨buf₂, hsize, hbuf₂⟩ := sizeLoop_blank buf₁ 0 hfield (name ++ LF :: rest)
  rw [hbuf₁] at hbuf₂
  obtain ⟨buf₃, hloop, hbuf₃⟩ := @nameLoop_ok chunk (buf₁.length + 1) 0
    { s with buf := buf₂, input := name ++ LF :: rest } name rest rfl hname (by simp only; omega) (by omega)
  refine ⟨buf₃, ?_, hbuf₃.trans hbuf₂⟩
  have htake : s.input.take (s.input.length - rest.length) = mode ++ (field ++ SP :: (name ++ [LF])) := by
    apply take_front
    rw [hinput]
    simp
  rw [readHeader, hread]
  simp only [bind, Except.bind, hdrop, hsize, hloop, htake]
  rfl

/-- In a header line that announces something there is a blank behind the mode, and a line end at the end. -/
theorem Announces.text {text : List UInt8} {n : ℕ} (h : Announces (67 :: text) n) :
    SP ∈ text.drop 5 ∧ text.getLast? = some LF := by
  obtain @⟨mode, digits, name, ⟨hmode, -⟩, -, -⟩ := h
  have htext : mode ++ SP :: (digits ++ SP :: (name ++ [LF])) = (mode ++ [SP]) ++ (digits ++ SP :: name ++ [LF]) := by
    simp
  constructor
  · rw [htext, List.drop_left' (by rw [List.length_append, hmode, List.length_singleton])]
    exact List.mem_append_left _ (List.mem_append_right _ List.mem_cons_self)
  · rw [htext, ← List.append_assoc, List.getLast?_concat]

/-- Without a blank behind the mode, no size is announced. -/
theorem not_announces_of_blank {text : List UInt8} {k : ℕ} (hk : k ≤ 5) (htext : SP ∉ text.drop k) (n : ℕ) :
    ¬ Announces (67 :: text) n := by
  intro h
  have hdrop : text.drop 5 = (text.drop k).drop (5 - k) := by
    rw [List.drop_drop, Nat.add_sub_cancel' hk]
  have hmem := h.text.1
  rw [hdrop] at hmem
  exact htext (List.mem_of_mem_drop hmem)

/-- Without the end of the line, no size is announced. -/
theorem not_announces_of_lineEnd {front after : List UInt8} (hafter : LF ∉ after) (n : ℕ) :
    ¬ Announces (67 :: (front ++ SP :: after)) n := by
  intro h
  have hlast := h.text.2
  rw [List.getLast?_append_of_ne_nil _ (List.cons_ne_nil SP after)] at hlast
  rcases List.mem_cons.mp (List.mem_of_getLast? hlast) with hblank | hmem
  · exact absurd hblank (by decide)
  · exact hafter hmem

/-- The three reads of a header. -/
theorem readHeader_reads {s s' : CopyState} {filesize : ℤ} (hbuf : s.buf.length = 1024)
    (h : readHeader chunk s = .ok (filesize, s')) :
    ∃ buf₁ buf₂ input t, buf₁.length = 1024
      ∧ sizeLoop buf₁ 0 (s.input.drop (readLength chunk s.input 5)) = (filesize, buf₂, input)
      ∧ nameLoop chunk (buf₁.length + 1) 0 { s with input := input, buf := buf₂ } = .ok t
      ∧ s' = { t with last := some (67 :: s.input.take (s.input.length - t.input.length), t.input) } := by
  obtain ⟨ret, buf₁, hread, hbuf₁⟩ := readBuf_mode chunk hbuf
  rw [readHeader, hread] at h
  simp only [bind, Except.bind] at h
  rcases hsize : sizeLoop buf₁ 0 (s.input.drop (readLength chunk s.input 5)) with ⟨filesize', buf₂, input⟩
  rw [hsize] at h
  cases hloop : nameLoop chunk (buf₁.length + 1) 0 { s with input := input, buf := buf₂ } with
  | error e =>
    rw [hloop] at h
    cases h
  | ok t =>
    rw [hloop] at h
    obtain ⟨rfl, rfl⟩ := Prod.mk.inj (Except.ok.inj h)
    exact ⟨buf₁, buf₂, input, t, hbuf₁, hsize, hloop, rfl⟩

/-- A header that was read: all of it was there, or the stream has come to its end and the line announces nothing. -/
theorem readHeader_inv {s s' : CopyState} {filesize : ℤ} (hbuf : s.buf.length = 1024)
    (h : readHeader chunk s = .ok (filesize, s')) :
    s'.buf.length = 1024 ∧ (∃ field, filesize = sizeOf field)
      ∧ ((∃ mode field name, s.input = mode ++ (field ++ SP :: (name ++ LF :: s'.input))
          ∧ mode.length = readLength chunk s.input 5 ∧ SP ∉ field ∧ LF ∉ name ∧ name.length < 1024
          ∧ filesize = sizeOf field ∧ s'.last = some (67 :: (mode ++ (field ++ SP :: (name ++ [LF]))), s'.input))
        ∨ s'.input = [] ∧ ∃ header, s'.last = some (header, []) ∧ ∀ n, ¬ Announces header n) := by
  obtain ⟨buf₁, buf₂, input, t, hbuf₁, hsize, hloop, rfl⟩ := readHeader_reads hbuf h
  have hsplit := List.take_append_drop (readLength chunk s.input 5) s.input
  have hlength : (s.input.take (readLength chunk s.input 5)).length = readLength chunk s.input 5 :=
    List.length_take_of_le ((min_le_left _ _).trans (min_le_right _ _))
  -- the line that is read when nothing is left of the stream
  have hend (hnil : t.input = []) (hnone : ∀ n, ¬ Announces (67 :: s.input) n) : t.input = [] ∧ ∃ header,
      some (67 :: s.input.take (s.input.length - t.input.length), t.input) = some (header, [])
        ∧ ∀ n, ¬ Announces header n := by
    refine ⟨hnil, 67 :: s.input, ?_, hnone⟩
    rw [hnil, List.length_nil, Nat.sub_zero, List.take_length]
  obtain ⟨hframe, hname⟩ := nameLoop_inv hloop
  by_cases hblank : SP ∈ s.input.drop (readLength chunk s.input 5)
  · obtain ⟨field, after, hbody, hfield⟩ := List.eq_append_cons_of_mem hblank
    obtain ⟨buf, hblanks, hbuf₂⟩ := sizeLoop_blank buf₁ 0 hfield after
    rw [hbody, hblanks, Prod.mk.injEq, Prod.mk.injEq] at hsize
    obtain ⟨rfl, rfl, rfl⟩ := hsize
    rw [hbody] at hsplit
    refine ⟨hframe.length.trans (hbuf₂.trans hbuf₁), ⟨field, rfl⟩, ?_⟩
    rcases hname with ⟨name, hname, hmem, hshort⟩ | ⟨hmem, hnil⟩
    · rw [show after = name ++ LF :: t.input from hname] at hsplit
      have hshort : name.length < 1024 := by
        rw [← hbuf₁, ← hbuf₂, ← Nat.zero_add name.length]
        exact hshort
      refine .inl ⟨_, field, name, hsplit.symm, hlength, hfield, hmem, hshort, rfl, ?_⟩
      have htake := @take_front s.input (s.input.take (readLength chunk s.input 5) ++ (field ++ SP :: (name ++ [LF])))
        t.input (hsplit.symm.trans (by simp))
      simp only [htake]
    · refine .inr (hend hnil ?_)
      rw [← hsplit, ← List.append_assoc]
      exact not_announces_of_lineEnd hmem
  · obtain ⟨buf, hblanks, hbuf₂⟩ := sizeLoop_end buf₁ 0 hblank
    rw [hblanks, Prod.mk.injEq, Prod.mk.injEq] at hsize
    obtain ⟨rfl, rfl, rfl⟩ := hsize
    refine ⟨hframe.length.trans (hbuf₂.trans hbuf₁), ⟨_, rfl⟩, ?_⟩
    rcases hname with ⟨name, hname, -⟩ | ⟨-, hnil⟩
    · exact absurd hname.symm (by simp)
    · exact .inr (hend hnil (not_announces_of_blank ((min_le_left _ _).trans (min_le_left _ _)) hblank))

/-! ### The content -/

/-- How many bytes the loop asks for. -/
def request (filesize : ℤ) : ℤ := if 1024 < filesize then 1024 else wrapInt filesize

/-- What the loop gets from a stream, if it comes to an end. -/
def content (filesize : ℤ) (rest : List UInt8) : List UInt8 := if 0 ≤ filesize then rest.take filesize.toNat else rest

/-- At most a buffer is asked for. -/
theorem request_of_nonneg {filesize : ℤ} (h : 0 ≤ filesize) : request filesize = min filesize 1024 := by
  rw [request]
  split
  · omega
  · rw [wrapInt_of_lt h (by omega)]
    omega

/-- A negative size is asked for as an `int`. -/
theorem request_of_neg {filesize : ℤ} (h : filesize < 0) : request filesize = wrapInt filesize := by
  rw [request, if_neg (by omega)]

/-- When the loop comes to an end, something is asked for, and not too much. -/
theorem request_of_behind {filesize : ℤ} (hne : filesize ≠ 0) {rest after : List UInt8}
    (h : behind filesize rest = some after) : 0 < request filesize ∧ request filesize ≤ 1024 := by
  rcases Int.lt_or_le filesize 0 with hneg | hpos
  · rw [behind, if_neg (not_le.mpr hneg)] at h
    split at h
    · rename_i hcond
      rw [request_of_neg hneg]
      omega
    · cases h
  · rw [request_of_nonneg hpos]
    omega

/-- Reading goes forward. -/
theorem behind_length {filesize : ℤ} {rest after : List UInt8} (h : behind filesize rest = some after) :
    after.length ≤ rest.length := by
  rw [behind] at h
  split at h
  · obtain rfl := Option.some.inj h
    exact (List.drop_sublist _ _).length_le
  · split at h
    · obtain rfl := Option.some.inj h
      exact Nat.zero_le _
    · cases h

/-- A size of zero reads nothing. -/
theorem behind_zero (rest : List UInt8) : behind 0 rest = some rest := rfl

/-- A size of zero copies nothing. -/
theorem content_zero (rest : List UInt8) : content 0 rest = [] := rfl

/-- At the end of the stream nothing more is read. -/
theorem behind_nil {filesize : ℤ} (hpos : 0 < request filesize) (hrequest : request filesize ≤ 1024) :
    behind filesize [] = some [] := by
  rw [behind]
  split
  · rw [List.drop_nil]
  · rename_i hneg
    rw [request_of_neg (not_le.mp hneg)] at hpos hrequest
    exact if_pos ⟨hpos, hrequest⟩

theorem content_nil (filesize : ℤ) : content filesize [] = [] := by
  rw [content, List.take_nil, ite_self]

/-- What is left to be read stays in the range of `long`. -/
theorem sub_range {filesize : ℤ} (hlo : -2 ^ 63 ≤ filesize) (hhi : filesize < 2 ^ 63) {k : ℕ}
    (hk : (k : ℤ) ≤ request filesize) : -2 ^ 63 ≤ filesize - k ∧ filesize - k < 2 ^ 63 := by
  refine ⟨?_, by omega⟩
  rcases Int.lt_or_le filesize 0 with hneg | hpos
  · rw [request_of_neg hneg, wrapInt] at hk
    omega
  · rw [request_of_nonneg hpos] at hk
    omega

/-- A read that gets `k` bytes does not change how the loop ends. -/
theorem behind_sub {filesize : ℤ} {k : ℕ} {rest : List UInt8} (hrequest : request filesize ≤ 1024)
    (hk : (k : ℤ) ≤ request filesize) (hrest : k ≤ rest.length) :
    behind (filesize - k) (rest.drop k) = behind filesize rest
      ∧ rest.take k ++ content (filesize - k) (rest.drop k) = content filesize rest := by
  rcases Int.lt_or_le filesize 0 with hneg | hpos
  · rw [request_of_neg hneg] at hk hrequest
    have hwrap : wrapInt (filesize - k) = wrapInt filesize - k := by
      unfold wrapInt at hk ⊢
      omega
    have hcond : (((rest.drop k).length : ℤ) < wrapInt (filesize - k) ∧ wrapInt (filesize - k) ≤ 1024)
        ↔ ((rest.length : ℤ) < wrapInt filesize ∧ wrapInt filesize ≤ 1024) := by
      rw [hwrap, List.length_drop]
      omega
    have hneg' : ¬ 0 ≤ filesize - k := by omega
    constructor
    · rw [behind, behind, if_neg hneg', if_neg (not_le.mpr hneg), if_congr hcond rfl rfl]
    · rw [content, content, if_neg hneg', if_neg (not_le.mpr hneg), List.take_append_drop]
  · rw [request_of_nonneg hpos] at hk
    have hle : k ≤ filesize.toNat := by omega
    have hsub : (filesize - k).toNat = filesize.toNat - k := by omega
    have hnonneg : 0 ≤ filesize - k := by omega
    constructor
    · rw [behind, behind, if_pos hpos, if_pos hnonneg, hsub, List.drop_drop, Nat.add_sub_cancel' hle]
    · rw [content, content, if_pos hpos, if_pos hnonneg, hsub, ← List.take_add, Nat.add_sub_cancel' hle]

/-- One round of the loop with a whole buffer. -/
theorem contentLoop_succ {turns : ℕ} {filesize : ℤ} {fos : List UInt8} {s : CopyState} (hbuf : s.buf.length = 1024) :
    contentLoop chunk (turns + 1) filesize fos s =
      match readBuf chunk s 0 (request filesize) with
      | .error e => some (.error e)
      | .ok (foo, s) =>
        if foo < 0 then some (.ok (fos, s))
        else if wrapLong (filesize - foo) = 0 then some (.ok (fos ++ s.buf.take foo.toNat, s))
        else contentLoop chunk turns (wrapLong (filesize - foo)) (fos ++ s.buf.take foo.toNat) s := by
  rw [contentLoop, hbuf]
  rfl

/-- Nothing is left to be read. -/
theorem contentLoop_zero (turns : ℕ) (fos : List UInt8) {s : CopyState} (hbuf : s.buf.length = 1024) :
    contentLoop chunk (turns + 1) 0 fos s = some (.ok (fos, s)) := by
  have hread : readBuf chunk s 0 (request 0) = .ok (0, s) := by
    rw [show request 0 = 0 from rfl, readBuf, if_neg (by omega), if_pos rfl]
  rw [contentLoop_succ hbuf, hread]
  simp only [sub_zero, lt_self_iff_false, if_false, Int.toNat_zero, List.take_zero, List.append_nil]
  rw [if_pos (by decide)]

/-- The stream ends in the content. -/
theorem contentLoop_end {turns : ℕ} {filesize : ℤ} {fos : List UInt8} {s : CopyState} (hbuf : s.buf.length = 1024)
    (hpos : 0 < request filesize) (hrequest : request filesize ≤ 1024) (hinput : s.input = []) :
    contentLoop chunk (turns + 1) filesize fos s = some (.ok (fos, s)) := by
  obtain ⟨len, hlen⟩ := Int.eq_ofNat_of_zero_le hpos.le
  have hread := readBuf_ok chunk s (show 0 < len by omega) (show 0 + len ≤ s.buf.length by omega)
  rw [if_pos hinput] at hread
  rw [contentLoop_succ hbuf, hlen, show readBuf chunk s 0 (len : ℤ) = _ from hread]
  exact if_pos (by decide)

/-- A read that gets something. -/
theorem contentLoop_read (turns : ℕ) {filesize : ℤ} (hlo : -2 ^ 63 ≤ filesize) (hhi : filesize < 2 ^ 63)
    (fos : List UInt8) {s : CopyState} (hbuf : s.buf.length = 1024)
    (hpos : 0 < request filesize) (hrequest : request filesize ≤ 1024) (hinput : s.input ≠ []) :
    ∃ (k : ℕ) (buf : List UInt8), 0 < k ∧ (k : ℤ) ≤ request filesize ∧ k ≤ s.input.length ∧ buf.length = 1024
      ∧ contentLoop chunk (turns + 1) filesize fos s =
        if filesize - k = 0 then some (.ok (fos ++ s.input.take k, { s with input := s.input.drop k, buf := buf }))
        else contentLoop chunk turns (filesize - k) (fos ++ s.input.take k)
          { s with input := s.input.drop k, buf := buf } := by
  obtain ⟨len, hlen⟩ := Int.eq_ofNat_of_zero_le hpos.le
  obtain ⟨hk, hle, hinside⟩ := readLength_bounds chunk hinput (show 0 < len by omega)
  have hread := readBuf_ok chunk s (show 0 < len by omega) (show 0 + len ≤ s.buf.length by omega)
  rw [if_neg hinput] at hread
  generalize readLength chunk s.input len = k at hk hle hinside hread
  have htake : (s.input.take k).length = k := List.length_take_of_le hinside
  have hstored := @length_stored UInt8 s.buf (s.input.take k) 0 (by rw [htake]; omega)
  rw [htake] at hstored
  have hkle : (k : ℤ) ≤ request filesize := by omega
  refine ⟨k, _, hk, hkle, hinside, hstored.trans hbuf, ?_⟩
  obtain ⟨hlo', hhi'⟩ := sub_range hlo hhi hkle
  rw [contentLoop_succ hbuf, hlen, show readBuf chunk s 0 (len : ℤ) = _ from hread]
  have hfront : (s.buf.take 0 ++ s.input.take k ++ s.buf.drop (0 + k)).take k = s.input.take k := by
    rw [List.take_zero, List.nil_append, List.take_left' htake]
  simp only [wrapLong_of_range hlo' hhi', Int.toNat_natCast, hfront]
  rw [if_neg (by omega)]

/-- An index of `buf` that is not there. -/
theorem contentLoop_error {turns : ℕ} {filesize : ℤ} {fos : List UInt8} {s : CopyState} (hbuf : s.buf.length = 1024)
    (hrequest : request filesize < 0 ∨ 1024 < request filesize) :
    contentLoop chunk (turns + 1) filesize fos s = some (.error .indexOutOfBounds) := by
  rw [contentLoop_succ hbuf, readBuf, if_pos (by omega)]

/-- Nothing is asked for, although something is left. -/
theorem contentLoop_idle {turns : ℕ} {filesize : ℤ} (hlo : -2 ^ 63 ≤ filesize) (hhi : filesize < 2 ^ 63)
    {fos : List UInt8} {s : CopyState} (hbuf : s.buf.length = 1024) (hne : filesize ≠ 0)
    (hrequest : request filesize = 0) :
    contentLoop chunk (turns + 1) filesize fos s = contentLoop chunk turns filesize fos s := by
  have hread : readBuf chunk s 0 0 = .ok (0, s) := by
    rw [readBuf, if_neg (by omega), if_pos rfl]
  rw [contentLoop_succ hbuf, hrequest, hread]
  simp only [sub_zero, lt_self_iff_false, if_false, Int.toNat_zero, List.take_zero, List.append_nil,
    wrapLong_of_range hlo hhi, if_neg hne]

/-- The loop comes to an end where `behind` says so. -/
theorem contentLoop_ok {turns : ℕ} {filesize : ℤ} (hlo : -2 ^ 63 ≤ filesize) (hhi : filesize < 2 ^ 63)
    (fos : List UInt8) {s : CopyState} (hbuf : s.buf.length = 1024) {after : List UInt8}
    (hbehind : behind filesize s.input = some after) (hturns : s.input.length < turns) :
    ∃ buf, contentLoop chunk turns filesize fos s
        = some (.ok (fos ++ content filesize s.input, { s with input := after, buf := buf }))
      ∧ buf.length = 1024 := by
  induction turns generalizing filesize fos s with
  | zero => exact absurd hturns (Nat.not_lt_zero _)
  | succ turns ih =>
    by_cases hzero : filesize = 0
    · subst hzero
      obtain rfl := Option.some.inj hbehind
      refine ⟨s.buf, ?_, hbuf⟩
      rw [contentLoop_zero turns fos hbuf, content_zero, List.append_nil]
      rfl
    · obtain ⟨hpos, hrequest⟩ := request_of_behind hzero hbehind
      by_cases hinput : s.input = []
      · rw [hinput, behind_nil hpos hrequest] at hbehind
        obtain rfl := Option.some.inj hbehind
        refine ⟨s.buf, ?_, hbuf⟩
        rw [contentLoop_end hbuf hpos hrequest hinput, hinput, content_nil, List.append_nil, ← hinput]
      · obtain ⟨k, buf, hk, hle, hinside, hlength, hloop⟩ := @contentLoop_read chunk turns filesize hlo hhi fos s
          hbuf hpos hrequest hinput
        obtain ⟨hbehind', hcontent⟩ := behind_sub hrequest hle hinside
        rw [hloop, ← hcontent]
        rw [← hbehind'] at hbehind
        split
        · rename_i hdone
          rw [hdone, behind_zero] at hbehind
          obtain rfl := Option.some.inj hbehind
          refine ⟨buf, ?_, hlength⟩
          rw [hdone, content_zero, List.append_nil]
        · obtain ⟨hlo', hhi'⟩ := sub_range hlo hhi hle
          rw [← List.append_assoc]
          refine @ih (filesize - k) hlo' hhi' (fos ++ s.input.take k) { s with input := s.input.drop k, buf := buf }
            hlength hbehind ?_
          simp only [List.length_drop]
          omega

/-- If the loop comes to an end, `behind` says where. -/
theorem contentLoop_inv {turns : ℕ} {filesize : ℤ} (hlo : -2 ^ 63 ≤ filesize) (hhi : filesize < 2 ^ 63)
    {fos fos' : List UInt8} {s s' : CopyState} (hbuf : s.buf.length = 1024)
    (h : contentLoop chunk turns filesize fos s = some (.ok (fos', s'))) :
    behind filesize s.input = some s'.input ∧ fos' = fos ++ content filesize s.input ∧ s'.buf.length = 1024
      ∧ s'.last = s.last := by
  induction turns generalizing filesize fos s with
  | zero => cases h
  | succ turns ih =>
    by_cases hzero : filesize = 0
    · subst hzero
      rw [contentLoop_zero turns fos hbuf] at h
      obtain ⟨rfl, rfl⟩ := Prod.mk.inj (Except.ok.inj (Option.some.inj h))
      exact ⟨rfl, (List.append_nil _).symm, hbuf, rfl⟩
    · by_cases hout : request filesize < 0 ∨ 1024 < request filesize
      · rw [contentLoop_error hbuf hout] at h
        cases Option.some.inj h
      · by_cases hidle : request filesize = 0
        · rw [contentLoop_idle hlo hhi hbuf hzero hidle] at h
          exact ih hlo hhi hbuf h
        · have hpos : 0 < request filesize := by omega
          have hrequest : request filesize ≤ 1024 := by omega
          by_cases hinput : s.input = []
          · rw [contentLoop_end hbuf hpos hrequest hinput] at h
            obtain ⟨rfl, rfl⟩ := Prod.mk.inj (Except.ok.inj (Option.some.inj h))
            rw [hinput, content_nil, List.append_nil]
            exact ⟨behind_nil hpos hrequest, rfl, hbuf, rfl⟩
          · obtain ⟨k, buf, hk, hle, hinside, hlength, hloop⟩ := @contentLoop_read chunk turns filesize hlo hhi fos s
              hbuf hpos hrequest hinput
            obtain ⟨hbehind, hcontent⟩ := behind_sub hrequest hle hinside
            rw [hloop] at h
            rw [← hbehind, ← hcontent]
            split at h
            · rename_i hdone
              obtain ⟨rfl, rfl⟩ := Prod.mk.inj (Except.ok.inj (Option.some.inj h))
              rw [hdone, content_zero, List.append_nil]
              exact ⟨rfl, rfl, hlength, rfl⟩
            · obtain ⟨hlo', hhi'⟩ := sub_range hlo hhi hle
              rw [← List.append_assoc]
              exact @ih (filesize - k) hlo' hhi' (fos ++ s.input.take k)
                { s with input := s.input.drop k, buf := buf } hlength h

/-! ### The status -/

/-- The message behind an error is read up to the end of its line. -/
theorem ackLoop_ok {turns : ℕ} {input : List UInt8} (hmem : LF ∈ input) (hturns : input.length ≤ turns) :
    ∃ rest, ackLoop turns input = some rest := by
  induction input generalizing turns with
  | nil => exact absurd hmem List.not_mem_nil
  | cons c input ih =>
    obtain ⟨turns, rfl⟩ := Nat.exists_eq_succ_of_ne_zero (Nat.ne_of_gt (Nat.zero_lt_of_lt hturns))
    rw [ackLoop]
    by_cases hc : c = LF
    · exact ⟨input, if_pos hc⟩
    · rw [if_neg hc]
      exact ih ((List.mem_cons.mp hmem).resolve_left fun h => hc h.symm) (Nat.le_of_succ_le_succ hturns)

/-- It has been read only if it has such an end. -/
theorem ackLoop_inv {turns : ℕ} {input rest : List UInt8} (h : ackLoop turns input = some rest) : LF ∈ input := by
  induction turns generalizing input with
  | zero => cases h
  | succ turns ih =>
    cases input with
    | nil => exact ih h
    | cons c input =>
      rw [ackLoop] at h
      split at h
      · rename_i hc
        rw [hc]
        exact List.mem_cons_self
      · exact List.mem_cons_of_mem _ (ih h)

/-- Any byte but 1 and 2 is the answer. -/
theorem checkAck_cons (turns : ℕ) {b : UInt8} (h₁ : b ≠ 1) (h₂ : b ≠ 2) (input : List UInt8) :
    checkAck turns (b :: input) = some ((b.toNat : ℤ), input) := by
  rw [checkAck, if_neg (not_or.mpr ⟨h₁, h₂⟩)]

/-- A status that comes to an end is the one that is sent. -/
theorem checkAck_ok {turns : ℕ} {input : List UInt8} (hack : AckEnds input) (hturns : input.length ≤ turns) {b : UInt8}
    (hb : input.head? ≠ some b) : ∃ c rest, checkAck turns input = some (c, rest) ∧ c ≠ b.toNat := by
  cases input with
  | nil => exact ⟨-1, [], rfl, by omega⟩
  | cons d input =>
    have hd : (d.toNat : ℤ) ≠ b.toNat := by
      intro h
      exact hb (congrArg some (UInt8.toNat_inj.mp (Int.ofNat.inj h)))
    by_cases hmessage : d = 1 ∨ d = 2
    · obtain ⟨rest, hrest⟩ := ackLoop_ok (hack d input rfl hmessage) (Nat.le_of_succ_le hturns)
      refine ⟨d.toNat, rest, ?_, hd⟩
      rw [checkAck, if_pos hmessage, hrest]
      rfl
    · refine ⟨d.toNat, input, ?_, hd⟩
      rw [checkAck, if_neg hmessage]

/-- What an answer says of the stream. -/
theorem checkAck_inv {turns : ℕ} {input rest : List UInt8} {c : ℤ} (h : checkAck turns input = some (c, rest)) :
    AckEnds input ∧ ∀ b : UInt8, b ≠ 1 → b ≠ 2 → (c = b.toNat ↔ input.head? = some b)
      ∧ (c = b.toNat → input = b :: rest) := by
  cases input with
  | nil =>
    obtain ⟨rfl, rfl⟩ := Prod.mk.inj (Option.some.inj h)
    refine ⟨fun b rest hnil => absurd hnil (by simp), fun b _ _ => ⟨⟨fun hc => ?_, fun hb => ?_⟩, fun hc => ?_⟩⟩
    · omega
    · cases hb
    · omega
  | cons d input =>
    rw [checkAck] at h
    have hcode (b : UInt8) : (d.toNat : ℤ) = b.toNat ↔ d = b := Int.ofNat_inj.trans UInt8.toNat_inj
    split at h
    · rename_i hmessage
      obtain ⟨rest', hloop, hrest⟩ := Option.map_eq_some_iff.mp h
      obtain ⟨rfl, rfl⟩ := Prod.mk.inj hrest
      refine ⟨fun b rest hcons _ => ?_, fun b h₁ h₂ => ⟨?_, fun hc => ?_⟩⟩
      · obtain ⟨rfl, rfl⟩ := List.cons.inj hcons
        exact ackLoop_inv hloop
      · rw [hcode, List.head?_cons, Option.some.injEq]
      · rw [hcode] at hc
        rw [hc] at hmessage
        exact absurd hmessage (not_or.mpr ⟨h₁, h₂⟩)
    · rename_i hmessage
      obtain ⟨rfl, rfl⟩ := Prod.mk.inj (Option.some.inj h)
      refine ⟨fun b rest hcons hb => ?_, fun b _ _ => ⟨?_, fun hc => ?_⟩⟩
      · obtain ⟨rfl, rfl⟩ := List.cons.inj hcons
        exact absurd hb hmessage
      · rw [hcode, List.head?_cons, Option.some.injEq]
      · rw [(hcode b).mp hc]

end reads

/-! ## The loop of `_run` -/

section run

variable {chunk : ℕ → ℕ}

/-- A file is complete if what is written of it is what was announced. -/
theorem RemoteFile.complete_iff (f : RemoteFile) :
    f.Complete ↔ ∃ n, Announces f.header n ∧ n ≤ f.rest.length ∧ content f.size f.rest = f.rest.take n := by
  refine exists_congr fun n => and_congr_right fun _ => and_congr_right fun hn => ?_
  rw [content]
  split
  · rw [List.take_eq_take_iff]
    omega
  · rw [show f.rest = f.rest.take n ↔ f.rest.length ≤ n from eq_comm.trans (List.take_eq_self_iff _)]
    omega

/-- What the loop knows of the file before, when it looks for the next one. -/
def Carried (s : CopyState) (ret : Bool) : Option RemoteFile → Prop
  | none => ret = false
  | some f => ret = true ∧ s.last = some (f.header, f.rest) ∧ s.buffer = some (content f.size f.rest)

/-- All files are delivered if and only if the last one is complete. -/
theorem Carried.delivers_complete {s : CopyState} {ret : Bool} {last : Option RemoteFile} (h : Carried s ret last) :
    s.Delivers ret ↔ ∀ f ∈ last, f.Complete := by
  cases last with
  | none =>
    constructor
    · rintro - f hf
      cases hf
    · intro _ hret
      exact absurd (hret.symm.trans h) (by decide)
  | some f =>
    obtain ⟨rfl, hlast, hbuffer⟩ := h
    have hfile : (∀ f' ∈ some f, RemoteFile.Complete f') ↔ f.Complete := by
      simp only [Option.mem_some_iff, forall_eq']
    rw [hfile, f.complete_iff, CopyState.Delivers, hlast, hbuffer]
    simp only [true_imp_iff, Option.some.injEq, Prod.mk.injEq]
    constructor
    · rintro ⟨header, rest, n, ⟨rfl, rfl⟩, h⟩
      exact ⟨n, h⟩
    · rintro ⟨n, h⟩
      exact ⟨_, _, n, ⟨rfl, rfl⟩, h⟩

/-- What `_run` keeps of a header and what follows. -/
def CopyState.receive (s : CopyState) (f : RemoteFile) (buf input : List UInt8) : CopyState :=
  { s with input := input, buf := buf, buffer := some (content f.size f.rest), last := some (f.header, f.rest) }

/-- A file that is received is the last one. -/
theorem receive_carried (s : CopyState) (f : RemoteFile) (buf input : List UInt8) :
    Carried (s.receive f buf input) true (some f) := ⟨rfl, rfl, rfl⟩

theorem clearFirst_length {s : CopyState} (hbuf : s.buf.length = 1024) : (clearFirst s).buf.length = 1024 :=
  List.length_set.trans hbuf

/-- A turn for a header that is all there, and a content loop that comes to an end. -/
theorem copyLoop_file {inner : ℕ} (turns : ℕ) (ret : Bool) {s : CopyState} {mode field name rest after : List UInt8}
    (hbuf : s.buf.length = 1024) (hinput : s.input = 67 :: (mode ++ (field ++ SP :: (name ++ LF :: rest))))
    (hmode : mode.length = readLength chunk (mode ++ (field ++ SP :: (name ++ LF :: rest))) 5) (hfield : SP ∉ field)
    (hname : LF ∉ name) (hlength : name.length < 1024) (hbehind : behind (sizeOf field) rest = some after)
    (hinner : s.input.length < inner) :
    ∃ buf : List UInt8, buf.length = 1024 ∧ copyLoop chunk inner (turns + 1) ret s =
      match checkAck inner after with
      | none => none
      | some (ack, input) =>
        let s := s.receive ⟨67 :: (mode ++ (field ++ SP :: (name ++ [LF]))), sizeOf field, rest⟩ buf input
        if ack ≠ 0 then some (.ok (true, s)) else copyLoop chunk inner turns true (clearFirst s) := by
  obtain ⟨buf₁, hheader, hbuf₁⟩ := @readHeader_ok chunk
    { s with input := mode ++ (field ++ SP :: (name ++ LF :: rest)) } mode field name rest hbuf rfl hmode hfield hname
    hlength
  obtain ⟨hlo, hhi⟩ := sizeOf_range field
  have hrest : rest.length < inner := by
    rw [hinput] at hinner
    simp only [List.length_cons, List.length_append] at hinner
    omega
  obtain ⟨buf₂, hcontent, hbuf₂⟩ := @contentLoop_ok chunk inner (sizeOf field) hlo hhi []
    (clearFirst { s with
      input := rest
      buf := buf₁
      last := some (67 :: (mode ++ (field ++ SP :: (name ++ [LF]))), rest) })
    (clearFirst_length hbuf₁) after hbehind hrest
  refine ⟨buf₂, hbuf₂, ?_⟩
  rw [copyLoop, hinput, checkAck_cons inner (by decide) (by decide)]
  simp only [hheader, hcontent]
  rfl

/-- A stream that meets the condition is copied. -/
theorem copyLoop_ok {last : Option RemoteFile} {input : List UInt8} (h : Deliverable chunk last input) {inner : ℕ}
    (hinner : input.length < inner) {turns : ℕ} (hturns : input.length < turns) {ret : Bool} {s : CopyState}
    (hinput : s.input = input) (hbuf : s.buf.length = 1024) (hlast : Carried s ret last) :
    ∃ ret' s', copyLoop chunk inner turns ret s = some (.ok (ret', s')) ∧ s'.Delivers ret' := by
  induction h generalizing turns ret s with
  | @stop last input hack hcode hcomplete =>
    obtain ⟨turns, rfl⟩ := Nat.exists_eq_succ_of_ne_zero (Nat.ne_of_gt (Nat.zero_lt_of_lt hturns))
    obtain ⟨c, rest, hcheck, hc⟩ := checkAck_ok hack hinner.le hcode
    refine ⟨ret, { s with input := rest }, ?_, ?_⟩
    · rw [copyLoop, hinput, hcheck]
      exact if_pos hc
    · exact (Carried.delivers_complete (s := { s with input := rest }) hlast).mpr hcomplete
  | @file last mode field name rest next hmode hfield hname hlength hbehind hnext ih =>
    have hless := behind_length hbehind
    simp only [List.length_cons, List.length_append] at hinner hturns hless
    obtain ⟨turns, rfl⟩ := Nat.exists_eq_succ_of_ne_zero (Nat.ne_of_gt (Nat.zero_lt_of_lt hturns))
    obtain ⟨buf, hlen, hloop⟩ := @copyLoop_file chunk inner turns ret s mode field name rest (0 :: next) hbuf hinput
      hmode hfield hname hlength hbehind (by rw [hinput]; simp only [List.length_cons, List.length_append]; omega)
    rw [hloop, checkAck_cons inner (by decide) (by decide)]
    exact ih (by omega) (by omega) rfl (clearFirst_length hlen) (receive_carried s _ buf next)
  | @lastFile last mode field name rest after hmode hfield hname hlength hbehind hack hcode hcomplete =>
    have hless := behind_length hbehind
    simp only [List.length_cons, List.length_append] at hinner hturns
    obtain ⟨turns, rfl⟩ := Nat.exists_eq_succ_of_ne_zero (Nat.ne_of_gt (Nat.zero_lt_of_lt hturns))
    obtain ⟨c, next, hcheck, hc⟩ := @checkAck_ok inner after hack (by omega) 0 hcode
    obtain ⟨buf, hlen, hloop⟩ := @copyLoop_file chunk inner turns ret s mode field name rest after hbuf hinput
      hmode hfield hname hlength hbehind (by rw [hinput]; simp only [List.length_cons, List.length_append]; omega)
    refine ⟨true, s.receive ⟨67 :: (mode ++ (field ++ SP :: (name ++ [LF]))), sizeOf field, rest⟩ buf next, ?_, ?_⟩
    · rw [hloop, hcheck]
      exact if_pos hc
    · refine (receive_carried s _ buf next).delivers_complete.mpr fun f hf => ?_
      rwa [← Option.some.inj hf]

/-- What happens in a turn after which `_run` comes to an end: no file begins, or a file is read, with a status that is
the last one or with turns that follow. -/
theorem copyLoop_turn {inner turns : ℕ} {ret ret' : Bool} {s s' : CopyState}
    (h : copyLoop chunk inner (turns + 1) ret s = some (.ok (ret', s'))) :
    (∃ c input, checkAck inner s.input = some (c, input) ∧ c ≠ 67 ∧ ret' = ret ∧ s' = { s with input := input })
      ∨ ∃ input filesize t fos u ack next, checkAck inner s.input = some (67, input)
        ∧ readHeader chunk { s with input := input } = .ok (filesize, t)
        ∧ contentLoop chunk inner filesize [] (clearFirst t) = some (.ok (fos, u))
        ∧ checkAck inner u.input = some (ack, next)
        ∧ (ack ≠ 0 ∧ ret' = true ∧ s' = { u with buffer := some fos, input := next }
          ∨ ack = 0 ∧ copyLoop chunk inner turns true (clearFirst { u with buffer := some fos, input := next })
            = some (.ok (ret', s'))) := by
  rw [copyLoop] at h
  split at h
  · cases h
  · rename_i c input hcheck
    by_cases hc : c = 67
    · rw [if_neg (not_not.mpr hc)] at h
      split at h
      · cases h
      · rename_i filesize t hheader
        split at h
        · cases h
        · cases h
        · rename_i fos u hcontent
          simp only at h
          split at h
          · cases h
          · rename_i ack next hstatus
            refine .inr ⟨input, filesize, t, fos, u, ack, next, hc ▸ hcheck, hheader, hcontent, hstatus, ?_⟩
            by_cases hack : ack = 0
            · exact .inr ⟨hack, (if_neg (not_not.mpr hack)).symm.trans h⟩
            · rw [if_pos hack] at h
              obtain ⟨rfl, rfl⟩ := Prod.mk.inj (Except.ok.inj (Option.some.inj h))
              exact .inl ⟨hack, rfl, rfl⟩
    · rw [if_pos hc] at h
      obtain ⟨rfl, rfl⟩ := Prod.mk.inj (Except.ok.inj (Option.some.inj h))
      exact .inl ⟨c, input, hcheck, hc, rfl, rfl⟩

/-- What a stream that is copied meets. -/
theorem copyLoop_inv {inner turns : ℕ} {ret ret' : Bool} {s s' : CopyState} {last : Option RemoteFile}
    (hbuf : s.buf.length = 1024) (hlast : Carried s ret last)
    (h : copyLoop chunk inner turns ret s = some (.ok (ret', s'))) (hdelivers : s'.Delivers ret') :
    Deliverable chunk last s.input := by
  induction turns generalizing ret s last with
  | zero => cases h
  | succ turns ih =>
    -- A turn either ends at the first byte or reads one announcement with its content; `Carried` says which file
    -- the turns before have left behind.
    obtain ⟨c, input, hcheck, hc, rfl, rfl⟩ | ⟨input, filesize, t, fos, u, ack, next, hcheck, hheader, hcontent,
      hstatus, hturn⟩ := copyLoop_turn h
    · obtain ⟨hack, hcode⟩ := checkAck_inv hcheck
      refine .stop hack (fun hhead => hc ((hcode 67 (by decide) (by decide)).1.mpr hhead)) ?_
      exact (Carried.delivers_complete (s := { s with input := input }) hlast).mp hdelivers
    · rw [((checkAck_inv hcheck).2 67 (by decide) (by decide)).2 rfl]
      obtain ⟨hack, hcode⟩ := checkAck_inv hstatus
      obtain ⟨hzero, hnext⟩ := hcode 0 (by decide) (by decide)
      obtain ⟨ht, ⟨field', hsize⟩, hread⟩ := readHeader_inv (s := { s with input := input }) hbuf hheader
      obtain ⟨hlo, hhi⟩ := sizeOf_range field'
      rw [← hsize] at hlo hhi
      obtain ⟨hbehind, hfos, hu, hkeep⟩ := contentLoop_inv hlo hhi (clearFirst_length ht) hcontent
      obtain ⟨mode, field, name, htext, hmode, hfield, hname, hlength, rfl, hrecord⟩ |
        ⟨hnil, header, hrecord, hnone⟩ := hread
      · rw [show input = _ from htext] at hmode ⊢
        -- The file of this turn is what the next turn finds carried over.
        have hcarried : Carried { u with buffer := some fos, input := next } true
            (some ⟨67 :: (mode ++ (field ++ SP :: (name ++ [LF]))), sizeOf field, t.input⟩) :=
          ⟨rfl, hkeep.trans hrecord, congrArg some hfos⟩
        rcases hturn with ⟨hne, rfl, rfl⟩ | ⟨hack₀, hrun⟩
        · exact .lastFile hmode hfield hname hlength hbehind hack (fun hhead => hne (hzero.mpr hhead))
            (hcarried.delivers_complete.mp hdelivers _ rfl)
        · exact .file hmode hfield hname hlength (hbehind.trans (congrArg some (hnext hack₀)))
            (ih (s := clearFirst { u with buffer := some fos, input := next }) (clearFirst_length hu) hcarried hrun)
      · -- The stream has ended in the header, so that this turn is the last one and nothing is announced.
        have hu' : u.input = [] := by
          have hless := behind_length hbehind
          rw [show (clearFirst t).input = [] from hnil] at hless
          exact List.length_eq_zero_iff.mp (Nat.le_zero.mp hless)
        rcases hturn with ⟨-, rfl, rfl⟩ | ⟨hack₀, -⟩
        · obtain ⟨header', rest, n, hlast', hannounces, -⟩ := hdelivers rfl
          obtain ⟨rfl, -⟩ := Prod.mk.inj (Option.some.inj ((hkeep.trans hrecord).symm.trans hlast'))
          exact absurd hannounces (hnone n)
        · rw [hu'] at hnext
          exact absurd (hnext hack₀) (List.cons_ne_nil _ _).symm

/-- A remote file copy ends and is complete for the streams that are deliverable, and for no others. -/
theorem copied_iff (chunk : ℕ → ℕ) (stream : List UInt8) : Copied chunk stream ↔ Deliverable chunk none stream := by
  constructor
  · rintro ⟨turns, ret, s, hcopy, hdelivers⟩
    exact copyLoop_inv (s := ⟨stream, List.replicate 1024 0, none, none⟩) List.length_replicate rfl hcopy hdelivers
  · intro h
    exact ⟨stream.length + 1, copyLoop_ok h (Nat.lt_succ_self _) (Nat.lt_succ_self _) rfl List.length_replicate rfl⟩

/-- The remote side sends the status of an error and ends: the line that is read has no end. -/
theorem not_copied_status : ¬ Copied (fun _ => 5) [1] := by
  rw [copied_iff]
  intro h
  cases h with
  | stop hack _ _ => exact absurd (hack 1 [] rfl (.inl rfl)) List.not_mem_nil

end run

end OrgLittle.Rcmd
