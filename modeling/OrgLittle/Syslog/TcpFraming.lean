import OrgLittle.Java.Text

/-!
# Framing of syslog messages over TCP

`TCPSyslogSocketHandler.run` reads a connection byte by byte. A message that starts with a digit has its
length in front of it, any other message ends at a CR or an LF, and the flag `firstByte` says that the
next byte starts a message. The LF of a CR LF clears that flag although no message has started, so a
counted message behind it is taken for text. `run_wire_iff` says when a connection is read as it was
written.
-/

namespace OrgLittle.Syslog

open OrgLittle.Java

/-! ## The reading loop -/

/-- The local variables of `run`. -/
structure SocketReader where
  baos : List UInt8
  firstByte : Bool
  octetCounting : Bool
  octetLenStr : JString

/-- `toByteArray`: the next `size` bytes, and the bytes after them. The exceptions for a negative size
and for an early end of the stream leave the reading loop. -/
def toByteArray (input : List UInt8) (size : ℤ) : Option (List UInt8 × List UInt8) :=
  if size < 0 then none
  else if size = 0 then some ([], input)
  else if input.length < size.toNat then none
  else some (input.take size.toNat, input.drop size.toNat)

/-- What one turn of the loop does after it has read a byte. -/
inductive Turn
  /-- the loop goes on -/
  | next (reader : SocketReader) (rest : List UInt8)
  /-- a message is handed to `handleSyslogMessage` -/
  | deliver (rawMsg : List UInt8) (reader : SocketReader) (rest : List UInt8)
  /-- an exception leaves the loop -/
  | raised

/-- One turn of the loop for the byte `b`, in front of the unread `input`. -/
def SocketReader.turn (s : SocketReader) (b : UInt8) (input : List UInt8) : Turn :=
  if s.octetCounting ∨ (s.firstByte ∧ 49 ≤ b.toNat ∧ b.toNat ≤ 57) then
    if b ≠ SP then
      .next { s with firstByte := false, octetCounting := true,
                     octetLenStr := s.octetLenStr ++ [Char.ofNat b.toNat] } input
    else
      match (parseInt s.octetLenStr).bind (toByteArray input) with
      | none => .raised
      | some (data, rest) =>
        .deliver data { s with firstByte := true, octetCounting := false, octetLenStr := [] } rest
  else if b = CR ∨ b = LF then
    if s.baos ≠ [] then .deliver s.baos { s with baos := [], firstByte := true } input
    else .next { s with firstByte := false } input
  else .next { s with baos := s.baos ++ [b], firstByte := false } input

/-- Reading takes from the stream. -/
theorem length_toByteArray {input data rest : List UInt8} {size : ℤ}
    (h : toByteArray input size = some (data, rest)) : rest.length ≤ input.length := by
  unfold toByteArray at h
  split_ifs at h
  · obtain ⟨-, rfl⟩ : [] = data ∧ input = rest := by simpa using h
    exact Nat.le_refl _
  · obtain ⟨-, rfl⟩ : input.take size.toNat = data ∧ input.drop size.toNat = rest := by simpa using h
    rw [List.length_drop]
    omega

theorem SocketReader.length_turn_next {s s' : SocketReader} {b : UInt8} {input rest : List UInt8}
    (h : s.turn b input = .next s' rest) : rest = input := by
  unfold turn at h
  split_ifs at h <;> first | (split at h <;> cases h) | (cases h; rfl)

theorem SocketReader.length_turn_deliver {s s' : SocketReader} {b : UInt8}
    {input rawMsg rest : List UInt8} (h : s.turn b input = .deliver rawMsg s' rest) :
    rest.length ≤ input.length := by
  unfold turn at h
  split_ifs at h
  · split at h
    · cases h
    · rename_i data rest' hread
      obtain ⟨len, -, hdata⟩ := Option.bind_eq_some_iff.mp hread
      cases h
      exact length_toByteArray hdata
  · cases h
    exact Nat.le_refl _

section Loop

-- whether `handleSyslogMessage` returns; an exception of the event or of its printer leaves the loop
variable (handles : List UInt8 → Bool)

/-- The reading loop of `run`: the messages handed to `handleSyslogMessage`, in order. The end of the
stream ends a message that is text. -/
def SocketReader.run (s : SocketReader) (input : List UInt8) : List (List UInt8) :=
  match input with
  | [] => if s.octetCounting ∨ s.baos = [] then [] else [s.baos]
  | b :: input =>
    match _h : s.turn b input with
    | .raised => []
    | .next s' rest => s'.run rest
    | .deliver rawMsg s' rest => rawMsg :: if handles rawMsg then s'.run rest else []
termination_by input.length
decreasing_by
  · rw [length_turn_next _h, List.length_cons]
    omega
  · have hlen := length_turn_deliver _h
    rw [List.length_cons]
    omega

/-- `run`: what is handed over of a whole connection. -/
def TCPSyslogSocketHandler.run (input : List UInt8) : List (List UInt8) :=
  SocketReader.run handles ⟨[], true, false, []⟩ input

theorem SocketReader.run_nil (s : SocketReader) :
    s.run handles [] = if s.octetCounting ∨ s.baos = [] then [] else [s.baos] := by
  rw [run]

variable {s s' : SocketReader} {b : UInt8} {input rest rawMsg : List UInt8}

theorem SocketReader.run_next (h : s.turn b input = .next s' rest) :
    s.run handles (b :: input) = s'.run handles rest := by
  rw [run]
  split <;> simp_all

/-- After a message the reader goes on if the handler lets it. -/
theorem SocketReader.run_deliver (h : s.turn b input = .deliver rawMsg s' rest) :
    s.run handles (b :: input) = rawMsg :: if handles rawMsg then s'.run handles rest else [] := by
  rw [run]
  split <;> simp_all

/-- An exception ends the run. -/
theorem SocketReader.run_raised (h : s.turn b input = .raised) : s.run handles (b :: input) = [] := by
  rw [run]
  split <;> simp_all

end Loop

/-! ## Messages on the wire -/

/-- The bytes of a decimal number. -/
def lengthBytes (n : ℕ) : List UInt8 := writeAscii (Nat.toDigits 10 n)

/-- What ends a message that is sent as text. -/
inductive Trailer
  | lf
  | crlf
deriving DecidableEq

/-- The bytes of a trailer. -/
def Trailer.bytes : Trailer → List UInt8
  | .lf => [LF]
  | .crlf => CRLF

/-- A message as a sender frames it. -/
inductive Message
  /-- the length in decimal, a space and the bytes of the message -/
  | octetCounted (msg : List UInt8)
  /-- a text with `<` in front, up to its trailer -/
  | text (body : List UInt8) (trailer : Trailer) (noLF : LF ∉ body)

namespace Message

/-- The byte `'<'`. -/
def LT : UInt8 := 60

/-- The bytes of the message itself. -/
def payload : Message → List UInt8
  | octetCounted msg => msg
  | text body _ _ => LT :: body

/-- The bytes that are sent. -/
def wire : Message → List UInt8
  | octetCounted msg => lengthBytes msg.length ++ SP :: msg
  | text body trailer _ => LT :: body ++ trailer.bytes

/-- The message is sent with its length. -/
def IsOctetCounted : Message → Prop
  | octetCounted _ => True
  | text _ _ _ => False

/-- The message is a text that ends with CR LF. -/
def EndsWithCRLF : Message → Prop
  | octetCounted _ => False
  | text _ trailer _ => trailer = .crlf

/-- What the reader takes for one message by itself: a length is positive and an `int`, and a text has no
CR in it. -/
def Framed : Message → Prop
  | octetCounted msg => msg ≠ [] ∧ msg.length < 2 ^ 31
  | text body _ _ => CR ∉ body

end Message

/-! ## Reading text -/

/-- The reader between two messages; it may have read the LF of a CR LF since. -/
def SocketReader.idle (firstByte : Bool) : SocketReader := ⟨[], firstByte, false, []⟩

/-- The reader inside a text. -/
def SocketReader.inText (baos : List UInt8) : SocketReader := ⟨baos, false, false, []⟩

/-- A byte that ends a text. -/
def endsText (b : UInt8) : Bool := b = CR ∨ b = LF

section

variable (handles : List UInt8 → Bool)

/-- Bytes that do not end the text are collected. -/
theorem run_inText_append {t : List UInt8} (ht : ∀ b ∈ t, endsText b = false)
    (baos input : List UInt8) :
    (SocketReader.inText baos).run handles (t ++ input)
      = (SocketReader.inText (baos ++ t)).run handles input := by
  induction t generalizing baos with
  | nil => rw [List.nil_append, List.append_nil]
  | cons b t ih =>
    have hb : ¬ (b = CR ∨ b = LF) := by simpa [endsText] using ht b List.mem_cons_self
    have hturn : (SocketReader.inText baos).turn b (t ++ input)
        = .next (.inText (baos ++ [b])) (t ++ input) := by
      simp [SocketReader.turn, SocketReader.inText, hb]
    rw [List.cons_append, SocketReader.run_next handles hturn,
      ih (fun x hx => ht x (List.mem_cons_of_mem b hx)), List.append_assoc, List.singleton_append]

/-- The end of a text hands it over. -/
theorem run_inText_end {b : UInt8} (hb : endsText b = true) {baos : List UInt8} (hne : baos ≠ [])
    (input : List UInt8) :
    (SocketReader.inText baos).run handles (b :: input)
      = baos :: if handles baos then (SocketReader.idle true).run handles input else [] := by
  have hb : b = CR ∨ b = LF := by simpa [endsText] using hb
  refine SocketReader.run_deliver handles ?_
  simp [SocketReader.turn, SocketReader.inText, SocketReader.idle, hb, hne]

/-- Whatever follows, the first message that comes out of a text is the text up to its end. -/
theorem run_inText_head (baos input : List UInt8)
    (hne : baos ++ input.takeWhile (!endsText ·) ≠ []) :
    ∃ tail, (SocketReader.inText baos).run handles input
      = (baos ++ input.takeWhile (!endsText ·)) :: tail := by
  have hsplit := List.takeWhile_append_dropWhile (p := fun b => !endsText b) (l := input)
  have hcollect : ∀ b ∈ input.takeWhile (!endsText ·), endsText b = false := by
    intro b hb
    simpa using List.mem_takeWhile_imp hb
  rcases hrest : input.dropWhile (!endsText ·) with _ | ⟨b, rest⟩
  · -- the stream ends inside the text
    rw [hrest, List.append_nil] at hsplit
    have hrun := run_inText_append handles hcollect baos []
    rw [List.append_nil, hsplit, SocketReader.run_nil] at hrun
    rw [hsplit] at hne ⊢
    exact ⟨[], by rw [hrun]; simp [SocketReader.inText, hne]⟩
  · have hb : endsText b = true := by
      have hhead := List.head_dropWhile_not (fun b => !endsText b) (l := input) (by rw [hrest]; simp)
      simpa [hrest] using hhead
    have hrun := run_inText_append handles hcollect baos (b :: rest)
    rw [← hrest, hsplit, hrest, run_inText_end handles hb hne] at hrun
    exact ⟨_, hrun⟩

/-- The first byte of a text leaves the reader inside the text. -/
theorem run_idle_text (firstByte : Bool) {b : UInt8} (hb : endsText b = false)
    (hdigit : firstByte = true → ¬ (49 ≤ b.toNat ∧ b.toNat ≤ 57)) (input : List UInt8) :
    (SocketReader.idle firstByte).run handles (b :: input)
      = (SocketReader.inText [b]).run handles input := by
  have hb : ¬ (b = CR ∨ b = LF) := by simpa [endsText] using hb
  refine SocketReader.run_next handles ?_
  cases firstByte with
  | false => simp [SocketReader.turn, SocketReader.idle, SocketReader.inText, hb]
  | true =>
    have hdigit := hdigit rfl
    simp [SocketReader.turn, SocketReader.idle, SocketReader.inText, hb, hdigit]

/-- The LF of a CR LF clears the flag. -/
theorem run_idle_LF (firstByte : Bool) (input : List UInt8) :
    (SocketReader.idle firstByte).run handles (LF :: input)
      = (SocketReader.idle false).run handles input := by
  refine SocketReader.run_next handles ?_
  simp [SocketReader.turn, SocketReader.idle, LF]

/-! ## Reading a length -/

/-- The reader inside the length of a counted message. -/
def SocketReader.inLength (octetLenStr : JString) : SocketReader := ⟨[], false, true, octetLenStr⟩

theorem asciiString_lengthBytes (n : ℕ) : asciiString (lengthBytes n) = Nat.toDigits 10 n := by
  refine asciiString_writeAscii fun c hc => ?_
  have hdigit := List.all_eq_true.mp (toDigits_all_isDigit n) c hc
  obtain ⟨-, hhi⟩ : 48 ≤ c.toNat ∧ c.toNat ≤ 57 := Char.isDigit_iff_toNat.mp hdigit
  omega

/-- A length is written with digits. -/
theorem digit_of_mem_lengthBytes {n : ℕ} {b : UInt8} (hb : b ∈ lengthBytes n) :
    48 ≤ b.toNat ∧ b.toNat ≤ 57 := by
  have hchar : Char.ofNat b.toNat ∈ Nat.toDigits 10 n := by
    rw [← asciiString_lengthBytes]
    exact List.mem_map_of_mem hb
  have hb : b.toNat < 0xd800 := Nat.lt_trans b.toNat_lt (by decide)
  have hdigit := List.all_eq_true.mp (toDigits_all_isDigit n) _ hchar
  rw [← toNat_ofNat_of_lt hb]
  exact Char.isDigit_iff_toNat.mp hdigit

/-- A length does not begin with a zero. -/
theorem head?_toDigits {n : ℕ} (hn : 0 < n) : (Nat.toDigits 10 n).head? ≠ some '0' := by
  induction n using Nat.strongRecOn with
  | ind n ih =>
    rcases Nat.lt_or_ge n 10 with hlt | hge
    · rw [Nat.toDigits_of_lt_base hlt]
      intro hzero
      have hchar : n.digitChar = '0' := by simpa using hzero
      have hvalue := congrArg Char.toNat hchar
      rw [Nat.toNat_digitChar_of_lt_ten hlt] at hvalue
      change 48 + n = 48 at hvalue
      omega
    · rw [Nat.toDigits_of_base_le (by decide) hge, List.head?_append_of_ne_nil _ Nat.toDigits_ne_nil]
      exact ih (n / 10) (by omega) (by omega)

/-- A positive number starts with a digit other than zero. -/
theorem lengthBytes_eq_cons {n : ℕ} (hn : 0 < n) :
    ∃ d ds, lengthBytes n = d :: ds ∧ 49 ≤ d.toNat ∧ d.toNat ≤ 57 := by
  rcases hbytes : lengthBytes n with _ | ⟨d, ds⟩
  · have hnil := asciiString_lengthBytes n
    rw [hbytes] at hnil
    exact absurd hnil.symm Nat.toDigits_ne_nil
  · obtain ⟨hlo, hhi⟩ := digit_of_mem_lengthBytes (hbytes ▸ List.mem_cons_self : d ∈ lengthBytes n)
    have hne : d.toNat ≠ 48 := by
      intro hzero
      apply head?_toDigits hn
      rw [← asciiString_lengthBytes, hbytes]
      simp [asciiString, hzero]
    exact ⟨d, ds, rfl, by omega, hhi⟩

/-- The digits of a length are collected. -/
theorem run_inLength_append {ds : List UInt8} (hds : ∀ b ∈ ds, b ≠ SP) (octetLenStr : JString)
    (input : List UInt8) :
    (SocketReader.inLength octetLenStr).run handles (ds ++ input)
      = (SocketReader.inLength (octetLenStr ++ asciiString ds)).run handles input := by
  induction ds generalizing octetLenStr with
  | nil => simp [asciiString]
  | cons b ds ih =>
    have hb : b ≠ SP := hds b List.mem_cons_self
    have hturn : (SocketReader.inLength octetLenStr).turn b (ds ++ input)
        = .next (.inLength (octetLenStr ++ [Char.ofNat b.toNat])) (ds ++ input) := by
      simp [SocketReader.turn, SocketReader.inLength, hb]
    rw [List.cons_append, SocketReader.run_next handles hturn,
      ih (fun x hx => hds x (List.mem_cons_of_mem b hx)), List.append_assoc]
    rfl

/-- The length of a counted message, where a message may start. -/
theorem run_idle_length {n : ℕ} (hn : 0 < n) (input : List UInt8) :
    (SocketReader.idle true).run handles (lengthBytes n ++ SP :: input)
      = (SocketReader.inLength (Nat.toDigits 10 n)).run handles (SP :: input) := by
  obtain ⟨d, ds, hbytes, hlo, hhi⟩ := lengthBytes_eq_cons hn
  have hds : ∀ b ∈ lengthBytes n, b ≠ SP := by
    rintro b hb rfl
    have hrange := digit_of_mem_lengthBytes hb
    simp [SP] at hrange
  have hturn : (SocketReader.idle true).turn d (ds ++ SP :: input)
      = .next (.inLength [Char.ofNat d.toNat]) (ds ++ SP :: input) := by
    have hd : d ≠ SP := hds d (hbytes ▸ List.mem_cons_self)
    simp [SocketReader.turn, SocketReader.idle, SocketReader.inLength, hlo, hhi, hd]
  have hstring := asciiString_lengthBytes n
  rw [hbytes] at hds hstring ⊢
  rw [List.cons_append, SocketReader.run_next handles hturn,
    run_inLength_append handles fun b hb => hds b (List.mem_cons_of_mem d hb), ← hstring]
  rfl

/-- A length beyond `int` is not read. -/
theorem parseInt_toDigits (n : ℕ) :
    parseInt (Nat.toDigits 10 n) = if n < 2 ^ 31 then some (n : ℤ) else none := by
  rw [parseInt, parseSigned_of_parseDigits (parseDigits_toDigits n), Option.filter_some]
  simp only [decide_eq_true_eq]
  split_ifs with h1 h2 h2
  · rfl
  · omega
  · omega
  · rfl

/-- A message is taken by its length. -/
theorem toByteArray_append {msg : List UInt8} (input : List UInt8) (hne : msg ≠ []) :
    toByteArray (msg ++ input) msg.length = some (msg, input) := by
  have hpos : 0 < msg.length := List.length_pos_iff.mpr hne
  rw [toByteArray, if_neg (by omega), if_neg (by omega), Int.toNat_natCast, List.length_append,
    if_neg (by omega), List.take_left, List.drop_left]

/-! ## One message -/

/-- The flag after a message. -/
def Message.firstByteAfter (m : Message) : Bool :=
  match m with
  | .octetCounted _ => true
  | .text _ trailer _ => trailer = .lf

/-- What the reader can take for one message with the flag as it is. -/
def Message.Readable (firstByte : Bool) (m : Message) : Prop :=
  m.Framed ∧ (m.IsOctetCounted → firstByte = true)

/-- A counted message is read where a message may start. -/
theorem run_octetCounted {msg : List UInt8} (h : (Message.octetCounted msg).Framed)
    (input : List UInt8) :
    (SocketReader.idle true).run handles ((Message.octetCounted msg).wire ++ input)
      = msg :: if handles msg then (SocketReader.idle true).run handles input else [] := by
  obtain ⟨hne, hlen⟩ := h
  have hpos : 0 < msg.length := List.length_pos_iff.mpr hne
  have hread : (parseInt (Nat.toDigits 10 msg.length)).bind (toByteArray (msg ++ input))
      = some (msg, input) := by
    rw [parseInt_toDigits, if_pos hlen, Option.bind_some, toByteArray_append input hne]
  rw [Message.wire, List.append_assoc, List.cons_append, run_idle_length handles hpos]
  refine SocketReader.run_deliver handles ?_
  simp [SocketReader.turn, SocketReader.inLength, SocketReader.idle, hread]

/-- A text without a CR is read up to its trailer. -/
theorem run_text (firstByte : Bool) {body : List UInt8} {trailer : Trailer} {noLF : LF ∉ body}
    (h : (Message.text body trailer noLF).Framed) (input : List UInt8) :
    (SocketReader.idle firstByte).run handles ((Message.text body trailer noLF).wire ++ input)
      = (Message.LT :: body) :: if handles (Message.LT :: body) then
          (SocketReader.idle (Message.text body trailer noLF).firstByteAfter).run handles input
        else [] := by
  have hbody : ∀ b ∈ body, endsText b = false := by
    intro b hb
    have hCR : b ≠ CR := fun heq => h (heq ▸ hb)
    have hLF : b ≠ LF := fun heq => noLF (heq ▸ hb)
    simp [endsText, hCR, hLF]
  rw [Message.wire, List.cons_append, List.cons_append, List.append_assoc,
    run_idle_text handles firstByte (by decide) (fun _ => by decide),
    run_inText_append handles hbody, List.singleton_append]
  cases trailer with
  | lf => exact run_inText_end handles (by decide) (List.cons_ne_nil _ _) input
  | crlf =>
    show (SocketReader.inText (Message.LT :: body)).run handles (CR :: (LF :: input)) = _
    rw [run_inText_end handles (by decide) (List.cons_ne_nil _ _), run_idle_LF]
    rfl

/-- One message that the reader can take is handed over with its bytes. -/
theorem run_readable {firstByte : Bool} {m : Message} (h : m.Readable firstByte)
    (input : List UInt8) :
    (SocketReader.idle firstByte).run handles (m.wire ++ input)
      = m.payload :: if handles m.payload then
          (SocketReader.idle m.firstByteAfter).run handles input else [] := by
  cases m with
  | octetCounted msg =>
    obtain rfl := h.2 trivial
    exact run_octetCounted handles h.1 input
  | text body trailer noLF => exact run_text handles firstByte h.1 input

/-- A text with a CR in it comes out in pieces. -/
theorem run_text_unreadable (firstByte : Bool) {body : List UInt8} {trailer : Trailer}
    {noLF : LF ∉ body} (h : ¬ (Message.text body trailer noLF).Framed) (input : List UInt8)
    (tail : List (List UInt8)) :
    (SocketReader.idle firstByte).run handles ((Message.text body trailer noLF).wire ++ input)
      ≠ (Message.LT :: body) :: tail := by
  have hCR : CR ∈ body := by simpa [Message.Framed] using h
  rw [Message.wire, List.cons_append, List.cons_append, List.append_assoc,
    run_idle_text handles firstByte (by decide) (fun _ => by decide)]
  obtain ⟨tail', hhead⟩ := run_inText_head handles [Message.LT]
    (body ++ (trailer.bytes ++ input)) (by simp)
  rw [hhead]
  intro heq
  -- the piece ends before the CR that is in the message
  have hpiece : (body ++ (trailer.bytes ++ input)).takeWhile (!endsText ·) = body := by
    simpa using (List.cons.inj heq).1
  rw [← hpiece] at hCR
  exact absurd (List.mem_takeWhile_imp hCR) (by decide)

/-- A counted message in the wrong place is taken for text. -/
theorem run_octetCounted_idle_false {msg : List UInt8} (input : List UInt8)
    (tail : List (List UInt8)) :
    (SocketReader.idle false).run handles ((Message.octetCounted msg).wire ++ input) ≠ msg :: tail := by
  intro hrun
  rw [Message.wire, List.append_assoc, List.cons_append] at hrun
  have hdigits : ∀ b ∈ lengthBytes msg.length, (!endsText b) = true := by
    intro b hb
    have hrange := digit_of_mem_lengthBytes hb
    have hCR : b ≠ CR := by rintro rfl; simp [CR] at hrange
    have hLF : b ≠ LF := by rintro rfl; simp [LF] at hrange
    simp [endsText, hCR, hLF]
  have hpiece : (lengthBytes msg.length ++ SP :: (msg ++ input)).takeWhile (!endsText ·)
      = lengthBytes msg.length ++ SP :: (msg ++ input).takeWhile (!endsText ·) := by
    rw [List.takeWhile_append_of_pos hdigits, List.takeWhile_cons_of_pos (by decide)]
  obtain ⟨tail', hhead⟩ := run_inText_head handles []
    (lengthBytes msg.length ++ SP :: (msg ++ input)) (by rw [hpiece]; simp)
  have heq : lengthBytes msg.length ++ SP :: (msg ++ input).takeWhile (!endsText ·) = msg := by
    have hsame := hhead.symm.trans hrun
    rw [List.nil_append, hpiece] at hsame
    exact (List.cons.inj hsame).1
  -- the piece has no line end, so all of the message is in it, behind the length
  have hmsg : ∀ b ∈ msg, (!endsText b) = true := by
    intro b hb
    rw [← heq, ← hpiece] at hb
    exact List.mem_takeWhile_imp (p := fun b => !endsText b) hb
  rw [List.takeWhile_append_of_pos hmsg] at heq
  have hlen := congrArg List.length heq
  simp only [List.length_append, List.length_cons] at hlen
  omega

/-- A length that is zero or no `int` is not read as a length. -/
theorem run_octetCounted_unframed {msg : List UInt8} (h : ¬ (Message.octetCounted msg).Framed)
    (input : List UInt8) (tail : List (List UInt8)) :
    (SocketReader.idle true).run handles ((Message.octetCounted msg).wire ++ input) ≠ msg :: tail := by
  rw [Message.wire, List.append_assoc, List.cons_append]
  rcases Nat.eq_zero_or_pos msg.length with hzero | hpos
  · -- `0` does not start a length
    have hbytes : lengthBytes msg.length = [48] := by rw [hzero]; rfl
    rw [hbytes, List.singleton_append, run_idle_text handles true (by decide) (fun _ => by decide)]
    obtain ⟨tail', hhead⟩ := run_inText_head handles [48] (SP :: (msg ++ input)) (by simp)
    rw [hhead, List.length_eq_zero_iff.mp hzero]
    simp
  · have hlen : ¬ msg.length < 2 ^ 31 := fun hlen => h ⟨List.length_pos_iff.mp hpos, hlen⟩
    have hread : (parseInt (Nat.toDigits 10 msg.length)).bind (toByteArray (msg ++ input)) = none := by
      rw [parseInt_toDigits, if_neg hlen, Option.bind_none]
    rw [run_idle_length handles hpos, SocketReader.run_raised handles]
    · exact (List.cons_ne_nil _ _).symm
    · simp [SocketReader.turn, SocketReader.inLength, hread]

/-- A message that the reader cannot take is not the next one that it hands over. -/
theorem run_unreadable {firstByte : Bool} {m : Message} (h : ¬ m.Readable firstByte)
    (input : List UInt8) (tail : List (List UInt8)) :
    (SocketReader.idle firstByte).run handles (m.wire ++ input) ≠ m.payload :: tail := by
  cases m with
  | octetCounted msg =>
    cases firstByte with
    | false => exact run_octetCounted_idle_false handles input tail
    | true =>
      have hframed : ¬ (Message.octetCounted msg).Framed := fun hframed => h ⟨hframed, fun _ => rfl⟩
      exact run_octetCounted_unframed handles hframed input tail
  | text body trailer noLF =>
    have hframed : ¬ (Message.text body trailer noLF).Framed := fun hframed => h ⟨hframed, nofun⟩
    exact run_text_unreadable handles firstByte hframed input tail

/-! ## A connection -/

/-- The messages are read one after the other, from the flag as it is. -/
def ReadInTurn (firstByte : Bool) : List Message → Prop
  | [] => True
  | m :: ms => m.Readable firstByte ∧ (ms = [] ∨ handles m.payload = true)
      ∧ ReadInTurn m.firstByteAfter ms

/-- Between two messages the stream is read right if and only if the messages that are left are. -/
theorem run_idle_iff (firstByte : Bool) (ms : List Message) :
    (SocketReader.idle firstByte).run handles (ms.flatMap Message.wire) = ms.map Message.payload
      ↔ ReadInTurn handles firstByte ms := by
  induction ms generalizing firstByte with
  | nil => simp [SocketReader.run_nil, SocketReader.idle, ReadInTurn]
  | cons m ms ih =>
    rw [List.flatMap_cons, List.map_cons, ReadInTurn]
    by_cases hread : m.Readable firstByte
    · rw [run_readable handles hread, List.cons_inj_right]
      by_cases hreturns : handles m.payload = true
      · simp [hread, hreturns, ih]
      · -- an exception of the handler loses the messages that follow
        have hnil : [] = ms.map Message.payload ↔ ms = [] := by
          rw [eq_comm, List.map_eq_nil_iff]
        rw [if_neg hreturns, hnil]
        constructor
        · rintro rfl
          exact ⟨hread, Or.inl rfl, trivial⟩
        · rintro ⟨-, hms | hms, -⟩
          · exact hms
          · exact absurd hms hreturns
    · exact ⟨fun heq => absurd heq (run_unreadable handles hread _ _), fun h => absurd h.1 hread⟩

/-- What `ReadInTurn` asks of the messages, of neighbours and of the first one. -/
theorem readInTurn_iff (firstByte : Bool) (ms : List Message) :
    ReadInTurn handles firstByte ms ↔ (∀ m ∈ ms.head?, m.IsOctetCounted → firstByte = true)
      ∧ (∀ m ∈ ms, m.Framed)
      ∧ ms.IsChain (fun m m' => ¬ (m.EndsWithCRLF ∧ m'.IsOctetCounted))
      ∧ ∀ m ∈ ms.dropLast, handles m.payload = true := by
  have hafter : ∀ m : Message, m.firstByteAfter = true ↔ ¬ m.EndsWithCRLF := by
    intro m
    rcases m with msg | ⟨body, _ | _, noLF⟩ <;> simp [Message.firstByteAfter, Message.EndsWithCRLF]
  induction ms generalizing firstByte with
  | nil => simp [ReadInTurn]
  | cons m ms ih =>
    simp only [ReadInTurn, ih, Message.Readable]
    cases ms with
    | nil => simp [and_comm]
    | cons m' ms =>
      simp only [List.head?_cons, Option.mem_some_iff, forall_eq', List.mem_cons, forall_eq_or_imp,
        List.isChain_cons_cons, List.dropLast_cons_cons, hafter, not_and, reduceCtorEq, false_or]
      tauto

/-- A connection is read as it was written exactly if every counted message has a length that is positive
and an `int`, no text has a CR in it, no counted message follows a text that ends with CR LF, and the
handler returns on every message but the last. -/
theorem run_wire_iff (ms : List Message) :
    TCPSyslogSocketHandler.run handles (ms.flatMap Message.wire) = ms.map Message.payload
      ↔ (∀ m ∈ ms, m.Framed)
        ∧ ms.IsChain (fun m m' => ¬ (m.EndsWithCRLF ∧ m'.IsOctetCounted))
        ∧ ∀ m ∈ ms.dropLast, handles m.payload = true := by
  have hiff := (run_idle_iff handles true ms).trans (readInTurn_iff handles true ms)
  simpa [TCPSyslogSocketHandler.run, SocketReader.idle] using hiff

end

/-- The text `<1>a` that ends with CR LF, and the two bytes `hi` with their length behind it. -/
def countedBehindCRLF : List Message := [.text (ascii "1>a") .crlf (by decide), .octetCounted (ascii "hi")]

/-- The second message is read as the text `2 hi`. -/
theorem run_countedBehindCRLF :
    TCPSyslogSocketHandler.run (fun _ => true) (countedBehindCRLF.flatMap Message.wire)
        = [ascii "<1>a", ascii "2 hi"]
      ∧ countedBehindCRLF.map Message.payload = [ascii "<1>a", ascii "hi"]
      ∧ TCPSyslogSocketHandler.run (fun _ => true) (countedBehindCRLF.flatMap Message.wire)
        ≠ countedBehindCRLF.map Message.payload := by
  have hrun : TCPSyslogSocketHandler.run (fun _ => true) (countedBehindCRLF.flatMap Message.wire)
      = [ascii "<1>a", ascii "2 hi"] := by decide +kernel
  refine ⟨hrun, by decide, ?_⟩
  rw [hrun]
  decide

end OrgLittle.Syslog
