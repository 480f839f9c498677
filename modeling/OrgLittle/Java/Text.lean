import Mathlib

/-!
# Java strings, bytes and exceptions

The part of `java.lang` and of netty's ASCII helpers that the mail servers rest on. A `String` is
the list of its characters. Two conversions from bytes occur in the source and differ above `0x7f`:
`AsciiString.toString` keeps the byte (`asciiString`), while `(char) value` on a signed `byte`
sign-extends it (`signedChar`). `new String(bytes)` uses the platform charset, which is a parameter.
-/

namespace OrgLittle.Java

/-- A Java `String`. -/
abbrev JString := List Char

instance : LawfulBEq JString := List.instLawfulBEq

/-- The exceptions that the modelled code can raise. -/
inductive JavaException
  | indexOutOfBounds
  | illegalArgument
  | nullPointer
  | numberFormat
  | negativeArraySize
  | corruptedFrame
  | tooLongFrame
  | decoderException
deriving DecidableEq, Repr

section

variable {α β ε : Type*} {x : Except ε α} {b : β}

/-- A chain that ends well has gone well at its first step. -/
theorem exists_of_bind {f : α → Except ε β} (h : x.bind f = .ok b) : ∃ a, x = .ok a ∧ f a = .ok b := by
  cases x with
  | error e => cases h
  | ok a => exact ⟨a, rfl, h⟩

theorem exists_of_map {f : α → β} (h : x.map f = .ok b) : ∃ a, x = .ok a ∧ f a = b := by
  cases x with
  | error e => cases h
  | ok a => exact ⟨a, rfl, Except.ok.inj h⟩

end

/-! ## Bytes and characters -/

/-- Carriage return. -/
def CR : UInt8 := 13

/-- Line feed. -/
def LF : UInt8 := 10

/-- Space. -/
def SP : UInt8 := 32

/-- The line end of the mail protocols. -/
def CRLF : List UInt8 := [CR, LF]

/-- `AsciiString.toString`: every byte becomes the character with the same number. -/
def asciiString (bytes : List UInt8) : JString := bytes.map fun b => Char.ofNat b.toNat

/-- `(char) value` for a signed `byte`: bytes from `0x80` on are sign-extended to `0xff80 ..`. -/
def signedChar (b : UInt8) : Char :=
  if b.toNat < 128 then Char.ofNat b.toNat else Char.ofNat (0xff00 + b.toNat)

/-- `AsciiString.c2b`: characters above `0xff` become a question mark. -/
def c2b (c : Char) : UInt8 := if 255 < c.toNat then 63 else UInt8.ofNat c.toNat

/-- `ByteBufUtil.writeAscii`. A character outside the basic plane is two `char`s in Java, and each of
them becomes a question mark. -/
def writeAscii (s : JString) : List UInt8 :=
  s.flatMap fun c => if 0xffff < c.toNat then [63, 63] else [c2b c]

/-- `String.length`, which counts the `char`s of a text. -/
def utf16Length (s : JString) : ℕ := (s.map fun c => if 0xffff < c.toNat then 2 else 1).sum

/-- Every `char` is written as one byte. -/
theorem length_writeAscii (s : JString) : (writeAscii s).length = utf16Length s := by
  induction s with
  | nil => rfl
  | cons c s ih =>
    rw [writeAscii, utf16Length, List.flatMap_cons, List.map_cons, List.sum_cons, List.length_append]
    apply congrArg₂ (· + ·) _ ih
    split_ifs <;> rfl

theorem writeAscii_append (s t : JString) : writeAscii (s ++ t) = writeAscii s ++ writeAscii t :=
  List.flatMap_append

/-- The bytes of a text constant. -/
def ascii (text : String) : List UInt8 := writeAscii text.toList

/-- The bytes of a US-ASCII text. -/
def IsAscii (bytes : List UInt8) : Prop := ∀ b ∈ bytes, b.toNat < 128

instance (bytes : List UInt8) : Decidable (IsAscii bytes) :=
  List.decidableBAll (fun b : UInt8 => b.toNat < 128) bytes

theorem IsAscii.append {a b : List UInt8} (ha : IsAscii a) (hb : IsAscii b) : IsAscii (a ++ b) := by
  intro x hx
  rcases List.mem_append.mp hx with h | h
  · exact ha x h
  · exact hb x h

theorem isAscii_CRLF : IsAscii CRLF := by decide

theorem toNat_ofNat_of_lt {n : ℕ} (h : n < 0xd800) : (Char.ofNat n).toNat = n := by
  have hv : n.isValidChar := Or.inl h
  rw [Char.ofNat, dif_pos hv]
  rfl

/-- A byte that is widened to a character and cut off again is the same byte. -/
theorem c2b_ofNat_toNat (b : UInt8) : c2b (Char.ofNat b.toNat) = b := by
  have hb : b.toNat < 256 := b.toNat_lt
  have hc : (Char.ofNat b.toNat).toNat = b.toNat := toNat_ofNat_of_lt (by omega)
  rw [c2b, hc, if_neg (by omega), UInt8.ofNat_toNat]

/-- Writing back what `AsciiString.toString` read gives the same bytes. -/
theorem writeAscii_asciiString (bytes : List UInt8) : writeAscii (asciiString bytes) = bytes := by
  induction bytes with
  | nil => rfl
  | cons b bytes ih =>
    have hb : b.toNat < 256 := b.toNat_lt
    have hc : (Char.ofNat b.toNat).toNat = b.toNat := toNat_ofNat_of_lt (by omega)
    have hcons : writeAscii (asciiString (b :: bytes))
        = c2b (Char.ofNat b.toNat) :: writeAscii (asciiString bytes) := by
      simp [writeAscii, asciiString, hc, show ¬ 65535 < b.toNat by omega]
    rw [hcons, ih, c2b_ofNat_toNat]

/-- `AsciiString.toString` reads back an ASCII text that was written. -/
theorem asciiString_writeAscii {s : JString} (h : ∀ c ∈ s, c.toNat < 128) :
    asciiString (writeAscii s) = s := by
  induction s with
  | nil => rfl
  | cons c s ih =>
    have hc : c.toNat < 128 := h c List.mem_cons_self
    have hbyte : (UInt8.ofNat c.toNat).toNat = c.toNat := by
      rw [UInt8.toNat_ofNat', Nat.mod_eq_of_lt (show c.toNat < 2 ^ 8 by omega)]
    have hcons : asciiString (writeAscii (c :: s))
        = Char.ofNat (UInt8.ofNat c.toNat).toNat :: asciiString (writeAscii s) := by
      simp [writeAscii, asciiString, c2b, show ¬ 65535 < c.toNat by omega,
        show ¬ 255 < c.toNat by omega]
    rw [hcons, hbyte, Char.ofNat_toNat, ih fun x hx => h x (List.mem_cons_of_mem c hx)]

/-- The sign of a byte matters beyond ASCII only. -/
theorem signedChar_of_lt {b : UInt8} (h : b.toNat < 128) : signedChar b = Char.ofNat b.toNat := by
  simp [signedChar, h]

/-! ## US-ASCII -/

/-- Decoding with the charset `US_ASCII`: a byte from `0x80` on becomes the replacement character. -/
def usAsciiDecode (bytes : List UInt8) : JString :=
  bytes.map fun b => if b.toNat < 128 then Char.ofNat b.toNat else Char.ofNat 0xfffd

/-- Encoding with the charset `US_ASCII`: any other character becomes a question mark. -/
def usAsciiEncode (s : JString) : List UInt8 :=
  s.map fun c => if c.toNat < 128 then UInt8.ofNat c.toNat else 63

theorem usAsciiEncode_append (s t : JString) :
    usAsciiEncode (s ++ t) = usAsciiEncode s ++ usAsciiEncode t := List.map_append

/-- ASCII text survives the round trip. -/
theorem usAsciiEncode_decode {bytes : List UInt8} (h : IsAscii bytes) :
    usAsciiEncode (usAsciiDecode bytes) = bytes := by
  induction bytes with
  | nil => rfl
  | cons b bytes ih =>
    have hb : b.toNat < 128 := h b List.mem_cons_self
    have hc : (Char.ofNat b.toNat).toNat = b.toNat := toNat_ofNat_of_lt (by omega)
    have hrest := ih fun x hx => h x (List.mem_cons_of_mem b hx)
    rw [usAsciiDecode, usAsciiEncode] at hrest ⊢
    rw [List.map_cons, List.map_cons, hrest, if_pos hb, hc, if_pos hb, UInt8.ofNat_toNat]

/-! ## The platform charset -/

/-- The platform's default charset, as `new String(bytes)` and `getBytes()` use it. It is compatible
with US-ASCII and never decodes bytes to a longer text, counted in `char`s. -/
structure Charset where
  decode : List UInt8 → JString
  encode : JString → List UInt8
  decode_ascii : ∀ bytes, IsAscii bytes → decode bytes = asciiString bytes
  length_decode_le : ∀ bytes, (writeAscii (decode bytes)).length ≤ bytes.length

/-- ISO-8859-1. -/
def Charset.latin1 : Charset where
  decode := asciiString
  encode := List.map c2b
  decode_ascii := fun _ _ => rfl
  length_decode_le := fun bytes => by simp [writeAscii_asciiString]

/-! ## `String` methods -/

/-- `String.startsWith`. -/
def startsWith (s pre : JString) : Bool := pre.isPrefixOf s

/-- `String.endsWith`. -/
def endsWith (s suf : JString) : Bool := suf.isSuffixOf s

/-- `String.substring(from, to)`. -/
def substring (s : JString) (start stop : ℕ) : Except JavaException JString :=
  if start ≤ stop ∧ stop ≤ s.length then .ok ((s.drop start).take (stop - start))
  else .error .indexOutOfBounds

/-- The parts of a text between the occurrences of `sep`, from the part that has been read on; `skip`
characters of a separator are still to be passed over. -/
def splitParts (sep : JString) (skip : ℕ) (part : JString) : JString → List JString
  | [] => [part]
  | c :: s =>
    match skip with
    | skip + 1 => splitParts sep skip part s
    | 0 =>
      if startsWith (c :: s) sep then part :: splitParts sep (sep.length - 1) [] s
      else splitParts sep 0 (part ++ [c]) s

/-- `String.split` at a separator that is no regular expression. Empty parts at the end are dropped, but a
text without the separator is one part. -/
def split (sep s : JString) : List JString :=
  match splitParts sep 0 [] s with
  | [part] => [part]
  | parts => (parts.reverse.dropWhile List.isEmpty).reverse

/-! ## Numbers -/

/-- The value that an `int` keeps of the result of an addition. -/
def wrapInt (v : ℤ) : ℤ := (v + 2 ^ 31) % 2 ^ 32 - 2 ^ 31

/-- In range nothing is wrapped. -/
theorem wrapInt_of_lt {v : ℤ} (hlo : 0 ≤ v) (hhi : v < 2 ^ 31) : wrapInt v = v := by
  unfold wrapInt
  omega

/-- The digits of `Integer.parseInt` without their sign. -/
def parseDigits (s : JString) : Option ℕ :=
  if s ≠ [] ∧ s.all Char.isDigit then some (Nat.ofDigitChars 10 s 0) else none

/-- The value of a decimal number with an optional sign. -/
def parseSigned : JString → Option ℤ
  | '-' :: ds => (parseDigits ds).map fun n : ℕ => -(n : ℤ)
  | '+' :: ds => (parseDigits ds).map fun n : ℕ => (n : ℤ)
  | ds => (parseDigits ds).map fun n : ℕ => (n : ℤ)

/-- `Integer.parseInt`; `none` is a `NumberFormatException`. -/
def parseInt (s : JString) : Option ℤ :=
  (parseSigned s).filter fun n => -2 ^ 31 ≤ n ∧ n < 2 ^ 31

/-- `Integer.toString`. -/
def intToString (v : ℤ) : JString :=
  if v < 0 then '-' :: Nat.toDigits 10 v.natAbs else Nat.toDigits 10 v.natAbs

theorem toDigits_all_isDigit (n : ℕ) : (Nat.toDigits 10 n).all Char.isDigit = true := by
  rw [List.all_eq_true]
  intro c hc
  exact Nat.isDigit_of_mem_toDigits (by decide) (by decide) hc

/-- A number that is printed is read back. -/
theorem parseDigits_toDigits (n : ℕ) : parseDigits (Nat.toDigits 10 n) = some n := by
  rw [parseDigits, if_pos ⟨Nat.toDigits_ne_nil, toDigits_all_isDigit n⟩,
    Nat.ofDigitChars_ten_toDigits]

/-- A number without a sign. -/
theorem parseSigned_of_parseDigits {s : JString} {n : ℕ} (h : parseDigits s = some n) :
    parseSigned s = some (n : ℤ) := by
  have hdig : s.all Char.isDigit = true := by
    by_contra hs
    rw [parseDigits, if_neg (fun hc => hs hc.2)] at h
    cases h
  unfold parseSigned
  split
  · exact absurd hdig (by simp)
  · exact absurd hdig (by simp)
  · rw [h]; rfl

/-- Also with a sign. -/
theorem parseSigned_intToString (v : ℤ) : parseSigned (intToString v) = some v := by
  rw [intToString]
  split_ifs with hneg
  · have hn : -(v.natAbs : ℤ) = v := by omega
    rw [parseSigned, parseDigits_toDigits, Option.map_some, hn]
  · have hn : (v.natAbs : ℤ) = v := by omega
    rw [parseSigned_of_parseDigits (parseDigits_toDigits v.natAbs), hn]

theorem numeral_of_mem_intToString {v : ℤ} {c : Char} (h : c ∈ intToString v) :
    c = '-' ∨ c.isDigit = true := by
  have hdigits := List.all_eq_true.mp (toDigits_all_isDigit v.natAbs)
  rw [intToString] at h
  split_ifs at h with hneg
  · obtain rfl | h := List.mem_cons.mp h
    · exact Or.inl rfl
    · exact Or.inr (hdigits c h)
  · exact Or.inr (hdigits c h)

/-- The characters of a number are ASCII. -/
theorem toNat_lt_of_mem_intToString {v : ℤ} {c : Char} (h : c ∈ intToString v) : c.toNat < 128 := by
  rcases numeral_of_mem_intToString h with rfl | hdigit
  · decide
  · obtain ⟨-, hhi⟩ : 48 ≤ c.toNat ∧ c.toNat ≤ 57 := Char.isDigit_iff_toNat.mp hdigit
    omega

/-- A printed number holds digits and, perhaps, a minus. -/
theorem notMem_intToString {v : ℤ} {c : Char} (hminus : c ≠ '-') (hdigit : c.isDigit = false) :
    c ∉ intToString v := by
  intro hmem
  rcases numeral_of_mem_intToString hmem with h | h
  · exact hminus h
  · rw [hdigit] at h
    cases h

theorem intToString_injective : Function.Injective intToString := by
  intro v w h
  have hsigned := congrArg parseSigned h
  rw [parseSigned_intToString, parseSigned_intToString] at hsigned
  exact Option.some.inj hsigned

/-- `Integer.parseInt` reads back what `Integer.toString` writes. -/
theorem parseInt_intToString {v : ℤ} (hlo : -2 ^ 31 ≤ v) (hhi : v < 2 ^ 31) :
    parseInt (intToString v) = some v := by
  rw [parseInt, parseSigned_intToString, Option.filter_some, if_pos (decide_eq_true ⟨hlo, hhi⟩)]

end OrgLittle.Java
