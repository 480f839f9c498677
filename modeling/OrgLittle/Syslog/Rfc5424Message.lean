import OrgLittle.Syslog.Rfc5424Event

/-!
# Messages of RFC 5424

The grammar of the messages, and which of them `Rfc5424Event` reads. A first word of more than five characters, a
timestamp that is missing or has less than three digits of a fraction, a second element of structured data, an
escaped bracket in the first one, and a message without text are each read wrong (`readRight_iff`).
-/

namespace OrgLittle.Syslog

open OrgLittle.Java

namespace Rfc5424Message

/-! ## The grammar -/

/-- `TIME-OFFSET`. -/
inductive TimeOffset
  | utc
  | numeric (negative : Bool) (hour : Fin 24) (minute : Fin 60)

/-- `TIMESTAMP` with a date. A fraction without digits is none at all. -/
structure Timestamp where
  year : ℕ
  month : ℕ
  day : ℕ
  hour : ℕ
  minute : ℕ
  second : ℕ
  fraction : JString
  zone : TimeOffset
  year_lt : year < 10000
  month_mem : 1 ≤ month ∧ month ≤ 12
  day_mem : 1 ≤ day ∧ day ≤ 31
  hour_lt : hour < 24
  minute_lt : minute < 60
  second_lt : second < 60
  fraction_digits : fraction.length ≤ 6 ∧ ∀ c ∈ fraction, c.isDigit = true

/-- `SD-PARAM`, with its value before it is escaped. -/
structure Param where
  name : JString
  value : List UInt8

/-- `SD-ELEMENT`. -/
structure Element where
  id : JString
  params : List Param

/-- `[SP MSG]`: `MSG-ANY` does not begin with the byte order mark, `MSG-UTF8` does. -/
inductive Body
  | absent
  | any (octets : List UInt8)
  | utf8 (octets : List UInt8)

/-- `PRINTUSASCII` with a bound on its length. -/
def Printable (bound : ℕ) (s : JString) : Prop :=
  1 ≤ s.length ∧ s.length ≤ bound ∧ ∀ c ∈ s, 33 ≤ c.toNat ∧ c.toNat ≤ 126

/-- `SD-NAME`. -/
def SdName (s : JString) : Prop := Printable 32 s ∧ '=' ∉ s ∧ ']' ∉ s ∧ '"' ∉ s

def Element.WellFormed (e : Element) : Prop := SdName e.id ∧ ∀ p ∈ e.params, SdName p.name

def Body.WellFormed : Body → Prop
  | .absent => True
  | .any octets => ¬ Rfc5424Event.UTF_8_BOM <+: octets
  | .utf8 _ => True

end Rfc5424Message

open Rfc5424Message in
/-- `SYSLOG-MSG`. The priority may have leading zeros, `priWidth` digits in all. Without a timestamp or elements
there is a hyphen. -/
structure Rfc5424Message where
  priority : ℕ
  priWidth : ℕ
  version : ℕ
  timestamp : Option Timestamp
  hostname : JString
  appName : JString
  procId : JString
  msgId : JString
  elements : List Element
  body : Body
  priority_le : priority ≤ 191
  priWidth_le : priWidth ≤ 3
  version_mem : 1 ≤ version ∧ version ≤ 999
  hostname_printable : Printable 255 hostname
  appName_printable : Printable 48 appName
  procId_printable : Printable 128 procId
  msgId_printable : Printable 32 msgId
  elements_wf : ∀ e ∈ elements, e.WellFormed
  body_wf : body.WellFormed

namespace Rfc5424Message

/-! ## Its text -/

def sign (negative : Bool) : Char := if negative then '-' else '+'

def TimeOffset.text : TimeOffset → JString
  | .utc => ['Z']
  | .numeric negative hour minute => sign negative :: (digits 2 hour ++ ':' :: digits 2 minute)

namespace Timestamp

variable (ts : Timestamp)

/-- `FULL-DATE "T"` and the time without its fraction. -/
def localText : JString :=
  digits 4 ts.year ++ '-' :: (digits 2 ts.month ++ '-' :: (digits 2 ts.day ++ 'T' :: (digits 2 ts.hour
    ++ ':' :: (digits 2 ts.minute ++ ':' :: digits 2 ts.second))))

def fractionText : JString := if ts.fraction = [] then [] else '.' :: ts.fraction

def text : JString := ts.localText ++ (ts.fractionText ++ ts.zone.text)

end Timestamp

/-- The escapes of `PARAM-VALUE`: a backslash in front of a quote, a backslash or a bracket. -/
def escape (value : List UInt8) : List UInt8 :=
  value.flatMap fun b => if b = 34 ∨ b = 92 ∨ b = 93 then [92, b] else [b]

def Param.bytes (p : Param) : List UInt8 := SP :: (writeAscii p.name ++ 61 :: 34 :: (escape p.value ++ [34]))

/-- An element without its last bracket. -/
def Element.inner (e : Element) : List UInt8 := 91 :: (writeAscii e.id ++ e.params.flatMap Param.bytes)

def Element.bytes (e : Element) : List UInt8 := e.inner ++ [93]

def Body.bytes : Body → List UInt8
  | .absent => []
  | .any octets => SP :: octets
  | .utf8 octets => SP :: (Rfc5424Event.UTF_8_BOM ++ octets)

section message

variable (m : Rfc5424Message)

/-- `PRI VERSION`. -/
def headText : JString := '<' :: (digits m.priWidth m.priority ++ '>' :: Nat.toDigits 10 m.version)

def timestampText : JString := m.timestamp.elim Rfc5424Event.NIL Timestamp.text

/-- `STRUCTURED-DATA`. -/
def structuredBytes : List UInt8 := if m.elements = [] then [45] else m.elements.flatMap Element.bytes

def bytes : List UInt8 :=
  writeAscii m.headText ++ SP :: (writeAscii m.timestampText ++ SP :: (writeAscii m.hostname ++ SP ::
    (writeAscii m.appName ++ SP :: (writeAscii m.procId ++ SP :: (writeAscii m.msgId ++ SP ::
      (m.structuredBytes ++ m.body.bytes))))))

end message

/-! ## What is assumed of the library -/

namespace TimeOffset

def negative : TimeOffset → Bool
  | utc => false
  | numeric negative _ _ => negative

def hour : TimeOffset → ℕ
  | utc => 0
  | numeric _ hour _ => hour

def minute : TimeOffset → ℕ
  | utc => 0
  | numeric _ _ minute => minute

/-- The zone as the date format reads it. -/
def rfc822 (zone : TimeOffset) : JString := sign zone.negative :: (digits 2 zone.hour ++ digits 2 zone.minute)

/-- The zone with a colon, and universal time with its offset. -/
def numericText (zone : TimeOffset) : JString :=
  sign zone.negative :: (digits 2 zone.hour ++ ':' :: digits 2 zone.minute)

end TimeOffset

/-- UTF-8 keeps every ASCII character apart from what stands before and behind it, and a byte order mark is a
character. `yyyy-MM-dd'T'hh:mm:ss.SSSZ` takes a date with three digits of a fraction, but neither one whose sign
stands twice behind a shorter fraction nor a year of three digits with a zone behind it. -/
structure Documented (lib : SyslogLibrary) : Prop where
  decode_nil : lib.decode [] = []
  decode_ascii : ∀ (x y : List UInt8) (b : UInt8), b.toNat < 128 →
    lib.decode (x ++ b :: y) = lib.decode x ++ Char.ofNat b.toNat :: lib.decode y
  decode_bom : lib.decode Rfc5424Event.UTF_8_BOM ≠ []
  parse_date : ∀ ts : Timestamp, ts.fraction.length = 3 →
    (lib.parse5424 (ts.localText ++ (ts.fractionText ++ ts.zone.rfc822))).isSome
  parse_signTwice : ∀ ts : Timestamp, 0 < ts.fraction.length → ts.fraction.length < 3 →
    lib.parse5424 (ts.localText ++ (ts.fractionText ++ sign ts.zone.negative :: ts.zone.rfc822)) = none
  parse_shortYear : ∀ ts : Timestamp, lib.parse5424 (ts.localText.take 3 ++ ts.zone.rfc822) = none

/-! ## Timestamps -/

section timestamps

variable (ts : Timestamp)

theorem length_localText : ts.localText.length = 19 := by
  have htwo {v : ℕ} (hv : v < 100) : (digits 2 v).length = 2 := length_digits (by decide) hv
  have hyear : (digits 4 ts.year).length = 4 := length_digits (by decide) ts.year_lt
  have hmonth := ts.month_mem
  have hday := ts.day_mem
  have hhour := ts.hour_lt
  have hminute := ts.minute_lt
  have hsecond := ts.second_lt
  simp only [Timestamp.localText, List.length_append, List.length_cons, hyear]
  rw [htwo (by omega), htwo (by omega), htwo (by omega), htwo (by omega), htwo (by omega)]

/-- The characters of a date without its zone. -/
theorem notMem_localText {c : Char} (hdigit : c.isDigit = false) (hminus : c ≠ '-') (hT : c ≠ 'T')
    (hcolon : c ≠ ':') : c ∉ ts.localText := by
  simp only [Timestamp.localText, List.mem_append, List.mem_cons, notMem_digits hdigit, hminus, hT, hcolon, or_self,
    not_false_eq_true]

/-- The fraction consists of digits. -/
theorem notMem_fraction {c : Char} (hdigit : c.isDigit = false) : c ∉ ts.fraction := by
  intro hmem
  rw [ts.fraction_digits.2 c hmem] at hdigit
  cases hdigit

theorem notMem_fractionText {c : Char} (hdigit : c.isDigit = false) (hpoint : c ≠ '.') : c ∉ ts.fractionText := by
  unfold Timestamp.fractionText
  split_ifs
  · exact List.not_mem_nil
  · rw [List.mem_cons, not_or]
    exact ⟨hpoint, notMem_fraction ts hdigit⟩

/-- A text without `Z` is left as it is. -/
theorem withOffset_of_notMem {s : JString} (h : 'Z' ∉ s) : Rfc5424Event.withOffset s = s := by
  have hsame : ∀ c ∈ s, (if c = 'Z' then "+00:00".toList else [c]) = [c] := by
    intro c hc
    apply if_neg
    rintro rfl
    exact h hc
  rw [Rfc5424Event.withOffset, List.flatMap_congr hsame, List.flatMap_singleton']

/-- `Z` becomes an offset of zero. -/
theorem withOffset_zone (zone : TimeOffset) : Rfc5424Event.withOffset zone.text = zone.numericText := by
  cases zone with
  | utc => rfl
  | numeric negative hour minute =>
    apply withOffset_of_notMem
    have hsign : sign negative ≠ 'Z' := by cases negative <;> decide
    simp only [TimeOffset.text, List.mem_cons, List.mem_append, notMem_digits (c := 'Z') rfl, hsign.symm, or_false,
      false_or]
    decide

/-- What `withOffset` makes of a timestamp. -/
theorem withOffset_text :
    Rfc5424Event.withOffset ts.text = ts.localText ++ (ts.fractionText ++ ts.zone.numericText) := by
  have hsplit (s t : JString) :
      Rfc5424Event.withOffset (s ++ t) = Rfc5424Event.withOffset s ++ Rfc5424Event.withOffset t :=
    List.flatMap_append
  rw [Timestamp.text, hsplit, hsplit, withOffset_zone,
    withOffset_of_notMem (notMem_localText ts rfl (by decide) (by decide) (by decide)),
    withOffset_of_notMem (notMem_fractionText ts rfl (by decide))]

/-- The text up to the minutes of the zone. -/
def beforeColon : JString := ts.localText ++ (ts.fractionText ++ sign ts.zone.negative :: digits 2 ts.zone.hour)

/-- The last colon is that of the offset. -/
theorem withOffset_eq : Rfc5424Event.withOffset ts.text = beforeColon ts ++ ':' :: digits 2 ts.zone.minute := by
  simp only [withOffset_text, beforeColon, TimeOffset.numericText, List.append_assoc, List.cons_append]

/-- The offset without its colon. -/
theorem withoutColon_text : Rfc5424Event.withoutColon (Rfc5424Event.withOffset ts.text)
    = ts.localText ++ (ts.fractionText ++ ts.zone.rfc822) := by
  have hcolon : lastIndexOf ':' (beforeColon ts ++ ':' :: digits 2 ts.zone.minute) = (beforeColon ts).length :=
    Rfc5424Event.lastIndexOf_append _ (notMem_digits rfl)
  rw [withOffset_eq, Rfc5424Event.withoutColon, hcolon, Int.toNat_natCast, List.take_left, List.drop_append,
    List.drop_of_length_le (by omega), List.nil_append, Nat.add_sub_cancel_left, List.drop_succ_cons, List.drop_zero]
  simp only [beforeColon, TimeOffset.rfc822, List.append_assoc, List.cons_append]

/-- The sign is found in front of the offset. -/
theorem signPos_text : Rfc5424Event.signPos (ts.localText ++ (ts.fractionText ++ ts.zone.rfc822))
    = (ts.localText ++ ts.fractionText).length := by
  have hzone {c : Char} (hc : c.isDigit = false) : c ∉ digits 2 ts.zone.hour ++ digits 2 ts.zone.minute := by
    rw [List.mem_append, not_or]
    exact ⟨notMem_digits hc, notMem_digits hc⟩
  rw [← List.append_assoc, TimeOffset.rfc822, Rfc5424Event.signPos]
  cases hneg : ts.zone.negative with
  | false =>
    rw [sign, if_neg Bool.false_ne_true, Rfc5424Event.lastIndexOf_append _ (hzone rfl), if_neg (by omega)]
  | true =>
    have hplus : '+' ∉ (ts.localText ++ ts.fractionText)
        ++ '-' :: (digits 2 ts.zone.hour ++ digits 2 ts.zone.minute) := by
      rw [List.mem_append, List.mem_append, List.mem_cons]
      rintro ((h | h) | h | h)
      · exact notMem_localText ts rfl (by decide) (by decide) (by decide) h
      · exact notMem_fractionText ts rfl (by decide) h
      · exact absurd h (by decide)
      · exact hzone rfl h
    rw [sign, if_pos rfl, Rfc5424Event.lastIndexOf_of_notMem hplus, if_pos (by omega),
      Rfc5424Event.lastIndexOf_append _ (hzone rfl)]

/-- The zone brings no second point into the time. -/
theorem notMem_rfc822 : '.' ∉ ts.zone.rfc822 := by
  rw [TimeOffset.rfc822, List.mem_cons, List.mem_append]
  rintro (h | h | h)
  · revert h
    cases ts.zone.negative <;> decide
  · exact notMem_digits rfl h
  · exact notMem_digits rfl h

/-- The point of the fraction is found where there is one. -/
theorem point_text : lastIndexOf '.' (ts.localText ++ (ts.fractionText ++ ts.zone.rfc822))
    = if ts.fraction = [] then -1 else 19 := by
  have hlocal : '.' ∉ ts.localText := notMem_localText ts rfl (by decide) (by decide) (by decide)
  unfold Timestamp.fractionText
  split_ifs with hnone
  · rw [List.nil_append]
    exact Rfc5424Event.lastIndexOf_of_notMem fun h =>
      (List.mem_append.mp h).elim hlocal (notMem_rfc822 ts)
  · rw [List.cons_append, Rfc5424Event.lastIndexOf_append, length_localText]
    · rfl
    · exact fun h => (List.mem_append.mp h).elim (notMem_fraction ts rfl) (notMem_rfc822 ts)

/-- A timestamp always has a zone. -/
theorem not_zoneBreaks : ¬ Rfc5424Event.ZoneBreaks ts.text := by
  rintro ⟨-, -, h⟩
  rw [withoutColon_text, signPos_text, point_text, List.length_append, length_localText] at h
  rcases h with h | h
  · omega
  · split_ifs at h <;> omega

/-- What the date format is given: the first three digits of the fraction, the sign too where there are fewer, and
without a fraction only three digits of the year. -/
def givenText : JString :=
  if ts.fraction = [] then ts.localText.take 3 ++ ts.zone.rfc822
  else if ts.fraction.length < 3 then ts.localText ++ (ts.fractionText ++ sign ts.zone.negative :: ts.zone.rfc822)
  else ts.localText ++ ('.' :: ts.fraction.take 3 ++ ts.zone.rfc822)

/-- What is left for the date format. -/
theorem cutText_eq : Rfc5424Event.cutText (Rfc5424Event.withoutColon (Rfc5424Event.withOffset ts.text))
    = givenText ts := by
  have hlocal := length_localText ts
  have hdrop : (ts.localText ++ (ts.fractionText ++ ts.zone.rfc822)).drop (19 + ts.fractionText.length)
      = ts.zone.rfc822 := by
    rw [← List.append_assoc, ← hlocal, ← List.length_append, List.drop_left]
  rw [withoutColon_text, Rfc5424Event.cutText, signPos_text, point_text, List.length_append, hlocal,
    Int.toNat_natCast, hdrop, givenText]
  -- Without a point the cut is counted from -1, and a short fraction is filled up from the zone.
  by_cases hnone : ts.fraction = []
  · have hlength : ts.fractionText.length = 0 := by rw [Timestamp.fractionText, if_pos hnone, List.length_nil]
    rw [if_pos hnone, if_pos hnone, hlength]
    change List.take 3 _ ++ _ = _
    rw [List.take_append_of_le_length (by omega)]
  have htext : ts.fractionText = '.' :: ts.fraction := if_neg hnone
  rw [if_neg hnone, if_neg hnone]
  split_ifs with hshort
  · have hcut : ((19 : ℤ) + 1 + min 3 (((19 + ts.fractionText.length : ℕ) : ℤ) - 19)).toNat
        = (ts.localText ++ (ts.fractionText ++ [sign ts.zone.negative])).length := by
      rw [List.length_append, List.length_append, hlocal, htext, List.length_cons, List.length_singleton]
      omega
    have hsplit : ts.localText ++ (ts.fractionText ++ ts.zone.rfc822)
        = ts.localText ++ (ts.fractionText ++ [sign ts.zone.negative])
          ++ (digits 2 ts.zone.hour ++ digits 2 ts.zone.minute) := by
      simp only [TimeOffset.rfc822, List.append_assoc, List.singleton_append]
    rw [hcut, hsplit, List.take_left]
    simp only [List.append_assoc, List.singleton_append]
  · have hcut : ((19 : ℤ) + 1 + min 3 (((19 + ts.fractionText.length : ℕ) : ℤ) - 19)).toNat
        = (ts.localText ++ '.' :: ts.fraction.take 3).length := by
      rw [List.length_append, hlocal, htext, List.length_cons, List.length_cons, List.length_take]
      omega
    have hsplit : ts.localText ++ (ts.fractionText ++ ts.zone.rfc822)
        = ts.localText ++ '.' :: ts.fraction.take 3 ++ (ts.fraction.drop 3 ++ ts.zone.rfc822) := by
      rw [htext, List.append_assoc, List.cons_append, List.cons_append, ← List.append_assoc (ts.fraction.take 3),
        List.take_append_drop]
    rw [hcut, hsplit, List.take_left, List.append_assoc]

/-- A timestamp is not the `-` that stands for none. -/
theorem text_ne_NIL : ts.text ≠ Rfc5424Event.NIL := by
  intro h
  have hlength := congrArg List.length h
  rw [Timestamp.text, List.length_append, length_localText, Rfc5424Event.NIL] at hlength
  change _ = 1 at hlength
  omega

/-- Dates with at least three digits of a fraction are read. -/
theorem dated_iff {lib : SyslogLibrary} (hlib : Documented lib) :
    Rfc5424Event.Dated lib ts.text ↔ 3 ≤ ts.fraction.length := by
  have hcolon : ':' ∈ Rfc5424Event.withOffset ts.text := by
    rw [withOffset_eq]
    exact List.mem_append_right _ List.mem_cons_self
  have hgiven : Rfc5424Event.Dated lib ts.text ↔ (lib.parse5424 (givenText ts)).isSome := by
    rw [Rfc5424Event.Dated, cutText_eq]
    exact ⟨fun h => h.2.2, fun h => ⟨text_ne_NIL ts, hcolon, h⟩⟩
  rw [hgiven, givenText]
  split_ifs with hnone hshort
  · rw [hlib.parse_shortYear, hnone]
    exact iff_of_false (by decide) (by decide)
  · rw [hlib.parse_signTwice ts (List.length_pos_of_ne_nil hnone) hshort]
    exact iff_of_false (by decide) (by omega)
  · refine iff_of_true ?_ (by omega)
    have hthree : (ts.fraction.take 3).length = 3 := by
      rw [List.length_take]
      omega
    let cut : Timestamp := { ts with
      fraction := ts.fraction.take 3
      fraction_digits := ⟨by omega, fun c hc => ts.fraction_digits.2 c (List.mem_of_mem_take hc)⟩ }
    have hcut : cut.fractionText = '.' :: ts.fraction.take 3 := by
      apply if_neg
      intro hnil
      have hempty : ts.fraction.take 3 = [] := hnil
      rw [hempty] at hthree
      cases hthree
    have hdate := hlib.parse_date cut hthree
    rwa [hcut] at hdate

end timestamps

/-! ## Words -/

/-- The search for a character behind a word ends behind this word. -/
theorem searchChar_append {data pre word rest : List UInt8} {c : UInt8} (hdata : data = pre ++ (word ++ c :: rest))
    (hword : c ∉ word) : searchChar data pre.length c = (pre.length + word.length : ℕ) := by
  have hindex : (word ++ c :: rest).idxOf? c = some word.length := by
    rw [List.idxOf?_eq_some_iff]
    refine ⟨by simp, by simp, fun j hj heq => hword ?_⟩
    rw [List.getElem_append_left hj] at heq
    exact heq ▸ List.getElem_mem hj
  rw [searchChar, hdata, Int.toNat_natCast, List.drop_left, hindex]
  dsimp only
  omega

/-- The part between two positions. -/
theorem slice_append {data pre part rest : List UInt8} (hdata : data = pre ++ (part ++ rest)) :
    slice data pre.length (pre.length + part.length : ℕ) = part := by
  have hlength : (((pre.length + part.length : ℕ) : ℤ) - pre.length).toNat = part.length := by omega
  rw [slice, hlength, hdata, Int.toNat_natCast, List.drop_left, List.take_left]

/-- A part of the message is decoded as it stands there. -/
theorem getString_append (lib : SyslogLibrary) {data pre part rest : List UInt8}
    (hdata : data = pre ++ (part ++ rest)) :
    Rfc5424Event.getString lib data pre.length (pre.length + part.length : ℕ) = lib.decode part := by
  have hlength : data.length = pre.length + (part.length + rest.length) := by
    rw [hdata, List.length_append, List.length_append]
  rw [Rfc5424Event.getString, if_pos (by omega), slice_append hdata]

/-- The word between two blanks. -/
theorem nextWord_append (lib : SyslogLibrary) {data pre word rest : List UInt8} {pos : ℤ}
    (hdata : data = pre ++ (word ++ SP :: rest)) (hword : SP ∉ word) (hpos : pos = pre.length - 1) :
    Rfc5424Event.nextBlank data pos = ((pre ++ (word ++ [SP])).length : ℤ) - 1
      ∧ Rfc5424Event.nextWord lib data pos = lib.decode word := by
  have hstart : pos + 1 = pre.length := by omega
  have hblank : Rfc5424Event.nextBlank data pos = (pre.length + word.length : ℕ) := by
    rw [Rfc5424Event.nextBlank, hstart, searchChar_append hdata hword]
  refine ⟨?_, ?_⟩
  · rw [hblank, List.length_append, List.length_append, List.length_singleton]
    omega
  · rw [Rfc5424Event.nextWord, hblank, hstart, getString_append lib hdata]

section text

variable {s : JString}

/-- Texts of ASCII are decoded as they were written. -/
theorem decode_writeAscii {lib : SyslogLibrary} (hlib : Documented lib) (hs : ∀ c ∈ s, c.toNat < 128) :
    lib.decode (writeAscii s) = s := by
  have hascii (bytes : List UInt8) (h : IsAscii bytes) : lib.decode bytes = asciiString bytes := by
    induction bytes with
    | nil => exact hlib.decode_nil
    | cons b bytes ih =>
      have hcons := hlib.decode_ascii [] bytes b (h b List.mem_cons_self)
      rw [hlib.decode_nil, ih fun x hx => h x (List.mem_cons_of_mem b hx)] at hcons
      exact hcons
  rw [hascii, asciiString_writeAscii hs]
  intro b hb
  have hmem : Char.ofNat b.toNat ∈ s := by
    rw [← asciiString_writeAscii hs]
    exact List.mem_map_of_mem hb
  have hlt : b.toNat < 256 := b.toNat_lt
  have hchar := hs _ hmem
  rwa [toNat_ofNat_of_lt (by omega)] at hchar

/-- A byte that stands for no character of the text is not in it. -/
theorem notMem_writeAscii (hs : ∀ c ∈ s, c.toNat < 128) {b : UInt8} (hb : Char.ofNat b.toNat ∉ s) :
    b ∉ writeAscii s := by
  intro hmem
  apply hb
  rw [← asciiString_writeAscii hs]
  exact List.mem_map_of_mem hmem

theorem utf16Length_of_ascii (hs : ∀ c ∈ s, c.toNat < 128) : utf16Length s = s.length := by
  rw [← length_writeAscii, ← congrArg List.length (asciiString_writeAscii hs), asciiString, List.length_map]

end text

/-- An ASCII text without blanks. -/
def IsWord (s : JString) : Prop := ∀ c ∈ s, c.toNat < 128 ∧ c ≠ ' '

theorem IsWord.append {s t : JString} (hs : IsWord s) (ht : IsWord t) : IsWord (s ++ t) := by
  intro c hc
  rcases List.mem_append.mp hc with h | h
  · exact hs c h
  · exact ht c h

theorem IsWord.cons {c : Char} {s : JString} (hc : c.toNat < 128 ∧ c ≠ ' ') (hs : IsWord s) : IsWord (c :: s) := by
  intro x hx
  rcases List.mem_cons.mp hx with rfl | h
  · exact hc
  · exact hs x h

theorem isWord_of_digits {s : JString} (h : ∀ c ∈ s, c.isDigit = true) : IsWord s := by
  intro c hc
  have hrange : 48 ≤ c.toNat ∧ c.toNat ≤ 57 := Char.isDigit_iff_toNat.mp (h c hc)
  refine ⟨by omega, ?_⟩
  rintro rfl
  exact absurd hrange.1 (by decide)

theorem isWord_digits (width v : ℕ) : IsWord (digits width v) := isWord_of_digits fun _ => isDigit_of_mem_digits

/-- A printable text has no blank, so that it is one word. -/
theorem isWord_printable {bound : ℕ} {s : JString} (h : Printable bound s) : IsWord s := by
  intro c hc
  obtain ⟨hlo, hhi⟩ := h.2.2 c hc
  refine ⟨by omega, ?_⟩
  rintro rfl
  exact absurd hlo (by decide)

/-- The time is one word. -/
theorem isWord_text (ts : Timestamp) : IsWord ts.text := by
  have hlocal : IsWord ts.localText :=
    (isWord_digits _ _).append (.cons (by decide) ((isWord_digits _ _).append (.cons (by decide)
      ((isWord_digits _ _).append (.cons (by decide) ((isWord_digits _ _).append (.cons (by decide)
        ((isWord_digits _ _).append (.cons (by decide) (isWord_digits _ _))))))))))
  have hfraction : IsWord ts.fractionText := by
    unfold Timestamp.fractionText
    split_ifs
    · exact isWord_of_digits fun _ hc => absurd hc List.not_mem_nil
    · exact .cons (by decide) (isWord_of_digits ts.fraction_digits.2)
  have hzone : IsWord ts.zone.text := by
    cases ts.zone with
    | utc => exact .cons (by decide) (isWord_of_digits fun _ hc => absurd hc List.not_mem_nil)
    | numeric negative hour minute =>
      exact .cons (by cases negative <;> decide)
        ((isWord_digits _ _).append (.cons (by decide) (isWord_digits _ _)))
  exact hlocal.append (hfraction.append hzone)

section header

variable (m : Rfc5424Message)

/-- The priority and the version are one word. -/
theorem isWord_headText : IsWord m.headText :=
  .cons (by decide) ((isWord_digits _ _).append (.cons (by decide) (isWord_of_digits fun _ => isDigit_of_mem_toDigits)))

/-- The timestamp is one word. -/
theorem isWord_timestampText : IsWord m.timestampText := by
  unfold timestampText
  cases m.timestamp with
  | none => exact .cons (by decide) (isWord_of_digits fun _ hc => absurd hc List.not_mem_nil)
  | some ts => exact isWord_text ts

/-- The words of the header, in order. -/
def words : List JString := [m.headText, m.timestampText, m.hostname, m.appName, m.procId, m.msgId]

/-- Every part of the header is one word. -/
theorem isWord_of_mem_words {w : JString} (hw : w ∈ m.words) : IsWord w := by
  simp only [words, List.mem_cons, List.not_mem_nil, or_false] at hw
  rcases hw with rfl | rfl | rfl | rfl | rfl | rfl
  · exact isWord_headText m
  · exact isWord_timestampText m
  · exact isWord_printable m.hostname_printable
  · exact isWord_printable m.appName_printable
  · exact isWord_printable m.procId_printable
  · exact isWord_printable m.msgId_printable

/-- The bytes of some words, each with its blank. -/
def wordBytes (ws : List JString) : List UInt8 := ws.flatMap fun w => writeAscii w ++ [SP]

/-- A message is its header, the structured data and the text. -/
theorem bytes_eq : m.bytes = wordBytes m.words ++ (m.structuredBytes ++ m.body.bytes) := by
  simp only [bytes, words, wordBytes, List.flatMap_cons, List.flatMap_nil, List.append_assoc, List.cons_append,
    List.nil_append]

/-- The blank behind a word of the header is found, and the word is what stands in front of it. -/
theorem nextWord_header {lib : SyslogLibrary} (hlib : Documented lib) (before : List JString) {behind : List JString}
    {w : JString} (hwords : m.words = before ++ w :: behind) {pos : ℤ} (hpos : pos = (wordBytes before).length - 1) :
    Rfc5424Event.nextBlank m.bytes pos = ((wordBytes (before ++ [w])).length : ℤ) - 1
      ∧ Rfc5424Event.nextWord lib m.bytes pos = w := by
  have hw : IsWord w := by
    apply isWord_of_mem_words m
    rw [hwords]
    exact List.mem_append_right _ List.mem_cons_self
  have hascii : ∀ c ∈ w, c.toNat < 128 := fun c hc => (hw c hc).1
  have hblank : SP ∉ writeAscii w := notMem_writeAscii hascii fun h => (hw _ h).2 rfl
  have hdata : m.bytes = wordBytes before
      ++ (writeAscii w ++ SP :: (wordBytes behind ++ (m.structuredBytes ++ m.body.bytes))) := by
    rw [bytes_eq, hwords]
    simp only [wordBytes, List.flatMap_append, List.flatMap_cons, List.append_assoc, List.cons_append,
      List.nil_append]
  obtain ⟨hnext, hword⟩ := nextWord_append lib hdata hblank hpos
  rw [decode_writeAscii hlib hascii] at hword
  refine ⟨?_, hword⟩
  rw [hnext]
  simp only [wordBytes, List.flatMap_append, List.flatMap_cons, List.flatMap_nil, List.append_nil]

end header

/-! ## Structured data -/

/-- Escapes add no closing bracket and take none away. -/
theorem mem_escape {value : List UInt8} : 93 ∈ escape value ↔ 93 ∈ value := by
  rw [escape, List.mem_flatMap]
  constructor
  · rintro ⟨b, hb, hmem⟩
    split_ifs at hmem
    · rcases List.mem_cons.mp hmem with h | h
      · exact absurd h (by decide)
      · rwa [List.mem_singleton.mp h]
    · rwa [List.mem_singleton.mp hmem]
  · intro hmem
    exact ⟨93, hmem, by decide⟩

/-- The names have no closing bracket. -/
theorem notMem_sdName {s : JString} (h : SdName s) : 93 ∉ writeAscii s :=
  notMem_writeAscii (fun c hc => (isWord_printable h.1 c hc).1) h.2.2.1

/-- A parameter has a closing bracket only in its value. -/
theorem mem_param {p : Param} (h : SdName p.name) : 93 ∈ p.bytes ↔ 93 ∈ p.value := by
  have hSP : (93 : UInt8) ≠ SP := by decide
  simp only [Param.bytes, List.mem_cons, List.mem_append, mem_escape, notMem_sdName h, hSP, false_or, List.not_mem_nil,
    or_false]
  constructor
  · rintro (h | h | h | h)
    · exact absurd h (by decide)
    · exact absurd h (by decide)
    · exact h
    · exact absurd h (by decide)
  · exact fun h => .inr (.inr (.inl h))

/-- The only brackets within an element are the escaped ones of its values. -/
theorem mem_inner {e : Element} (h : e.WellFormed) : 93 ∈ e.inner ↔ ∃ p ∈ e.params, 93 ∈ p.value := by
  rw [Element.inner, List.mem_cons, List.mem_append, List.mem_flatMap]
  constructor
  · rintro (h93 | hid | ⟨p, hp, hmem⟩)
    · exact absurd h93 (by decide)
    · exact absurd hid (notMem_sdName h.1)
    · exact ⟨p, hp, (mem_param (h.2 p hp)).mp hmem⟩
  · rintro ⟨p, hp, hmem⟩
    exact .inr (.inr ⟨p, hp, (mem_param (h.2 p hp)).mpr hmem⟩)

/-- Structured data without a bracket in a value, and of one element at most. -/
def SingleElement (elements : List Element) : Prop :=
  elements.length ≤ 1 ∧ ∀ e ∈ elements, ∀ p ∈ e.params, 93 ∉ p.value

/-- Structured data end with a closing bracket. -/
theorem elements_bytes_eq {elements : List Element} (hne : elements ≠ []) :
    ∃ x, elements.flatMap Element.bytes = x ++ [93] := by
  obtain ⟨init, last, rfl⟩ := List.eq_nil_or_concat elements |>.resolve_left hne
  refine ⟨init.flatMap Element.bytes ++ last.inner, ?_⟩
  simp only [List.concat_eq_append, List.flatMap_append, List.flatMap_cons, List.flatMap_nil, List.append_nil,
    Element.bytes, List.append_assoc]

/-- The first closing bracket is the end of the elements if there is only one of them and no bracket in its values. -/
theorem elements_cut {elements : List Element} (hne : elements ≠ []) (hwf : ∀ e ∈ elements, e.WellFormed) :
    ∃ x y, elements.flatMap Element.bytes = x ++ 93 :: y ∧ 93 ∉ x ∧ (y = [] ↔ SingleElement elements)
      ∧ (y ≠ [] → ∃ z, y = z ++ [93]) := by
  obtain ⟨whole, hwhole⟩ := elements_bytes_eq hne
  have hmem : 93 ∈ elements.flatMap Element.bytes := hwhole ▸ List.mem_append_right _ List.mem_cons_self
  obtain ⟨x, y, heq, hx⟩ := List.eq_append_cons_of_mem hmem
  refine ⟨x, y, heq, hx, ?_, ?_⟩
  · obtain ⟨e, es, rfl⟩ := List.exists_cons_of_ne_nil hne
    have hinner := mem_inner (hwf e List.mem_cons_self)
    rw [List.flatMap_cons, Element.bytes, List.append_assoc, List.singleton_append] at heq
    constructor
    · rintro rfl
      have hes : es = [] := by
        by_contra hes
        obtain ⟨r, hr⟩ := elements_bytes_eq hes
        rw [hr, ← List.cons_append, ← List.append_assoc, List.append_singleton_inj] at heq
        exact hx (heq.1 ▸ List.mem_append_right _ List.mem_cons_self)
      subst hes
      rw [List.flatMap_nil, List.append_singleton_inj] at heq
      refine ⟨le_refl _, fun e' he' p hp hvalue => hx ?_⟩
      rw [← heq.1, hinner, ← List.mem_singleton.mp he']
      exact ⟨p, hp, hvalue⟩
    · rintro ⟨hlength, hvalues⟩
      have hes : es = [] := List.length_eq_zero_iff.mp (by rw [List.length_cons] at hlength; omega)
      subst hes
      have hnot : 93 ∉ e.inner := by
        rw [hinner]
        rintro ⟨p, hp, hvalue⟩
        exact hvalues e List.mem_cons_self p hp hvalue
      exact (append_cons_inj hnot hx heq).2.symm
  · intro hy
    obtain ⟨z, last, hlast⟩ := (List.eq_nil_or_concat y).resolve_left hy
    rw [List.concat_eq_append] at hlast
    rw [hwhole, hlast, ← List.cons_append, ← List.append_assoc, List.append_singleton_inj] at heq
    exact ⟨z, hlast.trans (by rw [heq.2])⟩

/-- A character that does not come any more is not found. -/
theorem searchChar_none {data pre rest : List UInt8} {c : UInt8} (hdata : data = pre ++ rest) (hrest : c ∉ rest) :
    searchChar data pre.length c = -1 := by
  rw [searchChar, hdata, Int.toNat_natCast, List.drop_left, List.idxOf?_eq_none_iff.mpr hrest]

/-- The byte at a position. -/
theorem byteAt_append {data pre rest : List UInt8} {b : UInt8} (hdata : data = pre ++ b :: rest) :
    byteAt data pre.length = .ok b := by
  rw [byteAt, if_neg (by omega), Int.toNat_natCast, hdata, List.getElem?_append_right (le_refl _), Nat.sub_self,
    List.getElem?_cons_zero]

/-- Text that is cut behind a bracket, where another bracket follows, is not the whole one. -/
theorem decode_cut_ne {lib : SyslogLibrary} (hlib : Documented lib) (x z : List UInt8) :
    lib.decode (x ++ [93]) ≠ lib.decode (x ++ 93 :: (z ++ [93])) := by
  rw [hlib.decode_ascii x [] 93 (by decide), hlib.decode_ascii x (z ++ [93]) 93 (by decide),
    hlib.decode_ascii z [] 93 (by decide), hlib.decode_nil]
  intro h
  have htail := (List.cons.inj (List.append_cancel_left h)).2
  exact List.append_ne_nil_of_right_ne_nil _ (List.cons_ne_nil _ _) htail.symm

/-- What is taken for the structured data. -/
theorem structured_read {lib : SyslogLibrary} (hlib : Documented lib) (m : Rfc5424Message) :
    ∃ first stop, byteAt m.bytes (wordBytes m.words).length = .ok first
      ∧ Rfc5424Event.structuredEnd m.bytes (wordBytes m.words).length first = stop
      ∧ (SingleElement m.elements → stop = ((wordBytes m.words).length + m.structuredBytes.length : ℕ))
      ∧ (¬ SingleElement m.elements →
        Rfc5424Event.getString lib m.bytes (wordBytes m.words).length stop ≠ lib.decode m.structuredBytes) := by
  have hdata := bytes_eq m
  by_cases hnone : m.elements = []
  -- `-` ends at the next blank, or at the end of the message if there is no text.
  · have hbytes : m.structuredBytes = [45] := if_pos hnone
    have hsingle : SingleElement m.elements := by
      rw [hnone]
      exact ⟨Nat.zero_le _, fun e he => absurd he List.not_mem_nil⟩
    rw [hbytes] at hdata ⊢
    refine ⟨45, ((wordBytes m.words).length + 1 : ℕ), byteAt_append hdata, ?_, fun _ => rfl, fun h => absurd hsingle h⟩
    have hlength : m.bytes.length = (wordBytes m.words).length + (1 + m.body.bytes.length) := by
      rw [hdata, List.length_append, List.length_append, List.length_singleton]
    have hblank : SP ∉ [(45 : UInt8)] := by decide
    rw [Rfc5424Event.structuredEnd, if_neg (by decide)]
    cases hbody : m.body with
    | absent =>
      rw [hbody] at hdata hlength
      rw [searchChar_none hdata (by simpa [Body.bytes] using hblank)]
      change (m.bytes.length : ℤ) = _
      rw [hlength]
      rfl
    | any octets =>
      rw [hbody] at hdata
      rw [searchChar_append hdata hblank]
      exact if_neg (by omega)
    | utf8 octets =>
      rw [hbody] at hdata
      rw [searchChar_append hdata hblank]
      exact if_neg (by omega)
  -- Elements end at the first closing bracket.
  · have hbytes : m.structuredBytes = m.elements.flatMap Element.bytes := if_neg hnone
    obtain ⟨x, y, hcut, hx, hsingle, hlast⟩ := elements_cut hnone m.elements_wf
    have hfirst : ∃ rest, m.structuredBytes = 91 :: rest := by
      obtain ⟨e, es, hes⟩ := List.exists_cons_of_ne_nil hnone
      rw [hbytes, hes]
      exact ⟨_, rfl⟩
    obtain ⟨rest, hrest⟩ := hfirst
    have hbyte : byteAt m.bytes (wordBytes m.words).length = .ok 91 := by
      have hcons : m.bytes = wordBytes m.words ++ 91 :: (rest ++ m.body.bytes) := by
        rw [hdata, hrest, List.cons_append]
      exact byteAt_append hcons
    have hdatacut : m.bytes = wordBytes m.words ++ (x ++ 93 :: (y ++ m.body.bytes)) := by
      rw [hdata, hbytes, hcut, List.append_assoc, List.cons_append]
    have hend : Rfc5424Event.structuredEnd m.bytes (wordBytes m.words).length 91
        = ((wordBytes m.words).length + (x ++ [93]).length : ℕ) := by
      rw [Rfc5424Event.structuredEnd, if_pos rfl, searchChar_append hdatacut hx, List.length_append,
        List.length_singleton]
      omega
    refine ⟨91, _, hbyte, hend, fun h => ?_, fun h => ?_⟩
    · rw [hbytes, hcut, hsingle.mpr h]
    · obtain ⟨z, hz⟩ := hlast fun hy => h (hsingle.mp hy)
      have hprefix : m.bytes = wordBytes m.words ++ ((x ++ [93]) ++ (y ++ m.body.bytes)) := by
        rw [hdatacut, List.append_assoc, List.singleton_append]
      rw [getString_append lib hprefix, hbytes, hcut, hz]
      exact decode_cut_ne hlib x z

/-! ## The message -/

/-- The text of the message, which a byte order mark does not belong to. -/
def Body.text (lib : SyslogLibrary) : Body → Option JString
  | .absent => none
  | .any octets => some (lib.decode octets)
  | .utf8 octets => some (lib.decode octets)

/-- A message that is there has octets of its own. -/
def Body.NonEmpty (body : Body) : Prop := body ≠ .any [] ∧ body ≠ .utf8 []

/-- The rest of a message is decoded as it is. -/
theorem getString_rest (lib : SyslogLibrary) {data pre rest : List UInt8} (hdata : data = pre ++ rest) :
    Rfc5424Event.getString lib data pre.length data.length = lib.decode rest := by
  have hwhole : data = pre ++ (rest ++ []) := by rw [hdata, List.append_nil]
  have hlength : (data.length : ℤ) = (pre.length + rest.length : ℕ) := by rw [hdata, List.length_append]
  rw [hlength, getString_append lib hwhole]

/-- A text without the mark is read as the rest of the message. -/
theorem messageFrom_any (lib : SyslogLibrary) {data pre octets : List UInt8} (hdata : data = pre ++ octets)
    (hwf : ¬ Rfc5424Event.UTF_8_BOM <+: octets) :
    Rfc5424Event.messageFrom lib data pre.length = if octets = [] then none else some (lib.decode octets) := by
  have hlength : data.length = pre.length + octets.length := by rw [hdata, List.length_append]
  unfold Rfc5424Event.messageFrom
  by_cases hnone : octets = []
  · have hzero : octets.length = 0 := by rw [hnone, List.length_nil]
    rw [if_pos hnone, if_neg (by omega)]
  have hpos : 0 < octets.length := List.length_pos_of_ne_nil hnone
  rw [if_neg hnone, if_pos (by omega), if_neg, getString_rest lib hdata]
  rintro ⟨hlong, hslice⟩
  apply hwf
  have hsplit : data = pre ++ (octets.take 3 ++ octets.drop 3) := by rw [hdata, List.take_append_drop]
  have htake : (pre.length : ℤ) + 3 = (pre.length + (octets.take 3).length : ℕ) := by
    rw [List.length_take]
    omega
  rw [htake, slice_append hsplit] at hslice
  exact hslice ▸ List.take_prefix 3 octets

/-- A text with the mark is read without it, if there is something behind it. -/
theorem messageFrom_utf8 (lib : SyslogLibrary) {data pre octets : List UInt8}
    (hdata : data = pre ++ (Rfc5424Event.UTF_8_BOM ++ octets)) :
    Rfc5424Event.messageFrom lib data pre.length
      = some (lib.decode (if octets = [] then Rfc5424Event.UTF_8_BOM else octets)) := by
  have hlength : data.length = pre.length + (3 + octets.length) := by
    rw [hdata, List.length_append, List.length_append]
    rfl
  unfold Rfc5424Event.messageFrom
  rw [if_pos (by omega)]
  by_cases hnone : octets = []
  · have hzero : octets.length = 0 := by rw [hnone, List.length_nil]
    rw [if_pos hnone, if_neg (by omega), getString_rest lib hdata, hnone, List.append_nil]
  · have hpos : 0 < octets.length := List.length_pos_of_ne_nil hnone
    have hslice := slice_append hdata
    have hbehind : data = (pre ++ Rfc5424Event.UTF_8_BOM) ++ octets := by rw [hdata, List.append_assoc]
    have hstart : (pre.length : ℤ) + 3 = (pre ++ Rfc5424Event.UTF_8_BOM).length := by
      rw [List.length_append]
      rfl
    rw [if_neg hnone, if_pos ⟨by omega, hslice⟩, hstart, getString_rest lib hbehind]

/-- The text is read as it is unless it is empty behind the mark. -/
theorem message_read_iff {lib : SyslogLibrary} (hlib : Documented lib) (m : Rfc5424Message) :
    Rfc5424Event.messageFrom lib m.bytes
        (((wordBytes m.words).length + m.structuredBytes.length : ℕ) + 1) = m.body.text lib
      ↔ m.body.NonEmpty := by
  have hdata := bytes_eq m
  have hwf := m.body_wf
  cases hbody : m.body with
  | absent =>
    have hlength : m.bytes.length = (wordBytes m.words).length + m.structuredBytes.length := by
      rw [hdata, hbody, List.length_append, List.length_append]
      rfl
    refine iff_of_true ?_ ⟨Body.noConfusion, Body.noConfusion⟩
    rw [Rfc5424Event.messageFrom, if_neg (by omega)]
    rfl
  | any octets =>
    rw [hbody] at hdata hwf
    have hpre : m.bytes = (wordBytes m.words ++ (m.structuredBytes ++ [SP])) ++ octets := by
      rw [hdata, Body.bytes, List.append_assoc, List.append_assoc, List.singleton_append]
    have hstart : (((wordBytes m.words).length + m.structuredBytes.length : ℕ) : ℤ) + 1
        = (wordBytes m.words ++ (m.structuredBytes ++ [SP])).length := by
      rw [List.length_append, List.length_append, List.length_singleton]
      omega
    rw [hstart, messageFrom_any lib hpre hwf, Body.text, Body.NonEmpty]
    split_ifs with hnone
    · subst hnone
      exact iff_of_false (fun h => by cases h) fun h => h.1 rfl
    · refine iff_of_true rfl ⟨fun h => hnone (Body.any.inj h), Body.noConfusion⟩
  | utf8 octets =>
    rw [hbody] at hdata
    have hpre : m.bytes = (wordBytes m.words ++ (m.structuredBytes ++ [SP]))
        ++ (Rfc5424Event.UTF_8_BOM ++ octets) := by
      rw [hdata, Body.bytes, List.append_assoc, List.append_assoc, List.singleton_append]
    have hstart : (((wordBytes m.words).length + m.structuredBytes.length : ℕ) : ℤ) + 1
        = (wordBytes m.words ++ (m.structuredBytes ++ [SP])).length := by
      rw [List.length_append, List.length_append, List.length_singleton]
      omega
    rw [hstart, messageFrom_utf8 lib hpre, Body.text, Body.NonEmpty]
    split_ifs with hnone
    · subst hnone
      refine iff_of_false (fun h => ?_) fun h => h.2 rfl
      rw [hlib.decode_nil] at h
      exact hlib.decode_bom (Option.some.inj h)
    · refine iff_of_true rfl ⟨Body.noConfusion, fun h => hnone (Body.utf8.inj h)⟩

/-! ## The first word -/

/-- Digits are read as an `int` while they are in range. -/
theorem parseInt_of_parseDigits {s : JString} {n : ℕ} (h : parseDigits s = some n) (hn : n < 2 ^ 31) :
    parseInt s = some (n : ℤ) := by
  rw [parseInt, parseSigned_of_parseDigits h, Option.filter_some, if_pos (decide_eq_true ⟨by omega, by omega⟩)]

theorem parseDigits_digits (width v : ℕ) : parseDigits (digits width v) = some v := by
  have hne : digits width v ≠ [] := List.append_ne_nil_of_right_ne_nil _ Nat.toDigits_ne_nil
  have hall : (digits width v).all Char.isDigit = true := List.all_eq_true.mpr fun _ => isDigit_of_mem_digits
  rw [parseDigits, if_pos ⟨hne, hall⟩, ofDigitChars_digits]

/-- The priority is taken apart into facility and severity. -/
theorem parsePriority_headText (m : Rfc5424Message) :
    Rfc5424Event.parsePriority m.headText
      = .ok (((m.priority / 8 : ℕ) : ℤ), ((m.priority % 8 : ℕ) : ℤ), (m.version : ℤ)) := by
  have hindex : indexOf '>' m.headText = some ((digits m.priWidth m.priority).length + 1) := by
    have hnot : '>' ∉ '<' :: digits m.priWidth m.priority := by
      rw [List.mem_cons, not_or]
      exact ⟨by decide, notMem_digits rfl⟩
    exact indexOf_append hnot _
  have hlength : m.headText.length
      = (digits m.priWidth m.priority).length + 2 + (Nat.toDigits 10 m.version).length := by
    simp only [headText, List.length_cons, List.length_append]
    omega
  have hpri : substringInt m.headText 1 (((digits m.priWidth m.priority).length + 1 : ℕ) : ℤ)
      = .ok (digits m.priWidth m.priority) := by
    rw [Rfc5424Event.substringInt_ok (by omega)]
    have htake : ((((digits m.priWidth m.priority).length + 1 : ℕ) : ℤ) - 1).toNat
        = (digits m.priWidth m.priority).length := by omega
    rw [htake, headText]
    change Except.ok ((digits m.priWidth m.priority ++ '>' :: Nat.toDigits 10 m.version).take _) = _
    rw [List.take_left]
  have hversion : m.headText.drop ((digits m.priWidth m.priority).length + 2) = Nat.toDigits 10 m.version := by
    rw [headText, List.drop_succ_cons, List.drop_append, List.drop_of_length_le (by omega), List.nil_append,
      Nat.add_sub_cancel_left, List.drop_succ_cons, List.drop_zero]
  have hdigits : 0 < (Nat.toDigits 10 m.version).length := List.length_pos_of_ne_nil Nat.toDigits_ne_nil
  have hpriority := m.priority_le
  have hmax := m.version_mem
  have hstart : ((((digits m.priWidth m.priority).length + 1 : ℕ) : ℤ) + 1).toNat
      = (digits m.priWidth m.priority).length + 2 := by omega
  unfold Rfc5424Event.parsePriority
  rw [hindex]
  dsimp only [Option.elim_some]
  rw [hpri]
  dsimp only [bind, Except.bind]
  rw [if_pos (by omega), hstart, hversion, parseInt_of_parseDigits (parseDigits_digits _ _) (by omega),
    parseInt_of_parseDigits (parseDigits_toDigits _) (by omega), Option.getD_some, Option.getD_some]
  have hfacility : ((m.priority : ℤ) - (m.priority : ℤ) % 8) / 8 = ((m.priority / 8 : ℕ) : ℤ) := by omega
  rw [hfacility]
  rfl

/-! ## Which messages are read -/

/-- An event holds the parts of a message. -/
structure Holds (lib : SyslogLibrary) (event : Rfc5424Event) (m : Rfc5424Message) : Prop where
  facility : event.facility = (m.priority / 8 : ℕ)
  level : event.level = (m.priority % 8 : ℕ)
  version : event.version = m.version
  timestamp : event.timestamp = some m.timestampText
  host : event.host = some m.hostname
  appName : event.appName = some m.appName
  procId : event.procId = some m.procId
  msgId : event.msgId = some m.msgId
  structuredData : event.structuredData = some (lib.decode m.structuredBytes)
  message : event.message = m.body.text lib

/-- The constructor returns, and its event holds the parts of the message. -/
def ReadRight (lib : SyslogLibrary) (m : Rfc5424Message) : Prop :=
  ∃ event, Rfc5424Event.new lib m.bytes 0 m.bytes.length = .ok event ∧ Holds lib event m

/-- The messages that are read right. -/
def Readable (m : Rfc5424Message) : Prop :=
  m.headText.length ≤ 5 ∧ (∃ ts, m.timestamp = some ts ∧ 3 ≤ ts.fraction.length) ∧ SingleElement m.elements
    ∧ m.body.NonEmpty

/-- The reader for RFC 3164 finds no version. -/
theorem make3164_version (lib : SyslogLibrary) (data : List UInt8) (event : Rfc5424Event) :
    ∃ result, Rfc5424Event.make3164 lib data 0 data.length event = .ok result
      ∧ result.version = event.version := by
  unfold Rfc5424Event.make3164
  rw [Rfc5424Event.copyRaw_zero]
  dsimp only [bind, Except.bind]
  split
  · exact ⟨_, rfl, rfl⟩
  · exact ⟨_, rfl, rfl⟩

/-- A message with a short first word and a date is cut into its words. -/
theorem new_dated {lib : SyslogLibrary} (hlib : Documented lib) (m : Rfc5424Message) (hshort : m.headText.length ≤ 5)
    {ts : Timestamp} (hts : m.timestamp = some ts) (hfraction : 3 ≤ ts.fraction.length) {first : UInt8}
    (hfirst : byteAt m.bytes (wordBytes m.words).length = .ok first) :
    ∃ event, Rfc5424Event.new lib m.bytes 0 m.bytes.length = .ok event
      ∧ event.facility = (m.priority / 8 : ℕ) ∧ event.level = (m.priority % 8 : ℕ) ∧ event.version = m.version
      ∧ event.timestamp = some m.timestampText ∧ event.host = some m.hostname ∧ event.appName = some m.appName
      ∧ event.procId = some m.procId ∧ event.msgId = some m.msgId
      ∧ event.structuredData = some (Rfc5424Event.getString lib m.bytes (wordBytes m.words).length
          (Rfc5424Event.structuredEnd m.bytes (wordBytes m.words).length first))
      ∧ event.message = Rfc5424Event.messageFrom lib m.bytes
          (Rfc5424Event.structuredEnd m.bytes (wordBytes m.words).length first + 1) := by
  have hbegin : (-1 : ℤ) = (wordBytes []).length - 1 := rfl
  -- Each word begins behind the blank at which the one before has ended.
  obtain ⟨hblank1, hword1⟩ := nextWord_header m hlib [] rfl hbegin
  obtain ⟨hblank2, hword2⟩ := nextWord_header m hlib [m.headText] rfl hblank1
  obtain ⟨hblank3, hword3⟩ := nextWord_header m hlib [m.headText, m.timestampText] rfl hblank2
  obtain ⟨hblank4, hword4⟩ := nextWord_header m hlib [m.headText, m.timestampText, m.hostname] rfl hblank3
  obtain ⟨hblank5, hword5⟩ :=
    nextWord_header m hlib [m.headText, m.timestampText, m.hostname, m.appName] rfl hblank4
  obtain ⟨hblank6, hword6⟩ :=
    nextWord_header m hlib [m.headText, m.timestampText, m.hostname, m.appName, m.procId] rfl hblank5
  have hlength := utf16Length_of_ascii fun c hc => (isWord_headText m c hc).1
  have hdate : ∃ date, Rfc5424Event.getDate5424 lib m.timestampText = .ok (some date) := by
    have htext : m.timestampText = ts.text := by rw [timestampText, hts, Option.elim_some]
    rw [htext]
    rcases Rfc5424Event.getDate5424_cases lib ts.text with ⟨hbreak, -⟩ | ⟨-, hundated, -⟩ | ⟨-, -, hdate⟩
    · exact absurd hbreak (not_zoneBreaks ts)
    · exact absurd ((dated_iff ts hlib).mpr hfraction) hundated
    · exact hdate
  obtain ⟨date, hdate⟩ := hdate
  have hstart : ((wordBytes m.words).length : ℤ) - 1 + 1 = (wordBytes m.words).length := by omega
  change Rfc5424Event.nextBlank m.bytes _ = ((wordBytes m.words).length : ℤ) - 1 at hblank6
  unfold Rfc5424Event.new Rfc5424Event.make5424 Rfc5424Event.makeFields
  rw [Rfc5424Event.copyRaw_zero]
  dsimp only [bind, Except.bind]
  rw [hword1, hlength, if_neg (by omega), hword2, hdate]
  dsimp only
  rw [hblank6, hstart, hfirst]
  dsimp only
  rw [parsePriority_headText]
  refine ⟨_, rfl, rfl, rfl, rfl, rfl, ?_, ?_, ?_, ?_, rfl, rfl⟩
  · exact congrArg some hword3
  · exact congrArg some hword4
  · exact congrArg some hword5
  · exact congrArg some hword6

/-- A message with a long first word or without a date is read as one of RFC 3164. -/
theorem new_undated {lib : SyslogLibrary} (hlib : Documented lib) (m : Rfc5424Message)
    (h : ¬ (m.headText.length ≤ 5 ∧ ∃ ts, m.timestamp = some ts ∧ 3 ≤ ts.fraction.length)) :
    ∃ event, Rfc5424Event.new lib m.bytes 0 m.bytes.length = .ok event ∧ event.version = 0 := by
  have hbegin : (-1 : ℤ) = (wordBytes []).length - 1 := rfl
  obtain ⟨hblank1, hword1⟩ := nextWord_header m hlib [] rfl hbegin
  obtain ⟨-, hword2⟩ := nextWord_header m hlib [m.headText] rfl hblank1
  have hlength := utf16Length_of_ascii fun c hc => (isWord_headText m c hc).1
  unfold Rfc5424Event.new Rfc5424Event.make5424
  rw [Rfc5424Event.copyRaw_zero]
  dsimp only [bind, Except.bind]
  rw [hword1, hlength]
  split_ifs with hlong
  · exact make3164_version lib m.bytes _
  have hnone : Rfc5424Event.getDate5424 lib m.timestampText = .ok none := by
    unfold timestampText
    cases hts : m.timestamp with
    | none => exact Rfc5424Event.getDate5424_none lib (.inl rfl)
    | some ts =>
      have hundated : ¬ Rfc5424Event.Dated lib ts.text := fun hdated =>
        h ⟨not_lt.mp hlong, ts, hts, (dated_iff ts hlib).mp hdated⟩
      rcases Rfc5424Event.getDate5424_cases lib ts.text with ⟨hbreak, -⟩ | ⟨-, -, heq⟩ | ⟨-, hdated, -⟩
      · exact absurd hbreak (not_zoneBreaks ts)
      · exact heq
      · exact absurd hdated hundated
  rw [hword2, hnone]
  exact make3164_version lib m.bytes _

/-- The messages of RFC 5424 that `Rfc5424Event` reads right. -/
theorem readRight_iff {lib : SyslogLibrary} (hlib : Documented lib) (m : Rfc5424Message) :
    ReadRight lib m ↔ m.Readable := by
  by_cases hdated : m.headText.length ≤ 5 ∧ ∃ ts, m.timestamp = some ts ∧ 3 ≤ ts.fraction.length
  · obtain ⟨hshort, ts, hts, hfraction⟩ := hdated
    obtain ⟨first, stop, hfirst, hstop, hsingle, hcut⟩ := structured_read hlib m
    obtain ⟨event, hnew, hfacility, hlevel, hversion, htimestamp, hhost, happ, hproc, hmsg, hstructured, hmessage⟩ :=
      new_dated hlib m hshort hts hfraction hfirst
    rw [hstop] at hstructured hmessage
    by_cases helement : SingleElement m.elements
    · have hdata := bytes_eq m
      rw [hsingle helement] at hstructured hmessage
      rw [getString_append lib hdata] at hstructured
      have hread := message_read_iff hlib m
      rw [← hmessage] at hread
      constructor
      · rintro ⟨event', hnew', hholds⟩
        have hsame : event' = event := by
          rw [hnew] at hnew'
          exact (Except.ok.inj hnew').symm
        exact ⟨hshort, ⟨ts, hts, hfraction⟩, helement, hread.mp (hsame ▸ hholds.message)⟩
      · rintro ⟨-, -, -, hbody⟩
        exact ⟨event, hnew, hfacility, hlevel, hversion, htimestamp, hhost, happ, hproc, hmsg, hstructured,
          hread.mpr hbody⟩
    -- The structured data is cut short.
    · refine iff_of_false ?_ fun h => helement h.2.2.1
      rintro ⟨event', hnew', hholds⟩
      rw [hnew] at hnew'
      have hright := hholds.structuredData
      rw [← Except.ok.inj hnew', hstructured] at hright
      exact hcut helement (Option.some.inj hright)
  -- No version is read, and no message has the version 0.
  · obtain ⟨event, hnew, hzero⟩ := new_undated hlib m hdated
    refine iff_of_false ?_ fun h => hdated ⟨h.1, h.2.1⟩
    rintro ⟨event', hnew', hholds⟩
    rw [hnew] at hnew'
    have hversion := hholds.version
    have hpos := m.version_mem
    rw [← Except.ok.inj hnew', hzero] at hversion
    omega

/-! ## An event log entry -/

/-- A library for ASCII texts that knows one date. -/
def asciiLibrary : SyslogLibrary where
  decode := asciiString
  parse5424 s := if s.length = 28 ∧ s[22]?.any Char.isDigit then some 1065910455003 else none
  parse3164 _ := none

theorem length_rfc822 (zone : TimeOffset) : zone.rfc822.length = 5 := by
  have hhour : (digits 2 zone.hour).length = 2 := by
    cases zone with
    | utc => rfl
    | numeric _ hour _ =>
      exact length_digits (by omega) (by have := hour.isLt; simp only [TimeOffset.hour]; omega)
  have hminute : (digits 2 zone.minute).length = 2 := by
    cases zone with
    | utc => rfl
    | numeric _ _ minute =>
      exact length_digits (by omega) (by have := minute.isLt; simp only [TimeOffset.minute]; omega)
  rw [TimeOffset.rfc822, List.length_cons, List.length_append, hhour, hminute]

theorem documented_asciiLibrary : Documented asciiLibrary where
  decode_nil := rfl
  decode_ascii x y b _ := by simp only [asciiLibrary, asciiString, List.map_append, List.map_cons]
  decode_bom := List.cons_ne_nil _ _
  parse_date ts h := by
    have htext : ts.fractionText = '.' :: ts.fraction := if_neg (List.ne_nil_of_length_pos (by omega))
    have hlength : (ts.localText ++ (ts.fractionText ++ ts.zone.rfc822)).length = 28 := by
      rw [List.length_append, List.length_append, length_localText, length_rfc822, htext, List.length_cons, h]
    have hdigit : (ts.localText ++ (ts.fractionText ++ ts.zone.rfc822))[22]? = ts.fraction[2]? := by
      rw [List.getElem?_append_right (by rw [length_localText]; omega), length_localText, htext, List.cons_append,
        List.getElem?_cons_succ, List.getElem?_append_left (by omega)]
    have hsome : (ts.fraction[2]?).any Char.isDigit = true := by
      rw [List.getElem?_eq_getElem (by omega), Option.any_some]
      exact ts.fraction_digits.2 _ (List.getElem_mem _)
    have hparse : asciiLibrary.parse5424 (ts.localText ++ (ts.fractionText ++ ts.zone.rfc822)) = some 1065910455003 :=
      if_pos ⟨hlength, by rw [hdigit, hsome]⟩
    rw [hparse]
    rfl
  parse_signTwice ts hpos hlt := by
    have htext : ts.fractionText = '.' :: ts.fraction := if_neg (List.ne_nil_of_length_pos hpos)
    apply if_neg
    rintro ⟨hlength, hdigit⟩
    rw [List.length_append, List.length_append, length_localText, List.length_cons, length_rfc822, htext,
      List.length_cons] at hlength
    rw [List.getElem?_append_right (by rw [length_localText]; omega), length_localText, htext, List.cons_append,
      List.getElem?_cons_succ, List.getElem?_append_right (by omega)] at hdigit
    have htwo : ts.fraction.length = 2 := by omega
    rw [htwo, Nat.sub_self, List.getElem?_cons_zero, Option.any_some] at hdigit
    revert hdigit
    cases ts.zone.negative <;> decide
  parse_shortYear ts := by
    apply if_neg
    rintro ⟨hlength, -⟩
    rw [List.length_append, List.length_take, length_localText, length_rfc822] at hlength
    omega

/-- An entry of an event log, as the RFC shows it. -/
def sample (priority : ℕ) (h : priority ≤ 191) : Rfc5424Message where
  priority := priority
  priWidth := 1
  version := 1
  timestamp := some ⟨2003, 10, 11, 22, 14, 15, "003".toList, .utc, by omega, by omega, by omega, by omega, by omega,
    by omega, by simp⟩
  hostname := "mymachine.example.com".toList
  appName := "evntslog".toList
  procId := "-".toList
  msgId := "ID47".toList
  elements := [⟨"exampleSDID@32473".toList, [⟨"iut".toList, ascii "3"⟩]⟩]
  body := .any (ascii "An application event log entry")
  priority_le := h
  priWidth_le := by decide
  version_mem := by decide
  hostname_printable := by simp [Printable]
  appName_printable := by simp [Printable]
  procId_printable := by simp [Printable]
  msgId_printable := by simp [Printable]
  elements_wf := by simp [Element.WellFormed, SdName, Printable]
  body_wf := by
    intro h
    have hhead := List.IsPrefix.getElem h (i := 0) (by decide)
    cases hhead

/-- The event of the sample is read right. -/
theorem readRight_sample : ReadRight asciiLibrary (sample 34 (by decide)) :=
  (readRight_iff documented_asciiLibrary (sample 34 (by decide))).mpr
    ⟨by decide, ⟨_, rfl, by decide⟩, ⟨by decide, by simp [sample, ascii, writeAscii, c2b]⟩,
      ⟨by simp [sample, ascii, writeAscii], by simp [sample]⟩⟩

/-- A priority of three digits makes the first word too long. -/
theorem not_readRight_threeDigits : ¬ ReadRight asciiLibrary (sample 165 (by decide)) := by
  obtain ⟨event, hnew, hzero⟩ := new_undated documented_asciiLibrary (sample 165 (by decide))
    fun h => absurd h.1 (by decide)
  rintro ⟨event', hnew', hholds⟩
  have hversion := hholds.version
  rw [hnew] at hnew'
  rw [← Except.ok.inj hnew', hzero] at hversion
  cases hversion

end Rfc5424Message

end OrgLittle.Syslog
