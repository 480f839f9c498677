import OrgLittle.Java.Strings

/-!
# Syslog events

The constructor of `Rfc5424Event` cuts a message at its blanks. A search that finds nothing gives `-1`, so that
the next one begins at the start again. If the first word is too long or the second one is no date, the message
is read as one of RFC 3164, and there nothing can fail. Otherwise four places can: two cuts of the time zone, the
first byte of the structured data, and the priority between its brackets (`returns_iff`).
-/

namespace OrgLittle.Syslog

open OrgLittle.Java

/-! ## Texts and positions -/

/-- The library behind the constructor: decoding of UTF-8, and `SimpleDateFormat.parse` with the patterns
`yyyy-MM-dd'T'hh:mm:ss.SSSZ` and `MMM dd HH:mm:ss`; `none` is a `ParseException`. -/
structure SyslogLibrary where
  decode : List UInt8 → JString
  parse5424 : JString → Option ℤ
  parse3164 : JString → Option ℤ

/-- `String.lastIndexOf` of a character. -/
def lastIndexOf (c : Char) (s : JString) : ℤ :=
  match s.reverse.idxOf? c with
  | none => -1
  | some i => s.length - 1 - i

/-- `String.substring` with positions that may be negative. -/
def substringInt (s : JString) (start stop : ℤ) : Except JavaException JString :=
  if 0 ≤ start ∧ start ≤ stop ∧ stop ≤ s.length then .ok ((s.drop start.toNat).take (stop - start).toNat)
  else .error .indexOutOfBounds

/-- `data[i]`. -/
def byteAt (data : List UInt8) (i : ℤ) : Except JavaException UInt8 :=
  if i < 0 then .error .indexOutOfBounds
  else
    match data[i.toNat]? with
    | none => .error .indexOutOfBounds
    | some b => .ok b

/-- `searchChar`. -/
def searchChar (data : List UInt8) (startPos : ℤ) (c : UInt8) : ℤ :=
  match (data.drop startPos.toNat).idxOf? c with
  | none => -1
  | some i => startPos + i

/-- The bytes of an array between two positions. -/
def slice (data : List UInt8) (startPos endPos : ℤ) : List UInt8 :=
  (data.drop startPos.toNat).take (endPos - startPos).toNat

/-- The new array of the constructor: `System.arraycopy` into an array of `length - offset` bytes. -/
def copyRaw (data : List UInt8) (offset length : ℕ) : Except JavaException (List UInt8) :=
  if length < offset then .error .negativeArraySize
  else if data.length < offset + length ∨ length - offset < length then .error .indexOutOfBounds
  else .ok ((data.drop offset).take length)

/-- The fields of `Rfc5424Event`. -/
structure Rfc5424Event where
  raw : List UInt8
  prioVersion : Option JString
  facility : ℤ
  level : ℤ
  version : ℤ
  timestamp : Option JString
  eventDate : Option ℤ
  host : Option JString
  appName : Option JString
  procId : Option JString
  msgId : Option JString
  structuredData : Option JString
  message : Option JString
deriving DecidableEq

namespace Rfc5424Event

/-- The event before its constructor runs. -/
def blank : Rfc5424Event := ⟨[], none, 0, 0, 0, none, none, none, none, none, none, none, none⟩

/-- `NIL`. -/
def NIL : JString := "-".toList

/-- `UTF_8_BOM`. -/
def UTF_8_BOM : List UInt8 := [0xef, 0xbb, 0xbf]

section library

variable (lib : SyslogLibrary)

/-- `getString`. Positions that fit no text give the empty one. -/
def getString (data : List UInt8) (startPos endPos : ℤ) : JString :=
  if 0 ≤ startPos ∧ startPos ≤ endPos ∧ endPos ≤ data.length then lib.decode (slice data startPos endPos) else []

/-- The end of the word behind a position. -/
def nextBlank (raw : List UInt8) (endPos : ℤ) : ℤ := searchChar raw (endPos + 1) SP

/-- The word behind a position. -/
def nextWord (raw : List UInt8) (endPos : ℤ) : JString := getString lib raw (endPos + 1) (nextBlank raw endPos)

/-! ## Dates -/

/-- The text that `_getDate5424` hands to the date format, with three digits of the fraction; `null` for a timestamp
without a colon. -/
def fixTz (timestamp : JString) : Except JavaException (Option JString) :=
  if timestamp = NIL then .ok none
  else
    let fixTz := timestamp.flatMap fun c => if c = 'Z' then "+00:00".toList else [c]
    let tzSeparatorPos := lastIndexOf ':' fixTz
    if tzSeparatorPos = -1 then .ok none
    else do
      let before ← substringInt fixTz 0 tzSeparatorPos
      let behind ← substringInt fixTz (tzSeparatorPos + 1) fixTz.length
      let fixTz := before ++ behind
      let tzSeparatorPos1 := lastIndexOf '.' fixTz
      let tzSeparatorPos2 := if lastIndexOf '+' fixTz < 0 then lastIndexOf '-' fixTz else lastIndexOf '+' fixTz
      let len := min 3 (tzSeparatorPos2 - tzSeparatorPos1)
      let first ← substringInt fixTz 0 (tzSeparatorPos1 + 1)
      let fraction ← substringInt fixTz (tzSeparatorPos1 + 1) (tzSeparatorPos1 + 1 + len)
      let zone ← substringInt fixTz tzSeparatorPos2 fixTz.length
      .ok (some (first ++ fraction ++ zone))

/-- `_getDate5424`. -/
def getDate5424 (timestamp : JString) : Except JavaException (Option ℤ) :=
  (fixTz timestamp).map fun text => text.bind lib.parse5424

/-- `_getDate3164`. -/
def getDate3164 (timestamp : JString) : Option ℤ := if timestamp = NIL then none else lib.parse3164 timestamp

/-! ## The constructor -/

/-- The message from a position on, without a byte order mark. -/
def messageFrom (raw : List UInt8) (startPos : ℤ) : Option JString :=
  if startPos < raw.length then
    if startPos + 3 < raw.length ∧ slice raw startPos (startPos + 3) = UTF_8_BOM then
      some (getString lib raw (startPos + 3) raw.length)
    else some (getString lib raw startPos raw.length)
  else none

/-- `make3164`. -/
def make3164 (data : List UInt8) (offset length : ℕ) (event : Rfc5424Event) : Except JavaException Rfc5424Event := do
  let raw ← copyRaw data offset length
  let endPos := searchChar raw 0 62
  let prioVersion := getString lib raw 0 endPos
  let startPos := endPos + 1
  let endPos := nextBlank raw (nextBlank raw (nextBlank raw endPos))
  let timestamp := getString lib raw startPos endPos
  let event := { event with raw := raw, prioVersion := some prioVersion, timestamp := some timestamp }
  match getDate3164 lib timestamp with
  | none => .ok event
  | some date =>
    .ok { event with
      eventDate := some date
      host := some (nextWord lib raw endPos)
      message := messageFrom lib raw (nextBlank raw endPos + 1) }

/-- The end of the structured data that begins with the byte `first`. -/
def structuredEnd (raw : List UInt8) (startPos : ℤ) (first : UInt8) : ℤ :=
  if first = 91 then searchChar raw startPos 93 + 1
  else
    let endPos := searchChar raw startPos SP
    if endPos = -1 then raw.length else endPos

/-- The facility, the level and the version of a first word. -/
def parsePriority (prioVersion : JString) : Except JavaException (ℤ × ℤ × ℤ) := do
  let endPos : ℤ := (indexOf '>' prioVersion).elim (-1) fun i => i
  let priorityStr ← substringInt prioVersion 1 endPos
  let priority := (parseInt priorityStr).getD 0
  let level := priority % 8
  let startPos := endPos + 1
  let version := if startPos < prioVersion.length then (parseInt (prioVersion.drop startPos.toNat)).getD (-1) else 0
  .ok ((priority - level) / 8, level, version)

/-- `make5424` from the host on, for a message whose second word ends at `endPos`. -/
def makeFields (raw : List UInt8) (endPos : ℤ) (prioVersion : JString) (event : Rfc5424Event) :
    Except JavaException Rfc5424Event := do
  let endPos3 := nextBlank raw endPos
  let endPos4 := nextBlank raw endPos3
  let endPos5 := nextBlank raw endPos4
  let startPos := nextBlank raw endPos5 + 1
  let first ← byteAt raw startPos
  let endPos7 := structuredEnd raw startPos first
  let (facility, level, version) ← parsePriority prioVersion
  .ok { event with
    facility := facility
    level := level
    version := version
    host := some (nextWord lib raw endPos)
    appName := some (nextWord lib raw endPos3)
    procId := some (nextWord lib raw endPos4)
    msgId := some (nextWord lib raw endPos5)
    structuredData := some (getString lib raw startPos endPos7)
    message := messageFrom lib raw (endPos7 + 1) }

/-- `make5424`. -/
def make5424 (data : List UInt8) (offset length : ℕ) (event : Rfc5424Event) : Except JavaException Rfc5424Event := do
  let raw ← copyRaw data offset length
  let prioVersion := nextWord lib raw (-1)
  let event := { event with raw := raw, prioVersion := some prioVersion }
  if 5 < utf16Length prioVersion then make3164 lib data offset length event
  else
    let endPos := nextBlank raw (-1)
    let timestamp := nextWord lib raw endPos
    let event := { event with timestamp := some timestamp }
    match ← getDate5424 lib timestamp with
    | none => make3164 lib data offset length event
    | some date => makeFields lib raw (nextBlank raw endPos) prioVersion { event with eventDate := some date }

/-- `new Rfc5424Event(data, offset, length)`. -/
def new (data : List UInt8) (offset length : ℕ) : Except JavaException Rfc5424Event :=
  make5424 lib data offset length blank

end library

/-! ## Where the constructor fails -/

/-- The sign that is taken for the one of the zone: the last plus, or without one the last minus. -/
def signPos (s : JString) : ℤ := if lastIndexOf '+' s < 0 then lastIndexOf '-' s else lastIndexOf '+' s

/-- The timestamp with a numeric zone. -/
def withOffset (timestamp : JString) : JString := timestamp.flatMap fun c => if c = 'Z' then "+00:00".toList else [c]

/-- A text without its last colon. -/
def withoutColon (s : JString) : JString :=
  s.take (lastIndexOf ':' s).toNat ++ s.drop ((lastIndexOf ':' s).toNat + 1)

/-- A timestamp has a colon, but no sign behind the last point. -/
def ZoneBreaks (timestamp : JString) : Prop :=
  timestamp ≠ NIL ∧ ':' ∈ withOffset timestamp
    ∧ (signPos (withoutColon (withOffset timestamp)) = -1
      ∨ signPos (withoutColon (withOffset timestamp)) < lastIndexOf '.' (withoutColon (withOffset timestamp)))

/-- A character is found in the text or not at all. -/
theorem lastIndexOf_eq_or (c : Char) (s : JString) :
    lastIndexOf c s = -1 ∧ c ∉ s ∨ 0 ≤ lastIndexOf c s ∧ lastIndexOf c s < s.length ∧ c ∈ s := by
  unfold lastIndexOf
  cases hindex : s.reverse.idxOf? c with
  | none =>
    rw [List.idxOf?_eq_none_iff, List.mem_reverse] at hindex
    exact .inl ⟨rfl, hindex⟩
  | some i =>
    obtain ⟨hlt, hget, -⟩ := List.idxOf?_eq_some_iff.mp hindex
    have hmem : c ∈ s := by
      rw [← List.mem_reverse, ← hget]
      exact List.getElem_mem hlt
    rw [List.length_reverse] at hlt
    dsimp only
    exact .inr ⟨by omega, by omega, hmem⟩

theorem lastIndexOf_of_notMem {c : Char} {s : JString} (h : c ∉ s) : lastIndexOf c s = -1 := by
  rcases lastIndexOf_eq_or c s with ⟨heq, -⟩ | ⟨-, -, hmem⟩
  · exact heq
  · exact absurd hmem h

/-- The last one is found. -/
theorem lastIndexOf_append {c : Char} (s : JString) {t : JString} (h : c ∉ t) :
    lastIndexOf c (s ++ c :: t) = s.length := by
  have hindex : (s ++ c :: t).reverse.idxOf? c = some t.length := by
    have hrev : (s ++ c :: t).reverse = t.reverse ++ c :: s.reverse := by simp
    have hfound := indexOf_append (s := t.reverse) (fun hmem => h (List.mem_reverse.mp hmem)) s.reverse
    rwa [indexOf, ← hrev, List.length_reverse] at hfound
  rw [lastIndexOf, hindex, List.length_append, List.length_cons]
  dsimp only
  omega

/-- A sign that is found is in the text. -/
theorem signPos_bounds (s : JString) : -1 ≤ signPos s ∧ signPos s < s.length := by
  unfold signPos
  rcases lastIndexOf_eq_or '+' s with ⟨h, -⟩ | ⟨h, h', -⟩ <;>
    rcases lastIndexOf_eq_or '-' s with ⟨k, -⟩ | ⟨k, k', -⟩ <;> split_ifs <;> omega

/-- A part of the text. -/
theorem substringInt_ok {s : JString} {start stop : ℤ} (h : 0 ≤ start ∧ start ≤ stop ∧ stop ≤ s.length) :
    substringInt s start stop = .ok ((s.drop start.toNat).take (stop - start).toNat) := if_pos h

/-- Bounds outside it raise an exception. -/
theorem substringInt_error {s : JString} {start stop : ℤ} (h : ¬ (0 ≤ start ∧ start ≤ stop ∧ stop ≤ s.length)) :
    substringInt s start stop = .error .indexOutOfBounds := if_neg h

/-- The text with three digits of the fraction at most, out of the one without its last colon. -/
def cutFraction (s : JString) : Except JavaException JString := do
  let point := lastIndexOf '.' s
  let first ← substringInt s 0 (point + 1)
  let fraction ← substringInt s (point + 1) (point + 1 + min 3 (signPos s - point))
  let zone ← substringInt s (signPos s) s.length
  .ok (first ++ fraction ++ zone)

/-- The constructor cuts the fraction of the text without its last colon. -/
theorem fixTz_eq {timestamp : JString} (hnil : timestamp ≠ NIL) (hcolon : ':' ∈ withOffset timestamp) :
    fixTz timestamp = (cutFraction (withoutColon (withOffset timestamp))).map some := by
  have hpos : 0 ≤ lastIndexOf ':' (withOffset timestamp)
      ∧ lastIndexOf ':' (withOffset timestamp) < (withOffset timestamp).length := by
    rcases lastIndexOf_eq_or ':' (withOffset timestamp) with ⟨-, h⟩ | ⟨h, h', -⟩
    · exact absurd hcolon h
    · exact ⟨h, h'⟩
  have hbefore : substringInt (withOffset timestamp) 0 (lastIndexOf ':' (withOffset timestamp))
      = .ok ((withOffset timestamp).take (lastIndexOf ':' (withOffset timestamp)).toNat) := by
    rw [substringInt_ok (by omega), Int.sub_zero]
    rfl
  have hbehind : substringInt (withOffset timestamp) (lastIndexOf ':' (withOffset timestamp) + 1)
      (withOffset timestamp).length
      = .ok ((withOffset timestamp).drop ((lastIndexOf ':' (withOffset timestamp)).toNat + 1)) := by
    rw [substringInt_ok (by omega), List.take_of_length_le (by rw [List.length_drop]; omega)]
    congr 2
    omega
  unfold fixTz
  rw [if_neg hnil]
  change (if lastIndexOf ':' (withOffset timestamp) = -1 then _ else _) = _
  rw [if_neg (by omega)]
  change (substringInt (withOffset timestamp) 0 (lastIndexOf ':' (withOffset timestamp)) >>= fun before =>
    substringInt (withOffset timestamp) (lastIndexOf ':' (withOffset timestamp) + 1)
      (withOffset timestamp).length >>= fun behind => _) = _
  rw [hbefore, hbehind]
  change (do
    let s := withoutColon (withOffset timestamp)
    let first ← substringInt s 0 (lastIndexOf '.' s + 1)
    let fraction ← substringInt s (lastIndexOf '.' s + 1)
      (lastIndexOf '.' s + 1 + min 3 (signPos s - lastIndexOf '.' s))
    let zone ← substringInt s (signPos s) s.length
    pure (some (first ++ fraction ++ zone))) = some <$> cutFraction (withoutColon (withOffset timestamp))
  simp only [cutFraction, map_bind]
  rfl

/-- The text that is parsed as a date: the fraction of a text is cut behind its third digit. -/
def cutText (s : JString) : JString :=
  s.take (lastIndexOf '.' s + 1 + min 3 (signPos s - lastIndexOf '.' s)).toNat ++ s.drop (signPos s).toNat

/-- A fraction in front of the sign is cut. -/
theorem cutFraction_ok {s : JString} (hsign : signPos s ≠ -1) (hpoint : lastIndexOf '.' s ≤ signPos s) :
    cutFraction s = .ok (cutText s) := by
  obtain ⟨hlo, hhi⟩ := signPos_bounds s
  have hdot : -1 ≤ lastIndexOf '.' s := by
    rcases lastIndexOf_eq_or '.' s with ⟨h, -⟩ | ⟨h, -⟩ <;> omega
  unfold cutFraction
  dsimp only
  rw [substringInt_ok (by omega), substringInt_ok (by omega), substringInt_ok (by omega)]
  change Except.ok _ = _
  congr 1
  have hcut : (lastIndexOf '.' s + 1 + min 3 (signPos s - lastIndexOf '.' s)).toNat
      = (lastIndexOf '.' s + 1).toNat + (min 3 (signPos s - lastIndexOf '.' s)).toNat := by omega
  have hzone : (s.drop (signPos s).toNat).take ((s.length : ℤ) - signPos s).toNat = s.drop (signPos s).toNat :=
    List.take_of_length_le (by rw [List.length_drop]; omega)
  have hfraction : lastIndexOf '.' s + 1 + min 3 (signPos s - lastIndexOf '.' s) - (lastIndexOf '.' s + 1)
      = min 3 (signPos s - lastIndexOf '.' s) := by omega
  rw [cutText, hcut, hzone, hfraction, Int.toNat_zero, List.drop_zero, Int.sub_zero, List.take_add]

/-- Otherwise the bounds of `substring` are wrong. -/
theorem cutFraction_error {s : JString} (h : signPos s = -1 ∨ signPos s < lastIndexOf '.' s) :
    cutFraction s = .error .indexOutOfBounds := by
  obtain ⟨hlo, hhi⟩ := signPos_bounds s
  have hdot : -1 ≤ lastIndexOf '.' s ∧ lastIndexOf '.' s < s.length := by
    rcases lastIndexOf_eq_or '.' s with ⟨h, -⟩ | ⟨h, h', -⟩ <;> omega
  unfold cutFraction
  dsimp only
  rw [substringInt_ok (by omega)]
  by_cases hbehind : signPos s < lastIndexOf '.' s
  · rw [substringInt_error (by omega)]
    rfl
  · rw [substringInt_ok (by omega), substringInt_error (by omega)]
    rfl

/-- A timestamp is read as a date of RFC 5424. -/
def Dated (lib : SyslogLibrary) (timestamp : JString) : Prop :=
  timestamp ≠ NIL ∧ ':' ∈ withOffset timestamp
    ∧ (lib.parse5424 (cutText (withoutColon (withOffset timestamp)))).isSome

/-- A timestamp whose zone cannot be cut raises an exception. -/
theorem getDate5424_error (lib : SyslogLibrary) {timestamp : JString} (h : ZoneBreaks timestamp) :
    getDate5424 lib timestamp = .error .indexOutOfBounds := by
  rw [getDate5424, fixTz_eq h.1 h.2.1, cutFraction_error h.2.2]
  rfl

/-- A timestamp without a colon, or none at all, gives no date. -/
theorem getDate5424_none (lib : SyslogLibrary) {timestamp : JString}
    (h : timestamp = NIL ∨ ':' ∉ withOffset timestamp) : getDate5424 lib timestamp = .ok none := by
  unfold getDate5424 fixTz
  by_cases hnil : timestamp = NIL
  · rw [if_pos hnil]
    rfl
  · rw [if_neg hnil]
    rcases lastIndexOf_eq_or ':' (withOffset timestamp) with ⟨hpos, -⟩ | ⟨-, -, hmem⟩
    · change Except.map _ (if lastIndexOf ':' (withOffset timestamp) = -1 then _ else _) = _
      rw [if_pos hpos]
      rfl
    · exact absurd hmem (h.resolve_left hnil)

/-- Any other timestamp is left to the date format. -/
theorem getDate5424_ok (lib : SyslogLibrary) {timestamp : JString} (hnil : timestamp ≠ NIL)
    (hcolon : ':' ∈ withOffset timestamp) (h : ¬ ZoneBreaks timestamp) :
    getDate5424 lib timestamp = .ok (lib.parse5424 (cutText (withoutColon (withOffset timestamp)))) := by
  have hsign : ¬ (signPos (withoutColon (withOffset timestamp)) = -1
      ∨ signPos (withoutColon (withOffset timestamp)) < lastIndexOf '.' (withoutColon (withOffset timestamp))) :=
    fun hbreak => h ⟨hnil, hcolon, hbreak⟩
  rw [not_or, not_lt] at hsign
  rw [getDate5424, fixTz_eq hnil hcolon, cutFraction_ok hsign.1 hsign.2]
  rfl

/-- The three outcomes of `_getDate5424`. -/
theorem getDate5424_cases (lib : SyslogLibrary) (timestamp : JString) :
    ZoneBreaks timestamp ∧ getDate5424 lib timestamp = .error .indexOutOfBounds
      ∨ ¬ ZoneBreaks timestamp ∧ ¬ Dated lib timestamp ∧ getDate5424 lib timestamp = .ok none
      ∨ ¬ ZoneBreaks timestamp ∧ Dated lib timestamp
        ∧ ∃ date, getDate5424 lib timestamp = .ok (some date) := by
  by_cases hbreak : ZoneBreaks timestamp
  · exact .inl ⟨hbreak, getDate5424_error lib hbreak⟩
  right
  by_cases hnone : timestamp = NIL ∨ ':' ∉ withOffset timestamp
  · exact .inl ⟨hbreak, fun hdated => hnone.elim hdated.1 fun h => h hdated.2.1, getDate5424_none lib hnone⟩
  rw [not_or, not_not] at hnone
  have hdate := getDate5424_ok lib hnone.1 hnone.2 hbreak
  cases hparse : lib.parse5424 (cutText (withoutColon (withOffset timestamp))) with
  | none =>
    refine .inl ⟨hbreak, fun hdated => ?_, hdate.trans (congrArg _ hparse)⟩
    have hsome := hdated.2.2
    rw [hparse] at hsome
    cases hsome
  | some date =>
    exact .inr ⟨hbreak, ⟨hnone.1, hnone.2, by rw [hparse]; rfl⟩, date, hdate.trans (congrArg _ hparse)⟩

/-- A blank that is found is in the message. -/
theorem nextBlank_bounds (data : List UInt8) {pos : ℤ} (hpos : -1 ≤ pos) :
    -1 ≤ nextBlank data pos ∧ nextBlank data pos < data.length := by
  unfold nextBlank searchChar
  cases hindex : (data.drop (pos + 1).toNat).idxOf? SP with
  | none => exact ⟨le_refl _, by dsimp only; omega⟩
  | some i =>
    obtain ⟨hlt, -⟩ := List.idxOf?_eq_some_iff.mp hindex
    rw [List.length_drop] at hlt
    dsimp only
    omega

/-- Every further blank that is found is in the message as well. -/
theorem nextBlank_iterate_bounds (data : List UInt8) (n : ℕ) :
    -1 ≤ (nextBlank data)^[n] (-1) ∧ (nextBlank data)^[n] (-1) ≤ data.length - 1 := by
  induction n with
  | zero => exact ⟨le_refl _, by dsimp only [Function.iterate_zero, id]; omega⟩
  | succ n ih =>
    rw [Function.iterate_succ_apply']
    obtain ⟨hlo, hhi⟩ := nextBlank_bounds data ih.1
    omega

/-- A byte of the message. -/
theorem byteAt_ok {data : List UInt8} {i : ℤ} (hlo : 0 ≤ i) (hhi : i < data.length) : ∃ b, byteAt data i = .ok b := by
  have hlt : i.toNat < data.length := by omega
  refine ⟨data[i.toNat], ?_⟩
  rw [byteAt, if_neg (by omega), List.getElem?_eq_getElem hlt]

/-- There is none behind its end. -/
theorem byteAt_error {data : List UInt8} {i : ℤ} (h : data.length ≤ i) : byteAt data i = .error .indexOutOfBounds := by
  rw [byteAt, if_neg (by omega), List.getElem?_eq_none (by omega)]

/-- A first word with a bracket behind its first character, and no earlier one. -/
def Bracketed (prioVersion : JString) : Prop := '>' ∈ prioVersion ∧ prioVersion.head? ≠ some '>'

/-- A priority in brackets is read. -/
theorem parsePriority_ok {prioVersion : JString} (h : Bracketed prioVersion) :
    ∃ fields, parsePriority prioVersion = .ok fields := by
  obtain ⟨hmem, hhead⟩ := h
  unfold parsePriority
  cases hindex : indexOf '>' prioVersion with
  | none => exact absurd hmem (indexOf_eq_none.mp hindex)
  | some i =>
    obtain ⟨hlt, hget, -⟩ := List.idxOf?_eq_some_iff.mp hindex
    have hpos : i ≠ 0 := by
      rintro rfl
      rw [List.head?_eq_getElem?, List.getElem?_eq_getElem hlt] at hhead
      exact hhead (congrArg some hget)
    dsimp only [Option.elim_some]
    rw [substringInt_ok (by omega)]
    exact ⟨_, rfl⟩

/-- Any other raises an exception. -/
theorem parsePriority_error {prioVersion : JString} (h : ¬ Bracketed prioVersion) :
    parsePriority prioVersion = .error .indexOutOfBounds := by
  unfold parsePriority
  cases hindex : indexOf '>' prioVersion with
  | none =>
    dsimp only [Option.elim_none]
    rw [substringInt_error (by omega)]
    rfl
  | some i =>
    obtain ⟨hlt, hget, hfirst⟩ := List.idxOf?_eq_some_iff.mp hindex
    have hpos : i = 0 := by
      by_contra hne
      refine h ⟨hget ▸ List.getElem_mem hlt, fun hhead => ?_⟩
      rw [List.head?_eq_getElem?, List.getElem?_eq_getElem (by omega)] at hhead
      exact hfirst 0 (by omega) (Option.some_inj.mp hhead)
    dsimp only [Option.elim_some]
    rw [substringInt_error (by omega)]
    rfl

/-- The whole message is copied. -/
theorem copyRaw_zero (data : List UInt8) : copyRaw data 0 data.length = .ok data := by
  unfold copyRaw
  rw [if_neg (by omega), if_neg (by omega), List.drop_zero, List.take_length]

/-- A message of RFC 3164 is read whatever its parts are. -/
theorem make3164_ok (lib : SyslogLibrary) (data : List UInt8) (event : Rfc5424Event) :
    ∃ result, make3164 lib data 0 data.length event = .ok result := by
  unfold make3164
  rw [copyRaw_zero]
  dsimp only [bind, Except.bind]
  split
  · exact ⟨_, rfl⟩
  · exact ⟨_, rfl⟩

/-- When the fields behind the priority are read without an exception. -/
theorem makeFields_returns_iff (lib : SyslogLibrary) (data : List UInt8) {endPos : ℤ} (hend : -1 ≤ endPos)
    (prioVersion : JString) (event : Rfc5424Event) :
    (∃ result, makeFields lib data endPos prioVersion event = .ok result)
      ↔ (nextBlank data)^[4] endPos + 1 ≠ data.length ∧ Bracketed prioVersion := by
  have hbounds : -1 ≤ (nextBlank data)^[4] endPos ∧ (nextBlank data)^[4] endPos < data.length := by
    have h1 := nextBlank_bounds data hend
    have h2 := nextBlank_bounds data h1.1
    have h3 := nextBlank_bounds data h2.1
    exact nextBlank_bounds data h3.1
  change (∃ result, (byteAt data ((nextBlank data)^[4] endPos + 1) >>= fun first => _) = .ok result) ↔ _
  by_cases hlast : (nextBlank data)^[4] endPos + 1 = data.length
  · rw [byteAt_error hlast.ge]
    exact iff_of_false (fun ⟨_, h⟩ => by cases h) fun h => h.1 hlast
  obtain ⟨first, hfirst⟩ : ∃ b, byteAt data ((nextBlank data)^[4] endPos + 1) = .ok b :=
    byteAt_ok (by omega) (by omega)
  rw [hfirst]
  by_cases hprio : Bracketed prioVersion
  · obtain ⟨fields, hfields⟩ := parsePriority_ok hprio
    refine iff_of_true ?_ ⟨hlast, hprio⟩
    dsimp only [bind, Except.bind]
    rw [hfields]
    exact ⟨_, rfl⟩
  · dsimp only [bind, Except.bind]
    rw [parsePriority_error hprio]
    exact iff_of_false (fun ⟨_, h⟩ => by cases h) fun h => hprio h.2

/-- The bytes at which the constructor fails. The first word is short enough for RFC 5424, and the second one is a
timestamp whose zone is not found; or it is a date, and the message ends with its sixth blank (blanks are counted
from the start again when there are no more) or there is no bracket behind the first character of the first word. -/
def Breaks (lib : SyslogLibrary) (data : List UInt8) : Prop :=
  utf16Length (nextWord lib data (-1)) ≤ 5
    ∧ (ZoneBreaks (nextWord lib data (nextBlank data (-1)))
      ∨ Dated lib (nextWord lib data (nextBlank data (-1)))
        ∧ ((nextBlank data)^[6] (-1) + 1 = data.length ∨ ¬ Bracketed (nextWord lib data (-1))))

/-- The constructor returns for all bytes but these. -/
theorem new_returns_iff (lib : SyslogLibrary) (data : List UInt8) :
    (∃ event, new lib data 0 data.length = .ok event) ↔ ¬ Breaks lib data := by
  unfold new make5424 Breaks
  rw [copyRaw_zero]
  dsimp only [bind, Except.bind]
  by_cases hlong : 5 < utf16Length (nextWord lib data (-1))
  · rw [if_pos hlong]
    exact iff_of_true (make3164_ok lib data _) fun h => absurd h.1 hlong.not_ge
  rw [if_neg hlong]
  rcases getDate5424_cases lib (nextWord lib data (nextBlank data (-1))) with
    ⟨hbreak, heq⟩ | ⟨hbreak, hdated, heq⟩ | ⟨hbreak, hdated, date, heq⟩ <;> rw [heq] <;> dsimp only
  · exact iff_of_false (fun ⟨_, h⟩ => by cases h) fun h => h ⟨not_lt.mp hlong, .inl hbreak⟩
  · exact iff_of_true (make3164_ok lib data _) fun h => h.2.elim hbreak fun h => hdated h.1
  · have hsecond : -1 ≤ nextBlank data (nextBlank data (-1)) := (nextBlank_iterate_bounds data 2).1
    rw [makeFields_returns_iff lib data hsecond]
    constructor
    · rintro ⟨hlast, hprio⟩ ⟨-, hzone | ⟨-, hend | hbracket⟩⟩
      · exact hbreak hzone
      · exact hlast hend
      · exact hbracket hprio
    · intro h
      refine ⟨fun hend => h ⟨not_lt.mp hlong, .inr ⟨hdated, .inl hend⟩⟩, ?_⟩
      by_contra hbracket
      exact h ⟨not_lt.mp hlong, .inr ⟨hdated, .inr hbracket⟩⟩

/-- A timestamp without a zone: the last minus is the one of the date. -/
theorem new_noZone_error :
    ∃ data, data = ascii "<34>1 2003-10-11T22:14:15.003 host app - - - x"
      ∧ new ⟨asciiString, fun _ => none, fun _ => none⟩ data 0 data.length = .error .indexOutOfBounds :=
  ⟨_, rfl, by decide⟩

end Rfc5424Event

end OrgLittle.Syslog
