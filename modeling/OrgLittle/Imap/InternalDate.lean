import OrgLittle.Imap.Fetch

/-!
# The date of a message in a `FETCH` answer

`ImapDate.toIMAPDateTime` writes the local time of a date and the offset of its time zone. The offset is what
the calendar says in milliseconds, divided by `3600`: one hour becomes `1000`. The sign stands in front of a
number that has a sign itself, and a zone without an offset becomes `-0`. The text stands for the date of no
message (`not_denotes_toIMAPDateTime`).
-/

namespace OrgLittle.Imap

open OrgLittle.Java

namespace ImapDate

/-! ## The dates of the protocol -/

/-- A `date-time` of the grammar: two digits for the parts of the time, four for the year, and a zone with
its sign and four digits. A day below ten has a blank or a zero in front. -/
structure DateTime where
  pad : Char
  day : Fin 100
  month : Fin 12
  year : Fin 10000
  hour : Fin 100
  minute : Fin 100
  second : Fin 100
  sign : Char
  zoneHour : Fin 100
  zoneMinute : Fin 100
  pad_mem : pad = ' ' ∨ pad = '0'
  sign_mem : sign = '+' ∨ sign = '-'

namespace DateTime

variable (dt : DateTime)

def dateText : JString :=
  List.leftpad 2 dt.pad (Nat.toDigits 10 dt.day) ++ '-' :: (monthTable dt.month ++ '-' :: digits 4 dt.year)

def timeText : JString :=
  digits 2 dt.hour ++ ':' :: (digits 2 dt.minute ++ ':' :: digits 2 dt.second)

def zoneText : JString := dt.sign :: (digits 2 dt.zoneHour ++ digits 2 dt.zoneMinute)

def text : JString := dt.dateText ++ ' ' :: (dt.timeText ++ ' ' :: dt.zoneText)

/-- The offset of the zone from universal time, in minutes. -/
def zone : ℤ := (if dt.sign = '-' then -1 else 1) * (60 * dt.zoneHour + dt.zoneMinute)

/-- The second that is meant. The number of a day comes from `civil`. -/
def instant (civil : ℤ → Fin 12 → ℤ → ℤ) : ℤ :=
  civil dt.year dt.month dt.day * 86400 + dt.hour * 3600 + dt.minute * 60 + dt.second - 60 * dt.zone

end DateTime

/-- The text is a date of the protocol for this second. -/
def Denotes (civil : ℤ → Fin 12 → ℤ → ℤ) (text : JString) (instant : ℤ) : Prop :=
  ∃ dt : DateTime, dt.text = text ∧ dt.instant civil = instant

/-- The calendar shows this second in a zone with this offset from universal time, in minutes. Of the offset,
`dst` minutes are daylight saving time, which `ZONE_OFFSET` leaves out. -/
structure Shows (civil : ℤ → Fin 12 → ℤ → ℤ) (cal : Calendar) (instant offset : ℤ) : Prop where
  date : 1 ≤ cal.date ∧ cal.date ≤ 31
  year : 1 ≤ cal.year
  hourOfDay : 0 ≤ cal.hourOfDay ∧ cal.hourOfDay < 24
  minute : 0 ≤ cal.minute ∧ cal.minute < 60
  second : 0 ≤ cal.second ∧ cal.second < 60
  localTime : civil cal.year cal.month cal.date * 86400 + cal.hourOfDay * 3600 + cal.minute * 60 + cal.second
    = instant + 60 * offset
  zoneOffset : ∃ dst : ℤ, -120 ≤ dst ∧ dst ≤ 120 ∧ cal.zoneOffset = 60000 * (offset - dst)

/-! ## Numbers in texts -/

/-- A number with leading zeros is the number without them. -/
theorem eq_of_digits_eq {width v : ℕ} {w : ℤ} (hw : 0 ≤ w) (h : digits width v = intToString w) :
    (v : ℤ) = w := by
  have hvalue := congrArg (fun s => Nat.ofDigitChars 10 s 0) h
  rw [intToString_of_nonneg hw] at hvalue
  simp only [ofDigitChars_digits, Nat.ofDigitChars_ten_toDigits] at hvalue
  omega

theorem eq_of_digits_eq_twoDigits {width v : ℕ} {w : ℤ} (hw : 0 ≤ w) (h : digits width v = twoDigits w) :
    (v : ℤ) = w := by
  have hvalue := congrArg (fun s => Nat.ofDigitChars 10 s 0) h
  have hprinted : Nat.ofDigitChars 10 (twoDigits w) 0 = w.natAbs := by
    rw [twoDigits, intToString_of_nonneg hw]
    split_ifs
    · rw [Nat.ofDigitChars_cons]
      exact Nat.ofDigitChars_ten_toDigits
    · exact Nat.ofDigitChars_ten_toDigits
  simp only [ofDigitChars_digits, hprinted] at hvalue
  omega

theorem notMem_twoDigits {w : ℤ} (hw : 0 ≤ w) {c : Char} (hc : c.isDigit = false) : c ∉ twoDigits w := by
  rw [twoDigits, intToString_of_nonneg hw]
  split_ifs
  · rw [List.mem_cons, not_or]
    refine ⟨?_, notMem_toDigits hc⟩
    rintro rfl
    cases hc
  · exact notMem_toDigits hc

/-- A day of one digit is printed without the blank or the zero that belongs in front of it. -/
theorem eq_of_day_eq {pad : Char} (hpad : pad = ' ' ∨ pad = '0') {v : ℕ} {w : ℤ} (hw : 0 ≤ w)
    (h : List.leftpad 2 pad (Nat.toDigits 10 v) = intToString w) : (v : ℤ) = w := by
  rcases hpad with rfl | rfl
  · rw [intToString_of_nonneg hw, List.leftpad] at h
    -- a number does not begin with a blank
    have hnone : 2 - (Nat.toDigits 10 v).length = 0 := by
      rcases Nat.eq_zero_or_pos (2 - (Nat.toDigits 10 v).length) with hzero | hpos
      · exact hzero
      · have hmem : ' ' ∈ Nat.toDigits 10 w.natAbs := by
          rw [← h]
          exact List.mem_append_left _ (List.mem_replicate.mpr ⟨by omega, rfl⟩)
        exact absurd hmem (notMem_toDigits rfl)
    rw [hnone, List.replicate_zero, List.nil_append] at h
    have hvalue := congrArg (fun s => Nat.ofDigitChars 10 s 0) h
    simp only [Nat.ofDigitChars_ten_toDigits] at hvalue
    omega
  · exact eq_of_digits_eq hw h

theorem monthTable_inj {m m' : Fin 12} (h : monthTable m = monthTable m') : m = m' := by
  revert m m'
  decide

theorem notMem_monthTable (m : Fin 12) : '-' ∉ monthTable m ∧ ' ' ∉ monthTable m := by
  revert m
  decide

/-! ## What the parts of a printed date stand for -/

/-- The zone that is printed, with its sign. -/
def zonePart (cal : Calendar) : JString :=
  (if 0 < cal.zoneOffset.tdiv 3600 then '+' else '-') :: intToString (cal.zoneOffset.tdiv 3600)

theorem toIMAPDateTime_eq (cal : Calendar) : toIMAPDateTime cal
    = intToString cal.date ++ '-' :: (monthTable cal.month ++ '-' :: (intToString cal.year ++ ' ' ::
        (twoDigits cal.hourOfDay ++ ':' :: (twoDigits cal.minute ++ ':' :: (twoDigits cal.second ++ ' ' ::
          zonePart cal))))) := by
  simp [toIMAPDateTime, zonePart]

theorem DateTime.text_eq (dt : DateTime) : dt.text
    = List.leftpad 2 dt.pad (Nat.toDigits 10 dt.day) ++ '-' :: (monthTable dt.month ++ '-' ::
        (digits 4 dt.year ++ ' ' :: (digits 2 dt.hour ++ ':' :: (digits 2 dt.minute ++ ':' ::
          (digits 2 dt.second ++ ' ' :: dt.zoneText))))) := by
  simp [DateTime.text, DateTime.dateText, DateTime.timeText]

/-- The parts agree one by one. -/
theorem DateTime.fields_eq {civil : ℤ → Fin 12 → ℤ → ℤ} {cal : Calendar} {instant offset : ℤ}
    (hshows : Shows civil cal instant offset) {dt : DateTime} (htext : dt.text = toIMAPDateTime cal) :
    ((dt.day : ℕ) = cal.date ∧ dt.month = cal.month ∧ (dt.year : ℕ) = cal.year)
      ∧ ((dt.hour : ℕ) = cal.hourOfDay ∧ (dt.minute : ℕ) = cal.minute ∧ (dt.second : ℕ) = cal.second)
      ∧ dt.zoneText = zonePart cal := by
  have hdate : 0 ≤ cal.date := by have := hshows.date; omega
  have hyear : 0 ≤ cal.year := by have := hshows.year; omega
  have hdash : '-' ∉ List.leftpad 2 dt.pad (Nat.toDigits 10 dt.day) := by
    rw [List.leftpad, List.mem_append, not_or]
    refine ⟨fun hmem => ?_, notMem_toDigits rfl⟩
    have hpad := (List.mem_replicate.mp hmem).2
    rcases dt.pad_mem with hp | hp <;> rw [hp] at hpad <;> exact absurd hpad (by decide)
  have hdash' : '-' ∉ intToString cal.date := by
    rw [intToString_of_nonneg hdate]
    exact notMem_toDigits rfl
  have hblank : ' ' ∉ intToString cal.year := by
    rw [intToString_of_nonneg hyear]
    exact notMem_toDigits rfl
  rw [DateTime.text_eq, toIMAPDateTime_eq] at htext
  obtain ⟨hday, htext⟩ := append_cons_inj hdash hdash' htext
  obtain ⟨hmonth, htext⟩ := append_cons_inj (notMem_monthTable _).1 (notMem_monthTable _).1 htext
  obtain ⟨hyear', htext⟩ := append_cons_inj (notMem_digits rfl) hblank htext
  obtain ⟨hhour, htext⟩ := append_cons_inj (notMem_digits rfl) (notMem_twoDigits hshows.hourOfDay.1 rfl) htext
  obtain ⟨hminute, htext⟩ := append_cons_inj (notMem_digits rfl) (notMem_twoDigits hshows.minute.1 rfl) htext
  obtain ⟨hsecond, hzone⟩ := append_cons_inj (notMem_digits rfl) (notMem_twoDigits hshows.second.1 rfl) htext
  exact ⟨⟨eq_of_day_eq dt.pad_mem hdate hday, monthTable_inj hmonth, eq_of_digits_eq hyear hyear'⟩,
    ⟨eq_of_digits_eq_twoDigits hshows.hourOfDay.1 hhour, eq_of_digits_eq_twoDigits hshows.minute.1 hminute,
      eq_of_digits_eq_twoDigits hshows.second.1 hsecond⟩, hzone⟩

/-- So the time is the same, and the zone has to be the one of the calendar. -/
theorem zone_eq_of_denotes {civil : ℤ → Fin 12 → ℤ → ℤ} {cal : Calendar} {instant offset : ℤ}
    (hshows : Shows civil cal instant offset) (h : Denotes civil (toIMAPDateTime cal) instant) :
    ∃ dt : DateTime, dt.zoneText = zonePart cal ∧ dt.zone = offset := by
  obtain ⟨dt, htext, hinstant⟩ := h
  obtain ⟨⟨hday, hmonth, hyear⟩, ⟨hhour, hminute, hsecond⟩, hzone⟩ := dt.fields_eq hshows htext
  refine ⟨dt, hzone, ?_⟩
  have hlocal := hshows.localTime
  rw [DateTime.instant] at hinstant
  rw [← hday, ← hmonth, ← hyear, ← hhour, ← hminute, ← hsecond] at hlocal
  omega

/-! ## The zone -/

/-- The four digits of a zone, read as a number. -/
theorem DateTime.zoneText_digits (dt : DateTime) :
    (dt.zoneText.tail).length = 4 ∧ Nat.ofDigitChars 10 dt.zoneText.tail 0 = 100 * dt.zoneHour + dt.zoneMinute := by
  have hhour : (digits 2 dt.zoneHour).length = 2 := length_digits (by decide) dt.zoneHour.isLt
  have hminute : (digits 2 dt.zoneMinute).length = 2 := length_digits (by decide) dt.zoneMinute.isLt
  have htail : dt.zoneText.tail = digits 2 dt.zoneHour ++ digits 2 dt.zoneMinute := rfl
  refine ⟨by rw [htail, List.length_append, hhour, hminute], ?_⟩
  rw [htail, Nat.ofDigitChars_append, Nat.ofDigitChars_eq_ofDigitChars_zero, ofDigitChars_digits,
    ofDigitChars_digits, hminute]

/-- What is printed is a zone only for an offset of an hour or more in the east, and then it is that of
another place: an hour is printed as ten hours. -/
theorem zone_of_zonePart {dt : DateTime} {cal : Calendar} (h : dt.zoneText = zonePart cal) :
    dt.sign = '+' ∧ 3600 * 1000 ≤ cal.zoneOffset ∧
      (100 * dt.zoneHour + dt.zoneMinute : ℤ) = cal.zoneOffset / 3600 := by
  obtain ⟨hlength, hvalue⟩ := dt.zoneText_digits
  have hdigit : ∀ c ∈ dt.zoneText.tail, c.isDigit = true := by
    intro c hc
    rcases List.mem_append.mp (show c ∈ digits 2 dt.zoneHour ++ digits 2 dt.zoneMinute from hc) with hc | hc
    · exact isDigit_of_mem_digits hc
    · exact isDigit_of_mem_digits hc
  rw [h] at hlength hvalue hdigit
  simp only [zonePart, List.tail_cons] at hlength hvalue hdigit
  have hsign : dt.sign = if 0 < cal.zoneOffset.tdiv 3600 then '+' else '-' := (List.cons.inj h).1
  by_cases hneg : cal.zoneOffset.tdiv 3600 < 0
  · -- a second sign
    rw [intToString, if_pos hneg] at hdigit
    exact absurd (hdigit '-' List.mem_cons_self) (by decide)
  · rw [intToString_of_nonneg (by omega)] at hlength hvalue
    rw [Nat.ofDigitChars_ten_toDigits] at hvalue
    have hlarge : ¬ (cal.zoneOffset.tdiv 3600).natAbs < 10 ^ 3 := by
      intro hsmall
      have hle := (Nat.length_toDigits_le_iff (by decide : 1 < 10) (by decide : 0 < 3)).mpr hsmall
      omega
    rw [if_pos (by omega)] at hsign
    have hpos : 0 ≤ cal.zoneOffset := by
      by_contra hcon
      have hnonneg : 0 ≤ (-cal.zoneOffset).tdiv 3600 := Int.tdiv_nonneg (by omega) (by decide)
      rw [Int.neg_tdiv] at hnonneg
      omega
    rw [Int.tdiv_eq_ediv_of_nonneg hpos] at hlarge hvalue hneg
    refine ⟨hsign, by omega, by omega⟩

/-- No date is printed as a date of the protocol for the same second. -/
theorem not_denotes_toIMAPDateTime {civil : ℤ → Fin 12 → ℤ → ℤ} {cal : Calendar} {instant offset : ℤ}
    (hshows : Shows civil cal instant offset) : ¬ Denotes civil (toIMAPDateTime cal) instant := by
  intro h
  obtain ⟨dt, hzone, hoffset⟩ := zone_eq_of_denotes hshows h
  obtain ⟨hsign, hlarge, hvalue⟩ := zone_of_zonePart hzone
  obtain ⟨dst, hlo, hhi, hms⟩ := hshows.zoneOffset
  have hminute := dt.zoneMinute.isLt
  rw [DateTime.zone, hsign, if_neg (by decide), one_mul] at hoffset
  omega

/-- The number of a day in the Gregorian calendar, from the first of March of the year `0` on. -/
def gregorianDay (year : ℤ) (month : Fin 12) (day : ℤ) : ℤ :=
  let m : ℤ := ((month : ℕ) + 10) % 12
  let y : ℤ := if (month : ℕ) < 2 then year - 1 else year
  365 * y + y / 4 - y / 100 + y / 400 + (153 * m + 2) / 5 + day - 1

/-- The 15th of May 2024, 10:20:30, three hours east. -/
def mayCalendar : Calendar := ⟨15, 4, 2024, 10, 20, 30, 10800000⟩

theorem shows_mayCalendar : Shows gregorianDay mayCalendar 63877792830 180 := by
  constructor
  case zoneOffset => exact ⟨0, by decide, by decide, by decide⟩
  all_goals decide

theorem not_denotes_mayCalendar : ¬ Denotes gregorianDay (toIMAPDateTime mayCalendar) 63877792830 :=
  not_denotes_toIMAPDateTime shows_mayCalendar

/-- It is printed as a time thirty hours east. -/
theorem toIMAPDateTime_not_denoting :
    ¬ ∀ (civil : ℤ → Fin 12 → ℤ → ℤ) (cal : Calendar) (instant offset : ℤ), Shows civil cal instant offset →
      Denotes civil (toIMAPDateTime cal) instant := by
  intro h
  obtain ⟨dt, hzone, hoffset⟩ := zone_eq_of_denotes shows_mayCalendar (h _ _ _ _ shows_mayCalendar)
  obtain ⟨hsign, -, hvalue⟩ := zone_of_zonePart hzone
  have hms : mayCalendar.zoneOffset / 3600 = 3000 := by decide
  have hminute := dt.zoneMinute.isLt
  rw [DateTime.zone, hsign, if_neg (by decide), one_mul] at hoffset
  omega

end ImapDate

end OrgLittle.Imap
