import OrgLittle.Lmsg.MessageFile

/-!
# The text of a message file

The file is written in the platform's charset and read in that of its declaration. The markup is US-ASCII
and is not changed by that (`reread_render`), and the texts that the program itself makes (numbers, dates,
base64 and the name of an array) consist of characters that have no meaning in markup.
-/

namespace OrgLittle.Lmsg

open OrgLittle.Java OrgLittle.Lib OrgLittle.Util

/-! ## The text of the file -/

/-- What is read of a text that was written: the charset of the declaration is not that of the platform. -/
def Platform.reread (p : Platform) (s : JString) : JString := (p.charset.encode s).map windows1251

/-- Bytes of ASCII are read as they are. -/
theorem windows1251_of_lt {b : UInt8} (hb : b.toNat < 128) : windows1251 b = Char.ofNat b.toNat :=
  if_pos hb

/-- No other byte is read as a character of ASCII. -/
theorem le_windows1251 {b : UInt8} (hb : 128 ≤ b.toNat) : 128 ≤ (windows1251 b).toNat := by
  have hupper : ∀ c ∈ windows1251Upper, 128 ≤ c.toNat :=
    List.all_iff_forall_prop.mp (by decide)
  rw [windows1251, if_neg (by omega), List.getD_eq_getElem?_getD]
  rcases hget : windows1251Upper[b.toNat - 128]? with _ | c
  · decide
  · exact hupper c (List.mem_of_getElem? hget)

section reread

variable (p : Platform)

@[simp] theorem reread_nil : p.reread [] = [] := by
  simp [Platform.reread, p.encode_eq]

@[simp] theorem reread_append (s t : JString) : p.reread (s ++ t) = p.reread s ++ p.reread t := by
  simp [Platform.reread, p.encode_eq]

/-- A character of ASCII is read again. -/
theorem reread_cons_ascii {c : Char} (hc : c.toNat < 128) (s : JString) :
    p.reread (c :: s) = c :: p.reread s := by
  have hbyte : (UInt8.ofNat c.toNat).toNat = c.toNat := by
    rw [UInt8.toNat_ofNat', Nat.mod_eq_of_lt (show c.toNat < 2 ^ 8 by omega)]
  have hchar : windows1251 (UInt8.ofNat c.toNat) = c := by
    rw [windows1251_of_lt (by omega), hbyte, Char.ofNat_toNat]
  simp only [Platform.reread, p.encode_eq, List.flatMap_cons, p.encodeChar_ascii c hc, List.map_cons,
    hchar, List.singleton_append]

/-- A text of ASCII is read again. -/
theorem reread_ascii {s : JString} (hs : ∀ c ∈ s, c.toNat < 128) : p.reread s = s := by
  induction s with
  | nil => exact reread_nil p
  | cons c s ih =>
    obtain ⟨hc, hrest⟩ := List.forall_mem_cons.mp hs
    rw [reread_cons_ascii p hc, ih hrest]

/-- Any other character is read as what its bytes are. -/
theorem reread_char (c : Char) : p.reread [c] = (p.encodeChar c).map windows1251 := by
  rw [Platform.reread, p.encode_eq, List.flatMap_singleton]

/-- Another character is read as some others, or as a question mark. -/
theorem reread_singleton {c : Char} (hc : 128 ≤ c.toNat) :
    ∀ x ∈ p.reread [c], 128 ≤ x.toNat ∨ x = '?' := by
  intro x hx
  rw [reread_char, List.mem_map] at hx
  obtain ⟨b, hb, rfl⟩ := hx
  rcases p.encodeChar_other with hall | hone
  · exact Or.inl (le_windows1251 (hall c hc b hb))
  · obtain ⟨b', hb', hcase⟩ := hone c hc
    rw [hb', List.mem_singleton] at hb
    subst hb
    rcases hcase with hle | rfl
    · exact Or.inl (le_windows1251 hle)
    · exact Or.inr (by decide)

/-- What becomes of such a character is no character of ASCII, a question mark apart. -/
theorem ne_of_mem_reread {c x y : Char} (hc : 128 ≤ c.toNat) (hy : y.toNat < 128 ∧ y ≠ '?')
    (hx : x ∈ p.reread [c]) : x ≠ y := by
  rintro rfl
  rcases reread_singleton p hc x hx with hle | heq
  · omega
  · exact hy.2 heq

end reread

/-- The names of the tags. -/
def isPlainName (name : JString) : Bool :=
  Xml.isName name && name.all fun c => c.isAlphanum || c = '_'

/-- A part with such names. -/
def Part.isPlain : Part → Bool
  | .leaf name _ => isPlainName name
  | .block name leaves => isPlainName name && leaves.all fun leaf => isPlainName leaf.1

/-- The part with other texts. -/
def Part.map (f : JString → JString) : Part → Part
  | .leaf name text => .leaf name (f text)
  | .block name leaves => .block name (leaves.map fun leaf => (leaf.1, f leaf.2))

/-- The name of a part. -/
def Part.name : Part → JString
  | .leaf name _ => name
  | .block name _ => name

/-- The texts of a part. -/
def Part.texts : Part → List JString
  | .leaf _ text => [text]
  | .block _ leaves => leaves.map (·.2)

theorem Part.isPlain_map (f : JString → JString) (part : Part) : (part.map f).isPlain = part.isPlain := by
  rcases part with ⟨name, text⟩ | ⟨name, leaves⟩
  · rfl
  · rw [Part.map, Part.isPlain, Part.isPlain, List.all_map]
    rfl

theorem Part.name_map (f : JString → JString) (part : Part) : (part.map f).name = part.name := by
  rcases part with ⟨name, text⟩ | ⟨name, leaves⟩
  all_goals rfl

theorem Part.texts_map (f : JString → JString) (part : Part) : (part.map f).texts = part.texts.map f := by
  rcases part with ⟨name, text⟩ | ⟨name, leaves⟩
  · rfl
  · rw [Part.map, Part.texts, Part.texts, List.map_map, List.map_map]
    rfl

/-! ## Quiet characters -/

/-- A US-ASCII character that has no meaning in markup. -/
def isQuiet (c : Char) : Bool := c.toNat < 128 && c ≠ '<' && c ≠ '&' && c ≠ '!' && c ≠ '?'

/-- A quiet character is one of ASCII that begins no markup. -/
theorem isQuiet_iff {c : Char} :
    isQuiet c = true ↔ c.toNat < 128 ∧ c ≠ '<' ∧ c ≠ '&' ∧ c ≠ '!' ∧ c ≠ '?' := by
  simp [isQuiet, and_assoc]

theorem isQuiet_of_isAlphanum {c : Char} (h : c.isAlphanum = true) : isQuiet c = true := by
  have hlt : c.toNat < 128 := by
    simp only [Char.isAlphanum, Char.isAlpha, Char.isUpper, Char.isLower, Char.isDigit, Bool.or_eq_true,
      Bool.and_eq_true, decide_eq_true_eq, ge_iff_le, UInt32.le_iff_toNat_le] at h
    have hupper : 'Z'.val.toNat = 90 := rfl
    have hlower : 'z'.val.toNat = 122 := rfl
    have hdigit : '9'.val.toNat = 57 := rfl
    show c.val.toNat < 128
    omega
  refine isQuiet_iff.mpr ⟨hlt, ?_, ?_, ?_, ?_⟩
  all_goals
    rintro rfl
    exact absurd h (by decide)

/-- The names of the elements are quiet. -/
theorem isPlainName_quiet {name : JString} (h : isPlainName name = true) :
    ∀ c ∈ name, isQuiet c = true := by
  rw [isPlainName, Bool.and_eq_true] at h
  intro c hc
  have hchar := List.all_eq_true.mp h.2 c hc
  rw [Bool.or_eq_true, decide_eq_true_eq] at hchar
  rcases hchar with halnum | rfl
  · exact isQuiet_of_isAlphanum halnum
  · decide

theorem isQuiet_lt {c : Char} (h : isQuiet c = true) : c.toNat < 128 := (isQuiet_iff.mp h).1

/-- What holds of all digits holds of a number that is written. -/
theorem toDigits_all {q : Char → Bool} {base : ℕ} (hbase : 1 < base)
    (hq : ∀ d, d < base → q (Nat.digitChar d) = true) (n : ℕ) :
    ∀ c ∈ Nat.toDigits base n, q c = true := by
  induction n using Nat.strongRecOn with
  | _ n ih =>
    intro c hc
    rw [Nat.toDigits_eq_if hbase] at hc
    split_ifs at hc with hlt
    · rw [List.mem_singleton.mp hc]
      exact hq n hlt
    · rcases List.mem_append.mp hc with hc | hc
      · exact ih (n / base) (Nat.div_lt_self (by omega) hbase) c hc
      · rw [List.mem_singleton.mp hc]
        exact hq _ (Nat.mod_lt n (by omega))

/-- What holds of the digits and the sign holds of an integer that is written. -/
theorem intToString_all {q : Char → Bool} (hminus : q '-' = true)
    (hdigit : ∀ d, d < 10 → q (Nat.digitChar d) = true) (v : ℤ) : ∀ c ∈ intToString v, q c = true := by
  have hdigits : ∀ c ∈ Nat.toDigits 10 v.natAbs, q c = true := toDigits_all (by decide) hdigit v.natAbs
  unfold intToString
  split_ifs
  · exact List.forall_mem_cons.mpr ⟨hminus, hdigits⟩
  · exact hdigits

theorem intToString_quiet (v : ℤ) : ∀ c ∈ intToString v, isQuiet c = true :=
  intToString_all (by decide) (by decide) v

/-- What holds of the digits and of the name of the class holds of what `toString` makes of an array. -/
theorem arrayToString_all {q : Char → Bool} (hclass : ∀ c ∈ "[Ljava.lang.String;@".toList, q c = true)
    (hdigit : ∀ d, d < 16 → q (Nat.digitChar d) = true) (hash : UInt32) :
    ∀ c ∈ arrayToString hash, q c = true :=
  List.forall_mem_append.mpr ⟨hclass, toDigits_all (by decide) hdigit hash.toNat⟩

theorem arrayToString_quiet (hash : UInt32) : ∀ c ∈ arrayToString hash, isQuiet c = true :=
  arrayToString_all (List.all_eq_true.mp (by decide)) (by decide) hash

/-- A date begins no markup. -/
theorem date2str_quiet (p : Platform) (d : Option Date) : ∀ c ∈ p.date2str d, isQuiet c = true := by
  rcases d with _ | d
  · exact List.all_eq_true.mp (show "null".toList.all isQuiet = true by decide)
  · intro c hc
    rcases p.format_chars d c hc with hdigit | rfl | rfl | rfl
    · exact isQuiet_of_isAlphanum (by rw [Char.isAlphanum, hdigit, Bool.or_true])
    all_goals decide

/-- Base64 begins no markup. -/
theorem byteArrayToBase64_quiet (bytes : List UInt8) :
    ∀ c ∈ Base64.byteArrayToBase64 bytes, isQuiet c = true :=
  Base64.forall_mem_byteArrayToBase64 (List.all_eq_true.mp (by decide)) (by decide) bytes

/-! ## The parts as they are read -/

section parts

variable (p : Platform)

/-- An element is read again around what it contains. -/
theorem reread_written {name : JString} (hname : isPlainName name = true) (inner : JString) :
    p.reread (Xml.written name inner) = Xml.written name (p.reread inner) := by
  have hnames : p.reread name = name :=
    reread_ascii p fun c hc => isQuiet_lt (isPlainName_quiet hname c hc)
  have hclose : p.reread ['>'] = ['>'] := reread_ascii p (List.all_iff_forall_prop.mp (by decide))
  rw [Xml.written, reread_append, hnames, reread_cons_ascii p (by decide), reread_append,
    reread_cons_ascii p (by decide), reread_cons_ascii p (by decide), reread_append, hnames, hclose]
  rfl

theorem reread_lines (srcs : List JString) :
    p.reread (Xml.lines srcs) = Xml.lines (srcs.map p.reread) := by
  induction srcs with
  | nil => exact reread_ascii p (List.all_iff_forall_prop.mp (by decide))
  | cons src srcs ih =>
    rw [Xml.lines, reread_cons_ascii p (by decide), reread_cons_ascii p (by decide), reread_append, ih]
    rfl

/-- What is written of a part is read as the part with its texts read again. -/
theorem reread_src {part : Part} (h : part.isPlain = true) :
    p.reread part.src = (part.map p.reread).src := by
  rcases part with ⟨name, text⟩ | ⟨name, leaves⟩
  · exact reread_written p h text
  · rw [Part.isPlain, Bool.and_eq_true, List.all_eq_true] at h
    rw [Part.src, reread_written p h.1, reread_lines, Part.map, Part.src, List.map_map, List.map_map]
    congr 2
    exact List.map_congr_left fun leaf hleaf => reread_written p (h.2 leaf hleaf) leaf.2

/-- What is written of a message is read as the message with its texts read again. -/
theorem reread_render {header body : List Part} (hheader : ∀ part ∈ header, part.isPlain = true)
    (hbody : ∀ part ∈ body, part.isPlain = true) :
    p.reread (render header body)
      = render (header.map (Part.map p.reread)) (body.map (Part.map p.reread)) := by
  have hsrc : ∀ parts : List Part, (∀ part ∈ parts, part.isPlain = true) →
      (parts.map Part.src).map p.reread = (parts.map (Part.map p.reread)).map Part.src := by
    intro parts hparts
    rw [List.map_map, List.map_map]
    exact List.map_congr_left fun part hpart => reread_src p (hparts part hpart)
  have hdecl : p.reread xmlDecl = xmlDecl := reread_ascii p (List.all_iff_forall_prop.mp (by decide))
  rw [render, reread_append, hdecl, reread_cons_ascii p (by decide), reread_cons_ascii p (by decide),
    reread_written p (by decide), reread_lines, List.map_cons, reread_written p (by decide),
    reread_lines, hsrc header hheader, hsrc body hbody]
  rfl

end parts

end OrgLittle.Lmsg
