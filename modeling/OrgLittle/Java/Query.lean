import OrgLittle.Java.Text

/-!
# The query of a URL

A URL that is put together as a text goes through three readers: `new URI` checks its characters and cuts off a
fragment, the client writes the other characters as escapes, and the servlet container of the receiver divides the query
at `&` and at the first `=` and undoes the escapes. `parameters_query` names the texts that come through unchanged.
-/

namespace OrgLittle.Java

/-! ## `java.net.URI` -/

/-- The value of a hexadecimal digit. -/
def hexDigit (c : Char) : Option ℕ :=
  if c.isDigit then some (c.toNat - 48)
  else if 65 ≤ c.toNat ∧ c.toNat ≤ 70 then some (c.toNat - 55)
  else if 97 ≤ c.toNat ∧ c.toNat ≤ 102 then some (c.toNat - 87)
  else none

/-- The marks among the characters of `URIC`; the apostrophe is written by its number. -/
def uricMarks : List Char := Char.ofNat 39 :: ";/?:@&=+$,[]-_.!~*()".toList

/-- A character that is no escape in the class `URIC`. Behind ASCII these are all but controls and spaces. -/
def isUric (c : Char) : Bool :=
  if c.toNat < 128 then c.isAlphanum || decide (c ∈ uricMarks)
  else decide (160 < c.toNat ∧ ¬ (0x2000 ≤ c.toNat ∧ c.toNat ≤ 0x200a)
    ∧ c.toNat ∉ [0x1680, 0x180e, 0x2028, 0x2029, 0x202f, 0x205f, 0x3000])

/-- `URI.Parser.checkChars` with the class `URIC`. -/
def checkChars : JString → Bool
  | [] => true
  | '%' :: a :: b :: s => (hexDigit a).isSome && (hexDigit b).isSome && checkChars s
  | '%' :: _ => false
  | c :: s => isUric c && checkChars s

/-- The query of a URI, of which this text is all behind the question mark; `none` is a `URISyntaxException`. -/
def URI.rawQuery (s : JString) : Option JString :=
  if checkChars (s.takeWhile (· ≠ '#')) && checkChars (s.dropWhile (· ≠ '#')).tail then some (s.takeWhile (· ≠ '#'))
  else none

/-- A byte as an escape. -/
def appendEscape (b : UInt8) : JString :=
  ['%', (Nat.digitChar (b.toNat / 16)).toUpper, (Nat.digitChar (b.toNat % 16)).toUpper]

/-- `URI.toASCIIString`. The normal form of a text is left to `Normalizer`. -/
def toASCIIString (normalize : JString → JString) (s : JString) : JString :=
  if s.all fun c => c.toNat < 128 then s
  else (normalize s).flatMap fun c =>
    if c.toNat < 128 then [c] else (String.utf8EncodeChar c).flatMap appendEscape

/-! ## The parameters of a request -/

/-- The bytes of a name or a value; `none` if an escape is incomplete. -/
def unescapeBytes : JString → Option (List UInt8)
  | [] => some []
  | '%' :: a :: b :: s =>
    (hexDigit a).bind fun h => (hexDigit b).bind fun l => (unescapeBytes s).map (UInt8.ofNat (16 * h + l) :: ·)
  | '%' :: _ => none
  | c :: s => (unescapeBytes s).map ((if c = '+' then 32 else c2b c) :: ·)

/-- The parameters of the query that a servlet container receives. One with an incomplete escape is ignored. -/
def parameters (charset : Charset) (query : JString) : List (JString × JString) :=
  (query.splitOn '&').filterMap fun part =>
    (unescapeBytes (part.takeWhile (· ≠ '='))).bind fun name =>
      (unescapeBytes (part.dropWhile (· ≠ '=')).tail).map fun value => (charset.decode name, charset.decode value)

/-! ## Texts that come through -/

/-- The text of a query, put together without escapes. -/
def query (pairs : List (String × JString)) : JString :=
  ['&'].intercalate (pairs.map fun p => p.1.toList ++ '=' :: p.2)

/-- A character that every reader leaves as it is, inside a value. -/
def isPlain (c : Char) : Bool := decide (c.toNat < 128 ∧ c ∉ ['#', '%', '&', '+']) && isUric c

/-- A name and a value that come through. -/
def PlainPair (p : String × JString) : Prop :=
  (∀ c ∈ p.1.toList, isPlain c = true ∧ c ≠ '=') ∧ ∀ c ∈ p.2, isPlain c = true

instance (p : String × JString) : Decidable (PlainPair p) := inferInstanceAs (Decidable (_ ∧ _))

theorem isPlain_iff {c : Char} :
    isPlain c = true ↔ (c.toNat < 128 ∧ c ∉ ['#', '%', '&', '+']) ∧ isUric c = true := by
  rw [isPlain, Bool.and_eq_true, decide_eq_true_eq]

theorem ne_of_isPlain {c d : Char} (h : isPlain c = true) (hd : d ∈ ['#', '%', '&', '+']) : c ≠ d := by
  rintro rfl
  exact (isPlain_iff.mp h).1.2 hd

theorem checkChars_cons {c : Char} (h : c ≠ '%') (s : JString) : checkChars (c :: s) = (isUric c && checkChars s) := by
  rw [checkChars]
  · exact fun _ _ _ heq _ => h heq
  · exact h

theorem unescapeBytes_cons {c : Char} (h : c ≠ '%') (s : JString) :
    unescapeBytes (c :: s) = (unescapeBytes s).map ((if c = '+' then 32 else c2b c) :: ·) := by
  rw [unescapeBytes]
  · exact fun _ _ _ heq _ => h heq
  · exact h

theorem checkChars_of_forall {s : JString} (h : ∀ c ∈ s, isUric c = true ∧ c ≠ '%') : checkChars s = true := by
  induction s with
  | nil => rfl
  | cons c s ih =>
    rw [List.forall_mem_cons] at h
    rw [checkChars_cons h.1.2, h.1.1, ih h.2, Bool.and_self]

theorem unescapeBytes_of_isPlain {s : JString} (h : ∀ c ∈ s, isPlain c = true) :
    unescapeBytes s = some (s.map c2b) := by
  induction s with
  | nil => rfl
  | cons c s ih =>
    rw [List.forall_mem_cons] at h
    rw [unescapeBytes_cons (ne_of_isPlain h.1 (by decide)), ih h.2, if_neg (ne_of_isPlain h.1 (by decide))]
    rfl

/-- A plain text is what its bytes are decoded to. -/
theorem decode_map_c2b (charset : Charset) {s : JString} (h : ∀ c ∈ s, isPlain c = true) :
    charset.decode (s.map c2b) = s := by
  have hlt : ∀ c ∈ s, c.toNat < 128 := fun c hc => (isPlain_iff.mp (h c hc)).1.1
  have hwrite : s.map c2b = writeAscii s := by
    rw [writeAscii, List.map_eq_flatMap]
    refine List.flatMap_congr fun c hc => ?_
    have := hlt c hc
    rw [if_neg (by omega)]
  have hascii : IsAscii (s.map c2b) := by
    intro b hb
    obtain ⟨c, hc, rfl⟩ := List.mem_map.mp hb
    have := hlt c hc
    rw [c2b, if_neg (by omega), UInt8.toNat_ofNat']
    omega
  rw [charset.decode_ascii _ hascii, hwrite, asciiString_writeAscii hlt]

/-- The characters of a query. -/
theorem mem_query {pairs : List (String × JString)} (h : ∀ p ∈ pairs, PlainPair p) {c : Char} (hc : c ∈ query pairs) :
    isPlain c = true ∨ c = '&' := by
  induction pairs with
  | nil => cases hc
  | cons p pairs ih =>
    rw [List.forall_mem_cons] at h
    have hpart : ∀ d ∈ p.1.toList ++ '=' :: p.2, isPlain d = true := by
      intro d hd
      rw [List.mem_append, List.mem_cons] at hd
      rcases hd with hd | rfl | hd
      · exact (h.1.1 d hd).1
      · decide
      · exact h.1.2 d hd
    cases pairs with
    | nil =>
      rw [query, List.map_singleton, List.intercalate_singleton] at hc
      exact Or.inl (hpart c hc)
    | cons q pairs =>
      rw [query, List.map_cons, List.intercalate_cons_of_ne_nil (by simp), List.mem_append, List.mem_append,
        List.mem_singleton] at hc
      rcases hc with (hc | hc) | hc
      · exact Or.inl (hpart c hc)
      · exact Or.inr hc
      · exact ih h.2 hc

/-- A query of plain names and values is sent and read as it is meant. -/
theorem parameters_query (charset : Charset) (normalize : JString → JString) {pairs : List (String × JString)}
    (hne : pairs ≠ []) (h : ∀ p ∈ pairs, PlainPair p) :
    (URI.rawQuery (query pairs)).map (fun q => parameters charset (toASCIIString normalize q))
      = some (pairs.map fun p => (p.1.toList, p.2)) := by
  have hchar : ∀ c ∈ query pairs, (isUric c = true ∧ c ≠ '%') ∧ c ≠ '#' ∧ c.toNat < 128 := by
    intro c hc
    rcases mem_query h hc with hplain | rfl
    · exact ⟨⟨(isPlain_iff.mp hplain).2, ne_of_isPlain hplain (by decide)⟩, ne_of_isPlain hplain (by decide),
        (isPlain_iff.mp hplain).1.1⟩
    · decide
  have htake : (query pairs).takeWhile (· ≠ '#') = query pairs :=
    List.takeWhile_eq_self_iff.mpr fun c hc => decide_eq_true (hchar c hc).2.1
  have hdrop : (query pairs).dropWhile (· ≠ '#') = [] :=
    List.dropWhile_eq_nil_iff.mpr fun c hc => decide_eq_true (hchar c hc).2.1
  have hascii : toASCIIString normalize (query pairs) = query pairs :=
    if_pos (List.all_eq_true.mpr fun c hc => decide_eq_true (hchar c hc).2.2)
  have hcheck : checkChars (query pairs) = true := checkChars_of_forall fun c hc => (hchar c hc).1
  rw [URI.rawQuery, htake, hdrop, List.tail_nil, hcheck, checkChars, Bool.and_self, if_pos rfl, Option.map_some, hascii]
  refine congrArg some ?_
  -- the parts are read one by one
  have hsplit : (query pairs).splitOn '&' = pairs.map fun p => p.1.toList ++ '=' :: p.2 := by
    refine List.splitOn_intercalate '&' (fun part hpart => ?_) (by simpa using hne)
    obtain ⟨p, hp, rfl⟩ := List.mem_map.mp hpart
    rw [List.mem_append, List.mem_cons]
    rintro (hmem | heq | hmem)
    · exact ne_of_isPlain ((h p hp).1 _ hmem).1 (by decide) rfl
    · cases heq
    · exact ne_of_isPlain ((h p hp).2 _ hmem) (by decide) rfl
  rw [parameters, hsplit, List.filterMap_map, ← List.filterMap_eq_map]
  refine List.filterMap_congr fun p hp => ?_
  obtain ⟨hname, hvalue⟩ := h p hp
  have hnot : ∀ c ∈ p.1.toList, decide (c ≠ '=') = true := fun c hc => decide_eq_true (hname c hc).2
  rw [Function.comp_apply, List.takeWhile_append_of_pos hnot, List.takeWhile_cons_of_neg (by decide), List.append_nil,
    List.dropWhile_append_of_pos hnot, List.dropWhile_cons_of_neg (by decide), List.tail_cons,
    unescapeBytes_of_isPlain fun c hc => (hname c hc).1, unescapeBytes_of_isPlain hvalue, Option.bind_some,
    Option.map_some, decode_map_c2b charset fun c hc => (hname c hc).1, decode_map_c2b charset hvalue]
  rfl

end OrgLittle.Java
