import OrgLittle.Imap.CommandDecoder

/-!
# Lines that the decoder cannot read

A whole line that arrives at once is either decoded to a command, or refused as a corrupted or too long
frame, but for two kinds of lines. Where a parameter has to begin, `decodeAtom` takes the first character of
its text without looking whether there is one: behind a blank or an opening parenthesis at the end of the line
there is none. And the text between braces is handed to `Integer.parseInt` as it is. `Stuck` describes these
lines (`lineDecoded_iff`).
-/

namespace OrgLittle.Imap

open OrgLittle.Java OrgLittle.Lib

/-! ## Walks -/

/-- A walk takes the bytes of `text` and stops at the first byte of `rest`. -/
structure Walks (max : ℕ) (visit : UInt8 → Visit) (bytes text rest : List UInt8) : Prop where
  eq : bytes = text ++ rest
  take : ∀ value ∈ text, visit value = .take
  length : text.length ≤ max
  stop : ∃ value tail, rest = value :: tail ∧ visit value = .stop

section walks

variable {max : ℕ} {visit : UInt8 → Visit} {bytes text rest : List UInt8}

/-- The bytes that are taken are put behind those taken before. -/
theorem forEachByte_append (htake : ∀ value ∈ text, visit value = .take) (seq : JString)
    (hlength : seq.length + text.length ≤ max) : forEachByte max visit seq (text ++ rest)
      = forEachByte max visit (seq ++ text.map signedChar) rest := by
  induction text generalizing seq with
  | nil => rw [List.nil_append, List.map_nil, List.append_nil]
  | cons value text ih =>
    rw [List.length_cons] at hlength
    rw [List.cons_append, forEachByte, htake value List.mem_cons_self]
    show (if max ≤ seq.length then _ else _) = _
    rw [if_neg (by omega), ih (fun x hx => htake x (List.mem_cons_of_mem value hx))
      _ (by rw [List.length_append, List.length_singleton]; omega), List.map_cons, List.append_assoc,
      List.singleton_append]

/-- The loop reads a text and stops where the walk does. -/
theorem Walks.forEachByte (h : Walks max visit bytes text rest) :
    Imap.forEachByte max visit [] bytes = (text.map signedChar, .ok (some rest)) := by
  obtain ⟨value, tail, hrest, hstop⟩ := h.stop
  rw [h.eq, forEachByte_append h.take [] (by simpa using h.length), hrest, Imap.forEachByte, hstop]
  rfl

/-- There is one walk at most. -/
theorem Walks.unique (h : Walks max visit bytes text rest) {text' rest' : List UInt8}
    (h' : Walks max visit bytes text' rest') : text = text' ∧ rest = rest' := by
  have hrest : rest = rest' := by
    have heq := h.forEachByte.symm.trans h'.forEachByte
    simpa using congrArg Prod.snd heq
  refine ⟨?_, hrest⟩
  have hbytes := h.eq.symm.trans h'.eq
  rw [hrest] at hbytes
  exact List.append_cancel_right hbytes

/-- The text of a walk is not longer than the buffer. -/
theorem length_of_forEachByte {seq seq' : JString} (hseq : seq.length ≤ max)
    {r : Option (List UInt8)} (h : forEachByte max visit seq bytes = (seq', .ok r)) : seq'.length ≤ max := by
  induction bytes generalizing seq with
  | nil =>
    cases h
    exact hseq
  | cons value bytes ih =>
    rw [forEachByte] at h
    cases hvisit : visit value with
    | stop =>
      rw [hvisit] at h
      cases h
      exact hseq
    | fail e => rw [hvisit] at h; cases h
    | take =>
      rw [hvisit] at h
      dsimp only at h
      split_ifs at h with hlong
      · cases h
      · exact ih (by rw [List.length_append, List.length_singleton]; omega) h

/-- What a walk that starts with an empty buffer can do. -/
theorem forEachByte_cases (max : ℕ) {value : UInt8} (hmem : value ∈ bytes) (hvisit : visit value ≠ .take) :
    (∃ text rest, Walks max visit bytes text rest)
      ∨ ∃ seq e, forEachByte max visit [] bytes = (seq, .error e)
        ∧ (e = .tooLongFrame ∨ ∃ v, visit v = .fail e) := by
  rcases hwalk : forEachByte max visit [] bytes with ⟨seq, e | _ | rest⟩
  · refine Or.inr ⟨seq, e, rfl, ?_⟩
    clear hmem
    generalize ([] : JString) = start at hwalk
    induction bytes generalizing start with
    | nil => cases hwalk
    | cons first bytes ih =>
      rw [forEachByte] at hwalk
      cases hfirst : visit first with
      | stop => rw [hfirst] at hwalk; cases hwalk
      | fail e' =>
        rw [hfirst] at hwalk
        cases hwalk
        exact Or.inr ⟨first, hfirst⟩
      | take =>
        rw [hfirst] at hwalk
        dsimp only at hwalk
        split_ifs at hwalk
        · cases hwalk
          exact Or.inl rfl
        · exact ih _ hwalk
  · exact absurd hwalk (forEachByte_ne_none hmem hvisit [] seq)
  · obtain ⟨hbytes, hseq, hstop⟩ := forEachByte_eq_some hwalk
    have hlength := length_of_forEachByte (Nat.zero_le max) hwalk
    rw [hseq, List.nil_append, List.length_map] at hlength
    refine Or.inl ⟨_, rest, hbytes, fun v hv => ?_, hlength, hstop⟩
    simpa using List.mem_takeWhile_imp hv

end walks

/-! ## Lines -/

/-- Bytes that end with the only line end in them. -/
def IsLine (bytes : List UInt8) : Prop := ∃ line, bytes = line ++ CRLF ∧ CR ∉ line ∧ LF ∉ line

theorem IsLine.tail {value : UInt8} {bytes : List UInt8} (h : IsLine (value :: bytes)) (hvalue : value ≠ CR) :
    IsLine bytes := by
  obtain ⟨line, heq, hcr, hlf⟩ := h
  cases line with
  | nil => exact absurd (List.cons.inj heq).1 hvalue
  | cons first line =>
    rw [List.mem_cons, not_or] at hcr hlf
    exact ⟨line, (List.cons.inj heq).2, hcr.2, hlf.2⟩

/-- What is behind a part of a line is a line, if the part has no end of line. -/
theorem IsLine.append {text rest : List UInt8} (h : IsLine (text ++ rest)) (htext : CR ∉ text) : IsLine rest := by
  induction text with
  | nil => exact h
  | cons value text ih =>
    rw [List.mem_cons, not_or] at htext
    exact ih (IsLine.tail h (Ne.symm htext.1)) htext.2

/-- A line has its end. -/
theorem IsLine.mem {bytes : List UInt8} (h : IsLine bytes) : CR ∈ bytes := by
  obtain ⟨line, rfl, -, -⟩ := h
  exact List.mem_append_right _ List.mem_cons_self

/-- Behind a carriage return comes the line feed, and no more. -/
theorem IsLine.eq_of_CR {bytes : List UInt8} (h : IsLine (CR :: bytes)) : bytes = [LF] := by
  obtain ⟨line, heq, hcr, -⟩ := h
  cases line with
  | nil => exact (List.cons.inj heq).2
  | cons first line =>
    rw [(List.cons.inj heq).1] at hcr
    exact absurd List.mem_cons_self hcr

/-- A line does not begin with a line feed. -/
theorem IsLine.ne_LF {value : UInt8} {bytes : List UInt8} (h : IsLine (value :: bytes)) : value ≠ LF := by
  obtain ⟨line, heq, -, hlf⟩ := h
  cases line with
  | nil =>
    rw [(List.cons.inj heq).1]
    decide
  | cons first line =>
    rw [(List.cons.inj heq).1]
    exact fun hfirst => hlf (hfirst ▸ List.mem_cons_self)

theorem IsLine.ne_nil {bytes : List UInt8} (h : IsLine bytes) : bytes ≠ [] := List.ne_nil_of_mem h.mem

/-- The walk over a line leaves a line. -/
theorem Walks.isLine {max : ℕ} {visit : UInt8 → Visit} {bytes text rest : List UInt8}
    (h : Walks max visit bytes text rest) (hcr : visit CR ≠ .take) (hline : IsLine bytes) : IsLine rest := by
  apply IsLine.append (h.eq ▸ hline)
  exact fun hmem => hcr (h.take CR hmem)

/-- Behind the byte that ends a walk over a line, there is a shorter line. -/
theorem Walks.behind {max : ℕ} {visit : UInt8 → Visit} {bytes text rest : List UInt8}
    (h : Walks max visit bytes text rest) (htake : visit CR ≠ .take) (hstop : visit CR ≠ .stop) (hline : IsLine bytes) :
    IsLine (rest.drop 1) ∧ (rest.drop 1).length < bytes.length := by
  have hrest := h.isLine htake hline
  obtain ⟨v, after, rfl, hv⟩ := h.stop
  refine ⟨hrest.tail fun hcr => hstop (hcr ▸ hv), ?_⟩
  rw [h.eq, List.drop_one, List.tail_cons, List.length_append, List.length_cons]
  omega

open ImapParameterDecoder

/-- The text between braces, less a plus sign at its end, is an `int`. -/
def IsLiteralLength (text : JString) : Prop :=
  ∃ n, parseInt (if text.getLast? = some '+' then text.dropLast else text) = some n

/-- The parameters of a line cannot be read: from left to right they can, up to a place where a parameter has to
begin (`true`) and the line ends, or where the text between braces is no number. -/
inductive Stuck : Bool → List UInt8 → Prop
  | lineEnd (bytes : List UInt8) : Stuck true (CR :: bytes)
  | number {bytes text rest : List UInt8} (hwalk : Walks MAX_ATOM_LENGTH literalVisit bytes text rest)
      (hnumber : ¬ IsLiteralLength (text.map signedChar)) : Stuck true (OPEN_BRACKET :: bytes)
  | blank (expecting : Bool) {bytes : List UInt8} (h : Stuck true bytes) : Stuck expecting (SP :: bytes)
  | closeList (expecting : Bool) {bytes : List UInt8} (h : Stuck false bytes) :
      Stuck expecting (CLOSE_PARENTHESES :: bytes)
  | openList {bytes : List UInt8} (h : Stuck true bytes) : Stuck true (OPEN_PARENTHESES :: bytes)
  | quotedString {bytes text rest : List UInt8} (hwalk : Walks MAX_ATOM_LENGTH quotedVisit bytes text rest)
      (h : Stuck false (rest.drop 1)) : Stuck true (QUOTE :: bytes)
  | literal {bytes text rest : List UInt8} (hwalk : Walks MAX_ATOM_LENGTH literalVisit bytes text rest)
      (hnumber : IsLiteralLength (text.map signedChar)) (h : Stuck false (rest.drop 1)) :
      Stuck true (OPEN_BRACKET :: bytes)
  | atom (expecting : Bool) {value : UInt8} {bytes text rest : List UInt8}
      (hbegins : expecting = true ∨ value = CLOSE_SQUARE) (hstart : parameterStart value = .READ_ATOM)
      (hwalk : Walks MAX_ATOM_LENGTH (atomVisit false) (value :: bytes) (value :: text) rest)
      (h : Stuck false rest) : Stuck expecting (value :: bytes)

namespace ImapParameterDecoder

/-- The decoder between two parameters, or where a parameter is expected. -/
def between (expecting : Bool) : ImapParameterDecoder :=
  { reset false with currentState := if expecting = true then .EMPTY else .NEXT }

/-! ### One call of `next` -/

section next

variable {bytes text rest : List UInt8}

/-- A blank makes the decoder expect a parameter. -/
theorem next_blank (expecting : Bool) : (between expecting).next (SP :: bytes) = (between true).next bytes := by
  cases expecting
  · rw [next, between]
    rfl
  · rw [next, between]
    rfl

/-- A closing parenthesis is a parameter wherever it stands. -/
theorem next_closeList (expecting : Bool) :
    (between expecting).next (CLOSE_PARENTHESES :: bytes) = ⟨between false, bytes, .ok (some .closeList)⟩ := by
  cases expecting
  · rw [next, between]
    rfl
  · rw [next, between]
    rfl

/-- An opening parenthesis is one where a parameter is expected. -/
theorem next_openList :
    (between true).next (OPEN_PARENTHESES :: bytes) = ⟨between true, bytes, .ok (some .openList)⟩ := by
  rw [next, between]
  rfl

/-- The state while a parameter is read. -/
def reading (state : ParameterState) : ImapParameterDecoder := { reset false with currentState := state }

/-- A quote begins a quoted text. -/
theorem next_quote : (between true).next (QUOTE :: bytes)
    = decodeQuotedString (reading .READ_QUOTED_STRING) (QUOTE :: bytes) := by
  rw [next, between]
  rfl

/-- A brace begins the length of a literal. -/
theorem next_bracket : (between true).next (OPEN_BRACKET :: bytes)
    = decodeLiteralLength (reading .READ_LITERAL_LENGTH) (OPEN_BRACKET :: bytes) := by
  rw [next, between]
  rfl

/-- Any other byte that may begin an atom begins one. -/
theorem next_atom {expecting : Bool} {value : UInt8} (hbegins : expecting = true ∨ value = CLOSE_SQUARE)
    (hstart : parameterStart value = .READ_ATOM) (hsp : value ≠ SP) :
    (between expecting).next (value :: bytes) = decodeAtom (reading .READ_ATOM) (value :: bytes) := by
  cases expecting with
  | true =>
    rw [next, between]
    show (if value = SP then _ else read { between true with currentState := parameterStart value } _) = _
    rw [if_neg hsp, hstart]
    rfl
  | false =>
    obtain rfl := hbegins.resolve_left (by decide)
    rw [next, between]
    rfl

/-- At the end of the line the decoder is done. -/
theorem next_lineEnd : (between false).next CRLF = ⟨reading .Ended, [], .ok none⟩ := by
  rw [CRLF, between, reset, next]
  rfl

/-- Where no parameter is expected, no other byte may stand. -/
theorem next_other {value : UInt8} (hsp : value ≠ SP) (hcr : value ≠ CR) (hlf : value ≠ LF)
    (hsquare : value ≠ CLOSE_SQUARE) (hclose : value ≠ CLOSE_PARENTHESES) :
    (between false).next (value :: bytes) = ⟨between false, value :: bytes, .error .corruptedFrame⟩ := by
  rw [next, between]
  show (if value = SP then _ else if value = CR then _ else if value = LF then _ else
    if value = CLOSE_SQUARE ∧ _ then _ else if value = CLOSE_SQUARE ∨ value = CLOSE_PARENTHESES then _ else _) = _
  rw [if_neg hsp, if_neg hcr, if_neg hlf, if_neg (fun h => hsquare h.1), if_neg (not_or.mpr ⟨hsquare, hclose⟩)]

/-- At the end of the line there is no first character. -/
theorem next_missing : ∃ d r, (between true).next (CR :: bytes) = ⟨d, r, .error .indexOutOfBounds⟩ := by
  rw [next_atom (.inl rfl) (by decide) (by decide), decodeAtom, forEachByte]
  exact ⟨_, _, rfl⟩

/-- A quoted text is read up to the closing quote. -/
theorem decodeQuotedString_walks (h : Walks MAX_ATOM_LENGTH quotedVisit bytes text rest) :
    decodeQuotedString (reading .READ_QUOTED_STRING) (QUOTE :: bytes)
      = ⟨between false, rest.drop 1, .ok (some (.quotedString (text.map signedChar)))⟩ := by
  have hseq : (reading .READ_QUOTED_STRING).seq = [] := rfl
  rw [decodeQuotedString, List.drop_succ_cons, List.drop_zero, hseq, h.forEachByte]
  rfl

/-- An atom is read up to the byte that ends it. -/
theorem decodeAtom_walks {value : UInt8}
    (h : Walks MAX_ATOM_LENGTH (atomVisit false) (value :: bytes) (value :: text) rest) :
    decodeAtom (reading .READ_ATOM) (value :: bytes)
      = ⟨between false, rest, .ok (some (.ofAtom ((value :: text).map signedChar)))⟩ := by
  have hstatus : (reading .READ_ATOM).statusParameter = false := rfl
  rw [decodeAtom, hstatus, h.forEachByte]
  rfl

/-- What is read as the length of a literal. -/
theorem literalLength_eq (v : JString) : (∃ n, literalLength v = .ok n) ↔ IsLiteralLength v := by
  unfold literalLength IsLiteralLength
  cases hlast : v.getLast? with
  | none =>
    rw [List.getLast?_eq_none_iff.mp hlast]
    exact iff_of_false (by simp) (by simp [show parseInt [] = none from rfl])
  | some c =>
    simp only [Option.some_inj]
    cases parseInt (if c = '+' then v.dropLast else v) <;> simp

/-- A length is read up to the closing brace. -/
theorem decodeLiteralLength_walks (h : Walks MAX_ATOM_LENGTH literalVisit bytes text rest)
    (hnumber : IsLiteralLength (text.map signedChar)) : ∃ p,
    decodeLiteralLength (reading .READ_LITERAL_LENGTH) (OPEN_BRACKET :: bytes)
      = ⟨between false, rest.drop 1, .ok (some p)⟩ := by
  have hseq : (reading .READ_LITERAL_LENGTH).seq = [] := rfl
  obtain ⟨n, hn⟩ := (literalLength_eq _).mpr hnumber
  rw [decodeLiteralLength, List.drop_succ_cons, List.drop_zero, hseq, h.forEachByte]
  dsimp only
  rw [hn]
  exact ⟨_, rfl⟩

/-- Braces around a text that is no number. -/
theorem decodeLiteralLength_number (h : Walks MAX_ATOM_LENGTH literalVisit bytes text rest)
    (hnumber : ¬ IsLiteralLength (text.map signedChar)) : ∃ d r e,
    decodeLiteralLength (reading .READ_LITERAL_LENGTH) (OPEN_BRACKET :: bytes) = ⟨d, r, .error e⟩
      ∧ (e = .indexOutOfBounds ∨ e = .numberFormat) := by
  have hseq : (reading .READ_LITERAL_LENGTH).seq = [] := rfl
  rw [decodeLiteralLength, List.drop_succ_cons, List.drop_zero, hseq, h.forEachByte]
  dsimp only
  cases hlength : literalLength (text.map signedChar) with
  | ok n => exact absurd ((literalLength_eq _).mp ⟨n, hlength⟩) hnumber
  | error e =>
    refine ⟨_, _, e, rfl, ?_⟩
    unfold literalLength at hlength
    split at hlength
    · exact .inl (Except.error.inj hlength).symm
    · split at hlength
      · exact .inr (Except.error.inj hlength).symm
      · cases hlength

/-! ### Walks over a line -/

/-- The exceptions that a line may end with. -/
def Refused (e : JavaException) : Prop := e = .corruptedFrame ∨ e = .tooLongFrame

/-- An exception of a visitor for a bad byte, or for too many, refuses the line. -/
theorem refused_of_visit {visit : UInt8 → Visit} (hvisit : ∀ v e, visit v = .fail e → e = .corruptedFrame)
    {e : JavaException} (h : e = .tooLongFrame ∨ ∃ v, visit v = .fail e) : Refused e := by
  rcases h with rfl | ⟨v, hv⟩
  · exact .inr rfl
  · exact .inl (hvisit v e hv)

/-- A quoted text is read, or the line is refused. -/
theorem quotedString_cases (hline : IsLine bytes) :
    (∃ text rest, Walks MAX_ATOM_LENGTH quotedVisit bytes text rest)
      ∨ ∃ d r e, (between true).next (QUOTE :: bytes) = ⟨d, r, .error e⟩ ∧ Refused e := by
  have hfail : ∀ v e, quotedVisit v = .fail e → e = .corruptedFrame := by
    intro v e h
    unfold quotedVisit at h
    split_ifs at h
    exact (Visit.fail.inj h).symm
  refine (forEachByte_cases MAX_ATOM_LENGTH hline.mem (by decide)).imp_right ?_
  rintro ⟨seq, e, hwalk, he⟩
  have hseq : (reading .READ_QUOTED_STRING).seq = [] := rfl
  rw [next_quote, decodeQuotedString, List.drop_succ_cons, List.drop_zero, hseq, hwalk]
  exact ⟨_, _, e, rfl, refused_of_visit hfail he⟩

/-- The length of a literal is read, or the line is refused. -/
theorem literalLength_cases (hline : IsLine bytes) :
    (∃ text rest, Walks MAX_ATOM_LENGTH literalVisit bytes text rest)
      ∨ ∃ d r e, (between true).next (OPEN_BRACKET :: bytes) = ⟨d, r, .error e⟩ ∧ Refused e := by
  have hfail : ∀ v e, literalVisit v = .fail e → e = .corruptedFrame := by
    intro v e h
    unfold literalVisit at h
    split_ifs at h
    exact (Visit.fail.inj h).symm
  refine (forEachByte_cases MAX_ATOM_LENGTH hline.mem (by decide)).imp_right ?_
  rintro ⟨seq, e, hwalk, he⟩
  have hseq : (reading .READ_LITERAL_LENGTH).seq = [] := rfl
  rw [next_bracket, decodeLiteralLength, List.drop_succ_cons, List.drop_zero, hseq, hwalk]
  exact ⟨_, _, e, rfl, refused_of_visit hfail he⟩

/-- An atom is read, or the line is refused. -/
theorem atom_cases {expecting : Bool} {value : UInt8} (hline : IsLine (value :: bytes))
    (hbegins : expecting = true ∨ value = CLOSE_SQUARE) (hstart : parameterStart value = .READ_ATOM)
    (htake : atomVisit false value = .take) :
    (∃ text rest, Walks MAX_ATOM_LENGTH (atomVisit false) (value :: bytes) (value :: text) rest)
      ∨ ∃ d r e, (between expecting).next (value :: bytes) = ⟨d, r, .error e⟩ ∧ Refused e := by
  have hfail : ∀ v e, atomVisit false v = .fail e → e = .corruptedFrame := by
    intro v e h
    unfold atomVisit at h
    split_ifs at h
  have hcr : atomVisit false CR ≠ .take := by decide
  refine (forEachByte_cases MAX_ATOM_LENGTH hline.mem hcr).imp ?_ ?_
  · rintro ⟨text, rest, hwalk⟩
    -- the first byte belongs to the atom
    cases text with
    | nil =>
      obtain ⟨v, tail, hrest, hstop⟩ := hwalk.stop
      have hfirst := hwalk.eq.trans hrest
      rw [← (List.cons.inj hfirst).1, htake] at hstop
      cases hstop
    | cons first text =>
      obtain ⟨rfl, -⟩ := List.cons.inj hwalk.eq
      exact ⟨text, rest, hwalk⟩
  · rintro ⟨seq, e, hwalk, he⟩
    have hstatus : (reading .READ_ATOM).statusParameter = false := rfl
    rw [next_atom hbegins hstart (by rintro rfl; cases htake), decodeAtom, hstatus, hwalk]
    exact ⟨_, _, e, rfl, refused_of_visit hfail he⟩

end next

end ImapParameterDecoder

namespace ImapCommandDecoder

/-! ### The loop over the parameters -/

section readParameters

variable {s : ImapCommandDecoder} {bytes rest : List UInt8} {d : ImapParameterDecoder}

/-- A parameter is put behind those that were read. -/
theorem readParameters_some {p : ImapCommandParameter} (h : s.paramDecoder.next bytes = ⟨d, rest, .ok (some p)⟩)
    (fuel : ℕ) : readParameters (fuel + 1) s bytes
      = readParameters fuel { s with paramDecoder := d, params := s.params ++ [p] } rest := by
  rw [readParameters, h]

/-- The end of the line ends the loop. -/
theorem readParameters_none (h : s.paramDecoder.next bytes = ⟨d, rest, .ok none⟩) (fuel : ℕ) :
    readParameters (fuel + 1) s bytes = ({ s with paramDecoder := d }, rest, .ok ()) := by
  rw [readParameters, h]

/-- An exception ends the loop as well. -/
theorem readParameters_error {e : JavaException} (h : s.paramDecoder.next bytes = ⟨d, rest, .error e⟩)
    (fuel : ℕ) : readParameters (fuel + 1) s bytes = ({ s with paramDecoder := d }, rest, .error e) := by
  rw [readParameters, h]

theorem next_of_eq {expecting : Bool} {n : Next} (hs : s.paramDecoder = between expecting)
    (h : (between expecting).next bytes = n) : s.paramDecoder.next bytes = n := by
  rw [hs, h]

/-- Blanks are read within a call of `next`. -/
theorem readParameters_blank {expecting : Bool} (hs : s.paramDecoder = between expecting) (fuel : ℕ) :
    readParameters (fuel + 1) s (SP :: bytes)
      = readParameters (fuel + 1) { s with paramDecoder := between true } bytes := by
  rw [readParameters, readParameters, hs, next_blank]

/-- All parameters were read up to the end of the line, or the line is refused. -/
def ParametersDecoded (r : ImapCommandDecoder × List UInt8 × Except JavaException Unit) : Prop :=
  (r.1.paramDecoder.currentState = .Ended ∧ r.2.1 = [] ∧ r.2.2 = .ok ()) ∨ ∃ e, r.2.2 = .error e ∧ Refused e

/-- An exception that does not refuse the line is no decoding. -/
theorem not_parametersDecoded_of_error {e : JavaException} (he : ¬ Refused e) :
    ¬ ParametersDecoded (s, bytes, .error e) := by
  rintro (⟨-, -, h⟩ | ⟨e', h, hrefused⟩)
  · cases h
  · exact he (Except.error.inj h ▸ hrefused)

theorem parametersDecoded_of_error {e : JavaException} (he : Refused e) :
    ParametersDecoded (s, bytes, .error e) := .inr ⟨e, rfl, he⟩

theorem not_refused_index : ¬ Refused .indexOutOfBounds := by
  rintro (h | h) <;> cases h

theorem not_refused_number : ¬ Refused .numberFormat := by
  rintro (h | h) <;> cases h

/-- A walk goes forward. -/
theorem Walks.length_le {max : ℕ} {visit : UInt8 → Visit} {text : List UInt8}
    (h : Walks max visit bytes text rest) : rest.length ≤ bytes.length := by
  rw [h.eq, List.length_append]
  omega

end readParameters

/-- A line that is stuck is not decoded. The induction follows the way to the place where it is stuck. -/
theorem not_parametersDecoded {expecting : Bool} {bytes : List UInt8} (h : Stuck expecting bytes) :
    ∀ {s : ImapCommandDecoder} {fuel : ℕ}, s.paramDecoder = between expecting → bytes.length < fuel →
      ¬ ParametersDecoded (readParameters fuel s bytes) := by
  -- By induction on the way to the place where the line is stuck: each parameter on it takes fuel and bytes.
  induction h with
  | lineEnd bytes =>
    intro s fuel hs hfuel
    obtain ⟨fuel, rfl⟩ := Nat.exists_eq_add_of_lt (Nat.zero_lt_of_lt hfuel)
    obtain ⟨d, r, hnext⟩ : ∃ d r, (between true).next (CR :: bytes) = ⟨d, r, .error .indexOutOfBounds⟩ := next_missing
    rw [← hs] at hnext
    rw [Nat.zero_add, readParameters_error hnext]
    exact not_parametersDecoded_of_error not_refused_index
  | number hwalk hnumber =>
    intro s fuel hs hfuel
    obtain ⟨fuel, rfl⟩ := Nat.exists_eq_add_of_lt (Nat.zero_lt_of_lt hfuel)
    obtain ⟨d, r, e, hnext, he⟩ := decodeLiteralLength_number hwalk hnumber
    rw [← next_bracket, ← hs] at hnext
    rw [Nat.zero_add, readParameters_error hnext]
    apply not_parametersDecoded_of_error
    rcases he with rfl | rfl
    · exact not_refused_index
    · exact not_refused_number
  | blank expecting h ih =>
    intro s fuel hs hfuel
    obtain ⟨fuel, rfl⟩ := Nat.exists_eq_add_of_lt (Nat.zero_lt_of_lt hfuel)
    rw [Nat.zero_add, readParameters_blank hs]
    rw [List.length_cons] at hfuel
    exact ih rfl (by omega)
  | closeList expecting h ih =>
    intro s fuel hs hfuel
    obtain ⟨fuel, rfl⟩ := Nat.exists_eq_add_of_lt (Nat.zero_lt_of_lt hfuel)
    rw [Nat.zero_add, readParameters_some (next_of_eq hs (next_closeList expecting))]
    rw [List.length_cons] at hfuel
    exact ih rfl (by omega)
  | openList h ih =>
    intro s fuel hs hfuel
    obtain ⟨fuel, rfl⟩ := Nat.exists_eq_add_of_lt (Nat.zero_lt_of_lt hfuel)
    rw [Nat.zero_add, readParameters_some (next_of_eq hs next_openList)]
    rw [List.length_cons] at hfuel
    exact ih rfl (by omega)
  | quotedString hwalk h ih =>
    intro s fuel hs hfuel
    obtain ⟨fuel, rfl⟩ := Nat.exists_eq_add_of_lt (Nat.zero_lt_of_lt hfuel)
    rw [Nat.zero_add, readParameters_some (next_of_eq hs (next_quote.trans (decodeQuotedString_walks hwalk)))]
    rw [List.length_cons] at hfuel
    have hlength := Walks.length_le hwalk
    exact ih rfl (by rw [List.length_drop]; omega)
  | literal hwalk hnumber h ih =>
    intro s fuel hs hfuel
    obtain ⟨fuel, rfl⟩ := Nat.exists_eq_add_of_lt (Nat.zero_lt_of_lt hfuel)
    obtain ⟨p, hnext⟩ := decodeLiteralLength_walks hwalk hnumber
    rw [Nat.zero_add, readParameters_some (next_of_eq hs (next_bracket.trans hnext))]
    rw [List.length_cons] at hfuel
    have hlength := Walks.length_le hwalk
    exact ih rfl (by rw [List.length_drop]; omega)
  | atom expecting hbegins hstart hwalk h ih =>
    intro s fuel hs hfuel
    obtain ⟨fuel, rfl⟩ := Nat.exists_eq_add_of_lt (Nat.zero_lt_of_lt hfuel)
    have htake := hwalk.take _ List.mem_cons_self
    have hnext := (next_atom hbegins hstart (by rintro rfl; cases htake)).trans (decodeAtom_walks hwalk)
    rw [Nat.zero_add, readParameters_some (next_of_eq hs hnext)]
    have heq := congrArg List.length hwalk.eq
    rw [List.length_append, List.length_cons, List.length_cons] at heq
    rw [List.length_cons] at hfuel
    exact ih rfl (by omega)

/-- Every line is decoded or stuck. -/
theorem parametersDecoded_or_stuck {expecting : Bool} {bytes : List UInt8} (hline : IsLine bytes)
    {s : ImapCommandDecoder} {fuel : ℕ} (hs : s.paramDecoder = between expecting) (hfuel : bytes.length < fuel) :
    ParametersDecoded (readParameters fuel s bytes) ∨ Stuck expecting bytes := by
  induction hlength : bytes.length using Nat.strong_induction_on generalizing bytes expecting s fuel with
  | _ n ih =>
    subst hlength
    obtain ⟨fuel, rfl⟩ := Nat.exists_eq_add_of_lt (Nat.zero_lt_of_lt hfuel)
    rw [Nat.zero_add] at hfuel ⊢
    -- a shorter line behind a parameter
    have hbehind {expecting' : Bool} {rest : List UInt8} {p : ImapCommandParameter} (hrest : IsLine rest)
        (hlt : rest.length < bytes.length)
        (hnext : s.paramDecoder.next bytes = ⟨between expecting', rest, .ok (some p)⟩) :
        ParametersDecoded (readParameters (fuel + 1) s bytes) ∨ Stuck expecting' rest := by
      rw [readParameters_some hnext]
      exact ih rest.length hlt hrest rfl (by omega) rfl
    have hrefused {d : ImapParameterDecoder} {r : List UInt8} {e : JavaException} (he : Refused e)
        (hnext : s.paramDecoder.next bytes = ⟨d, r, .error e⟩) :
        ParametersDecoded (readParameters (fuel + 1) s bytes) := by
      rw [readParameters_error hnext]
      exact parametersDecoded_of_error he
    obtain ⟨value, tail, rfl⟩ := List.exists_cons_of_ne_nil hline.ne_nil
    have hlf := hline.ne_LF
    by_cases hsp : value = SP
    · subst hsp
      rw [readParameters_blank hs]
      refine (ih tail.length (Nat.lt_succ_self _) (hline.tail (by decide)) rfl ?_ rfl).imp_right (.blank expecting)
      rw [List.length_cons] at hfuel
      omega
    by_cases hcr : value = CR
    · subst hcr
      cases expecting with
      | true => exact .inr (.lineEnd tail)
      | false =>
        have hend := readParameters_none (next_of_eq hs next_lineEnd) fuel
        rw [CRLF] at hend
        rw [hline.eq_of_CR, hend]
        exact .inl (.inl ⟨rfl, rfl, rfl⟩)
    have htail := hline.tail hcr
    by_cases hclose : value = CLOSE_PARENTHESES
    · subst hclose
      exact (hbehind htail (Nat.lt_succ_self _) (next_of_eq hs (next_closeList expecting))).imp_right
        (.closeList expecting)
    have hread (hbegins : expecting = true ∨ value = CLOSE_SQUARE) (hstart : parameterStart value = .READ_ATOM) :
        ParametersDecoded (readParameters (fuel + 1) s (value :: tail)) ∨ Stuck expecting (value :: tail) := by
      have htake : atomVisit false value = .take := by
        rw [atomVisit, if_neg]
        simp [hlf, hcr, hsp, hclose]
      rcases atom_cases hline hbegins hstart htake with ⟨text, rest, hwalk⟩ | ⟨d, r, e, hnext, he⟩
      · have hnext := (next_atom hbegins hstart hsp).trans (decodeAtom_walks hwalk)
        have hrest := hwalk.isLine (by decide) hline
        have hlt : rest.length < (value :: tail).length := by
          rw [hwalk.eq, List.length_append, List.length_cons]
          omega
        exact (hbehind hrest hlt (next_of_eq hs hnext)).imp_right (.atom expecting hbegins hstart hwalk)
      · exact .inl (hrefused he (next_of_eq hs hnext))
    cases expecting with
    | false =>
      by_cases hsquare : value = CLOSE_SQUARE
      · exact hread (.inr hsquare) (by rw [hsquare]; decide)
      · exact .inl (hrefused (.inl rfl) (next_of_eq hs (next_other hsp hcr hlf hsquare hclose)))
    | true =>
      by_cases hquote : value = QUOTE
      · subst hquote
        rcases quotedString_cases htail with ⟨text, rest, hwalk⟩ | ⟨d, r, e, hnext, he⟩
        · have hnext := next_quote.trans (decodeQuotedString_walks hwalk)
          obtain ⟨hrest, hlt⟩ := hwalk.behind (by decide) (by decide) htail
          exact (hbehind hrest (Nat.lt_succ_of_lt hlt) (next_of_eq hs hnext)).imp_right (.quotedString hwalk)
        · exact .inl (hrefused he (next_of_eq hs hnext))
      by_cases hbracket : value = OPEN_BRACKET
      · subst hbracket
        rcases literalLength_cases htail with ⟨text, rest, hwalk⟩ | ⟨d, r, e, hnext, he⟩
        · by_cases hnumber : IsLiteralLength (text.map signedChar)
          · obtain ⟨p, hdecode⟩ := decodeLiteralLength_walks hwalk hnumber
            obtain ⟨hrest, hlt⟩ := hwalk.behind (by decide) (by decide) htail
            have hnext := next_of_eq hs (next_bracket.trans hdecode)
            exact (hbehind hrest (Nat.lt_succ_of_lt hlt) hnext).imp_right (.literal hwalk hnumber)
          · exact .inr (.number hwalk hnumber)
        · exact .inl (hrefused he (next_of_eq hs hnext))
      by_cases hopen : value = OPEN_PARENTHESES
      · subst hopen
        exact (hbehind htail (Nat.lt_succ_self _) (next_of_eq hs next_openList)).imp_right .openList
      · exact hread (.inl rfl) (by rw [parameterStart, if_neg hquote, if_neg hbracket, if_neg hopen, if_neg hclose])

/-- The parameters of a line are decoded unless the line is one that the decoder gets stuck in. -/
theorem parametersDecoded_iff {expecting : Bool} {bytes : List UInt8} (hline : IsLine bytes)
    {s : ImapCommandDecoder} {fuel : ℕ} (hs : s.paramDecoder = between expecting) (hfuel : bytes.length < fuel) :
    ParametersDecoded (readParameters fuel s bytes) ↔ ¬ Stuck expecting bytes :=
  ⟨fun h hstuck => not_parametersDecoded hstuck hs hfuel h,
    (parametersDecoded_or_stuck hline hs hfuel).resolve_right⟩

/-! ### The whole line -/

/-- A decoder in `READ_TAG`. It may have read a tag before it found a corrupted frame. -/
def atTag (tag : JString) : ImapCommandDecoder := { resetNow with tag := tag }

/-- One command that uses up the line, or one of the two exceptions. -/
def LineDecoded (o : Decoded) : Prop :=
  (∃ cmd s, o = .emitted cmd s []) ∨ ∃ e s rest, o = .fault e s rest ∧ Refused e

/-- The tag and the name of the command can be read, and what follows is stuck. -/
def StuckLine (bytes : List UInt8) : Prop :=
  ∃ tag rest name params, Walks AtomDecoder.MAX_ATOM_LENGTH AtomDecoder.process bytes tag (SP :: rest)
    ∧ Walks AtomDecoder.MAX_ATOM_LENGTH AtomDecoder.process rest name params ∧ Stuck false params

/-- The tag or the name of a command is read up to the blank. -/
theorem parse_walks {bytes text rest : List UInt8}
    (h : Walks AtomDecoder.MAX_ATOM_LENGTH AtomDecoder.process bytes text rest) :
    AtomDecoder.parse bytes = .ok (some (text.map signedChar, rest)) := by
  rw [AtomDecoder.parse, h.forEachByte]

/-- It is read, or it is too long. -/
theorem parse_cases {bytes : List UInt8} (hline : IsLine bytes) :
    (∃ text rest, Walks AtomDecoder.MAX_ATOM_LENGTH AtomDecoder.process bytes text rest)
      ∨ AtomDecoder.parse bytes = .error .tooLongFrame := by
  have hcr : AtomDecoder.process CR ≠ .take := by decide
  refine (forEachByte_cases AtomDecoder.MAX_ATOM_LENGTH hline.mem hcr).imp_right ?_
  rintro ⟨seq, e, hwalk, rfl | ⟨v, hv⟩⟩
  · rw [AtomDecoder.parse, hwalk]
  · unfold AtomDecoder.process at hv
    split_ifs at hv

/-- The parameters decide, if it comes to them. -/
theorem lineDecoded_parameters {s : ImapCommandDecoder} {bytes : List UInt8} (hs : s.paramDecoder = .reset false)
    (hline : IsLine bytes) : LineDecoded (decodeParameters s bytes) ↔ ¬ Stuck false bytes := by
  have hbetween : s.paramDecoder = between false := hs
  rw [← parametersDecoded_iff hline hbetween (Nat.lt_succ_self _), decodeParameters]
  rcases readParameters (bytes.length + 1) s bytes with ⟨s', rest, e | u⟩
  -- An exception of the parameters is one of the line.
  · constructor
    · rintro (⟨cmd, t, h⟩ | ⟨e', t, r, h, he⟩)
      · cases h
      · cases h
        exact parametersDecoded_of_error he
    · rintro (⟨-, -, h⟩ | ⟨e', h, he⟩)
      · cases h
      · cases h
        exact .inr ⟨e, s', rest, rfl, he⟩
  · dsimp only
    split_ifs with hended happend
    -- At the end of the line there is a command, with or without a literal; else more bytes are waited for.
    · constructor
      · rintro (⟨cmd, t, h⟩ | ⟨e', t, r, h, -⟩)
        · cases h
          exact .inl ⟨hended, rfl, rfl⟩
        · cases h
      · rintro (⟨-, hrest, -⟩ | ⟨e', h, -⟩)
        · exact .inl ⟨_, _, by rw [show rest = [] from hrest]⟩
        · cases h
    · constructor
      · rintro (⟨cmd, t, h⟩ | ⟨e', t, r, h, -⟩)
        · cases h
          exact .inl ⟨hended, rfl, rfl⟩
        · cases h
      · rintro (⟨-, hrest, -⟩ | ⟨e', h, -⟩)
        · exact .inl ⟨_, _, by rw [show rest = [] from hrest]⟩
        · cases h
    · constructor
      · rintro (⟨cmd, t, h⟩ | ⟨e', t, r, h, -⟩) <;> cases h
      · rintro (⟨h, -, -⟩ | ⟨e', h, -⟩)
        · exact absurd h hended
        · cases h

/-- A line that is refused is decoded as such. -/
theorem lineDecoded_fault {e : JavaException} (he : Refused e) {s : ImapCommandDecoder} {rest : List UInt8} :
    LineDecoded (.fault e s rest) := .inr ⟨e, s, rest, rfl, he⟩

/-- A line is decoded or refused exactly if it is not stuck. -/
theorem lineDecoded_iff (tag : JString) {bytes : List UInt8} (hline : IsLine bytes) :
    LineDecoded ((atTag tag).decode bytes) ↔ ¬ StuckLine bytes := by
  show LineDecoded (decodeTag (atTag tag) bytes) ↔ _
  have hcr : AtomDecoder.process CR ≠ .take := by decide
  rw [decodeTag]
  -- The tag, the blank behind it, the name of the command and the parameters.
  rcases parse_cases hline with ⟨text, rest, htag⟩ | hlong
  · rw [parse_walks htag]
    dsimp only
    have hrest := htag.isLine hcr hline
    obtain ⟨value, after, rfl, -⟩ := htag.stop
    by_cases hsp : value = SP
    · subst hsp
      rw [if_pos List.head?_cons, List.drop_succ_cons, List.drop_zero, decodeCommand]
      have hafter := hrest.tail (by decide)
      rcases parse_cases hafter with ⟨name, params, hname⟩ | hlong
      · rw [parse_walks hname]
        dsimp only
        rw [lineDecoded_parameters rfl (hname.isLine hcr hafter)]
        apply not_congr
        constructor
        · exact fun h => ⟨text, after, name, params, htag, hname, h⟩
        · rintro ⟨text', after', name', params', htag', hname', h⟩
          obtain ⟨-, hafter'⟩ := htag.unique htag'
          obtain rfl := (List.cons.inj hafter').2
          obtain ⟨-, rfl⟩ := hname.unique hname'
          exact h
      · rw [hlong]
        refine iff_of_true (lineDecoded_fault (.inr rfl)) ?_
        rintro ⟨text', after', name', params', htag', hname', -⟩
        obtain ⟨-, hafter'⟩ := htag.unique htag'
        obtain rfl := (List.cons.inj hafter').2
        rw [parse_walks hname'] at hlong
        cases hlong
    · rw [if_neg (by simpa using hsp)]
      refine iff_of_true (lineDecoded_fault (.inl rfl)) ?_
      rintro ⟨text', after', name', params', htag', -, -⟩
      obtain ⟨-, hafter'⟩ := htag.unique htag'
      exact hsp (List.cons.inj hafter').1
  · rw [hlong]
    refine iff_of_true (lineDecoded_fault (.inr rfl)) ?_
    rintro ⟨text', after', name', params', htag', -, -⟩
    rw [parse_walks htag'] at hlong
    cases hlong

/-- The line `a NOOP`. -/
theorem lineDecoded_noop : LineDecoded ((atTag []).decode ([97, SP, 78, 79, 79, 80] ++ CRLF)) := by
  have htag : Walks AtomDecoder.MAX_ATOM_LENGTH AtomDecoder.process ([97, SP, 78, 79, 79, 80] ++ CRLF) [97]
      (SP :: ([78, 79, 79, 80] ++ CRLF)) :=
    ⟨rfl, by simp [AtomDecoder.process, CR, LF, SP], Nat.le_of_ble_eq_true rfl, _, _, rfl, by decide⟩
  have hname : Walks AtomDecoder.MAX_ATOM_LENGTH AtomDecoder.process ([78, 79, 79, 80] ++ CRLF) [78, 79, 79, 80] CRLF :=
    ⟨rfl, by simp [AtomDecoder.process, CR, LF, SP], Nat.le_of_ble_eq_true rfl, _, _, rfl, by decide⟩
  have hend : IsLine CRLF := ⟨[], rfl, by decide, by decide⟩
  refine (lineDecoded_iff [] ⟨[97, SP, 78, 79, 79, 80], rfl, by decide, by decide⟩).mpr ?_
  rintro ⟨tag, rest, name, params, htag', hname', h⟩
  obtain ⟨-, hrest⟩ := htag.unique htag'
  obtain rfl := (List.cons.inj hrest).2
  obtain ⟨-, rfl⟩ := hname.unique hname'
  exact (lineDecoded_parameters (s := resetNow) rfl hend).mp (.inl ⟨_, _, rfl⟩) h

/-- A blank at the end of the line. -/
theorem not_lineDecoded_blank : ¬ ∀ (tag : JString) (bytes : List UInt8), IsLine bytes →
    LineDecoded ((atTag tag).decode bytes) := by
  intro h
  rcases h [] ([97, SP, 78, 79, 79, 80, SP] ++ CRLF) ⟨[97, SP, 78, 79, 79, 80, SP], rfl, by decide, by decide⟩ with
    ⟨cmd, s, hdecode⟩ | ⟨e, s, rest, hdecode, he⟩
  · cases hdecode
  · cases hdecode
    exact not_refused_index he

end ImapCommandDecoder

end OrgLittle.Imap
