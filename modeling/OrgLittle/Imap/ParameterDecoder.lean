import OrgLittle.Imap.Command

/-!
# `AtomDecoder` and `ImapParameterDecoder`

Both walk over the unread bytes with `forEachByte` and collect characters in a buffer. `AtomDecoder` and
`decodeAtom` clear the buffer first, so a text that is not complete is read again from its start.
`decodeQuotedString` and `decodeLiteralLength` do neither: they skip a byte on every entry and go on with
the buffer as it is.
-/

namespace OrgLittle.Imap

open OrgLittle.Java

/-! ## `forEachByte` -/

/-- What a byte processor does with one byte. -/
inductive Visit
  | take
  | stop
  | fail (e : JavaException)
deriving DecidableEq

/-- `in.forEachByte(..)` with a processor that appends to `seq`, up to `max` characters: the new `seq`,
and the unread bytes from the position where it stopped. -/
def forEachByte (max : ℕ) (visit : UInt8 → Visit) (seq : JString) :
    List UInt8 → JString × Except JavaException (Option (List UInt8))
  | [] => (seq, .ok none)
  | value :: bytes =>
    match visit value with
    | .stop => (seq, .ok (some (value :: bytes)))
    | .fail e => (seq, .error e)
    | .take =>
      if max ≤ seq.length then (seq, .error .tooLongFrame)
      else forEachByte max visit (seq ++ [signedChar value]) bytes

/-- A walk that was stopped has taken all bytes before. -/
theorem forEachByte_eq_some {max : ℕ} {visit : UInt8 → Visit} {seq seq' : JString}
    {bytes rest : List UInt8} (h : forEachByte max visit seq bytes = (seq', .ok (some rest))) :
    bytes = (bytes.takeWhile fun value => visit value = .take) ++ rest
      ∧ seq' = seq ++ (bytes.takeWhile fun value => visit value = .take).map signedChar
      ∧ ∃ value tail, rest = value :: tail ∧ visit value = .stop := by
  induction bytes generalizing seq with
  | nil => cases h
  | cons value bytes ih =>
    rw [forEachByte] at h
    cases hvisit : visit value with
    | stop =>
      rw [hvisit] at h
      cases h
      rw [List.takeWhile_cons_of_neg (by simp [hvisit])]
      exact ⟨rfl, (List.append_nil _).symm, value, bytes, rfl, hvisit⟩
    | fail e => rw [hvisit] at h; cases h
    | take =>
      rw [hvisit] at h
      dsimp only at h
      split_ifs at h with hlong
      · cases h
      · obtain ⟨hbytes, hseq, hrest⟩ := ih h
        rw [List.takeWhile_cons_of_pos (by simp [hvisit])]
        refine ⟨?_, ?_, hrest⟩
        · rw [List.cons_append, ← hbytes]
        · rw [hseq, List.map_cons, List.append_assoc, List.singleton_append]

/-- A walk does not get past a byte that is not taken. -/
theorem forEachByte_ne_none {max : ℕ} {visit : UInt8 → Visit} {bytes : List UInt8} {value : UInt8}
    (hmem : value ∈ bytes) (hvisit : visit value ≠ .take) (seq seq' : JString) :
    forEachByte max visit seq bytes ≠ (seq', .ok none) := by
  induction bytes generalizing seq with
  | nil => cases hmem
  | cons first bytes ih =>
    intro h
    rw [forEachByte] at h
    cases hfirst : visit first with
    | stop => rw [hfirst] at h; cases h
    | fail e => rw [hfirst] at h; cases h
    | take =>
      rw [hfirst] at h
      dsimp only at h
      split_ifs at h
      · cases h
      · rcases List.mem_cons.mp hmem with rfl | hmem
        · exact hvisit hfirst
        · exact ih hmem _ h

/-! ## `AtomDecoder` -/

/-- `AtomDecoder.MAX_ATOM_LENGTH`. -/
def AtomDecoder.MAX_ATOM_LENGTH : ℕ := 128

/-- `AtomDecoder.process`. -/
def AtomDecoder.process (value : UInt8) : Visit :=
  if value = CR ∨ value = LF ∨ value = 93 ∨ value = SP then .stop else .take

/-- `AtomDecoder.parse`: the text and the bytes from its end on. -/
def AtomDecoder.parse (bytes : List UInt8) :
    Except JavaException (Option (JString × List UInt8)) :=
  match forEachByte MAX_ATOM_LENGTH process [] bytes with
  | (_, .error e) => .error e
  | (_, .ok none) => .ok none
  | (seq, .ok (some rest)) => .ok (some (seq, rest))

/-! ## `ImapParameterDecoder` -/

/-- `ImapParameterDecoder.State`, less `READ_LITERAL`. -/
inductive ParameterState
  | EMPTY | READ_QUOTED_STRING | READ_LITERAL_LENGTH | READ_PARAM_LIST | READ_ATOM | END_PARAM_LIST
  | NEXT | Ended
deriving DecidableEq

/-- The fields of `ImapParameterDecoder`. Its `size` is always the length of `seq`. -/
structure ImapParameterDecoder where
  seq : JString
  currentState : ParameterState
  statusParameter : Bool
deriving DecidableEq

/-- The outcome of one call. -/
structure Next where
  decoder : ImapParameterDecoder
  rest : List UInt8
  result : Except JavaException (Option ImapCommandParameter)

namespace ImapParameterDecoder

/-- `QUOTE`. -/
def QUOTE : UInt8 := 34

/-- `OPEN_BRACKET`. -/
def OPEN_BRACKET : UInt8 := 123

/-- `CLOSE_BRACKET`. -/
def CLOSE_BRACKET : UInt8 := 125

/-- `OPEN_PARENTHESES`. -/
def OPEN_PARENTHESES : UInt8 := 40

/-- `CLOSE_PARENTHESES`. -/
def CLOSE_PARENTHESES : UInt8 := 41

/-- The byte `']'`, which ends a status response. -/
def CLOSE_SQUARE : UInt8 := 93

/-- `MAX_ATOM_LENGTH`. -/
def MAX_ATOM_LENGTH : ℕ := 8192

/-- The constructor and `reset`. -/
def reset (statusParameter : Bool) : ImapParameterDecoder := ⟨[], .NEXT, statusParameter⟩

/-- The byte processor of `decodeAtom`. -/
def atomVisit (statusParameter : Bool) (value : UInt8) : Visit :=
  if value = LF ∨ value = CR ∨ value = SP ∨ value = CLOSE_PARENTHESES
      ∨ (statusParameter ∧ value = CLOSE_SQUARE) then .stop
  else .take

/-- The byte processor of `decodeQuotedString`. -/
def quotedVisit (value : UInt8) : Visit :=
  if value = QUOTE then .stop
  else if value = LF ∨ value = CR then .fail .corruptedFrame
  else .take

/-- The byte processor of `decodeLiteralLength`: digits and `'+'` up to the closing bracket. -/
def literalVisit (value : UInt8) : Visit :=
  if (48 ≤ value ∧ value ≤ 57) ∨ value = 43 then .take
  else if value = CLOSE_BRACKET then .stop
  else .fail .corruptedFrame

/-- `decodeAtom`, in state `READ_ATOM`. -/
def decodeAtom (d : ImapParameterDecoder) (bytes : List UInt8) : Next :=
  match forEachByte MAX_ATOM_LENGTH (atomVisit d.statusParameter) [] bytes with
  | (seq, .error e) => ⟨{ d with seq := seq }, bytes, .error e⟩
  | (seq, .ok none) => ⟨{ d with seq := seq }, bytes, .ok none⟩
  | (seq, .ok (some rest)) =>
    -- `value.charAt(0)` fails on the empty text
    if seq = [] then ⟨{ d with seq := seq }, rest, .error .indexOutOfBounds⟩
    else ⟨{ d with seq := [], currentState := .NEXT }, rest, .ok (some (.ofAtom seq))⟩

/-- `decodeQuotedString`, in state `READ_QUOTED_STRING`. -/
def decodeQuotedString (d : ImapParameterDecoder) (bytes : List UInt8) : Next :=
  match forEachByte MAX_ATOM_LENGTH quotedVisit d.seq (bytes.drop 1) with
  | (seq, .error e) => ⟨{ d with seq := seq }, bytes.drop 1, .error e⟩
  | (seq, .ok none) => ⟨{ d with seq := seq }, bytes.drop 1, .ok none⟩
  | (seq, .ok (some rest)) =>
    ⟨{ d with seq := [], currentState := .NEXT }, rest.drop 1, .ok (some (.quotedString seq))⟩

/-- `LiteralLength`: the number, without the `'+'` at its end. -/
def literalLength (v : JString) : Except JavaException ℤ :=
  match v.getLast? with
  | none => .error .indexOutOfBounds
  | some c =>
    match parseInt (if c = '+' then v.dropLast else v) with
    | none => .error .numberFormat
    | some n => .ok n

/-- `decodeLiteralLength`, in state `READ_LITERAL_LENGTH`. The parameter is the number in brackets. -/
def decodeLiteralLength (d : ImapParameterDecoder) (bytes : List UInt8) : Next :=
  match forEachByte MAX_ATOM_LENGTH literalVisit d.seq (bytes.drop 1) with
  | (seq, .error e) => ⟨{ d with seq := seq }, bytes.drop 1, .error e⟩
  | (seq, .ok none) => ⟨{ d with seq := seq }, bytes.drop 1, .ok none⟩
  | (seq, .ok (some rest)) =>
    match literalLength seq with
    | .error e => ⟨{ d with seq := seq }, rest, .error e⟩
    | .ok n =>
      ⟨{ d with seq := [], currentState := .NEXT }, rest.drop 1,
        .ok (some (.atom ('\x7b' :: intToString n ++ ['\x7d'])))⟩

/-- The state that `next` chooses by the first byte of a parameter. -/
def parameterStart (firstByte : UInt8) : ParameterState :=
  if firstByte = QUOTE then .READ_QUOTED_STRING
  else if firstByte = OPEN_BRACKET then .READ_LITERAL_LENGTH
  else if firstByte = OPEN_PARENTHESES then .READ_PARAM_LIST
  else if firstByte = CLOSE_PARENTHESES then .END_PARAM_LIST
  else .READ_ATOM

/-- The second `switch` of `next`: the state says what is read. -/
def read (d : ImapParameterDecoder) (bytes : List UInt8) : Next :=
  match d.currentState with
  | .READ_ATOM => decodeAtom d bytes
  | .READ_QUOTED_STRING => decodeQuotedString d bytes
  | .READ_PARAM_LIST => ⟨{ d with currentState := .EMPTY }, bytes.drop 1, .ok (some .openList)⟩
  | .END_PARAM_LIST => ⟨{ d with currentState := .NEXT }, bytes.drop 1, .ok (some .closeList)⟩
  | .READ_LITERAL_LENGTH => decodeLiteralLength d bytes
  | .EMPTY => ⟨d, bytes, .ok none⟩
  | .NEXT => ⟨d, bytes, .ok none⟩
  | .Ended => ⟨d, bytes, .ok none⟩

/-- `next`. In state `NEXT` a `']'` outside a status response falls through to the choice by the first
byte. -/
def next (d : ImapParameterDecoder) : List UInt8 → Next
  | [] => ⟨d, [], .ok none⟩
  | firstByte :: rest =>
    match d.currentState with
    | .EMPTY =>
      if firstByte = SP then next d rest
      else read { d with currentState := parameterStart firstByte } (firstByte :: rest)
    | .NEXT =>
      if firstByte = SP then next { d with currentState := .EMPTY } rest
      else if firstByte = CR then
        if d.statusParameter then ⟨d, firstByte :: rest, .error .corruptedFrame⟩ else next d rest
      else if firstByte = LF then
        if d.statusParameter then ⟨d, firstByte :: rest, .error .corruptedFrame⟩
        else ⟨{ d with currentState := .Ended }, rest, .ok none⟩
      else if firstByte = CLOSE_SQUARE ∧ d.statusParameter then
        ⟨{ d with currentState := .Ended }, rest, .ok none⟩
      else if firstByte = CLOSE_SQUARE ∨ firstByte = CLOSE_PARENTHESES then
        read { d with currentState := parameterStart firstByte } (firstByte :: rest)
      else ⟨d, firstByte :: rest, .error .corruptedFrame⟩
    | _ => read d (firstByte :: rest)

end ImapParameterDecoder

end OrgLittle.Imap
