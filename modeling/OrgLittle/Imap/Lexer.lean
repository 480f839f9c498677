import OrgLittle.Imap.CommandDecoder

/-!
# The commands of a byte stream, read one byte at a time

`lexer` says what a stream of command lines means, without chunks: it reads every byte once and emits a
command at each line end. It is the specification of `ImapCommandDecoder` for streams without literals.
`refines_lexer` shows that the decoder refines it as long as no chunk ends inside a quoted string.

Three states stand for what goes wrong. In `dead` no command is emitted any more, and the decoder, too,
fails again on the same byte with every further chunk. In `broken` a quoted string was ended by the end
of its line, or was too long. In `literal` a parameter began with an opening bracket.
-/

namespace OrgLittle.Imap

open OrgLittle.Java OrgLittle.Lib ImapParameterDecoder

/-! ## The lexer -/

/-- The parts of a command read so far. -/
structure Builder where
  tag : JString
  command : JString
  params : List ImapCommandParameter
deriving DecidableEq

/-- One more parameter. -/
def Builder.add (b : Builder) (p : ImapCommandParameter) : Builder :=
  { b with params := b.params ++ [p] }

/-- Where the lexer stands. -/
inductive Lex
  | tag (seq : JString)
  | command (tag seq : JString)
  /-- after the command name or a parameter -/
  | next (b : Builder)
  /-- before a parameter -/
  | empty (b : Builder)
  | atom (b : Builder) (seq : JString)
  | quoted (b : Builder) (seq : JString)
  | literal
  | broken
  | dead
deriving DecidableEq

namespace Lex

/-- The end of a command line. After an `APPEND` without a literal no command is read any more. -/
def finish (b : Builder) : Lex × List ImapCommand :=
  let cmd := ImapCommandBuilder.build b.tag b.command b.params
  if cmd.isAppend then
    (if AppendCommand.literalSize b.params = none then dead else literal, [cmd])
  else (tag [], [cmd])

/-- The end of a line gives out the command. -/
theorem finish_snd (b : Builder) :
    (finish b).2 = [ImapCommandBuilder.build b.tag b.command b.params] := by
  unfold finish
  dsimp only
  split_ifs <;> rfl

/-- A byte after the command name or a parameter. -/
def stepNext (b : Builder) (value : UInt8) : Lex × List ImapCommand :=
  if value = SP then (empty b, [])
  else if value = CR then (next b, [])
  else if value = LF then finish b
  else if value = CLOSE_PARENTHESES then (next (b.add .closeList), [])
  else if value = CLOSE_SQUARE then (atom b [signedChar value], [])
  else (dead, [])

/-- A byte of an atom, which is not empty. -/
def stepAtom (b : Builder) (seq : JString) (value : UInt8) : Lex × List ImapCommand :=
  if value = LF ∨ value = CR ∨ value = SP ∨ value = CLOSE_PARENTHESES then
    if seq = [] then (dead, []) else stepNext (b.add (.ofAtom seq)) value
  else if MAX_ATOM_LENGTH ≤ seq.length then (dead, [])
  else (atom b (seq ++ [signedChar value]), [])

/-- A byte before a parameter. -/
def stepEmpty (b : Builder) (value : UInt8) : Lex × List ImapCommand :=
  if value = SP then (empty b, [])
  else if value = QUOTE then (quoted b [], [])
  else if value = OPEN_BRACKET then (literal, [])
  else if value = OPEN_PARENTHESES then (empty (b.add .openList), [])
  else if value = CLOSE_PARENTHESES then (next (b.add .closeList), [])
  else stepAtom b [] value

/-- A byte of a quoted string. -/
def stepQuoted (b : Builder) (seq : JString) (value : UInt8) : Lex × List ImapCommand :=
  if value = QUOTE then (next (b.add (.quotedString seq)), [])
  else if value = LF ∨ value = CR then (broken, [])
  else if MAX_ATOM_LENGTH ≤ seq.length then (broken, [])
  else (quoted b (seq ++ [signedChar value]), [])

/-- The end of a tag or a command name. -/
def isNameEnd (value : UInt8) : Bool := value = CR ∨ value = LF ∨ value = CLOSE_SQUARE ∨ value = SP

/-- A byte of the tag. -/
def stepTag (seq : JString) (value : UInt8) : Lex × List ImapCommand :=
  if isNameEnd value then (if value = SP then command seq [] else dead, [])
  else if AtomDecoder.MAX_ATOM_LENGTH ≤ seq.length then (dead, [])
  else (tag (seq ++ [signedChar value]), [])

/-- A byte of the command name. -/
def stepCommand (tag seq : JString) (value : UInt8) : Lex × List ImapCommand :=
  if isNameEnd value then stepNext ⟨tag, seq, []⟩ value
  else if AtomDecoder.MAX_ATOM_LENGTH ≤ seq.length then (dead, [])
  else (command tag (seq ++ [signedChar value]), [])

/-- One byte. -/
def step : Lex → UInt8 → Lex × List ImapCommand
  | tag seq, value => stepTag seq value
  | command name seq, value => stepCommand name seq value
  | next b, value => stepNext b value
  | empty b, value => stepEmpty b value
  | atom b seq, value => stepAtom b seq value
  | quoted b seq, value => stepQuoted b seq value
  | literal, _ => (literal, [])
  | broken, _ => (broken, [])
  | dead, _ => (dead, [])

/-- The stream is inside a quoted string, or in a literal. -/
def isOpen : Lex → Bool
  | quoted _ _ => true
  | literal => true
  | _ => false

/-- The stream is between two parts of a command line. -/
def isBetween : Lex → Bool
  | next _ => true
  | empty _ => true
  | _ => false

end Lex

/-- The lexer. -/
def lexer : Machine Lex UInt8 ImapCommand := ⟨Lex.step⟩

/-- A stopped lexer reads nothing more. -/
theorem absorbing_dead : lexer.Absorbing .dead := fun _ => rfl

theorem absorbing_broken : lexer.Absorbing .broken := fun _ => rfl

theorem absorbing_literal : lexer.Absorbing .literal := fun _ => rfl

/-! ## Walking over bytes -/

/-- A walk of `forEachByte` from the point of view of the lexer: `f` are the states in which the text is
collected, and `bad` is where it ends when it cannot go on. -/
structure Collects (max : ℕ) (visit : UInt8 → Visit) (f : JString → Lex) (bad : Lex) : Prop where
  take : ∀ {seq value}, visit value = .take → seq.length < max →
    lexer.step (f seq) value = (f (seq ++ [signedChar value]), [])
  long : ∀ {seq value}, visit value = .take → max ≤ seq.length →
    lexer.step (f seq) value = (bad, [])
  fail : ∀ {seq value e}, visit value = .fail e → lexer.step (f seq) value = (bad, [])
  absorbing : lexer.Absorbing bad

variable {max : ℕ} {visit : UInt8 → Visit} {f : JString → Lex} {bad : Lex}

/-- What a walk tells about the lexer: it goes on to the end of the bytes, it stands before the byte that
stopped the walk, or it has failed. -/
theorem Collects.forEachByte (h : Collects max visit f bad) (seq : JString) (bytes : List UInt8) :
    match forEachByte max visit seq bytes with
    | (seq', .ok none) =>
      lexer.run (f seq) bytes = f seq' ∧ lexer.outputs (f seq) bytes = []
    | (seq', .ok (some rest)) =>
      lexer.run (f seq) bytes = lexer.run (f seq') rest
        ∧ lexer.outputs (f seq) bytes = lexer.outputs (f seq') rest
        ∧ (∃ value tail, rest = value :: tail ∧ visit value = .stop)
        ∧ bytes.length + seq.length = rest.length + seq'.length
    | (_, .error _) => lexer.run (f seq) bytes = bad ∧ lexer.outputs (f seq) bytes = [] := by
  induction bytes generalizing seq with
  | nil => exact ⟨rfl, rfl⟩
  | cons value bytes ih =>
    rw [Imap.forEachByte]
    cases hvisit : visit value with
    | stop => exact ⟨rfl, rfl, ⟨value, bytes, rfl, hvisit⟩, rfl⟩
    | fail e =>
      dsimp only
      rw [Machine.run_cons, Machine.outputs_cons, h.fail hvisit]
      exact ⟨h.absorbing.run bytes, h.absorbing.outputs bytes⟩
    | take =>
      dsimp only
      by_cases hlong : max ≤ seq.length
      · rw [if_pos hlong, Machine.run_cons, Machine.outputs_cons, h.long hvisit hlong]
        exact ⟨h.absorbing.run bytes, h.absorbing.outputs bytes⟩
      · rw [if_neg hlong, Machine.run_cons, Machine.outputs_cons, h.take hvisit (by omega)]
        have hrest := ih (seq ++ [signedChar value])
        generalize Imap.forEachByte max visit (seq ++ [signedChar value]) bytes = walked at hrest ⊢
        obtain ⟨seq', e | _ | rest⟩ := walked
        · exact hrest
        · exact hrest
        · refine ⟨hrest.1, hrest.2.1, hrest.2.2.1, ?_⟩
          have hlen := hrest.2.2.2
          simp only [List.length_append, List.length_cons, List.length_nil] at hlen ⊢
          omega

/-! ## Parameters -/

/-- The lexer's state at the start of the unread bytes of the parameter decoder. -/
def absParameter (b : Builder) : ParameterState → Lex
  | .NEXT => .next b
  | .EMPTY => .empty b
  | .READ_ATOM => .atom b []
  | _ => .dead

/-- The states in which the parameter decoder leaves a call and from which it resumes correctly. -/
structure Resumable (d : ImapParameterDecoder) : Prop where
  status : d.statusParameter = false
  state : d.currentState = .READ_ATOM ∨ (d.currentState = .NEXT ∨ d.currentState = .EMPTY) ∧ d.seq = []

theorem atomVisit_take {value : UInt8} (h : atomVisit false value = .take) :
    ¬ (value = LF ∨ value = CR ∨ value = SP ∨ value = CLOSE_PARENTHESES) := by
  intro hend
  simp [atomVisit, hend] at h

theorem atomVisit_stop {value : UInt8} (h : atomVisit false value = .stop) :
    value = LF ∨ value = CR ∨ value = SP ∨ value = CLOSE_PARENTHESES := by
  by_contra hend
  simp [atomVisit, hend] at h

theorem collects_atom (b : Builder) :
    Collects MAX_ATOM_LENGTH (atomVisit false) (.atom b) .dead where
  take {seq value} hvisit hlen := by
    show Lex.stepAtom b seq value = _
    rw [Lex.stepAtom, if_neg (atomVisit_take hvisit), if_neg (by omega)]
  long {seq value} hvisit hlen := by
    show Lex.stepAtom b seq value = _
    rw [Lex.stepAtom, if_neg (atomVisit_take hvisit), if_pos hlen]
  fail {seq value e} hvisit := by
    unfold atomVisit at hvisit
    split at hvisit <;> cases hvisit
  absorbing := absorbing_dead

theorem collects_quoted (b : Builder) :
    Collects MAX_ATOM_LENGTH quotedVisit (.quoted b) .broken where
  take {seq value} hvisit hlen := by
    show Lex.stepQuoted b seq value = _
    unfold quotedVisit at hvisit
    split_ifs at hvisit with hquote hend
    rw [Lex.stepQuoted, if_neg hquote, if_neg hend, if_neg (by omega)]
  long {seq value} hvisit hlen := by
    show Lex.stepQuoted b seq value = _
    unfold quotedVisit at hvisit
    split_ifs at hvisit with hquote hend
    rw [Lex.stepQuoted, if_neg hquote, if_neg hend, if_pos hlen]
  fail {seq value e} hvisit := by
    show Lex.stepQuoted b seq value = _
    unfold quotedVisit at hvisit
    split_ifs at hvisit with hquote hend
    rw [Lex.stepQuoted, if_neg hquote, if_pos hend]
  absorbing := absorbing_broken

/-- What one call of the parameter decoder has to do with the lexer. -/
def NextRefines (b : Builder) (start : Lex) (bytes : List UInt8) (n : Next) : Prop :=
  match n.result with
  | .ok (some p) =>
    Resumable n.decoder ∧ n.rest.length < bytes.length
      ∧ lexer.run (absParameter (b.add p) n.decoder.currentState) n.rest = lexer.run start bytes
      ∧ lexer.outputs (absParameter (b.add p) n.decoder.currentState) n.rest
        = lexer.outputs start bytes
  | .ok none =>
    if n.decoder.currentState = .Ended then
      n.rest.length < bytes.length
        ∧ lexer.run (Lex.finish b).1 n.rest = lexer.run start bytes
        ∧ lexer.outputs start bytes = (Lex.finish b).2 ++ lexer.outputs (Lex.finish b).1 n.rest
    else
      Resumable n.decoder ∧ n.rest.length ≤ bytes.length
        ∧ lexer.run (absParameter b n.decoder.currentState) n.rest = lexer.run start bytes
        ∧ lexer.outputs (absParameter b n.decoder.currentState) n.rest = []
        ∧ lexer.outputs start bytes = []
        ∧ ((lexer.run start bytes).isBetween = true → n.rest = [])
  | .error _ =>
    lexer.outputs start bytes = [] ∧ (lexer.run start bytes).isBetween = false
      ∧ (lexer.run start bytes ≠ .broken →
      Resumable n.decoder
        ∧ lexer.run (absParameter b n.decoder.currentState) n.rest = lexer.run start bytes
        ∧ lexer.outputs (absParameter b n.decoder.currentState) n.rest = [])

/-- A byte that the lexer reads without output may be added in front. -/
theorem NextRefines.cons {b : Builder} {start start' : Lex} {value : UInt8} {bytes : List UInt8}
    {n : Next} (h : NextRefines b start' bytes n) (hstep : lexer.step start value = (start', [])) :
    NextRefines b start (value :: bytes) n := by
  have hrun : lexer.run start (value :: bytes) = lexer.run start' bytes := by
    rw [Machine.run_cons, hstep]
  have hout : lexer.outputs start (value :: bytes) = lexer.outputs start' bytes := by
    rw [Machine.outputs_cons, hstep, List.nil_append]
  unfold NextRefines at h ⊢
  rw [hrun, hout, List.length_cons]
  split
  · rename_i p hp
    rw [hp] at h
    exact ⟨h.1, by have := h.2.1; omega, h.2.2⟩
  · rename_i hp
    rw [hp] at h
    dsimp only at h
    split_ifs at h ⊢
    · exact ⟨by have := h.1; omega, h.2⟩
    · exact ⟨h.1, by have := h.2.1; omega, h.2.2⟩
  · rename_i e he
    rw [he] at h
    exact h

/-- Two states that agree on the first byte. -/
theorem NextRefines.of_step {b : Builder} {start start' : Lex} {value : UInt8} {bytes : List UInt8}
    {n : Next} (h : NextRefines b start' (value :: bytes) n)
    (hstep : lexer.step start value = lexer.step start' value) :
    NextRefines b start (value :: bytes) n := by
  have hrun : lexer.run start (value :: bytes) = lexer.run start' (value :: bytes) := by
    rw [Machine.run_cons, hstep, Machine.run_cons]
  have hout : lexer.outputs start (value :: bytes) = lexer.outputs start' (value :: bytes) := by
    rw [Machine.outputs_cons, hstep, Machine.outputs_cons]
  unfold NextRefines at h ⊢
  rw [hrun, hout]
  exact h

/-- Reading an atom. -/
theorem decodeAtom_refines (b : Builder) (seq : JString) (bytes : List UInt8) :
    NextRefines b (.atom b []) bytes (decodeAtom ⟨seq, .READ_ATOM, false⟩ bytes) := by
  have hwalk := (collects_atom b).forEachByte [] bytes
  unfold decodeAtom
  generalize forEachByte MAX_ATOM_LENGTH (atomVisit false) [] bytes = walked at hwalk ⊢
  obtain ⟨seq, e | _ | rest⟩ := walked
  · -- the atom is too long, and will be too long again
    refine ⟨hwalk.2, ?_, fun _ => ⟨⟨rfl, .inl rfl⟩, rfl, hwalk.2⟩⟩
    rw [hwalk.1]
    rfl
  · -- the atom has not ended yet
    refine ⟨⟨rfl, .inl rfl⟩, Nat.le_refl _, rfl, hwalk.2, hwalk.2, fun hbetween => ?_⟩
    rw [hwalk.1] at hbetween
    cases hbetween
  · obtain ⟨hrun, hout, ⟨value, tail, rfl, hvisit⟩, hlen⟩ := hwalk
    have hend := atomVisit_stop hvisit
    dsimp only
    by_cases hseq : seq = []
    · -- an atom without characters, at a byte that will be read again
      have hdead : lexer.step (.atom b seq) value = (.dead, []) := by
        show Lex.stepAtom b seq value = _
        rw [Lex.stepAtom, if_pos hend, if_pos hseq]
      have hdead_run : lexer.run (.atom b seq) (value :: tail) = .dead := by
        rw [Machine.run_cons, hdead, absorbing_dead.run]
      have hdead_out : lexer.outputs (.atom b seq) (value :: tail) = [] := by
        rw [Machine.outputs_cons, hdead, absorbing_dead.outputs]
        rfl
      rw [if_pos hseq]
      subst hseq
      refine ⟨by rw [hout, hdead_out], ?_, fun _ => ⟨⟨rfl, .inl rfl⟩, ?_, hdead_out⟩⟩
      · rw [hrun, hdead_run]
        rfl
      · rw [hrun]
        rfl
    · have hstep : lexer.step (.atom b seq) value = lexer.step (.next (b.add (.ofAtom seq))) value := by
        show Lex.stepAtom b seq value = Lex.stepNext _ value
        rw [Lex.stepAtom, if_pos hend, if_neg hseq]
      have hpos : 0 < seq.length := List.length_pos_iff.mpr hseq
      rw [if_neg hseq]
      refine ⟨⟨rfl, .inr ⟨.inl rfl, rfl⟩⟩, ?_, ?_, ?_⟩
      · simp only [List.length_nil, Nat.add_zero] at hlen ⊢
        omega
      · rw [hrun, Machine.run_cons (lexer) (.atom b seq), hstep]
        rfl
      · rw [hout, Machine.outputs_cons lexer (.atom b seq), hstep]
        rfl

/-- Reading a quoted string that ends within the unread bytes. -/
theorem decodeQuotedString_refines (b : Builder) (bytes : List UInt8)
    (hopen : (lexer.run (.quoted b []) bytes).isOpen = false) :
    NextRefines b (.quoted b []) bytes
      (decodeQuotedString ⟨[], .READ_QUOTED_STRING, false⟩ (QUOTE :: bytes)) := by
  have hwalk := (collects_quoted b).forEachByte [] bytes
  unfold decodeQuotedString
  rw [List.drop_one, List.tail_cons]
  generalize forEachByte MAX_ATOM_LENGTH quotedVisit [] bytes = walked at hwalk ⊢
  obtain ⟨seq, e | _ | rest⟩ := walked
  · refine ⟨hwalk.2, ?_, fun hbroken => absurd hwalk.1 hbroken⟩
    rw [hwalk.1]
    rfl
  · -- the string has not ended, which the hypothesis excludes
    rw [hwalk.1] at hopen
    cases hopen
  · obtain ⟨hrun, hout, ⟨value, tail, rfl, hvisit⟩, hlen⟩ := hwalk
    have hquote : value = QUOTE := by
      unfold quotedVisit at hvisit
      split_ifs at hvisit with hquote hend
      exact hquote
    have hstep : lexer.step (.quoted b seq) value = (.next (b.add (.quotedString seq)), []) := by
      show Lex.stepQuoted b seq value = _
      rw [Lex.stepQuoted, if_pos hquote]
    refine ⟨⟨rfl, .inr ⟨.inl rfl, rfl⟩⟩, ?_, ?_, ?_⟩
    · simp only [List.length_nil, Nat.add_zero, List.length_cons, List.drop_one, List.tail_cons]
        at hlen ⊢
      omega
    · rw [hrun, Machine.run_cons, hstep]
      rfl
    · rw [hout, Machine.outputs_cons, hstep]
      rfl

/-- The choice by the first byte of a parameter. -/
theorem read_refines (b : Builder) (value : UInt8) (bytes : List UInt8) (hsp : value ≠ SP)
    (hopen : (lexer.run (.empty b) (value :: bytes)).isOpen = false) :
    NextRefines b (.empty b) (value :: bytes)
      (read ⟨[], parameterStart value, false⟩ (value :: bytes)) := by
  have hstep : lexer.step (.empty b) value = Lex.stepEmpty b value := rfl
  rw [Lex.stepEmpty, if_neg hsp] at hstep
  rw [Machine.run_cons] at hopen
  unfold parameterStart
  by_cases hquote : value = QUOTE
  · rw [if_pos hquote] at hstep ⊢
    rw [hstep] at hopen
    subst hquote
    exact (decodeQuotedString_refines b bytes hopen).cons hstep
  rw [if_neg hquote] at hstep ⊢
  by_cases hbracket : value = OPEN_BRACKET
  · -- a literal is outside the comparison
    rw [if_pos hbracket] at hstep
    rw [hstep, absorbing_literal.run] at hopen
    cases hopen
  rw [if_neg hbracket] at hstep ⊢
  by_cases hopenList : value = OPEN_PARENTHESES
  · rw [if_pos hopenList] at hstep ⊢
    refine ⟨⟨rfl, .inr ⟨.inr rfl, rfl⟩⟩, Nat.lt_succ_self _, ?_, ?_⟩
    · rw [Machine.run_cons, hstep]; rfl
    · rw [Machine.outputs_cons, hstep]; rfl
  rw [if_neg hopenList] at hstep ⊢
  by_cases hcloseList : value = CLOSE_PARENTHESES
  · rw [if_pos hcloseList] at hstep ⊢
    refine ⟨⟨rfl, .inr ⟨.inl rfl, rfl⟩⟩, Nat.lt_succ_self _, ?_, ?_⟩
    · rw [Machine.run_cons, hstep]; rfl
    · rw [Machine.outputs_cons, hstep]; rfl
  rw [if_neg hcloseList] at hstep ⊢
  exact (decodeAtom_refines b [] (value :: bytes)).of_step hstep

/-- A call that starts before a parameter. -/
theorem next_refines_empty (b : Builder) (bytes : List UInt8)
    (hopen : (lexer.run (.empty b) bytes).isOpen = false) :
    NextRefines b (.empty b) bytes (next ⟨[], .EMPTY, false⟩ bytes) := by
  induction bytes with
  | nil => exact ⟨⟨rfl, .inr ⟨.inr rfl, rfl⟩⟩, Nat.le_refl _, rfl, rfl, rfl, fun _ => rfl⟩
  | cons value bytes ih =>
    rw [next]
    dsimp only
    by_cases hsp : value = SP
    · have hstep : lexer.step (.empty b) value = (.empty b, []) := by
        show Lex.stepEmpty b value = _
        rw [Lex.stepEmpty, if_pos hsp]
      rw [Machine.run_cons, hstep] at hopen
      rw [if_pos hsp]
      exact (ih hopen).cons hstep
    · rw [if_neg hsp]
      exact read_refines b value bytes hsp hopen

/-- A call that starts after the command name or a parameter. -/
theorem next_refines_next (b : Builder) (bytes : List UInt8)
    (hopen : (lexer.run (.next b) bytes).isOpen = false) :
    NextRefines b (.next b) bytes (next ⟨[], .NEXT, false⟩ bytes) := by
  induction bytes with
  | nil => exact ⟨⟨rfl, .inr ⟨.inl rfl, rfl⟩⟩, Nat.le_refl _, rfl, rfl, rfl, fun _ => rfl⟩
  | cons value bytes ih =>
    have hstep : lexer.step (.next b) value = Lex.stepNext b value := rfl
    rw [Machine.run_cons] at hopen
    rw [Lex.stepNext] at hstep
    rw [next]
    dsimp only
    by_cases hsp : value = SP
    · rw [if_pos hsp] at hstep ⊢
      rw [hstep] at hopen
      exact (next_refines_empty b bytes hopen).cons hstep
    rw [if_neg hsp] at hstep ⊢
    by_cases hcr : value = CR
    · rw [if_pos hcr] at hstep ⊢
      rw [hstep] at hopen
      exact (ih hopen).cons hstep
    rw [if_neg hcr] at hstep ⊢
    by_cases hlf : value = LF
    · rw [if_pos hlf] at hstep ⊢
      refine ⟨Nat.lt_succ_self _, ?_, ?_⟩
      · rw [Machine.run_cons, hstep]; rfl
      · rw [Machine.outputs_cons, hstep]; rfl
    rw [if_neg hlf] at hstep ⊢
    rw [if_neg (by simp)]
    by_cases hcloseList : value = CLOSE_PARENTHESES
    · rw [if_pos hcloseList] at hstep
      subst hcloseList
      refine ⟨⟨rfl, .inr ⟨.inl rfl, rfl⟩⟩, Nat.lt_succ_self _, ?_, ?_⟩
      · rw [Machine.run_cons, hstep]; rfl
      · rw [Machine.outputs_cons, hstep]; rfl
    rw [if_neg hcloseList] at hstep
    by_cases hsquare : value = CLOSE_SQUARE
    · -- the source falls through to the choice by the first byte, which takes it as an atom
      rw [if_pos hsquare] at hstep
      rw [if_pos (.inl hsquare)]
      subst hsquare
      exact (decodeAtom_refines b [] (CLOSE_SQUARE :: bytes)).of_step hstep
    · -- `CorruptedFrameException`, and the byte stays unread
      rw [if_neg hsquare] at hstep
      rw [if_neg (by simp [hsquare, hcloseList])]
      refine ⟨?_, ?_, fun _ => ⟨⟨rfl, .inr ⟨.inl rfl, rfl⟩⟩, rfl, ?_⟩⟩
      · rw [Machine.outputs_cons, hstep, absorbing_dead.outputs]; rfl
      · rw [Machine.run_cons, hstep, absorbing_dead.run]; rfl
      · show lexer.outputs (.next b) (value :: bytes) = []
        rw [Machine.outputs_cons, hstep, absorbing_dead.outputs]; rfl

/-- One call of the parameter decoder. -/
theorem next_refines (b : Builder) {d : ImapParameterDecoder} (hd : Resumable d) (bytes : List UInt8)
    (hopen : (lexer.run (absParameter b d.currentState) bytes).isOpen = false) :
    NextRefines b (absParameter b d.currentState) bytes (d.next bytes) := by
  obtain ⟨seq, state, status⟩ := d
  obtain ⟨hstatus, hstate⟩ := hd
  obtain rfl : status = false := hstatus
  rcases hstate with hatom | ⟨hnext | hempty, hseq⟩
  · obtain rfl : state = .READ_ATOM := hatom
    cases bytes with
    | nil => exact ⟨⟨rfl, .inl rfl⟩, Nat.le_refl _, rfl, rfl, rfl, fun _ => rfl⟩
    | cons value bytes => exact decodeAtom_refines b seq (value :: bytes)
  · obtain rfl : state = .NEXT := hnext
    obtain rfl : seq = [] := hseq
    exact next_refines_next b bytes hopen
  · obtain rfl : state = .EMPTY := hempty
    obtain rfl : seq = [] := hseq
    exact next_refines_empty b bytes hopen

/-! ## Commands -/

namespace ImapCommandDecoder

/-- The parts of the command that the decoder has read. -/
def builder (s : ImapCommandDecoder) : Builder := ⟨s.tag, s.command, s.params⟩

/-- The lexer's state at the start of the unread bytes. -/
def abs (s : ImapCommandDecoder) : Lex :=
  match s.currentState with
  | .READ_TAG => .tag []
  | .READ_COMMAND => .command s.tag []
  | .READ_PARAMTERS => absParameter s.builder s.paramDecoder.currentState
  | .READ_APPEND => .dead

/-- The states in which a call leaves the decoder and from which it resumes correctly. After an `APPEND`
without a literal there is no buffer to fill. -/
def Good (s : ImapCommandDecoder) : Prop :=
  match s.currentState with
  | .READ_TAG => s.params = [] ∧ s.paramDecoder = .reset false ∧ s.request = none
  | .READ_COMMAND => s.params = [] ∧ s.paramDecoder = .reset false ∧ s.request = none
  | .READ_PARAMTERS => Resumable s.paramDecoder ∧ s.request = none
  | .READ_APPEND => ∃ cmd, s.request = some cmd ∧ cmd.buffer = none

/-- What one call of `decode` and of the handler has to do with the lexer. -/
def Refines (ctx : SessionContext) (start : Lex) (bytes : List UInt8) : Decoded → Prop
  | .starved s rest =>
    s.Good ∧ lexer.run s.abs rest = lexer.run start bytes ∧ lexer.outputs s.abs rest = []
      ∧ lexer.outputs start bytes = [] ∧ rest.length ≤ bytes.length
      ∧ ((lexer.run start bytes).isBetween = true → rest = [])
  | .emitted cmd s rest =>
    (s.handled ctx).Good ∧ lexer.run (s.handled ctx).abs rest = lexer.run start bytes
      ∧ lexer.outputs start bytes = cmd :: lexer.outputs (s.handled ctx).abs rest
      ∧ rest.length < bytes.length
  | .fault _ s rest =>
    lexer.outputs start bytes = [] ∧ (lexer.run start bytes).isBetween = false
      ∧ (lexer.run start bytes ≠ .broken →
      s.Good ∧ lexer.run s.abs rest = lexer.run start bytes ∧ lexer.outputs s.abs rest = [])

variable {ctx : SessionContext}

section unread

variable {s : ImapCommandDecoder} {start : Lex} {bytes : List UInt8} (hs : s.Good) (habs : s.abs = start)
  (hout : lexer.outputs start bytes = []) (hbetween : (lexer.run start bytes).isBetween = false)

include hs habs hout hbetween

/-- A call that fails and leaves the bytes unread. -/
theorem refines_fault_unread (e : JavaException) : Refines ctx start bytes (.fault e s bytes) := by
  subst habs
  exact ⟨hout, hbetween, fun _ => ⟨hs, rfl, hout⟩⟩

/-- A call that waits for more bytes and leaves these unread. -/
theorem refines_starved_unread : Refines ctx start bytes (.starved s bytes) := by
  subst habs
  refine ⟨hs, rfl, hout, hout, Nat.le_refl _, fun h => ?_⟩
  rw [hbetween] at h
  cases h

end unread

/-- A later start on the same stream. -/
theorem Refines.mono {start start' : Lex} {bytes bytes' : List UInt8} {o : Decoded}
    (h : Refines ctx start' bytes' o) (hrun : lexer.run start bytes = lexer.run start' bytes')
    (hout : lexer.outputs start bytes = lexer.outputs start' bytes')
    (hlen : bytes'.length ≤ bytes.length) : Refines ctx start bytes o := by
  cases o with
  | starved s rest =>
    obtain ⟨hgood, hrun', hnone, hnone', hle, hrest⟩ := h
    exact ⟨hgood, by rw [hrun', hrun], hnone, by rw [hout, hnone'], by omega,
      by rw [hrun]; exact hrest⟩
  | emitted cmd s rest =>
    obtain ⟨hgood, hrun', hout', hlt⟩ := h
    exact ⟨hgood, by rw [hrun', hrun], by rw [hout, hout'], by omega⟩
  | fault e s rest =>
    obtain ⟨hnone, hbetween, hgood⟩ := h
    refine ⟨by rw [hout, hnone], by rw [hrun, hbetween], fun hbroken => ?_⟩
    rw [hrun] at hbroken ⊢
    exact hgood hbroken

/-- What the loop over the parameters has to do with the lexer. -/
def ReadRefines (start : Lex) (bytes : List UInt8)
    (r : ImapCommandDecoder × List UInt8 × Except JavaException Unit) : Prop :=
  let s := r.1
  let rest := r.2.1
  s.currentState = .READ_PARAMTERS ∧ s.request = none ∧
  match r.2.2 with
  | .ok _ =>
    if s.paramDecoder.currentState = .Ended then
      rest.length < bytes.length
        ∧ lexer.run (Lex.finish s.builder).1 rest = lexer.run start bytes
        ∧ lexer.outputs start bytes
          = (Lex.finish s.builder).2 ++ lexer.outputs (Lex.finish s.builder).1 rest
    else
      Resumable s.paramDecoder ∧ rest.length ≤ bytes.length
        ∧ lexer.run (absParameter s.builder s.paramDecoder.currentState) rest = lexer.run start bytes
        ∧ lexer.outputs (absParameter s.builder s.paramDecoder.currentState) rest = []
        ∧ lexer.outputs start bytes = []
        ∧ ((lexer.run start bytes).isBetween = true → rest = [])
  | .error _ =>
    lexer.outputs start bytes = [] ∧ (lexer.run start bytes).isBetween = false
      ∧ (lexer.run start bytes ≠ .broken →
      Resumable s.paramDecoder
        ∧ lexer.run (absParameter s.builder s.paramDecoder.currentState) rest = lexer.run start bytes
        ∧ lexer.outputs (absParameter s.builder s.paramDecoder.currentState) rest = [])

/-- A later start on the same stream. -/
theorem ReadRefines.mono {start start' : Lex} {bytes bytes' : List UInt8}
    {r : ImapCommandDecoder × List UInt8 × Except JavaException Unit}
    (h : ReadRefines start' bytes' r) (hrun : lexer.run start' bytes' = lexer.run start bytes)
    (hout : lexer.outputs start' bytes' = lexer.outputs start bytes)
    (hlen : bytes'.length ≤ bytes.length) : ReadRefines start bytes r := by
  obtain ⟨s, rest, e | u⟩ := r
  · unfold ReadRefines at h ⊢
    rw [hrun, hout] at h
    exact h
  · unfold ReadRefines at h ⊢
    rw [hrun, hout] at h
    obtain ⟨hstate, hrequest, h⟩ := h
    refine ⟨hstate, hrequest, ?_⟩
    dsimp only at h ⊢
    split_ifs at h ⊢
    · exact ⟨by have := h.1; omega, h.2⟩
    · exact ⟨h.1, by have := h.2.1; omega, h.2.2⟩

/-- The loop over the parameters. -/
theorem readParameters_refines (fuel : ℕ) {s : ImapCommandDecoder} {bytes : List UInt8}
    (hfuel : bytes.length < fuel) (hstate : s.currentState = .READ_PARAMTERS)
    (hrequest : s.request = none) (hd : Resumable s.paramDecoder)
    (hopen : (lexer.run (absParameter s.builder s.paramDecoder.currentState) bytes).isOpen = false) :
    ReadRefines (absParameter s.builder s.paramDecoder.currentState) bytes
      (readParameters fuel s bytes) := by
  induction fuel generalizing s bytes with
  | zero => omega
  | succ fuel ih =>
    have hnext := next_refines s.builder hd bytes hopen
    unfold NextRefines at hnext
    rw [readParameters]
    dsimp only
    generalize s.paramDecoder.next bytes = n at hnext ⊢
    obtain ⟨d, rest, e | _ | p⟩ := n
    · exact ⟨hstate, hrequest, hnext⟩
    · exact ⟨hstate, hrequest, hnext⟩
    · obtain ⟨hd', hlt, hrun, hout⟩ := hnext
      have hfuel' : rest.length < fuel := by
        dsimp only at hlt
        omega
      have hopen' : (lexer.run (absParameter (s.builder.add p) d.currentState) rest).isOpen
          = false := by
        dsimp only at hrun
        rw [hrun]
        exact hopen
      have hloop := ih (s := { s with paramDecoder := d, params := s.params ++ [p] }) hfuel' hstate
        hrequest hd' hopen'
      exact hloop.mono hrun hout (Nat.le_of_lt hlt)

/-- After an `APPEND` without a literal the handler has allocated no buffer. -/
theorem doProcess_buffer_none (ctx : SessionContext) (tag command : JString)
    {params : List ImapCommandParameter} (h : AppendCommand.literalSize params = none) :
    (AppendCommand.doProcess ctx (ImapCommandBuilder.build tag command params)).command.buffer
      = none := by
  unfold AppendCommand.doProcess ImapCommandBuilder.build
  dsimp only
  cases params with
  | nil => rfl
  | cons arg args =>
    rw [h]
    rfl

/-- Inside the parameters the state is that of the parameter decoder. -/
theorem abs_of_parameters {s : ImapCommandDecoder} (hstate : s.currentState = .READ_PARAMTERS) :
    s.abs = absParameter s.builder s.paramDecoder.currentState := by
  rw [abs, hstate]

theorem good_of_parameters {s : ImapCommandDecoder} (hstate : s.currentState = .READ_PARAMTERS)
    (hrequest : s.request = none) (hd : Resumable s.paramDecoder) : s.Good := by
  rw [Good, hstate]
  exact ⟨hd, hrequest⟩

/-- The end of a command line. -/
theorem finish_refines {s : ImapCommandDecoder} {start : Lex} {bytes rest : List UInt8}
    (hlt : rest.length < bytes.length)
    (hrun : lexer.run (Lex.finish s.builder).1 rest = lexer.run start bytes)
    (hout : lexer.outputs start bytes
      = (Lex.finish s.builder).2 ++ lexer.outputs (Lex.finish s.builder).1 rest)
    (hopen : (lexer.run start bytes).isOpen = false) :
    let request := ImapCommandBuilder.build s.tag s.command s.params
    Refines ctx start bytes
      (if request.isAppend then
        .emitted request { s with currentState := .READ_APPEND, request := some request } rest
      else .emitted request resetNow rest) := by
  intro request
  by_cases happend : request.isAppend = true
  · have hfinish : Lex.finish s.builder
        = (if AppendCommand.literalSize s.params = none then .dead else .literal, [request]) := by
      rw [Lex.finish]
      exact if_pos happend
    have hsize : AppendCommand.literalSize s.params = none := by
      by_contra hsize
      rw [hfinish, if_neg hsize, absorbing_literal.run] at hrun
      rw [← hrun] at hopen
      cases hopen
    rw [hfinish, if_pos hsize] at hrun hout
    rw [if_pos happend]
    refine ⟨?_, hrun, hout, hlt⟩
    exact ⟨_, rfl, doProcess_buffer_none ctx s.tag s.command hsize⟩
  · have hfinish : Lex.finish s.builder = (.tag [], [request]) := by
      rw [Lex.finish]
      exact if_neg happend
    rw [hfinish] at hrun hout
    rw [if_neg happend]
    exact ⟨⟨rfl, rfl, rfl⟩, hrun, hout, hlt⟩

/-- `decode` from `READ_PARAMTERS` on. -/
theorem decodeParameters_refines {s : ImapCommandDecoder} {bytes : List UInt8}
    (hstate : s.currentState = .READ_PARAMTERS) (hrequest : s.request = none)
    (hd : Resumable s.paramDecoder)
    (hopen : (lexer.run (absParameter s.builder s.paramDecoder.currentState) bytes).isOpen = false) :
    Refines ctx (absParameter s.builder s.paramDecoder.currentState) bytes
      (decodeParameters s bytes) := by
  have hread := readParameters_refines (bytes.length + 1) (Nat.lt_succ_self _) hstate hrequest hd hopen
  unfold decodeParameters
  generalize absParameter s.builder s.paramDecoder.currentState = start at hread hopen ⊢
  generalize readParameters (bytes.length + 1) s bytes = r at hread ⊢
  obtain ⟨s, rest, e | u⟩ := r
  · obtain ⟨hstate, hrequest, hnone, hbetween, hgood⟩ := hread
    refine ⟨hnone, hbetween, fun hbroken => ?_⟩
    obtain ⟨hd, hrun, hout⟩ := hgood hbroken
    rw [abs_of_parameters hstate]
    exact ⟨good_of_parameters hstate hrequest hd, hrun, hout⟩
  · obtain ⟨hstate, hrequest, hread⟩ := hread
    dsimp only at hread hstate hrequest ⊢
    by_cases hended : s.paramDecoder.currentState = .Ended
    · rw [if_pos hended] at hread ⊢
      exact finish_refines hread.1 hread.2.1 hread.2.2 hopen
    · rw [if_neg hended] at hread ⊢
      obtain ⟨hd, hle, hrun, hnone, hnone', hrest⟩ := hread
      rw [← abs_of_parameters hstate] at hrun hnone
      exact ⟨good_of_parameters hstate hrequest hd, hrun, hnone, hnone', hle, hrest⟩

theorem process_take {value : UInt8} (h : AtomDecoder.process value = .take) :
    Lex.isNameEnd value = false := by
  unfold AtomDecoder.process at h
  split_ifs at h with hend
  exact decide_eq_false hend

theorem process_stop {value : UInt8} (h : AtomDecoder.process value = .stop) :
    Lex.isNameEnd value = true := by
  unfold AtomDecoder.process at h
  split_ifs at h with hend
  exact decide_eq_true hend

/-- Atoms never fail at a byte. -/
theorem process_ne_fail {value : UInt8} {e : JavaException} : AtomDecoder.process value ≠ .fail e := by
  unfold AtomDecoder.process
  split_ifs <;> exact nofun

/-- The tag is collected byte by byte, up to a name end or the limit. -/
theorem collects_tag : Collects AtomDecoder.MAX_ATOM_LENGTH AtomDecoder.process .tag .dead where
  take {seq value} hvisit hlen := by
    show Lex.stepTag seq value = _
    rw [Lex.stepTag, process_take hvisit, if_neg Bool.false_ne_true, if_neg (by omega)]
  long {seq value} hvisit hlen := by
    show Lex.stepTag seq value = _
    rw [Lex.stepTag, process_take hvisit, if_neg Bool.false_ne_true, if_pos hlen]
  fail hvisit := absurd hvisit process_ne_fail
  absorbing := absorbing_dead

/-- The name of the command is collected in the same way. -/
theorem collects_command (tag : JString) :
    Collects AtomDecoder.MAX_ATOM_LENGTH AtomDecoder.process (.command tag) .dead where
  take {seq value} hvisit hlen := by
    show Lex.stepCommand tag seq value = _
    rw [Lex.stepCommand, process_take hvisit, if_neg Bool.false_ne_true, if_neg (by omega)]
  long {seq value} hvisit hlen := by
    show Lex.stepCommand tag seq value = _
    rw [Lex.stepCommand, process_take hvisit, if_neg Bool.false_ne_true, if_pos hlen]
  fail hvisit := absurd hvisit process_ne_fail
  absorbing := absorbing_dead

/-- `decode` from `READ_COMMAND` on. -/
theorem decodeCommand_refines {s : ImapCommandDecoder} {bytes : List UInt8}
    (hstate : s.currentState = .READ_COMMAND) (hs : s.Good)
    (hopen : (lexer.run (.command s.tag []) bytes).isOpen = false) :
    Refines ctx (.command s.tag []) bytes (decodeCommand s bytes) := by
  have habs : s.abs = .command s.tag [] := by
    rw [abs, hstate]
  have hwalk := (collects_command s.tag).forEachByte [] bytes
  unfold decodeCommand AtomDecoder.parse
  generalize forEachByte AtomDecoder.MAX_ATOM_LENGTH AtomDecoder.process [] bytes = walked at hwalk ⊢
  obtain ⟨seq, e | _ | rest⟩ := walked
  · refine refines_fault_unread hs habs hwalk.2 ?_ e
    rw [hwalk.1]
    rfl
  · refine refines_starved_unread hs habs hwalk.2 ?_
    rw [hwalk.1]
    rfl
  · obtain ⟨hrun, hout, ⟨value, tail, rfl, hvisit⟩, hlen⟩ := hwalk
    -- the byte that ended the name is read again as the first byte after it
    have hstep : lexer.step (.command s.tag seq) value = lexer.step (.next ⟨s.tag, seq, []⟩) value := by
      show Lex.stepCommand s.tag seq value = Lex.stepNext _ value
      rw [Lex.stepCommand, process_stop hvisit, if_pos rfl]
    have hrun' : lexer.run (.command s.tag []) bytes
        = lexer.run (.next ⟨s.tag, seq, []⟩) (value :: tail) := by
      rw [hrun, Machine.run_cons, hstep, Machine.run_cons]
    have hout' : lexer.outputs (.command s.tag []) bytes
        = lexer.outputs (.next ⟨s.tag, seq, []⟩) (value :: tail) := by
      rw [hout, Machine.outputs_cons, hstep, Machine.outputs_cons]
    rw [Good, hstate] at hs
    obtain ⟨hparams, hdecoder, hrequest⟩ := hs
    let s' : ImapCommandDecoder := { s with command := seq, currentState := .READ_PARAMTERS }
    have habs' : absParameter s'.builder s'.paramDecoder.currentState
        = .next ⟨s.tag, seq, []⟩ := by
      show absParameter ⟨s.tag, seq, s.params⟩ s.paramDecoder.currentState = _
      rw [hparams, hdecoder]
      rfl
    have hresumable : Resumable s'.paramDecoder := by
      show Resumable s.paramDecoder
      rw [hdecoder]
      exact ⟨rfl, .inr ⟨.inl rfl, rfl⟩⟩
    have hparameters : Refines ctx (absParameter s'.builder s'.paramDecoder.currentState)
        (value :: tail) (decodeParameters s' (value :: tail)) :=
      decodeParameters_refines rfl hrequest hresumable (by rw [habs', ← hrun']; exact hopen)
    rw [habs'] at hparameters
    simp only [List.length_cons, List.length_nil] at hlen
    exact hparameters.mono hrun' hout' (by simp only [List.length_cons]; omega)

/-- `decode` from `READ_TAG` on. -/
theorem decodeTag_refines {s : ImapCommandDecoder} {bytes : List UInt8}
    (hstate : s.currentState = .READ_TAG) (hs : s.Good)
    (hopen : (lexer.run (.tag []) bytes).isOpen = false) :
    Refines ctx (.tag []) bytes (decodeTag s bytes) := by
  have habs : s.abs = .tag [] := by
    rw [abs, hstate]
  have hwalk := collects_tag.forEachByte [] bytes
  unfold decodeTag AtomDecoder.parse
  generalize forEachByte AtomDecoder.MAX_ATOM_LENGTH AtomDecoder.process [] bytes = walked at hwalk ⊢
  obtain ⟨seq, e | _ | rest⟩ := walked
  · refine refines_fault_unread hs habs hwalk.2 ?_ e
    rw [hwalk.1]
    rfl
  · refine refines_starved_unread hs habs hwalk.2 ?_
    rw [hwalk.1]
    rfl
  · obtain ⟨hrun, hout, ⟨value, tail, rfl, hvisit⟩, hlen⟩ := hwalk
    have hstep : ∀ seq, lexer.step (.tag seq) value
        = (if value = SP then .command seq [] else .dead, []) := by
      intro seq
      show Lex.stepTag seq value = _
      rw [Lex.stepTag, process_stop hvisit, if_pos rfl]
    rw [Good, hstate] at hs
    dsimp only
    by_cases hsp : value = SP
    · rw [List.head?_cons, if_pos (by rw [hsp]), List.drop_one, List.tail_cons]
      have hrun' : lexer.run (.tag []) bytes = lexer.run (.command seq []) tail := by
        rw [hrun, Machine.run_cons, hstep, if_pos hsp]
      have hout' : lexer.outputs (.tag []) bytes = lexer.outputs (.command seq []) tail := by
        rw [hout, Machine.outputs_cons, hstep, if_pos hsp]
        rfl
      let s' : ImapCommandDecoder := { s with tag := seq, currentState := .READ_COMMAND }
      have hcommand : Refines ctx (.command s'.tag []) tail (decodeCommand s' tail) :=
        decodeCommand_refines rfl hs (by rw [hrun'] at hopen; exact hopen)
      simp only [List.length_cons, List.length_nil] at hlen
      exact hcommand.mono hrun' hout' (by omega)
    · -- the byte stays unread, and the next call stops at it again
      have hdead : ∀ seq, lexer.run (.tag seq) (value :: tail) = .dead := by
        intro seq
        rw [Machine.run_cons, hstep, if_neg hsp, absorbing_dead.run]
      have hnone : ∀ seq, lexer.outputs (.tag seq) (value :: tail) = [] := by
        intro seq
        rw [Machine.outputs_cons, hstep, if_neg hsp, absorbing_dead.outputs]
        rfl
      rw [List.head?_cons, if_neg (by simpa using hsp)]
      refine ⟨by rw [hout, hnone], by rw [hrun, hdead]; rfl, fun _ => ⟨?_, ?_, ?_⟩⟩
      · rw [Good]
        dsimp only
        rw [hstate]
        exact hs
      · rw [hrun, hdead, abs]
        dsimp only
        rw [hstate, hdead]
      · rw [abs]
        dsimp only
        rw [hstate, hnone]

/-- `decode` after an `APPEND` that left no buffer: nothing is read any more. -/
theorem decodeAppend_refines {s : ImapCommandDecoder} (hstate : s.currentState = .READ_APPEND)
    (hs : s.Good) (bytes : List UInt8) : Refines ctx .dead bytes (decodeAppend s bytes) := by
  have habs : s.abs = .dead := by
    rw [abs, hstate]
  have hgood := hs
  rw [Good, hstate] at hs
  obtain ⟨cmd, hrequest, hbuffer⟩ := hs
  have hsame : decodeAppend s bytes = .starved s bytes := by
    simp only [decodeAppend, hrequest, AppendCommand.appendBuf, hbuffer]
    rw [← hrequest]
  rw [hsame]
  refine ⟨hgood, by rw [habs], by rw [habs]; exact absorbing_dead.outputs bytes,
    absorbing_dead.outputs bytes, Nat.le_refl _, fun hbetween => ?_⟩
  rw [absorbing_dead.run] at hbetween
  cases hbetween

/-- One call of `decode` and of the handler. -/
theorem decode_refines {s : ImapCommandDecoder} {bytes : List UInt8} (hs : s.Good)
    (hopen : (lexer.run s.abs bytes).isOpen = false) : Refines ctx s.abs bytes (s.decode bytes) := by
  unfold decode
  cases hstate : s.currentState with
  | READ_TAG =>
    have habs : s.abs = .tag [] := by rw [abs, hstate]
    rw [habs] at hopen ⊢
    exact decodeTag_refines hstate hs hopen
  | READ_COMMAND =>
    have habs : s.abs = .command s.tag [] := by rw [abs, hstate]
    rw [habs] at hopen ⊢
    exact decodeCommand_refines hstate hs hopen
  | READ_PARAMTERS =>
    rw [abs_of_parameters hstate] at hopen ⊢
    rw [Good, hstate] at hs
    exact decodeParameters_refines hstate hs.2 hs.1 hopen
  | READ_APPEND =>
    have habs : s.abs = .dead := by rw [abs, hstate]
    rw [habs]
    exact decodeAppend_refines hstate hs bytes

end ImapCommandDecoder

/-- The decoder refines the lexer, unless a chunk ends inside a quoted string or a literal begins, and up
to a broken quoted string. -/
theorem refines_lexer (ctx : SessionContext) :
    (imapDecoder ctx).Refines lexer ImapCommandDecoder.abs ImapCommandDecoder.Good
      (fun l => l.isOpen = true) (fun l => l = .broken) (fun l => l.isBetween = true) := by
  have hcall : ∀ {s : ImapCommandDecoder} {x : List UInt8}, s.Good →
      ¬ (lexer.run s.abs x).isOpen = true → ImapCommandDecoder.Refines ctx s.abs x (s.decode x) := by
    intro s x hs hopen
    exact ImapCommandDecoder.decode_refines hs (by simpa using hopen)
  refine ⟨?_, ?_, ?_⟩
  · intro s x s' rest hs hopen hdec
    have hrefines := hcall hs hopen
    rw [imapDecoder_starved.mp hdec] at hrefines
    exact hrefines
  · intro s x cmd s' rest hs hopen hdec
    have hrefines := hcall hs hopen
    obtain ⟨s₁, rfl, hdec₁⟩ := imapDecoder_emitted.mp hdec
    rw [hdec₁] at hrefines
    exact hrefines
  · intro s x e s' rest hs hopen hdec
    have hrefines := hcall hs hopen
    rw [imapDecoder_fault.mp hdec] at hrefines
    exact ⟨hrefines.1, by rw [hrefines.2.1]; exact Bool.false_ne_true, hrefines.2.2⟩

end OrgLittle.Imap
