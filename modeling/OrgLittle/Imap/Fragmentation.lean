import OrgLittle.Imap.Lexer

/-!
# Command lines in fragments

TCP may deliver a stream of command lines in chunks of any size. The first half of `emitted_fragments`
says when the chunks make no difference: when none of them ends inside a quoted string, or after one that
was broken off. The decoder skips a byte each time it enters `decodeQuotedString`, which is right for the
opening quote and wrong when the call resumes inside the string.

The second half says that nothing weaker would do. A stream of well-formed lines with a quoted string
in it can be cut such that the commands change: right after the opening quote.
-/

namespace OrgLittle.Imap

open OrgLittle.Java OrgLittle.Lib ImapParameterDecoder

/-- Where the lexer stands after the first bytes of a stream. -/
def lexed (bytes : List UInt8) : Lex := lexer.run (.tag []) bytes

/-- The stream stands inside a quoted string, or a quoted string was broken off. -/
def Lex.inQuotes : Lex → Bool
  | .quoted _ _ => true
  | .broken => true
  | _ => false

/-- No chunk but the last ends inside a quoted string or after a broken one. -/
def CutsOutsideQuotes (chunks : List (List UInt8)) : Prop :=
  ∀ k, k < chunks.length → (lexed (chunks.take k).flatten).inQuotes = false

/-! ## What one byte can do -/

/-- The parts read so far, in the states after the command name. -/
def Lex.builder : Lex → Option Builder
  | .next b => some b
  | .empty b => some b
  | .atom b _ => some b
  | .quoted b _ => some b
  | _ => none

/-- The states in which nothing happens any more. -/
def Lex.isStopped : Lex → Bool
  | .literal => true
  | .broken => true
  | .dead => true
  | _ => false

/-- What a byte does after the command name: it extends the command, stops the lexer, or ends the
line. -/
inductive Advances (b : Builder) : Lex × List ImapCommand → Prop
  | extend {b' : Builder} {l : Lex} (hparams : b.params <+: b'.params) (hl : l.builder = some b') :
      Advances b (l, [])
  | stop {l : Lex} (hl : l.isStopped = true) : Advances b (l, [])
  | finish {b' : Builder} (hparams : b.params <+: b'.params) : Advances b (Lex.finish b')

theorem Advances.mono {b b' : Builder} {r : Lex × List ImapCommand} (h : Advances b' r)
    (hparams : b.params <+: b'.params) : Advances b r := by
  cases h with
  | extend hp hl => exact .extend (hparams.trans hp) hl
  | stop hl => exact .stop hl
  | finish hp => exact .finish (hparams.trans hp)

theorem Builder.params_prefix_add (b : Builder) (p : ImapCommandParameter) :
    b.params <+: (b.add p).params := List.prefix_append _ _

theorem stepNext_advances (b : Builder) (value : UInt8) : Advances b (Lex.stepNext b value) := by
  unfold Lex.stepNext
  split_ifs
  · exact .extend (List.prefix_refl _) rfl
  · exact .extend (List.prefix_refl _) rfl
  · exact .finish (List.prefix_refl _)
  · exact .extend (b.params_prefix_add _) rfl
  · exact .extend (List.prefix_refl _) rfl
  · exact .stop rfl

theorem stepAtom_advances (b : Builder) (seq : JString) (value : UInt8) :
    Advances b (Lex.stepAtom b seq value) := by
  unfold Lex.stepAtom
  split_ifs
  · exact .stop rfl
  · exact (stepNext_advances _ value).mono (b.params_prefix_add _)
  · exact .stop rfl
  · exact .extend (List.prefix_refl _) rfl

/-- A byte adds to the parameters or ends the command with them. -/
theorem step_advances {l : Lex} {b : Builder} (h : l.builder = some b) (value : UInt8) :
    Advances b (lexer.step l value) := by
  cases l with
  | next b' => cases h; exact stepNext_advances b value
  | atom b' seq => cases h; exact stepAtom_advances b seq value
  | empty b' =>
    cases h
    show Advances b (Lex.stepEmpty b value)
    unfold Lex.stepEmpty
    split_ifs
    · exact .extend (List.prefix_refl _) rfl
    · exact .extend (List.prefix_refl _) rfl
    · exact .stop rfl
    · exact .extend (b.params_prefix_add _) rfl
    · exact .extend (b.params_prefix_add _) rfl
    · exact stepAtom_advances b [] value
  | quoted b' seq =>
    cases h
    show Advances b (Lex.stepQuoted b seq value)
    unfold Lex.stepQuoted
    split_ifs
    · exact .extend (b.params_prefix_add _) rfl
    · exact .stop rfl
    · exact .stop rfl
    · exact .extend (List.prefix_refl _) rfl
  | _ => cases h

/-- A lexer that has stopped stays so. -/
theorem absorbing_of_isStopped {l : Lex} (h : l.isStopped = true) : lexer.Absorbing l := by
  cases l with
  | literal => exact absorbing_literal
  | broken => exact absorbing_broken
  | dead => exact absorbing_dead
  | _ => cases h

/-- A line that was read to its end gave a command, and its parameters begin with those that had been
read before. -/
theorem outputs_of_run_eq_tag {l : Lex} {b : Builder} (h : l.builder = some b) (bytes : List UInt8)
    {seq : JString} (hrun : lexer.run l bytes = .tag seq) :
    ∃ cmd cmds, lexer.outputs l bytes = cmd :: cmds ∧ b.params <+: cmd.parameters := by
  induction bytes generalizing l b with
  | nil =>
    obtain rfl : l = .tag seq := hrun
    cases h
  | cons value bytes ih =>
    have hstep := step_advances h value
    rw [Machine.run_cons] at hrun
    rw [Machine.outputs_cons]
    generalize lexer.step l value = r at hstep hrun ⊢
    cases hstep with
    | extend hparams hl =>
      obtain ⟨cmd, cmds, hout, hprefix⟩ := ih hl hrun
      exact ⟨cmd, cmds, hout, hparams.trans hprefix⟩
    | stop hl =>
      rw [(absorbing_of_isStopped hl).run] at hrun
      rw [hrun] at hl
      cases hl
    | finish hparams =>
      rw [Lex.finish_snd]
      exact ⟨_, _, rfl, hparams⟩

theorem finish_ne_quoted (b b' : Builder) (seq : JString) : (Lex.finish b).1 ≠ .quoted b' seq := by
  unfold Lex.finish
  dsimp only
  split_ifs <;> simp

theorem stepNext_ne_quoted (b b' : Builder) (seq : JString) (value : UInt8) :
    (Lex.stepNext b value).1 ≠ .quoted b' seq := by
  unfold Lex.stepNext
  split_ifs
  all_goals first | exact finish_ne_quoted b b' seq | simp

theorem stepAtom_ne_quoted (b b' : Builder) (seq seq' : JString) (value : UInt8) :
    (Lex.stepAtom b seq value).1 ≠ .quoted b' seq' := by
  unfold Lex.stepAtom
  split_ifs
  all_goals first | exact stepNext_ne_quoted _ b' seq' value | simp

/-! ## Chunks that make no difference -/

/-- How the lexer enters a quoted string and stays in it. -/
theorem step_eq_quoted {l : Lex} {value : UInt8} {b : Builder} {seq : JString}
    (h : (lexer.step l value).1 = .quoted b seq) :
    (∃ seq', l = .quoted b seq' ∧ value ≠ LF) ∨ (l = .empty b ∧ value = QUOTE ∧ seq = []) := by
  cases l with
  | tag seq' =>
    change (Lex.stepTag seq' value).1 = _ at h
    unfold Lex.stepTag at h
    split_ifs at h
  | command name seq' =>
    change (Lex.stepCommand name seq' value).1 = _ at h
    unfold Lex.stepCommand at h
    split_ifs at h
    exact absurd h (stepNext_ne_quoted _ b seq value)
  | next b' => exact absurd h (stepNext_ne_quoted b' b seq value)
  | atom b' seq' => exact absurd h (stepAtom_ne_quoted b' b seq' seq value)
  | empty b' =>
    change (Lex.stepEmpty b' value).1 = _ at h
    unfold Lex.stepEmpty at h
    split_ifs at h with hsp hquote
    · cases h
      exact .inr ⟨rfl, hquote, rfl⟩
    · exact absurd h (stepAtom_ne_quoted b' b [] seq value)
  | quoted b' seq' =>
    change (Lex.stepQuoted b' seq' value).1 = _ at h
    unfold Lex.stepQuoted at h
    split_ifs at h with hquote hend
    cases h
    exact .inl ⟨seq', rfl, fun hlf => hend (.inl hlf)⟩
  | literal => cases h
  | broken => cases h
  | dead => cases h

/-- A stream of lines does not end inside a quoted string. -/
theorem lexed_lines_not_quoted (lines : List (List UInt8)) (b : Builder) (seq : JString) :
    lexed (lines.flatMap (· ++ CRLF)) ≠ .quoted b seq := by
  intro h
  rcases List.eq_nil_or_concat lines with rfl | ⟨lines, l, rfl⟩
  · cases h
  · have hlast : (lines.concat l).flatMap (· ++ CRLF)
        = (lines.flatMap (· ++ CRLF) ++ l ++ [CR]) ++ [LF] := by
      simp [CRLF]
    rw [hlast, lexed, Machine.run_append] at h
    rcases step_eq_quoted h with ⟨seq', -, hlf⟩ | ⟨-, hquote, -⟩
    · exact hlf rfl
    · cases hquote

/-- A stream that ends without a literal has none. -/
theorem lexed_prefix_ne_literal {x y : List UInt8} (h : lexed (x ++ y) ≠ .literal) :
    lexed x ≠ .literal := by
  intro hx
  apply h
  rw [lexed, Machine.run_append, ← lexed, hx, absorbing_literal.run]

theorem isOpen_of_ne {l : Lex} (hquoted : l.inQuotes = false) (hliteral : l ≠ .literal) :
    l.isOpen = false := by
  cases l with
  | literal => exact absurd rfl hliteral
  | quoted b seq => cases hquoted
  | _ => rfl

/-- Outside quoted strings the chunks are read as the lexer reads the stream. -/
theorem emitted_eq_outputs (ctx : SessionContext) {lines chunks : List (List UInt8)}
    (hstream : chunks.flatten = lines.flatMap (· ++ CRLF))
    (hliteral : lexed (lines.flatMap (· ++ CRLF)) ≠ .literal) (hcuts : CutsOutsideQuotes chunks) :
    emitted ctx chunks = lexer.outputs (.tag []) chunks.flatten := by
  have hstart : (ImapCommandDecoder.resetNow).Good := ⟨rfl, rfl, rfl⟩
  have hlit : ∀ k, lexed (chunks.take k).flatten ≠ .literal := by
    intro k
    have hsplit : (chunks.take k).flatten ++ (chunks.drop k).flatten = chunks.flatten := by
      rw [← List.flatten_append, List.take_append_drop]
    rw [← hstream, ← hsplit] at hliteral
    exact lexed_prefix_ne_literal hliteral
  refine (refines_lexer ctx).messages_channel hstart rfl chunks ?_ ?_
  · intro k hk
    have hclosed : (lexed (chunks.take k).flatten).isOpen = false := by
      rcases Nat.lt_or_eq_of_le hk with hlt | rfl
      · exact isOpen_of_ne (hcuts k hlt) (hlit k)
      · -- the end of the stream is a line end
        have hwhole : (chunks.take chunks.length).flatten = lines.flatMap (· ++ CRLF) := by
          rw [List.take_length, hstream]
        rw [hwhole]
        cases hend : lexed (lines.flatMap (· ++ CRLF)) with
        | literal => exact absurd hend hliteral
        | quoted b seq => exact absurd hend (lexed_lines_not_quoted lines b seq)
        | _ => rfl
    rw [List.nil_append]
    exact ne_true_of_eq_false hclosed
  · intro k hk hbroken
    rw [List.nil_append] at hbroken
    have hout := hcuts k hk
    rw [lexed] at hout
    change (lexer.run (.tag []) (chunks.take k).flatten) = .broken at hbroken
    rw [hbroken] at hout
    cases hout

/-- The whole stream in one chunk. -/
theorem emitted_singleton (ctx : SessionContext) {lines : List (List UInt8)}
    (hliteral : lexed (lines.flatMap (· ++ CRLF)) ≠ .literal) :
    emitted ctx [lines.flatMap (· ++ CRLF)]
      = lexer.outputs (.tag []) (lines.flatMap (· ++ CRLF)) := by
  have hflatten : [lines.flatMap (· ++ CRLF)].flatten = lines.flatMap (· ++ CRLF) := by simp
  rw [emitted_eq_outputs ctx hflatten hliteral ?_, hflatten]
  intro k hk
  obtain rfl : k = 0 := by simpa using hk
  rfl

/-! ## A cut right after an opening quote -/

/-- Before a stream is inside a quoted string there was an opening quote. -/
theorem exists_opening_quote {bytes : List UInt8} {b : Builder} {seq : JString}
    (h : lexed bytes = .quoted b seq) :
    ∃ before rest, bytes = before ++ QUOTE :: rest ∧ lexed before = .empty b := by
  induction bytes using List.reverseRecOn generalizing seq with
  | nil => cases h
  | append_singleton bytes value ih =>
    rw [lexed, Machine.run_append] at h
    rcases step_eq_quoted h with ⟨seq', hquoted, -⟩ | ⟨hempty, hquote, -⟩
    · obtain ⟨before, rest, hsplit, hbefore⟩ := ih hquoted
      exact ⟨before, rest ++ [value], by rw [hsplit, List.append_assoc, List.cons_append], hbefore⟩
    · exact ⟨bytes, [], by rw [hquote], hempty⟩

/-- The decoder after a chunk that ended with an opening quote. -/
def resumed (b : Builder) : ImapCommandDecoder :=
  ⟨.READ_PARAMTERS, b.tag, b.command, b.params, ⟨[], .READ_QUOTED_STRING, false⟩, none⟩

/-- The text that the decoder reads when it resumes is not the text of the quoted string: its first
character is missing, or, if the string is empty, what is read is not empty. -/
theorem resumed_text_ne {value : UInt8} {bytes rest rest' : List UInt8} {text text' : JString}
    (h : forEachByte MAX_ATOM_LENGTH quotedVisit [] (value :: bytes) = (text, .ok (some rest)))
    (h' : forEachByte MAX_ATOM_LENGTH quotedVisit [] bytes = (text', .ok (some rest')))
    (hrest : rest.tail.head? ≠ some QUOTE) : text' ≠ text := by
  obtain ⟨hbytes, htext, -⟩ := forEachByte_eq_some h
  obtain ⟨hbytes', htext', value', tail', hrest', hstop'⟩ := forEachByte_eq_some h'
  intro heq
  have hlen := congrArg List.length heq
  rw [htext, htext'] at hlen
  by_cases htake : quotedVisit value = .take
  · -- the skipped byte belongs to the string, so the text read is one character shorter
    rw [List.takeWhile_cons_of_pos (by simp [htake])] at hlen
    simp only [List.nil_append, List.length_map, List.length_cons] at hlen
    omega
  · -- the skipped byte is the closing quote of an empty string
    rw [List.takeWhile_cons_of_neg (by simp [htake])] at hlen hbytes
    have hnone : (bytes.takeWhile fun value => quotedVisit value = .take) = [] := by
      apply List.eq_nil_of_length_eq_zero
      simpa using hlen
    rw [hnone, List.nil_append, hrest'] at hbytes'
    rw [List.nil_append] at hbytes
    have hquote : value' = QUOTE := by
      unfold quotedVisit at hstop'
      split_ifs at hstop' with hquote
      exact hquote
    rw [← hbytes, List.tail_cons, hbytes', List.head?_cons, hquote] at hrest
    exact hrest rfl

/-- The loop over the parameters only adds parameters. -/
theorem readParameters_params (fuel : ℕ) (s : ImapCommandDecoder) (bytes : List UInt8) :
    s.params <+: (ImapCommandDecoder.readParameters fuel s bytes).1.params
      ∧ (ImapCommandDecoder.readParameters fuel s bytes).1.currentState = s.currentState := by
  induction fuel generalizing s bytes with
  | zero => exact ⟨List.prefix_refl _, rfl⟩
  | succ fuel ih =>
    rw [ImapCommandDecoder.readParameters]
    dsimp only
    cases (s.paramDecoder.next bytes).result with
    | error e => exact ⟨List.prefix_refl _, rfl⟩
    | ok o =>
      cases o with
      | none => exact ⟨List.prefix_refl _, rfl⟩
      | some p =>
        obtain ⟨hparams, hstate⟩ := ih
          { s with paramDecoder := (s.paramDecoder.next bytes).decoder, params := s.params ++ [p] }
          (s.paramDecoder.next bytes).rest
        exact ⟨(List.prefix_append _ _).trans hparams, hstate⟩

/-- What a call emits or keeps begins with the given parameters. -/
def BeginsWith (params : List ImapCommandParameter) : ImapCommandDecoder.Decoded → Prop
  | .starved s _ => s.currentState = .READ_PARAMTERS ∧ params <+: s.params
  | .emitted cmd _ _ => params <+: cmd.parameters
  | .fault _ _ _ => True

/-- What has been read of a command is never taken back. -/
theorem decodeParameters_beginsWith {params : List ImapCommandParameter} {s : ImapCommandDecoder}
    {bytes : List UInt8}
    (hparams : params <+:
      (ImapCommandDecoder.readParameters (bytes.length + 1) s bytes).1.params)
    (hstate : s.currentState = .READ_PARAMTERS) :
    BeginsWith params (ImapCommandDecoder.decodeParameters s bytes) := by
  have hkeep := (readParameters_params (bytes.length + 1) s bytes).2
  rw [hstate] at hkeep
  unfold ImapCommandDecoder.decodeParameters
  generalize ImapCommandDecoder.readParameters (bytes.length + 1) s bytes = r at hparams hkeep ⊢
  obtain ⟨s', rest, e | u⟩ := r
  · trivial
  · dsimp only at hparams hkeep ⊢
    split_ifs
    · exact hparams
    · exact hparams
    · exact ⟨hkeep, hparams⟩

/-- The first command that the loop emits begins with the parameters that the decoder has. -/
theorem callDecode_beginsWith (ctx : SessionContext) (fuel : ℕ) {s : ImapCommandDecoder}
    {bytes : List UInt8} {params : List ImapCommandParameter} {cmd : ImapCommand}
    {cmds : List ImapCommand} (hstate : s.currentState = .READ_PARAMTERS)
    (hdecode : BeginsWith params (s.decode bytes))
    (hmsgs : messages ((imapDecoder ctx).callDecode fuel s bytes).2 = cmd :: cmds) :
    params <+: cmd.parameters := by
  induction fuel generalizing s bytes with
  | zero => cases hmsgs
  | succ fuel ih =>
    rw [StreamDecoder.callDecode] at hmsgs
    by_cases hempty : bytes.isEmpty
    · rw [if_pos hempty] at hmsgs
      cases hmsgs
    rw [if_neg hempty] at hmsgs
    simp only [imapDecoder] at hmsgs
    cases hdec : s.decode bytes with
    | fault e s' rest =>
      rw [hdec] at hmsgs
      cases hmsgs
    | emitted c s' rest =>
      rw [hdec] at hmsgs hdecode
      dsimp only at hmsgs
      split_ifs at hmsgs <;> cases hmsgs <;> exact hdecode
    | starved s' rest =>
      rw [hdec] at hmsgs hdecode
      obtain ⟨hstate', hparams⟩ := hdecode
      dsimp only at hmsgs
      split_ifs at hmsgs
      · refine ih hstate' ?_ hmsgs
        have hdecode' : s'.decode rest = ImapCommandDecoder.decodeParameters s' rest := by
          rw [ImapCommandDecoder.decode, hstate']
        rw [hdecode']
        exact decodeParameters_beginsWith
          (hparams.trans (readParameters_params (rest.length + 1) s' rest).1) hstate'
      · cases hmsgs

/-- The loop over the parameters when the decoder resumes after an opening quote. -/
theorem readParameters_resumed (b : Builder) (fuel : ℕ) (value : UInt8) {bytes rest : List UInt8}
    {text : JString}
    (h : forEachByte MAX_ATOM_LENGTH quotedVisit [] bytes = (text, .ok (some rest))) :
    ImapCommandDecoder.readParameters (fuel + 1) (resumed b) (value :: bytes)
      = ImapCommandDecoder.readParameters fuel
        ⟨.READ_PARAMTERS, b.tag, b.command, b.params ++ [.quotedString text], .reset false, none⟩
        (rest.drop 1) := by
  have hnext : (resumed b).paramDecoder.next (value :: bytes)
      = ⟨.reset false, rest.drop 1, .ok (some (.quotedString text))⟩ := by
    show decodeQuotedString ⟨[], .READ_QUOTED_STRING, false⟩ (value :: bytes) = _
    rw [decodeQuotedString, List.drop_one, List.tail_cons, h]
    rfl
  rw [ImapCommandDecoder.readParameters, hnext]
  rfl

/-- What the decoder emits after it resumed: its next parameter is the text that it read without the
first byte. -/
theorem resumed_emits (ctx : SessionContext) (b : Builder) (fuel : ℕ) {value : UInt8}
    {bytes : List UInt8} {cmd : ImapCommand} {cmds : List ImapCommand} (hend : LF ∈ bytes)
    (hmsgs : messages ((imapDecoder ctx).callDecode fuel (resumed b) (value :: bytes)).2
      = cmd :: cmds) :
    ∃ text rest, forEachByte MAX_ATOM_LENGTH quotedVisit [] bytes = (text, .ok (some rest))
      ∧ b.params ++ [.quotedString text] <+: cmd.parameters := by
  have hdecode : (resumed b).decode (value :: bytes)
      = ImapCommandDecoder.decodeParameters (resumed b) (value :: bytes) := rfl
  rcases hwalk : forEachByte MAX_ATOM_LENGTH quotedVisit [] bytes with ⟨text, e | _ | rest⟩
  · -- the text ends with its line: an exception, and nothing is emitted
    have hnext : (resumed b).paramDecoder.next (value :: bytes)
        = ⟨⟨text, .READ_QUOTED_STRING, false⟩, bytes, .error e⟩ := by
      show decodeQuotedString ⟨[], .READ_QUOTED_STRING, false⟩ (value :: bytes) = _
      rw [decodeQuotedString, List.drop_one, List.tail_cons, hwalk]
    have hfault : (resumed b).decode (value :: bytes)
        = .fault e { resumed b with paramDecoder := ⟨text, .READ_QUOTED_STRING, false⟩ } bytes := by
      rw [hdecode, ImapCommandDecoder.decodeParameters, ImapCommandDecoder.readParameters, hnext]
    cases fuel with
    | zero => cases hmsgs
    | succ fuel =>
      simp only [StreamDecoder.callDecode, imapDecoder, hfault] at hmsgs
      cases hmsgs
  · exact absurd hwalk (forEachByte_ne_none hend (by decide) [] text)
  · refine ⟨text, rest, rfl, ?_⟩
    have hbegins : BeginsWith (b.params ++ [.quotedString text])
        ((resumed b).decode (value :: bytes)) := by
      rw [hdecode]
      refine decodeParameters_beginsWith ?_ rfl
      rw [readParameters_resumed b _ value hwalk]
      exact (readParameters_params (value :: bytes).length ⟨.READ_PARAMTERS, b.tag, b.command,
        b.params ++ [.quotedString text], .reset false, none⟩ (rest.drop 1)).1
    exact callDecode_beginsWith ctx fuel rfl hbegins hmsgs

/-- A decoder that has read everything up to a parameter. -/
theorem eq_of_abs_eq_empty {s : ImapCommandDecoder} {b : Builder} (hs : s.Good)
    (habs : s.abs = .empty b) :
    s = ⟨.READ_PARAMTERS, b.tag, b.command, b.params, ⟨[], .EMPTY, false⟩, none⟩ := by
  obtain ⟨state, tag, command, params, ⟨seq, pstate, status⟩, request⟩ := s
  cases state with
  | READ_TAG => cases habs
  | READ_COMMAND => cases habs
  | READ_APPEND => cases habs
  | READ_PARAMTERS =>
    obtain ⟨⟨hstatus, hstate⟩, hrequest⟩ := hs
    obtain rfl : status = false := hstatus
    obtain rfl : request = none := hrequest
    cases pstate with
    | EMPTY =>
      obtain rfl : Builder.mk tag command params = b := Lex.empty.inj habs
      rcases hstate with h | ⟨-, h⟩
      · cases h
      · obtain rfl : seq = [] := h
        rfl
    | _ => cases habs

/-- The three chunks of a stream that is cut before and after an opening quote. -/
theorem emitted_cut (ctx : SessionContext) {before rest : List UInt8} {b : Builder}
    (hbefore : lexed before = .empty b) :
    emitted ctx [before, [QUOTE], rest]
      = lexer.outputs (.tag []) before
        ++ messages ((imapDecoder ctx).callDecode rest.length (resumed b) rest).2 := by
  have hstart : (ImapCommandDecoder.resetNow).Good := ⟨rfl, rfl, rfl⟩
  have hrun : lexer.run (ImapCommandDecoder.resetNow).abs before = .empty b := hbefore
  have hopen : ¬ (lexer.run (ImapCommandDecoder.resetNow).abs before).isOpen = true := by
    rw [hrun]
    exact Bool.false_ne_true
  have hread := (refines_lexer ctx).callDecode before.length (Nat.le_refl _) hstart hopen
  have hrest := (refines_lexer ctx).callDecode_rest before.length (Nat.le_refl _) hstart hopen
    (by rw [hrun]; rfl)
  have hquote : (imapDecoder ctx).callDecode 1
      ⟨.READ_PARAMTERS, b.tag, b.command, b.params, ⟨[], .EMPTY, false⟩, none⟩ [QUOTE]
      = ((resumed b, []), []) := rfl
  simp only [emitted, StreamDecoder.channel, Machine.outputs_cons, Machine.outputs_nil,
    List.nil_append, List.append_nil, messages_append]
  generalize (imapDecoder ctx).callDecode before.length .resetNow before = c at hread hrest ⊢
  obtain ⟨⟨s, unread⟩, signals⟩ := c
  obtain rfl : unread = [] := hrest
  obtain ⟨hgood, habs, -⟩ := hread.2 (by rw [hrun]; exact nofun)
  rw [hrun] at habs
  obtain rfl := eq_of_abs_eq_empty hgood habs
  dsimp only at hread ⊢
  rw [List.nil_append, List.length_singleton, hquote]
  dsimp only
  rw [List.nil_append, hread.1]
  rfl

/-- Lines that are commands, each of which the lexer reads to its end. -/
def CommandLines (lines : List (List UInt8)) : Prop := ∀ l ∈ lines, lexed (l ++ CRLF) = .tag []

/-- Whole commands leave the lexer at the beginning of the next. -/
theorem lexed_commandLines {lines : List (List UInt8)} (h : CommandLines lines) :
    lexed (lines.flatMap (· ++ CRLF)) = .tag [] := by
  induction lines with
  | nil => rfl
  | cons l lines ih =>
    have hl := h l (by simp)
    have hrest := ih fun l' hl' => h l' (by simp [hl'])
    rw [List.flatMap_cons, lexed, Machine.run_append, ← lexed, hl]
    exact hrest

/-- A nonempty rest of a stream of lines ends with a line feed. -/
theorem LF_mem_of_suffix {lines : List (List UInt8)} {before rest : List UInt8} (hrest : rest ≠ [])
    (h : lines.flatMap (· ++ CRLF) = before ++ rest) : LF ∈ rest := by
  have hlast : (lines.flatMap (· ++ CRLF)).getLast? = some LF := by
    rcases List.eq_nil_or_concat lines with rfl | ⟨lines, l, rfl⟩
    · simp only [List.flatMap_nil, List.nil_eq, List.append_eq_nil_iff] at h
      exact absurd h.2 hrest
    · simp [CRLF]
  rw [h, List.getLast?_append_of_ne_nil _ hrest] at hlast
  exact List.mem_of_getLast? hlast

/-- A line that is read to its end from an opening quote on has a closing quote, followed by something
other than a quote. -/
theorem quoted_run_eq_tag {b : Builder} {rest : List UInt8} {seq : JString}
    (hrun : lexer.run (.quoted b []) rest = .tag seq) :
    ∃ text after,
      forEachByte MAX_ATOM_LENGTH quotedVisit [] rest = (text, .ok (some (QUOTE :: after)))
        ∧ lexer.run (.next (b.add (.quotedString text))) after = .tag seq
        ∧ lexer.outputs (.quoted b []) rest = lexer.outputs (.next (b.add (.quotedString text))) after
        ∧ after ≠ [] ∧ after.head? ≠ some QUOTE := by
  have hwalk := (collects_quoted b).forEachByte [] rest
  generalize forEachByte MAX_ATOM_LENGTH quotedVisit [] rest = walked at hwalk ⊢
  obtain ⟨text, e | _ | tail⟩ := walked
  · rw [hwalk.1] at hrun
    cases hrun
  · rw [hwalk.1] at hrun
    cases hrun
  obtain ⟨hrun', hout', ⟨value, after, rfl, hstop⟩, -⟩ := hwalk
  obtain rfl : value = QUOTE := by
    unfold quotedVisit at hstop
    split_ifs at hstop with hquote
    exact hquote
  have hclose : lexer.step (.quoted b text) QUOTE = (.next (b.add (.quotedString text)), []) := rfl
  rw [hrun', Machine.run_cons, hclose] at hrun
  rw [Machine.outputs_cons, hclose, List.nil_append] at hout'
  refine ⟨text, after, rfl, hrun, hout', ?_, ?_⟩
  · rintro rfl
    cases hrun
  · intro hhead
    obtain ⟨tail, rfl⟩ : ∃ tail, after = QUOTE :: tail := List.head?_eq_some_iff.mp hhead
    have hdead : ∀ b', lexer.step (.next b') QUOTE = (.dead, []) := fun _ => rfl
    rw [Machine.run_cons, hdead, absorbing_dead.run] at hrun
    cases hrun

/-- A stream of command lines with a quoted string in it can be cut such that other commands are
emitted. -/
theorem exists_cut (ctx : SessionContext) {lines : List (List UInt8)} (hlines : CommandLines lines)
    {front : List UInt8} {b : Builder} {seq : JString} (hfront : front <+: lines.flatMap (· ++ CRLF))
    (hquoted : lexed front = .quoted b seq) :
    ∃ chunks, chunks.flatten = lines.flatMap (· ++ CRLF)
      ∧ emitted ctx chunks ≠ emitted ctx [lines.flatMap (· ++ CRLF)] := by
  obtain ⟨back, hback⟩ := hfront
  obtain ⟨before, rest₀, rfl, hbefore⟩ := exists_opening_quote hquoted
  obtain ⟨rest, hrest⟩ : ∃ rest, rest = rest₀ ++ back := ⟨_, rfl⟩
  have hstream : lines.flatMap (· ++ CRLF) = before ++ QUOTE :: rest := by
    rw [hrest, ← hback, List.append_assoc, List.cons_append]
  have hend := lexed_commandLines hlines
  have hopen : lexer.step (.empty b) QUOTE = (.quoted b [], []) := rfl
  have hout : lexer.outputs (.tag []) (lines.flatMap (· ++ CRLF))
      = lexer.outputs (.tag []) before ++ lexer.outputs (.quoted b []) rest := by
    rw [hstream, Machine.outputs_append, ← lexed, hbefore, Machine.outputs_cons, hopen,
      List.nil_append]
  have hrun : lexer.run (.quoted b []) rest = .tag [] := by
    rw [← hend, hstream, lexed, Machine.run_append, ← lexed, hbefore, Machine.run_cons, hopen]
  obtain ⟨text, after, hwalk, hrun', hout', hafter, hhead⟩ := quoted_run_eq_tag hrun
  obtain ⟨cmd, cmds, hcmds, hparams⟩ :=
    outputs_of_run_eq_tag (l := .next (b.add (.quotedString text))) rfl after hrun'
  obtain ⟨taken, hsplit⟩ : ∃ taken, rest = taken ++ QUOTE :: after :=
    ⟨_, (forEachByte_eq_some hwalk).1⟩
  have hlf : LF ∈ after := by
    have hsuffix : lines.flatMap (· ++ CRLF) = (before ++ QUOTE :: (taken ++ [QUOTE])) ++ after := by
      rw [hstream, hsplit]
      simp
    exact LF_mem_of_suffix hafter hsuffix
  refine ⟨[before, [QUOTE], rest], by simp [hstream], fun heq => ?_⟩
  -- both sides begin with the commands before the quote, so the rest would be the same as well
  rw [emitted_singleton ctx (by rw [hend]; exact nofun), hout, emitted_cut ctx hbefore,
    List.append_cancel_left_eq, hout', hcmds] at heq
  cases rest with
  | nil => cases hwalk
  | cons value bytes =>
    have hlf' : LF ∈ bytes := by
      cases taken with
      | nil =>
        rw [List.nil_append, List.cons.injEq] at hsplit
        rw [hsplit.2]
        exact hlf
      | cons c taken =>
        rw [List.cons_append, List.cons.injEq] at hsplit
        rw [hsplit.2]
        simp [hlf]
    obtain ⟨text', rest', hwalk', hparams'⟩ := resumed_emits ctx b _ hlf' heq
    -- two lists of the same length in front of the same parameters
    have hlen : (b.params ++ [ImapCommandParameter.quotedString text']).length
        = (b.add (.quotedString text)).params.length := by
      simp [Builder.add]
    have hsame := (List.prefix_of_prefix_length_le hparams' hparams (Nat.le_of_eq hlen)).eq_of_length
      hlen
    rw [Builder.add, List.append_cancel_left_eq, List.cons.injEq,
      ImapCommandParameter.quotedString.injEq] at hsame
    exact resumed_text_ne hwalk hwalk' hhead hsame.1

/-! ## Every stream, every cut -/

/-- For every stream of lines without literals, chunks that do not end inside a quoted string or after
a broken one give the commands of the whole stream. And if the lines are commands, every way of cutting
the stream gives these commands exactly if there is no quoted string in it. -/
theorem emitted_fragments (ctx : SessionContext) (lines : List (List UInt8)) :
    (lexed (lines.flatMap (· ++ CRLF)) ≠ .literal →
      ∀ chunks, chunks.flatten = lines.flatMap (· ++ CRLF) → CutsOutsideQuotes chunks →
        emitted ctx chunks = emitted ctx [lines.flatMap (· ++ CRLF)])
    ∧ (CommandLines lines →
      ((∀ chunks, chunks.flatten = lines.flatMap (· ++ CRLF) →
          emitted ctx chunks = emitted ctx [lines.flatMap (· ++ CRLF)])
        ↔ ∀ front, front <+: lines.flatMap (· ++ CRLF) → (lexed front).inQuotes = false)) := by
  have hsame : lexed (lines.flatMap (· ++ CRLF)) ≠ .literal →
      ∀ chunks, chunks.flatten = lines.flatMap (· ++ CRLF) → CutsOutsideQuotes chunks →
        emitted ctx chunks = emitted ctx [lines.flatMap (· ++ CRLF)] := by
    intro hliteral chunks hflatten hcuts
    rw [emitted_eq_outputs ctx hflatten hliteral hcuts, hflatten, emitted_singleton ctx hliteral]
  refine ⟨hsame, fun hlines => ⟨?_, ?_⟩⟩
  · intro hall front hfront
    by_contra hquotes
    cases hlexed : lexed front with
    | quoted b seq =>
      obtain ⟨chunks, hflatten, hne⟩ := exists_cut ctx hlines hfront hlexed
      exact hne (hall chunks hflatten)
    | broken =>
      -- a broken string would have stopped the stream
      obtain ⟨back, hback⟩ := hfront
      have hend := lexed_commandLines hlines
      rw [← hback, lexed, Machine.run_append, ← lexed, hlexed, absorbing_broken.run] at hend
      cases hend
    | _ =>
      rw [hlexed] at hquotes
      exact hquotes rfl
  · intro hnone chunks hflatten
    refine hsame (by rw [lexed_commandLines hlines]; exact nofun) chunks hflatten ?_
    intro k _
    apply hnone
    rw [← hflatten]
    exact ⟨(chunks.drop k).flatten, by rw [← List.flatten_append, List.take_append_drop]⟩

/-- A command in three chunks, cut in its name and before the line feed; and a command with a quoted
string, which can be cut such that it changes. -/
theorem emitted_fragments_select :
    emitted .stub [ascii "a SEL", ascii "ECT in (b)\r", ascii "\n"]
        = emitted .stub [ascii "a SELECT in (b)\r\n"]
      ∧ ∃ chunks, chunks.flatten = ascii "a LOGIN \"b\"\r\n"
        ∧ emitted .stub chunks ≠ emitted .stub [ascii "a LOGIN \"b\"\r\n"] := by
  constructor
  · have hcuts : CutsOutsideQuotes [ascii "a SEL", ascii "ECT in (b)\r", ascii "\n"] := by
      unfold CutsOutsideQuotes
      decide
    exact (emitted_fragments .stub [ascii "a SELECT in (b)"]).1 (by decide) _ rfl hcuts
  · by_contra hnone
    push Not at hnone
    have hquotes := ((emitted_fragments .stub [ascii "a LOGIN \"b\""]).2 (by
      unfold CommandLines
      decide)).mp hnone (ascii "a LOGIN \"") (by decide)
    exact absurd hquotes (by decide)

/-- `a LOGIN "bc" d` in two chunks, cut after the opening quote: the user name becomes `c`. -/
theorem emitted_fragments_quoted :
    ¬ ∀ (ctx : SessionContext) (lines chunks : List (List UInt8)),
      lexed (lines.flatMap (· ++ CRLF)) ≠ .literal → chunks.flatten = lines.flatMap (· ++ CRLF) →
        emitted ctx chunks = emitted ctx [lines.flatMap (· ++ CRLF)] := by
  intro h
  have heq := h .stub [ascii "a LOGIN \"bc\" d"] [ascii "a LOGIN \"", ascii "bc\" d\r\n"]
    (by decide) (by decide)
  exact absurd heq (by decide)

end OrgLittle.Imap
