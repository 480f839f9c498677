import OrgLittle.Imap.Fragmentation

/-!
# `APPEND` and its literal

After the command line of an `APPEND` the decoder hands the stream to the command object until the
literal and its line end have arrived. `literal_assembled_iff` says when that works: the two bytes of the
line end must come together with the last byte of the literal, because `appendBuf` skips them as soon as
the literal is complete.

The object takes bytes only when `doProcess` has allocated its buffer. When `doProcess` answers `BAD` it
allocates none, and the decoder stays in `READ_APPEND` for good (`append_bad_stuck`).
-/

namespace OrgLittle.Imap

open OrgLittle.Java OrgLittle.Lib

/-! ## The command object -/

namespace AppendCommand

/-- The command has read the size of its literal, which is not zero. -/
def HasLiteral (cmd : ImapCommand) : Prop :=
  literalSize cmd.parameters = some cmd.size ∧ cmd.size ≠ 0

/-- The command line is answered with `BAD`. -/
def AnswersBad (ctx : SessionContext) (cmd : ImapCommand) : Prop :=
  (doProcess ctx cmd).result = .ok [bad cmd]

theorem literalSize_nil : literalSize [] = none := rfl

/-- The first call of `doProcess` for a command line with a literal allocates the buffer. -/
theorem doProcess_allocates (ctx : SessionContext) {cmd : ImapCommand} (hbuffer : cmd.buffer = none)
    {n : ℕ} (hn : 0 < n) (hsize : literalSize cmd.parameters = some (n : ℤ)) :
    (doProcess ctx cmd).command = { cmd with size := n, buffer := some [] } := by
  obtain ⟨tag, command, parameters, buffer, size⟩ := cmd
  obtain rfl : buffer = none := hbuffer
  cases parameters with
  | nil => rw [literalSize_nil] at hsize; cases hsize
  | cons arg args =>
    have hzero : (n : ℤ) ≠ 0 := by omega
    have hneg : ¬ (n : ℤ) < 0 := by omega
    simp only [doProcess, hsize, Option.getD_some, if_neg hzero, if_neg hneg]

/-- After the first call either there is no buffer or the literal has a size, and then the answer was
not `BAD`. -/
theorem doProcess_first (ctx : SessionContext) (cmd : ImapCommand) (hbuffer : cmd.buffer = none)
    (hzero : cmd.size = 0) :
    (doProcess ctx cmd).command.buffer = none
      ∨ HasLiteral (doProcess ctx cmd).command ∧ ¬ AnswersBad ctx cmd := by
  obtain ⟨tag, command, parameters, buffer, size⟩ := cmd
  obtain rfl : buffer = none := hbuffer
  obtain rfl : size = 0 := hzero
  cases parameters with
  | nil => exact Or.inl rfl
  | cons arg args =>
    cases hsize : literalSize (arg :: args) with
    | none => exact Or.inl (by simp [doProcess, hsize])
    | some size =>
      by_cases hzero : size = 0
      · exact Or.inl (by simp [doProcess, hsize, hzero])
      by_cases hneg : size < 0
      · -- `new byte[_size]` fails
        exact Or.inl (by simp [doProcess, hsize, hzero, hneg])
      refine Or.inr ⟨?_, ?_⟩
      · simp [doProcess, HasLiteral, hsize, hzero, hneg]
      · simp [doProcess, AnswersBad, bad, hsize, hzero, hneg]

/-- The second call does not answer `BAD`. -/
theorem HasLiteral.not_answersBad (ctx : SessionContext) {cmd : ImapCommand} {content : List UInt8}
    (h : HasLiteral cmd) (hbuffer : cmd.buffer = some content) : ¬ AnswersBad ctx cmd := by
  obtain ⟨tag, command, parameters, buffer, size⟩ := cmd
  obtain rfl : buffer = some content := hbuffer
  obtain ⟨hsize, hzero⟩ : literalSize parameters = some size ∧ size ≠ 0 := h
  cases parameters with
  | nil => rw [literalSize_nil] at hsize; cases hsize
  | cons arg args =>
    simp only [AnswersBad, doProcess, hsize, Option.getD_some, if_neg hzero]
    split <;> simp [bad]

end AppendCommand

/-! ## What one call of `decode` can do -/

namespace ImapCommandDecoder

/-- The request afterwards: as it was, or with more bytes in its buffer. -/
def Continues (before after : Option ImapCommand) : Prop :=
  after = before ∨ ∃ request got got', before = some request ∧ request.buffer = some got
    ∧ after = some { request with buffer := some got' }

/-- What one call of `decode` can do to the request, and which commands it can emit. -/
inductive Decodes (s : ImapCommandDecoder) : Decoded → Prop
  | starved {s' : ImapCommandDecoder} {rest : List UInt8} (h : Continues s.request s'.request) :
      Decodes s (.starved s' rest)
  | fault {e : JavaException} {s' : ImapCommandDecoder} {rest : List UInt8}
      (h : Continues s.request s'.request) : Decodes s (.fault e s' rest)
  | command {tag command : JString} {params : List ImapCommandParameter} {rest : List UInt8}
      (happend : (ImapCommandBuilder.build tag command params).isAppend = false) :
      Decodes s (.emitted (ImapCommandBuilder.build tag command params) resetNow rest)
  | append {tag command : JString} {params : List ImapCommandParameter} {s' : ImapCommandDecoder}
      {rest : List UInt8} (hstate : s'.currentState = .READ_APPEND)
      (hrequest : s'.request = some (ImapCommandBuilder.build tag command params)) :
      Decodes s (.emitted (ImapCommandBuilder.build tag command params) s' rest)
  | literal {request : ImapCommand} {got got' rest : List UInt8} (hrequest : s.request = some request)
      (hbuffer : request.buffer = some got) :
      Decodes s (.emitted { request with buffer := some got' } resetNow rest)

theorem readParameters_request (fuel : ℕ) (s : ImapCommandDecoder) (bytes : List UInt8) :
    (readParameters fuel s bytes).1.request = s.request := by
  induction fuel generalizing s bytes with
  | zero => rfl
  | succ fuel ih =>
    rw [readParameters]
    dsimp only
    cases (s.paramDecoder.next bytes).result with
    | error e => rfl
    | ok o =>
      cases o with
      | none => rfl
      | some p => exact ih _ _

theorem decodeParameters_decodes {s s₁ : ImapCommandDecoder} (hrequest : s₁.request = s.request)
    (bytes : List UInt8) : Decodes s (decodeParameters s₁ bytes) := by
  have hread := readParameters_request (bytes.length + 1) s₁ bytes
  rw [hrequest] at hread
  unfold decodeParameters
  generalize readParameters (bytes.length + 1) s₁ bytes = r at hread ⊢
  obtain ⟨s₂, rest, e | _⟩ := r
  · exact .fault (Or.inl hread)
  · dsimp only at hread ⊢
    split_ifs with hended happend
    · exact .append rfl rfl
    · exact .command (Bool.not_eq_true _ ▸ happend)
    · exact .starved (Or.inl hread)

theorem decodeCommand_decodes {s s₁ : ImapCommandDecoder} (hrequest : s₁.request = s.request)
    (bytes : List UInt8) : Decodes s (decodeCommand s₁ bytes) := by
  unfold decodeCommand
  split
  · exact .fault (Or.inl hrequest)
  · exact .starved (Or.inl hrequest)
  · apply decodeParameters_decodes
    exact hrequest

theorem decodeTag_decodes (s : ImapCommandDecoder) (bytes : List UInt8) :
    Decodes s (decodeTag s bytes) := by
  unfold decodeTag
  split
  · exact .fault (Or.inl rfl)
  · exact .starved (Or.inl rfl)
  · dsimp only
    split_ifs
    · apply decodeCommand_decodes
      rfl
    · exact .fault (Or.inl rfl)

theorem decodeAppend_decodes (s : ImapCommandDecoder) (bytes : List UInt8) :
    Decodes s (decodeAppend s bytes) := by
  unfold decodeAppend
  cases hrequest : s.request with
  | none => exact .starved (Or.inl rfl)
  | some request =>
    dsimp only
    unfold AppendCommand.appendBuf
    cases hbuffer : request.buffer with
    | none => exact .starved (Or.inl hrequest.symm)
    | some got =>
      have hmore : ∀ got', Continues s.request (some { request with buffer := some got' }) :=
        fun got' => Or.inr ⟨request, got, got', hrequest, hbuffer, rfl⟩
      dsimp only
      split_ifs
      · exact .literal hrequest hbuffer
      · exact .fault (hmore _)
      · exact .starved (hmore _)

theorem decode_decodes (s : ImapCommandDecoder) (bytes : List UInt8) : Decodes s (s.decode bytes) := by
  unfold decode
  cases s.currentState with
  | READ_TAG => exact decodeTag_decodes s bytes
  | READ_COMMAND => exact decodeCommand_decodes rfl bytes
  | READ_PARAMTERS => exact decodeParameters_decodes rfl bytes
  | READ_APPEND => exact decodeAppend_decodes s bytes

end ImapCommandDecoder

/-! ## Assembling the literal -/

/-- In `READ_APPEND`, with the first bytes of the literal of `cmd`. -/
def collecting (s : ImapCommandDecoder) (cmd : ImapCommand) (got : List UInt8) : ImapCommandDecoder :=
  { s with currentState := .READ_APPEND, request := some { cmd with buffer := some got } }

section Collecting

variable (ctx : SessionContext) (s : ImapCommandDecoder) (cmd : ImapCommand) (got : List UInt8)
  {bytes : List UInt8} {missing : ℕ} (hsize : cmd.size = (got.length + missing : ℕ))

include hsize

/-- What `appendBuf` does with the bytes, by the number of bytes that are missing. -/
theorem appendBuf_collecting (bytes : List UInt8) :
    AppendCommand.appendBuf { cmd with buffer := some got } bytes
      = if bytes.length < missing then ⟨{ cmd with buffer := some (got ++ bytes) }, [], .ok false⟩
        else if bytes.length < missing + 2 then
          ⟨{ cmd with buffer := some (got ++ bytes.take missing) }, bytes.drop missing,
            .error .indexOutOfBounds⟩
        else
          ⟨{ cmd with buffer := some (got ++ bytes.take missing) }, bytes.drop (missing + 2),
            .ok true⟩ := by
  have hnat : cmd.size.toNat = got.length + missing := by omega
  simp only [AppendCommand.appendBuf, hnat, Nat.add_sub_cancel_left, Nat.add_left_cancel_iff,
    List.length_drop]
  by_cases hlt : bytes.length < missing
  · rw [Nat.min_eq_right (Nat.le_of_lt hlt), if_neg (Nat.ne_of_lt hlt), if_pos hlt, List.take_length,
      List.drop_length]
  · rw [Nat.min_eq_left (Nat.not_lt.mp hlt), if_pos rfl, if_neg hlt]
    by_cases hend : bytes.length < missing + 2
    · rw [if_pos hend, if_neg (by omega)]
    · rw [if_neg hend, if_pos (by omega), List.drop_drop]

/-- The literal goes on after the bytes. -/
theorem decode_collecting_lt (h : bytes.length < missing) :
    (imapDecoder ctx).decode (collecting s cmd got) bytes
      = .starved (collecting s cmd (got ++ bytes)) [] := by
  rw [imapDecoder_starved]
  simp only [ImapCommandDecoder.decode, collecting, ImapCommandDecoder.decodeAppend,
    appendBuf_collecting cmd got hsize, if_pos h]

/-- The literal ends in the bytes, and its line end does not. -/
theorem decode_collecting_fault (h : missing ≤ bytes.length) (h' : bytes.length < missing + 2) :
    (imapDecoder ctx).decode (collecting s cmd got) bytes
      = .fault .indexOutOfBounds (collecting s cmd (got ++ bytes.take missing))
        (bytes.drop missing) := by
  rw [imapDecoder_fault]
  simp only [ImapCommandDecoder.decode, collecting, ImapCommandDecoder.decodeAppend,
    appendBuf_collecting cmd got hsize, if_neg (Nat.not_lt.mpr h), if_pos h']

/-- The literal and its line end are among the bytes. -/
theorem decode_collecting_ge (h : missing + 2 ≤ bytes.length) :
    (imapDecoder ctx).decode (collecting s cmd got) bytes
      = .emitted { cmd with buffer := some (got ++ bytes.take missing) } .resetNow
        (bytes.drop (missing + 2)) := by
  have hge : ¬ bytes.length < missing := by omega
  refine imapDecoder_emitted.mpr ⟨.resetNow, rfl, ?_⟩
  simp only [ImapCommandDecoder.decode, collecting, ImapCommandDecoder.decodeAppend,
    appendBuf_collecting cmd got hsize, if_neg hge, if_neg (Nat.not_lt.mpr h)]

/-- A chunk inside the literal. -/
theorem step_collecting_lt (h : bytes.length < missing) :
    (imapDecoder ctx).channel.step (collecting s cmd got, []) bytes
      = ((collecting s cmd (got ++ bytes), []), []) := by
  by_cases hbytes : bytes = []
  · rw [hbytes, List.append_nil, StreamDecoder.step_channel_nil]
  · exact StreamDecoder.step_channel_starved _ hbytes (decode_collecting_lt ctx s cmd got hsize h)

/-- A chunk that ends after the literal, before the end of its line. -/
theorem step_collecting_fault (hbytes : bytes ≠ []) (h : missing ≤ bytes.length)
    (h' : bytes.length < missing + 2) :
    ((imapDecoder ctx).channel.step (collecting s cmd got, []) bytes).2
      = [.exception .indexOutOfBounds] := by
  rw [StreamDecoder.step_channel_fault _ hbytes
    (decode_collecting_fault ctx s cmd got hsize h h')]

/-- A chunk with the end of the literal and of its line. -/
theorem step_collecting_ge (h : missing + 2 ≤ bytes.length) :
    let later := (imapDecoder ctx).channel.step (.resetNow, []) (bytes.drop (missing + 2))
    (imapDecoder ctx).channel.step (collecting s cmd got, []) bytes
      = (later.1, .message { cmd with buffer := some (got ++ bytes.take missing) } :: later.2) := by
  refine StreamDecoder.step_channel_emitted _ ?_ (decode_collecting_ge ctx s cmd got hsize h)
  rw [List.length_drop]
  omega

end Collecting

/-- How the first chunk divides a literal that is not empty and its line end. -/
theorem chunk_cases {c more tail : List UInt8} {cs : List (List UInt8)} (hmore : more ≠ [])
    (h : (c :: cs).flatten = more ++ CRLF ++ tail) :
    (∃ more', more' ≠ [] ∧ more = c ++ more' ∧ cs.flatten = more' ++ CRLF ++ tail)
      ∨ ∃ c', c = more ++ c' := by
  rw [List.flatten_cons, List.append_assoc] at h
  obtain ⟨more', rfl, hcs⟩ | ⟨c', rfl, -⟩ := List.append_eq_append_iff.mp h
  · by_cases hmore' : more' = []
    · exact Or.inr ⟨[], by rw [hmore', List.append_nil, List.append_nil]⟩
    · exact Or.inl ⟨more', hmore', rfl, by rw [hcs, List.append_assoc]⟩
  · exact Or.inr ⟨c', rfl⟩

/-- Chunks that do not end between the literal and the end of its line give the command. -/
theorem collecting_assembled (ctx : SessionContext) (s : ImapCommandDecoder) (cmd : ImapCommand)
    {more tail : List UInt8} (got : List UInt8) (hmore : more ≠ [])
    (hsize : cmd.size = (got.length + more.length : ℕ)) {chunks : List (List UInt8)}
    (hchunks : chunks.flatten = more ++ CRLF ++ tail) (hcut : ¬ CutAfter more.length chunks)
    (hcut' : ¬ CutAfter (more.length + 1) chunks) :
    (imapDecoder ctx).channel.outputs (collecting s cmd got, []) chunks
        = .message { cmd with buffer := some (got ++ more) }
          :: (imapDecoder ctx).channel.outputs (.resetNow, []) (dropSymbols (more.length + 2) chunks)
      ∧ (imapDecoder ctx).channel.run (collecting s cmd got, []) chunks
        = (imapDecoder ctx).channel.run (.resetNow, []) (dropSymbols (more.length + 2) chunks) := by
  have hpos : 0 < more.length := List.length_pos_of_ne_nil hmore
  -- over the chunks, with the bytes collected so far and those still missing
  induction chunks generalizing got more with
  | nil => simp [CRLF] at hchunks
  | cons c cs ih =>
    rw [cutAfter_cons hpos] at hcut
    rw [cutAfter_cons (show 0 < more.length + 1 by omega)] at hcut'
    obtain ⟨more', hmore', rfl, hcs⟩ | ⟨c', rfl⟩ := chunk_cases hmore hchunks
    · have hpos' : 0 < more'.length := List.length_pos_of_ne_nil hmore'
      rw [List.length_append] at hsize hcut hcut' ⊢
      have hstep := step_collecting_lt ctx s cmd got hsize (show c.length < c.length + more'.length by
        omega)
      have hdrop : dropSymbols (c.length + more'.length + 2) (c :: cs)
          = dropSymbols (more'.length + 2) cs := by
        rw [dropSymbols, if_neg (by omega)]
        congr 1
        omega
      have hnext := ih (got ++ c) hmore' (by rw [hsize, List.length_append, Nat.add_assoc]) hcs
        (fun hc => hcut ⟨by omega, by rwa [Nat.add_sub_cancel_left]⟩)
        (fun hc => hcut' ⟨by omega, by rwa [Nat.add_assoc, Nat.add_sub_cancel_left]⟩) hpos'
      rw [Machine.outputs_cons, Machine.run_cons, hstep, hdrop, List.nil_append, hnext.1, hnext.2,
        List.append_assoc]
      exact ⟨rfl, rfl⟩
    · -- the literal ends in this chunk, and so does its line
      have hend : more.length + 2 ≤ (more ++ c').length := by
        rw [List.length_append] at hcut hcut' ⊢
        by_contra hshort
        obtain hzero | hone : c'.length = 0 ∨ c'.length = 1 := by omega
        · exact hcut ⟨by omega, 0, by simp [hzero]⟩
        · exact hcut' ⟨by omega, 0, by simp [hone]⟩
      have hstep := step_collecting_ge ctx s cmd got hsize hend
      rw [Machine.outputs_cons, Machine.run_cons, hstep, List.take_left, dropSymbols, if_pos hend]
      exact ⟨rfl, rfl⟩

/-- A chunk that ends between the literal and the end of its line raises an exception first. -/
theorem collecting_exception (ctx : SessionContext) (s : ImapCommandDecoder) (cmd : ImapCommand)
    {more tail : List UInt8} (got : List UInt8) (hmore : more ≠ [])
    (hsize : cmd.size = (got.length + more.length : ℕ)) {chunks : List (List UInt8)}
    (hchunks : chunks.flatten = more ++ CRLF ++ tail)
    (hcut : CutAfter more.length chunks ∨ CutAfter (more.length + 1) chunks) :
    ∃ signals, (imapDecoder ctx).channel.outputs (collecting s cmd got, []) chunks
      = .exception .indexOutOfBounds :: signals := by
  have hpos : 0 < more.length := List.length_pos_of_ne_nil hmore
  induction chunks generalizing got more with
  | nil => simp [CRLF] at hchunks
  | cons c cs ih =>
    rw [cutAfter_cons hpos, cutAfter_cons (show 0 < more.length + 1 by omega)] at hcut
    obtain ⟨more', hmore', rfl, hcs⟩ | ⟨c', rfl⟩ := chunk_cases hmore hchunks
    · have hpos' : 0 < more'.length := List.length_pos_of_ne_nil hmore'
      rw [List.length_append] at hsize hcut
      have hstep := step_collecting_lt ctx s cmd got hsize (show c.length < c.length + more'.length by
        omega)
      rw [Nat.add_assoc c.length, Nat.add_sub_cancel_left, Nat.add_sub_cancel_left] at hcut
      obtain ⟨signals, hsignals⟩ := ih (got ++ c) hmore'
        (by rw [hsize, List.length_append, Nat.add_assoc]) hcs (hcut.imp And.right And.right) hpos'
      exact ⟨signals, by rw [Machine.outputs_cons, hstep, List.nil_append, hsignals]⟩
    · -- the chunk has the last byte of the literal but not the whole line end
      have hend : (more ++ c').length < more.length + 2 := by
        omega
      have hstep := step_collecting_fault ctx s cmd got hsize (by simp [hmore])
        (by rw [List.length_append]; omega) hend
      exact ⟨_, by rw [Machine.outputs_cons, hstep, List.singleton_append]⟩

/-- From `s` on, the chunks give the command with the literal `content` and nothing else up to the end
of its line, and all that follows is decoded as on a new connection. -/
structure Assembled (ctx : SessionContext) (s : ImapCommandDecoder) (cmd : ImapCommand)
    (content tail : List UInt8) (chunks : List (List UInt8)) : Prop where
  outputs : (imapDecoder ctx).channel.outputs (s, []) chunks
    = .message { cmd with buffer := some content }
      :: (imapDecoder ctx).channel.outputs (.resetNow, []) (dropSymbols (content.length + 2) chunks)
  run : (imapDecoder ctx).channel.run (s, []) chunks
    = (imapDecoder ctx).channel.run (.resetNow, []) (dropSymbols (content.length + 2) chunks)
  rest : (dropSymbols (content.length + 2) chunks).flatten = tail

/-- The decoder after a command line with a literal and its first `doProcess`. -/
theorem eq_collecting_of_emitted (ctx : SessionContext) {s s' : ImapCommandDecoder}
    {line rest : List UInt8} {cmd : ImapCommand}
    (hline : (imapDecoder ctx).decode s line = .emitted cmd s' rest) (happend : cmd.isAppend = true)
    (hbuffer : cmd.buffer = none) {n : ℕ} (hn : 0 < n)
    (hsize : AppendCommand.literalSize cmd.parameters = some (n : ℤ)) :
    s' = collecting s' { cmd with size := n } [] := by
  have hdecodes := s.decode_decodes line
  obtain ⟨s₁, rfl, hdec⟩ := imapDecoder_emitted.mp hline
  rw [hdec] at hdecodes
  cases hdecodes with
  | command hother => rw [hother] at happend; cases happend
  | literal hrequest hgot => cases hbuffer
  | append hstate hrequest =>
    rw [collecting, ImapCommandDecoder.handled, hrequest, Option.map_some,
      AppendCommand.doProcess_allocates ctx hbuffer hn hsize, hstate]

/-- For every `APPEND` command line with a literal that is not empty, the literal is assembled exactly
if no chunk ends right after it or in the middle of its line end. (The bytes behind the command line in
its own chunk are the first of the `chunks`.) -/
theorem literal_assembled_iff (ctx : SessionContext) {s s' : ImapCommandDecoder}
    {line rest : List UInt8} {cmd : ImapCommand}
    (hline : (imapDecoder ctx).decode s line = .emitted cmd s' rest) (happend : cmd.isAppend = true)
    (hbuffer : cmd.buffer = none) {content tail : List UInt8} (hcontent : content ≠ [])
    (hsize : AppendCommand.literalSize cmd.parameters = some (content.length : ℤ))
    {chunks : List (List UInt8)} (hchunks : chunks.flatten = content ++ CRLF ++ tail) :
    Assembled ctx s' { cmd with size := content.length } content tail chunks
      ↔ ¬ CutAfter content.length chunks ∧ ¬ CutAfter (content.length + 1) chunks := by
  have hn : 0 < content.length := List.length_pos_of_ne_nil hcontent
  have hstart := eq_collecting_of_emitted ctx hline happend hbuffer hn hsize
  have hlength : (content.length : ℤ) = (([] : List UInt8).length + content.length : ℕ) := by simp
  constructor
  · intro h
    by_contra hcut
    have hexception := collecting_exception ctx s' { cmd with size := content.length } [] hcontent
      hlength hchunks (by tauto)
    obtain ⟨signals, hsignals⟩ := hexception
    rw [← hstart, h.outputs] at hsignals
    cases hsignals
  · rintro ⟨hcut, hcut'⟩
    have hassembled := collecting_assembled ctx s' { cmd with size := content.length } [] hcontent
      hlength hchunks hcut hcut'
    rw [← hstart] at hassembled
    refine ⟨hassembled.1, hassembled.2, ?_⟩
    rw [flatten_dropSymbols, hchunks]
    exact List.drop_left' (by simp [CRLF])

/-- The command line `a APPEND x` with a literal of three bytes. -/
def appendThreeLine : List UInt8 := ascii "a APPEND x \x7b3\x7d\r\n"

/-- Its command. -/
def appendThree : ImapCommand :=
  ⟨['a'], "APPEND".toList, [.atom ['x'], .atom "\x7b3\x7d".toList], none, 0⟩

/-- The decoder after it. -/
def afterAppendThree : ImapCommandDecoder :=
  ⟨.READ_APPEND, ['a'], "APPEND".toList, appendThree.parameters, ⟨[], .Ended, false⟩,
    some { appendThree with size := 3, buffer := some [] }⟩

theorem decode_appendThreeLine : (imapDecoder .stub).decode .resetNow appendThreeLine
    = .emitted appendThree afterAppendThree [] := rfl

/-- The literal `abc` in two chunks, the second one with the next command. -/
theorem literal_assembled_abc :
    Assembled .stub afterAppendThree { appendThree with size := (ascii "abc").length } (ascii "abc")
      (ascii "b NOOP\r\n") [ascii "ab", ascii "c\r\nb NOOP\r\n"] := by
  have hchunks : [ascii "ab", ascii "c\r\nb NOOP\r\n"].flatten
      = ascii "abc" ++ CRLF ++ ascii "b NOOP\r\n" := by decide
  exact (literal_assembled_iff .stub decode_appendThreeLine (by decide) rfl (by decide) (by decide)
    hchunks).mpr ⟨by decide, by decide⟩

/-- The literal `abc` and its line end in two chunks. -/
theorem literal_assembled_split_line_end :
    ¬ ∀ (ctx : SessionContext) (s s' : ImapCommandDecoder) (line rest : List UInt8) (cmd : ImapCommand)
      (content tail : List UInt8) (chunks : List (List UInt8)),
      (imapDecoder ctx).decode s line = .emitted cmd s' rest → cmd.isAppend = true →
        cmd.buffer = none → content ≠ [] →
        AppendCommand.literalSize cmd.parameters = some (content.length : ℤ) →
        chunks.flatten = content ++ CRLF ++ tail →
        Assembled ctx s' { cmd with size := content.length } content tail chunks := by
  intro h
  have hassembled := h .stub .resetNow afterAppendThree appendThreeLine [] appendThree (ascii "abc") []
    [ascii "abc", CRLF] decode_appendThreeLine (by decide) rfl (by decide) (by decide) (by decide)
  exact absurd hassembled.outputs (by decide)

/-! ## Stuck after `BAD` -/

/-- A buffer is allocated only for a literal. -/
def ImapCommandDecoder.Allocated (s : ImapCommandDecoder) : Prop :=
  ∀ request got, s.request = some request → request.buffer = some got →
    AppendCommand.HasLiteral request

theorem ImapCommandDecoder.Continues.allocated {s s' : ImapCommandDecoder}
    (h : Continues s.request s'.request) (hs : s.Allocated) : s'.Allocated := by
  intro request' got' hrequest' hbuffer'
  obtain hsame | ⟨request, got, got'', hrequest, hbuffer, hmore⟩ := h
  · exact hs request' got' (by rw [← hsame, hrequest']) hbuffer'
  · rw [hmore, Option.some.injEq] at hrequest'
    subst hrequest'
    exact hs request got hrequest hbuffer

theorem allocated_resetNow : ImapCommandDecoder.resetNow.Allocated := nofun

/-- Without a buffer the decoder reads nothing in `READ_APPEND`. -/
theorem stuck_of_buffer_none (ctx : SessionContext) {s : ImapCommandDecoder} {request : ImapCommand}
    (hstate : s.currentState = .READ_APPEND) (hrequest : s.request = some request)
    (hbuffer : request.buffer = none) : (imapDecoder ctx).Stuck s := by
  intro x
  rw [imapDecoder_starved, ImapCommandDecoder.decode, hstate]
  simp only [ImapCommandDecoder.decodeAppend, hrequest, AppendCommand.appendBuf, hbuffer]
  rw [← hrequest]

/-- An `APPEND` that is answered with `BAD` leaves the decoder stuck. -/
theorem sticksAt_bad (ctx : SessionContext) :
    (imapDecoder ctx).SticksAt ImapCommandDecoder.Allocated
      (fun cmd => cmd.isAppend = true ∧ AppendCommand.AnswersBad ctx cmd) where
  starved := by
    intro s x s' rest hs hdec
    have hdecodes := s.decode_decodes x
    rw [imapDecoder_starved.mp hdec] at hdecodes
    cases hdecodes with
    | starved h => exact h.allocated hs
  fault := by
    intro s x e s' rest hs hdec
    have hdecodes := s.decode_decodes x
    rw [imapDecoder_fault.mp hdec] at hdecodes
    cases hdecodes with
    | fault h => exact h.allocated hs
  emitted := by
    intro s x cmd s' rest hs hdec
    have hdecodes := s.decode_decodes x
    obtain ⟨s₁, rfl, hdec₁⟩ := imapDecoder_emitted.mp hdec
    rw [hdec₁] at hdecodes
    cases hdecodes with
    | command happend =>
      refine ⟨allocated_resetNow, fun h => ?_⟩
      rw [happend] at h
      exact absurd h.1 Bool.false_ne_true
    | @literal request got got' _ hrequest hbuffer =>
      -- the second emission: its command has a literal, so it is not answered with `BAD`
      have hliteral : AppendCommand.HasLiteral { request with buffer := some got' } :=
        hs request got hrequest hbuffer
      exact ⟨allocated_resetNow, fun h => absurd h.2 (hliteral.not_answersBad ctx rfl)⟩
    | @append tag command params _ _ hstate hrequest =>
      have hhandled : (s₁.handled ctx).request = some (AppendCommand.doProcess ctx
          (ImapCommandBuilder.build tag command params)).command := by
        rw [ImapCommandDecoder.handled, hrequest]
        rfl
      obtain hnone | ⟨hliteral, hgood⟩ := AppendCommand.doProcess_first ctx
        (ImapCommandBuilder.build tag command params) rfl rfl
      · refine ⟨fun request got hreq hbuffer => ?_, fun _ => ?_⟩
        · rw [hhandled, Option.some.injEq] at hreq
          rw [← hreq, hnone] at hbuffer
          cases hbuffer
        · exact stuck_of_buffer_none ctx hstate hhandled hnone
      · refine ⟨fun request got hreq hbuffer => ?_, fun h => absurd h.2 hgood⟩
        rw [hhandled, Option.some.injEq] at hreq
        rw [← hreq]
        exact hliteral

/-- Command lines that arrive after the chunks are decoded and emitted. -/
def StillReads (ctx : SessionContext) (chunks : List (List UInt8)) : Prop :=
  ∀ lines, CommandLines lines →
    emitted ctx (chunks ++ [lines.flatMap (· ++ CRLF)])
      = emitted ctx chunks ++ emitted ctx [lines.flatMap (· ++ CRLF)]

/-- The command line `b NOOP` is emitted on a new connection. -/
theorem emitted_noop_ne_nil (ctx : SessionContext) :
    emitted ctx [[ascii "b NOOP"].flatMap (· ++ CRLF)] ≠ [] := by
  rw [emitted_singleton ctx (by decide)]
  decide

/-- After an `APPEND` that is answered with `BAD` nothing is emitted any more, neither from the rest of
the chunks nor from any that come later. -/
theorem append_bad_stuck (ctx : SessionContext) {chunks : List (List UInt8)}
    {before after : List ImapCommand} {cmd : ImapCommand}
    (hemitted : emitted ctx chunks = before ++ cmd :: after) (happend : cmd.isAppend = true)
    (hbad : AppendCommand.AnswersBad ctx cmd) :
    ¬ StillReads ctx chunks ∧ after = []
      ∧ ∀ later, emitted ctx (chunks ++ later) = emitted ctx chunks := by
  obtain ⟨hafter, hstuck⟩ := (sticksAt_bad ctx).outputs allocated_resetNow [] chunks hemitted
    ⟨happend, hbad⟩
  have hlater : ∀ later, emitted ctx (chunks ++ later) = emitted ctx chunks := by
    intro later
    rw [emitted, Machine.outputs_append, messages_append, hstuck.outputs, messages_nil,
      List.append_nil, emitted]
  refine ⟨fun hreads => ?_, hafter, hlater⟩
  have hnoop := hreads [ascii "b NOOP"] (by unfold CommandLines; decide)
  rw [hlater, List.self_eq_append_right] at hnoop
  exact emitted_noop_ne_nil ctx hnoop

/-- `a APPEND x` and, in a second chunk, `b NOOP`: only the first command is emitted. -/
theorem append_bad_stuck_noop :
    AppendCommand.AnswersBad .stub ⟨['a'], "APPEND".toList, [.atom ['x']], none, 0⟩
      ∧ emitted .stub [ascii "a APPEND x\r\n", ascii "b NOOP\r\n"]
        = emitted .stub [ascii "a APPEND x\r\n"] := by
  have hbad : AppendCommand.AnswersBad .stub ⟨['a'], "APPEND".toList, [.atom ['x']], none, 0⟩ := by
    unfold AppendCommand.AnswersBad
    rfl
  have hemitted : emitted .stub [ascii "a APPEND x\r\n"]
      = [] ++ ⟨['a'], "APPEND".toList, [.atom ['x']], none, 0⟩ :: [] := by decide
  exact ⟨hbad, (append_bad_stuck .stub hemitted (by decide) hbad).2.2 [ascii "b NOOP\r\n"]⟩

/-- An `APPEND` without a literal: `b NOOP` is not read any more. -/
theorem stillReads_append_without_literal :
    ¬ ∀ (ctx : SessionContext) (chunks : List (List UInt8)) (cmd : ImapCommand),
      cmd ∈ emitted ctx chunks → cmd.isAppend = true → AppendCommand.AnswersBad ctx cmd →
        StillReads ctx chunks := by
  intro h
  have hreads := h .stub [ascii "a APPEND x\r\n"] ⟨['a'], "APPEND".toList, [.atom ['x']], none, 0⟩
    (by decide) (by decide) (by unfold AppendCommand.AnswersBad; rfl) [ascii "b NOOP"]
    (by unfold CommandLines; decide)
  exact absurd hreads (by decide)

end OrgLittle.Imap
