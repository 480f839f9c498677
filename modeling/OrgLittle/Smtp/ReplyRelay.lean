import OrgLittle.Lib.StreamDecoder
import OrgLittle.Smtp.Element

/-!
# Replies of the backend on their way to the client

In proxy mode `SmtpClnResponseDecoder` reads the backend's replies line by line and collects the lines of
a multi-line reply; `SmtpSrvReplyEncoder` writes the reply to the client. The decoder drops the text of a
line that has none, also when it is the only line, and the encoder writes one line for each text. So a
reply comes through unchanged exactly if none of its texts is empty, its code is one that
`SmtpResponseStatus` takes, and no line is longer than the decoder allows (`relay_eq_iff`).
-/

namespace OrgLittle.Smtp

open OrgLittle.Java OrgLittle.Lib

/-! ## `LineBasedFrameDecoder` -/

/-- What netty's line decoder gives for the unread bytes. -/
inductive LineFrame
  /-- no line end yet; the flag says whether a line that is already too long is being skipped -/
  | incomplete (discarding : Bool) (rest : List UInt8)
  /-- the line was too long, which is only reported to `exceptionCaught` -/
  | tooLong (rest : List UInt8)
  /-- a line, without its line end -/
  | frame (line : List UInt8) (rest : List UInt8)

/-- `LineBasedFrameDecoder.decode` with the delimiter stripped and without fail-fast: a line ends at LF or
at CR LF. -/
def lineFrame (maxLength : ℕ) (discarding : Bool) (buffer : List UInt8) : LineFrame :=
  match buffer.dropWhile (· != LF) with
  | [] =>
    if discarding ∨ maxLength < buffer.length then .incomplete true []
    else .incomplete false buffer
  | _ :: rest =>
    let line := buffer.takeWhile (· != LF)
    let line := if line.getLast? = some CR then line.dropLast else line
    if discarding ∨ maxLength < line.length then .tooLong rest else .frame line rest

/-! ## `SmtpClnResponseDecoder` -/

/-- The byte `'-'`. -/
def DASH : UInt8 := 45

/-- The state of the decoder: whether it skips a line, and the texts of the lines so far. -/
structure SmtpClnResponseDecoder where
  discarding : Bool
  details : Option (List JString)

/-- `parseNumber`. -/
def parseNumber (b : UInt8) : ℤ := if 48 ≤ b.toNat ∧ b.toNat ≤ 57 then (b.toNat : ℤ) - 48 else -1

/-- `parseCode`. -/
def parseCode (b1 b2 b3 : UInt8) : ℤ := parseNumber b1 * 100 + parseNumber b2 * 10 + parseNumber b3

/-- `new SmtpResponse(code, details)`: the status refuses every code outside `100 .. 599`. -/
def SmtpResponse.ofCode (code : ℤ) (text : List JString) : Except JavaException SmtpResponse :=
  if code < 100 ∨ 599 < code then .error .illegalArgument else .ok ⟨code.toNat, text⟩

/-- The texts of a reply at its last line: the list so far, with the text of that line if it has one. -/
def lastDetails (details : Option (List JString)) (detail : Option JString) : List JString :=
  match details, detail with
  | some details, some detail => details ++ [detail]
  | some details, none => details
  | none, none => []
  | none, some detail => [detail]

/-- `SmtpClnResponseDecoder.decode`. -/
def SmtpClnResponseDecoder.decode (maxLineLength : ℕ) (d : SmtpClnResponseDecoder)
    (buffer : List UInt8) : Outcome SmtpClnResponseDecoder UInt8 SmtpResponse JavaException :=
  match lineFrame maxLineLength d.discarding buffer with
  | .incomplete discarding rest => .starved { d with discarding := discarding } rest
  | .tooLong rest => .starved { d with discarding := false } rest
  | .frame [] rest => .starved d rest
  | .frame (b1 :: b2 :: b3 :: separator :: text) rest =>
    let code := parseCode b1 b2 b3
    let detail := if text.isEmpty then none else some (usAsciiDecode text)
    if separator = SP then
      -- the last line of a reply
      match SmtpResponse.ofCode code (lastDetails d.details detail) with
      | .error e => .fault e { d with details := none } rest
      | .ok res => .emitted res { d with details := none } rest
    else if separator = DASH then
      -- a line without a text leaves no trace
      match detail with
      | none => .starved d rest
      | some detail => .starved { d with details := some (d.details.getD [] ++ [detail]) } rest
    else .fault .decoderException d rest
  -- after a code of three bytes there is no separator to read
  | .frame [_, _, _] rest => .fault .indexOutOfBounds d rest
  | .frame _ rest => .fault .decoderException d rest

/-- The decoder behind the connection to the backend. -/
def responseDecoder (maxLineLength : ℕ) :
    StreamDecoder SmtpClnResponseDecoder UInt8 SmtpResponse JavaException where
  decode := SmtpClnResponseDecoder.decode maxLineLength
  nothingRead := .decoderException

/-! ## `SmtpSrvReplyEncoder` -/

/-- `String.format("%03d", n)`. -/
def format03 (n : ℕ) : JString := (Nat.toDigits 10 n).leftpad 3 '0'

/-- One line of the encoder's output. -/
def SmtpSrvReplyEncoder.line (code : ℕ) (separator : Char) (text : JString) : List UInt8 :=
  usAsciiEncode (format03 code ++ separator :: (text ++ "\r\n".toList))

/-- The loop of `SmtpSrvReplyEncoder.encode` over the lines. -/
def SmtpSrvReplyEncoder.encodeLines (code : ℕ) : List JString → List UInt8
  | [] => []
  | [text] => line code ' ' text
  | text :: lines => line code '-' text ++ encodeLines code lines

/-- `SmtpSrvReplyEncoder.encode`. -/
def SmtpSrvReplyEncoder.encode (msg : SmtpResponse) : List UInt8 :=
  encodeLines msg.replyCode msg.text

/-- What the client gets when the backend's bytes arrive in these chunks on a new connection. -/
def relay (maxLineLength : ℕ) (chunks : List (List UInt8)) : List UInt8 :=
  (messages ((responseDecoder maxLineLength).channel.outputs (⟨false, none⟩, []) chunks)).flatMap
    SmtpSrvReplyEncoder.encode

/-! ## Replies on the wire -/

/-- The decimal digit `n` as a byte. -/
def digitByte (n : ℕ) : UInt8 := UInt8.ofNat (48 + n % 10)

/-- The three digits of a code. -/
def codeBytes (code : ℕ) : List UInt8 := [digitByte (code / 100), digitByte (code / 10), digitByte code]

/-- One line of a reply, without its line end. -/
def replyLine (code : ℕ) (separator : UInt8) (text : List UInt8) : List UInt8 :=
  codeBytes code ++ separator :: text

/-- The lines of a reply with the code and these texts, as the backend sends them. -/
def replyLines (code : ℕ) : List (List UInt8) → List (List UInt8)
  | [] => []
  | [text] => [replyLine code SP text ++ CRLF]
  | text :: texts => (replyLine code DASH text ++ CRLF) :: replyLines code texts

/-- A text of a reply: ASCII, and without the line feed that would end the line. -/
def IsText (text : List UInt8) : Prop := IsAscii text ∧ LF ∉ text

/-! ## Reading one line -/

/-- A line that ends with CR LF is read whole, whatever follows. -/
theorem lineFrame_line (maxLength : ℕ) {line : List UInt8} (h : LF ∉ line) (rest : List UInt8) :
    lineFrame maxLength false (line ++ CRLF ++ rest)
      = if maxLength < line.length then .tooLong rest else .frame line rest := by
  have hline : ∀ b ∈ line ++ [CR], (b != LF) = true := by
    intro b hb
    rcases List.mem_append.mp hb with hb | hb
    · exact bne_iff_ne.mpr fun heq => h (heq ▸ hb)
    · rw [List.mem_singleton.mp hb]
      decide
  have hsplit : line ++ CRLF ++ rest = (line ++ [CR]) ++ LF :: rest := by simp [CRLF]
  have htake : (line ++ CRLF ++ rest).takeWhile (· != LF) = line ++ [CR] := by
    rw [hsplit, List.takeWhile_append_of_pos hline]
    simp
  have hdrop : (line ++ CRLF ++ rest).dropWhile (· != LF) = LF :: rest := by
    rw [hsplit, List.dropWhile_append_of_pos hline]
    simp
  rw [lineFrame, htake, hdrop]
  simp

theorem parseNumber_digitByte (n : ℕ) : parseNumber (digitByte n) = (n % 10 : ℕ) := by
  have hlt : n % 10 < 10 := Nat.mod_lt n (by omega)
  have hbyte : (digitByte n).toNat = 48 + n % 10 := by
    rw [digitByte, UInt8.toNat_ofNat', Nat.mod_eq_of_lt (show 48 + n % 10 < 2 ^ 8 by omega)]
  rw [parseNumber, hbyte, if_pos (by omega)]
  omega

theorem parseCode_codeBytes {code : ℕ} (h : code < 1000) :
    parseCode (digitByte (code / 100)) (digitByte (code / 10)) (digitByte code) = code := by
  simp only [parseCode, parseNumber_digitByte]
  omega

theorem LF_not_mem_replyLine (code : ℕ) {separator : UInt8} (hsep : separator ≠ LF)
    {text : List UInt8} (h : LF ∉ text) : LF ∉ replyLine code separator text := by
  have hdigit : ∀ n, LF ≠ digitByte n := by
    intro n heq
    have hlt : n % 10 < 10 := Nat.mod_lt n (by omega)
    have hnat := congrArg UInt8.toNat heq
    rw [digitByte, UInt8.toNat_ofNat', Nat.mod_eq_of_lt (show 48 + n % 10 < 2 ^ 8 by omega)] at hnat
    have hLF : LF.toNat = 10 := rfl
    omega
  simp [replyLine, codeBytes, hdigit, hsep.symm, h]

/-- The line of this text fits into the decoder. -/
def fits (maxLineLength : ℕ) (text : List UInt8) : Bool := text.length + 4 ≤ maxLineLength

/-- The text leaves a trace in the decoder. -/
def isKept (maxLineLength : ℕ) (text : List UInt8) : Bool := !text.isEmpty && fits maxLineLength text

/-- The texts collected after one more line that is not the last. -/
def collect (maxLineLength : ℕ) (details : Option (List JString)) (text : List UInt8) :
    Option (List JString) :=
  if isKept maxLineLength text then some (details.getD [] ++ [usAsciiDecode text]) else details

/-- The texts of the reply that ends with this line. -/
def collected (details : Option (List JString)) (text : List UInt8) : List JString :=
  details.getD [] ++ if text.isEmpty then [] else [usAsciiDecode text]

section OneLine

variable (maxLineLength : ℕ) (code : ℕ) (details : Option (List JString)) {text : List UInt8}
  (rest : List UInt8)

theorem lineFrame_replyLine {separator : UInt8} (hsep : separator ≠ LF)
    (htext : LF ∉ text) :
    lineFrame maxLineLength false (replyLine code separator text ++ CRLF ++ rest)
      = if fits maxLineLength text then .frame (replyLine code separator text) rest
        else .tooLong rest := by
  rw [lineFrame_line maxLineLength (LF_not_mem_replyLine code hsep htext)]
  have hlen : (replyLine code separator text).length = text.length + 4 := by
    simp [replyLine, codeBytes]
  rw [hlen, fits]
  by_cases h : text.length + 4 ≤ maxLineLength
  · rw [if_neg (by omega), if_pos (decide_eq_true h)]
  · rw [if_pos (by omega), if_neg (by simpa using h)]

/-- A line that is not the last one of its reply. -/
theorem decode_more (htext : LF ∉ text) :
    (responseDecoder maxLineLength).decode ⟨false, details⟩ (replyLine code DASH text ++ CRLF ++ rest)
      = .starved ⟨false, collect maxLineLength details text⟩ rest := by
  have hframe := lineFrame_replyLine maxLineLength code rest (show DASH ≠ LF by decide) htext
  simp only [responseDecoder, SmtpClnResponseDecoder.decode, hframe]
  by_cases hfits : fits maxLineLength text = true
  · rw [if_pos hfits]
    cases text with
    | nil => simp [replyLine, codeBytes, DASH, SP, collect, isKept]
    | cons b text => simp [replyLine, codeBytes, DASH, SP, collect, isKept, hfits]
  · rw [if_neg hfits]
    simp [collect, isKept, hfits]

/-- The last line of a reply, if it fits. -/
theorem decode_last {code : ℕ} (hcode : code < 1000) (htext : LF ∉ text)
    (hfits : fits maxLineLength text = true) :
    (responseDecoder maxLineLength).decode ⟨false, details⟩ (replyLine code SP text ++ CRLF ++ rest)
      = if 100 ≤ code ∧ code ≤ 599 then .emitted ⟨code, collected details text⟩ ⟨false, none⟩ rest
        else .fault .illegalArgument ⟨false, none⟩ rest := by
  have hframe := lineFrame_replyLine maxLineLength code rest (show SP ≠ LF by decide) htext
  have hparse := parseCode_codeBytes hcode
  have hdetails : lastDetails details (if text.isEmpty then none else some (usAsciiDecode text))
      = collected details text := by
    rcases details with _ | details <;> rcases text with _ | ⟨b, text⟩ <;>
      simp [lastDetails, collected]
  rw [if_pos hfits] at hframe
  simp only [responseDecoder, SmtpClnResponseDecoder.decode, hframe]
  simp only [replyLine, codeBytes, List.cons_append, List.nil_append, if_true, hparse, hdetails,
    SmtpResponse.ofCode]
  by_cases hrange : 100 ≤ code ∧ code ≤ 599
  · rw [if_pos hrange, if_neg (by omega)]
    simp
  · rw [if_neg hrange, if_pos (by omega)]

/-- The last line of a reply, if it is too long. -/
theorem decode_last_tooLong (htext : LF ∉ text) (hfits : fits maxLineLength text = false) :
    (responseDecoder maxLineLength).decode ⟨false, details⟩ (replyLine code SP text ++ CRLF ++ rest)
      = .starved ⟨false, details⟩ rest := by
  have hframe := lineFrame_replyLine maxLineLength code rest (show SP ≠ LF by decide) htext
  simp only [responseDecoder, SmtpClnResponseDecoder.decode, hframe, hfits, Bool.false_eq_true,
    if_false]

end OneLine

/-! ## Reading a reply -/

/-- What the decoder makes of a reply, after the texts collected so far. -/
def replySignals (maxLineLength code : ℕ) :
    Option (List JString) → List (List UInt8) → List (Signal SmtpResponse JavaException)
  | _, [] => []
  | details, [text] =>
    if fits maxLineLength text then
      if 100 ≤ code ∧ code ≤ 599 then [.message ⟨code, collected details text⟩]
      else [.exception .illegalArgument]
    else []
  | details, text :: texts => replySignals maxLineLength code (collect maxLineLength details text) texts

/-- The last line of a reply ends it: with a response, with an exception or with nothing. -/
theorem step_channel_last (maxLineLength : ℕ) {code : ℕ} (hcode : code < 1000)
    (details : Option (List JString)) {text : List UInt8} (htext : LF ∉ text) :
    ∃ d, (responseDecoder maxLineLength).channel.step (⟨false, details⟩, [])
        (replyLine code SP text ++ CRLF)
      = ((d, []), replySignals maxLineLength code details [text]) := by
  have hpos : replyLine code SP text ++ CRLF ++ [] ≠ [] := by simp [replyLine, codeBytes]
  rw [← List.append_nil (replyLine code SP text ++ CRLF), replySignals]
  by_cases hfits : fits maxLineLength text = true
  · have hdecode := decode_last maxLineLength details [] hcode htext hfits
    rw [if_pos hfits]
    by_cases hrange : 100 ≤ code ∧ code ≤ 599
    · rw [if_pos hrange] at hdecode ⊢
      refine ⟨⟨false, none⟩, ?_⟩
      have hlen : ([] : List UInt8).length < (replyLine code SP text ++ CRLF ++ []).length :=
        List.length_pos_iff.mpr hpos
      rw [StreamDecoder.step_channel_emitted _ hlen hdecode]
      rfl
    · rw [if_neg hrange] at hdecode ⊢
      exact ⟨_, StreamDecoder.step_channel_fault _ hpos hdecode⟩
  · have hfits : fits maxLineLength text = false := by simpa using hfits
    have hdecode := decode_last_tooLong maxLineLength code details [] htext hfits
    rw [hfits]
    exact ⟨_, StreamDecoder.step_channel_starved _ hpos hdecode⟩

/-- One chunk of whole lines: the reply goes on after it, or ends with it. -/
theorem step_channel_lines (maxLineLength : ℕ) {code : ℕ} (hcode : code < 1000)
    (details : Option (List JString)) {texts : List (List UInt8)} (hne : texts ≠ [])
    (htexts : ∀ text ∈ texts, LF ∉ text) {group rest : List (List UInt8)}
    (h : group ++ rest = replyLines code texts) :
    (∃ details' texts', texts' ≠ [] ∧ (∀ text ∈ texts', LF ∉ text) ∧ rest = replyLines code texts'
      ∧ replySignals maxLineLength code details' texts'
        = replySignals maxLineLength code details texts
      ∧ (responseDecoder maxLineLength).channel.step (⟨false, details⟩, []) group.flatten
        = ((⟨false, details'⟩, []), [])) ∨
    (rest = [] ∧ ∃ d, (responseDecoder maxLineLength).channel.step (⟨false, details⟩, []) group.flatten
        = ((d, []), replySignals maxLineLength code details texts)) := by
  induction group generalizing details texts with
  | nil => exact .inl ⟨details, texts, hne, htexts, h, rfl, rfl⟩
  | cons line group ih =>
    rcases texts with _ | ⟨text, texts⟩
    · exact absurd rfl hne
    have htext : LF ∉ text := htexts text List.mem_cons_self
    cases texts with
    | nil =>
      -- the last line, so nothing is left of the reply
      obtain ⟨rfl, hrest⟩ := List.cons.inj h
      obtain ⟨rfl, rfl⟩ := List.append_eq_nil_iff.mp hrest
      rw [List.flatten_singleton]
      exact .inr ⟨rfl, step_channel_last maxLineLength hcode details htext⟩
    | cons text' texts =>
      obtain ⟨rfl, hrest⟩ := List.cons.inj h
      have hdecode := decode_more maxLineLength code details group.flatten htext
      have hstep : (responseDecoder maxLineLength).channel.step (⟨false, details⟩, [])
          (List.flatten ((replyLine code DASH text ++ CRLF) :: group))
          = (responseDecoder maxLineLength).channel.step
            (⟨false, collect maxLineLength details text⟩, []) group.flatten := by
        rw [List.flatten_cons]
        apply StreamDecoder.step_channel_continue _ _ hdecode
        simp [replyLine, codeBytes, CRLF]
        omega
      rw [hstep]
      exact ih _ (List.cons_ne_nil _ _) (fun t ht => htexts t (List.mem_cons_of_mem text ht)) hrest

/-- Empty chunks change nothing. -/
theorem outputs_channel_empty (maxLineLength : ℕ) (d : SmtpClnResponseDecoder)
    {groups : List (List (List UInt8))} (h : groups.flatten = []) :
    (responseDecoder maxLineLength).channel.outputs (d, []) (groups.map List.flatten) = [] := by
  induction groups with
  | nil => rfl
  | cons group groups ih =>
    rw [List.flatten_cons, List.append_eq_nil_iff] at h
    obtain ⟨rfl, h⟩ := h
    rw [List.map_cons, Machine.outputs_cons, List.flatten_nil, StreamDecoder.step_channel_nil,
      List.nil_append]
    exact ih h

/-- A whole reply, however it is cut into chunks of whole lines. -/
theorem outputs_channel_reply (maxLineLength : ℕ) {code : ℕ} (hcode : code < 1000)
    (details : Option (List JString)) {texts : List (List UInt8)} (hne : texts ≠ [])
    (htexts : ∀ text ∈ texts, LF ∉ text) {groups : List (List (List UInt8))}
    (h : groups.flatten = replyLines code texts) :
    (responseDecoder maxLineLength).channel.outputs (⟨false, details⟩, []) (groups.map List.flatten)
      = replySignals maxLineLength code details texts := by
  induction groups generalizing details texts with
  | nil =>
    rcases texts with _ | ⟨text, _ | ⟨text', texts⟩⟩
    · exact absurd rfl hne
    · cases h
    · cases h
  | cons group groups ih =>
    rw [List.map_cons, Machine.outputs_cons]
    rcases step_channel_lines maxLineLength hcode details hne htexts h with
      ⟨details', texts', hne', htexts', hrest, hsignals, hstep⟩ | ⟨hrest, d, hstep⟩
    · rw [hstep, List.nil_append, ← hsignals]
      exact ih details' hne' htexts' hrest
    · rw [hstep, outputs_channel_empty maxLineLength d hrest, List.append_nil]

theorem collect_getD (maxLineLength : ℕ) (details : Option (List JString)) (text : List UInt8) :
    (collect maxLineLength details text).getD []
      = details.getD [] ++ if isKept maxLineLength text then [usAsciiDecode text] else [] := by
  rw [collect]
  split_ifs <;> simp

/-- The response that the decoder builds: the texts that left a trace, if the last line was read and the
code is accepted. -/
theorem messages_replySignals (maxLineLength code : ℕ) (details : Option (List JString))
    {texts : List (List UInt8)} (hne : texts ≠ []) :
    messages (replySignals maxLineLength code details texts)
      = if fits maxLineLength (texts.getLast hne) ∧ 100 ≤ code ∧ code ≤ 599 then
          [⟨code, details.getD [] ++ (texts.filter (isKept maxLineLength)).map usAsciiDecode⟩]
        else [] := by
  induction texts generalizing details with
  | nil => exact absurd rfl hne
  | cons text texts ih =>
    cases texts with
    | nil =>
      rw [replySignals, List.getLast_singleton]
      by_cases hfits : fits maxLineLength text = true
      · by_cases hrange : 100 ≤ code ∧ code ≤ 599
        · rw [if_pos hfits, if_pos hrange, if_pos ⟨hfits, hrange⟩]
          cases text with
          | nil => simp [collected, isKept]
          | cons b text => simp [collected, isKept, hfits]
        · rw [if_pos hfits, if_neg hrange, if_neg (fun h => hrange h.2)]
          rfl
      · rw [if_neg hfits, if_neg (fun h => hfits h.1)]
        rfl
    | cons text' texts =>
      have hcons : replySignals maxLineLength code details (text :: text' :: texts)
          = replySignals maxLineLength code (collect maxLineLength details text) (text' :: texts) := rfl
      rw [hcons, ih _ (List.cons_ne_nil _ _), List.getLast_cons (List.cons_ne_nil _ _), collect_getD]
      split_ifs with hlast hkept
      · rw [List.filter_cons_of_pos hkept, List.map_cons, List.append_assoc, List.singleton_append]
      · rw [List.filter_cons_of_neg hkept, List.append_nil]
      · rfl

/-! ## Writing a reply -/

/-- For the codes that a response can have, the encoder writes the digits of the code. -/
theorem format03_eq {code : ℕ} (hlo : 100 ≤ code) (hhi : code ≤ 599) :
    usAsciiEncode (format03 code) = codeBytes code := by
  have hall : ∀ n < 600, 100 ≤ n → usAsciiEncode (format03 n) = codeBytes n := by decide +kernel
  exact hall code (by omega) hlo

theorem line_eq {code : ℕ} (hlo : 100 ≤ code) (hhi : code ≤ 599) {text : List UInt8}
    (htext : IsAscii text) (separator : Char) (b : UInt8) (hsep : usAsciiEncode [separator] = [b]) :
    SmtpSrvReplyEncoder.line code separator (usAsciiDecode text) = replyLine code b text ++ CRLF := by
  have hline : format03 code ++ separator :: (usAsciiDecode text ++ "\r\n".toList)
      = format03 code ++ ([separator] ++ (usAsciiDecode text ++ "\r\n".toList)) := rfl
  rw [SmtpSrvReplyEncoder.line, hline, usAsciiEncode_append, usAsciiEncode_append,
    usAsciiEncode_append, format03_eq hlo hhi, hsep, usAsciiEncode_decode htext, replyLine]
  simp [CRLF]
  decide

/-- Written with all its texts, a reply is what the backend sent. -/
theorem encodeLines_eq {code : ℕ} (hlo : 100 ≤ code) (hhi : code ≤ 599) {texts : List (List UInt8)}
    (htexts : ∀ text ∈ texts, IsAscii text) :
    SmtpSrvReplyEncoder.encodeLines code (texts.map usAsciiDecode)
      = (replyLines code texts).flatten := by
  induction texts with
  | nil => rfl
  | cons text texts ih =>
    have htext : IsAscii text := htexts text List.mem_cons_self
    have hrest := ih fun t ht => htexts t (List.mem_cons_of_mem text ht)
    cases texts with
    | nil =>
      have hline := line_eq hlo hhi htext ' ' SP (by decide)
      simp [SmtpSrvReplyEncoder.encodeLines, replyLines, hline]
    | cons text' texts =>
      have hline := line_eq hlo hhi htext '-' DASH (by decide)
      show SmtpSrvReplyEncoder.line code '-' (usAsciiDecode text)
          ++ SmtpSrvReplyEncoder.encodeLines code ((text' :: texts).map usAsciiDecode)
        = (replyLine code DASH text ++ CRLF) ++ (replyLines code (text' :: texts)).flatten
      rw [hline, hrest]

theorem length_encodeLines (code : ℕ) (lines : List JString) :
    (SmtpSrvReplyEncoder.encodeLines code lines).length
      = (lines.map fun l => l.length + ((format03 code).length + 3)).sum := by
  have hline : ∀ (separator : Char) (l : JString),
      (SmtpSrvReplyEncoder.line code separator l).length = l.length + ((format03 code).length + 3) := by
    intro separator l
    simp [SmtpSrvReplyEncoder.line, usAsciiEncode]
    omega
  induction lines with
  | nil => rfl
  | cons l lines ih =>
    cases lines with
    | nil => simp [SmtpSrvReplyEncoder.encodeLines, hline]
    | cons l' lines =>
      show (SmtpSrvReplyEncoder.line code '-' l
        ++ SmtpSrvReplyEncoder.encodeLines code (l' :: lines)).length = _
      rw [List.length_append, hline, ih]
      simp only [List.map_cons, List.sum_cons]

/-- Dropping lines makes the output shorter. -/
theorem forall_of_sum_filter_eq {α : Type*} (p : α → Bool) {f : α → ℕ} (hf : ∀ a, 0 < f a)
    {l : List α} (h : ((l.filter p).map f).sum = (l.map f).sum) : ∀ a ∈ l, p a = true := by
  induction l with
  | nil => simp
  | cons a l ih =>
    have hle : ((l.filter p).map f).sum ≤ (l.map f).sum :=
      (List.filter_sublist.map f).sum_le_sum fun _ _ => Nat.zero_le _
    by_cases ha : p a = true
    · rw [List.filter_cons_of_pos ha, List.map_cons, List.map_cons, List.sum_cons, List.sum_cons,
        Nat.add_left_cancel_iff] at h
      intro x hx
      rcases List.mem_cons.mp hx with rfl | hx
      · exact ha
      · exact ih h x hx
    · rw [List.filter_cons_of_neg ha, List.map_cons, List.sum_cons] at h
      have hpos := hf a
      omega

/-- A reply of the backend reaches the client with the same code and the same texts, however it is cut
into chunks of whole lines, exactly if none of its texts is empty, its code is between 100 and 599, and
every line fits into the decoder. -/
theorem relay_eq_iff (maxLineLength : ℕ) {code : ℕ} (hcode : code < 1000) {texts : List (List UInt8)}
    (hne : texts ≠ []) (htexts : ∀ text ∈ texts, IsText text) {groups : List (List (List UInt8))}
    (hgroups : groups.flatten = replyLines code texts) :
    relay maxLineLength (groups.map List.flatten) = (replyLines code texts).flatten
      ↔ (∀ text ∈ texts, text ≠ [] ∧ text.length + 4 ≤ maxLineLength) ∧ 100 ≤ code ∧ code ≤ 599 := by
  have hout := outputs_channel_reply maxLineLength hcode none hne (fun t ht => (htexts t ht).2) hgroups
  have hascii : ∀ text ∈ texts, IsAscii text := fun t ht => (htexts t ht).1
  have hkept : ∀ text, isKept maxLineLength text = true
      ↔ text ≠ [] ∧ text.length + 4 ≤ maxLineLength := by
    intro text
    simp [isKept, fits]
  have hwire : (replyLines code texts).flatten ≠ [] := by
    rcases texts with _ | ⟨text, _ | ⟨text', texts⟩⟩
    · exact absurd rfl hne
    · simp [replyLines, replyLine, codeBytes]
    · simp [replyLines, replyLine, codeBytes]
  rw [relay, hout, messages_replySignals maxLineLength code none hne]
  by_cases hread : fits maxLineLength (texts.getLast hne) = true ∧ 100 ≤ code ∧ code ≤ 599
  · -- a response is written: it has the texts that left a trace
    obtain ⟨hlast, hlo, hhi⟩ := hread
    rw [if_pos ⟨hlast, hlo, hhi⟩, ← encodeLines_eq hlo hhi hascii]
    simp only [Option.getD_none, List.nil_append, List.flatMap_cons, List.flatMap_nil, List.append_nil,
      SmtpSrvReplyEncoder.encode]
    constructor
    · intro heq
      have hlen := congrArg List.length heq
      rw [length_encodeLines, length_encodeLines, List.map_map, List.map_map] at hlen
      have hpos : ∀ text, 0 < ((fun l : JString => l.length + ((format03 code).length + 3))
          ∘ usAsciiDecode) text := by
        intro text
        rw [Function.comp_apply]
        omega
      have hall := forall_of_sum_filter_eq (isKept maxLineLength) hpos hlen
      exact ⟨fun text ht => (hkept text).mp (hall text ht), hlo, hhi⟩
    · rintro ⟨hall, -⟩
      rw [List.filter_eq_self.mpr fun text ht => (hkept text).mpr (hall text ht)]
  · -- nothing is written at all
    rw [if_neg hread]
    constructor
    · intro heq
      exact absurd heq.symm hwire
    · rintro ⟨hall, hrange⟩
      refine absurd ⟨?_, hrange⟩ hread
      rw [fits]
      exact decide_eq_true (hall _ (List.getLast_mem hne)).2

/-- The two lines `250-SIZE` and `250 HELP`, each in a chunk of its own. -/
theorem relay_eq_size_help :
    relay 1024 ([[replyLine 250 DASH (usAsciiEncode "SIZE".toList) ++ CRLF],
        [replyLine 250 SP (usAsciiEncode "HELP".toList) ++ CRLF]].map List.flatten)
      = (replyLines 250 [usAsciiEncode "SIZE".toList, usAsciiEncode "HELP".toList]).flatten :=
  (relay_eq_iff 1024 (by decide) (by decide)
    (by simp only [IsText, IsAscii, ← List.all_iff_forall_prop]; decide) (by rfl)).mpr
    ⟨by decide, by decide, by decide⟩

/-- A `334` challenge without a text is a valid reply, and the client never sees it. -/
theorem relay_empty_challenge :
    ¬ ∀ (code : ℕ) (texts : List (List UInt8)) (groups : List (List (List UInt8))),
      code < 1000 → texts ≠ [] → (∀ text ∈ texts, IsText text) →
      groups.flatten = replyLines code texts →
      relay 1024 (groups.map List.flatten) = (replyLines code texts).flatten := by
  intro h
  have hlost := h 334 [[]] [[replyLine 334 SP [] ++ CRLF]] (by decide) (by decide)
    (by simp [IsText, IsAscii]) (by rfl)
  have hnothing : relay 1024 [replyLine 334 SP [] ++ CRLF] = [] := by decide +kernel
  rw [List.map_singleton, List.flatten_singleton, hnothing] at hlost
  exact absurd hlost (by decide)

end OrgLittle.Smtp
