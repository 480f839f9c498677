import OrgLittle.Smtp.Proxy

/-!
# A request written to the backend is read back as the same request

The proxy writes a command line with `SmtpClnRequestEncoder`, and the server on the other side reads it
with `stringParser` and `SmtpRequestBuilder.make`. The two are inverse for every registered command as
long as the parameters are words: the encoder puts one space before each of them, and the tokenizer
drops the separators again.
-/

namespace OrgLittle.Smtp

open OrgLittle.Java OrgLittle.Util

/-- A parameter that is one word of a command line. -/
structure IsWord (p : JString) : Prop where
  ne_nil : p ≠ []
  ascii : ∀ c ∈ p, c.toNat < 128
  noSeparator : ∀ c ∈ p, c ∉ " \r\n".toList

instance (p : JString) : Decidable (IsWord p) :=
  decidable_of_iff
    (p ≠ [] ∧ (p.all fun c => c.toNat < 128) = true ∧ (p.all fun c => c ∉ " \r\n".toList) = true)
    ⟨fun h => ⟨h.1, List.all_iff_forall_prop.mp h.2.1, List.all_iff_forall_prop.mp h.2.2⟩,
      fun h => ⟨h.ne_nil, List.all_iff_forall_prop.mpr h.ascii,
        List.all_iff_forall_prop.mpr h.noSeparator⟩⟩

/-! ## Registered commands -/

/-- What the table and the chain of tests in `make` need to know of a registered command. -/
theorem registered {command : SmtpCommand} (h : command ∈ SmtpCommand.COMMANDS) :
    IsWord command.getName ∧ toUpperCase command.getName = command.getName
      ∧ SmtpCommand.valueOf command.getName = command
      ∧ command.encode = writeAscii command.getName
      ∧ command ≠ .EMPTY ∧ command ≠ .CONTENT ∧ command ≠ .LASTCONTENT
      ∧ ∀ name, command ≠ .other name := by
  have hne := SmtpCommand.registered_ne h
  rcases command with _ | _ | _ | _ | _ | _ | _ | _ | _ | _ | _ | _ | _ | _ | _ | _ | name
  case EMPTY => exact absurd rfl hne.1
  case CONTENT => exact absurd rfl hne.2.1
  case LASTCONTENT => exact absurd rfl hne.2.2.1
  case other => exact absurd rfl (hne.2.2.2 name)
  all_goals exact ⟨by decide, by decide, by decide, by decide, hne⟩

theorem make_registered {command : SmtpCommand} (h : command ∈ SmtpCommand.COMMANDS)
    (parameters : List JString) :
    SmtpRequestBuilder.make (command.getName :: parameters) = .ok (some ⟨command, parameters⟩) := by
  obtain ⟨-, hupper, hvalue, -, -, hcontent, hlast, hother⟩ := registered h
  rw [SmtpRequestBuilder.make, hupper, hvalue]
  split
  · exact absurd rfl (hother _)
  · exact absurd rfl hcontent
  · exact absurd rfl hlast
  · rfl

/-! ## The command line -/

theorem writeAscii_intercalate (words : List JString) :
    writeAscii ([' '].intercalate words) = [SP].intercalate (words.map writeAscii) := by
  induction words with
  | nil => rfl
  | cons w words ih =>
    cases words with
    | nil => simp
    | cons w' words =>
      rw [List.intercalate_cons_cons, writeAscii_append, writeAscii_append, ih]
      exact List.intercalate_cons_cons.symm

/-- The encoder writes the name and the parameters, joined by spaces, and the line end. -/
theorem encode_registered {req : SmtpRequest} (h : req.command ∈ SmtpCommand.COMMANDS) :
    SmtpClnRequestEncoder.encode req
      = writeAscii ([' '].intercalate (req.command.getName :: req.parameters)) ++ CRLF := by
  obtain ⟨-, -, -, hencode, hempty, hcontent, hlast, -⟩ := registered h
  rw [SmtpClnRequestEncoder.encode, hencode, writeAscii_intercalate]
  simp only [hcontent, hlast, or_self, if_false, writeParameters, ne_eq, hempty, not_false_eq_true,
    decide_true, if_true]
  rcases req.parameters with _ | ⟨p, parameters⟩
  · simp
  · simp only [List.map_cons, List.intercalate_cons_cons]
    simp

theorem isWord_intercalate_ascii {words : List JString} (h : ∀ w ∈ words, IsWord w) :
    ∀ c ∈ [' '].intercalate words, c.toNat < 128 := by
  induction words with
  | nil => simp
  | cons w words ih =>
    have hw := (h w List.mem_cons_self).ascii
    cases words with
    | nil => simpa using hw
    | cons w' words =>
      intro c hc
      rw [List.intercalate_cons_cons, List.mem_append, List.mem_append, List.mem_singleton] at hc
      rcases hc with (hc | rfl) | hc
      · exact hw c hc
      · decide
      · exact ih (fun x hx => h x (List.mem_cons_of_mem w hx)) c hc

/-- The request codec: a request of a registered command whose parameters are words is read back from
the bytes that the encoder writes for it. -/
theorem make_encode (req : SmtpRequest) (hcommand : req.command ∈ SmtpCommand.COMMANDS)
    (hparameters : ∀ p ∈ req.parameters, IsWord p) :
    SmtpRequestBuilder.make (listCmd (SmtpClnRequestEncoder.encode req)) = .ok (some req) := by
  have hwords : ∀ w ∈ req.command.getName :: req.parameters, IsWord w := by
    intro w hw
    rcases List.mem_cons.mp hw with rfl | hw
    · exact (registered hcommand).1
    · exact hparameters w hw
  have hline : SmtpClnRequestEncoder.encode req
      = writeAscii ([' '].intercalate (req.command.getName :: req.parameters) ++ "\r\n".toList) := by
    rw [encode_registered hcommand, writeAscii_append]
    rfl
  have hread : asciiString (SmtpClnRequestEncoder.encode req)
      = [' '].intercalate (req.command.getName :: req.parameters) ++ "\r\n".toList := by
    rw [hline, asciiString_writeAscii]
    intro c hc
    rcases List.mem_append.mp hc with hc | hc
    · exact isWord_intercalate_ascii hwords c hc
    · have hend : ∀ c ∈ "\r\n".toList, c.toNat < 128 := List.all_iff_forall_prop.mp (by decide)
      exact hend c hc
  have hlist : listCmd (SmtpClnRequestEncoder.encode req) = req.command.getName :: req.parameters := by
    rw [listCmd, hread]
    have hspace : ' ' ∈ " \r\n".toList := by decide
    have hcr : '\r' ∈ " \r\n".toList := by decide
    have hend : StringParser.getList ['\n'] " \r\n".toList = [] := by decide
    have hget := StringParser.getList_intercalate (fun w hw => (hwords w hw).ne_nil)
      (fun w hw => (hwords w hw).noSeparator) hspace hcr ['\n']
    rw [hend, List.append_nil] at hget
    exact hget
  rw [hlist, make_registered hcommand]

/-- A `MAIL` command with two parameters. -/
theorem make_encode_mail :
    SmtpRequestBuilder.make (listCmd (SmtpClnRequestEncoder.encode
        ⟨.MAIL, ["FROM:<av>".toList, "SIZE=10".toList]⟩))
      = .ok (some ⟨.MAIL, ["FROM:<av>".toList, "SIZE=10".toList]⟩) :=
  make_encode ⟨.MAIL, ["FROM:<av>".toList, "SIZE=10".toList]⟩ (by decide)
    (List.all_iff_forall_prop.mp (by decide))

end OrgLittle.Smtp
