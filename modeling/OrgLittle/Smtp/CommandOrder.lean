import OrgLittle.Smtp.CommandHandler

/-!
# The order of `MAIL`, `RCPT` and `DATA`

`RCPT` should be accepted only inside a transaction that `MAIL` opened, and `DATA` only after an accepted
`RCPT` of the same transaction; otherwise the command is refused and the session stays as it is. The
handler computes `validateCommandOrder` and drops its result, so nothing but the null checks of the
commands themselves keeps the order.

`Progress` is what the lines so far amount to, kept as a history variable beside the session.
`inOrder_iff` shows which steps keep to the rule, and `inOrder_run_iff` which whole sessions do.
-/

namespace OrgLittle.Smtp

open OrgLittle.Java

/-- How far the current transaction has come: `MAIL` opened it, and an `RCPT` was accepted since. -/
structure Progress where
  opened : Bool
  rcpt : Bool
deriving DecidableEq

/-- No transaction. -/
def Progress.closed : Progress := ⟨false, false⟩

/-- What a line means for the progress of the transaction. -/
def Progress.next (o : Progress) (s : SmtpSessionContext) (l : Line) : Progress :=
  match acceptedCommand s l.frame with
  | some ⟨.MAIL, _⟩ => ⟨true, false⟩
  | some ⟨.RCPT, _⟩ => ⟨o.opened, o.opened⟩
  | some ⟨.HELO, _⟩ => .closed
  | some ⟨.EHLO, _⟩ => .closed
  | some ⟨.RSET, _⟩ => .closed
  | some ⟨.STLS, parameters⟩ => if parameters.length ≤ 1 ∧ l.env.sslHandler then .closed else o
  | some _ => o
  | none => if s.mailContent.isSome ∧ unstuff l.frame = [DOT] then .closed else o

/-- The command was answered with an error and left the session as it was. -/
def Refused (s : SmtpSessionContext) (r : Reaction) : Prop :=
  r.session = s ∧ r.fault = none ∧ ∃ reply, r.events = [.reply reply] ∧ 400 ≤ reply.replyCode

/-- The rule of the order, for one line: `DATA` without a recipient and `RCPT` outside a transaction
are refused. -/
def InOrder (cfg : CommonSMTP) (p : SmtpSessionContext × Progress) (l : Line) : Prop :=
  match acceptedCommand p.1 l.frame with
  | some ⟨.DATA, _⟩ => p.2.rcpt = false → Refused p.1 (channelRead cfg l.env p.1 l.frame)
  | some ⟨.RCPT, _⟩ => p.2.opened = false → Refused p.1 (channelRead cfg l.env p.1 l.frame)
  | _ => True

/-- The lines that keep to the rule: the command comes in its order, or it is a `DATA` outside any
transaction that repeats the last command line. -/
def inSequence (p : SmtpSessionContext × Progress) (l : Line) : Bool :=
  match acceptedCommand p.1 l.frame with
  | some ⟨.DATA, _⟩ =>
    p.2.rcpt || (!p.2.opened && p.1.lastCmd = some (asciiString l.frame))
  | some ⟨.RCPT, _⟩ => p.2.opened
  | _ => true

/-! ## The history variable tells whether there is a transaction -/

/-- The progress agrees with the transaction object of the session. -/
structure Tracks (p : SmtpSessionContext × Progress) : Prop where
  opened : p.2.opened = p.1.mailTransaction.isSome
  rcpt : p.2.rcpt = true → p.2.opened = true

theorem Progress.next_rcpt {o : Progress} (s : SmtpSessionContext) (l : Line)
    (h : o.rcpt = true → o.opened = true) :
    (o.next s l).rcpt = true → (o.next s l).opened = true := by
  unfold Progress.next
  split
  · exact nofun
  · exact id
  · exact id
  · exact id
  · exact id
  · split
    · exact id
    · exact h
  · exact h
  · split
    · exact id
    · exact h

/-- `AUTH` leaves the mail transaction alone, also when it raises an exception. -/
theorem authCommand_mailTransaction (cfg : CommonSMTP) (env : Env) (parameters : List JString)
    (s : SmtpSessionContext) :
    (Auth.processCommand cfg env parameters s).session.mailTransaction = s.mailTransaction := by
  cases parameters with
  | nil => rfl
  | cons type args =>
    simp only [Auth.processCommand]
    split_ifs
    · cases args with
      | nil => rfl
      | cons token args =>
        simp only
        split <;> rfl
    · rfl
    · rfl

/-- The mail transaction after a command that was processed here. -/
theorem dispatch_mailTransaction {cfg : CommonSMTP} (hproxy : cfg.isProxy = false) (env : Env)
    (s : SmtpSessionContext) (req : SmtpRequest) (line : JString) :
    (dispatch cfg env s req line).session.mailTransaction
      = (req.processCommand cfg env s).session.mailTransaction := by
  rw [dispatch, if_pos (.inl hproxy)]
  dsimp only
  cases (req.processCommand cfg env s).result <;> rfl

/-- What an accepted command makes of the mail transaction. -/
def nextTransaction (cfg : CommonSMTP) (env : Env) (mailTx : Option SmtpMailTransaction) :
    SmtpRequest → Option SmtpMailTransaction
  | ⟨.MAIL, []⟩ => some .new
  | ⟨.MAIL, arg :: _⟩ => some (SmtpMailTransaction.new.setFrom cfg arg)
  | ⟨.RCPT, parameters⟩ => mailTx.map fun mailTx => mailTx.addTo cfg (parameters.flatMap fun p => p ++ [' '])
  | ⟨.DATA, _⟩ => mailTx.map fun mailTx => { mailTx with mailContent := some Content.new }
  | ⟨.HELO, _⟩ => none
  | ⟨.EHLO, _⟩ => none
  | ⟨.RSET, _⟩ => none
  | ⟨.STLS, parameters⟩ => if parameters.length ≤ 1 ∧ env.sslHandler then none else mailTx
  | _ => mailTx

theorem channelRead_accepted_mailTransaction {cfg : CommonSMTP} (hproxy : cfg.isProxy = false) (env : Env)
    {s : SmtpSessionContext} {frame : List UInt8} {req : SmtpRequest} (h : acceptedCommand s frame = some req) :
    (channelRead cfg env s frame).session.mailTransaction = nextTransaction cfg env s.mailTransaction req := by
  have hne := SmtpCommand.registered_ne (acceptedCommand_mem h)
  rw [channelRead_accepted cfg env h]
  rcases req with ⟨command, parameters⟩
  cases command with
  | AUTH =>
    cases parameters with
    | nil => rfl
    | cons type args =>
      simp only [createTransaction, dispatch_mailTransaction hproxy, SmtpRequest.processCommand,
        authCommand_mailTransaction]
      rfl
  | MAIL =>
    cases parameters with
    | nil => rfl
    | cons arg args =>
      simp only [createTransaction, dispatch_mailTransaction hproxy]
      rfl
  | STLS =>
    simp only [createTransaction, dispatch_mailTransaction hproxy, SmtpRequest.processCommand,
      StartTLS.processCommand, nextTransaction]
    by_cases hlen : parameters.length ≤ 1
    · rw [if_neg (by omega : ¬ 1 < parameters.length)]
      by_cases hssl : env.sslHandler = true
      · rw [if_pos hssl, if_pos ⟨hlen, hssl⟩]
        rfl
      · rw [if_neg hssl, if_neg fun hc => hssl hc.2]
        rfl
    · rw [if_pos (by omega : 1 < parameters.length), if_neg fun hc => hlen hc.1]
      rfl
  | DATA =>
    simp only [createTransaction, dispatch_mailTransaction hproxy, SmtpRequest.processCommand,
      MailData.processCommand, nextTransaction]
    cases s.mailTransaction <;> rfl
  | VRFY =>
    simp only [createTransaction, dispatch_mailTransaction hproxy, SmtpRequest.processCommand,
      VerifyMailbox.processCommand]
    cases parameters <;> rfl
  | EMPTY => exact absurd rfl hne.1
  | CONTENT => exact absurd rfl hne.2.1
  | LASTCONTENT => exact absurd rfl hne.2.2.1
  | other name => exact absurd rfl (hne.2.2.2 name)
  | RCPT | HELO | EHLO | RSET | NOOP | EXPN | HELP | QUIT =>
    simp only [createTransaction, dispatch_mailTransaction hproxy]
    rfl

/-- An accepted command opens, keeps or closes the transaction as `Progress.next` says. -/
theorem channelRead_accepted_opened {cfg : CommonSMTP} (hproxy : cfg.isProxy = false)
    {s : SmtpSessionContext} {l : Line} {req : SmtpRequest} {o : Progress}
    (h : acceptedCommand s l.frame = some req) (ho : o.opened = s.mailTransaction.isSome) :
    (o.next s l).opened = (channelRead cfg l.env s l.frame).session.mailTransaction.isSome := by
  rw [channelRead_accepted_mailTransaction hproxy l.env h]
  simp only [Progress.next, h]
  rcases req with ⟨command, parameters⟩
  cases command with
  | MAIL => cases parameters <;> rfl
  | RCPT | DATA =>
    simp only [nextTransaction, Option.isSome_map]
    exact ho
  | HELO | EHLO | RSET => rfl
  | STLS =>
    simp only [nextTransaction]
    split_ifs
    · rfl
    · exact ho
  | _ => exact ho

/-- Every line keeps the progress in step with the session. -/
theorem tracks_step {cfg : CommonSMTP} (hproxy : cfg.isProxy = false)
    (p : SmtpSessionContext × Progress) (l : Line) (h : Tracks p) :
    Tracks (((handler cfg).withHistory Progress.next).step p l).1 := by
  obtain ⟨s, o⟩ := p
  refine ⟨?_, Progress.next_rcpt s l h.rcpt⟩
  show (o.next s l).opened = (channelRead cfg l.env s l.frame).session.mailTransaction.isSome
  cases hacc : acceptedCommand s l.frame with
  | some req => exact channelRead_accepted_opened hproxy hacc h.opened
  | none =>
    simp only [Progress.next, hacc]
    by_cases hcontent : s.mailContent = none
    · -- outside mail text a line that is no accepted command leaves the transaction alone
      have hsame : (channelRead cfg l.env s l.frame).session.mailTransaction = s.mailTransaction := by
        rcases channelRead_not_accepted hproxy l.env hcontent hacc with
          ⟨fault, hr⟩ | ⟨reply, hr⟩ | ⟨auth, -, -, auth', checked, reply, hr, -⟩ <;> rw [hr]
      rw [hsame, hcontent]
      simpa using h.opened
    · obtain ⟨mailTx, parameters, hs⟩ := eq_inData hcontent
      have hsome : s.mailContent.isSome = true := Option.isSome_iff_ne_none.mpr hcontent
      by_cases hdot : unstuff l.frame = [DOT]
      · have hend := channelRead_end cfg l.env s mailTx parameters l.frame hdot
        rw [← hs] at hend
        rw [if_pos ⟨hsome, hdot⟩, hend]
        rfl
      · have htext := channelRead_text cfg l.env s mailTx parameters l.frame hdot
        rw [← hs] at htext
        rw [if_neg fun hc => hdot hc.2, htext, h.opened, hs]
        rfl

/-! ## Which lines keep to the rule -/

/-- `RCPT` is always answered with 250. -/
theorem not_refused_rcpt {cfg : CommonSMTP} (hproxy : cfg.isProxy = false) {s : SmtpSessionContext}
    {l : Line} {parameters : List JString}
    (h : acceptedCommand s l.frame = some ⟨.RCPT, parameters⟩) :
    ¬ Refused s (channelRead cfg l.env s l.frame) := by
  rintro ⟨-, -, reply, hevents, hcode⟩
  rw [channelRead_accepted cfg l.env h] at hevents
  simp only [createTransaction, dispatch, hproxy, true_or, if_true, SmtpRequest.processCommand,
    Recipent.processCommand, Processed.answer, Option.toList_some, List.map_cons, List.map_nil,
    List.nil_append, List.cons.injEq, Event.reply.injEq, and_true] at hevents
  rw [← hevents] at hcode
  exact absurd hcode (by decide)

/-- `DATA` is refused exactly outside a transaction, and then its line is kept as the last command. -/
theorem refused_data_iff {cfg : CommonSMTP} (hproxy : cfg.isProxy = false) {s : SmtpSessionContext}
    {l : Line} {parameters : List JString}
    (h : acceptedCommand s l.frame = some ⟨.DATA, parameters⟩) :
    Refused s (channelRead cfg l.env s l.frame)
      ↔ s.mailTransaction = none ∧ s.lastCmd = some (asciiString l.frame) := by
  rw [channelRead_accepted cfg l.env h]
  simp only [createTransaction, dispatch, hproxy, true_or, if_true, SmtpRequest.processCommand,
    MailData.processCommand]
  cases hm : s.mailTransaction with
  | some mailTx =>
    simp [Refused, Processed.answer, SmtpResponse.line]
  | none =>
    have hreply : Refused s ⟨{ s with lastCmd := some (asciiString l.frame) },
        [.reply (.line 550 "no mail session")], none⟩ ↔ s.lastCmd = some (asciiString l.frame) := by
      constructor
      · rintro ⟨hs, -⟩
        exact (congrArg SmtpSessionContext.lastCmd hs).symm
      · intro hlast
        exact ⟨by rw [← hlast], rfl, _, rfl, by decide⟩
    rw [hm] at hreply
    simpa [Processed.answer] using hreply

/-- Exactly the lines of `inSequence` keep to the rule. -/
theorem inOrder_iff {cfg : CommonSMTP} (hproxy : cfg.isProxy = false)
    (p : SmtpSessionContext × Progress) (l : Line) (h : Tracks p) :
    InOrder cfg p l ↔ inSequence p l = true := by
  obtain ⟨s, o⟩ := p
  have hopened : o.opened = s.mailTransaction.isSome := h.opened
  simp only [InOrder, inSequence]
  split
  · rename_i parameters hacc
    rw [refused_data_iff hproxy hacc]
    cases hrcpt : o.rcpt with
    | true => simp
    | false => simp [hopened]
  · rename_i parameters hacc
    have hnot := not_refused_rcpt hproxy hacc
    cases o.opened with
    | true => simp
    | false => simp [hnot]
  · simp

/-- Over whole sessions: from a session without a transaction, every command keeps to the rule exactly
if every `RCPT` and every `DATA` comes in its order, apart from repeated `DATA` lines outside any
transaction. -/
theorem inOrder_run_iff {cfg : CommonSMTP} (hproxy : cfg.isProxy = false) (s : SmtpSessionContext)
    (hs : s.mailTransaction = none) (lines : List Line) :
    ((handler cfg).withHistory Progress.next).Along (InOrder cfg) (s, .closed) lines
      ↔ ((handler cfg).withHistory Progress.next).Along (fun p l => inSequence p l = true)
        (s, .closed) lines := by
  have hstart : Tracks (s, .closed) := ⟨by rw [hs]; rfl, nofun⟩
  exact Lib.Machine.along_congr_of_invariant (fun p l => tracks_step hproxy p l)
    (fun p l => inOrder_iff hproxy p l) hstart lines

/-- A mail sent in the right order, with a `NOOP` and a second recipient in between. -/
theorem inOrder_run_mail :
    ((handler .stub).withHistory Progress.next).Along (InOrder .stub)
      (.channelActive .stub, .closed)
      [.ofString "AUTH PLAIN AGF2ADEyMw==", .ofString "MAIL FROM:<av>", .ofString "RCPT TO:<iap>",
        .ofString "NOOP", .ofString "RCPT TO:<av>", .ofString "DATA"] :=
  (inOrder_run_iff rfl (.channelActive .stub) rfl _).mpr
    ⟨by decide, by decide, by decide, by decide, by decide, by decide, trivial⟩

/-- After `MAIL`, an authenticated client opens a mail content without naming any recipient. -/
theorem inOrder_data_without_rcpt :
    ¬ ∀ lines, ((handler .stub).withHistory Progress.next).Along (InOrder .stub)
      (.channelActive .stub, .closed) (.ofString "AUTH PLAIN AGF2ADEyMw==" :: lines) := by
  intro h
  obtain ⟨-, -, hdata, -⟩ := h [.ofString "MAIL FROM:<av>", .ofString "DATA"]
  have hrefused := hdata rfl
  exact absurd (congrArg SmtpSessionContext.mailContent hrefused.1) (by decide)

end OrgLittle.Smtp
