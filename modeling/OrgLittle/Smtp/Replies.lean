import OrgLittle.Smtp.CommandHandler

/-!
# One reply per request

Outside proxy mode every command line, every line of credentials and every end of a mail text should be
answered by exactly one response, and a line of mail text by none. `answersOnce` lists the lines for
which the handler keeps to that; `oneReply_iff` shows that the list is exact, for every session. The
lines it leaves out are of three kinds: too short or blank lines, lines whose missing argument or bad
base64 text raises an exception, and the end of a mail text, whose response is always written twice.
-/

namespace OrgLittle.Smtp

open OrgLittle.Java OrgLittle.Util

/-- The responses among the events. -/
def repliesOf (events : List Event) : List SmtpResponse :=
  events.filterMap fun
    | .reply response => some response
    | _ => none

@[simp] theorem repliesOf_nil : repliesOf [] = [] := rfl

@[simp] theorem repliesOf_reply (r : SmtpResponse) : repliesOf [.reply r] = [r] := rfl

/-- The line is mail text and not its end. -/
def isBodyLine (s : SmtpSessionContext) (l : Line) : Bool :=
  s.mailContent.isSome ∧ unstuff l.frame ≠ [DOT]

/-- The line is answered as it should be: a body line not at all, any other line once, and no
exception is raised. -/
def OneReply (cfg : CommonSMTP) (s : SmtpSessionContext) (l : Line) : Prop :=
  let r := channelRead cfg l.env s l.frame
  (repliesOf r.events).length = (if isBodyLine s l then 0 else 1) ∧ r.fault = none

/-- The base64 text can be decoded. -/
def isBase64 (arg : JString) : Bool := (Base64.base64ToByteArray arg).isOk

/-- The credentials can be read: there is a word, and in a `PLAIN` or `LOGIN` exchange it is base64. -/
def credentialsReadable (auth : SmtpAuthTransaction) (list_cmd : List JString) : Bool :=
  match list_cmd with
  | [] => false
  | arg :: _ => if auth.isTypePlain || auth.isTypeLogin then isBase64 arg else true

/-- The command has the arguments that it reads. -/
def hasArguments (req : SmtpRequest) : Bool :=
  match req.command, req.parameters with
  | .AUTH, [] => false
  | .AUTH, type :: token :: _ => if startsWith type "PLAIN".toList then isBase64 token else true
  | .MAIL, [] => false
  | .VRFY, [] => false
  | _, _ => true

/-- The lines that are answered as they should be. -/
def answersOnce (s : SmtpSessionContext) (l : Line) : Bool :=
  if s.mailContent.isSome then unstuff l.frame ≠ [DOT]
  else if l.frame.length < 4 then false
  else if readsCredentials s then
    match s.authTransaction with
    | some auth => credentialsReadable auth (listCmd l.frame)
    | none => false
  else
    match acceptedCommand s l.frame with
    | some req => hasArguments req
    | none => listCmd l.frame ≠ []

/-! ## Credentials -/

theorem setPlain_isOk (charset : Charset) (auth : SmtpAuthTransaction) (arg : JString) :
    (auth.setPlain charset arg).isOk = isBase64 arg := by
  unfold SmtpAuthTransaction.setPlain isBase64
  cases Base64.base64ToByteArray arg <;> rfl

theorem setLogin_isOk (charset : Charset) (auth : SmtpAuthTransaction) (arg : JString) :
    (auth.setLogin charset arg).isOk = isBase64 arg := by
  unfold SmtpAuthTransaction.setLogin Base64.base64ToStr isBase64
  cases Base64.base64ToByteArray arg <;> rfl

theorem setPasswd_isOk (charset : Charset) (auth : SmtpAuthTransaction) (arg : JString) :
    (auth.setPasswd charset arg).isOk = isBase64 arg := by
  unfold SmtpAuthTransaction.setPasswd Base64.base64ToStr isBase64
  cases Base64.base64ToByteArray arg <;> rfl

/-- The first phase raises an exception exactly if the credentials cannot be read. -/
theorem authPhase_fault_isNone (cfg : CommonSMTP) (env : Env) {s : SmtpSessionContext}
    {auth : SmtpAuthTransaction} (hauth : s.authTransaction = some auth)
    (h : readsCredentials s = true) (list_cmd : List JString) :
    (authPhase cfg env s list_cmd).fault.isNone = credentialsReadable auth list_cmd := by
  simp only [readsCredentials, hauth, Bool.and_eq_true, Bool.not_eq_true'] at h
  obtain ⟨hunauth, htype⟩ := h
  simp only [authPhase, hauth, hunauth, Bool.false_eq_true, if_false]
  cases list_cmd with
  | nil =>
    simp only [plainPhase, loginPhase, credentialsReadable, Phase.throw]
    split_ifs with hplain hlogin hpreset
    · rfl
    · rfl
    · simp [hplain, hlogin, hpreset] at htype
    · rfl
  | cons arg args =>
    simp only [plainPhase, loginPhase, credentialsReadable]
    by_cases hplain : auth.isTypePlain = true
    · have hok := setPlain_isOk cfg.charset auth arg
      simp only [hplain, Bool.true_or, if_true, ← hok]
      rcases auth.setPlain cfg.charset arg with e | auth'
      · rfl
      · simp only
        split_ifs <;> rfl
    by_cases hlogin : auth.isTypeLogin = true
    · simp only [hplain, hlogin, Bool.or_true, if_true, if_false, Bool.false_eq_true]
      by_cases hname : auth.isLogin = false
      · have hok := setLogin_isOk cfg.charset auth arg
        rw [if_pos hname, ← hok]
        rcases auth.setLogin cfg.charset arg with e | auth' <;> rfl
      · have hok := setPasswd_isOk cfg.charset auth arg
        rw [if_neg hname, ← hok]
        rcases auth.setPasswd cfg.charset arg with e | auth'
        · rfl
        · simp only
          split_ifs <;> rfl
    · have hpreset : auth.isTypePreset = false := by simpa [hplain, hlogin] using htype
      simp [hplain, hlogin, hpreset, Phase.answer]

/-- A line read as credentials is answered as it should be exactly if they can be read. -/
theorem channelRead_credentials_answered {cfg : CommonSMTP} (hproxy : cfg.isProxy = false) (env : Env)
    {s : SmtpSessionContext} {auth : SmtpAuthTransaction} {frame : List UInt8}
    (hcontent : s.mailContent = none) (hlen : ¬ frame.length < 4)
    (hauth : s.authTransaction = some auth) (hcred : readsCredentials s = true) :
    ((repliesOf (channelRead cfg env s frame).events).length = 1
        ∧ (channelRead cfg env s frame).fault = none)
      ↔ credentialsReadable auth (listCmd frame) = true := by
  have hfault := authPhase_fault_isNone cfg env hauth hcred (listCmd frame)
  rw [channelRead_request cfg env hcontent, channelReadRequest, if_neg hlen, ← hfault]
  rcases authPhase_credentials hproxy env hauth hcred (listCmd frame) (asciiString frame) with
    ⟨e, he⟩ | ⟨hreply, auth', checked, reply, hr, -, hchecked⟩
  · simp [he, Phase.throw, Phase.finish]
  · have hnot : (authPhase cfg env s (listCmd frame)).reply.isNone = false := by
      simpa [Option.isSome_iff_ne_none] using hreply
    have hnone : (authPhase cfg env s (listCmd frame)).fault = none := by
      cases hf : (authPhase cfg env s (listCmd frame)).fault with
      | none => rfl
      | some e =>
        rw [Phase.finish, hf] at hr
        injection hr with _ _ h
    simp only [hnot, Bool.and_false, Bool.false_eq_true, if_false, hr, hnone, Option.isNone_none]
    rcases hchecked with ⟨rfl, -⟩ | rfl
    · simp
    · simp [repliesOf]

/-! ## Commands -/

/-- `AUTH` with a mechanism name is answered once, unless its inline token is no base64. -/
theorem authCommand_answered (cfg : CommonSMTP) (env : Env) (type : JString) (args : List JString)
    (s : SmtpSessionContext) (line : JString) :
    let p := Auth.processCommand cfg env (type :: args) s
    let r : Reaction :=
      match p.result with
      | .error e => ⟨p.session, p.events, some e⟩
      | .ok reply =>
        ⟨{ p.session with lastCmd := some line }, p.events ++ reply.toList.map .reply, none⟩
    ((repliesOf r.events).length = 1 ∧ r.fault = none)
      ↔ hasArguments ⟨.AUTH, type :: args⟩ = true := by
  have htype : ((SmtpAuthTransaction.new false).setType type).isTypePlain
      = startsWith type "PLAIN".toList := rfl
  have hargs : hasArguments ⟨.AUTH, type :: args⟩
      = (if startsWith type "PLAIN".toList then (args.head?.map isBase64).getD true else true) := by
    cases args with
    | nil => simp [hasArguments]
    | cons token args => rfl
  simp only [Auth.processCommand, htype, hargs]
  cases startsWith type "PLAIN".toList with
  | true =>
    cases args with
    | nil => simp [Processed.answer]
    | cons token args =>
      have hok := setPlain_isOk cfg.charset ((SmtpAuthTransaction.new false).setType type) token
      simp only [if_true, List.head?_cons, Option.map_some, Option.getD_some, ← hok]
      rcases SmtpAuthTransaction.setPlain cfg.charset _ token with e | auth
      · simp [Except.isOk, Except.toBool]
      · simp [Except.isOk, Except.toBool, repliesOf]
  | false =>
    simp only [Bool.false_eq_true, if_false]
    split_ifs <;> simp [Processed.answer]

/-- An accepted command is answered as it should be exactly if it has the arguments that it reads. -/
theorem channelRead_accepted_answered {cfg : CommonSMTP} (hproxy : cfg.isProxy = false) (env : Env)
    {s : SmtpSessionContext} {frame : List UInt8} {req : SmtpRequest}
    (h : acceptedCommand s frame = some req) :
    ((repliesOf (channelRead cfg env s frame).events).length = 1
        ∧ (channelRead cfg env s frame).fault = none) ↔ hasArguments req = true := by
  have hmem := acceptedCommand_mem h
  rw [channelRead_accepted cfg env h]
  rcases req with ⟨command, parameters⟩
  -- one case for each registered command; the argument of `AUTH` and `MAIL` is read before the dispatch
  cases command with
  | AUTH =>
    cases parameters with
    | nil => simp [createTransaction, hasArguments]
    | cons type args =>
      simp only [createTransaction, dispatch, hproxy, true_or, if_true,
        SmtpRequest.processCommand]
      exact authCommand_answered cfg env type args _ _
  | MAIL =>
    cases parameters <;>
      simp [createTransaction, hasArguments, dispatch, SmtpRequest.processCommand, hproxy,
        Processed.answer]
  | VRFY =>
    cases parameters <;>
      simp [createTransaction, hasArguments, dispatch, SmtpRequest.processCommand,
        VerifyMailbox.processCommand, hproxy, Processed.answer]
  | DATA =>
    cases hm : s.mailTransaction <;>
      simp [createTransaction, hasArguments, dispatch, SmtpRequest.processCommand,
        MailData.processCommand, hproxy, Processed.answer, hm]
  | STLS =>
    simp only [createTransaction, hasArguments, dispatch, SmtpRequest.processCommand,
        StartTLS.processCommand, hproxy, true_or, if_true]
    split_ifs <;> simp [Processed.answer]
  | CONTENT => exact absurd rfl (SmtpCommand.registered_ne hmem).2.1
  | LASTCONTENT => exact absurd rfl (SmtpCommand.registered_ne hmem).2.2.1
  | EMPTY => exact absurd rfl (SmtpCommand.registered_ne hmem).1
  | other name => exact absurd rfl ((SmtpCommand.registered_ne hmem).2.2.2 name)
  | QUIT =>
    simp [createTransaction, hasArguments, dispatch, SmtpRequest.processCommand, hproxy,
      Quit.processCommand, repliesOf]
  | _ =>
    simp [createTransaction, hasArguments, dispatch, SmtpRequest.processCommand, hproxy,
      Processed.answer, Hello.processCommand, Recipent.processCommand]

/-- A line that is no command, no credentials and no mail text: blank lines raise an exception, any
other is refused once. -/
theorem channelRead_refused_answered (cfg : CommonSMTP) (env : Env) {s : SmtpSessionContext}
    {frame : List UInt8} (hcontent : s.mailContent = none) (hlen : ¬ frame.length < 4)
    (hcred : readsCredentials s = false) (h : acceptedCommand s frame = none) :
    ((repliesOf (channelRead cfg env s frame).events).length = 1
        ∧ (channelRead cfg env s frame).fault = none) ↔ listCmd frame ≠ [] := by
  rw [channelRead_request cfg env hcontent, channelReadRequest_command cfg env (by omega) hcred]
  simp only [acceptedCommand, hcontent, hlen, hcred, Option.isSome_none, Bool.false_eq_true,
    or_self, if_false] at h
  cases hlist : listCmd frame with
  | nil => simp [requestPhase, SmtpRequestBuilder.make, Phase.throw, Phase.finish]
  | cons name args =>
    rw [hlist] at h
    cases hmake : SmtpRequestBuilder.make (name :: args) with
    | error e =>
      rw [SmtpRequestBuilder.make] at hmake
      split at hmake <;> cases hmake
    | ok o =>
      cases o with
      | none => simp [requestPhase, hmake, Phase.answer, Phase.finish]
      | some req =>
        simp only [hmake] at h
        split at h
        · rename_i hinvalid
          simp [requestPhase, hmake, hinvalid, Phase.answer, Phase.finish]
        · cases h

/-! ## Mail text -/

/-- The end of a mail text is answered twice: `Content.processCommand` writes the response that it
also returns. -/
theorem channelRead_end_replies {cfg : CommonSMTP} (hproxy : cfg.isProxy = false) (env : Env)
    (s : SmtpSessionContext) (mailTx : SmtpMailTransaction) (parameters : List JString)
    {frame : List UInt8} (h : unstuff frame = [DOT]) :
    2 ≤ (repliesOf (channelRead cfg env (inData s mailTx parameters) frame).events).length := by
  obtain ⟨events, reply, hp⟩ := content_processCommand cfg env parameters (inData s mailTx parameters)
  have hevents : (Content.processCommand cfg env parameters (inData s mailTx parameters)).events
      = events ++ [.reply reply] := by rw [hp]
  rw [channelRead_end_events hproxy env (inData_mailContent s mailTx parameters) h hevents]
  simp [repliesOf]

/-! ## Every line -/

/-- The lines of `answersOnce` are exactly those answered as they should be. -/
theorem oneReply_iff {cfg : CommonSMTP} (hproxy : cfg.isProxy = false) (s : SmtpSessionContext)
    (l : Line) : OneReply cfg s l ↔ answersOnce s l = true := by
  obtain ⟨env, frame⟩ := l
  by_cases hcontent : s.mailContent = none
  swap
  · -- mail text: its last line is answered twice, any other not at all
    obtain ⟨mailTx, parameters, hs⟩ := eq_inData hcontent
    by_cases hdot : unstuff frame = [DOT]
    · have htwo := channelRead_end_replies hproxy env s mailTx parameters hdot
      rw [← hs] at htwo
      simp only [OneReply, isBodyLine, answersOnce, hdot, ne_eq, not_true, and_false, decide_false,
        Bool.false_eq_true, if_false]
      refine ⟨fun h => absurd h.1 (by omega), fun h => ?_⟩
      simp [Option.isSome_iff_ne_none, hcontent] at h
    · have htext := channelRead_text cfg env s mailTx parameters frame hdot
      rw [← hs] at htext
      simp [OneReply, isBodyLine, answersOnce, htext, hdot, Option.isSome_iff_ne_none, hcontent]
  have hbody : isBodyLine s ⟨env, frame⟩ = false := by simp [isBodyLine, hcontent]
  simp only [OneReply, hbody, answersOnce, hcontent, Option.isSome_none, Bool.false_eq_true, if_false]
  by_cases hlen : frame.length < 4
  · simp [channelRead, hcontent, channelReadRequest, hlen]
  rw [if_neg hlen]
  by_cases hcred : readsCredentials s = true
  · rw [if_pos hcred]
    cases hauth : s.authTransaction with
    | none => simp [readsCredentials, hauth] at hcred
    | some auth => exact channelRead_credentials_answered hproxy env hcontent hlen hauth hcred
  · rw [if_neg hcred]
    cases hacc : acceptedCommand s frame with
    | none =>
      have hcred : readsCredentials s = false := by simpa using hcred
      simpa using channelRead_refused_answered cfg env hcontent hlen hcred hacc
    | some req => exact channelRead_accepted_answered hproxy env hacc

/-- In a run from any session, every line is answered as it should be exactly if each of them is one
of `answersOnce`. -/
theorem oneReply_run_iff {cfg : CommonSMTP} (hproxy : cfg.isProxy = false) (s : SmtpSessionContext)
    (lines : List Line) :
    (handler cfg).Along (OneReply cfg) s lines
      ↔ (handler cfg).Along (fun s l => answersOnce s l = true) s lines :=
  Lib.Machine.along_congr (oneReply_iff hproxy) s lines

/-- A greeting, a login and a mail up to `DATA` are answered one by one. -/
theorem oneReply_run_login :
    (handler .stub).Along (OneReply .stub) (.channelActive .stub)
      [.ofString "EHLO x", .ofString "AUTH PLAIN AGF2ADEyMw==", .ofString "MAIL FROM:<av>",
        .ofString "RCPT TO:<iap>", .ofString "DATA", .ofString "Hello"] :=
  (oneReply_run_iff rfl (.channelActive .stub) _).mpr
    ⟨by decide, by decide, by decide, by decide, by decide, by decide, trivial⟩

/-- The end of a mail is answered twice. -/
theorem oneReply_end_of_data :
    ¬ ∀ cfg : CommonSMTP, cfg.isProxy = false → ∀ lines,
      (handler cfg).Along (OneReply cfg) (.channelActive cfg) lines := by
  intro h
  have hrun := h .stub rfl [.ofString "AUTH PLAIN AGF2ADEyMw==", .ofString "MAIL FROM:<av>",
    .ofString "RCPT TO:<iap>", .ofString "DATA", .ofString "."]
  obtain ⟨-, -, -, -, hend, -⟩ := hrun
  exact absurd hend.1 (by decide)

end OrgLittle.Smtp
