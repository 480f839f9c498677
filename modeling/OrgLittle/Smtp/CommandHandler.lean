import OrgLittle.Lib.Machine
import OrgLittle.Smtp.Command
import OrgLittle.Util.StringParser

/-!
# `SmtpSrvCommandHandler`

One call of `channelRead` takes one line of the client. Depending on the session it is mail text
(`channelReadContext`), credentials of a running `AUTH` exchange (`authPhase`), or a command
(`requestPhase`, then `dispatch`). An exception leaves the session as it was changed up to then.
-/

namespace OrgLittle.Smtp

open OrgLittle.Java OrgLittle.Util

/-- The outcome of one handler call. -/
structure Reaction where
  session : SmtpSessionContext
  events : List Event
  fault : Option JavaException

/-! ## Mail text -/

/-- The byte `'.'`. -/
def DOT : UInt8 := 46

/-- The leading dot is dropped if there are other characters on the line. -/
def unstuff (buffer : List UInt8) : List UInt8 :=
  if 1 ≤ buffer.length ∧ buffer.head? = some DOT then
    if 1 < buffer.length then buffer.tail else buffer
  else buffer

/-- `channelReadContext`. The end-of-data test reads the buffer that `unstuff` left. -/
def channelReadContext (cfg : CommonSMTP) (env : Env) (s : SmtpSessionContext)
    (buffer : List UInt8) : Reaction :=
  match s.mailTransaction with
  | none => ⟨s, [], some .nullPointer⟩
  | some mailTx =>
    match mailTx.mailContent with
    | none => ⟨s, [], some .nullPointer⟩
    | some content =>
      let buffer := unstuff buffer
      if buffer.length = 1 ∧ buffer.head? = some DOT then
        if cfg.isProxy = false then
          let p := content.request.processCommand cfg env s
          match p.result with
          | .error e => ⟨p.session, p.events, some e⟩
          -- `processCommand` has written its response already
          | .ok reply => ⟨p.session.resetMailTransaction, p.events ++ reply.toList.map .reply, none⟩
        else
          let sent :=
            if s.client then
              match content.request.filterCommand cfg env with
              | none => [Event.backend content.request]
              | some reply => [.reply reply]
            else []
          ⟨s.resetMailTransaction, sent, none⟩
      else
        let text := cfg.charset.decode (buffer ++ CRLF)
        let content : Content := ⟨content.parameters ++ [text]⟩
        ⟨{ s with mailTransaction := some { mailTx with mailContent := some content } }, [], none⟩

/-! ## Credentials -/

/-- The local variables of `channelReadRequest` after one of its phases. -/
structure Phase where
  session : SmtpSessionContext
  events : List Event
  request : Option SmtpRequest
  reply : Option SmtpResponse
  fault : Option JavaException

/-- A phase that leaves everything to the next one. -/
def Phase.pass (s : SmtpSessionContext) : Phase := ⟨s, [], none, none, none⟩

/-- A phase that ended with an exception. -/
def Phase.throw (s : SmtpSessionContext) (e : JavaException) : Phase := ⟨s, [], none, none, some e⟩

/-- A phase that ended with a response for the client. -/
def Phase.answer (s : SmtpSessionContext) (reply : SmtpResponse) : Phase :=
  ⟨s, [], none, some reply, none⟩

/-- `authTransaction.checkUser()` and the response to it. -/
def checkPhase (cfg : CommonSMTP) (env : Env) (s : SmtpSessionContext) (auth : SmtpAuthTransaction) :
    Phase :=
  let auth := auth.checkUser cfg env
  ⟨{ s with authTransaction := some auth }, [.checkUser auth.isAuth], none,
    some (authResponse auth), none⟩

/-- The line after `AUTH PLAIN`. -/
def plainPhase (cfg : CommonSMTP) (env : Env) (s : SmtpSessionContext) (auth : SmtpAuthTransaction)
    (list_cmd : List JString) : Phase :=
  match list_cmd with
  | [] => .throw s .indexOutOfBounds
  | arg :: _ =>
    match auth.setPlain cfg.charset arg with
    | .error e => .throw s e
    | .ok auth =>
      if cfg.isProxy then
        ⟨{ s with authTransaction := some { auth with isAuthUser := true } }, [],
          some (SmtpRequestBuilder.empty list_cmd), none, none⟩
      else checkPhase cfg env s auth

/-- The lines after `AUTH LOGIN`: first the name, then the password. -/
def loginPhase (cfg : CommonSMTP) (env : Env) (s : SmtpSessionContext) (auth : SmtpAuthTransaction)
    (list_cmd : List JString) : Phase :=
  match list_cmd with
  | [] => .throw s .indexOutOfBounds
  | arg :: _ =>
    if auth.isLogin = false then
      match auth.setLogin cfg.charset arg with
      | .error e => .throw s e
      | .ok auth =>
        let reply := if cfg.isProxy then none else some (SmtpResponse.line 334 "UGFzc3dvcmQA")
        ⟨{ s with authTransaction := some auth }, [], some (SmtpRequestBuilder.empty list_cmd),
          reply, none⟩
    else
      match auth.setPasswd cfg.charset arg with
      | .error e => .throw s e
      | .ok auth =>
        if cfg.isProxy then
          ⟨{ s with authTransaction := some { auth with isAuthUser := true } }, [],
            some (SmtpRequestBuilder.empty list_cmd), none, none⟩
        else checkPhase cfg env s auth

/-- The first part of `channelReadRequest`: what a line means while an authentication runs. A
transaction of type `PRESET` lets the line pass on to the commands. -/
def authPhase (cfg : CommonSMTP) (env : Env) (s : SmtpSessionContext) (list_cmd : List JString) :
    Phase :=
  match s.authTransaction with
  | none => .pass s
  | some auth =>
    if auth.isAuth then .pass s
    else if auth.isTypePlain then plainPhase cfg env s auth list_cmd
    else if auth.isTypeLogin then loginPhase cfg env s auth list_cmd
    else if auth.isTypePreset then .pass s
    else
      -- an unknown mechanism: every further line is refused
      match list_cmd with
      | [] => .throw s .indexOutOfBounds
      | _ :: _ => .answer s (SmtpResponse.line 500 "WAT?")

/-! ## Commands -/

/-- `ALWAYS_ALLOWED_COMMANDS`. -/
def ALWAYS_ALLOWED_COMMANDS : List JString := ["HELO", "EHLO", "RSET"].map String.toList

/-- `VALID_COMMANDS`. -/
def VALID_COMMANDS : List JString :=
  ["HELP", "HELO", "EHLO", "MAIL", "RSET", "VRFY", "EXPN", "NOOP", "QUIT", "AUTH"].map String.toList

/-- `VALID_PRE_COMMANDS`. -/
def VALID_PRE_COMMANDS : List JString :=
  ["HELP", "HELO", "EHLO", "RSET", "NOOP", "QUIT", "AUTH"].map String.toList

/-- `validateCommand`. -/
def validateCommand (req : SmtpRequest) : Bool := req.command.getName ∈ VALID_COMMANDS

/-- `validatePreCommand`. -/
def validatePreCommand (req : SmtpRequest) : Bool := req.command.getName ∈ VALID_PRE_COMMANDS

/-- `validateCommandOrder`. `lastCmd` holds the whole last line, not its verb. -/
def validateCommandOrder (s : SmtpSessionContext) (req : SmtpRequest) : Bool :=
  let cmd := req.command.getName
  if cmd ∈ ALWAYS_ALLOWED_COMMANDS then true
  else
    match s.lastCmd with
    | none => false
    | some lastCmd =>
      if s.mailTransaction.isSome then
        (cmd = "RCPT".toList ∧ lastCmd = "MAIL".toList)
          || (cmd = "RCPT".toList ∧ lastCmd = "RCPT".toList)
          || (cmd = "DATA".toList ∧ lastCmd = "RCPT".toList)
      else true

/-- `is_valid`. The source writes it to the log and, except for the pre-authentication test, does
nothing else with it. -/
def isValid (s : SmtpSessionContext) (req : SmtpRequest) : Bool :=
  match s.authTransaction with
  | none => validatePreCommand req
  | some _ => validateCommand req && validateCommandOrder s req

/-- The transaction objects that `channelReadRequest` creates before it dispatches. The new object is
stored in the session before its argument is read. -/
def createTransaction (cfg : CommonSMTP) (s : SmtpSessionContext) (req : SmtpRequest) :
    SmtpSessionContext × Option JavaException :=
  match req.command with
  | .AUTH =>
    -- replaces an authentication that succeeded before
    let authTx := SmtpAuthTransaction.new false
    match req.parameters with
    | [] => ({ s with authTransaction := some authTx }, some .indexOutOfBounds)
    | type :: _ => ({ s with authTransaction := some (authTx.setType type) }, none)
  | .MAIL =>
    let mailTx := SmtpMailTransaction.new
    match req.parameters with
    | [] => ({ s with mailTransaction := some mailTx }, some .indexOutOfBounds)
    | arg :: _ => ({ s with mailTransaction := some (mailTx.setFrom cfg arg) }, none)
  | .DATA =>
    ({ s with mailTransaction := s.mailTransaction.map fun mailTx =>
        { mailTx with mailContent := some Content.new } }, none)
  | _ => (s, none)

/-- The second part of `channelReadRequest`: the line is a command. -/
def requestPhase (cfg : CommonSMTP) (s : SmtpSessionContext) (list_cmd : List JString) : Phase :=
  match SmtpRequestBuilder.make list_cmd with
  | .error e => .throw s e
  | .ok none => .answer s (SmtpResponse.line 500 "WAT?")
  | .ok (some req) =>
    -- the test is made only as long as there is no authentication object
    if s.authTransaction.isNone && !isValid s req then
      .answer s (SmtpResponse.line 530 "5.7.0  Authentication required")
    else
      let (s, fault) := createTransaction cfg s req
      ⟨s, [], some req, none, fault⟩

/-- The third part of `channelReadRequest`: the request is processed here or sent to the backend. -/
def dispatch (cfg : CommonSMTP) (env : Env) (s : SmtpSessionContext) (req : SmtpRequest)
    (line : JString) : Reaction :=
  -- `STARTTLS` is about this connection, also in proxy mode
  if cfg.isProxy = false ∨ req.command = .STLS then
    let p := req.processCommand cfg env s
    match p.result with
    | .error e => ⟨p.session, p.events, some e⟩
    | .ok reply =>
      ⟨{ p.session with lastCmd := some line }, p.events ++ reply.toList.map .reply, none⟩
  else
    let sent :=
      if s.client then
        match req.filterCommand cfg env with
        | none => [Event.backend req]
        | some reply => [.reply reply]
      else []
    ⟨{ s with lastCmd := some line }, sent, none⟩

/-- The end of `channelReadRequest`, after the phase that read the line. -/
def Phase.finish (cfg : CommonSMTP) (env : Env) (line : JString) (p : Phase) : Reaction :=
  match p.fault with
  | some e => ⟨p.session, p.events, some e⟩
  | none =>
    match p.reply with
    | some reply => ⟨p.session, p.events ++ [.reply reply], none⟩
    | none =>
      match p.request with
      | none => ⟨p.session, p.events, some .nullPointer⟩
      | some req =>
        let r := dispatch cfg env p.session req line
        { r with events := p.events ++ r.events }

/-- The words of a command line: `stringParser` with the separators `" \r\n"`. -/
def listCmd (frame : List UInt8) : List JString :=
  StringParser.getList (asciiString frame) " \r\n".toList

/-- `channelReadRequest`. -/
def channelReadRequest (cfg : CommonSMTP) (env : Env) (s : SmtpSessionContext) (frame : List UInt8) :
    Reaction :=
  -- a short line gets no reply at all
  if frame.length < 4 then ⟨s, [], none⟩
  else
    let list_cmd := listCmd frame
    let a := authPhase cfg env s list_cmd
    let p :=
      if a.fault.isNone && a.request.isNone && a.reply.isNone then
        requestPhase cfg a.session list_cmd
      else a
    p.finish cfg env (asciiString frame)

/-- `channelRead`: which of the two the line goes to. -/
def channelRead (cfg : CommonSMTP) (env : Env) (s : SmtpSessionContext) (frame : List UInt8) :
    Reaction :=
  match s.mailContent with
  | none => channelReadRequest cfg env s frame
  | some _ => channelReadContext cfg env s frame

/-- One line of the client, with the surroundings at that moment. -/
structure Line where
  env : Env
  frame : List UInt8

/-- A line of the client in the stub surroundings. -/
def Line.ofString (text : String) : Line := ⟨Env.stub, ascii text⟩

/-- The SMTP session as a machine. -/
def handler (cfg : CommonSMTP) : Lib.Machine SmtpSessionContext Line Event where
  step s l := let r := channelRead cfg l.env s l.frame; (r.session, r.events)

/-! ## Reading mail text -/

/-- The text stored for one line of mail text. -/
def storedLine (cfg : CommonSMTP) (line : List UInt8) : JString := cfg.charset.decode (line ++ CRLF)

/-- A session that reads mail text, with the lines received so far. -/
def inData (s : SmtpSessionContext) (mailTx : SmtpMailTransaction) (parameters : List JString) :
    SmtpSessionContext :=
  { s with mailTransaction := some { mailTx with mailContent := some ⟨parameters⟩ } }

theorem eq_inData {s : SmtpSessionContext} (h : s.mailContent ≠ none) :
    ∃ mailTx parameters, s = inData s mailTx parameters := by
  rcases s with ⟨_ | ⟨rev, fwd, _ | content⟩, auth, last, tls, client⟩
  · exact absurd rfl h
  · exact absurd rfl h
  · exact ⟨⟨rev, fwd, none⟩, content.parameters, rfl⟩

theorem isDot_iff (buffer : List UInt8) :
    buffer.length = 1 ∧ buffer.head? = some DOT ↔ buffer = [DOT] := by
  match buffer with
  | [] => simp
  | [b] => simp
  | b :: c :: rest => simp

@[simp] theorem inData_mailContent (s : SmtpSessionContext) (mailTx : SmtpMailTransaction)
    (parameters : List JString) :
    (inData s mailTx parameters).mailContent = some ⟨parameters⟩ := rfl

theorem channelRead_inData (cfg : CommonSMTP) (env : Env) (s : SmtpSessionContext)
    (mailTx : SmtpMailTransaction) (parameters : List JString) (frame : List UInt8) :
    channelRead cfg env (inData s mailTx parameters) frame
      = channelReadContext cfg env (inData s mailTx parameters) frame := rfl

/-- A line that is not the end of the text is appended to the content, and nothing is answered. -/
theorem channelRead_text (cfg : CommonSMTP) (env : Env) (s : SmtpSessionContext)
    (mailTx : SmtpMailTransaction) (parameters : List JString) (frame : List UInt8)
    (h : unstuff frame ≠ [DOT]) :
    channelRead cfg env (inData s mailTx parameters) frame
      = ⟨inData s mailTx (parameters ++ [storedLine cfg (unstuff frame)]), [], none⟩ := by
  have hdot := mt (isDot_iff (unstuff frame)).mp h
  rw [channelRead_inData]
  simp only [channelReadContext, inData, if_neg hdot, storedLine]

/-- A content never raises an exception and leaves the session alone. -/
theorem content_processCommand (cfg : CommonSMTP) (env : Env) (parameters : List JString)
    (s : SmtpSessionContext) :
    ∃ events reply, Content.processCommand cfg env parameters s
      = ⟨s, events ++ [.reply reply], .ok (some reply)⟩ := by
  rw [Content.processCommand]
  split
  · exact ⟨[], _, rfl⟩
  · exact ⟨_, _, rfl⟩

/-- A line that is a single dot after unstuffing ends the transaction, in both modes. -/
theorem channelRead_end (cfg : CommonSMTP) (env : Env) (s : SmtpSessionContext)
    (mailTx : SmtpMailTransaction) (parameters : List JString) (frame : List UInt8)
    (h : unstuff frame = [DOT]) :
    (channelRead cfg env (inData s mailTx parameters) frame).session = s.resetMailTransaction := by
  have hdot := (isDot_iff (unstuff frame)).mpr h
  obtain ⟨events, reply, hp⟩ := content_processCommand cfg env parameters (inData s mailTx parameters)
  rw [channelRead_inData]
  rw [inData] at hp
  simp only [channelReadContext, inData, if_pos hdot, Content.request,
    SmtpRequest.processCommand, hp]
  split <;> rfl

/-- The line that ends the mail text writes the response of the content once more. -/
theorem channelRead_end_events {cfg : CommonSMTP} (hproxy : cfg.isProxy = false) (env : Env)
    {s : SmtpSessionContext} {content : Content} {frame : List UInt8}
    (hcontent : s.mailContent = some content) (hend : unstuff frame = [DOT]) {events : List Event}
    {reply : SmtpResponse}
    (h : (Content.processCommand cfg env content.parameters s).events = events ++ [.reply reply]) :
    (channelRead cfg env s frame).events = events ++ [.reply reply, .reply reply] := by
  obtain ⟨mailTx, parameters, hs⟩ := eq_inData (s := s) (by rw [hcontent]; exact Option.some_ne_none _)
  have hparameters : content.parameters = parameters := by
    rw [hs, inData_mailContent] at hcontent
    rw [← Option.some.inj hcontent]
  have hdot := (isDot_iff (unstuff frame)).mpr hend
  obtain ⟨events', reply', hp⟩ := content_processCommand cfg env parameters s
  rw [hparameters, hp] at h
  obtain ⟨rfl, hreply⟩ := List.append_inj' h rfl
  cases hreply
  rw [hs] at hp ⊢
  rw [channelRead_inData]
  rw [inData] at hp
  simp only [channelReadContext, inData, if_pos hdot, Content.request, SmtpRequest.processCommand, hp,
    if_pos hproxy]
  rw [List.append_assoc]
  rfl

/-! ## What a line is read as -/

/-- The line is taken as credentials: an authentication runs and is not finished. -/
def readsCredentials (s : SmtpSessionContext) : Bool :=
  match s.authTransaction with
  | none => false
  | some auth => !auth.isAuth && (auth.isTypePlain || auth.isTypeLogin || !auth.isTypePreset)

/-- The command that a line is taken as: the session reads commands, the line has a registered verb,
and before authentication the verb is one of the few allowed then. -/
def acceptedCommand (s : SmtpSessionContext) (frame : List UInt8) : Option SmtpRequest :=
  if s.mailContent.isSome ∨ frame.length < 4 ∨ readsCredentials s then none
  else
    match SmtpRequestBuilder.make (listCmd frame) with
    | .ok (some req) => if s.authTransaction.isNone && !isValid s req then none else some req
    | _ => none

/-- A session that reads no mail text. -/
theorem channelRead_request (cfg : CommonSMTP) (env : Env) {s : SmtpSessionContext}
    {frame : List UInt8} (hcontent : s.mailContent = none) :
    channelRead cfg env s frame = channelReadRequest cfg env s frame := by
  simp [channelRead, hcontent]

/-- Outside an unfinished authentication the first phase does nothing. -/
theorem authPhase_pass (cfg : CommonSMTP) (env : Env) {s : SmtpSessionContext}
    (list_cmd : List JString) (h : readsCredentials s = false) :
    authPhase cfg env s list_cmd = .pass s := by
  unfold readsCredentials at h
  unfold authPhase
  split at h
  · rfl
  · rename_i auth hsome
    by_cases ha : auth.isAuth
    · simp [ha]
    · simp only [ha, Bool.not_false, Bool.true_and, Bool.or_eq_false_iff, Bool.not_eq_false'] at h
      simp [h.1.1, h.1.2, h.2]

/-- `channelReadRequest` on a session that reads commands. -/
theorem channelReadRequest_command (cfg : CommonSMTP) (env : Env) {s : SmtpSessionContext}
    {frame : List UInt8} (hlen : 4 ≤ frame.length) (h : readsCredentials s = false) :
    channelReadRequest cfg env s frame
      = (requestPhase cfg s (listCmd frame)).finish cfg env (asciiString frame) := by
  rw [channelReadRequest, if_neg (by omega)]
  simp [authPhase_pass cfg env _ h, Phase.pass]

/-- What it takes for a line to be an accepted command. -/
theorem acceptedCommand_eq_some {s : SmtpSessionContext} {frame : List UInt8} {req : SmtpRequest} :
    acceptedCommand s frame = some req ↔
      s.mailContent = none ∧ 4 ≤ frame.length ∧ readsCredentials s = false
        ∧ SmtpRequestBuilder.make (listCmd frame) = .ok (some req)
        ∧ (s.authTransaction.isNone && !isValid s req) = false := by
  unfold acceptedCommand
  by_cases hcond : s.mailContent.isSome ∨ frame.length < 4 ∨ readsCredentials s = true
  · rw [if_pos hcond]
    refine ⟨nofun, ?_⟩
    rintro ⟨hcontent, hlen, hcred, -⟩
    rcases hcond with h | h | h
    · rw [hcontent] at h; cases h
    · omega
    · rw [hcred] at h; cases h
  · rw [if_neg hcond]
    push Not at hcond
    obtain ⟨hcontent, hlen, hcred⟩ := hcond
    have hcontent : s.mailContent = none := by simpa using hcontent
    have hlen : 4 ≤ frame.length := by omega
    have hcred : readsCredentials s = false := by simpa using hcred
    simp only [hcontent, hlen, hcred, true_and]
    rcases SmtpRequestBuilder.make (listCmd frame) with e | _ | req'
    · simp
    · simp
    · dsimp only
      by_cases hinvalid : (s.authTransaction.isNone && !isValid s req') = true
      · rw [if_pos hinvalid]
        refine ⟨nofun, ?_⟩
        rintro ⟨hreq, hvalid⟩
        obtain rfl := Option.some.inj (Except.ok.inj hreq)
        rw [hvalid] at hinvalid
        cases hinvalid
      · rw [if_neg hinvalid]
        constructor
        · rintro h
          obtain rfl := Option.some.inj h
          exact ⟨rfl, by simpa using hinvalid⟩
        · rintro ⟨hreq, -⟩
          rw [Option.some.inj (Except.ok.inj hreq)]

theorem acceptedCommand_mem {s : SmtpSessionContext} {frame : List UInt8} {req : SmtpRequest}
    (h : acceptedCommand s frame = some req) : req.command ∈ SmtpCommand.COMMANDS :=
  make_command_mem (acceptedCommand_eq_some.mp h).2.2.2.1

/-- An accepted command creates its transaction and is then dispatched, unless the creation fails. -/
theorem channelRead_accepted (cfg : CommonSMTP) (env : Env) {s : SmtpSessionContext}
    {frame : List UInt8} {req : SmtpRequest} (h : acceptedCommand s frame = some req) :
    channelRead cfg env s frame =
      match createTransaction cfg s req with
      | (s', some e) => ⟨s', [], some e⟩
      | (s', none) => dispatch cfg env s' req (asciiString frame) := by
  obtain ⟨hcontent, hlen, hcred, hmake, hvalid⟩ := acceptedCommand_eq_some.mp h
  rw [channelRead_request cfg env hcontent, channelReadRequest_command cfg env hlen hcred]
  simp only [requestPhase, hmake, hvalid]
  rcases createTransaction cfg s req with ⟨s', _ | e⟩ <;> simp [Phase.finish]

/-- What the answer to credentials does to the session: only the authentication changes, its type
stays, and it is finished only by a `checkUser` call. -/
def CredentialsRead (auth : SmtpAuthTransaction) (s : SmtpSessionContext) (r : Reaction) : Prop :=
  ∃ auth' checked reply, r = ⟨{ s with authTransaction := some auth' }, checked ++ [.reply reply], none⟩
    ∧ auth'.type = auth.type
    ∧ (checked = [] ∧ auth'.isAuth = false ∨ checked = [.checkUser auth'.isAuth])

theorem setPlain_type {charset : Charset} {auth auth' : SmtpAuthTransaction} {arg : JString}
    (h : auth.setPlain charset arg = .ok auth') :
    auth'.type = auth.type ∧ auth'.isAuthUser = auth.isAuthUser := by
  unfold SmtpAuthTransaction.setPlain at h
  cases hb : Base64.base64ToByteArray arg with
  | error e => rw [hb] at h; cases h
  | ok bytes =>
    rw [hb] at h
    obtain rfl := Except.ok.inj h
    simp only [SmtpAuthTransaction.setPlainBytes]
    split_ifs <;> exact ⟨rfl, rfl⟩

theorem setLogin_type {charset : Charset} {auth auth' : SmtpAuthTransaction} {arg : JString}
    (h : auth.setLogin charset arg = .ok auth') :
    auth'.type = auth.type ∧ auth'.isAuthUser = auth.isAuthUser := by
  unfold SmtpAuthTransaction.setLogin at h
  cases hb : Base64.base64ToStr charset arg with
  | error e => rw [hb] at h; cases h
  | ok name => rw [hb] at h; obtain rfl := Except.ok.inj h; exact ⟨rfl, rfl⟩

theorem setPasswd_type {charset : Charset} {auth auth' : SmtpAuthTransaction} {arg : JString}
    (h : auth.setPasswd charset arg = .ok auth') :
    auth'.type = auth.type ∧ auth'.isAuthUser = auth.isAuthUser := by
  unfold SmtpAuthTransaction.setPasswd at h
  cases hb : Base64.base64ToStr charset arg with
  | error e => rw [hb] at h; cases h
  | ok passwd => rw [hb] at h; obtain rfl := Except.ok.inj h; exact ⟨rfl, rfl⟩

theorem checkPhase_finish (cfg : CommonSMTP) (env : Env) (line : JString) (s : SmtpSessionContext)
    {auth auth' : SmtpAuthTransaction} (h : auth'.type = auth.type) :
    CredentialsRead auth s ((checkPhase cfg env s auth').finish cfg env line) :=
  ⟨auth'.checkUser cfg env, _, _, rfl, h, .inr rfl⟩

/-- A line read as credentials, outside proxy mode: it raises an exception and changes nothing, or it
is answered once. -/
theorem authPhase_credentials {cfg : CommonSMTP} (hproxy : cfg.isProxy = false) (env : Env)
    {s : SmtpSessionContext} {auth : SmtpAuthTransaction} (hauth : s.authTransaction = some auth)
    (h : readsCredentials s = true) (list_cmd : List JString) (line : JString) :
    (∃ e, authPhase cfg env s list_cmd = .throw s e) ∨
      ((authPhase cfg env s list_cmd).reply.isSome
        ∧ CredentialsRead auth s ((authPhase cfg env s list_cmd).finish cfg env line)) := by
  simp only [readsCredentials, hauth, Bool.and_eq_true, Bool.not_eq_true'] at h
  obtain ⟨hunauth, htype⟩ := h
  simp only [authPhase, hauth, hunauth, Bool.false_eq_true, if_false]
  split
  · -- the token after `AUTH PLAIN`
    cases list_cmd with
    | nil => exact .inl ⟨_, rfl⟩
    | cons arg args =>
      simp only [plainPhase]
      cases hp : auth.setPlain cfg.charset arg with
      | error e => exact .inl ⟨e, rfl⟩
      | ok auth' =>
        refine .inr ?_
        simp only [hproxy, Bool.false_eq_true, if_false]
        exact ⟨rfl, checkPhase_finish cfg env line s (setPlain_type hp).1⟩
  · split
    · -- the name or the password after `AUTH LOGIN`
      cases list_cmd with
      | nil => exact .inl ⟨_, rfl⟩
      | cons arg args =>
        simp only [loginPhase, hproxy, Bool.false_eq_true, if_false]
        split
        · cases hl : auth.setLogin cfg.charset arg with
          | error e => exact .inl ⟨e, rfl⟩
          | ok auth' =>
            obtain ⟨ht, ha⟩ := setLogin_type hl
            refine .inr ⟨rfl, auth', [], _, rfl, ht, .inl ⟨rfl, ?_⟩⟩
            rw [SmtpAuthTransaction.isAuth, ha]
            exact hunauth
        · cases hl : auth.setPasswd cfg.charset arg with
          | error e => exact .inl ⟨e, rfl⟩
          | ok auth' => exact .inr ⟨rfl, checkPhase_finish cfg env line s (setPasswd_type hl).1⟩
    · split
      · -- a line after `AUTH PRESET` is no credentials
        rename_i hplain hlogin hpreset
        simp [hplain, hlogin, hpreset] at htype
      · cases list_cmd with
        | nil => exact .inl ⟨_, rfl⟩
        | cons arg args => exact .inr ⟨rfl, auth, [], _, by rw [← hauth]; rfl, rfl, .inl ⟨rfl, hunauth⟩⟩

/-- What a line does, outside proxy mode, that is neither mail text nor an accepted command. -/
theorem channelRead_not_accepted {cfg : CommonSMTP} (hproxy : cfg.isProxy = false) (env : Env)
    {s : SmtpSessionContext} {frame : List UInt8} (hcontent : s.mailContent = none)
    (h : acceptedCommand s frame = none) :
    (∃ fault, channelRead cfg env s frame = ⟨s, [], fault⟩) ∨
      (∃ reply, channelRead cfg env s frame = ⟨s, [.reply reply], none⟩) ∨
      ∃ auth, s.authTransaction = some auth ∧ auth.isAuth = false
        ∧ CredentialsRead auth s (channelRead cfg env s frame) := by
  rw [channelRead_request cfg env hcontent]
  by_cases hlen : frame.length < 4
  · exact .inl ⟨none, by rw [channelReadRequest, if_pos hlen]⟩
  by_cases hcred : readsCredentials s = true
  · obtain ⟨auth, hauth, hunauth⟩ : ∃ auth, s.authTransaction = some auth ∧ auth.isAuth = false := by
      cases ha : s.authTransaction with
      | none => simp [readsCredentials, ha] at hcred
      | some auth =>
        simp only [readsCredentials, ha, Bool.and_eq_true, Bool.not_eq_true'] at hcred
        exact ⟨auth, rfl, hcred.1⟩
    rw [channelReadRequest, if_neg hlen]
    rcases authPhase_credentials hproxy env hauth hcred (listCmd frame) (asciiString frame) with
      ⟨e, he⟩ | ⟨hreply, hcr⟩
    · exact .inl ⟨some e, by simp [he, Phase.throw, Phase.finish]⟩
    · refine .inr (.inr ⟨auth, hauth, hunauth, ?_⟩)
      have hnot : (authPhase cfg env s (listCmd frame)).reply.isNone = false := by
        simpa [Option.isSome_iff_ne_none] using hreply
      simpa [hnot] using hcr
  · -- the line is read as a command, and is no verb or not one for this session
    have hcred : readsCredentials s = false := by simpa using hcred
    rw [channelReadRequest_command cfg env (by omega) hcred]
    simp only [acceptedCommand, hcontent, hlen, hcred, Option.isSome_none, Bool.false_eq_true,
      or_self, if_false] at h
    simp only [requestPhase]
    cases hmake : SmtpRequestBuilder.make (listCmd frame) with
    | error e => exact .inl ⟨some e, rfl⟩
    | ok o =>
      cases o with
      | none => exact .inr (.inl ⟨_, rfl⟩)
      | some req =>
        rw [hmake] at h
        simp only at h
        split at h
        · rename_i hinvalid
          refine .inr (.inl ⟨SmtpResponse.line 530 "5.7.0  Authentication required", ?_⟩)
          simp only [hinvalid, if_true]
          rfl
        · cases h

end OrgLittle.Smtp
