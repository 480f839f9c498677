import OrgLittle.Smtp.Element

/-!
# `org.little.mail.smtp.element.command`: what each command does

`processCommand` of every request class. A command may write to the client's channel itself, change
the session, raise an exception, and return a response that the handler then writes: `QUIT` only
writes, `Content` does both, every other command only returns.
-/

namespace OrgLittle.Smtp

open OrgLittle.Java OrgLittle.Lmsg

/-- What a call does that can be seen from outside the session. -/
inductive Event
  /-- a response written to the client -/
  | reply (response : SmtpResponse)
  /-- a request written to the backend server -/
  | backend (request : SmtpRequest)
  /-- the client's channel is closed -/
  | close
  /-- `SmtpAuthTransaction.checkUser` returned -/
  | checkUser (ret : Bool)
  /-- a message saved into a folder of a store -/
  | save (store folder : JString) (msg : LMessage)
deriving DecidableEq

/-- The outcome of `processCommand`: the session and the events up to its end or to the exception. -/
structure Processed where
  session : SmtpSessionContext
  events : List Event
  result : Except JavaException (Option SmtpResponse)

/-- A command that only answers. -/
def Processed.answer (s : SmtpSessionContext) (replyCode : ℕ) (text : String) : Processed :=
  ⟨s, [], .ok (some (SmtpResponse.line replyCode text))⟩

/-- `Auth.getCommandAuth`. -/
def Auth.getCommandAuth : JString := "AUTH PLAIN LOGIN".toList

/-- `Hello.processCommand` and `ExtendedHello.processCommand`, which have the same body. The greeting
names the last parameter after the first one. -/
def Hello.processCommand (parameters : List JString) (s : SmtpSessionContext) : Processed :=
  let domainOrAddressLiteral := ((parameters.drop 1).getLast?).getD []
  ⟨s.resetMailTransaction, [],
    .ok (some ⟨250, [domainOrAddressLiteral ++ " little SMTP server".toList,
      "SIZE 102400".toList, Auth.getCommandAuth]⟩)⟩

/-- The response to a `checkUser` call. -/
def authResponse (auth : SmtpAuthTransaction) : SmtpResponse :=
  if auth.isAuth then SmtpResponse.line 235 "2.7.0 Authentication successful"
  else SmtpResponse.line 530 "5.7.0  Authentication required"

/-- `Auth.processCommand`: a new, unauthenticated transaction of the named type; an inline `PLAIN`
token is checked at once. -/
def Auth.processCommand (cfg : CommonSMTP) (env : Env) (parameters : List JString)
    (s : SmtpSessionContext) : Processed :=
  match parameters with
  | [] => ⟨{ s with authTransaction := some (SmtpAuthTransaction.new false) }, [],
      .error .indexOutOfBounds⟩
  | type :: args =>
    let auth := (SmtpAuthTransaction.new false).setType type
    let s := { s with authTransaction := some auth }
    if auth.isTypePlain then
      match args with
      | token :: _ =>
        match auth.setPlain cfg.charset token with
        | .error e => ⟨s, [], .error e⟩
        | .ok auth =>
          let auth := auth.checkUser cfg env
          ⟨{ s with authTransaction := some auth }, [.checkUser auth.isAuth],
            .ok (some (authResponse auth))⟩
      | [] => Processed.answer s 334 ""
    else if auth.isTypeLogin then Processed.answer s 334 "VXNlciBOYW1lAA=="
    else Processed.answer s 500 "AUTH?"

/-- `Recipent.processCommand`. -/
def Recipent.processCommand (cfg : CommonSMTP) (parameters : List JString)
    (s : SmtpSessionContext) : Processed :=
  let to_ := parameters.flatMap fun p => p ++ [' ']
  Processed.answer
    { s with mailTransaction := s.mailTransaction.map fun mailTx => mailTx.addTo cfg to_ } 250 "OK"

/-- `MailData.processCommand`. -/
def MailData.processCommand (s : SmtpSessionContext) : Processed :=
  match s.mailTransaction with
  | some _ => Processed.answer s 354 "Start mail input; end with <CRLF>.<CRLF>"
  | none => Processed.answer s 550 "no mail session"

/-- `Quit.processCommand` writes its response itself. -/
def Quit.processCommand (s : SmtpSessionContext) : Processed :=
  ⟨s, [.reply (SmtpResponse.line 221 "BYE"), .close], .ok none⟩

/-- `VerifyMailbox.processCommand`: both branches of its test give the same response. -/
def VerifyMailbox.processCommand (parameters : List JString) (s : SmtpSessionContext) : Processed :=
  match parameters with
  | [] => ⟨s, [], .error .indexOutOfBounds⟩
  | _ :: _ => Processed.answer s 250 "OK"

/-- `StartTLS.processCommand`. -/
def StartTLS.processCommand (env : Env) (parameters : List JString) (s : SmtpSessionContext) :
    Processed :=
  if 1 < parameters.length then Processed.answer s 501 "Syntax error (no parameters allowed)"
  else if env.sslHandler then
    Processed.answer { s.resetMailTransaction with tlsActive := true } 220 "Ready to start TLS"
  else Processed.answer s 454 "TLS not available due to temporary reason"

/-! ## The mail content -/

/-- The bytes of a stored content: all its lines, encoded again. -/
def Content.bytes (cfg : CommonSMTP) (parameters : List JString) : List UInt8 :=
  cfg.charset.encode parameters.flatten

/-- The folders one message is saved into: the inbox of every recipient and the outbox of the
sender, as far as they exist. -/
def Content.deliver (env : Env) (msg : LMessage) : List Event :=
  let inbox := msg.to_.filter fun store => env.hasFolder store "INBOX".toList
  let outbox := if env.hasFolder msg.from_ "OUTBOX".toList then [msg.from_] else []
  inbox.map (fun store => .save store "INBOX".toList msg)
    ++ outbox.map fun store => .save store "OUTBOX".toList msg

/-- `Content.processCommand`. The response is written here and returned as well. -/
def Content.processCommand (cfg : CommonSMTP) (env : Env) (parameters : List JString)
    (s : SmtpSessionContext) : Processed :=
  match env.parseEml (Content.bytes cfg parameters) with
  | none =>
    let reply := SmtpResponse.line 450 "FAILED"
    ⟨s, [.reply reply], .ok (some reply)⟩
  | some buf_message =>
    let reply := SmtpResponse.line 250 "OK"
    let msgs := buf_message.filterMap fun msg => msg.bind env.parseX509
    ⟨s, msgs.flatMap (Content.deliver env) ++ [.reply reply], .ok (some reply)⟩

/-- `Content.filterCommand`: a content that is no message is refused. -/
def Content.filterCommand (cfg : CommonSMTP) (env : Env) (parameters : List JString) :
    Option SmtpResponse :=
  match env.parseEml (Content.bytes cfg parameters) with
  | none => some (SmtpResponse.line 541 "The message could not be delivered for policy reasons")
  | some _ => none

/-! ## Dispatch on the request's class -/

/-- `SmtpRequest.processCommand` and its overrides. -/
def SmtpRequest.processCommand (cfg : CommonSMTP) (env : Env) (req : SmtpRequest)
    (s : SmtpSessionContext) : Processed :=
  match req.command with
  | .EHLO => Hello.processCommand req.parameters s
  | .HELO => Hello.processCommand req.parameters s
  | .AUTH => Auth.processCommand cfg env req.parameters s
  | .MAIL => Processed.answer s 250 "OK"
  | .RCPT => Recipent.processCommand cfg req.parameters s
  | .DATA => MailData.processCommand s
  | .NOOP => Processed.answer s 250 "OK"
  | .RSET => Processed.answer s.resetMailTransaction 250 "OK"
  | .EXPN => Processed.answer s 502 "TODO"
  | .VRFY => VerifyMailbox.processCommand req.parameters s
  | .HELP => Processed.answer s 250 "OK"
  | .QUIT => Quit.processCommand s
  | .STLS => StartTLS.processCommand env req.parameters s
  | .CONTENT => Content.processCommand cfg env req.parameters s
  | .LASTCONTENT => Content.processCommand cfg env req.parameters s
  | .EMPTY => ⟨s, [], .ok none⟩
  | .other _ => ⟨s, [], .ok none⟩

/-- `SmtpRequest.filterCommand` and its override. -/
def SmtpRequest.filterCommand (cfg : CommonSMTP) (env : Env) (req : SmtpRequest) :
    Option SmtpResponse :=
  match req.command with
  | .CONTENT => Content.filterCommand cfg env req.parameters
  | .LASTCONTENT => Content.filterCommand cfg env req.parameters
  | _ => none

end OrgLittle.Smtp
