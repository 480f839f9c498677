import OrgLittle.Lmsg.Store
import OrgLittle.Util.Base64

/-!
# `org.little.mail.smtp.element`: commands, requests, transactions and the session

The objects that one SMTP connection keeps. A field that is `null` in the source is `none` here. The
session's `client` is only ever tested against `null`, so it is a flag.
-/

namespace OrgLittle.Smtp

open OrgLittle.Java OrgLittle.Lmsg OrgLittle.Util

/-! ## Configuration and surroundings -/

/-- What `commonSMTP` was configured with, and the charset of the platform the server runs on. -/
structure CommonSMTP where
  isProxy : Bool
  authRequared : Bool
  charset : Charset

/-- `commonSMTP.verifyUser`. -/
def CommonSMTP.verifyUser (_cfg : CommonSMTP) (_username : JString) : Bool := true

/-- What the code outside the SMTP server answers while one line is handled: the user directory
(`authUser.checkUser`), whether a TLS handler can be added to the pipeline, the MIME and X509 parsers,
and the mail folders that exist. It may change from line to line. -/
structure Env where
  checkUser : JString → JString → Bool
  sslHandler : Bool
  parseEml : List UInt8 → Option (List (Option LMessage))
  parseX509 : LMessage → Option LMessage
  hasFolder : JString → JString → Bool

/-- `authUserStub.checkUser`: the two built-in users. -/
def AuthUserStub.checkUser (user passwd : JString) : Bool :=
  (user = "av".toList ∨ user = "iap".toList) ∧ passwd = "123".toList

/-- A server with the built-in users, on which authentication is required. -/
def CommonSMTP.stub : CommonSMTP := ⟨false, true, Charset.latin1⟩

/-- Surroundings with the built-in users, without TLS and without mail folders. -/
def Env.stub : Env where
  checkUser := AuthUserStub.checkUser
  sslHandler := false
  parseEml := fun _ => some []
  parseX509 := some
  hasFolder := fun _ _ => false

/-! ## Commands, requests and responses -/

/-- `SmtpCommand`: the constants of the class, and the objects that `valueOf` makes for any other
name. The source compares commands by reference, so an `other` command is none of the constants. -/
inductive SmtpCommand
  | EHLO | HELO | AUTH | MAIL | RCPT | DATA | NOOP | RSET | EXPN | VRFY | HELP | QUIT | STLS
  | EMPTY | CONTENT | LASTCONTENT
  | other (name : JString)
deriving DecidableEq

/-- `SmtpCommand.getName`. -/
def SmtpCommand.getName : SmtpCommand → JString
  | EHLO => "EHLO".toList
  | HELO => "HELO".toList
  | AUTH => "AUTH".toList
  | MAIL => "MAIL".toList
  | RCPT => "RCPT".toList
  | DATA => "DATA".toList
  | NOOP => "NOOP".toList
  | RSET => "RSET".toList
  | EXPN => "EXPN".toList
  | VRFY => "VRFY".toList
  | HELP => "HELP".toList
  | QUIT => "QUIT".toList
  | STLS => "STARTTLS".toList
  | EMPTY => []
  | CONTENT => "CONTENT".toList
  | LASTCONTENT => "LASTCONTENT".toList
  | other name => name

/-- The commands registered in `SmtpCommand.COMMANDS`. -/
def SmtpCommand.COMMANDS : List SmtpCommand :=
  [EHLO, HELO, AUTH, MAIL, RCPT, DATA, NOOP, RSET, EXPN, VRFY, HELP, QUIT, STLS]

/-- The commands that stand for the mail text, an empty line or an unknown verb are not registered. -/
theorem SmtpCommand.registered_ne {c : SmtpCommand} (h : c ∈ COMMANDS) :
    c ≠ EMPTY ∧ c ≠ CONTENT ∧ c ≠ LASTCONTENT ∧ ∀ name, c ≠ other name := by
  refine ⟨?_, ?_, ?_, ?_⟩
  · rintro rfl
    exact absurd h (by decide)
  · rintro rfl
    exact absurd h (by decide)
  · rintro rfl
    exact absurd h (by decide)
  · rintro name rfl
    simp [COMMANDS] at h

/-- `SmtpCommand.valueOf`. -/
def SmtpCommand.valueOf (commandName : JString) : SmtpCommand :=
  (COMMANDS.find? fun c => c.getName = commandName).getD (other commandName)

/-- `SmtpRequest`. Its class in the source is fixed by the command. -/
structure SmtpRequest where
  command : SmtpCommand
  parameters : List JString
deriving DecidableEq

/-- `SmtpResponse`. -/
structure SmtpResponse where
  replyCode : ℕ
  text : List JString
deriving DecidableEq

/-- A response with one line of text. -/
def SmtpResponse.line (replyCode : ℕ) (text : String) : SmtpResponse := ⟨replyCode, [text.toList]⟩

/-- `SmtpRequestBuilder.empty`. -/
def SmtpRequestBuilder.empty (parameter : List JString) : SmtpRequest := ⟨.EMPTY, parameter⟩

/-- `SmtpRequestBuilder.make`. The empty list raises an exception, an unregistered name gives `null`;
`valueOf` never returns `EMPTY`, whose branch is therefore dead. -/
def SmtpRequestBuilder.make : List JString → Except JavaException (Option SmtpRequest)
  | [] => .error .indexOutOfBounds
  | command_name :: list_arg =>
    match SmtpCommand.valueOf (toUpperCase command_name) with
    | .other _ => .ok none
    | .CONTENT => .ok none
    | .LASTCONTENT => .ok none
    | cmd => .ok (some ⟨cmd, list_arg⟩)

/-- The command of a request that `make` builds is found in the table. -/
theorem find?_of_make {name : JString} {args : List JString} {req : SmtpRequest}
    (h : SmtpRequestBuilder.make (name :: args) = .ok (some req)) :
    (SmtpCommand.COMMANDS.find? fun c => c.getName = toUpperCase name) = some req.command := by
  rw [SmtpRequestBuilder.make] at h
  unfold SmtpCommand.valueOf at h
  cases hfind : SmtpCommand.COMMANDS.find? fun c => c.getName = toUpperCase name with
  | none => simp [hfind] at h
  | some cmd =>
    rw [hfind, Option.getD_some] at h
    split at h
    · cases h
    · cases h
    · cases h
    · obtain rfl := Option.some.inj (Except.ok.inj h)
      rfl

/-- A request that `make` builds has one of the registered commands. -/
theorem make_command_mem {list_cmd : List JString} {req : SmtpRequest}
    (h : SmtpRequestBuilder.make list_cmd = .ok (some req)) : req.command ∈ SmtpCommand.COMMANDS := by
  cases list_cmd with
  | nil => cases h
  | cons name args => exact List.mem_of_find?_eq_some (find?_of_make h)

/-- The command that `make` finds has the name that stands in the line, in upper case. -/
theorem make_getName {name : JString} {args : List JString} {req : SmtpRequest}
    (h : SmtpRequestBuilder.make (name :: args) = .ok (some req)) :
    req.command.getName = toUpperCase name := by
  have hname := List.find?_some (find?_of_make h)
  exact of_decide_eq_true hname

/-! ## Paths -/

/-- `Domain.isLetDig`. -/
def Domain.isLetDig (cc : Char) : Bool :=
  ('0' ≤ cc && cc ≤ '9') || ('a' ≤ cc && cc ≤ 'z') || ('A' ≤ cc && cc ≤ 'Z')

/-- The loop of `Domain.parse`; `letDig` is mode 1, and `lc` the last character. -/
def Domain.scan : Bool → Char → JString → Bool
  | _, _, [] => true
  | true, _, cc :: cs => if isLetDig cc then scan false cc cs else false
  | false, lc, cc :: cs =>
    if cc = '.' then if lc = '-' then false else scan true cc cs
    else if isLetDig cc || cc = '-' then scan false cc cs
    else false

/-- `Domain.parse`. -/
def Domain.parse (domain : JString) : Option JString :=
  if domain = [] ∨ 255 < domain.length then none
  else if domain.getLast? = some '-' then none
  else if Domain.scan true (Char.ofNat 0) domain then some domain
  else none

/-- `Path`: the source keeps the routes and drops the mailbox. -/
structure Path where
  routes : List JString
deriving DecidableEq

/-- The loop of `Path.parse`; `inAdl` is mode 2, the at-domain-list before the mailbox. -/
def Path.scan : Bool → Char → JString → List JString → JString → Option (List JString)
  | _, _, _, routes, [] => some routes
  | false, _, domain, routes, cc :: cs => scan false cc domain routes cs
  | true, lc, domain, routes, cc :: cs =>
    if cc = ':' then
      match Domain.parse domain with
      | none => none
      | some d => scan false cc domain (routes ++ [d]) cs
    else if cc = ',' then
      match Domain.parse domain with
      | none => none
      | some d => scan true cc [] (routes ++ [d]) cs
    else if cc = '@' then
      if lc ≠ ',' then none else scan true cc domain routes cs
    else scan true cc (domain ++ [cc]) routes cs

/-- `Path.parse`. -/
def Path.parse (cfg : CommonSMTP) (argument : JString) : Option Path :=
  if argument = [] ∨ 256 < argument.length then none
  else if argument.head? ≠ some '<' ∧ argument.getLast? ≠ some '>' then none
  else if argument.length ≤ 1 then none
  else
    let inAdl := argument[1]? = some '@'
    let start := if inAdl then 2 else 1
    match Path.scan inAdl (Char.ofNat 0) [] [] (argument.dropLast.drop start) with
    | none => none
    | some routes =>
      if cfg.isProxy = false ∧ cfg.verifyUser argument = false then none else some ⟨routes⟩

/-! ## Transactions and the session -/

/-- The `Content` that `DATA` creates: the lines of text received so far. -/
structure Content where
  parameters : List JString
deriving DecidableEq

/-- `new Content()`. -/
def Content.new : Content := ⟨[]⟩

/-- A content is a request whose command is `LASTCONTENT`. -/
def Content.request (content : Content) : SmtpRequest := ⟨.LASTCONTENT, content.parameters⟩

/-- `SmtpMailTransaction`. -/
structure SmtpMailTransaction where
  reversePath : Option Path
  forwardPath : List (Option Path)
  mailContent : Option Content
deriving DecidableEq

/-- `new SmtpMailTransaction()`. -/
def SmtpMailTransaction.new : SmtpMailTransaction := ⟨none, [], none⟩

/-- `SmtpMailTransaction.setFrom`, which keeps a reverse path that is already set. -/
def SmtpMailTransaction.setFrom (cfg : CommonSMTP) (tx : SmtpMailTransaction) (argument : JString) :
    SmtpMailTransaction :=
  if tx.reversePath.isSome then tx else { tx with reversePath := Path.parse cfg argument }

/-- `SmtpMailTransaction.addTo`. -/
def SmtpMailTransaction.addTo (cfg : CommonSMTP) (tx : SmtpMailTransaction) (argument : JString) :
    SmtpMailTransaction :=
  { tx with forwardPath := tx.forwardPath ++ [Path.parse cfg argument] }

/-- `SmtpAuthTransaction`; the user directory it refers to is in `Env`. -/
structure SmtpAuthTransaction where
  type : JString
  username : Option JString
  password : Option JString
  isAuthUser : Bool
deriving DecidableEq

namespace SmtpAuthTransaction

/-- The constructors: `clear(preset)`. -/
def new (preset : Bool) : SmtpAuthTransaction :=
  if preset then ⟨"PRESET".toList, some "nouser".toList, some [], true⟩
  else ⟨[], none, none, false⟩

/-- `isAuth`. -/
def isAuth (auth : SmtpAuthTransaction) : Bool := auth.isAuthUser

/-- `isLogin`. -/
def isLogin (auth : SmtpAuthTransaction) : Bool := auth.username.isSome

/-- `isTypePlain`. -/
def isTypePlain (auth : SmtpAuthTransaction) : Bool := startsWith auth.type "PLAIN".toList

/-- `isTypeLogin`. -/
def isTypeLogin (auth : SmtpAuthTransaction) : Bool := startsWith auth.type "LOGIN".toList

/-- `isTypePreset`. -/
def isTypePreset (auth : SmtpAuthTransaction) : Bool := startsWith auth.type "PRESET".toList

/-- `setType`. -/
def setType (auth : SmtpAuthTransaction) (type : JString) : SmtpAuthTransaction :=
  { auth with type := type }

/-- The first index from `start` on that holds a NUL byte, or zero: each of the two loops of
`setPlain` leaves its variable at zero when it finds nothing. -/
def indexOfNul (bytes : List UInt8) (start : ℕ) : ℕ :=
  match (bytes.drop start).findIdx? (· = 0) with
  | some i => start + i
  | none => 0

/-- `setPlain` on the decoded token. -/
def setPlainBytes (charset : Charset) (auth : SmtpAuthTransaction) (b_plain : List UInt8) :
    SmtpAuthTransaction :=
  let n_1 := indexOfNul b_plain 0
  let n_2 := indexOfNul b_plain (n_1 + 1)
  if n_2 = 0 then auth
  else if n_2 = b_plain.length - 1 then auth
  else
    { auth with
      username := some (charset.decode ((b_plain.drop (n_1 + 1)).take (n_2 - n_1 - 1)))
      password := some (charset.decode (b_plain.drop (n_2 + 1))) }

/-- `setPlain`. -/
def setPlain (charset : Charset) (auth : SmtpAuthTransaction) (arg_plain : JString) :
    Except JavaException SmtpAuthTransaction := do
  let b_plain ← Base64.base64ToByteArray arg_plain
  .ok (setPlainBytes charset auth b_plain)

/-- `setLogin`. -/
def setLogin (charset : Charset) (auth : SmtpAuthTransaction) (arg_plain : JString) :
    Except JavaException SmtpAuthTransaction := do
  let name ← Base64.base64ToStr charset arg_plain
  .ok { auth with username := some name }

/-- `setPasswd`. -/
def setPasswd (charset : Charset) (auth : SmtpAuthTransaction) (arg_plain : JString) :
    Except JavaException SmtpAuthTransaction := do
  let passwd ← Base64.base64ToStr charset arg_plain
  .ok { auth with password := some passwd }

/-- `checkUser`: the answer is also the new `is_auth_user`. -/
def checkUser (cfg : CommonSMTP) (env : Env) (auth : SmtpAuthTransaction) : SmtpAuthTransaction :=
  { auth with
    isAuthUser :=
      match auth.username, auth.password with
      | some username, some password => if cfg.isProxy then true else env.checkUser username password
      | _, _ => false }

end SmtpAuthTransaction

/-- `SmtpSessionContext`. -/
structure SmtpSessionContext where
  mailTransaction : Option SmtpMailTransaction
  authTransaction : Option SmtpAuthTransaction
  lastCmd : Option JString
  tlsActive : Bool
  client : Bool
deriving DecidableEq

namespace SmtpSessionContext

/-- The session that `SmtpSrvInitSession.channelActive` sets up. -/
def channelActive (cfg : CommonSMTP) : SmtpSessionContext where
  mailTransaction := none
  authTransaction := if cfg.authRequared then none else some (SmtpAuthTransaction.new true)
  lastCmd := none
  tlsActive := false
  client := cfg.isProxy

/-- `resetMailTransaction`. -/
def resetMailTransaction (s : SmtpSessionContext) : SmtpSessionContext :=
  { s with mailTransaction := none }

/-- `mailTransaction.mail_content`, read through both null checks of `channelRead`. -/
def mailContent (s : SmtpSessionContext) : Option Content :=
  s.mailTransaction.bind SmtpMailTransaction.mailContent

/-- The session has been authenticated. -/
def isAuth (s : SmtpSessionContext) : Bool :=
  match s.authTransaction with
  | some auth => auth.isAuth
  | none => false

end SmtpSessionContext

end OrgLittle.Smtp
