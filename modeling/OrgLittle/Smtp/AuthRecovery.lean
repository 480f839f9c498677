import OrgLittle.Smtp.AuthGate
import OrgLittle.Smtp.Replies

/-!
# What a client can do after a failed authentication

An `AUTH` exchange is the command and the lines of credentials that follow it. When it fails, the client
should be able to go on: with another command, or with another `AUTH`. But the handler keeps the
transaction object of the failed exchange, and that object is also its mark for a running exchange, so
every further line is read as credentials. `recoverable_iff` shows that this happens after every failed
exchange but one kind: `AUTH` with a mechanism whose name starts with `PRESET`.
-/

namespace OrgLittle.Smtp

open OrgLittle.Java OrgLittle.Util

/-! ## Failed exchanges -/

/-- What one line did to an `AUTH` exchange. -/
inductive AuthOutcome
  /-- the client is asked for more, or the line was ignored -/
  | pending
  /-- a response of class five, or an exception -/
  | failed
  /-- `checkUser` returned true -/
  | succeeded
deriving DecidableEq

/-- The outcome read off the reaction to the line. -/
def authOutcome (r : Reaction) : AuthOutcome :=
  if Event.checkUser true ∈ r.events then .succeeded
  else if r.fault.isSome ∨ (repliesOf r.events).any (500 ≤ ·.replyCode) then .failed
  else .pending

/-- The exchange goes on until its last line, and fails there. -/
def failsAtEnd (cfg : CommonSMTP) : SmtpSessionContext → List Line → Bool
  | _, [] => false
  | s, l :: ls =>
    let r := channelRead cfg l.env s l.frame
    match ls with
    | [] => authOutcome r = .failed
    | _ :: _ => authOutcome r = .pending && failsAtEnd cfg r.session ls

/-- A failed exchange: the line `l` is accepted as an `AUTH` command with the arguments `args`, and with
the lines `ls` after it the exchange fails. -/
structure FailedAuth (cfg : CommonSMTP) (s : SmtpSessionContext) (args : List JString) (l : Line)
    (ls : List Line) : Prop where
  command : acceptedCommand s l.frame = some ⟨.AUTH, args⟩
  fails : failsAtEnd cfg s (l :: ls) = true

/-- The mechanism that an `AUTH` command names; without an argument the transaction has no type. -/
def mechanism (args : List JString) : JString := args.head?.getD []

/-- The session holds an unfinished authentication with this mechanism and reads no mail text. -/
structure Unfinished (s : SmtpSessionContext) (type : JString) : Prop where
  auth : ∃ auth, s.authTransaction = some auth ∧ auth.isAuth = false ∧ auth.type = type
  noContent : s.mailContent = none

/-- An unfinished authentication takes lines as credentials unless its type starts with `PRESET`. -/
theorem Unfinished.readsCredentials {s : SmtpSessionContext} {type : JString} (h : Unfinished s type)
    (hpreset : startsWith type "PRESET".toList = false) : readsCredentials s = true := by
  obtain ⟨auth, hauth, hunauth, rfl⟩ := h.auth
  have hpreset : auth.isTypePreset = false := hpreset
  simp [Smtp.readsCredentials, hauth, hunauth, hpreset]

/-- A name that starts with `PRESET` starts with neither of the known mechanisms. -/
theorem not_known_of_preset {type : JString} (h : startsWith type "PRESET".toList = true) :
    startsWith type "PLAIN".toList = false ∧ startsWith type "LOGIN".toList = false := by
  unfold startsWith at h ⊢
  rcases type with _ | ⟨a, _ | ⟨b, type⟩⟩
  · cases h
  · simp at h
  · simp only [String.reduceToList, List.isPrefixOf_cons_cons, Bool.and_eq_true, beq_iff_eq] at h ⊢
    obtain ⟨rfl, rfl, -⟩ := h
    exact ⟨rfl, rfl⟩

theorem not_plain_of_login {type : JString} (h : startsWith type "LOGIN".toList = true) :
    startsWith type "PLAIN".toList = false := by
  unfold startsWith at h ⊢
  rcases type with _ | ⟨a, type⟩
  · cases h
  · simp only [String.reduceToList, List.isPrefixOf_cons_cons, Bool.and_eq_true, beq_iff_eq] at h ⊢
    obtain ⟨rfl, -⟩ := h
    rfl

theorem Unfinished.readsCommands {s : SmtpSessionContext} {type : JString} (h : Unfinished s type)
    (hpreset : startsWith type "PRESET".toList = true) : Smtp.readsCredentials s = false := by
  obtain ⟨auth, hauth, hunauth, rfl⟩ := h.auth
  have hpreset' : auth.isTypePreset = true := hpreset
  have hplain : auth.isTypePlain = false := (not_known_of_preset hpreset).1
  have hlogin : auth.isTypeLogin = false := (not_known_of_preset hpreset).2
  simp [Smtp.readsCredentials, hauth, hplain, hlogin, hpreset']

/-! ## The session after a failed exchange -/

theorem acceptedCommand_of_readsCredentials {s : SmtpSessionContext} (h : readsCredentials s = true)
    (frame : List UInt8) : acceptedCommand s frame = none := by
  simp [acceptedCommand, h]

/-- A line of credentials that does not succeed leaves the authentication unfinished. -/
theorem unfinished_credentials {cfg : CommonSMTP} (hproxy : cfg.isProxy = false)
    {s : SmtpSessionContext} {type : JString} (h : Unfinished s type)
    (hcred : readsCredentials s = true) (l : Line)
    (hout : authOutcome (channelRead cfg l.env s l.frame) ≠ .succeeded) :
    Unfinished (channelRead cfg l.env s l.frame).session type := by
  have hnone := acceptedCommand_of_readsCredentials hcred l.frame
  rcases channelRead_not_accepted hproxy l.env h.noContent hnone with
    ⟨fault, hr⟩ | ⟨reply, hr⟩ | ⟨old, hold, -, auth, checked, reply, hr, htype, hcheck⟩
  · rw [hr]
    exact h
  · rw [hr]
    exact h
  · obtain ⟨old', hold', -, rfl⟩ := h.auth
    obtain rfl : old' = old := Option.some.inj (hold'.symm.trans hold)
    rw [hr]
    refine ⟨⟨auth, rfl, ?_, htype⟩, h.noContent⟩
    rcases hcheck with ⟨-, hno⟩ | hchecked
    · exact hno
    · -- the only call of `checkUser` on this line did not return true
      by_contra hyes
      have hyes : auth.isAuth = true := by simpa using hyes
      apply hout
      rw [hr, authOutcome, hchecked, hyes, if_pos (by simp)]

/-- `AUTH PRESET` is refused at once, like any mechanism that the server does not know. -/
theorem authOutcome_preset {cfg : CommonSMTP} (hproxy : cfg.isProxy = false) (env : Env)
    {s : SmtpSessionContext} {frame : List UInt8} {args : List JString}
    (hacc : acceptedCommand s frame = some ⟨.AUTH, args⟩)
    (hpreset : startsWith (mechanism args) "PRESET".toList = true) :
    authOutcome (channelRead cfg env s frame) = .failed := by
  rw [channelRead_accepted cfg env hacc]
  rcases args with _ | ⟨type, args⟩
  · cases hpreset
  · obtain ⟨hplain, hlogin⟩ := not_known_of_preset hpreset
    have hplain : ((SmtpAuthTransaction.new false).setType type).isTypePlain = false := hplain
    have hlogin : ((SmtpAuthTransaction.new false).setType type).isTypeLogin = false := hlogin
    simp only [createTransaction, dispatch, hproxy, true_or, if_true, SmtpRequest.processCommand,
      Auth.processCommand, hplain, hlogin, Bool.false_eq_true, if_false, Processed.answer]
    rfl

/-- The lines after the `AUTH` command of an exchange that fails. -/
theorem unfinished_of_failsAtEnd {cfg : CommonSMTP} (hproxy : cfg.isProxy = false)
    {s : SmtpSessionContext} {type : JString} (h : Unfinished s type)
    (hcred : startsWith type "PRESET".toList = false) {ls : List Line}
    (hfails : failsAtEnd cfg s ls = true) : Unfinished ((handler cfg).run s ls) type := by
  induction ls generalizing s with
  | nil => cases hfails
  | cons l ls ih =>
    have hout : authOutcome (channelRead cfg l.env s l.frame) ≠ .succeeded := by
      intro hout
      cases ls <;> simp [failsAtEnd, hout] at hfails
    have hnext := unfinished_credentials hproxy h (h.readsCredentials hcred) l hout
    cases ls with
    | nil => exact hnext
    | cons l' ls =>
      rw [failsAtEnd, Bool.and_eq_true] at hfails
      exact ih hnext hfails.2

/-- After a failed exchange the session still holds its authentication, unfinished. -/
theorem FailedAuth.unfinished {cfg : CommonSMTP} (hproxy : cfg.isProxy = false)
    {s : SmtpSessionContext} {args : List JString} {l : Line} {ls : List Line}
    (h : FailedAuth cfg s args l ls) :
    Unfinished ((handler cfg).run s (l :: ls)) (mechanism args) := by
  obtain ⟨auth, hauth, htype, hcheck, hmail⟩ := channelRead_authCommand hproxy l.env h.command
  have hnoContent : (channelRead cfg l.env s l.frame).session.mailContent = none := by
    rw [SmtpSessionContext.mailContent, hmail]
    exact (acceptedCommand_eq_some.mp h.command).1
  have hfails := h.fails
  have hout : authOutcome (channelRead cfg l.env s l.frame) ≠ .succeeded := by
    intro hout
    cases ls <;> simp [failsAtEnd, hout] at hfails
  have hunauth : auth.isAuth = false := by
    by_contra hyes
    have hyes : auth.isAuth = true := by simpa using hyes
    apply hout
    rw [authOutcome, if_pos (hcheck hyes)]
  have hfirst : Unfinished (channelRead cfg l.env s l.frame).session (mechanism args) :=
    ⟨⟨auth, hauth, hunauth, htype⟩, hnoContent⟩
  cases ls with
  | nil => exact hfirst
  | cons l' ls =>
    rw [failsAtEnd, Bool.and_eq_true, decide_eq_true_eq] at hfails
    -- the exchange went on after the command, so the mechanism is one that asks for credentials
    have hpreset : startsWith (mechanism args) "PRESET".toList = false := by
      by_contra hpreset
      have hfailed := authOutcome_preset hproxy l.env h.command (by simpa using hpreset)
      rw [hfails.1] at hfailed
      cases hfailed
    exact unfinished_of_failsAtEnd hproxy hfirst hpreset hfails.2

/-! ## Correct authentications -/

/-- A `PLAIN` token of a user whom the directory accepts: the base64 form of an authorization identity,
a name and a password, separated by NUL bytes. -/
def PlainToken (cfg : CommonSMTP) (env : Env) (token : JString) : Prop :=
  ∃ authzid user passwd : List UInt8,
    Base64.base64ToByteArray token = .ok (authzid ++ 0 :: (user ++ 0 :: passwd))
      ∧ 0 ∉ authzid ∧ 0 ∉ user ∧ passwd ≠ []
      ∧ env.checkUser (cfg.charset.decode user) (cfg.charset.decode passwd) = true

/-- The lines of a correct `AUTH` exchange: `PLAIN` with the token in the command or after the
challenge, or `LOGIN` with the name and the password after their challenges. -/
inductive CorrectAuth (cfg : CommonSMTP) : List Line → Prop
  | inline {l : Line} {type token : JString} {args : List JString}
      (command : SmtpRequestBuilder.make (listCmd l.frame)
        = .ok (some ⟨.AUTH, type :: token :: args⟩))
      (plain : startsWith type "PLAIN".toList = true) (accepted : PlainToken cfg l.env token) :
      CorrectAuth cfg [l]
  | challenge {l l' : Line} {type token : JString} {args : List JString}
      (command : SmtpRequestBuilder.make (listCmd l.frame) = .ok (some ⟨.AUTH, [type]⟩))
      (plain : startsWith type "PLAIN".toList = true) (answer : listCmd l'.frame = token :: args)
      (accepted : PlainToken cfg l'.env token) : CorrectAuth cfg [l, l']
  | login {l l' l'' : Line} {type name passwd user secret : JString} {args args' args'' : List JString}
      (command : SmtpRequestBuilder.make (listCmd l.frame) = .ok (some ⟨.AUTH, type :: args⟩))
      (login : startsWith type "LOGIN".toList = true) (first : listCmd l'.frame = name :: args')
      (second : listCmd l''.frame = passwd :: args'')
      (isUser : Base64.base64ToStr cfg.charset name = .ok user)
      (isSecret : Base64.base64ToStr cfg.charset passwd = .ok secret)
      (accepted : l''.env.checkUser user secret = true) : CorrectAuth cfg [l, l', l'']

/-- The exchange succeeds: its last line is answered so, and the session is authenticated. -/
structure AuthSucceeds (cfg : CommonSMTP) (s : SmtpSessionContext) (lines : List Line) : Prop where
  answered : Event.reply (SmtpResponse.line 235 "2.7.0 Authentication successful")
    ∈ (handler cfg).outputs s lines
  authenticated : ((handler cfg).run s lines).isAuth = true

theorem indexOfNul_append {before : List UInt8} (h : 0 ∉ before) (front rest : List UInt8) :
    SmtpAuthTransaction.indexOfNul (front ++ (before ++ 0 :: rest)) front.length
      = front.length + before.length := by
  have hfind : (before ++ 0 :: rest).findIdx? (· = 0) = some before.length := by
    induction before with
    | nil => rfl
    | cons b before ih =>
      have hb : b ≠ 0 := fun hb => h (by simp [hb])
      simp [List.findIdx?_cons, hb, ih fun hmem => h (List.mem_cons_of_mem b hmem)]
  simp [SmtpAuthTransaction.indexOfNul, hfind]

/-- A token with a name and a password between and behind its first two NUL bytes sets both. -/
theorem setPlainBytes_append (charset : Charset) (auth : SmtpAuthTransaction) {authzid user passwd : List UInt8}
    (hauthzid : 0 ∉ authzid) (huser : 0 ∉ user) (hpasswd : passwd ≠ []) :
    auth.setPlainBytes charset (authzid ++ 0 :: (user ++ 0 :: passwd))
      = { auth with
          username := some (charset.decode user)
          password := some (charset.decode passwd) } := by
  have hn1 := indexOfNul_append hauthzid [] (user ++ 0 :: passwd)
  have hn2 := indexOfNul_append huser (authzid ++ [0]) passwd
  have hpos : 0 < passwd.length := List.length_pos_iff.mpr hpasswd
  simp only [List.nil_append, List.length_nil, Nat.zero_add] at hn1
  simp only [List.append_assoc, List.singleton_append, List.length_append,
    List.length_singleton] at hn2
  have hdrop1 : (authzid ++ 0 :: (user ++ 0 :: passwd)).drop (authzid.length + 1)
      = user ++ 0 :: passwd := by
    rw [List.drop_append, List.drop_eq_nil_of_le (by omega)]
    simp
  have hdrop2 : (authzid ++ 0 :: (user ++ 0 :: passwd)).drop (authzid.length + 1 + user.length + 1)
      = passwd := by
    rw [show authzid.length + 1 + user.length + 1 = authzid.length + 1 + (user.length + 1) by omega,
      ← List.drop_drop, hdrop1, List.drop_append, List.drop_eq_nil_of_le (by omega)]
    simp
  have hlast : ¬ authzid.length + 1 + user.length
      = (authzid ++ 0 :: (user ++ 0 :: passwd)).length - 1 := by
    simp only [List.length_append, List.length_cons]
    omega
  have htake : authzid.length + 1 + user.length - authzid.length - 1 = user.length := by omega
  simp only [SmtpAuthTransaction.setPlainBytes, hn1, hn2, if_neg hlast, hdrop1, hdrop2, htake,
    List.take_left, if_neg (show ¬ authzid.length + 1 + user.length = 0 by omega)]

/-- `setPlain` takes the name and the password out of a token, and the directory accepts them. -/
theorem PlainToken.checkUser {cfg : CommonSMTP} (hproxy : cfg.isProxy = false) {env : Env}
    {token : JString} (h : PlainToken cfg env token) (auth : SmtpAuthTransaction) :
    ∃ auth', auth.setPlain cfg.charset token = .ok auth'
      ∧ (auth'.checkUser cfg env).isAuth = true := by
  obtain ⟨authzid, user, passwd, hbytes, hauthzid, huser, hpasswd, haccepted⟩ := h
  refine ⟨_, by rw [SmtpAuthTransaction.setPlain, hbytes]; rfl, ?_⟩
  rw [setPlainBytes_append cfg.charset auth hauthzid huser hpasswd]
  simp only [SmtpAuthTransaction.checkUser, SmtpAuthTransaction.isAuth, hproxy, Bool.false_eq_true,
    if_false]
  exact haccepted

/-! ## Lines are long enough

`channelReadRequest` ignores lines of less than four bytes. A line with one of the verbs below, or with a
base64 word, is never that short. -/

/-- A line is not shorter than its verb. -/
theorem length_getName_le {frame : List UInt8} {req : SmtpRequest}
    (h : SmtpRequestBuilder.make (listCmd frame) = .ok (some req))
    (hletters : ∀ c ∈ req.command.getName, c.toNat < 128 ∧ c ≠ 'S' ∧ c ≠ 'F') :
    req.command.getName.length ≤ frame.length := by
  cases hlist : listCmd frame with
  | nil => rw [hlist] at h; cases h
  | cons name args =>
    rw [hlist] at h
    have hname := make_getName h
    have hword : name ∈ listCmd frame := by simp [hlist]
    have hlen := (StringParser.length_of_mem_getList hword).2
    have hupper := length_toUpperCase_le (s := name) (hname ▸ hletters)
    rw [hname]
    rw [asciiString, List.length_map] at hlen
    exact hupper.trans hlen

/-- A line whose first word is base64 has at least four bytes. -/
theorem four_le_of_base64 {frame : List UInt8} {word : JString} {args : List JString}
    {bytes : List UInt8} (hlist : listCmd frame = word :: args)
    (h : Base64.base64ToByteArray word = .ok bytes) : 4 ≤ frame.length := by
  have hword : word ∈ listCmd frame := by simp [hlist]
  obtain ⟨hpos, hlen⟩ := StringParser.length_of_mem_getList hword
  rw [asciiString, List.length_map] at hlen
  have hgroups : 4 * (word.length / 4) = word.length := by
    by_contra hne
    rw [Base64.base64ToByteArray] at h
    simp only [ne_eq, hne, not_false_eq_true, if_true] at h
    cases h
  omega

/-! ## A correct authentication succeeds where commands are read -/

/-- A session that reads commands accepts every verb that is allowed before authentication. -/
theorem acceptedCommand_of_make {s : SmtpSessionContext} {frame : List UInt8} {req : SmtpRequest}
    (hcontent : s.mailContent = none) (hcred : readsCredentials s = false) (hlen : 4 ≤ frame.length)
    (hmake : SmtpRequestBuilder.make (listCmd frame) = .ok (some req))
    (hpre : validatePreCommand req = true) : acceptedCommand s frame = some req := by
  refine acceptedCommand_eq_some.mpr ⟨hcontent, hlen, hcred, hmake, ?_⟩
  cases hs : s.authTransaction with
  | none => simp [isValid, hs, hpre]
  | some auth => rfl

theorem AuthSucceeds.cons {cfg : CommonSMTP} {s : SmtpSessionContext} {l : Line} {ls : List Line}
    (h : AuthSucceeds cfg ((handler cfg).step s l).1 ls) : AuthSucceeds cfg s (l :: ls) :=
  ⟨List.mem_append_right _ h.answered, h.authenticated⟩

/-- A transaction that `checkUser` finished successfully ends the exchange. -/
theorem AuthSucceeds.of_reaction {cfg : CommonSMTP} {s s' : SmtpSessionContext} {l : Line}
    {auth : SmtpAuthTransaction} {events : List Event}
    (hr : channelRead cfg l.env s l.frame
      = ⟨s', events ++ [.reply (authResponse (auth.checkUser cfg l.env))], none⟩)
    (hs' : s'.authTransaction = some (auth.checkUser cfg l.env))
    (hauth : (auth.checkUser cfg l.env).isAuth = true) : AuthSucceeds cfg s [l] := by
  have hstep : (handler cfg).step s l
      = (s', events ++ [.reply (authResponse (auth.checkUser cfg l.env))]) := by
    rw [handler]
    simp only [hr]
  refine ⟨?_, ?_⟩
  · rw [Lib.Machine.outputs_cons, hstep]
    simp [authResponse, hauth]
  · rw [Lib.Machine.run_cons, hstep]
    simp [SmtpSessionContext.isAuth, hs', hauth]

/-- The transaction that an `AUTH` command starts. -/
def startAuth (type : JString) : SmtpAuthTransaction := (SmtpAuthTransaction.new false).setType type

/-- An accepted `AUTH` command is processed in a session that holds its new transaction. -/
theorem channelRead_startAuth {cfg : CommonSMTP} (hproxy : cfg.isProxy = false) {env : Env}
    {s s' : SmtpSessionContext} {frame : List UInt8} {type : JString} {args : List JString}
    {events : List Event} {reply : SmtpResponse}
    (hacc : acceptedCommand s frame = some ⟨.AUTH, type :: args⟩)
    (hp : Auth.processCommand cfg env (type :: args)
      { s with authTransaction := some (startAuth type) } = ⟨s', events, .ok (some reply)⟩) :
    channelRead cfg env s frame
      = ⟨{ s' with lastCmd := some (asciiString frame) }, events ++ [.reply reply], none⟩ := by
  rw [startAuth] at hp
  rw [channelRead_accepted cfg env hacc]
  simp [createTransaction, dispatch, hproxy, SmtpRequest.processCommand, hp]

theorem authSucceeds_inline {cfg : CommonSMTP} (hproxy : cfg.isProxy = false)
    {s : SmtpSessionContext} {l : Line} {type token : JString} {args : List JString}
    (hacc : acceptedCommand s l.frame = some ⟨.AUTH, type :: token :: args⟩)
    (hplain : startsWith type "PLAIN".toList = true) (htoken : PlainToken cfg l.env token) :
    AuthSucceeds cfg s [l] := by
  obtain ⟨auth, hset, hauth⟩ := htoken.checkUser hproxy (startAuth type)
  have hplain : (startAuth type).isTypePlain = true := hplain
  have hp : Auth.processCommand cfg l.env (type :: token :: args)
      { s with authTransaction := some (startAuth type) }
      = ⟨{ s with authTransaction := some (auth.checkUser cfg l.env) },
          [.checkUser (auth.checkUser cfg l.env).isAuth],
          .ok (some (authResponse (auth.checkUser cfg l.env)))⟩ := by
    rw [startAuth] at hset hplain
    simp [Auth.processCommand, hplain, hset]
  exact .of_reaction (channelRead_startAuth hproxy hacc hp) rfl hauth

/-- A line that the first phase answers. -/
theorem channelRead_answer {cfg : CommonSMTP} {env : Env} {s : SmtpSessionContext}
    {frame : List UInt8} (hcontent : s.mailContent = none) (hlen : 4 ≤ frame.length) {p : Phase} 
    (hp : authPhase cfg env s (listCmd frame) = p) (hreply : p.reply.isSome = true) :
    channelRead cfg env s frame = p.finish cfg env (asciiString frame) := by
  have hnot : p.reply.isNone = false := by simpa [Option.isSome_iff_ne_none] using hreply
  rw [channelRead_request cfg env hcontent, channelReadRequest, if_neg (by omega)]
  simp [hp, hnot]

/-- A phase that asked the directory ends with the response to it. -/
theorem checkPhase_reaction (cfg : CommonSMTP) (env : Env) (line : JString) (s : SmtpSessionContext)
    (auth : SmtpAuthTransaction) :
    (checkPhase cfg env s auth).finish cfg env line
      = ⟨{ s with authTransaction := some (auth.checkUser cfg env) },
          [.checkUser (auth.checkUser cfg env).isAuth]
            ++ [.reply (authResponse (auth.checkUser cfg env))], none⟩ := rfl

theorem authSucceeds_token {cfg : CommonSMTP} (hproxy : cfg.isProxy = false)
    {s : SmtpSessionContext} {l : Line} {auth : SmtpAuthTransaction} {token : JString}
    {args : List JString} (hcontent : s.mailContent = none) (hs : s.authTransaction = some auth)
    (hunauth : auth.isAuth = false) (hplain : auth.isTypePlain = true)
    (hanswer : listCmd l.frame = token :: args) (htoken : PlainToken cfg l.env token) :
    AuthSucceeds cfg s [l] := by
  have hlen : 4 ≤ l.frame.length := by
    obtain ⟨_, _, _, hbytes, -⟩ := htoken
    exact four_le_of_base64 hanswer hbytes
  obtain ⟨auth', hset, hauth⟩ := htoken.checkUser hproxy auth
  have hp : authPhase cfg l.env s (listCmd l.frame) = checkPhase cfg l.env s auth' := by
    simp [authPhase, hs, hunauth, hplain, hanswer, plainPhase, hset, hproxy]
  have hr := channelRead_answer hcontent hlen hp rfl
  exact .of_reaction (hr.trans (checkPhase_reaction cfg l.env _ s auth')) rfl hauth

theorem four_le_of_base64ToStr {charset : Charset} {frame : List UInt8} {word text : JString}
    {rest : List JString} (hlist : listCmd frame = word :: rest)
    (hstr : Base64.base64ToStr charset word = .ok text) : 4 ≤ frame.length := by
  cases hbytes : Base64.base64ToByteArray word with
  | error e =>
    rw [Base64.base64ToStr, hbytes] at hstr
    cases hstr
  | ok bytes => exact four_le_of_base64 hlist hbytes

/-- The line with the user name. -/
theorem step_userName {cfg : CommonSMTP} (hproxy : cfg.isProxy = false) {s : SmtpSessionContext}
    {l : Line} {auth : SmtpAuthTransaction} {name user : JString} {args : List JString}
    (hcontent : s.mailContent = none) (hs : s.authTransaction = some auth)
    (hunauth : auth.isAuth = false) (hnotPlain : auth.isTypePlain = false)
    (hlogin : auth.isTypeLogin = true) (hnew : auth.isLogin = false)
    (hanswer : listCmd l.frame = name :: args)
    (huser : Base64.base64ToStr cfg.charset name = .ok user) :
    ((handler cfg).step s l).1
      = { s with authTransaction := some { auth with username := some user } } := by
  have hname : auth.setLogin cfg.charset name = .ok { auth with username := some user } := by
    rw [SmtpAuthTransaction.setLogin, huser]
    rfl
  have hp : authPhase cfg l.env s (listCmd l.frame)
      = ⟨{ s with authTransaction := some { auth with username := some user } }, [],
          some (SmtpRequestBuilder.empty (name :: args)),
          some (SmtpResponse.line 334 "UGFzc3dvcmQA"), none⟩ := by
    simp [authPhase, hs, hunauth, hnotPlain, hlogin, hanswer, loginPhase, hnew, hname, hproxy]
  have hr := channelRead_answer hcontent (four_le_of_base64ToStr hanswer huser) hp rfl
  rw [handler]
  simp only [hr]
  rfl

/-- The line with the password completes the pair, and the directory is asked. -/
theorem authSucceeds_password {cfg : CommonSMTP} (hproxy : cfg.isProxy = false)
    {s : SmtpSessionContext} {l : Line} {auth : SmtpAuthTransaction} {passwd user secret : JString}
    {args : List JString} (hcontent : s.mailContent = none) (hs : s.authTransaction = some auth)
    (hunauth : auth.isAuth = false) (hnotPlain : auth.isTypePlain = false)
    (hlogin : auth.isTypeLogin = true) (huser : auth.username = some user)
    (hanswer : listCmd l.frame = passwd :: args)
    (hsecret : Base64.base64ToStr cfg.charset passwd = .ok secret)
    (haccepted : l.env.checkUser user secret = true) : AuthSucceeds cfg s [l] := by
  have hset : auth.setPasswd cfg.charset passwd = .ok { auth with password := some secret } := by
    rw [SmtpAuthTransaction.setPasswd, hsecret]
    rfl
  have hp : authPhase cfg l.env s (listCmd l.frame)
      = checkPhase cfg l.env s { auth with password := some secret } := by
    simp [authPhase, hs, hunauth, hnotPlain, hlogin, hanswer, loginPhase, hset, hproxy,
      SmtpAuthTransaction.isLogin, huser]
  have hr := channelRead_answer hcontent (four_le_of_base64ToStr hanswer hsecret) hp rfl
  have hauth : (SmtpAuthTransaction.checkUser cfg l.env
      { auth with password := some secret }).isAuth = true := by
    simpa [SmtpAuthTransaction.checkUser, SmtpAuthTransaction.isAuth, hproxy, huser] using haccepted
  exact .of_reaction (hr.trans (checkPhase_reaction cfg l.env _ s _)) rfl hauth

/-- The lines after `AUTH LOGIN`. -/
theorem authSucceeds_login {cfg : CommonSMTP} (hproxy : cfg.isProxy = false)
    {s : SmtpSessionContext} {l l' : Line} {auth : SmtpAuthTransaction}
    {name passwd user secret : JString} {args args' : List JString} (hcontent : s.mailContent = none)
    (hs : s.authTransaction = some auth) (hunauth : auth.isAuth = false)
    (hnotPlain : auth.isTypePlain = false) (hlogin : auth.isTypeLogin = true)
    (hnew : auth.isLogin = false) (hfirst : listCmd l.frame = name :: args)
    (hsecond : listCmd l'.frame = passwd :: args')
    (huser : Base64.base64ToStr cfg.charset name = .ok user)
    (hsecret : Base64.base64ToStr cfg.charset passwd = .ok secret)
    (haccepted : l'.env.checkUser user secret = true) : AuthSucceeds cfg s [l, l'] := by
  apply AuthSucceeds.cons
  rw [step_userName hproxy hcontent hs hunauth hnotPlain hlogin hnew hfirst huser]
  exact authSucceeds_password hproxy hcontent rfl hunauth hnotPlain hlogin rfl hsecond hsecret haccepted

/-- A correct `AUTH` exchange succeeds in every session that reads commands. -/
theorem CorrectAuth.succeeds {cfg : CommonSMTP} (hproxy : cfg.isProxy = false) {lines : List Line}
    (h : CorrectAuth cfg lines) {s : SmtpSessionContext} (hcontent : s.mailContent = none)
    (hcred : readsCredentials s = false) : AuthSucceeds cfg s lines := by
  -- every form begins with an `AUTH` command, which is accepted
  have haccept : ∀ {l : Line} {args : List JString},
      SmtpRequestBuilder.make (listCmd l.frame) = .ok (some ⟨.AUTH, args⟩) →
      acceptedCommand s l.frame = some ⟨.AUTH, args⟩ := by
    intro l args hmake
    have hlen : 4 ≤ l.frame.length := length_getName_le hmake
      (show ∀ c ∈ "AUTH".toList, c.toNat < 128 ∧ c ≠ 'S' ∧ c ≠ 'F' by simp)
    exact acceptedCommand_of_make hcontent hcred hlen hmake
      (show decide ("AUTH".toList ∈ VALID_PRE_COMMANDS) = true by decide)
  cases h with
  | inline hmake hplain htoken => exact authSucceeds_inline hproxy (haccept hmake) hplain htoken
  | @challenge l l' type token args hmake hplain hanswer htoken =>
    have hplain' : (startAuth type).isTypePlain = true := hplain
    have hp : Auth.processCommand cfg l.env [type] { s with authTransaction := some (startAuth type) }
        = ⟨{ s with authTransaction := some (startAuth type) }, [],
            .ok (some (SmtpResponse.line 334 ""))⟩ := by
      rw [startAuth] at hplain'
      simp [Auth.processCommand, hplain', Processed.answer, startAuth]
    apply AuthSucceeds.cons
    rw [handler]
    simp only [channelRead_startAuth hproxy (haccept hmake) hp]
    exact authSucceeds_token hproxy hcontent rfl rfl hplain' hanswer htoken
  | @login l l' l'' type name passwd user secret args args' args'' hmake hlogin hfirst hsecond huser
      hsecret haccepted =>
    have hlogin' : (startAuth type).isTypeLogin = true := hlogin
    have hnotPlain : (startAuth type).isTypePlain = false := not_plain_of_login hlogin
    have hp : Auth.processCommand cfg l.env (type :: args)
        { s with authTransaction := some (startAuth type) }
        = ⟨{ s with authTransaction := some (startAuth type) }, [],
            .ok (some (SmtpResponse.line 334 "VXNlciBOYW1lAA=="))⟩ := by
      rw [startAuth] at hlogin' hnotPlain
      simp [Auth.processCommand, hlogin', hnotPlain, Processed.answer, startAuth]
    apply AuthSucceeds.cons
    rw [handler]
    simp only [channelRead_startAuth hproxy (haccept hmake) hp]
    exact authSucceeds_login hproxy hcontent rfl rfl hnotPlain hlogin' rfl hfirst hsecond huser hsecret
      haccepted

/-! ## Recovery -/

/-- The line is a command line with one of these commands. -/
def IsCommand (commands : List SmtpCommand) (l : Line) : Prop :=
  ∃ req, SmtpRequestBuilder.make (listCmd l.frame) = .ok (some req) ∧ req.command ∈ commands

/-- The client can go on: after any `EHLO`, `NOOP` and `QUIT` lines, a line with one of these verbs or
with `AUTH` is taken as that command, and a correct `AUTH` exchange succeeds. -/
structure Recoverable (cfg : CommonSMTP) (s : SmtpSessionContext) : Prop where
  command : ∀ between : List Line, (∀ l ∈ between, IsCommand [.EHLO, .NOOP, .QUIT] l) →
    ∀ (l : Line) (req : SmtpRequest), SmtpRequestBuilder.make (listCmd l.frame) = .ok (some req) →
      req.command ∈ [.EHLO, .NOOP, .QUIT, .AUTH] →
      acceptedCommand ((handler cfg).run s between) l.frame = some req
  auth : ∀ between : List Line, (∀ l ∈ between, IsCommand [.EHLO, .NOOP, .QUIT] l) →
    ∀ lines, CorrectAuth cfg lines → AuthSucceeds cfg ((handler cfg).run s between) lines

/-- A verb that is understood before and after authentication, on a session that reads commands. -/
theorem accepted_of_unfinished {s : SmtpSessionContext} {type : JString} (h : Unfinished s type)
    (hpreset : startsWith type "PRESET".toList = true) {l : Line} {req : SmtpRequest}
    (hmake : SmtpRequestBuilder.make (listCmd l.frame) = .ok (some req))
    (hcommand : req.command ∈ [.EHLO, .NOOP, .QUIT, .AUTH]) :
    acceptedCommand s l.frame = some req := by
  have hname : (∀ c ∈ req.command.getName, c.toNat < 128 ∧ c ≠ 'S' ∧ c ≠ 'F') ∧ req.command.getName.length = 4
      ∧ req.command.getName ∈ VALID_PRE_COMMANDS := by
    generalize req.command = command at hcommand
    simp only [List.mem_cons, List.not_mem_nil, or_false] at hcommand
    rcases hcommand with rfl | rfl | rfl | rfl
    · exact ⟨show ∀ c ∈ "EHLO".toList, _ by simp, rfl, by decide⟩
    · exact ⟨show ∀ c ∈ "NOOP".toList, _ by simp, rfl, by decide⟩
    · exact ⟨show ∀ c ∈ "QUIT".toList, _ by simp, rfl, by decide⟩
    · exact ⟨show ∀ c ∈ "AUTH".toList, _ by simp, rfl, by decide⟩
  have hlen := length_getName_le hmake hname.1
  rw [hname.2.1] at hlen
  exact acceptedCommand_of_make h.noContent (h.readsCommands hpreset) hlen hmake
    (decide_eq_true hname.2.2)

/-- `EHLO`, `NOOP` and `QUIT` leave the authentication as it is. -/
theorem unfinished_step {cfg : CommonSMTP} (hproxy : cfg.isProxy = false) {s : SmtpSessionContext}
    {type : JString} (h : Unfinished s type) (hpreset : startsWith type "PRESET".toList = true)
    {l : Line} (hl : IsCommand [.EHLO, .NOOP, .QUIT] l) :
    Unfinished ((handler cfg).step s l).1 type := by
  obtain ⟨⟨command, parameters⟩, hmake, hcommand⟩ := hl
  have hacc : acceptedCommand s l.frame = some ⟨command, parameters⟩ := by
    refine accepted_of_unfinished h hpreset hmake ?_
    simp only [List.mem_cons, List.not_mem_nil, or_false] at hcommand ⊢
    rcases hcommand with rfl | rfl | rfl <;> simp
  have hr := channelRead_accepted cfg l.env hacc
  rw [handler]
  simp only [List.mem_cons, List.not_mem_nil, or_false] at hcommand
  rcases hcommand with rfl | rfl | rfl
  · simp only [hr, createTransaction, dispatch, hproxy, true_or, if_true, SmtpRequest.processCommand,
      Hello.processCommand]
    exact ⟨h.auth, rfl⟩
  · simp only [hr, createTransaction, dispatch, hproxy, true_or, if_true, SmtpRequest.processCommand,
      Processed.answer]
    exact ⟨h.auth, h.noContent⟩
  · simp only [hr, createTransaction, dispatch, hproxy, true_or, if_true, SmtpRequest.processCommand,
      Quit.processCommand]
    exact ⟨h.auth, h.noContent⟩

theorem unfinished_run {cfg : CommonSMTP} (hproxy : cfg.isProxy = false) {s : SmtpSessionContext}
    {type : JString} (h : Unfinished s type) (hpreset : startsWith type "PRESET".toList = true)
    {between : List Line} (hbetween : ∀ l ∈ between, IsCommand [.EHLO, .NOOP, .QUIT] l) :
    Unfinished ((handler cfg).run s between) type := by
  induction between generalizing s with
  | nil => exact h
  | cons l between ih =>
    have hstep := unfinished_step hproxy h hpreset (hbetween l List.mem_cons_self)
    exact ih hstep fun l' hl' => hbetween l' (List.mem_cons_of_mem l hl')

/-- After a failed exchange, outside proxy mode, the client can go on exactly if the mechanism that it
named starts with `PRESET`: any other exchange leaves a session that reads every line as credentials. -/
theorem recoverable_iff {cfg : CommonSMTP} (hproxy : cfg.isProxy = false) {s : SmtpSessionContext}
    {args : List JString} {l : Line} {ls : List Line} (h : FailedAuth cfg s args l ls) :
    Recoverable cfg ((handler cfg).run s (l :: ls))
      ↔ startsWith (mechanism args) "PRESET".toList = true := by
  have hunfinished := h.unfinished hproxy
  constructor
  · intro hrec
    by_contra hpreset
    have hcred := hunfinished.readsCredentials (by simpa using hpreset)
    -- the line `EHLO x` would be a command, but is read as credentials
    have hmake : SmtpRequestBuilder.make (listCmd (Line.ofString "EHLO x").frame)
        = .ok (some ⟨.EHLO, ["x".toList]⟩) := by decide
    have hehlo := hrec.command [] nofun (.ofString "EHLO x") _ hmake (by decide)
    rw [Lib.Machine.run_nil, acceptedCommand_of_readsCredentials hcred] at hehlo
    cases hehlo
  · intro hpreset
    refine ⟨fun between hbetween l' req hmake hcommand => ?_, fun between hbetween lines hlines => ?_⟩
    · exact accepted_of_unfinished (unfinished_run hproxy hunfinished hpreset hbetween) hpreset hmake
        hcommand
    · have hrun := unfinished_run hproxy hunfinished hpreset hbetween
      exact hlines.succeeds hproxy hrun.noContent (hrun.readsCommands hpreset)

/-- `AUTH PRESET` fails, and the client can go on after it. -/
theorem recoverable_preset :
    Recoverable .stub ((handler .stub).run (.channelActive .stub) [.ofString "AUTH PRESET"]) := by
  have h : FailedAuth .stub (.channelActive .stub) ["PRESET".toList] (.ofString "AUTH PRESET") [] :=
    ⟨by decide, by decide⟩
  exact (recoverable_iff rfl h).mpr (by decide)

/-- After a wrong password in the token of `AUTH PLAIN` the client cannot go on. -/
theorem not_recoverable_wrong_password :
    ∃ s args l ls, FailedAuth .stub s args l ls
      ∧ ¬ Recoverable .stub ((handler .stub).run s (l :: ls)) := by
  refine ⟨.channelActive .stub, ["PLAIN".toList, "AGF2ADEyNA==".toList],
    .ofString "AUTH PLAIN AGF2ADEyNA==", [], ⟨by decide, by decide⟩, fun hrec => ?_⟩
  have hehlo := hrec.command [] nofun (.ofString "EHLO x") ⟨.EHLO, ["x".toList]⟩ (by decide) (by decide)
  exact absurd hehlo (by decide)

end OrgLittle.Smtp
