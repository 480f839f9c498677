import OrgLittle.Smtp.CommandHandler

/-!
# The authentication gate

On a server that requires authentication, a mail transaction should exist only in a session whose
`checkUser` has succeeded. The handler lets commands through in three cases: before any `AUTH` (then only
the verbs of `VALID_PRE_COMMANDS`), after a successful one, and while the type of the transaction starts
with `PRESET`. The last case is meant for sessions that need no authentication, but a client can reach it
with `AUTH PRESET`. `createsMail_authenticated` shows that this is the only way around the gate.
-/

namespace OrgLittle.Smtp

open OrgLittle.Java

/-- The line makes the handler create a mail transaction (`MAIL`) or a mail content (`DATA`). -/
def createsMail (s : SmtpSessionContext) (l : Line) : Bool :=
  match acceptedCommand s l.frame with
  | some req => req.command = .MAIL ∨ (req.command = .DATA ∧ s.mailTransaction.isSome)
  | none => false

/-- The line is accepted as an `AUTH` command whose mechanism name starts with `PRESET`. -/
def namesPreset (s : SmtpSessionContext) (l : Line) : Bool :=
  match acceptedCommand s l.frame with
  | some ⟨.AUTH, type :: _⟩ => startsWith type "PRESET".toList
  | _ => false

/-- An authentication that is not finished is not of type `PRESET`. -/
def Guarded (s : SmtpSessionContext) : Prop :=
  ∀ auth, s.authTransaction = some auth → auth.isAuth = true ∨ auth.isTypePreset = false

/-! ## What one line does to the authentication -/

/-- Mail text does not touch the authentication. -/
theorem channelRead_content_auth (cfg : CommonSMTP) (env : Env) {s : SmtpSessionContext}
    (frame : List UInt8) (h : s.mailContent ≠ none) :
    (channelRead cfg env s frame).session.authTransaction = s.authTransaction := by
  obtain ⟨mailTx, content, hs⟩ := eq_inData h
  rw [hs]
  by_cases hdot : unstuff frame = [DOT]
  · rw [channelRead_end cfg env s mailTx _ frame hdot]
    rfl
  · rw [channelRead_text cfg env s mailTx _ frame hdot]
    rfl

/-- Only `AUTH` touches the authentication. -/
theorem processCommand_auth (cfg : CommonSMTP) (env : Env) {req : SmtpRequest}
    (s : SmtpSessionContext) (h : req.command ≠ .AUTH) :
    (req.processCommand cfg env s).session.authTransaction = s.authTransaction := by
  rcases req with ⟨command, parameters⟩
  cases command with
  | AUTH => exact absurd rfl h
  | STLS =>
    simp only [SmtpRequest.processCommand, StartTLS.processCommand]
    split_ifs <;> rfl
  | DATA =>
    simp only [SmtpRequest.processCommand, MailData.processCommand]
    split <;> rfl
  | VRFY =>
    simp only [SmtpRequest.processCommand, VerifyMailbox.processCommand]
    split <;> rfl
  | LASTCONTENT =>
    simp only [SmtpRequest.processCommand, Content.processCommand]
    split <;> rfl
  | CONTENT =>
    simp only [SmtpRequest.processCommand, Content.processCommand]
    split <;> rfl
  | _ => rfl

/-- `AUTH` starts a transaction of the named type, which is finished only by a `checkUser` call. -/
theorem authCommand_auth (cfg : CommonSMTP) (env : Env) (type : JString) (args : List JString)
    (s : SmtpSessionContext) :
    ∃ auth, (Auth.processCommand cfg env (type :: args) s).session.authTransaction = some auth
      ∧ auth.type = type
      ∧ (auth.isAuth = true →
          Event.checkUser true ∈ (Auth.processCommand cfg env (type :: args) s).events) := by
  have hnew : ((SmtpAuthTransaction.new false).setType type).isAuth ≠ true := Bool.false_ne_true
  simp only [Auth.processCommand]
  split
  · cases args with
    | nil => exact ⟨_, rfl, rfl, fun h => absurd h hnew⟩
    | cons token args =>
      cases hp : ((SmtpAuthTransaction.new false).setType type).setPlain cfg.charset token with
      | error e =>
        simp only [hp]
        exact ⟨_, rfl, rfl, fun h => absurd h hnew⟩
      | ok auth =>
        simp only [hp]
        refine ⟨auth.checkUser cfg env, rfl, (setPlain_type hp).1, fun h => ?_⟩
        rw [h]
        exact List.mem_singleton.mpr rfl
  · split
    · exact ⟨_, rfl, rfl, fun h => absurd h hnew⟩
    · exact ⟨_, rfl, rfl, fun h => absurd h hnew⟩

/-- The transaction objects created for a command other than `AUTH` leave the authentication alone. -/
theorem createTransaction_auth (cfg : CommonSMTP) {req : SmtpRequest} (s : SmtpSessionContext)
    (h : req.command ≠ .AUTH) :
    (createTransaction cfg s req).1.authTransaction = s.authTransaction := by
  rcases req with ⟨command, parameters⟩
  cases command with
  | AUTH => exact absurd rfl h
  | MAIL => cases parameters <;> rfl
  | _ => rfl

/-- An accepted `AUTH` command: the new transaction has the named type, and no mail content appears. -/
theorem channelRead_authCommand {cfg : CommonSMTP} (hproxy : cfg.isProxy = false) (env : Env)
    {s : SmtpSessionContext} {frame : List UInt8} {args : List JString}
    (hacc : acceptedCommand s frame = some ⟨.AUTH, args⟩) :
    ∃ auth, (channelRead cfg env s frame).session.authTransaction = some auth
      ∧ auth.type = args.head?.getD []
      ∧ (auth.isAuth = true → Event.checkUser true ∈ (channelRead cfg env s frame).events)
      ∧ (channelRead cfg env s frame).session.mailTransaction = s.mailTransaction := by
  rw [channelRead_accepted cfg env hacc]
  rcases args with _ | ⟨type, args⟩
  · -- without an argument the new transaction is stored before the exception
    exact ⟨_, rfl, rfl, fun h => absurd h Bool.false_ne_true, rfl⟩
  · obtain ⟨auth, hauth, htype, hcheck⟩ := authCommand_auth cfg env type args
      { s with authTransaction := some ((SmtpAuthTransaction.new false).setType type) }
    have hmail : (Auth.processCommand cfg env (type :: args)
        { s with authTransaction := some ((SmtpAuthTransaction.new false).setType type) }
        ).session.mailTransaction = s.mailTransaction := by
      simp only [Auth.processCommand]
      split_ifs
      · cases args with
        | nil => rfl
        | cons token args =>
          dsimp only
          split <;> rfl
      · rfl
      · rfl
    simp only [createTransaction, dispatch, hproxy, true_or, if_true, SmtpRequest.processCommand]
    refine ⟨auth, ?_, htype, ?_, ?_⟩
    · split <;> exact hauth
    · intro h
      split
      · exact hcheck h
      · exact List.mem_append_left _ (hcheck h)
    · split <;> exact hmail

/-- What one line does to the authentication, outside proxy mode: it stays, or it is replaced by a
transaction that is unfinished or was finished by a successful `checkUser`; the new transaction keeps
the type of the old one unless the line is an accepted `AUTH` command. -/
theorem channelRead_auth {cfg : CommonSMTP} (hproxy : cfg.isProxy = false) (env : Env)
    (s : SmtpSessionContext) (frame : List UInt8) :
    (channelRead cfg env s frame).session.authTransaction = s.authTransaction ∨
      ∃ auth, (channelRead cfg env s frame).session.authTransaction = some auth
        ∧ (auth.isAuth = true → Event.checkUser true ∈ (channelRead cfg env s frame).events)
        ∧ ((∃ old, s.authTransaction = some old ∧ old.isAuth = false ∧ auth.type = old.type) ∨
          ∃ req, acceptedCommand s frame = some req ∧ req.command = .AUTH
            ∧ auth.type = (req.parameters.head?).getD []) := by
  by_cases hcontent : s.mailContent = none
  swap
  · exact .inl (channelRead_content_auth cfg env frame hcontent)
  cases hacc : acceptedCommand s frame with
  | none =>
    rcases channelRead_not_accepted hproxy env hcontent hacc with
      ⟨fault, hr⟩ | ⟨reply, hr⟩ | ⟨old, hold, hunauth, auth, checked, reply, hr, htype, hcheck⟩
    · exact .inl (by rw [hr])
    · exact .inl (by rw [hr])
    · refine .inr ⟨auth, by rw [hr], fun hauth => ?_, .inl ⟨old, hold, hunauth, htype⟩⟩
      rw [hr]
      rcases hcheck with ⟨-, hno⟩ | rfl
      · rw [hno] at hauth; cases hauth
      · simp [hauth]
  | some req =>
    by_cases hcmd : req.command = .AUTH
    · rcases req with ⟨command, args⟩
      obtain rfl : command = .AUTH := hcmd
      obtain ⟨auth, hauth, htype, hcheck, -⟩ := channelRead_authCommand hproxy env hacc
      exact .inr ⟨auth, hauth, hcheck, .inr ⟨_, rfl, rfl, htype⟩⟩
    · refine .inl ?_
      rw [channelRead_accepted cfg env hacc]
      have hcreate := createTransaction_auth cfg s hcmd
      rcases hct : createTransaction cfg s req with ⟨s', _ | e⟩
      · rw [hct] at hcreate
        simp only [dispatch, hproxy, true_or, if_true]
        have hproc := processCommand_auth cfg env s' hcmd
        split <;> exact hproc.trans hcreate
      · rw [hct] at hcreate
        exact hcreate

/-! ## Whole sessions -/

/-- A line that does not name `PRESET` keeps the gate closed. -/
theorem guarded_step {cfg : CommonSMTP} (hproxy : cfg.isProxy = false) {s : SmtpSessionContext}
    {l : Line} (h : Guarded s) (hl : namesPreset s l = false) :
    Guarded ((handler cfg).step s l).1 := by
  intro auth hauth
  change (channelRead cfg l.env s l.frame).session.authTransaction = some auth at hauth
  rcases channelRead_auth hproxy l.env s l.frame with hsame | ⟨auth', hauth', -, htype⟩
  · exact h auth (hsame.symm.trans hauth)
  · obtain rfl : auth' = auth := Option.some.inj (hauth'.symm.trans hauth)
    refine .inr ?_
    rcases htype with ⟨old, hold, hunauth, htype⟩ | ⟨⟨command, parameters⟩, hacc, rfl, htype⟩
    · rcases h old hold with hauthed | hpreset
      · rw [hunauth] at hauthed; cases hauthed
      · rwa [SmtpAuthTransaction.isTypePreset, htype]
    · cases parameters with
      | nil =>
        rw [SmtpAuthTransaction.isTypePreset, htype]
        rfl
      | cons type args =>
        rw [SmtpAuthTransaction.isTypePreset, htype]
        simpa only [namesPreset, hacc, List.head?_cons, Option.getD_some] using hl

/-- A session becomes authenticated only by a successful `checkUser`. -/
theorem isAuth_step {cfg : CommonSMTP} (hproxy : cfg.isProxy = false) {s : SmtpSessionContext}
    {l : Line} (h : ((handler cfg).step s l).1.isAuth = true) :
    s.isAuth = true ∨ Event.checkUser true ∈ ((handler cfg).step s l).2 := by
  change (channelRead cfg l.env s l.frame).session.isAuth = true at h
  rcases channelRead_auth hproxy l.env s l.frame with hsame | ⟨auth, hauth, hcheck, -⟩
  · exact .inl (by simpa only [SmtpSessionContext.isAuth, hsame] using h)
  · exact .inr (hcheck (by simpa only [SmtpSessionContext.isAuth, hauth] using h))

/-- An authenticated session has seen a successful `checkUser`, or was authenticated before. -/
theorem isAuth_run {cfg : CommonSMTP} (hproxy : cfg.isProxy = false) {s : SmtpSessionContext}
    {lines : List Line} (h : ((handler cfg).run s lines).isAuth = true) :
    s.isAuth = true ∨ Event.checkUser true ∈ (handler cfg).outputs s lines := by
  induction lines generalizing s with
  | nil => exact .inl h
  | cons l lines ih =>
    rw [Lib.Machine.outputs_cons, List.mem_append]
    rcases ih h with hnext | hlater
    · rcases isAuth_step hproxy hnext with hs | hnow
      · exact .inl hs
      · exact .inr (.inl hnow)
    · exact .inr (.inr hlater)

/-- Before any `AUTH`, neither `MAIL` nor `DATA` is valid. -/
theorem isValid_of_authTransaction_none {s : SmtpSessionContext} {req : SmtpRequest}
    (hs : s.authTransaction = none) (hc : req.command = .MAIL ∨ req.command = .DATA) :
    isValid s req = false := by
  simp only [isValid, hs, validatePreCommand]
  rcases hc with hc | hc <;> rw [hc] <;> decide

/-- Behind the gate only an authenticated session accepts `MAIL` or `DATA`. -/
theorem isAuth_of_createsMail {s : SmtpSessionContext} {l : Line} (h : Guarded s)
    (hc : createsMail s l = true) : s.isAuth = true := by
  cases hacc : acceptedCommand s l.frame with
  | none => rw [createsMail, hacc] at hc; cases hc
  | some req =>
    rw [createsMail, hacc] at hc
    have hc : req.command = .MAIL ∨ req.command = .DATA := by
      rcases of_decide_eq_true hc with hmail | ⟨hdata, -⟩
      · exact .inl hmail
      · exact .inr hdata
    obtain ⟨-, -, hcred, -, hvalid⟩ := acceptedCommand_eq_some.mp hacc
    cases hs : s.authTransaction with
    | none => simp [hs, isValid_of_authTransaction_none hs hc] at hvalid
    | some auth =>
      rw [SmtpSessionContext.isAuth, hs]
      by_contra hunauth
      have hunauth : auth.isAuth = false := by simpa using hunauth
      rcases h auth hs with hauth | hpreset
      · rw [hunauth] at hauth; cases hauth
      · simp [readsCredentials, hs, hunauth, hpreset] at hcred

/-- The gate over whole sessions: on a server that requires authentication, as long as no accepted
`AUTH` command names a mechanism that starts with `PRESET`, every line that creates a mail transaction
or a mail content finds the session authenticated, and a `checkUser` call before it returned true. -/
theorem createsMail_authenticated (cfg : CommonSMTP) (hproxy : cfg.isProxy = false)
    (hrequared : cfg.authRequared = true) (lines : List Line) (l : Line)
    (hlines : (handler cfg).Along (fun s l' => namesPreset s l' = false)
      (SmtpSessionContext.channelActive cfg) lines)
    (hc : createsMail ((handler cfg).run (SmtpSessionContext.channelActive cfg) lines) l = true) :
    ((handler cfg).run (SmtpSessionContext.channelActive cfg) lines).isAuth = true
      ∧ Event.checkUser true ∈ (handler cfg).outputs (SmtpSessionContext.channelActive cfg) lines := by
  have hnone : (SmtpSessionContext.channelActive cfg).authTransaction = none := by
    simp [SmtpSessionContext.channelActive, hrequared]
  have hstart : Guarded (SmtpSessionContext.channelActive cfg) := by
    intro auth hauth
    rw [hnone] at hauth
    cases hauth
  have hguarded := hlines.run_invariant (fun s l' hs hl => guarded_step hproxy hs hl) hstart
  have hauth := isAuth_of_createsMail hguarded hc
  refine ⟨hauth, ?_⟩
  rcases isAuth_run hproxy hauth with h0 | hcheck
  · rw [SmtpSessionContext.isAuth, hnone] at h0
    cases h0
  · exact hcheck

/-- A user of the built-in directory logs in and starts a mail. -/
theorem createsMail_authenticated_login :
    ((handler .stub).run (.channelActive .stub) [.ofString "AUTH PLAIN AGF2ADEyMw=="]).isAuth = true
      ∧ Event.checkUser true ∈
        (handler .stub).outputs (.channelActive .stub) [.ofString "AUTH PLAIN AGF2ADEyMw=="] :=
  createsMail_authenticated .stub rfl rfl [.ofString "AUTH PLAIN AGF2ADEyMw=="]
    (.ofString "MAIL FROM:<av>") ⟨by decide, trivial⟩ (by decide)

/-- After `AUTH PRESET` a client that never gave a password opens a mail transaction. -/
theorem createsMail_preset :
    ∃ lines l, createsMail ((handler .stub).run (.channelActive .stub) lines) l = true
      ∧ ((handler .stub).run (.channelActive .stub) lines).isAuth = false
      ∧ Event.checkUser true ∉ (handler .stub).outputs (.channelActive .stub) lines :=
  ⟨[.ofString "AUTH PRESET"], .ofString "MAIL FROM:<x>", by decide, by decide, by decide⟩

end OrgLittle.Smtp
