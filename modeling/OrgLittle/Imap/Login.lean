import OrgLittle.Imap.Mailbox

/-!
# `LOGIN`

`LoginCommand` stores a new `IMAPTransaction` in the session before it asks the user directory, and it
refuses every `LOGIN` of a session that has one. So a session whose first `LOGIN` was refused can never
log in (`login_not_restored`). The source gives the transaction back in one branch, which is dead:
`lRoot.getStore` always returns a store.
-/

namespace OrgLittle.Imap

open OrgLittle.Java OrgLittle.Lib

/-! ## The session -/

/-- `IMAPTransaction`, as far as `LOGIN` uses it; a store is determined by its name. -/
structure IMAPTransaction where
  start : ℕ
  username : Option JString
  store : Option JString
deriving DecidableEq

/-- `new IMAPTransaction()`, at the time `now`. -/
def IMAPTransaction.new (now : ℕ) : IMAPTransaction := ⟨now, none, none⟩

/-- `SessionContext`. -/
structure ImapSession where
  imapTransaction : Option IMAPTransaction
deriving DecidableEq

/-- The session of a new connection. -/
def ImapSession.new : ImapSession := ⟨none⟩

/-- `ImapCommand.checkAuthState`. -/
def checkAuthState (s : ImapSession) : Bool :=
  match s.imapTransaction with
  | none => false
  | some txSession => txSession.username.isSome

/-- `lRoot.getStore`: a new store object for every name. -/
def LRoot.getStore (name : JString) : Option JString := some name

/-! ## The command -/

/-- The user directory and the clock while a command is handled. -/
structure LoginEnv where
  checkUser : JString → JString → Bool
  now : ℕ

/-- One `LOGIN` command, with the surroundings at that moment. -/
structure LoginLine where
  env : LoginEnv
  tag : JString
  parameters : List ImapCommandParameter

/-- What `doProcess` gives: the session afterwards, and the responses or an exception. -/
structure LoginResult where
  session : ImapSession
  result : Except JavaException (List EmptyResponse)

namespace LoginCommand

/-- The name and the password. Both lose their first and last character if the name is in quotes. -/
def credentials (parameters : List ImapCommandParameter) : Except JavaException (JString × JString) :=
  match parameters with
  | userid :: password :: _ =>
    let userid := userid.toString
    let password := password.toString
    if startsWith userid ['"'] ∧ endsWith userid ['"'] then do
      let userid ← substring userid 1 (userid.length - 1)
      let password ← substring password 1 (password.length - 1)
      .ok (userid, password)
    else .ok (userid, password)
  | _ => .error .indexOutOfBounds

/-- `LoginCommand.doProcess`. -/
def doProcess (l : LoginLine) (s : ImapSession) : LoginResult :=
  match credentials l.parameters with
  | .error e => ⟨s, .error e⟩
  | .ok (userid, password) =>
    match s.imapTransaction with
    | some _ => ⟨s, .ok [completed l.tag "BAD LOGIN uncompleted"]⟩
    | none =>
      -- from here on the session has a transaction, whatever the directory says
      let txSession := IMAPTransaction.new l.env.now
      if l.env.checkUser userid password then
        match LRoot.getStore userid with
        | none => ⟨⟨none⟩, .ok [completed l.tag "NO LOGIN uncompleted"]⟩
        | some store =>
          ⟨⟨some { txSession with username := some userid, store := some store }⟩,
            .ok [completed l.tag "OK LOGIN completed"]⟩
      else ⟨⟨some txSession⟩, .ok [completed l.tag "NO LOGIN uncompleted"]⟩

end LoginCommand

/-- The command was answered `NO` or `BAD`. -/
def LoginResult.refused (r : LoginResult) : Bool :=
  match r.result with
  | .error _ => false
  | .ok responses => responses.any fun resp =>
      startsWith resp.response "NO".toList || startsWith resp.response "BAD".toList

/-- The command has a name and a password that the directory accepts. -/
def LoginLine.Correct (l : LoginLine) : Prop :=
  ∃ userid password, LoginCommand.credentials l.parameters = .ok (userid, password)
    ∧ l.env.checkUser userid password = true

/-- The command logs the session in. -/
structure LoginSucceeds (l : LoginLine) (s : ImapSession) : Prop where
  answered : (LoginCommand.doProcess l s).result = .ok [completed l.tag "OK LOGIN completed"]
  authenticated : checkAuthState (LoginCommand.doProcess l s).session = true

/-- A refused `LOGIN` should leave the session as it was: the transaction is the same, the session is not
logged in, and a correct `LOGIN` after it succeeds. -/
structure Restored (l : LoginLine) (s : ImapSession) : Prop where
  transaction : (LoginCommand.doProcess l s).session.imapTransaction = s.imapTransaction
  unauthenticated : checkAuthState (LoginCommand.doProcess l s).session = false
  later : ∀ l' : LoginLine, l'.Correct → LoginSucceeds l' (LoginCommand.doProcess l s).session

/-! ## Sessions without a transaction, and all others -/

/-- A session that has a transaction keeps it, and is not logged in by any `LOGIN`. -/
theorem doProcess_of_transaction {s : ImapSession} (h : s.imapTransaction ≠ none) (l : LoginLine) :
    (LoginCommand.doProcess l s).session = s
      ∧ (LoginCommand.doProcess l s).result ≠ .ok [completed l.tag "OK LOGIN completed"] := by
  obtain ⟨tx, htx⟩ := Option.ne_none_iff_exists'.mp h
  cases hcred : LoginCommand.credentials l.parameters with
  | error e => simp [LoginCommand.doProcess, hcred]
  | ok p => simp [LoginCommand.doProcess, hcred, htx, completed]

/-- A refused `LOGIN` leaves a transaction in the session. -/
theorem transaction_of_refused {s : ImapSession} {l : LoginLine}
    (h : (LoginCommand.doProcess l s).refused = true) :
    (LoginCommand.doProcess l s).session.imapTransaction ≠ none := by
  cases htx : s.imapTransaction with
  | some tx =>
    have hs : s.imapTransaction ≠ none := by simp [htx]
    rw [(doProcess_of_transaction hs l).1]
    exact hs
  | none =>
    cases hcred : LoginCommand.credentials l.parameters with
    | error e => simp [LoginCommand.doProcess, hcred, LoginResult.refused] at h
    | ok p =>
      obtain ⟨userid, password⟩ := p
      by_cases hcheck : l.env.checkUser userid password = true
      · -- the directory accepts and there is a store, so the answer would be `OK`
        have hr : (LoginCommand.doProcess l s).result
            = .ok [completed l.tag "OK LOGIN completed"] := by
          simp [LoginCommand.doProcess, hcred, htx, hcheck, LRoot.getStore]
        rw [LoginResult.refused, hr] at h
        simp [completed, startsWith] at h
      · simp [LoginCommand.doProcess, hcred, htx, hcheck]

/-- A refused `LOGIN` never leaves the session as it was, whatever the session was before it: no correct
`LOGIN` after it succeeds. -/
theorem login_not_restored (s : ImapSession) (l : LoginLine)
    (h : (LoginCommand.doProcess l s).refused = true) : ¬ Restored l s := by
  intro hrestored
  have htx := transaction_of_refused h
  -- some user of some directory logs in later, and is refused
  have hcorrect : LoginLine.Correct ⟨⟨fun _ _ => true, 0⟩, ['b'], [.atom ['u'], .atom ['p']]⟩ :=
    ⟨['u'], ['p'], rfl, rfl⟩
  have hlater := hrestored.later _ hcorrect
  exact (doProcess_of_transaction htx _).2 hlater.answered

/-- A directory with one user. -/
def LoginEnv.stub : LoginEnv where
  checkUser := fun user passwd => user = "av".toList ∧ passwd = "123".toList
  now := 0

/-- The name is right and the password is not. -/
theorem login_not_restored_wrong_password :
    ¬ Restored ⟨.stub, "a".toList, [.atom "av".toList, .number 124 "124".toList]⟩ .new :=
  login_not_restored .new _ (by decide)

/-- On a new session, a wrong password leaves a transaction behind, and the right password after it is
refused. -/
theorem login_locked_out :
    ∃ s l l', checkAuthState s = false ∧ (LoginCommand.doProcess l s).refused = true
      ∧ (LoginCommand.doProcess l s).session.imapTransaction ≠ s.imapTransaction
      ∧ l'.Correct ∧ (LoginCommand.doProcess l' (LoginCommand.doProcess l s).session).refused = true :=
  ⟨.new, ⟨.stub, "a".toList, [.atom "av".toList, .number 124 "124".toList]⟩,
    ⟨.stub, "b".toList, [.atom "av".toList, .number 123 "123".toList]⟩, by decide, by decide, by decide,
    ⟨"av".toList, "123".toList, by decide, by decide⟩, by decide⟩

end OrgLittle.Imap
