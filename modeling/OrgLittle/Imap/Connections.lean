import OrgLittle.Imap.Commands
import OrgLittle.Lib.Interleave

/-!
# Connections and their stores

Only `LOGIN` puts a store into the context of a connection. Without one no command reads or changes the server
(`process_of_store_none`), and with one every command calls that `lStore` alone (`process_congr`). So in every
interleaving of the commands of any number of connections, one that is not logged in is not noticed by the others and
does not notice them, and the others call no `lStore` but their own. What an `lStore` opens on the disk is not limited
by this: the common inbox is in the list of every user's folders, and a name with `..` may lead anywhere.
-/

namespace OrgLittle.Imap

open OrgLittle.Java OrgLittle.Lib OrgLittle.Lmsg

section step

variable {σ : Type*}

/-! ## Commands without a store -/

/-- What a command does to the context and what it answers. -/
def CommandResult.seen (out : CommandResult σ) : MailContext × Except JavaException (List EmptyResponse) :=
  (out.ctx, out.result)

/-- A command that leaves the server as it is and gives the same whatever the stores and the server are. -/
def Unseeing (p : (JString → LStore σ) → σ → CommandResult σ) : Prop :=
  ∀ root root' s s', (p root s).server = s ∧ (p root s).seen = (p root' s').seen

variable {env : CommandEnv} {tag : JString} {ctx : MailContext} {parameters : List ImapCommandParameter}

/-- An answer that does not depend on the server. -/
theorem unseeing_of_result (result : Except JavaException (List EmptyResponse)) :
    Unseeing fun (_ : JString → LStore σ) s => ⟨ctx, s, result⟩ := fun _ _ _ _ => ⟨rfl, rfl⟩

/-- `FETCH` takes its messages from the context. -/
theorem unseeing_fetch (outcome : FetchOutcome) : Unseeing fun (_ : JString → LStore σ) s => outcome.process ctx s :=
  fun _ _ _ _ => ⟨rfl, rfl⟩

/-- `LOGIN` asks the user directory only. -/
theorem unseeing_login :
    Unseeing fun (_ : JString → LStore σ) s => LoginCommand.process env tag parameters ctx s := by
  intro _ _ s s'
  unfold LoginCommand.process
  split <;> exact ⟨rfl, rfl⟩

theorem unseeing_close : Unseeing fun (_ : JString → LStore σ) s => CloseCommand.doProcess tag ctx s := by
  intro _ _ s s'
  unfold CloseCommand.doProcess
  split <;> exact ⟨rfl, rfl⟩

section

variable (h : ctx.store = none)

include h

/-- `DELETE` refuses without a store. -/
theorem unseeing_delete :
    Unseeing fun (root : JString → LStore σ) s => DeleteCommand.doProcess root tag parameters ctx s := by
  intro root root' s s'
  rcases parameters with _ | ⟨arg, _⟩
  · exact ⟨rfl, rfl⟩
  · dsimp only [DeleteCommand.doProcess]
    rw [h]
    split_ifs <;> exact ⟨rfl, rfl⟩

/-- `CREATE` refuses without a store. -/
theorem unseeing_create :
    Unseeing fun (root : JString → LStore σ) s => CreateCommand.process root env tag parameters ctx s := by
  intro root root' s s'
  rcases parameters with _ | ⟨arg, _⟩
  · exact ⟨rfl, rfl⟩
  · dsimp only [CreateCommand.process]
    rw [h]
    rcases mailboxName env arg.toString with _ | _ <;> exact ⟨rfl, rfl⟩

/-- `SELECT` refuses without a store. -/
theorem unseeing_select :
    Unseeing fun (root : JString → LStore σ) s => SelectCommand.process root env tag parameters ctx s := by
  intro root root' s s'
  rcases parameters with _ | ⟨arg, _⟩
  · exact ⟨rfl, rfl⟩
  · dsimp only [SelectCommand.process]
    rw [h]
    rcases mailboxName env arg.toString with _ | _ <;> exact ⟨rfl, rfl⟩

/-- `STATUS` refuses without a store. -/
theorem unseeing_status :
    Unseeing fun (root : JString → LStore σ) s => StatusCommand.process root tag parameters ctx s := by
  intro root root' s s'
  dsimp only [StatusCommand.process]
  rw [h]
  rcases parameters with _ | ⟨arg, _⟩ <;> exact ⟨rfl, rfl⟩

/-- `APPEND` saves nothing without a store. -/
theorem unseeing_append (cmd : ImapCommand) :
    Unseeing fun (root : JString → LStore σ) s => AppendCommand.process root env cmd ctx s := by
  intro root root' s s'
  have hkeep (xs : List (JString × LMessage)) (s : σ) : xs.foldl (fun s _ => s) s = s := by
    induction xs with
    | nil => rfl
    | cons x xs ih => exact ih
  dsimp only [AppendCommand.process]
  rw [h]
  exact ⟨hkeep _ s, rfl⟩

/-- `SUBSCRIBE` finds no folder without a store. -/
theorem unseeing_subscribe : Unseeing fun (root : JString → LStore σ) s =>
    ⟨ctx, s, SubscribeCommand.doProcess root tag ctx s parameters⟩ := by
  intro root root' s s'
  rcases parameters with _ | ⟨arg, _⟩
  · exact ⟨rfl, rfl⟩
  · dsimp only [SubscribeCommand.doProcess]
    rw [h]
    exact ⟨rfl, rfl⟩

/-- `LIST` lists no folder without a store. -/
theorem unseeing_list : Unseeing fun (root : JString → LStore σ) s =>
    ⟨ctx, s, ListCommand.doProcess root env tag ctx s parameters⟩ := by
  intro root root' s s'
  rcases parameters with _ | ⟨arg1, _ | ⟨arg2, _⟩⟩
  · exact ⟨rfl, rfl⟩
  · exact ⟨rfl, rfl⟩
  · dsimp only [ListCommand.doProcess]
    rw [h]
    exact ⟨rfl, rfl⟩

/-- `LSUB` lists no folder without a store. -/
theorem unseeing_lsub : Unseeing fun (root : JString → LStore σ) s =>
    ⟨ctx, s, LsubCommand.doProcess root env tag ctx s parameters⟩ := by
  intro root root' s s'
  rcases parameters with _ | ⟨arg1, _ | ⟨arg2, _⟩⟩
  · exact ⟨rfl, rfl⟩
  · exact ⟨rfl, rfl⟩
  · dsimp only [LsubCommand.doProcess]
    rw [h]
    exact ⟨rfl, rfl⟩

variable (env) in
/-- Without a store, a command neither reads nor changes the server. -/
theorem unseeing_process (cmd : ImapCommand) :
    Unseeing fun (root : JString → LStore σ) s => cmd.process root env ctx s := by
  unfold ImapCommand.process
  cases cmd.class
  case APPEND => exact unseeing_append h cmd
  case CLOSE => exact unseeing_close
  case CREATE => exact unseeing_create h
  case DELETE => exact unseeing_delete h
  case FETCH => exact unseeing_fetch _
  case LIST => exact unseeing_list h
  case LOGIN => exact unseeing_login
  case LSUB => exact unseeing_lsub h
  case SELECT => exact unseeing_select h
  case STATUS => exact unseeing_status h
  case SUBSCRIBE => exact unseeing_subscribe h
  case UID => exact unseeing_fetch _
  all_goals exact unseeing_of_result _

end

/-! ## Commands with a store -/

/-- A command uses no store but the one in the context. -/
theorem process_congr {root root' : JString → LStore σ} (h : ∀ u, ctx.store = some u → root u = root' u)
    (cmd : ImapCommand) (s : σ) : cmd.process root env ctx s = cmd.process root' env ctx s := by
  match hstore : ctx.store with
  | none =>
    -- Without a store no command looks at the root.
    obtain ⟨hserver, hseen⟩ := unseeing_process env hstore cmd root root' s s
    obtain ⟨hserver', -⟩ := unseeing_process env hstore cmd root' root s s
    obtain ⟨hctx, hresult⟩ := Prod.ext_iff.mp hseen
    have hext (out out' : CommandResult σ) (h1 : out.ctx = out'.ctx) (h2 : out.server = out'.server)
        (h3 : out.result = out'.result) : out = out' := by
      cases out; cases out'; cases h1; cases h2; cases h3; rfl
    exact hext _ _ hctx (hserver.trans hserver'.symm) hresult
  | some u =>
    -- With one, each command looks at the root for this user only.
    have hroot := h u hstore
    unfold ImapCommand.process
    cases cmd.class
    case APPEND =>
      dsimp only [AppendCommand.process]
      rw [hstore]
      simp only [Option.bind_some, hroot]
      refine congrArg (fun save => CommandResult.mk ctx (List.foldl save s _) _) ?_
      funext s msg
      rcases (root' u).getFolder msg.1 _ with _ | folder
      · rfl
      · show (root u).save folder msg.2 s = (root' u).save folder msg.2 s
        rw [hroot]
    case CREATE =>
      rcases cmd.parameters with _ | ⟨arg, _⟩
      · rfl
      · dsimp only [CreateCommand.process]
        rw [hstore]
        rcases mailboxName env arg.toString with _ | _ <;> simp only [hroot]
    case DELETE => simp only [DeleteCommand.doProcess, hstore, hroot]
    case LIST =>
      rcases cmd.parameters with _ | ⟨_, _ | _⟩ <;> simp only [ListCommand.doProcess, hstore, hroot]
    case LSUB =>
      rcases cmd.parameters with _ | ⟨_, _ | _⟩ <;> simp only [LsubCommand.doProcess, hstore, hroot]
    case SELECT =>
      rcases cmd.parameters with _ | ⟨arg, _⟩
      · rfl
      · dsimp only [SelectCommand.process]
        rw [hstore]
        rcases mailboxName env arg.toString with _ | _ <;> simp only [hroot]
    case STATUS =>
      dsimp only [StatusCommand.process]
      rw [hstore]
      rcases cmd.parameters with _ | _ <;> simp only [hroot]
    case SUBSCRIBE => rcases cmd.parameters with _ | _ <;> simp only [SubscribeCommand.doProcess, hstore, hroot]
    all_goals rfl

/-! ## `LOGIN` -/

theorem login_setMsg (ctx : MailContext) (msgs : List FetchMessage) : (ctx.setMsg msgs).login = ctx.login := by
  rcases ctx with ⟨_ | _⟩ <;> rfl

theorem login_select (ctx : MailContext) (name : JString) (folder : LFolder) :
    (ctx.select name folder).login = ctx.login := by
  rcases ctx with ⟨_ | _⟩ <;> rfl

theorem login_fetch (outcome : FetchOutcome) (ctx : MailContext) (s : σ) :
    (outcome.process ctx s).ctx.login = ctx.login := by
  unfold FetchOutcome.process
  split
  · rfl
  · exact login_setMsg ctx _

/-- What `LOGIN` does in a connection is what it does to the part of the context that it looks at. -/
theorem login_login (ctx : MailContext) (s : σ) : (LoginCommand.process env tag parameters ctx s).ctx.login
    = (LoginCommand.doProcess ⟨env.login, tag, parameters⟩ ctx.login).session := by
  unfold LoginCommand.process
  split
  · next txSession htx =>
    have hsome : ctx.login.imapTransaction ≠ none := by simp [MailContext.login, htx]
    exact (doProcess_of_transaction hsome _).1.symm
  · show ImapSession.mk (Option.map _ (Option.map _ _)) = _
    rw [Option.map_map]
    exact congrArg ImapSession.mk (congrFun Option.map_id _)

/-- No other command changes what `LOGIN` looks at. -/
theorem login_process {cmd : ImapCommand} (hcmd : cmd.class ≠ .LOGIN) (root : JString → LStore σ) (ctx : MailContext)
    (s : σ) : (cmd.process root env ctx s).ctx.login = ctx.login := by
  unfold ImapCommand.process
  revert hcmd
  cases cmd.class
  case LOGIN => exact fun hcmd => absurd rfl hcmd
  all_goals intro _
  case CLOSE =>
    dsimp only [CloseCommand.doProcess]
    rcases ctx with ⟨_ | _⟩ <;> rfl
  case CREATE =>
    dsimp only [CreateCommand.process]
    split
    · rfl
    · split <;> rfl
  case DELETE =>
    dsimp only [DeleteCommand.doProcess]
    split
    · rfl
    · split_ifs
      · rfl
      · split <;> rfl
  case SELECT =>
    dsimp only [SelectCommand.process]
    split
    · rfl
    · split
      · rfl
      · rfl
      · split
        · rfl
        · exact login_select ctx _ _
  case STATUS =>
    dsimp only [StatusCommand.process]
    split
    · rfl
    · rfl
    · split <;> rfl
  case FETCH => exact login_fetch _ ctx s
  case UID => exact login_fetch _ ctx s
  all_goals rfl

/-- The store is that of the transaction that `LOGIN` opened. -/
theorem store_eq (ctx : MailContext) : ctx.store = ctx.login.imapTransaction.bind (·.store) := by
  rcases ctx with ⟨_ | _⟩ <;> rfl

variable (env) in
/-- A connection that has a transaction keeps it as far as `LOGIN` looks at it. -/
theorem login_kept {ctx : MailContext} (h : ctx.login.imapTransaction ≠ none) (root : JString → LStore σ)
    (cmd : ImapCommand) (s : σ) : (cmd.process root env ctx s).ctx.login = ctx.login := by
  by_cases hcmd : cmd.class = .LOGIN
  · have hprocess : cmd.process root env ctx s = LoginCommand.process env cmd.tag cmd.parameters ctx s := by
      rw [ImapCommand.process, hcmd]
    rw [hprocess, login_login]
    exact (doProcess_of_transaction h _).1
  · exact login_process hcmd root ctx s

variable (env) in
/-- A store is never taken away. -/
theorem store_kept {ctx : MailContext} {u : JString} (h : ctx.store = some u) (root : JString → LStore σ)
    (cmd : ImapCommand) (s : σ) : (cmd.process root env ctx s).ctx.store = some u := by
  have htx : ctx.login.imapTransaction ≠ none := by
    intro hnone
    rw [store_eq, hnone] at h
    cases h
  rw [store_eq, login_kept env htx, ← store_eq, h]

end step

/-! ## All connections -/

section server

variable {σ : Type*} (root : JString → LStore σ)

/-- A command of a connection depends on its own `lStore` only. -/
theorem step_congr (root' : JString → LStore σ) {ctx : MailContext} (h : ∀ u, ctx.store = some u → root u = root' u)
    (s : σ) (r : Received) :
    (imapCommandHandler root).step (ctx, s) r = (imapCommandHandler root').step (ctx, s) r := by
  dsimp only [imapCommandHandler]
  rw [process_congr h r.cmd s]

/-- A connection without a store is hidden. -/
theorem hidden_of_store_none : (imapCommandHandler root).Hidden fun ctx => ctx.store = none where
  back ctx s r h := by
    cases hstore : ctx.store with
    | none => exact hstore
    | some u =>
      have hkept := store_kept r.env hstore root r.cmd s
      rw [show (r.cmd.process root r.env ctx s).ctx.store = none from h] at hkept
      cases hkept
  keeps ctx s r h := (unseeing_process r.env h r.cmd root root s s).1
  blind ctx s s' r h := by
    obtain ⟨hctx, hresult⟩ := Prod.ext_iff.mp (unseeing_process r.env h r.cmd root root s s').2
    refine ⟨hctx, ?_⟩
    dsimp only [imapCommandHandler]
    rw [show (r.cmd.process root r.env ctx s).result = (r.cmd.process root r.env ctx s').result from hresult]

/-! ### Who is logged in -/

/-- The name and the password of a `LOGIN` command that has them. -/
def Received.credentials (r : Received) : Option (JString × JString) :=
  if r.cmd.class = .LOGIN then (LoginCommand.credentials r.cmd.parameters).toOption else none

/-- A command without a name and a password changes nothing that `LOGIN` looks at. -/
theorem login_of_credentials_none {r : Received} (h : r.credentials = none) (ctx : MailContext) (s : σ) :
    (r.cmd.process root r.env ctx s).ctx.login = ctx.login := by
  by_cases hcmd : r.cmd.class = .LOGIN
  · rw [Received.credentials, if_pos hcmd] at h
    have hprocess : r.cmd.process root r.env ctx s = LoginCommand.process r.env r.cmd.tag r.cmd.parameters ctx s := by
      rw [ImapCommand.process, hcmd]
    rw [hprocess, login_login]
    cases hcred : LoginCommand.credentials r.cmd.parameters with
    | error e => simp only [LoginCommand.doProcess, hcred]
    | ok p => simp [hcred, Except.toOption] at h
  · exact login_process hcmd root ctx s

/-- The first `LOGIN` with a name and a password opens a transaction, and with a store only if the directory knows
them. -/
theorem login_of_credentials {r : Received} {userid password : JString} (h : r.credentials = some (userid, password))
    {ctx : MailContext} (hctx : ctx.login.imapTransaction = none) (s : σ) :
    (r.cmd.process root r.env ctx s).ctx.login
      = ⟨some (if r.env.login.checkUser userid password then ⟨r.env.login.now, some userid, some userid⟩
          else ⟨r.env.login.now, none, none⟩)⟩ := by
  unfold Received.credentials at h
  split_ifs at h with hcmd
  have hcred : LoginCommand.credentials r.cmd.parameters = .ok (userid, password) := by
    cases hcred : LoginCommand.credentials r.cmd.parameters with
    | error e => simp [hcred, Except.toOption] at h
    | ok p =>
      rw [hcred] at h
      exact congrArg Except.ok (Option.some.inj h)
  have hprocess : r.cmd.process root r.env ctx s = LoginCommand.process r.env r.cmd.tag r.cmd.parameters ctx s := by
    rw [ImapCommand.process, hcmd]
  rw [hprocess, login_login]
  simp only [LoginCommand.doProcess, hcred, hctx, LRoot.getStore, IMAPTransaction.new]
  split_ifs <;> rfl

/-- A connection that has a transaction keeps it in every run. -/
theorem run_login_kept {ctx : MailContext} (h : ctx.login.imapTransaction ≠ none) (s : σ) (received : List Received) :
    ((imapCommandHandler root).run (ctx, s) received).1.login = ctx.login := by
  induction received generalizing ctx s with
  | nil => rfl
  | cons r received ih =>
    have hkept := login_kept r.env h root r.cmd s
    rw [Machine.run_cons]
    exact (ih (hkept.symm ▸ h) _).trans hkept

/-- The first `LOGIN` with a name and a password named `u`, with a password that the directory knew. -/
def FirstLogin (received : List Received) (u : JString) : Prop :=
  ∃ before r after password, received = before ++ r :: after ∧ (∀ r' ∈ before, r'.credentials = none)
    ∧ r.credentials = some (u, password) ∧ r.env.login.checkUser u password = true

/-- A command without a name and a password is not the first `LOGIN`. -/
theorem firstLogin_cons_of_none {r : Received} (h : r.credentials = none) (received : List Received) (u : JString) :
    FirstLogin (r :: received) u ↔ FirstLogin received u := by
  constructor
  · rintro ⟨before, r', after, password, hsplit, hbefore, hcred, hcheck⟩
    rcases before with _ | ⟨r₀, before⟩
    · -- the command without credentials is not the one that logs in
      rw [← (List.cons.inj hsplit).1, h] at hcred
      cases hcred
    · exact ⟨before, r', after, password, (List.cons.inj hsplit).2, fun x hx => hbefore x (List.mem_cons_of_mem _ hx),
        hcred, hcheck⟩
  · rintro ⟨before, r', after, password, rfl, hbefore, hcred, hcheck⟩
    exact ⟨r :: before, r', after, password, rfl, List.forall_mem_cons.mpr ⟨h, hbefore⟩, hcred, hcheck⟩

/-- One with a name and a password is. -/
theorem firstLogin_cons_of_some {r : Received} {userid password : JString} (h : r.credentials = some (userid, password))
    (received : List Received) (u : JString) :
    FirstLogin (r :: received) u ↔ userid = u ∧ r.env.login.checkUser userid password = true := by
  constructor
  · rintro ⟨before, r', after, password', hsplit, hbefore, hcred, hcheck⟩
    rcases before with _ | ⟨r₀, before⟩
    · rw [← (List.cons.inj hsplit).1] at hcred hcheck
      obtain ⟨rfl, rfl⟩ := Prod.mk.inj (Option.some.inj (h.symm.trans hcred))
      exact ⟨rfl, hcheck⟩
    · have hnone := hbefore r₀ List.mem_cons_self
      rw [← (List.cons.inj hsplit).1, h] at hnone
      cases hnone
  · rintro ⟨rfl, hcheck⟩
    exact ⟨[], r, received, password, rfl, by simp, h, hcheck⟩

/-- What store a connection has is decided by its first `LOGIN`, by induction on the commands. -/
theorem run_store_iff {ctx : MailContext} (hctx : ctx.login.imapTransaction = none) (s : σ) (received : List Received)
    (u : JString) :
    ((imapCommandHandler root).run (ctx, s) received).1.store = some u ↔ FirstLogin received u := by
  induction received generalizing ctx s with
  | nil =>
    refine iff_of_false (fun h => ?_) ?_
    · rw [Machine.run_nil, store_eq, hctx] at h
      cases h
    · rintro ⟨before, r, after, password, hsplit, -⟩
      cases before <;> cases hsplit
  | cons r received ih =>
    rw [Machine.run_cons]
    match hcred : r.credentials with
    | none =>
      rw [firstLogin_cons_of_none hcred]
      exact ih ((congrArg _ (login_of_credentials_none root hcred ctx s)).trans hctx) _
    | some (userid, password) =>
      have hlogin := login_of_credentials root hcred hctx s
      have hsome : (r.cmd.process root r.env ctx s).ctx.login.imapTransaction ≠ none := by
        rw [hlogin]
        exact nofun
      have hkept : ((imapCommandHandler root).run ((imapCommandHandler root).step (ctx, s) r).1 received).1.login
          = (r.cmd.process root r.env ctx s).ctx.login := run_login_kept root hsome _ received
      rw [firstLogin_cons_of_some hcred, store_eq, hkept, hlogin]
      split_ifs with hcheck
      · simp [hcheck]
      · simp [hcheck]

/-- After any commands, a connection has the store of the user whom its first `LOGIN` with a name and a password named,
if the directory knew both. No command before or behind it counts, `LOGOUT` included. -/
theorem store_iff_firstLogin (s : σ) (received : List Received) (u : JString) :
    ((imapCommandHandler root).run (.new, s) received).1.store = some u ↔ FirstLogin received u :=
  run_store_iff root rfl s received u

variable {κ : Type*} [DecidableEq κ]

/-- `ImapServer`: one handler for each connection, and the process and the disk for all of them. The commands of the
connections come in any order. -/
def imapServer : Machine ((κ → MailContext) × σ) (κ × Received) (κ × EmptyResponse) :=
  (imapCommandHandler root).interleave

/-- In every interleaving, a connection that is not logged in can be left out: the server, the contexts of the others
and what they are answered stay the same. What it is answered itself is the same for every server. -/
theorem unauthenticated_hidden (k : κ) (ctxs : κ → MailContext) (s : σ) (received : List (κ × Received))
    (h : (((imapServer root).run (ctxs, s) received).1 k).store = none) :
    ((imapServer root).run (ctxs, s) received).2 = ((imapServer root).run (ctxs, s) (Machine.others k received)).2
      ∧ (∀ j, j ≠ k → ((imapServer root).run (ctxs, s) received).1 j
          = ((imapServer root).run (ctxs, s) (Machine.others k received)).1 j)
      ∧ Machine.others k ((imapServer root).outputs (ctxs, s) received)
          = (imapServer root).outputs (ctxs, s) (Machine.others k received)
      ∧ ∀ root' : JString → LStore σ, ∀ s', Machine.own k ((imapServer root).outputs (ctxs, s) received)
          = (imapCommandHandler root').outputs (ctxs k, s') (Machine.own k received) := by
  obtain ⟨hserver, hctxs, hout⟩ := (hidden_of_store_none root).run_others h
  refine ⟨hserver, hctxs, hout, fun root' s' => ?_⟩
  obtain ⟨hrun, hown⟩ := (hidden_of_store_none root).run_own h s'
  rw [imapServer, hown]
  refine (Machine.run_congr (hidden_of_store_none root).back (fun ctx s r hstore => ?_) (hrun ▸ h)).2
  exact step_congr root root' (fun u hu => absurd (hstore.symm.trans hu) nofun) s r

/-- Whatever the connections send, in any order, no method of an `lStore` is called but of those that `LOGIN` got for a
connection: with any other objects for all other users, the run and the answers are the same. -/
theorem server_congr (root' : JString → LStore σ) (ctxs : κ → MailContext) (s : σ) (received : List (κ × Received))
    (h : ∀ k u, (((imapServer root).run (ctxs, s) received).1 k).store = some u → root u = root' u) :
    (imapServer root).run (ctxs, s) received = (imapServer root').run (ctxs, s) received
      ∧ (imapServer root).outputs (ctxs, s) received = (imapServer root').outputs (ctxs, s) received := by
  refine Machine.interleave_congr (Q := fun ctx => ∀ u, ctx.store = some u → root u = root' u) ?_ ?_ h
  · intro ctx s r hnext u hu
    exact hnext u (store_kept r.env hu root r.cmd s)
  · intro ctx s r hctx
    exact step_congr root root' hctx s r

end server

/-- The commands of two connections: the one that is not logged in selects the inbox of the other. -/
def twoConnections : List (Bool × Received) :=
  [(true, ⟨.stub, ⟨"a".toList, "LOGIN".toList, [.atom "av".toList, .number 123 "123".toList], none, 0⟩⟩),
    (false, ⟨.stub, ⟨"b".toList, "SELECT".toList, [.atom "inbox".toList], none, 0⟩⟩),
    (true, ⟨.stub, ⟨"c".toList, "SELECT".toList, [.atom "inbox".toList], none, 0⟩⟩)]

/-- The connection without a `LOGIN` is hidden. -/
theorem unauthenticated_hidden_two :
    ((imapServer fun _ => LStore.stub).run (fun _ => .new, 10) twoConnections).2
        = ((imapServer fun _ => LStore.stub).run (fun _ => .new, 10) (Machine.others false twoConnections)).2
      ∧ (∀ j, j ≠ false → ((imapServer fun _ => LStore.stub).run (fun _ => .new, 10) twoConnections).1 j
          = ((imapServer fun _ => LStore.stub).run (fun _ => .new, 10) (Machine.others false twoConnections)).1 j)
      ∧ Machine.others false ((imapServer fun _ => LStore.stub).outputs (fun _ => .new, 10) twoConnections)
          = (imapServer fun _ => LStore.stub).outputs (fun _ => .new, 10) (Machine.others false twoConnections)
      ∧ ∀ root' : JString → LStore ℤ, ∀ s',
          Machine.own false ((imapServer fun _ => LStore.stub).outputs (fun _ => .new, 10) twoConnections)
            = (imapCommandHandler root').outputs (.new, s') (Machine.own false twoConnections) :=
  unauthenticated_hidden (fun _ => .stub) false (fun _ => .new) 10 twoConnections (by rfl)

/-- The stores of all users but one are empty. -/
def otherStores (u : JString) : LStore ℤ :=
  if u = "av".toList then .stub else { LStore.stub with getListFolder := fun _ => [], getFolder := fun _ _ => none }

/-- What the `lStore` of any other user does makes no difference to the two connections. -/
theorem server_congr_two :
    (imapServer fun _ => LStore.stub).run (fun _ => .new, 10) twoConnections
        = (imapServer otherStores).run (fun _ => .new, 10) twoConnections
      ∧ (imapServer fun _ => LStore.stub).outputs (fun _ => .new, 10) twoConnections
        = (imapServer otherStores).outputs (fun _ => .new, 10) twoConnections := by
  refine server_congr _ _ _ _ _ fun k u h => ?_
  have hnames : (((imapServer fun _ => LStore.stub).run (fun _ => .new, 10) twoConnections).1 k).store
      = if k then some "av".toList else none := by cases k <;> rfl
  rw [hnames] at h
  split_ifs at h
  exact (if_pos (Option.some.inj h).symm).symm

end OrgLittle.Imap
