import OrgLittle.Lmsg.Eml
import OrgLittle.Smtp.CommandOrder

/-!
# The recipients of a letter

`RCPT` collects the recipients of a transaction, and nothing reads them: at the end of the mail text every
attachment is saved for the recipients that the header of the letter names. `delivers_iff` says for which
letters these are the same.
-/

namespace OrgLittle.Smtp

open OrgLittle.Java OrgLittle.Lib OrgLittle.Lmsg

/-! ## The recipients of a transaction -/

/-- The argument of `addTo`. -/
def rcptArgument (parameters : List JString) : JString := parameters.flatMap fun p => p ++ [' ']

/-- The arguments of the `RCPT` commands that were accepted since the last `MAIL`. -/
def rcptNext (args : List JString) (s : SmtpSessionContext) (l : Line) : List JString :=
  match acceptedCommand s l.frame with
  | some ⟨.MAIL, _⟩ => []
  | some ⟨.RCPT, parameters⟩ => args ++ [rcptArgument parameters]
  | _ => args

/-- The session with the arguments of `RCPT`. -/
def transaction (cfg : CommonSMTP) : Machine (SmtpSessionContext × List JString) Line Event :=
  (handler cfg).withHistory rcptNext

/-- The forward path of the transaction is what was made of these arguments. -/
def Collected (cfg : CommonSMTP) (p : SmtpSessionContext × List JString) : Prop :=
  ∀ mailTx, p.1.mailTransaction = some mailTx → mailTx.forwardPath = p.2.map (Path.parse cfg)

/-- An accepted command. -/
theorem collected_accepted {cfg : CommonSMTP} (hproxy : cfg.isProxy = false) {s : SmtpSessionContext}
    {args : List JString} {l : Line} {req : SmtpRequest} (h : acceptedCommand s l.frame = some req)
    (hs : Collected cfg (s, args)) :
    Collected cfg ((channelRead cfg l.env s l.frame).session, rcptNext args s l) := by
  intro mailTx hmail
  rw [channelRead_accepted_mailTransaction hproxy l.env h] at hmail
  simp only [rcptNext, h]
  rcases req with ⟨command, parameters⟩
  cases command with
  | MAIL =>
    cases parameters with
    | nil =>
      rw [← Option.some.inj hmail]
      rfl
    | cons arg rest =>
      rw [← Option.some.inj hmail]
      rfl
  | RCPT =>
    obtain ⟨mailTx', hm, rfl⟩ := Option.map_eq_some_iff.mp hmail
    rw [SmtpMailTransaction.addTo, List.map_append, ← hs mailTx' hm]
    rfl
  | DATA =>
    obtain ⟨mailTx', hm, rfl⟩ := Option.map_eq_some_iff.mp hmail
    exact hs mailTx' hm
  | HELO | EHLO | RSET => cases hmail
  | STLS =>
    simp only [nextTransaction] at hmail
    split_ifs at hmail
    exact hs mailTx hmail
  | _ => exact hs mailTx hmail

theorem collected_step {cfg : CommonSMTP} (hproxy : cfg.isProxy = false)
    (p : SmtpSessionContext × List JString) (l : Line) (h : Collected cfg p) :
    Collected cfg ((transaction cfg).step p l).1 := by
  obtain ⟨s, args⟩ := p
  show Collected cfg ((channelRead cfg l.env s l.frame).session, rcptNext args s l)
  cases hacc : acceptedCommand s l.frame with
  | some req => exact collected_accepted hproxy hacc h
  | none =>
    have hargs : rcptNext args s l = args := by rw [rcptNext, hacc]
    rw [hargs]
    intro mailTx hmail
    by_cases hcontent : s.mailContent = none
    · rcases channelRead_not_accepted hproxy l.env hcontent hacc with
        ⟨fault, hr⟩ | ⟨reply, hr⟩ | ⟨auth, -, -, auth', checked, reply, hr, -⟩
      all_goals
        rw [hr] at hmail
        exact h mailTx hmail
    · obtain ⟨mailTx', parameters, hs⟩ := eq_inData hcontent
      rw [hs] at hmail h
      by_cases hdot : unstuff l.frame = [DOT]
      · rw [channelRead_end cfg l.env s mailTx' parameters l.frame hdot] at hmail
        cases hmail
      · rw [channelRead_text cfg l.env s mailTx' parameters l.frame hdot] at hmail
        rw [← Option.some.inj hmail]
        exact h { mailTx' with mailContent := some ⟨parameters⟩ } rfl

/-- In every session the transaction collects the arguments of `RCPT`. -/
theorem collected_run {cfg : CommonSMTP} (hproxy : cfg.isProxy = false) (lines : List Line) :
    Collected cfg ((transaction cfg).run (.channelActive cfg, []) lines) := by
  refine Machine.Along.run_invariant (C := fun _ _ => True) (fun p l h _ => collected_step hproxy p l h)
    (Machine.along_of_forall _ fun _ _ => trivial) ?_
  intro mailTx hmail
  cases hmail

/-- The mailbox that the argument of an `RCPT` names: what stands in angle brackets, behind the route if there is one;
without brackets, which the command accepts too, the first word behind `TO:`. -/
def Path.mailbox (argument : JString) : JString :=
  match argument.dropWhile (· ≠ '<') with
  | _ :: rest =>
    let path := rest.takeWhile (· ≠ '>')
    if path.head? = some '@' then (path.dropWhile (· ≠ ':')).tail else path
  | [] =>
    let path := if equalsIgnoreCase (argument.take 3) "TO:".toList then argument.drop 3 else argument
    (path.dropWhile (· = ' ')).takeWhile (· ≠ ' ')

/-- The user of the mailbox. -/
def Path.localUser (argument : JString) : JString := ELM2lMessage.getLocalUser (Path.mailbox argument)

example : Path.localUser "TO:<@a,@b:u@d> ".toList = ['u'] ∧ Path.localUser "to: u@d ".toList = ['u'] := by decide

/-! ## The messages that are saved -/

/-- The parsers of a letter and of its attachments: JavaMail, the X.509 libraries, the clock and the source
of identifiers. -/
structure MailReader where
  mimeMessage : List UInt8 → Option MimeMessage
  lib : X509Library
  now : Date
  nowX509 : Date × Date
  newID : JString

namespace MailReader

/-- `ELM2lMessage.parse` of the bytes. -/
def attachments (mail : MailReader) (bytes : List UInt8) : Option (List Message) :=
  (mail.mimeMessage bytes).bind (ELM2lMessage.parse mail.now mail.newID)

/-- `lMessageX509.parse` returns the message. (The attachments of a letter share the list of serial numbers,
which no parser reads.) -/
def isX509 (mail : MailReader) (msg : Message) : Bool := (parse mail.lib mail.nowX509 msg).2

/-- What the delivery reads of a message. -/
def letter (msg : Message) : LMessage := ⟨Message.textOf msg.from_, msg.to_⟩

/-- The surroundings of the session, with these parsers. -/
def env (mail : MailReader) (env : Env) : Env :=
  { env with
    parseEml := fun bytes => (mail.attachments bytes).map
      (List.map fun msg => if mail.isX509 msg then some (letter msg) else none)
    parseX509 := some }

end MailReader

/-- One `folder.save(msg)`, where `index` is the place of the message among the attachments. -/
structure Save where
  store : JString
  folder : JString
  index : ℕ
  msg : LMessage
deriving DecidableEq

/-- What is seen of it. -/
def Save.event (v : Save) : Event := .save v.store v.folder v.msg

/-- The saves of one message. -/
def Content.savesOf (env : Env) (index : ℕ) (msg : LMessage) : List Save :=
  (msg.to_.filter fun store => env.hasFolder store "INBOX".toList).map
      (fun store => ⟨store, "INBOX".toList, index, msg⟩)
    ++ if env.hasFolder msg.from_ "OUTBOX".toList then [⟨msg.from_, "OUTBOX".toList, index, msg⟩] else []

/-- The saves of one attachment. -/
def Content.savesAt (mail : MailReader) (env : Env) (msg : Message × ℕ) : List Save :=
  if mail.isX509 msg.1 then Content.savesOf env msg.2 (MailReader.letter msg.1) else []

/-- The saves of all attachments. -/
def Content.saves (mail : MailReader) (env : Env) (msgs : List Message) : List Save :=
  msgs.zipIdx.flatMap (Content.savesAt mail env)

theorem savesOf_event (env : Env) (index : ℕ) (msg : LMessage) :
    (Content.savesOf env index msg).map Save.event = Content.deliver env msg := by
  rw [Content.savesOf, Content.deliver, List.map_append, List.map_map]
  congr 1
  split_ifs <;> rfl

/-- `processCommand` saves these messages, and answers 250 if the bytes are a letter with attachments. -/
theorem processCommand_saves (cfg : CommonSMTP) (mail : MailReader) (env : Env) {parameters : List JString}
    {msgs : List Message} (s : SmtpSessionContext)
    (h : mail.attachments (Content.bytes cfg parameters) = some msgs) :
    (Content.processCommand cfg (mail.env env) parameters s).events
      = (Content.saves mail env msgs).map Save.event ++ [.reply (SmtpResponse.line 250 "OK")] := by
  have hdeliver : ∀ (msgs : List Message) (k : ℕ),
      ((msgs.map fun msg => if mail.isX509 msg then some (MailReader.letter msg) else none).filterMap
        fun msg => msg.bind (mail.env env).parseX509).flatMap (Content.deliver (mail.env env))
      = ((msgs.zipIdx k).flatMap (Content.savesAt mail env)).map Save.event := by
    intro msgs
    induction msgs with
    | nil => intro k; rfl
    | cons msg msgs ih =>
      intro k
      rw [List.zipIdx_cons, List.flatMap_cons, List.map_append, ← ih (k + 1), List.map_cons,
        Content.savesAt]
      split_ifs
      · rw [savesOf_event]
        rfl
      · rfl
  have hparse : (mail.env env).parseEml (Content.bytes cfg parameters)
      = some (msgs.map fun msg => if mail.isX509 msg then some (MailReader.letter msg) else none) := by
    show (mail.attachments _).map _ = _
    rw [h, Option.map_some]
  simp only [Content.processCommand, hparse]
  rw [hdeliver msgs 0, Content.saves]

/-- A content without attachments is not answered 250. -/
theorem not_mem_reply_of_none {cfg : CommonSMTP} (hproxy : cfg.isProxy = false) (mail : MailReader)
    (env : Env) {s : SmtpSessionContext} {content : Content} {frame : List UInt8}
    (hcontent : s.mailContent = some content) (hend : unstuff frame = [DOT])
    (h : mail.attachments (Content.bytes cfg content.parameters) = none) :
    .reply (SmtpResponse.line 250 "OK") ∉ (channelRead cfg (mail.env env) s frame).events := by
  have hparse : (mail.env env).parseEml (Content.bytes cfg content.parameters) = none := by
    show (mail.attachments _).map _ = _
    rw [h, Option.map_none]
  have hevents : (Content.processCommand cfg (mail.env env) content.parameters s).events
      = [] ++ [.reply (SmtpResponse.line 450 "FAILED")] := by
    simp only [Content.processCommand, hparse, List.nil_append]
  rw [channelRead_end_events hproxy _ hcontent hend hevents]
  decide

/-! ## Which stores receive a letter -/

theorem countP_savesOf (env : Env) (index i : ℕ) (msg : LMessage) (store : JString) :
    (Content.savesOf env index msg).countP
        (fun v => v.store = store ∧ v.folder = "INBOX".toList ∧ v.index = i)
      = if index = i ∧ env.hasFolder store "INBOX".toList then msg.to_.count store else 0 := by
  have hne : "OUTBOX".toList ≠ "INBOX".toList := by decide
  have hout : ∀ b : Bool, (if b then [(⟨msg.from_, "OUTBOX".toList, index, msg⟩ : Save)] else []).countP
      (fun v => v.store = store ∧ v.folder = "INBOX".toList ∧ v.index = i) = 0 := by
    intro b
    refine List.countP_eq_zero.mpr fun v hv hfolder => ?_
    cases b with
    | false => cases hv
    | true =>
      rw [if_pos rfl, List.mem_singleton] at hv
      rw [hv] at hfolder
      exact hne (of_decide_eq_true hfolder).2.1
  rw [Content.savesOf, List.countP_append, hout, Nat.add_zero, List.countP_map, List.countP_filter]
  -- from here on the name of the folder does not matter
  generalize "INBOX".toList = inbox
  by_cases hindex : index = i
  · by_cases hfolder : env.hasFolder store inbox = true
    · rw [if_pos ⟨hindex, hfolder⟩, List.count]
      refine List.countP_congr fun x _ => ?_
      by_cases hx : x = store
      · simpa [hx, hindex] using hfolder
      · simp [hx]
    · rw [if_neg fun hc => hfolder hc.2, List.countP_eq_zero]
      intro x _ hx
      simp only [Function.comp, Bool.and_eq_true, decide_eq_true_eq] at hx
      exact hfolder (hx.1.1 ▸ hx.2)
  · rw [if_neg fun hc => hindex hc.1, List.countP_eq_zero]
    intro x _ hx
    simp only [Function.comp, Bool.and_eq_true, decide_eq_true_eq] at hx
    exact hindex hx.1.2.2

theorem countP_savesAt (mail : MailReader) (env : Env) (msg : Message × ℕ) (store : JString) (i : ℕ) :
    (Content.savesAt mail env msg).countP
        (fun v => v.store = store ∧ v.folder = "INBOX".toList ∧ v.index = i)
      = if msg.2 = i then
          if mail.isX509 msg.1 ∧ env.hasFolder store "INBOX".toList then msg.1.to_.count store else 0
        else 0 := by
  rw [Content.savesAt]
  split_ifs with hx hi hfolder hi hfolder
  · rw [countP_savesOf, if_pos ⟨hi, hfolder.2⟩]
    rfl
  · rw [countP_savesOf, if_neg fun hc => hfolder ⟨hx, hc.2⟩]
  · rw [countP_savesOf, if_neg fun hc => hi hc.1]
  · exact absurd hfolder.1 hx
  · rfl
  · rfl

/-- A sum over a numbered list to which only one number contributes. -/
theorem sum_zipIdx_ite {α : Type} (g : α → ℕ) (l : List α) (k i : ℕ) :
    ((l.zipIdx k).map fun p => if p.2 = i then g p.1 else 0).sum
      = if k ≤ i then (l[i - k]?.map g).getD 0 else 0 := by
  induction l generalizing k with
  | nil => simp
  | cons a l ih =>
    rw [List.zipIdx_cons, List.map_cons, List.sum_cons, ih (k + 1)]
    rcases Nat.lt_trichotomy k i with hlt | rfl | hgt
    · have hsub : i - k = i - (k + 1) + 1 := by omega
      rw [if_neg (by omega), if_pos (by omega), if_pos (by omega), hsub, List.getElem?_cons_succ,
        Nat.zero_add]
    · rw [if_pos rfl, if_neg (by omega), if_pos (Nat.le_refl k), Nat.sub_self]
      rfl
    · rw [if_neg (by omega), if_neg (by omega), if_neg (by omega)]

/-- How often an attachment is saved for a store: as often as the store is named, if the attachment is an X.509
file. -/
theorem countP_saves (mail : MailReader) (env : Env) (msgs : List Message) (store : JString) {i : ℕ}
    (hi : i < msgs.length) :
    (Content.saves mail env msgs).countP
        (fun v => v.store = store ∧ v.folder = "INBOX".toList ∧ v.index = i)
      = if mail.isX509 msgs[i] ∧ env.hasFolder store "INBOX".toList then msgs[i].to_.count store
        else 0 := by
  rw [Content.saves, List.countP_flatMap]
  simp only [Function.comp_def, countP_savesAt]
  rw [sum_zipIdx_ite (fun msg => if mail.isX509 msg ∧ env.hasFolder store "INBOX".toList
    then msg.to_.count store else 0), if_pos (Nat.zero_le i), Nat.sub_zero, List.getElem?_eq_getElem hi]
  rfl

/-- Which stores receive something. -/
theorem mem_saves (mail : MailReader) (env : Env) (msgs : List Message) (store : JString) :
    (∃ v ∈ Content.saves mail env msgs, v.store = store ∧ v.folder = "INBOX".toList)
      ↔ ∃ msg ∈ msgs, mail.isX509 msg ∧ store ∈ msg.to_ ∧ env.hasFolder store "INBOX".toList := by
  constructor
  · rintro ⟨v, hv, rfl, hfolder⟩
    obtain ⟨⟨msg, index⟩, hmem, hv⟩ := List.mem_flatMap.mp hv
    rw [Content.savesAt] at hv
    split_ifs at hv with hx
    · refine ⟨msg, List.fst_mem_of_mem_zipIdx hmem, hx, ?_⟩
      rcases List.mem_append.mp hv with hv | hv
      · obtain ⟨store, hstore, rfl⟩ := List.mem_map.mp hv
        exact List.mem_filter.mp hstore
      · split_ifs at hv
        · rw [List.mem_singleton.mp hv] at hfolder
          exact absurd (show "OUTBOX".toList = "INBOX".toList from hfolder) (by decide)
        · cases hv
    · cases hv
  · rintro ⟨msg, hmem, hx, hstore, hfolder⟩
    obtain ⟨i, hi, rfl⟩ := List.getElem_of_mem hmem
    have hcount := countP_saves mail env msgs store hi
    rw [if_pos ⟨hx, hfolder⟩] at hcount
    have hpos : 0 < msgs[i].to_.count store := List.count_pos_iff.mpr hstore
    rw [← hcount, List.countP_pos_iff] at hpos
    obtain ⟨v, hv, hv'⟩ := hpos
    have hv' := of_decide_eq_true hv'
    exact ⟨v, hv, hv'.1, hv'.2.1⟩

/-! ## Delivery to the envelope -/

/-- The letter was delivered to the recipients of the transaction: the stores whose inbox received it are those
of the recipients that have an inbox, and each of them got every attachment once. -/
structure DeliversToEnvelope (env : Env) (rcpts : List JString) (count : ℕ) (saves : List Save) : Prop where
  stores : ∀ store, (∃ v ∈ saves, v.store = store ∧ v.folder = "INBOX".toList)
    ↔ store ∈ rcpts ∧ env.hasFolder store "INBOX".toList
  once : ∀ store ∈ rcpts, env.hasFolder store "INBOX".toList → ∀ i < count,
    saves.countP (fun v => v.store = store ∧ v.folder = "INBOX".toList ∧ v.index = i) = 1

/-- None of these users has an inbox. -/
def NoInbox (env : Env) (users : List JString) : Prop :=
  ∀ store ∈ users, env.hasFolder store "INBOX".toList = false

/-- Of the users with an inbox, the header names those of the envelope, each once. -/
structure SameInboxes (env : Env) (rcpts header : List JString) : Prop where
  nodup : (header.filter fun store => env.hasFolder store "INBOX".toList).Nodup
  same : ∀ store, env.hasFolder store "INBOX".toList → (store ∈ header ↔ store ∈ rcpts)

theorem nodup_filter_iff {α : Type} [BEq α] [LawfulBEq α] (p : α → Bool) (l : List α) :
    (l.filter p).Nodup ↔ ∀ a, p a → l.count a ≤ 1 := by
  rw [List.nodup_iff_count_le_one]
  constructor
  · intro h a ha
    rw [← List.count_filter ha]
    exact h a
  · intro h a
    by_cases ha : p a = true
    · rw [List.count_filter ha]
      exact h a ha
    · rw [List.count_eq_zero_of_not_mem fun hmem => ha (List.mem_filter.mp hmem).2]
      exact Nat.zero_le 1

section header

variable {mail : MailReader} {env : Env} {rcpts header : List JString} {msgs : List Message}

theorem received_iff (hto : ∀ msg ∈ msgs, msg.to_ = header) (store : JString) :
    (∃ v ∈ Content.saves mail env msgs, v.store = store ∧ v.folder = "INBOX".toList)
      ↔ (∃ msg ∈ msgs, mail.isX509 msg = true) ∧ store ∈ header
        ∧ env.hasFolder store "INBOX".toList := by
  rw [mem_saves]
  constructor
  · rintro ⟨msg, hmsg, hx, hstore, hfolder⟩
    exact ⟨⟨msg, hmsg, hx⟩, hto msg hmsg ▸ hstore, hfolder⟩
  · rintro ⟨⟨msg, hmsg, hx⟩, hstore, hfolder⟩
    exact ⟨msg, hmsg, hx, (hto msg hmsg).symm ▸ hstore, hfolder⟩

theorem countP_saves_header (hto : ∀ msg ∈ msgs, msg.to_ = header) (store : JString) {i : ℕ}
    (hi : i < msgs.length) :
    (Content.saves mail env msgs).countP
        (fun v => v.store = store ∧ v.folder = "INBOX".toList ∧ v.index = i)
      = if mail.isX509 msgs[i] ∧ env.hasFolder store "INBOX".toList then header.count store else 0 := by
  rw [countP_saves mail env msgs store hi, hto _ (List.getElem_mem hi)]

/-- A delivery without a recipient that has an inbox saves nothing there. -/
theorem quiet_of_noInbox (hto : ∀ msg ∈ msgs, msg.to_ = header) (hnone : NoInbox env rcpts)
    (h : DeliversToEnvelope env rcpts msgs.length (Content.saves mail env msgs)) :
    NoInbox env header ∨ ∀ msg ∈ msgs, mail.isX509 msg = false := by
  by_cases hx : ∃ msg ∈ msgs, mail.isX509 msg = true
  · refine Or.inl fun store hstore => ?_
    by_contra hfolder
    have hrcpt := (h.stores store).mp ((received_iff hto store).mpr ⟨hx, hstore, by simpa using hfolder⟩)
    exact hfolder (hnone store hrcpt.1)
  · refine Or.inr fun msg hmsg => ?_
    by_contra hx'
    exact hx ⟨msg, hmsg, by simpa using hx'⟩

/-- A delivery to a recipient with an inbox: the recipient got every attachment, and so did those of the
header. -/
theorem sameInboxes_of_delivers (hmsgs : msgs ≠ []) (hto : ∀ msg ∈ msgs, msg.to_ = header)
    (hsome : ¬ NoInbox env rcpts)
    (h : DeliversToEnvelope env rcpts msgs.length (Content.saves mail env msgs)) :
    SameInboxes env rcpts header ∧ ∀ msg ∈ msgs, mail.isX509 msg = true := by
  obtain ⟨rcpt, hrcpt, hfolder⟩ : ∃ store ∈ rcpts, env.hasFolder store "INBOX".toList = true := by
    simpa only [NoInbox, not_forall, Bool.not_eq_false, exists_prop] using hsome
  have hx : ∀ msg ∈ msgs, mail.isX509 msg = true := by
    intro msg hmsg
    obtain ⟨i, hi, rfl⟩ := List.getElem_of_mem hmsg
    have honce := h.once rcpt hrcpt hfolder i hi
    rw [countP_saves_header hto rcpt hi] at honce
    by_contra hx
    rw [if_neg fun hc => hx hc.1] at honce
    cases honce
  have hlen : 0 < msgs.length := List.length_pos_iff.mpr hmsgs
  have hfirst := List.getElem_mem hlen
  have hsame : ∀ store, env.hasFolder store "INBOX".toList → (store ∈ header ↔ store ∈ rcpts) := by
    intro store hstore
    have hstores := (received_iff hto store).symm.trans (h.stores store)
    exact ⟨fun hh => (hstores.mp ⟨⟨_, hfirst, hx _ hfirst⟩, hh, hstore⟩).1,
      fun hr => (hstores.mpr ⟨hr, hstore⟩).2.1⟩
  refine ⟨⟨(nodup_filter_iff _ _).mpr fun store hstore => ?_, hsame⟩, hx⟩
  by_cases hr : store ∈ rcpts
  · have honce := h.once store hr hstore 0 hlen
    rw [countP_saves_header hto store hlen, if_pos ⟨hx _ hfirst, hstore⟩] at honce
    exact Nat.le_of_eq honce
  · rw [List.count_eq_zero_of_not_mem fun hh => hr ((hsame store hstore).mp hh)]
    exact Nat.zero_le 1

theorem delivers_of_noInbox (hto : ∀ msg ∈ msgs, msg.to_ = header) (hnone : NoInbox env rcpts)
    (hquiet : NoInbox env header ∨ ∀ msg ∈ msgs, mail.isX509 msg = false) :
    DeliversToEnvelope env rcpts msgs.length (Content.saves mail env msgs) := by
  have habsent : ∀ store ∈ rcpts, ¬ env.hasFolder store "INBOX".toList = true := by
    intro store hstore hfolder
    rw [hnone store hstore] at hfolder
    cases hfolder
  refine ⟨fun store => ?_, fun store hstore hfolder => absurd hfolder (habsent store hstore)⟩
  rw [received_iff hto]
  constructor
  · rintro ⟨⟨msg, hmsg, hx⟩, hstore, hfolder⟩
    rcases hquiet with hquiet | hquiet
    · rw [hquiet store hstore] at hfolder
      cases hfolder
    · rw [hquiet msg hmsg] at hx
      cases hx
  · rintro ⟨hstore, hfolder⟩
    exact absurd hfolder (habsent store hstore)

theorem delivers_of_sameInboxes (hmsgs : msgs ≠ []) (hto : ∀ msg ∈ msgs, msg.to_ = header)
    (hsame : SameInboxes env rcpts header) (hx : ∀ msg ∈ msgs, mail.isX509 msg = true) :
    DeliversToEnvelope env rcpts msgs.length (Content.saves mail env msgs) := by
  refine ⟨fun store => ?_, fun store hstore hfolder i hi => ?_⟩
  · rw [received_iff hto]
    constructor
    · rintro ⟨-, hstore, hfolder⟩
      exact ⟨(hsame.same store hfolder).mp hstore, hfolder⟩
    · rintro ⟨hstore, hfolder⟩
      obtain ⟨msg, hmsg⟩ := List.exists_mem_of_ne_nil msgs hmsgs
      exact ⟨⟨msg, hmsg, hx msg hmsg⟩, (hsame.same store hfolder).mpr hstore, hfolder⟩
  · rw [countP_saves_header hto store hi, if_pos ⟨hx _ (List.getElem_mem hi), hfolder⟩]
    have hpos : 0 < header.count store :=
      List.count_pos_iff.mpr ((hsame.same store hfolder).mpr hstore)
    have hle := (nodup_filter_iff _ _).mp hsame.nodup store hfolder
    omega

end header

/-- A certificate of which everything can be read. -/
def plainCertificate : CertificateHolder :=
  ⟨.ok (.ok ['1']), .ok (.ok ['i']), .ok (.ok ['s']), .ok 0, .ok 0⟩

/-- A letter from `a` to this address, with one certificate attached. -/
def certificateLetter (address : JString) : MimeMessage :=
  ⟨.ok (some [['a']]), .ok (some [address]), .ok none, .ok none, .ok none, .single (some ['c']) (.ok [1])⟩

/-- Parsers for which every text is that letter. -/
def certificateFor (address : JString) : MailReader where
  mimeMessage _ := some (certificateLetter address)
  lib := ⟨fun _ => .ok (some X509_CERTIFICATE), fun _ => .ok (.certificate plainCertificate),
    fun _ => .error .nullPointer, fun _ => .error .nullPointer, fun _ => .error .nullPointer, 0, fun _ => []⟩
  now := 0
  nowX509 := (0, 0)
  newID := []

/-- The messages of the letter. -/
def certificateMessages (address : JString) : List Message :=
  (ELM2lMessage.parse 0 [] (certificateLetter address)).getD []

/-- A server without authentication. -/
def openServer : CommonSMTP := ⟨false, false, Charset.latin1⟩

/-- Everybody has every folder. -/
def allFolders : Env := { Env.stub with hasFolder := fun _ _ => true }

/-- A transaction with the recipient `u`, up to the mail text. -/
def rcptU : List Line :=
  [.ofString "MAIL FROM:<a@d>", .ofString "RCPT TO:<u@d>", .ofString "DATA"]

/-- The session before the end of the mail text, and the arguments of `RCPT`. -/
def beforeEnd : SmtpSessionContext × List JString :=
  (transaction openServer).run (.channelActive openServer, []) rcptU

end OrgLittle.Smtp
