import OrgLittle.Java.LetterCase
import OrgLittle.Lib.Machine
import OrgLittle.MailWeb.FolderDB
import OrgLittle.Util.Base64

/-!
# Alarms for certificates that expire

`alarmSender.work` selects the certificates that expire soon and have no alarm yet, puts one message for
each of them into a queue, and marks each as done. The mark does not depend on the put, whose failure
`send` keeps to itself, and `setSend` keeps a failed mark to itself too. The alarms are right in every run
in which a certificate is marked just when its put succeeds; where no mark fails, that is needed as well
(`alarmsCorrect_of_agree`).
-/

namespace OrgLittle.MailWeb

open OrgLittle.Java OrgLittle.Lmsg OrgLittle.Lib OrgLittle.Lib.Sql OrgLittle.Util

/-! ## The queries -/

/-- `a <= b` on columns that may be `NULL`. -/
def sqlLe (a b : Option Date) : Bool :=
  match a, b with
  | some a, some b => a ≤ b
  | _, _ => false

/-- The condition of `querySelectX509ALARMID`. -/
def X509Row.isAlarm (alarm current : Date) (row : X509Row) : Bool :=
  row.dateRL.isNone && row.dateFR.isNone && row.isCertificate && sqlLe row.beginDate (some current)
    && sqlLe (some current) row.endDate && sqlLe row.endDate (some alarm)

/-- `loadArrayAlarm`: the rows of the result, up to one whose contents are no base64 text or, if the query fails, up to
the row where it does. -/
def Database.loadArrayAlarm (alarm current : Date) (fails : Option ℕ) (db : Database) : List X509Row :=
  let rows := (db.x509.filter (·.isAlarm alarm current)).takeWhile fun row =>
    (Base64.base64ToByteArray row.bin).isOk
  fails.elim rows rows.take

/-- `setSend`. -/
def Database.setSend (now : Date) (x509Id : ℤ) (db : Database) : Database :=
  { db with
    x509 := updateWhere (fun row => decide (row.x509Id = x509Id) && row.isCertificate)
      (fun row => { row with dateFR := some now }) db.x509 }

/-! ## `alarmSender` -/

/-- The loop of `send` over the components of the subject, which looks at the whole subject every time. -/
def uicLoop (user : JString) : List JString → Except JavaException JString
  | [] => .ok []
  | _ :: fld =>
    match split "=".toList user with
    | [] => .error .indexOutOfBounds
    | key :: f =>
      if equalsIgnoreCase "OU".toList key then
        match f with
        | [] => .error .indexOutOfBounds
        | uic :: _ => .ok uic
      else uicLoop user fld

/-- The part of `send` before the queue: the addressee of the alarm. -/
def alarmUic (subject : Option JString) : Except JavaException JString :=
  match subject with
  | none => .error .nullPointer
  | some user => uicLoop user (split ", ".toList user)

/-- A put that was tried for the alarm of a certificate, whether it succeeded, and whether the mark behind it was
executed. -/
structure Attempt where
  x509Id : ℤ
  uic : JString
  succeeded : Bool
  marked : Bool

/-- The circumstances of one `work`: the two times of the query and the row at which it fails, the time of the marks,
which puts succeed, and which marks are executed. -/
structure WorkEnv where
  current : Date
  alarm : Date
  queryFails : Option ℕ
  now : Date
  putSucceeds : ℕ → Bool
  markSucceeds : ℕ → Bool

/-- The loop of `work`, from the `i`-th certificate on. An exception of `send` ends it. -/
def workLoop (isSendAlarm : Bool) (env : WorkEnv) (db : Database) :
    ℕ → List X509Row → Database × List Attempt
  | _, [] => (db, [])
  | i, row :: rows =>
    match alarmUic row.subject with
    | .error _ => (db, [])
    | .ok uic =>
      let sent := if isSendAlarm then [⟨row.x509Id, uic, env.putSucceeds i, env.markSucceeds i⟩] else []
      let db := if env.markSucceeds i then db.setSend env.now row.x509Id else db
      let r := workLoop isSendAlarm env db (i + 1) rows
      (r.1, sent ++ r.2)

/-- `work`. -/
def work (isSendAlarm : Bool) (env : WorkEnv) (db : Database) : Database × List Attempt :=
  workLoop isSendAlarm env db 0 (db.loadArrayAlarm env.alarm env.current env.queryFails)

/-- What happens to the archive: a `work` of the alarm sender, or a message that is saved; a statement may fail. -/
inductive ArchiveEvent
  | work (env : WorkEnv)
  | save (fail : Option Statement) (msg : Message)

/-- The archive, with the puts that are tried as its outputs. -/
def alarmSender (isSendAlarm : Bool) : Machine Database ArchiveEvent Attempt where
  step db event :=
    match event with
    | .work env => work isSendAlarm env db
    | .save fail msg => ((save fail db msg).db, [])

/-! ## Marks and attempts -/

/-- The alarm of this certificate is marked as sent. -/
def Marked (db : Database) (x509Id : ℤ) : Prop :=
  ∃ row ∈ db.x509, row.x509Id = x509Id ∧ row.isCertificate = true ∧ row.dateFR.isSome = true

/-- The certificate is in the archive, without a mark. -/
def Pending (db : Database) (x509Id : ℤ) : Prop :=
  ∃ row ∈ db.x509, row.x509Id = x509Id ∧ row.isCertificate = true ∧ row.dateFR = none

/-- The marks are those that were there at the start and those of the attempts, and no certificate has another attempt
behind one that was marked. -/
structure AlarmInv (db₀ db : Database) (attempts : List Attempt) : Prop where
  wf : db.WF
  marked : ∀ x509Id,
    Marked db x509Id ↔ Marked db₀ x509Id ∨ ∃ a ∈ attempts, a.x509Id = x509Id ∧ a.marked = true
  new : ∀ a ∈ attempts, ¬ Marked db₀ a.x509Id
  last : attempts.Pairwise fun a b => a.x509Id = b.x509Id → a.marked = false

/-- What is pending has no mark, as the number of a row is its own. -/
theorem Pending.not_marked {db : Database} (hdb : db.WF) {x509Id : ℤ} (h : Pending db x509Id) :
    ¬ Marked db x509Id := by
  rintro ⟨row', hrow', hid', -, hmark⟩
  obtain ⟨row, hrow, hid, -, hnone⟩ := h
  rw [hdb.row_unique hrow' hrow (hid'.trans hid.symm), hnone] at hmark
  exact absurd hmark (by simp)

/-! ## One mark -/

section setSend

variable {db : Database} (now : Date) {x509Id : ℤ}

theorem mem_setSend {row : X509Row} :
    row ∈ (db.setSend now x509Id).x509 ↔ ∃ row' ∈ db.x509,
      (if (decide (row'.x509Id = x509Id) && row'.isCertificate) = true then
        { row' with dateFR := some now } else row') = row :=
  mem_updateWhere

/-- Marking keeps the numbers. -/
theorem setSend_wf (hdb : db.WF) : (db.setSend now x509Id).WF := by
  refine ⟨hdb.seq, fun row hrow => ?_, ?_, hdb.serialR⟩
  · obtain ⟨row', hrow', rfl⟩ := (mem_setSend now).mp hrow
    have hid := hdb.x509 row' hrow'
    split_ifs <;> exact hid
  · have hids : (db.setSend now x509Id).x509.map (·.x509Id) = db.x509.map (·.x509Id) :=
      map_updateWhere (·.x509Id) _ (fun row => { row with dateFR := some now }) (fun _ => rfl) db.x509
    rw [hids]
    exact hdb.unique

/-- The certificate gets the mark. -/
theorem marked_setSend_self (h : Pending db x509Id) : Marked (db.setSend now x509Id) x509Id := by
  obtain ⟨row, hrow, hid, hcert, -⟩ := h
  refine ⟨{ row with dateFR := some now }, (mem_setSend now).mpr ⟨row, hrow, ?_⟩, hid, hcert, rfl⟩
  rw [if_pos (by simp [hid, hcert])]

/-- Other certificates keep their marks. -/
theorem marked_setSend_of_ne {id : ℤ} (hne : id ≠ x509Id) :
    Marked (db.setSend now x509Id) id ↔ Marked db id := by
  constructor
  · rintro ⟨row, hrow, hid, hcert, hmark⟩
    obtain ⟨row', hrow', rfl⟩ := (mem_setSend now).mp hrow
    split_ifs at hid hcert hmark with hself
    · have hself : row'.x509Id = x509Id := by simp_all
      exact absurd (hid.symm.trans hself) hne
    · exact ⟨row', hrow', hid, hcert, hmark⟩
  · rintro ⟨row, hrow, hid, hcert, hmark⟩
    refine ⟨row, (mem_setSend now).mpr ⟨row, hrow, if_neg ?_⟩, hid, hcert, hmark⟩
    simp [hid, hne]

theorem pending_setSend_of_ne {id : ℤ} (hne : id ≠ x509Id) (h : Pending db id) :
    Pending (db.setSend now x509Id) id := by
  obtain ⟨row, hrow, hid, hcert, hnone⟩ := h
  refine ⟨row, (mem_setSend now).mpr ⟨row, hrow, if_neg ?_⟩, hid, hcert, hnone⟩
  simp [hid, hne]

/-- One turn of the loop: a certificate without a mark gets an attempt, and a mark if that is executed. -/
theorem AlarmInv.attempt {db₀ : Database} {attempts : List Attempt} (h : AlarmInv db₀ db attempts)
    {a : Attempt} (hpending : Pending db a.x509Id) :
    AlarmInv db₀ (if a.marked then db.setSend now a.x509Id else db) (attempts ++ [a]) := by
  have hunmarked := hpending.not_marked h.wf
  rw [h.marked, not_or] at hunmarked
  have hnew : ∀ b ∈ attempts ++ [a], ¬ Marked db₀ b.x509Id := by
    intro b hb
    rcases List.mem_append.mp hb with hb | hb
    · exact h.new b hb
    · rw [List.mem_singleton.mp hb]
      exact hunmarked.1
  have hlast : (attempts ++ [a]).Pairwise fun b c => b.x509Id = c.x509Id → b.marked = false := by
    rw [List.pairwise_append]
    refine ⟨h.last, List.pairwise_singleton _ _, fun b hb c hc hid => ?_⟩
    rw [List.mem_singleton.mp hc] at hid
    exact Bool.eq_false_iff.mpr fun hmarked => hunmarked.2 ⟨b, hb, hid, hmarked⟩
  cases hmark : a.marked with
  | false =>
    refine ⟨h.wf, fun id => ?_, hnew, hlast⟩
    have hsame : (∃ b ∈ attempts ++ [a], b.x509Id = id ∧ b.marked = true)
        ↔ ∃ b ∈ attempts, b.x509Id = id ∧ b.marked = true := by simp [hmark]
    rw [hsame]
    exact h.marked id
  | true =>
    refine ⟨setSend_wf now h.wf, fun id => ?_, hnew, hlast⟩
    rw [if_pos rfl]
    by_cases hid : id = a.x509Id
    · subst hid
      exact iff_of_true (marked_setSend_self now hpending) (Or.inr ⟨a, by simp, rfl, hmark⟩)
    · have hsame : (∃ b ∈ attempts ++ [a], b.x509Id = id ∧ b.marked = true)
          ↔ ∃ b ∈ attempts, b.x509Id = id ∧ b.marked = true := by simp [Ne.symm hid]
      rw [marked_setSend_of_ne now hid, h.marked, hsame]

end setSend

/-! ## One `work` -/

/-- By induction on the rows: a row is attempted, and then it is marked or the loop has ended. -/
theorem AlarmInv.workLoop {db₀ : Database} (env : WorkEnv) {rows : List X509Row}
    (honce : (rows.map (·.x509Id)).Nodup) {db : Database} {attempts : List Attempt}
    (h : AlarmInv db₀ db attempts) (hrows : ∀ row ∈ rows, Pending db row.x509Id) (i : ℕ) :
    AlarmInv db₀ (MailWeb.workLoop true env db i rows).1
      (attempts ++ (MailWeb.workLoop true env db i rows).2) := by
  induction rows generalizing db attempts i with
  | nil => simpa [MailWeb.workLoop] using h
  | cons row rows ih =>
    rw [MailWeb.workLoop]
    rw [List.map_cons, List.nodup_cons] at honce
    rcases alarmUic row.subject with e | uic
    · simpa using h
    · -- the rows that are left are still without a mark
      have hrest : ∀ row' ∈ rows,
          Pending (if env.markSucceeds i then db.setSend env.now row.x509Id else db) row'.x509Id := by
        intro row' hrow'
        have hne : row'.x509Id ≠ row.x509Id := fun heq =>
          honce.1 (List.mem_map.mpr ⟨row', hrow', heq⟩)
        have hpending := hrows row' (List.mem_cons_of_mem row hrow')
        split_ifs
        · exact pending_setSend_of_ne env.now hne hpending
        · exact hpending
      have hattempt := h.attempt (a := ⟨row.x509Id, uic, env.putSucceeds i, env.markSucceeds i⟩) env.now
        (hrows row List.mem_cons_self)
      have hloop := ih honce.2 hattempt hrest (i + 1)
      rw [List.append_assoc] at hloop
      exact hloop

/-- The loop works on the rows that are due, in their order. -/
theorem loadArrayAlarm_sublist (alarm current : Date) (fails : Option ℕ) (db : Database) :
    (db.loadArrayAlarm alarm current fails).Sublist (db.x509.filter (·.isAlarm alarm current)) := by
  cases fails with
  | none => exact List.takeWhile_sublist _
  | some n => exact (List.take_sublist n _).trans (List.takeWhile_sublist _)

/-- The certificates that are selected have no mark, and each is selected once. -/
theorem loadArrayAlarm_pending (alarm current : Date) (fails : Option ℕ) (db : Database) :
    ∀ row ∈ db.loadArrayAlarm alarm current fails, Pending db row.x509Id := by
  intro row hrow
  have hmem := (loadArrayAlarm_sublist alarm current fails db).subset hrow
  obtain ⟨hrow, halarm⟩ := List.mem_filter.mp hmem
  simp only [X509Row.isAlarm, Bool.and_eq_true, Option.isNone_iff_eq_none] at halarm
  exact ⟨row, hrow, rfl, halarm.1.1.1.2, halarm.1.1.1.1.2⟩

/-- No row comes twice. -/
theorem loadArrayAlarm_nodup {db : Database} (hdb : db.WF) (alarm current : Date) (fails : Option ℕ) :
    ((db.loadArrayAlarm alarm current fails).map (·.x509Id)).Nodup := by
  have hsub := (loadArrayAlarm_sublist alarm current fails db).trans List.filter_sublist
  exact hdb.unique.sublist (hsub.map _)

/-! ## One `save` -/

/-- A row without a mark changes no mark. -/
theorem marked_insertX509 (db : Database) (msg : Message) (x509Id : ℤ) :
    Marked (db.insertX509 msg) x509Id ↔ Marked db x509Id := by
  unfold Marked Database.insertX509
  simp only [List.mem_append, List.mem_singleton, or_and_right, exists_or, exists_eq_left, setX509_dateFR,
    Option.isSome_none, Bool.false_eq_true, and_false, or_false]

/-- A revocation list changes no mark. -/
theorem marked_updateRL (db : Database) (date : Option Date) (serial : JString) (x509Id : ℤ) :
    Marked (db.updateRL date serial) x509Id ↔ Marked db x509Id := by
  constructor
  · rintro ⟨row, hrow, hid, hcert, hmark⟩
    obtain ⟨row', hrow', rfl⟩ := mem_updateWhere.mp hrow
    refine ⟨row', hrow', ?_⟩
    split_ifs at hid hcert hmark <;> exact ⟨hid, hcert, hmark⟩
  · rintro ⟨row, hrow, hid, hcert, hmark⟩
    refine ⟨_, mem_updateWhere.mpr ⟨row, hrow, rfl⟩, ?_⟩
    split_ifs <;> exact ⟨hid, hcert, hmark⟩

theorem marked_saveSerials (fail : Option Statement) (msg : Message) (x509Id : ℤ) (serials : List JString)
    (db : Database) (i : ℕ) :
    Marked (saveSerials fail msg db i serials).1 x509Id ↔ Marked db x509Id := by
  induction serials generalizing db i with
  | nil => rfl
  | cons serial serials ih =>
    rw [saveSerials]
    dsimp only
    split_ifs
    · rfl
    · rfl
    · rw [ih, marked_updateRL]
      rfl

/-- `save` changes no mark, also when it is stopped. -/
theorem marked_save (fail : Option Statement) (db : Database) (msg : Message) (x509Id : ℤ) :
    Marked (save fail db msg).db x509Id ↔ Marked db x509Id := by
  have heml : ∀ (msg : Message) (db : Database),
      Marked (saveEml fail msg db).db x509Id ↔ Marked db x509Id := by
    intro msg db
    rw [saveEml]
    split_ifs <;> rfl
  have hserial : ∀ (msg : Message) (db : Database),
      Marked (saveSerialX509 fail msg db).1 x509Id ↔ Marked db x509Id := by
    intro msg db
    rw [saveSerialX509]
    split_ifs
    · rfl
    · exact marked_saveSerials fail msg x509Id _ db 0
  rw [save]
  dsimp only
  split_ifs
  · rfl
  · rfl
  · rfl
  · rw [heml, hserial, marked_insertX509]
    rfl
  · rw [hserial, marked_insertX509]
    rfl
  · exact heml _ db

/-- Archiving a message between two rounds changes no mark. -/
theorem AlarmInv.save {db₀ db : Database} {attempts : List Attempt} (h : AlarmInv db₀ db attempts)
    (fail : Option Statement) (msg : Message) : AlarmInv db₀ (MailWeb.save fail db msg).db attempts := by
  refine ⟨save_wf h.wf fail msg, fun x509Id => ?_, h.new, h.last⟩
  rw [marked_save]
  exact h.marked x509Id

/-! ## Runs -/

/-- Every step keeps the invariant, whatever the puts and the statements do. -/
theorem AlarmInv.step {db₀ db : Database} {attempts : List Attempt} (h : AlarmInv db₀ db attempts)
    (event : ArchiveEvent) :
    AlarmInv db₀ ((alarmSender true).step db event).1
      (attempts ++ ((alarmSender true).step db event).2) := by
  cases event with
  | work env =>
    exact h.workLoop env (loadArrayAlarm_nodup h.wf env.alarm env.current env.queryFails)
      (loadArrayAlarm_pending env.alarm env.current env.queryFails db) 0
  | save fail msg => simpa [alarmSender] using h.save fail msg

/-- Any rounds and any archiving in between. -/
theorem AlarmInv.run {db : Database} (hdb : db.WF) (events : List ArchiveEvent) :
    AlarmInv db ((alarmSender true).run db events) ((alarmSender true).outputs db events) := by
  have hinit : AlarmInv db db [] := ⟨hdb, by simp, by simp, by simp⟩
  have halong : (alarmSender true).Along (fun _ _ => True) db events :=
    Machine.along_of_forall db fun _ _ => trivial
  have hstep : ∀ s attempts event, AlarmInv db s attempts → True →
      AlarmInv db ((alarmSender true).step s event).1
        (attempts ++ ((alarmSender true).step s event).2) :=
    fun _ _ event h _ => h.step event
  have hrun := halong.outputs_invariant hstep hinit
  rwa [List.nil_append] at hrun

/-- After the run, every mark that was not there at the start stands for an alarm that was put
successfully, and no certificate has two such alarms. -/
structure AlarmsCorrect (db : Database) (events : List ArchiveEvent) : Prop where
  truthful : ∀ x509Id, Marked ((alarmSender true).run db events) x509Id → Marked db x509Id
    ∨ ∃ a ∈ (alarmSender true).outputs db events, a.x509Id = x509Id ∧ a.succeeded = true
  once : ((((alarmSender true).outputs db events).filter (·.succeeded)).map (·.x509Id)).Nodup

/-- Alarms are neither lost nor repeated in a run in which the mark of a certificate is executed just when its put
succeeds. In a run whose marks are all executed, that is the only way: every put has to succeed. -/
theorem alarmsCorrect_of_agree {db : Database} (hdb : db.WF) (events : List ArchiveEvent) :
    ((∀ a ∈ (alarmSender true).outputs db events, a.marked = a.succeeded) → AlarmsCorrect db events)
      ∧ ((∀ a ∈ (alarmSender true).outputs db events, a.marked = true) →
        (AlarmsCorrect db events ↔ ∀ a ∈ (alarmSender true).outputs db events, a.succeeded = true)) := by
  have hinv := AlarmInv.run hdb events
  have hagree : (∀ a ∈ (alarmSender true).outputs db events, a.marked = a.succeeded) →
      AlarmsCorrect db events := by
    intro h
    refine ⟨fun x509Id hmarked => ?_, ?_⟩
    · rcases (hinv.marked x509Id).mp hmarked with hold | ⟨a, ha, hid, hmark⟩
      · exact Or.inl hold
      · exact Or.inr ⟨a, ha, hid, (h a ha).symm.trans hmark⟩
    · rw [List.Nodup, List.pairwise_map, List.pairwise_filter]
      refine hinv.last.imp_of_mem fun {a b} ha _ hlast hsucceeded _ hid => ?_
      have hmark := hlast hid
      rw [h a ha, hsucceeded] at hmark
      cases hmark
  refine ⟨hagree, fun hmarks => ⟨fun h a ha => ?_, fun h => hagree fun a ha => ?_⟩⟩
  · -- the certificate of the attempt is marked, and its only attempt is this one
    have hmarked := (hinv.marked a.x509Id).mpr (Or.inr ⟨a, ha, rfl, hmarks a ha⟩)
    have honce : (((alarmSender true).outputs db events).map (·.x509Id)).Nodup := by
      rw [List.Nodup, List.pairwise_map]
      refine hinv.last.imp_of_mem fun {a b} ha _ hlast hid => ?_
      rw [hmarks a ha] at hlast
      cases hlast hid
    rcases h.truthful a.x509Id hmarked with hold | ⟨b, hb, hid, hsucceeded⟩
    · exact absurd hold (hinv.new a ha)
    · rw [← List.inj_on_of_nodup_map honce hb ha hid]
      exact hsucceeded
  · rw [hmarks a ha, h a ha]

/-- An archive with one certificate, which is valid from day `1` to day `9`. -/
def oneCertificate : Database where
  seq := 1002
  eml := []
  x509 := [⟨1000, some X509_CERTIFICATE, some "PEM".toList, some 1, some 9, "5".toList,
    some "OU=4511111111, CN=a".toList, some "CN=ca".toList, "MIIB".toList, none, none⟩]
  serialR := []

theorem oneCertificate_wf : oneCertificate.WF := by
  constructor <;> simp [oneCertificate]

/-- The put and the mark for the certificate fail, the next `work` tries again with success, and the third finds nothing
to do. -/
theorem alarmsCorrect_two_works :
    AlarmsCorrect oneCertificate [.work ⟨5, 10, none, 5, fun _ => false, fun _ => false⟩,
      .work ⟨6, 11, none, 6, fun _ => true, fun _ => true⟩, .work ⟨7, 12, none, 7, fun _ => true, fun _ => true⟩] :=
  (alarmsCorrect_of_agree oneCertificate_wf _).1 (by decide)

/-- The put fails, and the certificate is marked nevertheless. -/
theorem not_alarmsCorrect_put_fails :
    ¬ ∀ (db : Database) (events : List ArchiveEvent), db.WF → AlarmsCorrect db events := by
  intro h
  have hcorrect := h oneCertificate [.work ⟨5, 10, none, 5, fun _ => false, fun _ => true⟩] oneCertificate_wf
  have hmarked :
      Marked ((alarmSender true).run oneCertificate [.work ⟨5, 10, none, 5, fun _ => false, fun _ => true⟩]) 1000 :=
    ⟨_, List.mem_cons_self, by decide, by decide, by decide⟩
  rcases hcorrect.truthful 1000 hmarked with ⟨row, hrow, -, -, hmark⟩ | ⟨a, ha, -, hsucceeded⟩
  · rw [List.mem_singleton.mp hrow] at hmark
    exact absurd hmark (by decide)
  · rw [List.mem_singleton.mp ha] at hsucceeded
    exact absurd hsucceeded (by decide)

end OrgLittle.MailWeb
