import OrgLittle.Lib.Machine
import OrgLittle.Lmsg.Message

/-!
# The body of an `lMessage` and its views

A message keeps its attachment four times: as bytes, as base64 text, as base64 text in lines, and by its
size. `setBodyBin` and `setBodyBin64` write all four, but `set`, and with it `clone` and the copy
constructor, copies only the bytes and the size. `views_agree_iff` says in which runs the four agree.
-/

namespace OrgLittle.Lmsg

open OrgLittle.Java OrgLittle.Lib OrgLittle.Util

/-! ## The message -/

/-- A message with its base64 text in lines, `body_bin_txt76`. -/
structure BodyMessage extends Message where
  bodyBin76 : JString
deriving DecidableEq

/-- The loop of `setBodyBin76`: only a line of full length is ended. -/
def lines76 (body_bin_txt : JString) : JString :=
  if body_bin_txt = [] then []
  else
    body_bin_txt.take 76 ++ (if (body_bin_txt.take 76).length = 76 then "\r\n".toList else [])
      ++ lines76 (body_bin_txt.drop 76)
termination_by body_bin_txt.length
decreasing_by
  rename_i hne
  rw [List.length_drop]
  have hpos := List.length_pos_iff.mpr hne
  omega

namespace BodyMessage

/-- `new lMessage()` at the time `now`. -/
def new (now : Date) : BodyMessage := ⟨Message.new now, []⟩

/-- `setBodyBin76`. -/
def setBodyBin76 (m : BodyMessage) : BodyMessage := { m with bodyBin76 := lines76 m.bodyBin64 }

/-- `setBodyBin`. -/
def setBodyBin (b : Option (List UInt8)) (m : BodyMessage) : BodyMessage :=
  match b with
  | none => { m with bodyBin := none, bodyBin64 := [], bodyBin76 := [], size := 0 }
  | some b =>
    setBodyBin76 { m with bodyBin := some b, size := b.length, bodyBin64 := Base64.byteArrayToBase64 b }

/-- `setBodyBin64`: the message afterwards, and whether it throws. The text is stored before it is decoded. -/
def setBodyBin64 (b : Option JString) (m : BodyMessage) : BodyMessage × Except JavaException Unit :=
  match b with
  | none => (m.setBodyBin none, .ok ())
  | some b =>
    let m := { m with bodyBin64 := b }
    match Base64.base64ToByteArray b with
    | .error e => (m, .error e)
    | .ok bytes => ({ setBodyBin76 { m with bodyBin := some bytes } with size := bytes.length }, .ok ())

/-- `this.set(m)`. -/
def set (this m : BodyMessage) : BodyMessage :=
  { this with
    from_ := m.from_
    to_ := m.to_
    id := m.id
    subject := m.subject
    filename := m.filename
    createDate := m.createDate
    sentDate := m.sentDate
    receiveDate := m.receiveDate
    delDate := m.delDate
    size := m.size
    bodyTxt := m.bodyTxt
    bodyBin := m.bodyBin
    x509Type := m.x509Type
    x509TypeFile := m.x509TypeFile
    x509BeginDate := m.x509BeginDate
    x509EndDate := m.x509EndDate
    x509Serial := m.x509Serial
    x509Subject := m.x509Subject
    x509Issuer := m.x509Issuer }

/-- `clone`, and also the copy constructor, at the time `now`. -/
def clone (now : Date) (m : BodyMessage) : BodyMessage := (new now).set m

/-- What the archive copies is what `clone` copies. -/
theorem clone_toMessage (now : Date) (m : BodyMessage) :
    (m.clone now).toMessage = Message.copy now m.toMessage := rfl

end BodyMessage

/-! ## The views -/

/-- The lines of a text: what stands between its CRLFs. -/
def crlfLines : JString → List JString
  | [] => [[]]
  | '\r' :: '\n' :: s => [] :: crlfLines s
  | c :: s =>
    match crlfLines s with
    | [] => [[c]]
    | line :: lines => (c :: line) :: lines

/-- The views of the body agree. -/
structure BodyMessage.Agrees (m : BodyMessage) : Prop where
  /-- `getBodyBin64` is the base64 text of `getBodyBin`. -/
  base64 : m.bodyBin64 = m.bodyBin.elim [] Base64.byteArrayToBase64
  /-- `getBodyBin76` without its CRLFs is `getBodyBin64`. -/
  joined : (crlfLines m.bodyBin76).flatten = m.bodyBin64
  /-- The lines of `getBodyBin76` are short. -/
  short : ∀ line ∈ crlfLines m.bodyBin76, line.length ≤ 76
  /-- `getSize` is the length of `getBodyBin`. -/
  size : m.size = m.bodyBin.elim 0 fun b => (b.length : ℤ)

theorem crlfLines_append_CRLF {line : JString} (hline : '\r' ∉ line) (s : JString) :
    crlfLines (line ++ '\r' :: '\n' :: s) = line :: crlfLines s := by
  induction line with
  | nil => rfl
  | cons c line ih =>
    rw [List.mem_cons, not_or] at hline
    rw [List.cons_append, crlfLines, ih hline.2]
    exact fun t hc => (hline.1 hc.symm).elim

theorem crlfLines_single {line : JString} (hline : '\r' ∉ line) : crlfLines line = [line] := by
  induction line with
  | nil => rfl
  | cons c line ih =>
    rw [List.mem_cons, not_or] at hline
    rw [crlfLines, ih hline.2]
    exact fun t hc => (hline.1 hc.symm).elim

/-- The lines of a text that has none of its own. -/
theorem crlfLines_lines76 {s : JString} (hs : '\r' ∉ s) :
    (crlfLines (lines76 s)).flatten = s ∧ ∀ line ∈ crlfLines (lines76 s), line.length ≤ 76 := by
  fun_induction lines76 s with
  | case1 => simp [crlfLines]
  | case2 s hne ih =>
    have htake : '\r' ∉ s.take 76 := fun h => hs (List.mem_of_mem_take h)
    have hlen : (s.take 76).length ≤ 76 := List.length_take_le 76 s
    obtain ⟨hflat, hshort⟩ := ih fun h => hs (List.mem_of_mem_drop h)
    split_ifs with hfull
    · have hlines : crlfLines (s.take 76 ++ "\r\n".toList ++ lines76 (s.drop 76))
          = s.take 76 :: crlfLines (lines76 (s.drop 76)) := by
        rw [List.append_assoc]
        exact crlfLines_append_CRLF htake _
      rw [hlines]
      refine ⟨?_, List.forall_mem_cons.mpr ⟨hlen, hshort⟩⟩
      rw [List.flatten_cons, hflat, List.take_append_drop]
    · have hdrop : s.drop 76 = [] := by
        rw [List.drop_eq_nil_iff]
        rw [List.length_take] at hfull
        omega
      have hall : s.take 76 = s := by rw [← List.append_nil (s.take 76), ← hdrop, List.take_append_drop]
      have hlines : crlfLines (s.take 76 ++ [] ++ lines76 (s.drop 76)) = [s] := by
        rw [hdrop, lines76, if_pos rfl, List.append_nil, List.append_nil, hall]
        exact crlfLines_single hs
      rw [hlines]
      exact ⟨List.append_nil s, List.forall_mem_singleton.mpr (hall ▸ hlen)⟩

theorem not_mem_byteArrayToBase64 (bytes : List UInt8) : '\r' ∉ Base64.byteArrayToBase64 bytes :=
  fun h => Base64.forall_mem_byteArrayToBase64 (P := (· ≠ '\r')) (List.all_iff_forall_prop.mp (by decide))
    (by decide) bytes '\r' h rfl

namespace BodyMessage

theorem agrees_new (now : Date) : (new now).Agrees := ⟨rfl, rfl, by simp [new, crlfLines], rfl⟩

theorem agrees_setBodyBin (b : Option (List UInt8)) (m : BodyMessage) : (m.setBodyBin b).Agrees := by
  cases b with
  | none => exact ⟨rfl, rfl, by simp [setBodyBin, crlfLines], rfl⟩
  | some b =>
    obtain ⟨hflat, hshort⟩ := crlfLines_lines76 (not_mem_byteArrayToBase64 b)
    exact ⟨rfl, hflat, hshort, rfl⟩

/-- The bytes of the body, none for `null`. -/
def bytes (m : BodyMessage) : List UInt8 := m.bodyBin.getD []

theorem Agrees.base64_eq {m : BodyMessage} (h : m.Agrees) :
    m.bodyBin64 = Base64.byteArrayToBase64 m.bytes := by
  rw [h.base64, bytes]
  cases m.bodyBin <;> rfl

/-- A text keeps the views together exactly if it is the base64 text of some bytes. -/
theorem agrees_setBodyBin64_iff (m : BodyMessage) (b : JString) :
    (m.setBodyBin64 (some b)).1.Agrees ↔ ∃ bytes, b = Base64.byteArrayToBase64 bytes := by
  constructor
  · intro hagrees
    refine ⟨(m.setBodyBin64 (some b)).1.bytes, ?_⟩
    rw [← hagrees.base64_eq, setBodyBin64]
    split <;> rfl
  · rintro ⟨bytes, rfl⟩
    rw [setBodyBin64]
    simp only [Base64.base64ToByteArray_byteArrayToBase64]
    exact agrees_setBodyBin (some bytes) m

/-- `set` keeps the views together exactly if the bytes do not change. -/
theorem agrees_after_set_iff {this m : BodyMessage} (hthis : this.Agrees) (hm : m.Agrees) :
    (this.set m).Agrees ↔ this.bytes = m.bytes := by
  constructor
  · intro hagrees
    have htext : this.bodyBin64 = Base64.byteArrayToBase64 m.bytes := hagrees.base64_eq
    rw [hthis.base64_eq] at htext
    exact Base64.byteArrayToBase64_injective htext
  · intro hbytes
    refine ⟨?_, hthis.joined, hthis.short, hm.size⟩
    show this.bodyBin64 = _
    rw [hthis.base64_eq, hbytes, ← hm.base64_eq]
    exact hm.base64

theorem bytes_new (now : Date) : (new now).bytes = [] := rfl

end BodyMessage

/-! ## Runs -/

/-- What is done with the messages of a program; a message is named by its place. -/
inductive BodyOp
  | create (now : Date)
  | copy (now : Date) (m : ℕ)
  | clone (now : Date) (m : ℕ)
  | set (this m : ℕ)
  | setBodyBin (this : ℕ) (b : Option (List UInt8))
  | setBodyBin64 (this : ℕ) (b : Option JString)
deriving DecidableEq

/-- One operation on the messages, and what it throws. -/
def BodyOp.step (ms : List BodyMessage) : BodyOp → List BodyMessage × List JavaException
  | create now => (ms ++ [BodyMessage.new now], [])
  | copy now m => (ms ++ (ms[m]?.map (BodyMessage.clone now)).toList, [])
  | clone now m => (ms ++ (ms[m]?.map (BodyMessage.clone now)).toList, [])
  | set this m =>
    match ms[this]?, ms[m]? with
    | some target, some source => (ms.set this (target.set source), [])
    | _, _ => (ms, [])
  | setBodyBin this b =>
    match ms[this]? with
    | some target => (ms.set this (target.setBodyBin b), [])
    | none => (ms, [])
  | setBodyBin64 this b =>
    match ms[this]? with
    | some target =>
      (ms.set this (target.setBodyBin64 b).1,
        match (target.setBodyBin64 b).2 with
        | .ok _ => []
        | .error e => [e])
    | none => (ms, [])

/-- The messages of a program under these operations. -/
def bodyMachine : Machine (List BodyMessage) BodyOp JavaException := ⟨BodyOp.step⟩

/-- The views of every message agree. -/
def AllAgree (ms : List BodyMessage) : Prop := ∀ m ∈ ms, m.Agrees

/-- The operations that keep the views together: only messages without bytes are copied, a message is set to
one with the same bytes, and a text that is set is the base64 text of some bytes. -/
def BodyOp.KeepsViews (ms : List BodyMessage) : BodyOp → Prop
  | create _ => True
  | copy _ m => ∀ source ∈ ms[m]?, source.bytes = []
  | clone _ m => ∀ source ∈ ms[m]?, source.bytes = []
  | set this m => ∀ target ∈ ms[this]?, ∀ source ∈ ms[m]?, target.bytes = source.bytes
  | setBodyBin _ _ => True
  | setBodyBin64 this b =>
    this < ms.length → ∀ text ∈ b, ∃ bytes, text = Base64.byteArrayToBase64 bytes

theorem allAgree_concat_iff {ms : List BodyMessage} (h : AllAgree ms) (m : BodyMessage) :
    AllAgree (ms ++ [m]) ↔ m.Agrees := by
  rw [AllAgree, List.forall_mem_append, List.forall_mem_singleton]
  exact and_iff_right h

theorem allAgree_set_iff {ms : List BodyMessage} (h : AllAgree ms) {i : ℕ} (hi : i < ms.length)
    (m : BodyMessage) : AllAgree (ms.set i m) ↔ m.Agrees := by
  refine ⟨fun hset => hset m (List.mem_set hi m), fun hm x hx => ?_⟩
  rcases List.mem_or_eq_of_mem_set hx with hold | rfl
  · exact h x hold
  · exact hm

theorem allAgree_copied_iff {ms : List BodyMessage} (h : AllAgree ms) (now : Date) (m : ℕ) :
    AllAgree (ms ++ (ms[m]?.map (BodyMessage.clone now)).toList)
      ↔ ∀ source ∈ ms[m]?, source.bytes = [] := by
  cases hsource : ms[m]? with
  | none => simpa using h
  | some source =>
    have hagrees := h source (List.mem_of_getElem? hsource)
    simp only [Option.map_some, Option.toList_some, Option.mem_some_iff, forall_eq']
    rw [allAgree_concat_iff h, BodyMessage.clone,
      BodyMessage.agrees_after_set_iff (BodyMessage.agrees_new now) hagrees, BodyMessage.bytes_new, eq_comm]

theorem allAgree_step_iff {ms : List BodyMessage} (h : AllAgree ms) (op : BodyOp) :
    AllAgree (bodyMachine.step ms op).1 ↔ op.KeepsViews ms := by
  simp only [bodyMachine]
  cases op with
  | create now => exact iff_of_true ((allAgree_concat_iff h _).mpr (BodyMessage.agrees_new now)) trivial
  | copy now m => exact allAgree_copied_iff h now m
  | clone now m => exact allAgree_copied_iff h now m
  | set this m =>
    cases htarget : ms[this]? with
    | none => simpa [BodyOp.step, BodyOp.KeepsViews, htarget] using h
    | some target =>
      cases hsource : ms[m]? with
      | none => simpa [BodyOp.step, BodyOp.KeepsViews, htarget, hsource] using h
      | some source =>
        obtain ⟨hi, -⟩ := List.getElem?_eq_some_iff.mp htarget
        simp only [BodyOp.step, BodyOp.KeepsViews, htarget, hsource, Option.mem_some_iff, forall_eq']
        rw [allAgree_set_iff h hi, BodyMessage.agrees_after_set_iff (h target (List.mem_of_getElem? htarget))
          (h source (List.mem_of_getElem? hsource))]
  | setBodyBin this b =>
    refine iff_of_true ?_ trivial
    cases htarget : ms[this]? with
    | none => simpa [BodyOp.step, htarget] using h
    | some target =>
      obtain ⟨hi, -⟩ := List.getElem?_eq_some_iff.mp htarget
      simp only [BodyOp.step, htarget]
      exact (allAgree_set_iff h hi _).mpr (BodyMessage.agrees_setBodyBin b target)
  | setBodyBin64 this b =>
    cases htarget : ms[this]? with
    | none =>
      have hi := List.getElem?_eq_none_iff.mp htarget
      simp only [BodyOp.step, BodyOp.KeepsViews, htarget]
      exact iff_of_true h fun hlt => absurd hi (Nat.not_le.mpr hlt)
    | some target =>
      obtain ⟨hi, -⟩ := List.getElem?_eq_some_iff.mp htarget
      simp only [BodyOp.step, BodyOp.KeepsViews, htarget]
      rw [allAgree_set_iff h hi, forall_prop_of_true hi]
      cases b with
      | none => exact iff_of_true (BodyMessage.agrees_setBodyBin none target) nofun
      | some b =>
        rw [BodyMessage.agrees_setBodyBin64_iff]
        simp only [Option.mem_some_iff, forall_eq']

/-- The views of all messages agree in every state of a run exactly if every operation of it keeps them
together. -/
theorem views_agree_iff (ops : List BodyOp) :
    bodyMachine.Along (fun ms op => AllAgree (bodyMachine.step ms op).1) [] ops
      ↔ bodyMachine.Along (fun ms op => op.KeepsViews ms) [] ops :=
  Machine.along_congr_of_kept (fun ms op (h : AllAgree ms) hkeeps => (allAgree_step_iff h op).mpr hkeeps)
    (fun _ op h => allAgree_step_iff h op) (List.forall_mem_nil _) ops

/-- A copy of a message with one byte has the byte, and no text for it. -/
theorem views_not_agree_clone :
    ¬ ∀ ops : List BodyOp, AllAgree (bodyMachine.run [] ops) := by
  intro h
  have hrun := h [.create 0, .setBodyBin 0 (some [65]), .clone 0 0]
  have hclone : ((BodyMessage.new 0).setBodyBin (some [65])).clone 0
      ∈ bodyMachine.run [] [.create 0, .setBodyBin 0 (some [65]), .clone 0 0] := by
    show _ ∈ [_, ((BodyMessage.new 0).setBodyBin (some [65])).clone 0]
    exact List.mem_cons_of_mem _ List.mem_cons_self
  exact absurd (hrun _ hclone).base64 (by decide)

end OrgLittle.Lmsg
