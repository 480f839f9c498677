import OrgLittle.Imap.FetchNames

/-!
# What `FETCH` answers

A message is shown by a response with its sequence number and with every item that was asked for. `answers_iff` says
for which commands and folders just the selected messages are shown.
-/

namespace OrgLittle.Imap

open OrgLittle.Java OrgLittle.Lmsg OrgLittle.Util FetchCommand

/-! ## The request of a command -/

section fold

variable {items : List DataItem}

/-- A field that is set by some items and never cleared. -/
theorem foldl_true_iff (proj : FetchRequest → Bool) {P : DataItem → Prop}
    (h : ∀ fetch item, proj (DataItem.apply fetch item) = true ↔ proj fetch = true ∨ P item) (fetch : FetchRequest) :
    proj (items.foldl DataItem.apply fetch) = true ↔ proj fetch = true ∨ ∃ item ∈ items, P item := by
  induction items generalizing fetch with
  | nil => simp
  | cons item items ih => rw [List.foldl_cons, ih, h, or_assoc, List.exists_mem_cons_iff]

/-- The items with a field of their own. -/
def FetchAtt.IsPlain : FetchAtt → Prop
  | uid | flags | rfc822Size | internaldate | envelope | bodystructure => True
  | _ => False

theorem field_apply_iff {a : FetchAtt} (ha : a.IsPlain) (fetch : FetchRequest) (item : DataItem) :
    a.field (item.apply fetch) = true ↔ a.field fetch = true ∨ a ∈ item.atts := by
  have hsection (peek : Bool) (v : JString) :
      a.field ((if peek then Branch.BODY_PEEK else Branch.BODY).set v fetch) = a.field fetch := by
    cases peek <;> cases a <;> rfl
  match item with
  | .att (.bodySection peek spec octets) =>
    rw [DataItem.apply, DataItem.branch, FetchAtt.branch, hsection, DataItem.atts, List.mem_singleton]
    refine (or_iff_left ?_).symm
    rintro rfl
    exact ha
  | .all | .full | .fast | .att .envelope | .att .flags | .att .internaldate | .att .rfc822 | .att .rfc822Header
  | .att .rfc822Size | .att .rfc822Text | .att .body | .att .bodystructure | .att .uid =>
    cases a <;> first
      | exact ha.elim
      | simp [FetchAtt.field, DataItem.apply, DataItem.branch, FetchAtt.branch, Branch.set, setSection, DataItem.atts]

theorem body_peek_apply_iff (fetch : FetchRequest) (item : DataItem) :
    (item.apply fetch).body_peek = true
      ↔ fetch.body_peek = true ∨ ∃ spec octets, .bodySection true spec octets ∈ item.atts := by
  match item with
  | .att (.bodySection peek spec octets) =>
    cases peek <;> simp [DataItem.apply, DataItem.branch, FetchAtt.branch, Branch.set, setSection, DataItem.atts]
  | .all | .full | .fast | .att .envelope | .att .flags | .att .internaldate | .att .rfc822 | .att .rfc822Header
  | .att .rfc822Size | .att .rfc822Text | .att .body | .att .bodystructure | .att .uid =>
    simp [DataItem.apply, DataItem.branch, FetchAtt.branch, Branch.set, setSection, DataItem.atts]

theorem body_apply_iff (fetch : FetchRequest) (item : DataItem) :
    (item.apply fetch).body = true
      ↔ fetch.body = true ∨ (.body ∈ item.atts ∨ ∃ spec octets, .bodySection false spec octets ∈ item.atts) := by
  match item with
  | .att (.bodySection peek spec octets) =>
    cases peek <;> simp [DataItem.apply, DataItem.branch, FetchAtt.branch, Branch.set, setSection, DataItem.atts]
  | .all | .full | .fast | .att .envelope | .att .flags | .att .internaldate | .att .rfc822 | .att .rfc822Header
  | .att .rfc822Size | .att .rfc822Text | .att .body | .att .bodystructure | .att .uid =>
    simp [DataItem.apply, DataItem.branch, FetchAtt.branch, Branch.set, setSection, DataItem.atts]

/-- The section is that of the last `BODY` item. -/
theorem body_section_apply {item : DataItem} (h : FetchAtt.body ∉ item.atts) (fetch : FetchRequest) :
    (∃ peek spec octets, item = .att (.bodySection peek spec octets) ∧ (item.apply fetch).body_section
        = (StringParser.getList (FetchAtt.bodySection peek spec octets).gathered separators)[1]?)
      ∨ (∀ peek spec octets, item ≠ .att (.bodySection peek spec octets))
        ∧ (item.apply fetch).body_section = fetch.body_section := by
  match item with
  | .att (.bodySection peek spec octets) =>
    refine .inl ⟨peek, spec, octets, rfl, ?_⟩
    cases peek <;> rfl
  | .att .body => exact absurd (List.mem_singleton_self _) h
  | .all | .full | .fast | .att .envelope | .att .flags | .att .internaldate | .att .rfc822 | .att .rfc822Header
  | .att .rfc822Size | .att .rfc822Text | .att .bodystructure | .att .uid => exact .inr ⟨nofun, rfl⟩

/-- What all sections have holds of the one that is printed. -/
theorem body_section_foldl {Q : Option JString → Prop} (hbody : ∀ item ∈ items, FetchAtt.body ∉ item.atts)
    (hsection : ∀ peek spec octets, DataItem.att (.bodySection peek spec octets) ∈ items →
      Q (StringParser.getList (FetchAtt.bodySection peek spec octets).gathered separators)[1]?)
    (fetch : FetchRequest)
    (h : Q fetch.body_section ∨ ∃ peek spec octets, DataItem.att (.bodySection peek spec octets) ∈ items) :
    Q (items.foldl DataItem.apply fetch).body_section := by
  induction items generalizing fetch with
  | nil =>
    rcases h with h | ⟨_, _, _, h⟩
    · exact h
    · cases h
  | cons item items ih =>
    rw [List.foldl_cons]
    refine ih (fun i hi => hbody i (List.mem_cons_of_mem _ hi))
      (fun p s o hi => hsection p s o (List.mem_cons_of_mem _ hi)) _ ?_
    rcases body_section_apply (hbody item List.mem_cons_self) fetch with ⟨p, s, o, hitem, heq⟩ | ⟨hne, heq⟩
    · rw [heq]
      exact .inl (hsection p s o (hitem ▸ List.mem_cons_self))
    · rw [heq]
      refine h.imp_right fun ⟨p, s, o, hmem⟩ => ⟨p, s, o, ?_⟩
      exact (List.mem_cons.mp hmem).resolve_left fun h => hne p s o h.symm

end fold

/-! ## Which commands can be answered -/

/-- An item that can be printed under its own name. -/
def FetchAtt.Printed : FetchAtt → Prop
  | rfc822 | rfc822Header | rfc822Text | body => False
  | bodySection _ spec octets => spec.Named octets
  | _ => True

namespace FetchText

/-- What a response has to have. -/
def requested (cmd : FetchText) : List FetchAtt := cmd.atts ++ if cmd.uid then [.uid] else []

/-- Every item of the command can be printed, there is one section at most, under one name, and `UID FETCH` asks for
`UID`. -/
structure Answerable (cmd : FetchText) : Prop where
  printed : ∀ a ∈ cmd.atts, a.Printed
  one : ∀ {peek spec octets peek' spec' octets'}, .bodySection peek spec octets ∈ cmd.atts →
    .bodySection peek' spec' octets' ∈ cmd.atts →
    peek = peek' ∧ SameName (FetchAtt.bodySection peek spec octets).label
      (FetchAtt.bodySection peek' spec' octets').label
  uid : cmd.uid = true → .uid ∈ cmd.atts

variable {cmd : FetchText}

theorem mem_atts {a : FetchAtt} : a ∈ cmd.atts ↔ ∃ item ∈ cmd.items.map ItemText.item, a ∈ item.atts := by
  rw [atts, List.mem_flatMap]
  simp only [List.mem_map, exists_exists_and_eq_and]

theorem bodySection_mem_atts {peek : Bool} {spec : Section} {octets : Option Partial} :
    .bodySection peek spec octets ∈ cmd.atts
      ↔ DataItem.att (.bodySection peek spec octets) ∈ cmd.items.map ItemText.item := by
  rw [mem_atts]
  constructor
  · rintro ⟨item, hmem, hatt⟩
    cases item with
    | att a => rwa [List.mem_singleton.mp hatt]
    | _ => simp [DataItem.atts] at hatt
  · exact fun h => ⟨_, h, List.mem_singleton_self _⟩

/-- What the request of a command has, if no header field has a `]` in its name. -/
theorem parseFetch_fields (h : ∀ i ∈ cmd.items, i.item.Closed) :
    (∀ a : FetchAtt, a.IsPlain → (a.field (parseFetch cmd.parameters).2 = true ↔ a ∈ cmd.atts))
      ∧ ((parseFetch cmd.parameters).2.body_peek = true ↔ ∃ spec octets, .bodySection true spec octets ∈ cmd.atts)
      ∧ ((parseFetch cmd.parameters).2.body = true
        ↔ .body ∈ cmd.atts ∨ ∃ spec octets, .bodySection false spec octets ∈ cmd.atts) := by
  rw [parseFetch_snd h]
  refine ⟨fun a ha => ?_, ?_, ?_⟩
  · have hnew : a.field .new = false := by cases a <;> rfl
    rw [foldl_true_iff (fun fetch => a.field fetch) (field_apply_iff ha), hnew, mem_atts]
    exact or_iff_right Bool.false_ne_true
  · rw [foldl_true_iff FetchRequest.body_peek body_peek_apply_iff, or_iff_right (by decide)]
    simp only [mem_atts]
    exact ⟨fun ⟨item, hitem, spec, octets, hmem⟩ => ⟨spec, octets, item, hitem, hmem⟩,
      fun ⟨spec, octets, item, hitem, hmem⟩ => ⟨item, hitem, spec, octets, hmem⟩⟩
  · rw [foldl_true_iff FetchRequest.body body_apply_iff, or_iff_right (by decide)]
    simp only [mem_atts]
    constructor
    · rintro ⟨item, hitem, hbody | ⟨spec, octets, hmem⟩⟩
      · exact .inl ⟨item, hitem, hbody⟩
      · exact .inr ⟨spec, octets, item, hitem, hmem⟩
    · rintro (⟨item, hitem, hbody⟩ | ⟨spec, octets, item, hitem, hmem⟩)
      · exact ⟨item, hitem, .inl hbody⟩
      · exact ⟨item, hitem, .inr ⟨spec, octets, hmem⟩⟩

/-- An item with a name of its own is printed if it is asked for. -/
theorem shown_isPlain_iff (h : ∀ i ∈ cmd.items, i.item.Closed) {a : FetchAtt} (ha : a.IsPlain) :
    (∃ l ∈ labels (parseFetch cmd.parameters).2, SameName l a.label) ↔ a ∈ cmd.atts := by
  rw [← (parseFetch_fields h).1 a ha]
  apply shown_plain_iff
  rintro peek spec octets rfl
  exact ha

/-- Sections that are printed under their own names have no `]` in them. -/
theorem closed_of_named
    (h : ∀ {peek spec octets}, .bodySection peek spec octets ∈ cmd.atts → spec.Named octets) :
    ∀ i ∈ cmd.items, i.item.Closed := by
  intro i hi
  have hmem : i.item ∈ cmd.items.map ItemText.item := List.mem_map_of_mem hi
  generalize i.item = item at hmem
  match item with
  | .att (.bodySection peek spec octets) => exact (h (bodySection_mem_atts.mpr hmem)).closed
  | .all | .full | .fast | .att .envelope | .att .flags | .att .internaldate | .att .rfc822 | .att .rfc822Header
  | .att .rfc822Size | .att .rfc822Text | .att .body | .att .bodystructure | .att .uid => trivial

/-- If every item is printed, then the command can be answered. -/
theorem answerable_of_shown
    (h : ∀ a ∈ cmd.requested, ∃ l ∈ labels (parseFetch cmd.parameters).2, SameName l a.label) : cmd.Answerable := by
  have hatt {a : FetchAtt} (ha : a ∈ cmd.atts) := h a (List.mem_append_left _ ha)
  have hnamed {peek : Bool} {spec : Section} {octets : Option Partial}
      (hmem : .bodySection peek spec octets ∈ cmd.atts) : spec.Named octets := by
    obtain ⟨l, hl, hsame⟩ := hatt hmem
    exact Section.named_of_shown (parseFetch_sectionFree cmd.parameters) hl hsame
  have hclosed := closed_of_named hnamed
  obtain ⟨-, hpeek, hbody⟩ := parseFetch_fields hclosed
  refine ⟨fun a ha => ?_, ?_, fun huid => ?_⟩
  · cases a with
    | bodySection peek spec octets => exact hnamed ha
    | rfc822 | rfc822Header | rfc822Text | body =>
      have hfield := (shown_plain_iff _ (by rintro _ _ _ ⟨⟩)).mp (hatt ha)
      cases hfield
    | _ => trivial
  · intro peek spec octets peek' spec' octets' hmem hmem'
    obtain ⟨l, hl, hsame⟩ := hatt hmem
    obtain ⟨l', hl', hsame'⟩ := hatt hmem'
    obtain ⟨rfl, hone, -⟩ := sameName_of_mem_labels hl hsame
    obtain ⟨rfl, -, -⟩ := sameName_of_mem_labels hl' hsame'
    refine ⟨?_, hsame.symm.trans hsame'⟩
    -- a section of each kind would set both fields
    have hboth : ¬((∃ spec octets, .bodySection true spec octets ∈ cmd.atts)
        ∧ ∃ spec octets, .bodySection false spec octets ∈ cmd.atts) := by
      rintro ⟨htrue, hfalse⟩
      rw [hpeek.mpr htrue, hbody.mpr (.inr hfalse)] at hone
      cases hone
    cases peek <;> cases peek'
    · rfl
    · exact absurd ⟨⟨_, _, hmem'⟩, _, _, hmem⟩ hboth
    · exact absurd ⟨⟨_, _, hmem⟩, _, _, hmem'⟩ hboth
    · rfl
  · refine (shown_isPlain_iff hclosed (a := .uid) trivial).mp (h .uid ?_)
    rw [requested, if_pos huid]
    exact List.mem_append_right _ (List.mem_singleton_self _)

theorem Answerable.named (h : cmd.Answerable) {peek : Bool} {spec : Section} {octets : Option Partial}
    (hmem : .bodySection peek spec octets ∈ cmd.atts) : spec.Named octets := h.printed _ hmem

/-- One of the two fields for sections is set. -/
theorem Answerable.one_field (h : cmd.Answerable) {peek : Bool} {spec : Section} {octets : Option Partial}
    (hmem : .bodySection peek spec octets ∈ cmd.atts) :
    (parseFetch cmd.parameters).2.body_peek = peek ∧ (parseFetch cmd.parameters).2.body = !peek := by
  obtain ⟨-, hpeek, hbody⟩ := parseFetch_fields (closed_of_named h.named)
  cases peek with
  | true =>
    refine ⟨hpeek.mpr ⟨spec, octets, hmem⟩, ?_⟩
    rw [Bool.not_true, ← Bool.not_eq_true, hbody]
    rintro (hbare | ⟨spec', octets', hmem'⟩)
    · exact h.printed .body hbare
    · exact absurd (h.one hmem hmem').1 (by decide)
  | false =>
    refine ⟨?_, hbody.mpr (.inr ⟨spec, octets, hmem⟩)⟩
    rw [← Bool.not_eq_true, hpeek]
    rintro ⟨spec', octets', hmem'⟩
    exact absurd (h.one hmem hmem').1 (by decide)

/-- The printed section has the name of each section that is asked for. -/
theorem Answerable.sameName (h : cmd.Answerable) {peek : Bool} {spec : Section} {octets : Option Partial}
    (hmem : .bodySection peek spec octets ∈ cmd.atts) :
    SameName ("BODY".toList ++ sectionLabel (parseFetch cmd.parameters).2.body_section)
      (FetchAtt.bodySection peek spec octets).label := by
  rw [parseFetch_snd (closed_of_named h.named)]
  refine body_section_foldl (Q := fun s => SameName ("BODY".toList ++ sectionLabel s) _) ?_ ?_ _
    (.inr ⟨peek, spec, octets, bodySection_mem_atts.mp hmem⟩)
  · exact fun item hitem hbody => h.printed .body (mem_atts.mpr ⟨item, hitem, hbody⟩)
  · intro peek' spec' octets' hitem
    have hmem' := bodySection_mem_atts.mpr hitem
    exact ((h.named hmem').sameName peek').trans (h.one hmem' hmem).2

/-- If the command can be answered, then every item is printed. -/
theorem Answerable.shown (h : cmd.Answerable) :
    ∀ a ∈ cmd.requested, ∃ l ∈ labels (parseFetch cmd.parameters).2, SameName l a.label := by
  intro a ha
  have hatt : a ∈ cmd.atts := by
    rcases List.mem_append.mp ha with ha | ha
    · exact ha
    · split_ifs at ha with huid
      · rw [List.mem_singleton.mp ha]
        exact h.uid huid
      · cases ha
  cases a with
  | bodySection peek spec octets =>
    obtain ⟨hpeek, hbody⟩ := h.one_field hatt
    have hlabel : bodyLabel (parseFetch cmd.parameters).2
        = "BODY".toList ++ sectionLabel (parseFetch cmd.parameters).2.body_section := by
      rw [bodyLabel, hpeek, hbody]
      cases peek <;> rfl
    refine ⟨bodyLabel (parseFetch cmd.parameters).2, mem_labels.mpr ?_, hlabel ▸ h.sameName hatt⟩
    rw [table, hpeek, hbody]
    cases peek <;> simp
  | rfc822 | rfc822Header | rfc822Text | body => exact (h.printed _ hatt).elim
  | uid | flags | rfc822Size | internaldate | envelope | bodystructure =>
    refine (shown_isPlain_iff (closed_of_named h.named) ?_).mpr hatt
    trivial

/-! ## The answer to a command -/

/-- The command in a session with a selected folder. -/
def process (cmd : FetchText) (env : FetchEnv) (other : JString → List ImapCommandParameter → FetchOutcome)
    (tag : JString) (folder : List FetchMessage) : FetchOutcome :=
  if cmd.uid then UidCommand.doProcess env other tag (.ofAtom cmd.name :: cmd.parameters) (some folder)
  else FetchCommand.doProcess env false tag cmd.parameters (some folder)

/-- The largest number in use. -/
def largest (cmd : FetchText) (folder : List FetchMessage) : ℤ :=
  ((folder.map fun msg => msg.number cmd.uid).max?).getD 0

/-- The messages that are in the sequence set. -/
def selected (cmd : FetchText) (folder : List FetchMessage) : List FetchMessage :=
  folder.filter fun msg => cmd.set.Denotes (cmd.largest folder) (msg.number cmd.uid)

/-- A response for a message: it begins with the sequence number and has every item once. -/
def Shows (cmd : FetchText) (msg : FetchMessage) : FetchResponse → Prop
  | .data number items =>
    number = msg.num ∧ ∀ a ∈ cmd.requested, items.countP (fun s => SameName s.label a.label) = 1
  | .status _ => False

/-- The selected messages are fetched, and each is shown by one untagged response. -/
structure Answers (cmd : FetchText) (folder : List FetchMessage) (out : FetchOutcome) : Prop where
  msgs : out.msgs = some (cmd.selected folder)
  responses : ∃ responses, out.result = .ok responses
    ∧ List.Forall₂ cmd.Shows (cmd.selected folder) (responses.filter fun r => r.toEmptyResponse.tag = none)

theorem doProcess_eq (env : FetchEnv) (isUID : Bool) (tag : JString) {parameters : List ImapCommandParameter}
    {ranges : List IdRange} (h : (parseFetch parameters).1 = some ranges) (folder : List FetchMessage) :
    doProcess env isUID tag parameters (some folder)
      = ⟨some (folder.filter fun msg => IdRange.listIncludes (msg.number isUID) ranges),
        .ok ((folder.filter fun msg => IdRange.listIncludes (msg.number isUID) ranges).map
            (fun msg => .data (msg.number isUID) (parseMsg env msg (parseFetch parameters).2))
          ++ if isUID then [] else [.status ⟨some tag, "OK FETCH completed".toList⟩])⟩ := by
  unfold doProcess
  generalize parseFetch parameters = parsed at h
  obtain ⟨id_range, fetch⟩ := parsed
  obtain rfl := h
  cases folder <;> rfl

/-- What is answered for a message. -/
def respond (cmd : FetchText) (env : FetchEnv) (msg : FetchMessage) : FetchResponse :=
  .data (msg.number cmd.uid) (parseMsg env msg (parseFetch cmd.parameters).2)

/-- What the code fetches and answers. -/
theorem process_eq (cmd : FetchText) (env : FetchEnv)
    (other : JString → List ImapCommandParameter → FetchOutcome) (tag : JString) (folder : List FetchMessage) :
    ∃ fetched text, fetched = folder.filter (fun msg => IdRange.listIncludes (msg.number cmd.uid)
          (cmd.set.items.map fun item => IdRange.parseRange item.text))
      ∧ cmd.process env other tag folder
        = ⟨some fetched, .ok (fetched.map (cmd.respond env) ++ [.status ⟨some tag, text⟩])⟩ := by
  have hranges := cmd.parseFetch_fst.trans (congrArg some cmd.set.addRangeSequence_text)
  refine ⟨_, if cmd.uid then "OK UID completed".toList else "OK FETCH completed".toList, rfl, ?_⟩
  unfold process respond
  cases huid : cmd.uid with
  | true =>
    rw [if_pos rfl, if_pos rfl, UidCommand.doProcess, toString_ofAtom, if_pos cmd.name_eq,
      doProcess_eq env true tag hranges]
    simp [Except.map]
  | false =>
    rw [if_neg (by decide), if_neg (by decide), doProcess_eq env false tag hranges]
    rfl

/-- The untagged responses are those for the messages. -/
theorem untagged_responses (cmd : FetchText) (env : FetchEnv) (tag text : JString) (fetched : List FetchMessage) :
    (fetched.map (cmd.respond env) ++ [FetchResponse.status ⟨some tag, text⟩]).filter
      (fun r => r.toEmptyResponse.tag = none) = fetched.map (cmd.respond env) := by
  have hall : ∀ r ∈ fetched.map (cmd.respond env), decide (r.toEmptyResponse.tag = none) = true := by
    intro r hr
    obtain ⟨msg, -, rfl⟩ := List.mem_map.mp hr
    rfl
  rw [List.filter_append, List.filter_eq_self.mpr hall]
  exact List.append_nil _

theorem number_le_largest (cmd : FetchText) {folder : List FetchMessage} {msg : FetchMessage} (h : msg ∈ folder) :
    msg.number cmd.uid ≤ cmd.largest folder ∧ cmd.largest folder ≤ intMax := by
  have hmem : msg.number cmd.uid ∈ folder.map fun msg => msg.number cmd.uid := List.mem_map_of_mem h
  obtain ⟨m, hm⟩ := Option.isSome_iff_exists.mp (List.isSome_max?_of_mem hmem)
  have hlargest : cmd.largest folder = m := by rw [largest, hm, Option.getD_some]
  obtain ⟨hin, hle⟩ := List.max?_eq_some_iff.mp hm
  rw [hlargest]
  refine ⟨hle _ hmem, ?_⟩
  obtain ⟨msg', -, rfl⟩ := List.mem_map.mp hin
  rw [FetchMessage.number]
  split_ifs
  · exact msg'.uid_le
  · exact msg'.num_le

theorem shows_iff (cmd : FetchText) (env : FetchEnv) (msg : FetchMessage) :
    cmd.Shows msg (cmd.respond env msg) ↔ (cmd.uid = true → msg.uid = msg.num) ∧ cmd.Answerable := by
  have hnumber : msg.number cmd.uid = msg.num ↔ (cmd.uid = true → msg.uid = msg.num) := by
    rw [FetchMessage.number]
    cases cmd.uid <;> simp
  have hshown : (∀ a ∈ cmd.requested, (parseMsg env msg (parseFetch cmd.parameters).2).countP
      (fun s => SameName s.label a.label) = 1) ↔ cmd.Answerable := by
    have hcount (a : FetchAtt) : (parseMsg env msg (parseFetch cmd.parameters).2).countP
        (fun s => SameName s.label a.label) = 1
        ↔ ∃ l ∈ labels (parseFetch cmd.parameters).2, SameName l a.label := by
      rw [← countP_labels, ← map_label_parseMsg env msg, List.countP_map]
      rfl
    simp only [hcount]
    exact ⟨answerable_of_shown, Answerable.shown⟩
  rw [respond, Shows, hnumber, hshown]

end FetchText

/-- A command is answered exactly if the ranges of its set accept the numbers that are in it, and, if there is such a
message, the items can be printed, and for `UID FETCH` the unique identifiers are the sequence numbers. -/
theorem fetch_answers_iff (cmd : FetchText) (env : FetchEnv)
    (other : JString → List ImapCommandParameter → FetchOutcome) (tag : JString) (folder : List FetchMessage) :
    cmd.Answers folder (cmd.process env other tag folder)
      ↔ (∀ msg ∈ folder, cmd.set.CoveredAt (cmd.largest folder) (msg.number cmd.uid))
        ∧ ∀ msg ∈ cmd.selected folder, (cmd.uid = true → msg.uid = msg.num) ∧ cmd.Answerable := by
  obtain ⟨fetched, text, hfetched, hprocess⟩ := cmd.process_eq env other tag folder
  have hselected : fetched = cmd.selected folder
      ↔ ∀ msg ∈ folder, cmd.set.CoveredAt (cmd.largest folder) (msg.number cmd.uid) := by
    have hagrees {msg : FetchMessage} (hmsg : msg ∈ folder) :=
      have hle := cmd.number_le_largest hmsg
      @SequenceSet.agrees_id_iff cmd.set _ _ hle.2 hle.1
    rw [hfetched, FetchText.selected]
    constructor
    · intro h msg hmsg
      rw [← hagrees hmsg]
      have hmem := congrArg (fun l => msg ∈ l) h
      simpa [hmsg] using hmem
    · intro h
      refine List.filter_congr fun msg hmsg => ?_
      rw [Bool.eq_iff_iff, (hagrees hmsg).mpr (h msg hmsg), decide_eq_true_iff]
  have hshows : List.Forall₂ cmd.Shows fetched (fetched.map (cmd.respond env))
      ↔ ∀ msg ∈ fetched, (cmd.uid = true → msg.uid = msg.num) ∧ cmd.Answerable := by
    rw [List.forall₂_map_right_iff, List.forall₂_same]
    exact forall₂_congr fun msg _ => cmd.shows_iff env msg
  rw [hprocess, ← hselected]
  constructor
  · rintro ⟨hmsgs, responses, hresult, hresponses⟩
    have heq : fetched = cmd.selected folder := Option.some_inj.mp hmsgs
    obtain rfl := Except.ok.inj hresult
    rw [cmd.untagged_responses, ← heq, hshows] at hresponses
    exact ⟨heq, heq ▸ hresponses⟩
  · rintro ⟨heq, hresponses⟩
    refine ⟨congrArg some heq, _, rfl, ?_⟩
    rw [cmd.untagged_responses, ← heq, hshows]
    exact heq ▸ hresponses

/-! ## Two sections -/

/-- Nothing is known outside of the command. -/
def FetchEnv.stub : FetchEnv where
  defaultDomain := "localhost".toList
  now := 0
  calendar _ := ⟨1, 0, 1970, 0, 0, 0, 0⟩
  mailDate _ := "Thu, 1 Jan 1970 00:00:00 +0000 (GMT)".toList
  unfold str := str
  parse _ := []

/-- A new message with numbers. -/
def FetchMessage.blank : FetchMessage where
  toMessage := { Message.new 0 with num := 1, uid := 10 }
  bodyBin76 := []
  num_le := by decide
  uid_le := by decide

/-- `FETCH 1 (BODY[HEADER] BODY[TEXT])`. -/
def twoSections : FetchText where
  uid := false
  name := "FETCH".toList
  name_eq := by decide +kernel
  set := ⟨[.single (.number 1)], by decide, by decide⟩
  paren := true
  items :=
    [⟨.att (.bodySection false ⟨[], some .header⟩ none), "BODY[HEADER]".toList, by decide +kernel⟩,
      ⟨.att (.bodySection false ⟨[], some .text⟩ none), "BODY[TEXT]".toList, by decide +kernel⟩]

/-- Only the last section is printed, under the name of a part. -/
theorem not_answers_twoSections :
    ¬ twoSections.Answers [.blank] (twoSections.process .stub (fun _ _ => ⟨none, .ok []⟩) "a".toList [.blank]) := by
  intro h
  obtain ⟨responses, hresult, hall⟩ := h.responses
  obtain ⟨fetched, text, hfetched, hprocess⟩ :=
    twoSections.process_eq .stub (fun _ _ => ⟨none, .ok []⟩) "a".toList [.blank]
  have hselected : twoSections.selected [.blank] = [.blank] := by decide
  have hone : fetched = [.blank] := hfetched.trans (by decide)
  rw [hprocess] at hresult
  rw [← Except.ok.inj hresult, twoSections.untagged_responses, hselected, hone] at hall
  have hshows := (List.forall₂_cons.mp hall).1
  have hprinted := ((twoSections.shows_iff .stub .blank).mp hshows).2.printed
    (.bodySection false ⟨[], some .text⟩ none) (List.mem_cons_of_mem _ List.mem_cons_self)
  exact hprinted

end OrgLittle.Imap
