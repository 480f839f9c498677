import OrgLittle.Lib.XmlWeight
import OrgLittle.Lmsg.MessageText

/-!
# The weight of a message and of its file

The file weighs no more than the fields that are written as they are (`Silent.weight_file`), and the fields
of a loaded message weigh no more than the document (`fieldWeight_loadChildren`).
-/

namespace OrgLittle.Lmsg

open OrgLittle.Java OrgLittle.Lib OrgLittle.Util

/-! ## What the texts weigh -/

theorem weight_reread_le (p : Platform) {w : Char → ℕ}
    (hw : ∀ c, 128 ≤ c.toNat → Xml.weight w (p.reread [c]) ≤ w c) (s : JString) :
    Xml.weight w (p.reread s) ≤ Xml.weight w s := by
  induction s with
  | nil => simp
  | cons c s ih =>
    by_cases hc : c.toNat < 128
    · rw [reread_cons_ascii p hc, Xml.weight_cons, Xml.weight_cons]
      omega
    · have hle := hw c (by omega)
      have hsplit := reread_append p [c] s
      rw [List.singleton_append] at hsplit
      rw [hsplit, Xml.weight_append, Xml.weight_cons]
      omega

/-- A weight that the markup of a document does not have. -/
structure Silent (a : Char → ℕ) : Prop where
  quiet : ∀ c, isQuiet c = true → a c = 0
  lt : a '<' = 0

namespace Silent

variable {a : Char → ℕ}

/-- Characters that mean nothing to XML weigh nothing. -/
theorem weight_quiet (h : Silent a) {s : JString} (hs : ∀ c ∈ s, isQuiet c = true) :
    Xml.weight a s = 0 :=
  Xml.weight_eq_zero fun c hc => h.quiet c (hs c hc)

/-- The tags around a text add nothing. -/
theorem weight_written (h : Silent a) {name : JString} (hname : isPlainName name = true) (inner : JString) :
    Xml.weight a (Xml.written name inner) = Xml.weight a inner := by
  have hnames := h.weight_quiet (isPlainName_quiet hname)
  have hclose := h.quiet '>' (by decide)
  have hslash := h.quiet '/' (by decide)
  simp only [Xml.written, Xml.weight_append, Xml.weight_cons, Xml.weight_nil, hnames, hclose, hslash,
    h.lt, Nat.zero_add, Nat.add_zero]

theorem weight_lines (h : Silent a) (srcs : List JString) :
    Xml.weight a (Xml.lines srcs) = (srcs.map (Xml.weight a)).sum := by
  have hnewline := h.quiet '\n' (by decide)
  induction srcs with
  | nil => rw [Xml.lines, Xml.weight_cons, hnewline]; rfl
  | cons src srcs ih =>
    rw [Xml.lines, Xml.weight_cons, Xml.weight_cons, Xml.weight_append, ih, hnewline, h.lt]
    simp

/-- What is written of a part weighs as much as its texts. -/
theorem weight_src (h : Silent a) {part : Part} (hpart : part.isPlain = true) :
    Xml.weight a part.src = (part.texts.map (Xml.weight a)).sum := by
  rcases part with ⟨name, text⟩ | ⟨name, leaves⟩
  · rw [Part.src, h.weight_written hpart]
    simp [Part.texts]
  · rw [Part.isPlain, Bool.and_eq_true, List.all_eq_true] at hpart
    rw [Part.src, h.weight_written hpart.1, h.weight_lines, Part.texts, List.map_map, List.map_map]
    congr 1
    exact List.map_congr_left fun leaf hleaf => h.weight_written (hpart.2 leaf hleaf) leaf.2

/-- The weight of a document, up to the declaration, is that of its texts. -/
theorem weight_render (h : Silent a) {header body : List Part}
    (hheader : ∀ part ∈ header, part.isPlain = true) (hbody : ∀ part ∈ body, part.isPlain = true) :
    ∃ s, render header body = xmlDecl ++ s
      ∧ Xml.weight a s = ((header ++ body).flatMap fun part => part.texts.map (Xml.weight a)).sum := by
  have hparts : ∀ parts : List Part, (∀ part ∈ parts, part.isPlain = true) →
      ((parts.map Part.src).map (Xml.weight a)).sum
        = (parts.flatMap fun part => part.texts.map (Xml.weight a)).sum := by
    intro parts hplain
    induction parts with
    | nil => rfl
    | cons part parts ih =>
      obtain ⟨hpart, hrest⟩ := List.forall_mem_cons.mp hplain
      rw [List.map_cons, List.map_cons, List.sum_cons, h.weight_src hpart, ih hrest, List.flatMap_cons,
        List.sum_append]
  refine ⟨_, rfl, ?_⟩
  rw [Xml.weight_cons, Xml.weight_cons, h.weight_written (by decide), h.weight_lines, List.map_cons,
    List.sum_cons, h.weight_written (by decide), h.weight_lines, hparts header hheader,
    hparts body hbody, h.quiet '\n' (by decide), h.lt, List.flatMap_append, List.sum_append]
  omega

end Silent

/-! ## What the fields weigh -/

/-- The weight of the fields that are written as they are. -/
def fieldWeight (w : Char → ℕ) (m : Message) : ℕ :=
  Xml.weight w (Message.textOf m.from_) + (m.to_.map (Xml.weight w)).sum
    + Xml.weight w (Message.textOf m.filename) + Xml.weight w (Message.textOf m.mime)
    + Xml.weight w (Message.textOf m.x509Type) + Xml.weight w (Message.textOf m.x509TypeFile)
    + Xml.weight w (Message.textOf m.x509Subject) + Xml.weight w (Message.textOf m.x509Issuer)
    + Xml.weight w (m.bodyTxt.getD [])

theorem fieldWeight_add (w w' : Char → ℕ) (m : Message) :
    fieldWeight (fun c => w c + w' c) m = fieldWeight w m + fieldWeight w' m := by
  have htext : ∀ s, Xml.weight (fun c => w c + w' c) s = Xml.weight w s + Xml.weight w' s := by
    intro s
    induction s with
    | nil => rfl
    | cons c s ih =>
      simp only [Xml.weight_cons, ih]
      omega
  have htexts : ∀ texts : List JString, (texts.map (Xml.weight fun c => w c + w' c)).sum
      = (texts.map (Xml.weight w)).sum + (texts.map (Xml.weight w')).sum := by
    intro texts
    induction texts with
    | nil => rfl
    | cons text texts ih =>
      simp only [List.map_cons, List.sum_cons, htext, ih]
      omega
  simp only [fieldWeight, htext, htexts]
  omega

section loading

variable (w : Char → ℕ) (p : Platform)

theorem weighAll_children_le (n : Xml.Node) : Xml.weighAll w n.children ≤ n.weigh w := by
  rcases n with _ | _ | _ | _ | ⟨name, children⟩
  all_goals first
    | exact Nat.le_refl _
    | exact Nat.zero_le _

/-- A loop that adds at most the weight of each node. -/
theorem fieldWeight_foldl {f : Message → Xml.Node → Message}
    (hf : ∀ m n, fieldWeight w (f m n) ≤ fieldWeight w m + n.weigh w) (nodes : List Xml.Node)
    (m : Message) : fieldWeight w (nodes.foldl f m) ≤ fieldWeight w m + Xml.weighAll w nodes := by
  induction nodes generalizing m with
  | nil => exact Nat.le_refl _
  | cons n nodes ih =>
    have hfirst := hf m n
    have hrest := ih (f m n)
    rw [List.foldl_cons, Xml.weighAll]
    omega

/-- The loops of `load`: if each setter adds no more than its node weighs, all of them add no more than the nodes. -/
theorem fieldWeight_foldlM {f : Message → Xml.Node → Except JavaException Message}
    (hf : ∀ m n m', f m n = .ok m' → fieldWeight w m' ≤ fieldWeight w m + n.weigh w)
    {nodes : List Xml.Node} {m m' : Message} (h : nodes.foldlM f m = .ok m') :
    fieldWeight w m' ≤ fieldWeight w m + Xml.weighAll w nodes := by
  induction nodes generalizing m with
  | nil =>
    obtain rfl := Except.ok.inj h
    exact Nat.le_refl _
  | cons n nodes ih =>
    obtain ⟨m₁, hfirst, h⟩ := exists_of_bind h
    have hle := hf m n m₁ hfirst
    have hrest := ih h
    rw [Xml.weighAll]
    omega

theorem fieldWeight_loadTo (m : Message) (n : Xml.Node) :
    fieldWeight w (loadTo m n) ≤ fieldWeight w m + n.weigh w := by
  have hchildren := weighAll_children_le w n
  have hfold := fieldWeight_foldl w (f := fun m n =>
    if n.name = "to".toList then { m with to_ := m.to_ ++ [n.textContent] } else m) (fun m n => by
      have htext := Xml.weight_textContent_le w n
      split_ifs
      · simp only [fieldWeight, List.map_append, List.sum_append, List.map_cons, List.map_nil,
          List.sum_cons, List.sum_nil]
        omega
      · omega) n.children m
  exact Nat.le_trans hfold (by omega)

/-- Every setter of a table has a property that whatever is looked up in it then has too. -/
theorem lookup_mem {α : Type} {table : List (JString × α)} {n : Xml.Node} {set : α}
    (h : lookup table n = some set) : (n.name, set) ∈ table := by
  obtain ⟨entry, hentry, rfl⟩ := Option.map_eq_some_iff.mp h
  have hname : entry.1 = n.name := by simpa using List.find?_some hentry
  rw [← hname]
  exact List.mem_of_find?_eq_some hentry

theorem fieldWeight_loadX509Child (m : Message) (n : Xml.Node) :
    fieldWeight w (loadX509Child p m n) ≤ fieldWeight w m + n.weigh w := by
  have hset : ∀ entry ∈ x509Setters p, ∀ m s, fieldWeight w (entry.2 m s)
      ≤ fieldWeight w m + Xml.weight w s := by
    simp only [x509Setters, List.forall_mem_cons, List.not_mem_nil, false_implies, implies_true, and_true]
    refine ⟨?_, ?_, ?_, ?_, ?_, ?_, ?_⟩
    all_goals
      intro m s
      simp only [fieldWeight, Message.textOf, Option.getD_some]
      omega
  have htext := Xml.weight_textContent_le w n
  unfold loadX509Child
  rcases hlookup : lookup (x509Setters p) n with _ | set
  · exact Nat.le_add_right _ _
  · have hle := hset _ (lookup_mem hlookup) m n.textContent
    exact Nat.le_trans hle (by omega)

theorem fieldWeight_loadX509 (m : Message) (n : Xml.Node) :
    fieldWeight w (loadX509 p m n) ≤ fieldWeight w m + n.weigh w := by
  have hchildren := weighAll_children_le w n
  have hfold := fieldWeight_foldl w (fieldWeight_loadX509Child w p) n.children m
  exact Nat.le_trans hfold (by omega)

/-- Setting a field that is written in base64 does not count. -/
theorem fieldWeight_of_bind {c : Except JavaException (List UInt8)} {f : List UInt8 → Message}
    {m m' : Message} (h : (c >>= fun bytes => Except.ok (f bytes)) = .ok m')
    (hf : ∀ bytes, fieldWeight w (f bytes) = fieldWeight w m) : fieldWeight w m' = fieldWeight w m := by
  obtain ⟨bytes, -, h⟩ := exists_of_bind h
  rw [← Except.ok.inj h, hf bytes]

theorem fieldWeight_headerSetters : ∀ entry ∈ headerSetters p, ∀ m n m', entry.2 m n = .ok m' →
    fieldWeight w m' ≤ fieldWeight w m + n.weigh w := by
  simp only [headerSetters, List.forall_mem_cons, List.not_mem_nil, false_implies, implies_true, and_true]
  refine ⟨?_, ?_, ?_, ?_, ?_, ?_, ?_, ?_, ?_, ?_, ?_, ?_, ?_, ?_⟩
  all_goals
    intro m n m' h
    have htext := Xml.weight_textContent_le w n
  case refine_2 =>
    rw [fieldWeight_of_bind w h fun _ => rfl]
    omega
  case refine_3 =>
    rw [fieldWeight_of_bind w h fun _ => rfl]
    omega
  case refine_4 =>
    obtain rfl := Except.ok.inj h
    exact fieldWeight_loadTo w m n
  case refine_14 =>
    obtain rfl := Except.ok.inj h
    exact fieldWeight_loadX509 w p m n
  all_goals
    obtain rfl := Except.ok.inj h
    simp only [fieldWeight, Message.textOf, Option.getD_some]
    omega

/-- The fields that are read from a header are no heavier than the header. -/
theorem fieldWeight_loadHeader {m m' : Message} {n : Xml.Node} (h : loadHeader p m n = .ok m') :
    fieldWeight w m' ≤ fieldWeight w m + n.weigh w := by
  have hchildren := weighAll_children_le w n
  have hchild : ∀ m n m', loadHeaderChild p m n = .ok m' →
      fieldWeight w m' ≤ fieldWeight w m + n.weigh w := by
    intro m n m' h
    unfold loadHeaderChild at h
    rcases hlookup : lookup (headerSetters p) n with _ | set
    · rw [hlookup] at h
      obtain rfl := Except.ok.inj h
      omega
    · rw [hlookup] at h
      exact fieldWeight_headerSetters w p _ (lookup_mem hlookup) m n m' h
  have hfold := fieldWeight_foldlM w hchild h
  omega

theorem fieldWeight_messageSetters : ∀ entry ∈ messageSetters p, ∀ m n m', entry.2 m n = .ok m' →
    fieldWeight w m' ≤ fieldWeight w m + n.weigh w := by
  simp only [messageSetters, List.forall_mem_cons, List.not_mem_nil, false_implies, implies_true, and_true]
  refine ⟨?_, ?_, ?_⟩
  all_goals intro m n m' h
  · exact fieldWeight_loadHeader w p h
  · have htext := Xml.weight_textContent_le w n
    obtain rfl := Except.ok.inj h
    simp only [fieldWeight, Option.getD_some]
    omega
  · rw [fieldWeight_of_bind w h fun _ => rfl]
    omega

/-- The fields of a message that is loaded weigh at most what the document weighs. -/
theorem fieldWeight_loadChildren (hpem : Xml.weight w "PEM".toList = 0) {now : Date}
    {nodes : List Xml.Node} {m : Message}
    (h : nodes.foldlM (loadChild p) (Message.new now) = .ok m) :
    fieldWeight w m ≤ Xml.weighAll w nodes := by
  have hchild : ∀ m n m', loadChild p m n = .ok m' → fieldWeight w m' ≤ fieldWeight w m + n.weigh w := by
    intro m n m' h
    unfold loadChild at h
    rcases hlookup : lookup (messageSetters p) n with _ | set
    · rw [hlookup] at h
      obtain rfl := Except.ok.inj h
      omega
    · rw [hlookup] at h
      exact fieldWeight_messageSetters w p _ (lookup_mem hlookup) m n m' h
  have hnew : fieldWeight w (Message.new now) = 0 := by
    simp only [fieldWeight, Message.new, Message.textOf, Option.getD_some, hpem]
    rfl
  have hfold := fieldWeight_foldlM w hchild h
  omega

end loading

/-! ## What the document weighs -/

/-- The names of the tags are those of `msg2str`, so that they are plain whatever the message is. -/
theorem headerParts_isPlain (p : Platform) (hash : UInt32) (m : Message) (id subject : JString) :
    ∀ part ∈ headerParts p hash m id subject, part.isPlain = true := by
  have hto : (Part.block "msg_to".toList (m.to_.map ("to".toList, ·))).isPlain = true := by
    rw [Part.isPlain, Bool.and_eq_true, List.all_map, List.all_eq_true]
    have hname : isPlainName "to".toList = true := by decide
    exact ⟨by decide, fun _ _ => hname⟩
  have hoption : ∀ {α : Type} (o : Option α) (name : JString) (text : α → JString),
      isPlainName name = true →
        ∀ part ∈ (o.map fun x => Part.leaf name (text x)).toList, part.isPlain = true := by
    rintro α (_ | x) name text hname part hpart
    · cases hpart
    · rw [List.mem_singleton.mp hpart]
      exact hname
  simp only [headerParts, List.forall_mem_append, List.forall_mem_cons, List.not_mem_nil, false_implies,
    implies_true, and_true]
  refine ⟨⟨⟨⟨⟨⟨⟨?_, ?_, hto⟩, ?_⟩, ?_⟩, ?_⟩, ?_⟩, ?_⟩, ?_, ?_, ?_, ?_, ?_, ?_⟩
  case refine_13 =>
    rw [Part.isPlain, Bool.and_eq_true, List.all_eq_true]
    refine ⟨by decide, ?_⟩
    simp only [List.forall_mem_cons, List.not_mem_nil, false_implies, implies_true, and_true]
    decide
  all_goals first
    | exact hoption _ _ _ (by decide)
    | rw [Part.isPlain]; decide

theorem bodyParts_isPlain (m : Message) : ∀ part ∈ bodyParts m, part.isPlain = true := by
  intro part hpart
  rcases List.mem_append.mp hpart with hpart | hpart
  · obtain ⟨s, -, rfl⟩ := Option.map_eq_some_iff.mp (Option.mem_toList.mp hpart)
    rw [Part.isPlain]
    decide
  · obtain ⟨b, -, rfl⟩ := Option.map_eq_some_iff.mp (Option.mem_toList.mp hpart)
    rw [Part.isPlain]
    decide

/-- Only the fields that are written as they are have a weight. -/
theorem weight_texts {a : Char → ℕ} (hquiet : ∀ c, isQuiet c = true → a c = 0) (p : Platform)
    (hash : UInt32) (m : Message) (id subject : JString) :
    ((headerParts p hash m id subject ++ bodyParts m).flatMap fun part =>
      part.texts.map (Xml.weight a)).sum = fieldWeight a m := by
  have hzero : ∀ s : JString, (∀ c ∈ s, isQuiet c = true) → Xml.weight a s = 0 :=
    fun s hs => Xml.weight_eq_zero fun c hc => hquiet c (hs c hc)
  have hint := fun v => hzero _ (intToString_quiet v)
  have hdate := fun d => hzero _ (date2str_quiet p d)
  have hbase64 := fun bytes => hzero _ (byteArrayToBase64_quiet bytes)
  have harray := hzero _ (arrayToString_quiet hash)
  have hoption : ∀ {α : Type} (o : Option α) (name : JString) (text : α → JString),
      (∀ x, Xml.weight a (text x) = 0) →
        ((o.map fun x => Part.leaf name (text x)).toList.flatMap fun part =>
          part.texts.map (Xml.weight a)).sum = 0 := by
    rintro α (_ | x) name text htext
    · rfl
    · simp [Part.texts, htext]
  have hbody : ((m.bodyTxt.map fun s => Part.leaf "body_t".toList s).toList.flatMap fun part =>
      part.texts.map (Xml.weight a)).sum = Xml.weight a (m.bodyTxt.getD []) := by
    rcases m.bodyTxt with _ | s
    · rfl
    · simp [Part.texts]
  have hto : (m.to_.map ("to".toList, ·)).map (·.2) = m.to_ := by
    rw [List.map_map]
    exact List.map_id m.to_
  rw [headerParts, bodyParts]
  simp only [List.flatMap_append, List.sum_append]
  rw [hoption m.createDate _ _ fun d => hdate (some d), hoption m.sentDate _ _ fun d => hdate (some d),
    hoption m.receiveDate _ _ fun d => hdate (some d), hoption m.delDate _ _ fun _ => hdate m.receiveDate,
    hoption m.answerDate _ _ fun _ => hdate m.receiveDate, hoption m.bodyBin _ _ fun b => hbase64 b, hbody]
  simp only [List.flatMap_cons, List.flatMap_nil, Part.texts, hto, List.map_cons, List.map_nil,
    List.sum_append, List.sum_cons, List.sum_nil, hint, hdate, hbase64, harray, fieldWeight,
    List.append_nil]
  omega

/-- What the file weighs, up to the declaration. -/
theorem Silent.weight_file {a : Char → ℕ} (h : Silent a) {p : Platform}
    (hother : ∀ c, 128 ≤ c.toNat → Xml.weight a (p.reread [c]) ≤ a c) (hash : UInt32) (m : Message)
    (id subject : JString) :
    ∃ s, p.reread (render (headerParts p hash m id subject) (bodyParts m)) = xmlDecl ++ s
      ∧ Xml.weight a s ≤ fieldWeight a m := by
  have hheader := headerParts_isPlain p hash m id subject
  have hbody := bodyParts_isPlain m
  have hmap : ∀ {parts : List Part}, (∀ part ∈ parts, part.isPlain = true) →
      ∀ part ∈ parts.map (Part.map p.reread), part.isPlain = true := by
    intro parts hparts part hpart
    obtain ⟨part', hpart', rfl⟩ := List.mem_map.mp hpart
    rw [Part.isPlain_map]
    exact hparts part' hpart'
  have htexts : ∀ texts : List JString,
      ((texts.map p.reread).map (Xml.weight a)).sum ≤ (texts.map (Xml.weight a)).sum := by
    intro texts
    induction texts with
    | nil => exact Nat.le_refl _
    | cons text texts ih =>
      simp only [List.map_cons, List.sum_cons]
      exact Nat.add_le_add (weight_reread_le p hother text) ih
  have hparts : ∀ parts : List Part,
      ((parts.map (Part.map p.reread)).flatMap fun part => part.texts.map (Xml.weight a)).sum
        ≤ (parts.flatMap fun part => part.texts.map (Xml.weight a)).sum := by
    intro parts
    induction parts with
    | nil => exact Nat.le_refl _
    | cons part parts ih =>
      simp only [List.map_cons, List.flatMap_cons, List.sum_append, Part.texts_map]
      exact Nat.add_le_add (htexts part.texts) ih
  obtain ⟨s, hrender, hweight⟩ := h.weight_render (hmap hheader) (hmap hbody)
  refine ⟨s, (reread_render p hheader hbody).trans hrender, ?_⟩
  rw [hweight, ← weight_texts h.quiet p hash m id subject, ← List.map_append]
  exact hparts _

end OrgLittle.Lmsg
