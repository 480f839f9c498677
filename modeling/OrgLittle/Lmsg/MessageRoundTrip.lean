import OrgLittle.Lmsg.MessageWeight

/-!
# Messages do not come back from their files

Nothing is escaped in a message file, so the text of a field may be read as markup, and a field might seem
to come back by accident. Counting rules that out: every CDATA section, comment or processing instruction
uses up a `!` or a `?`, every tag uses up a `<`, and what has been used up is missing in the fields that are
read. So a message that comes back has no `<` in its texts, its file has the structure that was meant, and
the list of serial numbers is what Java prints for an array (`not_roundTrips`).
-/

namespace OrgLittle.Lmsg

open OrgLittle.Java OrgLittle.Lib OrgLittle.Util

/-- Two dates are the same to the second. -/
def SameSecond (a b : Option Date) : Prop := a.map (· / 1000) = b.map (· / 1000)

/-- Two messages are the same, with their dates to the second. -/
structure SameMessage (m m' : Message) : Prop where
  uid : m.uid = m'.uid
  from_ : m.from_ = m'.from_
  to_ : m.to_ = m'.to_
  subject : m.subject = m'.subject
  id : m.id = m'.id
  filename : m.filename = m'.filename
  mime : m.mime = m'.mime
  x509Type : m.x509Type = m'.x509Type
  x509TypeFile : m.x509TypeFile = m'.x509TypeFile
  x509BeginDate : SameSecond m.x509BeginDate m'.x509BeginDate
  x509EndDate : SameSecond m.x509EndDate m'.x509EndDate
  x509Serial : m.x509Serial = m'.x509Serial
  x509Subject : m.x509Subject = m'.x509Subject
  x509Issuer : m.x509Issuer = m'.x509Issuer
  bodyTxt : m.bodyTxt = m'.bodyTxt
  bodyBin : m.bodyBin = m'.bodyBin
  createDate : SameSecond m.createDate m'.createDate
  sentDate : SameSecond m.sentDate m'.sentDate
  receiveDate : SameSecond m.receiveDate m'.receiveDate
  delDate : SameSecond m.delDate m'.delDate
  answerDate : SameSecond m.answerDate m'.answerDate

/-- The message is the same after it is saved and loaded, whatever hash code the array of its serial numbers
has. -/
def RoundTrips (p : Platform) (m : Message) : Prop :=
  ∀ (hash : UInt32) (now : Date), ∃ m', loadFile p now (saveFile p hash m) = some m' ∧ SameMessage m m'

/-- Equal messages have equal texts. -/
theorem SameMessage.fieldWeight {m m' : Message} (h : SameMessage m m') (w : Char → ℕ) :
    fieldWeight w m = fieldWeight w m' := by
  unfold Lmsg.fieldWeight
  rw [h.from_, h.to_, h.filename, h.mime, h.x509Type, h.x509TypeFile, h.x509Subject, h.x509Issuer, h.bodyTxt]

/-! ## No markup in the fields -/

/-- Counts the characters that CDATA sections, comments and processing instructions need. Where every
character is one byte, those that are not US-ASCII count too, because they may become question marks. -/
def markWeight (oneByte : Prop) [Decidable oneByte] (c : Char) : ℕ :=
  if c = '!' ∨ c = '?' ∨ c = '&' ∨ (oneByte ∧ 128 ≤ c.toNat) then 1 else 0

/-- Counts `&`. -/
def ampWeight (c : Char) : ℕ := if c = '&' then 1 else 0

/-- Counts `<`. -/
def ltWeight (c : Char) : ℕ := if c = '<' then 1 else 0

theorem markWeight_le (oneByte : Prop) [Decidable oneByte] (c : Char) : markWeight oneByte c ≤ 1 := by
  unfold markWeight
  split_ifs <;> omega

/-- With an encoding of several bytes no mark stands for a character beyond ASCII. -/
theorem markWeight_high {c : Char} (hc : 128 ≤ c.toNat) : markWeight False c = 0 := by
  refine if_neg ?_
  rintro (rfl | rfl | rfl | ⟨h, -⟩)
  · exact absurd hc (by decide)
  · exact absurd hc (by decide)
  · exact absurd hc (by decide)
  · exact h

theorem silent_markWeight (oneByte : Prop) [Decidable oneByte] : Silent (markWeight oneByte) := by
  refine ⟨fun c hc => if_neg ?_, if_neg ?_⟩
  · obtain ⟨hlt, -, hamp, hbang, hquestion⟩ := isQuiet_iff.mp hc
    rintro (rfl | rfl | rfl | ⟨-, hle⟩)
    · exact hbang rfl
    · exact hquestion rfl
    · exact hamp rfl
    · omega
  · rintro (h | h | h | ⟨-, h⟩)
    all_goals exact absurd h (by decide)

/-- An entity can add a mark, but the `&` that it begins with is one itself. -/
theorem bound_markWeight (oneByte : Prop) [Decidable oneByte] :
    Xml.Bound (markWeight oneByte) (markWeight oneByte) 1 := by
  have hone : ∀ c, c = '!' ∨ c = '?' ∨ c = '&' → markWeight oneByte c = 1 := by
    intro c hc
    refine if_pos ?_
    rcases hc with h | h | h
    · exact Or.inl h
    · exact Or.inr (Or.inl h)
    · exact Or.inr (Or.inr (Or.inl h))
  refine ⟨fun c => ?_, fun c _ => Nat.le_refl _, ?_, ?_, ?_⟩
  · rw [hone '&' (by simp)]
    exact markWeight_le oneByte c
  · exact (silent_markWeight oneByte).quiet '\n' (by decide)
  · rw [hone '!' (by simp)]
  · rw [hone '?' (by simp)]

theorem silent_ampWeight : Silent ampWeight := by
  refine ⟨fun c hc => if_neg ?_, by decide⟩
  exact (isQuiet_iff.mp hc).2.2.1

/-- An entity that stands for `<` costs an `&`. -/
theorem bound_ampWeight : Xml.Bound (fun c => ampWeight c + ltWeight c) ampWeight 0 := by
  refine ⟨fun c => ?_, fun c hc => ?_, by decide, Nat.zero_le _, Nat.zero_le _⟩
  · have hamp : ampWeight '&' = 1 := by decide
    rw [hamp]
    unfold ampWeight ltWeight
    split_ifs with h h'
    · rw [h] at h'
      exact absurd h' (by decide)
    all_goals omega
  · have hlt : ltWeight c = 0 := if_neg hc
    show ampWeight c + ltWeight c ≤ ampWeight c
    omega

section reading

variable {p : Platform} {hash : UInt32} {m m' : Message} {now : Date}

/-- What has happened when a saved message is loaded. -/
theorem exists_of_loadFile (h : loadFile p now (saveFile p hash m) = some m') :
    ∃ id subject root,
      (saveFile p hash m).map windows1251 = p.reread (render (headerParts p hash m id subject) (bodyParts m))
      ∧ Xml.parseDocument xmlDecl (p.reread (render (headerParts p hash m id subject) (bodyParts m)))
        = some root
      ∧ root.children.foldlM (loadChild p) (Message.new now) = .ok m' := by
  unfold loadFile at h
  obtain ⟨root, hroot, h⟩ := Option.bind_eq_some_iff.mp h
  split_ifs at h
  have hfold : root.children.foldlM (loadChild p) (Message.new now) = .ok m' := by
    rcases hresult : root.children.foldlM (loadChild p) (Message.new now) with e | m₁
    · rw [hresult] at h
      cases h
    · rw [hresult] at h
      rw [Option.some.inj h]
  unfold saveFile msg2str at hroot ⊢
  rcases hid : m.id with _ | id
  · rw [hid] at hroot
    cases hroot
  rcases hsubject : m.subject with _ | subject
  · rw [hid, hsubject] at hroot
    cases hroot
  rw [hid, hsubject] at hroot
  exact ⟨id, subject, root, rfl, hroot, hfold⟩

/-- The fields that are read weigh at most what the fields that were written weigh. -/
theorem fieldWeight_le {w a : Char → ℕ} {k : ℕ} (hbound : Xml.Bound w a k) (hsilent : Silent a)
    (hother : ∀ c, 128 ≤ c.toNat → Xml.weight a (p.reread [c]) ≤ a c)
    (hpem : Xml.weight w "PEM".toList = 0) {id subject : JString} {root : Xml.Node}
    (hroot : Xml.parseDocument xmlDecl
      (p.reread (render (headerParts p hash m id subject) (bodyParts m))) = some root)
    (hfold : root.children.foldlM (loadChild p) (Message.new now) = .ok m')
    (hlt : w '<' ≤ a '<' ∨ root.specials = 0) :
    fieldWeight w m' + k * root.specials ≤ fieldWeight a m := by
  obtain ⟨s, hfile, hweight⟩ := hsilent.weight_file hother hash m id subject
  rw [hfile] at hroot
  obtain ⟨rest, hholds⟩ := hbound.parseDocument hroot
  have hone : Xml.specialsOfAll [root] = root.specials := Nat.add_zero _
  have hweigh : Xml.weighAll w [root] = root.weigh w := Nat.add_zero _
  have hdocument := hholds (by rwa [hone])
  rw [hone, hweigh] at hdocument
  have hfields := fieldWeight_loadChildren w p hpem hfold
  have hchildren := weighAll_children_le w root
  omega

/-- A message that comes back has been read from a document without CDATA sections, comments and
processing instructions. -/
theorem specials_eq_zero {id subject : JString} {root : Xml.Node}
    (hroot : Xml.parseDocument xmlDecl
      (p.reread (render (headerParts p hash m id subject) (bodyParts m))) = some root)
    (hfold : root.children.foldlM (loadChild p) (Message.new now) = .ok m') (hsame : SameMessage m m') :
    root.specials = 0 := by
  rcases p.encodeChar_other with hall | hone
  · have hother : ∀ c, 128 ≤ c.toNat →
        Xml.weight (markWeight False) (p.reread [c]) ≤ markWeight False c := by
      intro c hc
      have hchars : ∀ x ∈ p.reread [c], 128 ≤ x.toNat := by
        intro x hx
        rw [reread_char, List.mem_map] at hx
        obtain ⟨b, hb, rfl⟩ := hx
        exact le_windows1251 (hall c hc b hb)
      rw [Xml.weight_eq_zero fun x hx => markWeight_high (hchars x hx)]
      exact Nat.zero_le _
    have hle := fieldWeight_le (bound_markWeight False) (silent_markWeight False) hother (by decide)
      hroot hfold (Or.inl (Nat.le_refl _))
    rw [hsame.fieldWeight] at hle
    omega
  · have hother : ∀ c, 128 ≤ c.toNat →
        Xml.weight (markWeight True) (p.reread [c]) ≤ markWeight True c := by
      intro c hc
      obtain ⟨b, hb, -⟩ := hone c hc
      have hcount : markWeight True c = 1 := if_pos (Or.inr (Or.inr (Or.inr ⟨trivial, hc⟩)))
      rw [reread_char, hb, hcount, List.map_singleton, Xml.weight_cons, Xml.weight_nil, Nat.add_zero]
      exact markWeight_le True _
    have hle := fieldWeight_le (bound_markWeight True) (silent_markWeight True) hother (by decide)
      hroot hfold (Or.inl (Nat.le_refl _))
    rw [hsame.fieldWeight] at hle
    omega

/-- A message that comes back has no `<` in its fields. -/
theorem ltWeight_eq_zero {id subject : JString} {root : Xml.Node}
    (hroot : Xml.parseDocument xmlDecl
      (p.reread (render (headerParts p hash m id subject) (bodyParts m))) = some root)
    (hfold : root.children.foldlM (loadChild p) (Message.new now) = .ok m') (hsame : SameMessage m m') :
    fieldWeight ltWeight m = 0 := by
  have hother : ∀ c, 128 ≤ c.toNat → Xml.weight ampWeight (p.reread [c]) ≤ ampWeight c := by
    intro c hc
    have hzero : Xml.weight ampWeight (p.reread [c]) = 0 :=
      Xml.weight_eq_zero fun x hx => if_neg (ne_of_mem_reread p hc (by decide) hx)
    omega
  have hle := fieldWeight_le bound_ampWeight silent_ampWeight hother (by decide) hroot hfold
    (Or.inr (specials_eq_zero hroot hfold hsame))
  rw [← hsame.fieldWeight, fieldWeight_add] at hle
  omega

end reading

/-! ## A document without markup in its texts -/

theorem ltWeight_quiet : ∀ c, isQuiet c = true → ltWeight c = 0 :=
  fun _ hc => if_neg (isQuiet_iff.mp hc).2.1

theorem not_mem_of_ltWeight {s : JString} (h : Xml.weight ltWeight s = 0) : '<' ∉ s := by
  induction s with
  | nil => simp
  | cons c s ih =>
    rw [Xml.weight_cons, Nat.add_eq_zero_iff] at h
    intro hmem
    rcases List.mem_cons.mp hmem with rfl | hmem
    · exact absurd h.1 (by decide)
    · exact ih h.2 hmem

/-- What is read again has no `<` that was not there. -/
theorem not_mem_reread (p : Platform) {s : JString} (h : '<' ∉ s) : '<' ∉ p.reread s := by
  have hother : ∀ c, 128 ≤ c.toNat → Xml.weight ltWeight (p.reread [c]) ≤ ltWeight c := by
    intro c hc
    have hzero : Xml.weight ltWeight (p.reread [c]) = 0 :=
      Xml.weight_eq_zero fun x hx => if_neg (ne_of_mem_reread p hc (by decide) hx)
    omega
  have hzero : Xml.weight ltWeight s = 0 := by
    refine Xml.weight_eq_zero fun c hc => if_neg ?_
    rintro rfl
    exact h hc
  have hle := weight_reread_le p hother s
  exact not_mem_of_ltWeight (by omega)

/-- The texts of the document have no `<`. -/
theorem texts_not_mem (p : Platform) (hash : UInt32) {m : Message} (h : fieldWeight ltWeight m = 0)
    (id subject : JString) :
    ∀ part ∈ headerParts p hash m id subject ++ bodyParts m, ∀ t ∈ part.texts, '<' ∉ t := by
  intro part hpart t ht
  rw [← weight_texts ltWeight_quiet p hash m id subject, List.sum_eq_zero_iff_forall_eq_nat] at h
  exact not_mem_of_ltWeight (h _ (List.mem_flatMap.mpr ⟨part, hpart, List.mem_map_of_mem ht⟩))

/-- The parts as they are read have plain names and no `<` in their texts. -/
theorem plain_parts (p : Platform) (hash : UInt32) {m : Message} (h : fieldWeight ltWeight m = 0)
    (id subject : JString) :
    ∀ part ∈ headerParts p hash m id subject ++ bodyParts m,
      (part.map p.reread).isPlain = true ∧ ∀ t ∈ (part.map p.reread).texts, '<' ∉ t := by
  have hplain := List.forall_mem_append.mpr
    ⟨headerParts_isPlain p hash m id subject, bodyParts_isPlain m⟩
  intro part hpart
  refine ⟨by rw [Part.isPlain_map, hplain part hpart], fun t ht => ?_⟩
  rw [Part.texts_map] at ht
  obtain ⟨t', ht', rfl⟩ := List.mem_map.mp ht
  exact not_mem_reread p (texts_not_mem p hash h id subject part hpart t' ht')

/-- The node of a line with one element. -/
def leafNode (leaf : JString × JString) : Option Xml.Node :=
  (Xml.textNodes leaf.2).map (.element leaf.1)

/-- The node of a part. -/
def Part.node : Part → Option Xml.Node
  | .leaf name text => leafNode (name, text)
  | .block name leaves => (leaves.mapM leafNode).map fun nodes => .element name (Xml.onLines nodes)

/-- The names that `msg2str` writes are names of XML. -/
theorem isName_of_isPlainName {name : JString} (h : isPlainName name = true) : Xml.isName name = true := by
  rw [isPlainName, Bool.and_eq_true] at h
  exact h.1

/-- A part without `<` in its texts is read as its element. -/
theorem Part.reads {part : Part} (hplain : part.isPlain = true) (hlt : ∀ t ∈ part.texts, '<' ∉ t) :
    Xml.Reads part.src part.node := by
  rcases part with ⟨name, text⟩ | ⟨name, leaves⟩
  · exact Xml.Reads.leaf (isName_of_isPlainName hplain) (hlt text (by simp [Part.texts]))
  · rw [Part.isPlain, Bool.and_eq_true, List.all_eq_true] at hplain
    have hitems : ∀ item ∈ leaves.map fun leaf => (Xml.written leaf.1 leaf.2, leafNode leaf),
        Xml.Reads item.1 item.2 := by
      intro item hitem
      obtain ⟨leaf, hleaf, rfl⟩ := List.mem_map.mp hitem
      exact Xml.Reads.leaf (isName_of_isPlainName (hplain.2 leaf hleaf))
        (hlt leaf.2 (List.mem_map_of_mem hleaf))
    have hreads := Xml.Reads.lines (isName_of_isPlainName hplain.1) hitems
    rw [List.map_map, List.mapM_map] at hreads
    exact hreads

/-- A message that is read has the elements of its parts. -/
theorem parse_render {header body : List Part}
    (hheader : ∀ part ∈ header, part.isPlain = true ∧ ∀ t ∈ part.texts, '<' ∉ t)
    (hbody : ∀ part ∈ body, part.isPlain = true ∧ ∀ t ∈ part.texts, '<' ∉ t) {root : Xml.Node}
    (h : Xml.parseDocument xmlDecl (render header body) = some root) :
    ∃ hs bs, header.mapM Part.node = some hs ∧ body.mapM Part.node = some bs
      ∧ root = .element "msgbox".toList
          (Xml.onLines (.element "header".toList (Xml.onLines hs) :: bs)) := by
  have hitems : ∀ parts : List Part, (∀ part ∈ parts, part.isPlain = true ∧ ∀ t ∈ part.texts, '<' ∉ t) →
      ∀ item ∈ parts.map fun part => (part.src, part.node), Xml.Reads item.1 item.2 := by
    intro parts hparts item hitem
    obtain ⟨part, hpart, rfl⟩ := List.mem_map.mp hitem
    exact Part.reads (hparts part hpart).1 (hparts part hpart).2
  have hread := Xml.Reads.lines (show Xml.isName "header".toList = true by decide) (hitems header hheader)
  rw [List.map_map, List.mapM_map] at hread
  have hall : ∀ item ∈ (_, _) :: body.map fun part => (part.src, part.node), Xml.Reads item.1 item.2 :=
    List.forall_mem_cons.mpr ⟨hread, hitems body hbody⟩
  have hdocument := Xml.Reads.lines (show Xml.isName "msgbox".toList = true by decide) hall
  rw [List.map_cons, List.map_map, List.mapM_cons, List.mapM_map] at hdocument
  have hparse : Xml.parseDocument xmlDecl (render header body) = _ := Xml.parseDocument_written hdocument
  rw [hparse] at h
  obtain ⟨nodes, hnodes, rfl⟩ := Option.map_eq_some_iff.mp h
  obtain ⟨node, hnode, hnodes⟩ := Option.bind_eq_some_iff.mp hnodes
  obtain ⟨bs, hbs, hnodes⟩ := Option.bind_eq_some_iff.mp hnodes
  obtain ⟨hs, hhs, rfl⟩ := Option.map_eq_some_iff.mp hnode
  obtain rfl := Option.some.inj hnodes
  exact ⟨hs, bs, hhs, hbs, rfl⟩

/-! ## The serial numbers -/

section serial

variable {p : Platform}

/-- What one step of a loop establishes, and the later ones keep, holds in the end. -/
theorem foldlM_establishes {P : Message → Prop} {f : Message → Xml.Node → Except JavaException Message}
    {n : Xml.Node} {pre post : List Xml.Node} (hn : ∀ m m', f m n = .ok m' → P m')
    (hpost : ∀ n ∈ post, ∀ m m', P m → f m n = .ok m' → P m') {m m' : Message}
    (h : (pre ++ n :: post).foldlM f m = .ok m') : P m' := by
  have hkeep : ∀ m₁, P m₁ → post.foldlM f m₁ = .ok m' → P m' := by
    clear h
    induction post with
    | nil =>
      intro m₁ hm₁ h
      rwa [← Except.ok.inj h]
    | cons n' post ih =>
      intro m₁ hm₁ h
      obtain ⟨hfirst, hrest⟩ := List.forall_mem_cons.mp hpost
      obtain ⟨m₂, hstep, h⟩ := exists_of_bind h
      exact ih hrest m₂ (hfirst m₁ m₂ hm₁ hstep) h
  rw [List.foldlM_append] at h
  obtain ⟨m₁, -, h⟩ := exists_of_bind h
  obtain ⟨m₂, hstep, h⟩ := exists_of_bind h
  exact hkeep m₂ (hn m₁ m₂ hstep) h

theorem onLines_append (nodes : List Xml.Node) (n : Xml.Node) :
    ∃ pre, Xml.onLines (nodes ++ [n]) = pre ++ n :: [.text ['\n']] := by
  induction nodes with
  | nil => exact ⟨[.text ['\n']], rfl⟩
  | cons n' nodes ih =>
    obtain ⟨pre, hpre⟩ := ih
    exact ⟨.text ['\n'] :: n' :: pre, by rw [List.cons_append, Xml.onLines, hpre]; rfl⟩

/-- Between the nodes there are line ends only. -/
theorem mem_onLines {nodes : List Xml.Node} {n : Xml.Node} (h : n ∈ Xml.onLines nodes) :
    n = .text ['\n'] ∨ n ∈ nodes := by
  induction nodes with
  | nil => exact Or.inl (List.mem_singleton.mp h)
  | cons n' nodes ih =>
    rcases List.mem_cons.mp h with rfl | h
    · exact Or.inl rfl
    rcases List.mem_cons.mp h with rfl | h
    · exact Or.inr List.mem_cons_self
    · exact (ih h).imp_right (List.mem_cons_of_mem n')

/-- Only the header has serial numbers. -/
theorem x509Serial_loadChild {m m' : Message} {n : Xml.Node} (hn : n.name ≠ "header".toList)
    (h : loadChild p m n = .ok m') : m'.x509Serial = m.x509Serial := by
  unfold loadChild at h
  rcases hlookup : lookup (messageSetters p) n with _ | set
  · rw [hlookup] at h
    rw [← Except.ok.inj h]
  · rw [hlookup] at h
    have hmem := lookup_mem hlookup
    simp only [messageSetters, List.mem_cons, List.not_mem_nil, or_false, Prod.mk.injEq] at hmem
    rcases hmem with ⟨hname, -⟩ | ⟨-, rfl⟩ | ⟨-, rfl⟩
    · exact absurd hname hn
    · rw [← Except.ok.inj h]
    · obtain ⟨bytes, -, h⟩ := exists_of_bind h
      rw [← Except.ok.inj h]
      rfl

theorem forall₂_of_mapM {α β : Type} {f : α → Option β} {l : List α} {l' : List β}
    (h : l.mapM f = some l') : List.Forall₂ (fun a b => f a = some b) l l' := by
  induction l generalizing l' with
  | nil =>
    rw [← Option.some.inj h]
    exact .nil
  | cons a l ih =>
    rw [List.mapM_cons] at h
    obtain ⟨b, hb, h⟩ := Option.bind_eq_some_iff.mp h
    obtain ⟨bs, hbs, h⟩ := Option.bind_eq_some_iff.mp h
    rw [← Option.some.inj h]
    exact .cons hb (ih hbs)

theorem exists_of_mem_mapM {α β : Type} {f : α → Option β} {l : List α} {l' : List β}
    (h : l.mapM f = some l') {b : β} (hb : b ∈ l') : ∃ a ∈ l, f a = some b := by
  have hall := forall₂_of_mapM h
  clear h
  induction hall with
  | nil => cases hb
  | cons hhead _ ih =>
    rcases List.mem_cons.mp hb with rfl | hb
    · exact ⟨_, List.mem_cons_self, hhead⟩
    · obtain ⟨a, ha, hfa⟩ := ih hb
      exact ⟨a, List.mem_cons_of_mem _ ha, hfa⟩

theorem Part.name_node {part : Part} {n : Xml.Node} (h : part.node = some n) : n.name = part.name := by
  rcases part with ⟨name, text⟩ | ⟨name, leaves⟩
  all_goals
    obtain ⟨children, -, rfl⟩ := Option.map_eq_some_iff.mp h
    rfl

/-- No part of the body is taken for the header. -/
theorem bodyParts_name {m : Message} {part : Part} (h : part ∈ bodyParts m) :
    part.name ≠ "header".toList := by
  rcases List.mem_append.mp h with h | h
  all_goals
    obtain ⟨x, -, rfl⟩ := Option.map_eq_some_iff.mp (Option.mem_toList.mp h)
    rw [Part.name]
    decide

/-- What `toString` makes of an array is plain text. -/
theorem textNodes_arrayToString (hash : UInt32) :
    Xml.textNodes (arrayToString hash) = some [.text (arrayToString hash)] := by
  have hne : arrayToString hash ≠ [] := List.append_ne_nil_of_left_ne_nil (by decide) _
  have hchar : ∀ c ∈ arrayToString hash, Xml.isChar c = true :=
    arrayToString_all (List.all_eq_true.mp (by decide)) (by decide) hash
  have hspecial : ∀ x, x = '&' ∨ x = '\r' ∨ x = '>' → x ∉ arrayToString hash := by
    intro x hx hmem
    have hall := arrayToString_all (q := fun c => c ≠ '&' && c ≠ '\r' && c ≠ '>')
      (List.all_eq_true.mp (by decide)) (by decide) hash x hmem
    rcases hx with rfl | rfl | rfl
    all_goals exact absurd hall (by decide)
  rw [Xml.textNodes, if_neg hne, Xml.charData_eq hchar
    ⟨hspecial _ (Or.inl rfl), hspecial _ (Or.inr (Or.inl rfl)), hspecial _ (Or.inr (Or.inr rfl))⟩]
  rfl

/-- The X.509 fields come last in the header. -/
theorem headerParts_eq (hash : UInt32) (m : Message) (id subject : JString) :
    ∃ pre t₁ t₂ t₃ t₄ t₆ t₇, headerParts p hash m id subject
      = pre ++ [.block "x509".toList
          [("x509_type".toList, t₁), ("x509_type_file".toList, t₂), ("x509_begin_date".toList, t₃),
           ("x509_end_date".toList, t₄), ("x509_serial".toList, arrayToString hash),
           ("x509_subject".toList, t₆), ("x509_issuer".toList, t₇)]] := by
  have hlast : ∀ (l : List Part) (a b c d e x : Part),
      l ++ [a, b, c, d, e, x] = (l ++ [a, b, c, d, e]) ++ [x] := by
    intros
    rw [List.append_assoc]
    rfl
  exact ⟨_, _, _, _, _, _, _, hlast _ _ _ _ _ _ _⟩

/-- The serial numbers that are read are what `toString` made of the array. -/
theorem x509Serial_loadX509 {hash : UInt32} {t₁ t₂ t₃ t₄ t₆ t₇ : JString} {n : Xml.Node}
    (h : ((Part.block "x509".toList
      [("x509_type".toList, t₁), ("x509_type_file".toList, t₂), ("x509_begin_date".toList, t₃),
       ("x509_end_date".toList, t₄), ("x509_serial".toList, arrayToString hash),
       ("x509_subject".toList, t₆), ("x509_issuer".toList, t₇)]).map p.reread).node = some n)
    {m m' : Message} (hload : loadHeaderChild p m n = .ok m') : m'.x509Serial = [arrayToString hash] := by
  obtain ⟨nodes, hnodes, rfl⟩ := Option.map_eq_some_iff.mp h
  have hleaf : ∀ {name text n}, leafNode (name, text) = some n → ∃ c, Xml.textNodes text = some c
      ∧ n = .element name c := by
    intro name text n hn
    obtain ⟨c, hc, rfl⟩ := Option.map_eq_some_iff.mp hn
    exact ⟨c, hc, rfl⟩
  have hserial : p.reread (arrayToString hash) = arrayToString hash :=
    reread_ascii p fun c hc => isQuiet_lt (arrayToString_quiet hash c hc)
  obtain _ | ⟨h₁, _ | ⟨h₂, _ | ⟨h₃, _ | ⟨h₄, _ | ⟨h₅, _ | ⟨h₆, _ | ⟨h₇, _ | _⟩⟩⟩⟩⟩⟩⟩ :=
    forall₂_of_mapM hnodes
  obtain ⟨c₁, -, rfl⟩ := hleaf h₁
  obtain ⟨c₂, -, rfl⟩ := hleaf h₂
  obtain ⟨c₃, -, rfl⟩ := hleaf h₃
  obtain ⟨c₄, -, rfl⟩ := hleaf h₄
  obtain ⟨c₅, hc₅, rfl⟩ := hleaf h₅
  obtain ⟨c₆, -, rfl⟩ := hleaf h₆
  obtain ⟨c₇, -, rfl⟩ := hleaf h₇
  rw [hserial, textNodes_arrayToString] at hc₅
  obtain rfl := Option.some.inj hc₅
  have hset : m'.x509Serial = [arrayToString hash ++ []] := by
    rw [← Except.ok.inj hload]
    rfl
  rw [hset, List.append_nil]

/-- The serial numbers of a message that is read from a document with the right structure. -/
theorem x509Serial_of_load {hash : UInt32} {m m' : Message} {id subject : JString} {now : Date}
    {hs bs : List Xml.Node}
    (hhs : ((headerParts p hash m id subject).map (Part.map p.reread)).mapM Part.node = some hs)
    (hbs : ((bodyParts m).map (Part.map p.reread)).mapM Part.node = some bs)
    (hfold : (Xml.onLines (.element "header".toList (Xml.onLines hs) :: bs)).foldlM (loadChild p)
      (Message.new now) = .ok m') : m'.x509Serial = [arrayToString hash] := by
  have hbody : ∀ n ∈ Xml.onLines bs, n.name ≠ "header".toList := by
    intro n hn
    rcases mem_onLines hn with rfl | hn
    · decide
    · obtain ⟨part, hpart, hnode⟩ := exists_of_mem_mapM hbs hn
      obtain ⟨part', hpart', rfl⟩ := List.mem_map.mp hpart
      rw [Part.name_node hnode, Part.name_map]
      exact bodyParts_name hpart'
  have hheader : ∀ m₁ m₂, loadChild p m₁ (.element "header".toList (Xml.onLines hs)) = .ok m₂ →
      m₂.x509Serial = [arrayToString hash] := by
    intro m₁ m₂ hload
    change loadHeader p m₁ _ = _ at hload
    obtain ⟨pre, t₁, t₂, t₃, t₄, t₆, t₇, hparts⟩ := headerParts_eq hash m id subject
    rw [hparts, List.map_append, List.mapM_append] at hhs
    obtain ⟨hs₁, -, hhs⟩ := Option.bind_eq_some_iff.mp hhs
    obtain ⟨hs₂, hhs₂, hhs⟩ := Option.bind_eq_some_iff.mp hhs
    obtain _ | ⟨hn, _ | _⟩ := forall₂_of_mapM hhs₂
    obtain rfl := Option.some.inj hhs
    obtain ⟨nodes, hnodes⟩ := onLines_append hs₁ _
    rw [loadHeader, Xml.Node.children, hnodes] at hload
    refine foldlM_establishes (P := fun m => m.x509Serial = [arrayToString hash])
      (fun _ _ hstep => x509Serial_loadX509 hn hstep) ?_ hload
    intro n hmem m₃ m₄ hserial hstep
    rw [List.mem_singleton.mp hmem] at hstep
    rw [← Except.ok.inj hstep, hserial]
  have hnodes : Xml.onLines (.element "header".toList (Xml.onLines hs) :: bs)
      = [.text ['\n']] ++ .element "header".toList (Xml.onLines hs) :: Xml.onLines bs := rfl
  rw [hnodes] at hfold
  refine foldlM_establishes (P := fun m => m.x509Serial = [arrayToString hash]) hheader ?_ hfold
  intro n hmem m₁ m₂ hserial hstep
  rw [x509Serial_loadChild (hbody n hmem) hstep, hserial]

end serial

/-- A message that comes back has what Java prints for the array of its serial numbers as its only serial
number. -/
theorem x509Serial_eq {p : Platform} {hash : UInt32} {m m' : Message} {now : Date}
    (h : loadFile p now (saveFile p hash m) = some m') (hsame : SameMessage m m') :
    m.x509Serial = [arrayToString hash] := by
  obtain ⟨id, subject, root, -, hroot, hfold⟩ := exists_of_loadFile h
  have hlt := ltWeight_eq_zero hroot hfold hsame
  obtain ⟨hheader, hbody⟩ := List.forall_mem_append.mp (plain_parts p hash hlt id subject)
  rw [reread_render p (headerParts_isPlain p hash m id subject) (bodyParts_isPlain m)] at hroot
  obtain ⟨hs, bs, hhs, hbs, rfl⟩ :=
    parse_render (List.forall_mem_map.mpr hheader) (List.forall_mem_map.mpr hbody) hroot
  rw [hsame.x509Serial]
  exact x509Serial_of_load hhs hbs hfold

/-- No message comes back from its file. -/
theorem not_roundTrips (p : Platform) (m : Message) : ¬ RoundTrips p m := by
  intro h
  obtain ⟨m₁, hload₁, hsame₁⟩ := h 1 0
  obtain ⟨m₂, hload₂, hsame₂⟩ := h 2 0
  have hserial := (x509Serial_eq hload₁ hsame₁).symm.trans (x509Serial_eq hload₂ hsame₂)
  exact absurd hserial (by decide)

/-- Each character becomes one byte. -/
theorem latin1_encode (s : JString) : Charset.latin1.encode s = s.flatMap fun c => [c2b c] := by
  show s.map c2b = s.flatMap fun c => [c2b c]
  rw [List.map_eq_flatMap]

theorem c2b_ascii (c : Char) (hc : c.toNat < 128) : [c2b c] = [UInt8.ofNat c.toNat] := by
  rw [c2b, if_neg (by omega)]

/-- A character outside ASCII becomes a byte outside ASCII or a question mark. -/
theorem c2b_other (c : Char) (hc : 128 ≤ c.toNat) :
    ∃ b, [c2b c] = [b] ∧ (128 ≤ b.toNat ∨ b = 63) := by
  refine ⟨c2b c, rfl, ?_⟩
  unfold c2b
  split_ifs with hlarge
  · exact Or.inr rfl
  · rw [UInt8.toNat_ofNat', Nat.mod_eq_of_lt (show c.toNat < 2 ^ 8 by omega)]
    exact Or.inl hc

/-- The dates of the first two days of 1970, in UTC. -/
def formatUtc (d : Date) : JString :=
  if d = 0 then "1970-01-01_00:00:00".toList else "1970-01-02_00:00:00".toList

/-- A date is written in digits and three separators. -/
theorem formatUtc_chars (d : Date) :
    ∀ c ∈ formatUtc d, c.isDigit = true ∨ c = '-' ∨ c = '_' ∨ c = ':' := by
  unfold formatUtc
  split_ifs
  all_goals exact List.all_iff_forall_prop.mp (by decide)

/-- A platform with ISO-8859-1 in UTC, at the beginning of 1970. -/
def Platform.utc : Platform where
  charset := Charset.latin1
  encodeChar c := [c2b c]
  encode_eq := latin1_encode
  encodeChar_ascii := c2b_ascii
  encodeChar_other := Or.inr c2b_other
  format := formatUtc
  parse s :=
    if s = "1970-01-01_00:00:00".toList then some 0
    else if s = "1970-01-02_00:00:00".toList then some 86400000
    else none
  format_chars := formatUtc_chars

/-- A message with a serial number, that was received and answered on different days. -/
def Message.answered : Message :=
  { Message.new 0 with receiveDate := some 0, answerDate := some 86400000, x509Serial := ["5".toList] }

/-- It comes back with another serial number and another date of its answer. -/
theorem not_roundTrips_answered :
    (loadFile Platform.utc 0 (saveFile Platform.utc 27 Message.answered)).map
        (fun m' => (m'.x509Serial, m'.answerDate))
      = some (["[Ljava.lang.String;@1b".toList], some 0)
    ∧ ¬ ∀ p m, RoundTrips p m := by
  have hload : (loadFile Platform.utc 0 (saveFile Platform.utc 27 Message.answered)).map
        (fun m' => (m'.x509Serial, m'.answerDate))
      = some (["[Ljava.lang.String;@1b".toList], some 0) := by
    decide +kernel
  refine ⟨hload, fun h => ?_⟩
  obtain ⟨m', hm', hsame⟩ := h Platform.utc Message.answered 27 0
  rw [hm', Option.map_some] at hload
  have hserial : m'.x509Serial = ["[Ljava.lang.String;@1b".toList] :=
    congrArg Prod.fst (Option.some.inj hload)
  rw [← hsame.x509Serial] at hserial
  exact absurd hserial (by decide)

end OrgLittle.Lmsg
