import OrgLittle.Lmsg.MessageRoundTrip
import OrgLittle.Lmsg.Store

/-!
# The identifier in a message file

`msg2str` writes the identifier as the first element of the header, and `loadHeader` keeps the last `msg_uid` that
it finds. The other fields are written without escapes, so a text with markup may bring another `msg_uid`. The
identifier comes back from every file that is read if the last `msg_uid` of its headers says the same
(`uid_of_loadFile`), which is so when no text has a `<` (`keepsUid_of_plain`).
-/

namespace OrgLittle.Lmsg

open OrgLittle.Java OrgLittle.Lib OrgLittle.Util

/-- What `lFSMessage.load` finds at the time `now` in a file with these bytes, whose message was saved with the
identifier `given`. -/
def MessageFile.ofBytes (p : Platform) (now : Date) (name : JString) (given : ℤ) (bytes : List UInt8) :
    MessageFile where
  name := name
  given := given
  uid := ((loadFile p now bytes).map (·.uid)).getD 0
  received := (loadFile p now bytes).any (·.receiveDate.isSome)
  readable := (loadFile p now bytes).isSome

/-! ## The last identifier -/

/-- The elements `msg_uid` of a header. -/
def headerUids (header : Xml.Node) : List Xml.Node :=
  header.children.filter fun n => n.name = "msg_uid".toList

/-- The elements `msg_uid` in the headers of a message file. -/
def uidNodes (root : Xml.Node) : List Xml.Node :=
  (root.children.filter fun n => n.name = "header".toList).flatMap headerUids

/-- The identifier that an element says. -/
def uidOf (n : Xml.Node) : ℤ := (parseInt n.textContent).getD 0

/-- The last `msg_uid` that the parser finds in a header of the message's file says its identifier. -/
def KeepsUid (p : Platform) (hash : UInt32) (m : Message) : Prop :=
  ∀ root ∈ Xml.parseDocument xmlDecl ((saveFile p hash m).map windows1251),
    ∀ n ∈ (uidNodes root).getLast?, uidOf n = m.uid

instance (p : Platform) (hash : UInt32) (m : Message) : Decidable (KeepsUid p hash m) :=
  inferInstanceAs (Decidable (∀ root ∈ Xml.parseDocument _ _, ∀ n ∈ (uidNodes root).getLast?, _))

/-- A file name with markup brings another identifier. -/
example : (loadFile Platform.utc 0 (saveFile Platform.utc 27 { Message.new 0 with
    uid := 11, filename := some "</msg_filename><msg_uid>10</msg_uid><msg_filename>".toList })).map (·.uid)
      = some 10 := by
  decide +kernel

section loading

variable {p : Platform}

theorem uid_loadTo (m : Message) (n : Xml.Node) : (loadTo m n).uid = m.uid := by
  unfold loadTo
  induction n.children generalizing m with
  | nil => rfl
  | cons n' nodes ih =>
    rw [List.foldl_cons, ih]
    split_ifs <;> rfl

theorem uid_loadX509 (m : Message) (n : Xml.Node) : (loadX509 p m n).uid = m.uid := by
  have hset : ∀ entry ∈ x509Setters p, ∀ (m : Message) s, (entry.2 m s).uid = m.uid := by
    simp [x509Setters]
  unfold loadX509
  induction n.children generalizing m with
  | nil => rfl
  | cons n' nodes ih =>
    rw [List.foldl_cons, ih, loadX509Child]
    cases hlookup : lookup (x509Setters p) n' with
    | none => rfl
    | some set => exact hset _ (lookup_mem hlookup) m _

/-- Only an element `msg_uid` of the header sets the identifier. -/
theorem uid_loadHeaderChild {m m' : Message} {n : Xml.Node} (h : loadHeaderChild p m n = .ok m') :
    m'.uid = if n.name = "msg_uid".toList then uidOf n else m.uid := by
  unfold loadHeaderChild at h
  cases hlookup : lookup (headerSetters p) n with
  | none =>
    rw [hlookup] at h
    have hname : n.name ≠ "msg_uid".toList := by
      intro hname
      simp [lookup, headerSetters, hname] at hlookup
    rw [if_neg hname, ← Except.ok.inj h]
  | some set =>
    rw [hlookup] at h
    have hmem := lookup_mem hlookup
    simp only [headerSetters, List.mem_cons, List.not_mem_nil, or_false, Prod.mk.injEq] at hmem
    rcases hmem with ⟨hname, rfl⟩ | ⟨hname, rfl⟩ | ⟨hname, rfl⟩ | ⟨hname, rfl⟩ | ⟨hname, rfl⟩ | ⟨hname, rfl⟩
      | ⟨hname, rfl⟩ | ⟨hname, rfl⟩ | ⟨hname, rfl⟩ | ⟨hname, rfl⟩ | ⟨hname, rfl⟩ | ⟨hname, rfl⟩ | ⟨hname, rfl⟩
      | ⟨hname, rfl⟩
    all_goals rw [hname]
    case inr.inl =>
      obtain ⟨bytes, -, h⟩ := exists_of_bind h
      rw [← Except.ok.inj h]
      rfl
    case inr.inr.inl =>
      obtain ⟨bytes, -, h⟩ := exists_of_bind h
      rw [← Except.ok.inj h]
      rfl
    case inr.inr.inr.inl =>
      rw [← Except.ok.inj h, uid_loadTo]
      rfl
    case inr.inr.inr.inr.inr.inr.inr.inr.inr.inr.inr.inr.inr =>
      rw [← Except.ok.inj h, uid_loadX509]
      rfl
    all_goals
      rw [← Except.ok.inj h]
      rfl

/-- A loop that sets the identifier from the last of some nodes. -/
theorem uid_foldlM {f : Message → Xml.Node → Except JavaException Message} {g : Xml.Node → List Xml.Node}
    (hf : ∀ m n m', f m n = .ok m' → m'.uid = ((g n).getLast?.map uidOf).getD m.uid) {nodes : List Xml.Node}
    {m m' : Message} (h : nodes.foldlM f m = .ok m') :
    m'.uid = ((nodes.flatMap g).getLast?.map uidOf).getD m.uid := by
  induction nodes generalizing m with
  | nil =>
    rw [← Except.ok.inj h]
    rfl
  | cons n nodes ih =>
    obtain ⟨m₁, hfirst, h⟩ := exists_of_bind h
    rw [ih h, hf m n m₁ hfirst, List.flatMap_cons, List.getLast?_append]
    cases (nodes.flatMap g).getLast? <;> rfl

theorem flatMap_ite (q : Xml.Node → Prop) [DecidablePred q] (g : Xml.Node → List Xml.Node) (nodes : List Xml.Node) :
    (nodes.flatMap fun n => if q n then g n else []) = (nodes.filter fun n => q n).flatMap g := by
  induction nodes with
  | nil => rfl
  | cons n nodes ih =>
    rw [List.flatMap_cons, ih, List.filter_cons]
    by_cases hn : q n
    · rw [if_pos hn, if_pos (decide_eq_true hn), List.flatMap_cons]
    · rw [if_neg hn, if_neg (by simpa using hn), List.nil_append]

theorem uid_loadHeader {m m' : Message} {header : Xml.Node} (h : loadHeader p m header = .ok m') :
    m'.uid = ((headerUids header).getLast?.map uidOf).getD m.uid := by
  have hstep : ∀ m n m', loadHeaderChild p m n = .ok m' →
      m'.uid = ((if n.name = "msg_uid".toList then [n] else []).getLast?.map uidOf).getD m.uid := by
    intro m n m' h
    rw [uid_loadHeaderChild h]
    split_ifs <;> rfl
  rw [uid_foldlM hstep h, flatMap_ite, List.flatMap_singleton', headerUids]

theorem uid_loadChild {m : Message} {n : Xml.Node} {m' : Message} (h : loadChild p m n = .ok m') :
    m'.uid = ((if n.name = "header".toList then headerUids n else []).getLast?.map uidOf).getD m.uid := by
  unfold loadChild at h
  cases hlookup : lookup (messageSetters p) n with
  | none =>
    rw [hlookup] at h
    have hname : n.name ≠ "header".toList := by
      intro hname
      simp [lookup, messageSetters, hname] at hlookup
    rw [if_neg hname, ← Except.ok.inj h]
    rfl
  | some set =>
    rw [hlookup] at h
    have hmem := lookup_mem hlookup
    simp only [messageSetters, List.mem_cons, List.not_mem_nil, or_false, Prod.mk.injEq] at hmem
    obtain ⟨hname, rfl⟩ | ⟨hname, rfl⟩ | ⟨hname, rfl⟩ := hmem
    · rw [if_pos hname]
      exact uid_loadHeader h
    · rw [hname, ← Except.ok.inj h]
      rfl
    · obtain ⟨bytes, -, h⟩ := exists_of_bind h
      rw [hname, ← Except.ok.inj h]
      rfl

/-- The identifier that is loaded is what the last `msg_uid` says. -/
theorem uid_of_foldlM {m m' : Message} {root : Xml.Node} (h : root.children.foldlM (loadChild p) m = .ok m') :
    m'.uid = ((uidNodes root).getLast?.map uidOf).getD m.uid := by
  rw [uid_foldlM (fun _ _ _ h => uid_loadChild h) h, flatMap_ite, uidNodes]

end loading

/-! ## The identifier that is written -/

section writing

variable {p : Platform} {hash : UInt32} {m m' : Message} {now : Date}

/-- A document whose first line of the header is the element `first`: its header is read first, and `first` in it. -/
theorem exists_of_parse_render {first : Part} {header body : List Part}
    (hfirst : ∃ c s, first.src = c :: s ∧ Xml.isNameStart c = true) {root : Xml.Node}
    (h : Xml.parseDocument xmlDecl (render (first :: header) body) = some root) :
    ∃ fuel rest node nodes nodes' after, Xml.element (Xml.content fuel) (first.src ++ rest) = some (node, after)
      ∧ root.children = .text ['\n'] :: .element "header".toList (.text ['\n'] :: node :: nodes) :: nodes' := by
  obtain ⟨fuel, after, helement⟩ := Xml.exists_of_parseDocument h
  have hstart {name inner : JString} (hname : Xml.isName name = true) := Xml.written_start hname inner
  have hwritten (name inner rest : JString) : Xml.written name inner ++ rest
      = name ++ '>' :: (inner ++ ('<' :: '/' :: (name ++ ['>']) ++ rest)) := by
    simp [Xml.written]
  rw [Xml.written] at helement
  obtain ⟨children, after', hcontent, rfl⟩ := Xml.exists_of_element (by decide) helement
  rw [Xml.lines, List.cons_append, List.cons_append, List.append_assoc] at hcontent
  obtain ⟨fuel, header', nodes', after₁, hheader, rfl⟩ := Xml.exists_of_content_line (hstart (by decide)) hcontent
  rw [hwritten] at hheader
  obtain ⟨children, after₂, hinner, rfl⟩ := Xml.exists_of_element (by decide) hheader
  rw [List.map_cons, Xml.lines, List.cons_append, List.cons_append, List.append_assoc] at hinner
  obtain ⟨fuel, node, nodes, after₃, hnode, rfl⟩ := Xml.exists_of_content_line hfirst hinner
  exact ⟨fuel, _, node, nodes, nodes', after₃, hnode, rfl⟩

/-- In a file that can be read there is an element `msg_uid` in the header. -/
theorem uidNodes_ne_nil {id subject : JString} {root : Xml.Node}
    (hroot : Xml.parseDocument xmlDecl
      (p.reread (render (headerParts p hash m id subject) (bodyParts m))) = some root) : uidNodes root ≠ [] := by
  rw [reread_render p (headerParts_isPlain p hash m id subject) (bodyParts_isPlain m)] at hroot
  have hname : Xml.isName "msg_uid".toList = true := by decide
  have hstart : ∃ c s, (Part.map p.reread (.leaf "msg_uid".toList (intToString m.uid))).src = c :: s
      ∧ Xml.isNameStart c = true := Xml.written_start hname _
  obtain ⟨fuel, rest, node, nodes, nodes', after, hnode, hchildren⟩ := exists_of_parse_render hstart hroot
  have hwritten (inner : JString) : Xml.written "msg_uid".toList inner ++ rest
      = "msg_uid".toList ++ '>' :: (inner ++ ('<' :: '/' :: ("msg_uid".toList ++ ['>']) ++ rest)) := by
    simp [Xml.written]
  change Xml.element _ (Xml.written "msg_uid".toList _ ++ rest) = _ at hnode
  rw [hwritten] at hnode
  obtain ⟨children, -, -, rfl⟩ := Xml.exists_of_element hname hnode
  have huid : .element "msg_uid".toList children
      ∈ headerUids (.element "header".toList (.text ['\n'] :: .element "msg_uid".toList children :: nodes)) :=
    List.mem_filter.mpr ⟨List.mem_cons_of_mem _ List.mem_cons_self, decide_eq_true rfl⟩
  refine List.ne_nil_of_mem (List.mem_flatMap.mpr ⟨_, List.mem_filter.mpr ⟨?_, ?_⟩, huid⟩)
  · rw [hchildren]
    exact List.mem_cons_of_mem _ List.mem_cons_self
  · exact decide_eq_true rfl

/-- A message whose file keeps its identifier is read with it, if it is read. -/
theorem uid_of_loadFile (hkeeps : KeepsUid p hash m) (h : loadFile p now (saveFile p hash m) = some m') :
    m'.uid = m.uid := by
  obtain ⟨id, subject, root, hfile, hroot, hfold⟩ := exists_of_loadFile h
  have hlast := List.getLast?_eq_some_getLast (uidNodes_ne_nil hroot)
  rw [uid_of_foldlM hfold, hlast, Option.map_some, Option.getD_some]
  refine hkeeps root ?_ _ hlast
  rw [hfile]
  exact hroot

theorem textNodes_intToString (v : ℤ) : Xml.textNodes (intToString v) = some [.text (intToString v)] := by
  have hall : ∀ c ∈ intToString v, (Xml.isChar c && c ≠ '&' && c ≠ '\r' && c ≠ '>') = true :=
    intToString_all (by decide) (by decide) v
  have hchar : ∀ c ∈ intToString v, Xml.isChar c = true ∧ c ≠ '&' ∧ c ≠ '\r' ∧ c ≠ '>' := by
    simpa [and_assoc] using hall
  have hne : intToString v ≠ [] := by
    unfold intToString
    split_ifs
    · exact List.cons_ne_nil _ _
    · exact Nat.toDigits_ne_nil
  rw [Xml.textNodes, if_neg hne, Xml.charData_eq fun c hc => (hchar c hc).1]
  · rfl
  · exact ⟨fun h => (hchar _ h).2.1 rfl, fun h => (hchar _ h).2.2.1 rfl, fun h => (hchar _ h).2.2.2 rfl⟩

theorem eq_of_name_msg_uid {id subject : JString} {part : Part} (hpart : part ∈ headerParts p hash m id subject)
    (hname : part.name = "msg_uid".toList) : part = .leaf "msg_uid".toList (intToString m.uid) := by
  simp only [headerParts, List.mem_append, List.mem_cons, List.not_mem_nil, or_false, Option.mem_toList,
    Option.map_eq_some_iff] at hpart
  rcases hpart with ((((((rfl | rfl | rfl) | ⟨d, -, rfl⟩) | ⟨d, -, rfl⟩) | ⟨d, -, rfl⟩) | ⟨d, -, rfl⟩) | ⟨d, -, rfl⟩)
    | rfl | rfl | rfl | rfl | rfl | rfl
  · rfl
  all_goals
    rw [Part.name] at hname
    exact absurd hname (by decide)

/-- A message without `<` in its texts keeps its identifier. -/
theorem keepsUid_of_plain (hlt : fieldWeight ltWeight m = 0) (hlo : -2 ^ 31 ≤ m.uid) (hhi : m.uid < 2 ^ 31) :
    KeepsUid p hash m := by
  intro root hroot n hn
  rw [Option.mem_def, saveFile, msg2str] at hroot
  rcases hid : m.id with _ | id
  · rw [hid] at hroot
    cases hroot
  rcases hsubject : m.subject with _ | subject
  · rw [hid, hsubject] at hroot
    cases hroot
  rw [hid, hsubject] at hroot
  change Xml.parseDocument xmlDecl (p.reread (render (headerParts p hash m id subject) (bodyParts m))) = _ at hroot
  have hparts := plain_parts p hash hlt id subject
  obtain ⟨hheader, hbody⟩ := List.forall_mem_append.mp hparts
  rw [reread_render p (headerParts_isPlain p hash m id subject) (bodyParts_isPlain m)] at hroot
  obtain ⟨hs, bs, hhs, hbs, rfl⟩ :=
    parse_render (List.forall_mem_map.mpr hheader) (List.forall_mem_map.mpr hbody) hroot
  obtain ⟨header, hmem, hn⟩ := List.mem_flatMap.mp (List.mem_of_getLast? hn)
  obtain ⟨hchild, hname⟩ := List.mem_filter.mp hmem
  -- there is one header, the one that was written
  obtain rfl : header = .element "header".toList (Xml.onLines hs) := by
    rcases mem_onLines hchild with rfl | hchild
    · exact absurd hname (by decide)
    · rcases List.mem_cons.mp hchild with rfl | hchild
      · rfl
      · obtain ⟨part, hpart, hnode⟩ := exists_of_mem_mapM hbs hchild
        obtain ⟨part', hpart', rfl⟩ := List.mem_map.mp hpart
        rw [Part.name_node hnode, Part.name_map] at hname
        exact absurd (of_decide_eq_true hname) (bodyParts_name hpart')
  obtain ⟨hn, huid⟩ := List.mem_filter.mp hn
  rcases mem_onLines hn with rfl | hn
  · exact absurd huid (by decide)
  obtain ⟨part, hpart, hnode⟩ := exists_of_mem_mapM hhs hn
  obtain ⟨part', hpart', rfl⟩ := List.mem_map.mp hpart
  rw [Part.name_node hnode, Part.name_map] at huid
  rw [eq_of_name_msg_uid hpart' (of_decide_eq_true huid), Part.map, Part.node, leafNode,
    reread_ascii p fun c hc => isQuiet_lt (intToString_quiet _ c hc), textNodes_intToString] at hnode
  cases hnode
  rw [uidOf, Xml.Node.textContent, Xml.textOfAll, Xml.textOfAll, List.append_nil]
  exact (congrArg (Option.getD · 0) (parseInt_intToString hlo hhi))

end writing

end OrgLittle.Lmsg
