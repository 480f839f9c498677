import OrgLittle.Lib.Xml

/-!
# Weights of XML documents

A weight counts some kinds of characters. Reading a document does not add to it, as long as `&` counts
(`Bound.parseDocument`), and every CDATA section, comment or processing instruction uses some of it up.
-/

namespace OrgLittle.Lib.Xml

/-! ## Texts and nodes -/

/-- The weight of a text. -/
def weight (w : Char → ℕ) (s : List Char) : ℕ := (s.map w).sum

section weight

variable (w : Char → ℕ)

@[simp] theorem weight_nil : weight w [] = 0 := rfl

@[simp] theorem weight_cons (c : Char) (s : List Char) : weight w (c :: s) = w c + weight w s := by
  simp [weight]

@[simp] theorem weight_append (s t : List Char) : weight w (s ++ t) = weight w s + weight w t := by
  simp [weight]

theorem weight_eq_zero {w : Char → ℕ} {s : List Char} (h : ∀ c ∈ s, w c = 0) : weight w s = 0 := by
  induction s with
  | nil => rfl
  | cons c s ih =>
    obtain ⟨hc, hrest⟩ := List.forall_mem_cons.mp h
    rw [weight_cons, hc, ih hrest]

/-- What is left of a text weighs no more than the text. -/
theorem weight_le_of_suffix {s t : List Char} (h : s <:+ t) : weight w s ≤ weight w t := by
  obtain ⟨r, rfl⟩ := h
  rw [weight_append]
  omega

mutual

/-- The weight of all data in a node. -/
def Node.weigh : Node → ℕ
  | .text data => weight w data
  | .cdata data => weight w data
  | .comment data => weight w data
  | .instruction _ data => weight w data
  | .element _ children => weighAll children

/-- The weight of all data in some nodes. -/
def weighAll : List Node → ℕ
  | [] => 0
  | node :: nodes => node.weigh + weighAll nodes

end

mutual

/-- The number of CDATA sections, comments and processing instructions. -/
def Node.specials : Node → ℕ
  | .text _ => 0
  | .cdata _ => 1
  | .comment _ => 1
  | .instruction _ _ => 1
  | .element _ children => specialsOfAll children

/-- The number of CDATA sections, comments and processing instructions in some nodes. -/
def specialsOfAll : List Node → ℕ
  | [] => 0
  | node :: nodes => node.specials + specialsOfAll nodes

end

mutual

/-- What is read out of a node is no heavier than its source, since entities and markup have been taken away. -/
theorem weight_textContent_le : ∀ node : Node, weight w node.textContent ≤ node.weigh w
  | .text _ => Nat.le_refl _
  | .cdata _ => Nat.le_refl _
  | .comment _ => Nat.le_refl _
  | .instruction _ _ => Nat.le_refl _
  | .element _ children => weight_textOfAll_le children

theorem weight_textOfAll_le : ∀ nodes : List Node, weight w (textOfAll nodes) ≤ weighAll w nodes
  | [] => Nat.le_refl _
  | node :: nodes => by
    have hnode := weight_textContent_le node
    have hnodes := weight_textOfAll_le nodes
    rw [textOfAll, weight_append, weighAll]
    split_ifs
    · exact Nat.add_le_add hnode hnodes
    · exact Nat.add_le_add (Nat.zero_le _) hnodes

end

end weight

/-! ## Reading -/

/-- What reading does to weights: the data that is read weighs at most, by `w`, what the text weighs by `a`,
and a CDATA section, a comment or a processing instruction costs `k`. -/
structure Bound (w a : Char → ℕ) (k : ℕ) : Prop where
  reference : ∀ c, w c ≤ a '&'
  char : ∀ c, c ≠ '<' → w c ≤ a c
  newline : a '\n' = 0
  bang : k ≤ a '!'
  question : k ≤ a '?'

/-- Line ends may be rewritten where they weigh nothing. -/
theorem weight_normalizeLines_le {a : Char → ℕ} (h : a '\n' = 0) (s : List Char) :
    weight a (normalizeLines s) ≤ weight a s := by
  fun_induction normalizeLines s with
  | case1 => exact Nat.le_refl _
  | case2 s ih =>
    simp only [weight_cons, h]
    omega
  | case3 s _ ih =>
    simp only [weight_cons, h]
    omega
  | case4 c s _ _ ih =>
    simp only [weight_cons]
    omega

theorem mem_of_mem_normalizeLines {c : Char} (hc : c ≠ '\n') {s : List Char}
    (h : c ∈ normalizeLines s) : c ∈ s := by
  fun_induction normalizeLines s with
  | case1 => exact h
  | case2 s ih =>
    rcases List.mem_cons.mp h with rfl | h
    · exact absurd rfl hc
    · exact List.mem_cons_of_mem _ (List.mem_cons_of_mem _ (ih h))
  | case3 s _ ih =>
    rcases List.mem_cons.mp h with rfl | h
    · exact absurd rfl hc
    · exact List.mem_cons_of_mem _ (ih h)
  | case4 c' s _ _ ih =>
    rcases List.mem_cons.mp h with rfl | h
    · exact List.mem_cons_self
    · exact List.mem_cons_of_mem _ (ih h)

namespace Bound

variable {w a : Char → ℕ} {k : ℕ}

theorem weight_le (h : Bound w a k) (hlt : w '<' ≤ a '<') (s : List Char) : weight w s ≤ weight a s := by
  induction s with
  | nil => exact Nat.le_refl _
  | cons c s ih =>
    rw [weight_cons, weight_cons]
    by_cases hc : c = '<'
    · subst hc
      exact Nat.add_le_add hlt ih
    · exact Nat.add_le_add (h.char c hc) ih

theorem normalizeLines (h : Bound w a k) (s : List Char) :
    weight w (Xml.normalizeLines s) ≤ weight w s := by
  have hle := h.char '\n' (by decide)
  rw [h.newline] at hle
  exact weight_normalizeLines_le (Nat.le_zero.mp hle) s

/-- Expanding references in a text without markup. The `&` of the pending reference has been read. -/
theorem expand (h : Bound w a k) {pending : Option (List Char)} {s t : List Char} (hs : '<' ∉ s)
    (ht : Xml.expand pending s = some t) :
    weight w t ≤ weight a s + pending.elim 0 fun _ => a '&' := by
  fun_induction Xml.expand pending s generalizing t with
  | case1 =>
    obtain rfl := Option.some.inj ht
    exact Nat.zero_le _
  | case2 => cases ht
  | case3 s ih =>
    have hrest := ih (fun hmem => hs (List.mem_cons_of_mem _ hmem)) ht
    simp only [Option.elim_some] at hrest
    simp only [Option.elim_none, weight_cons]
    omega
  | case4 c s hc hchar ih =>
    obtain ⟨t, ht', rfl⟩ := Option.map_eq_some_iff.mp ht
    have hrest := ih (fun hmem => hs (List.mem_cons_of_mem _ hmem)) ht'
    have hle := h.char c (fun heq => hs (heq ▸ List.mem_cons_self))
    simp only [Option.elim_none, weight_cons] at hrest ⊢
    omega
  | case5 => cases ht
  | case6 name s ih =>
    obtain ⟨c, hc, ht⟩ := Option.bind_eq_some_iff.mp ht
    obtain ⟨t, ht', rfl⟩ := Option.map_eq_some_iff.mp ht
    have hrest := ih (fun hmem => hs (List.mem_cons_of_mem _ hmem)) ht'
    have hle := h.reference c
    simp only [Option.elim_none, Option.elim_some, weight_cons] at hrest ⊢
    omega
  | case7 name c s hc ih =>
    have hrest := ih (fun hmem => hs (List.mem_cons_of_mem _ hmem)) ht
    simp only [Option.elim_some, weight_cons] at hrest ⊢
    omega

theorem charData (h : Bound w a k) {s t : List Char} (hs : '<' ∉ s) (ht : Xml.charData s = some t) :
    weight w t ≤ weight a s := by
  rw [Xml.charData] at ht
  split_ifs at ht
  have hexpand := h.expand (fun hmem => hs (mem_of_mem_normalizeLines (by decide) hmem)) ht
  exact Nat.le_trans hexpand (weight_normalizeLines_le h.newline s)

/-- What the bound says of the nodes that are read from `s` up to `rest`. The data may hold a `<` only if that
counts in the text too, or if it can only come from references. -/
def Holds (_ : Bound w a k) (nodes : List Node) (s rest : List Char) : Prop :=
  w '<' ≤ a '<' ∨ specialsOfAll nodes = 0 →
    weighAll w nodes + k * specialsOfAll nodes + weight a rest ≤ weight a s

/-- The bounds of a node and of its neighbours add up. -/
theorem Holds.cons {h : Bound w a k} {node : Node} {nodes : List Node} {s rest rest' : List Char}
    (hnode : h.Holds [node] s rest) (hnodes : h.Holds nodes rest rest') :
    h.Holds (node :: nodes) s rest' := by
  intro hlt
  have hone : specialsOfAll [node] = node.specials := Nat.add_zero _
  have hweigh : weighAll w [node] = node.weigh w := Nat.add_zero _
  rw [specialsOfAll] at hlt
  have hfirst := hnode (hlt.imp_right fun hzero => by omega)
  have hrest := hnodes (hlt.imp_right fun hzero => by omega)
  rw [hone, hweigh] at hfirst
  rw [weighAll, specialsOfAll, Nat.mul_add]
  omega

/-- Data that is taken as it is. -/
theorem verbatim (h : Bound w a k) {node : Node} {data : List Char} {c : Char} {s rest : List Char}
    (hspecials : node.specials = 1) (hweigh : node.weigh w ≤ weight w data) (hc : k ≤ a c)
    (hs : a c + weight a data + weight a rest ≤ weight a s) : h.Holds [node] s rest := by
  intro hlt
  have hone : specialsOfAll [node] = 1 := by rw [specialsOfAll, hspecials, specialsOfAll]
  have hlt : w '<' ≤ a '<' := hlt.resolve_right (by omega)
  have hdata := h.weight_le hlt data
  rw [hone, weighAll, weighAll]
  omega

theorem comment (h : Bound w a k) {node : Node} {s rest : List Char}
    (hread : Xml.comment s = some (node, rest)) : h.Holds [node] ('!' :: s) rest := by
  rw [Xml.comment] at hread
  obtain ⟨⟨data, rest'⟩, hdata, hread⟩ := Option.bind_eq_some_iff.mp hread
  obtain ⟨rest'', hrest, hread⟩ := Option.bind_eq_some_iff.mp hread
  split_ifs at hread
  obtain ⟨rfl, rfl⟩ := Prod.mk.inj (Option.some.inj hread)
  refine h.verbatim rfl (h.normalizeLines data) h.bang ?_
  rw [breakAt_eq hdata, expect_eq hrest]
  simp only [weight_cons, weight_append]
  omega

theorem cdata (h : Bound w a k) {node : Node} {s rest : List Char}
    (hread : Xml.cdata s = some (node, rest)) : h.Holds [node] ('!' :: s) rest := by
  rw [Xml.cdata] at hread
  obtain ⟨⟨data, rest'⟩, hdata, hread⟩ := Option.bind_eq_some_iff.mp hread
  dsimp only at hread
  split_ifs at hread
  obtain ⟨rfl, rfl⟩ := Prod.mk.inj (Option.some.inj hread)
  refine h.verbatim rfl (h.normalizeLines data) h.bang ?_
  rw [breakAt_eq hdata]
  simp only [weight_cons, weight_append]
  omega

theorem instruction (h : Bound w a k) {node : Node} {s rest : List Char}
    (hread : Xml.instruction s = some (node, rest)) : h.Holds [node] ('?' :: s) rest := by
  rw [Xml.instruction] at hread
  obtain ⟨⟨target, rest'⟩, htarget, hread⟩ := Option.bind_eq_some_iff.mp hread
  obtain ⟨⟨data, rest''⟩, hdata, hread⟩ := Option.bind_eq_some_iff.mp hread
  dsimp only at hread
  split_ifs at hread
  obtain ⟨rfl, rfl⟩ := Prod.mk.inj (Option.some.inj hread)
  have hskip := weight_le_of_suffix w (skipSpace_suffix data)
  refine h.verbatim rfl (Nat.le_trans (h.normalizeLines _) hskip) h.question ?_
  rw [readName_eq htarget, breakAt_eq hdata]
  simp only [weight_cons, weight_append]
  omega

section markup

variable {content : List Char → Option (List Node × List Char)}

/-- The bound of an element is that of its content, whose bound is assumed. -/
theorem element (h : Bound w a k)
    (hcontent : ∀ {s nodes rest}, content s = some (nodes, rest) → h.Holds nodes s rest)
    {node : Node} {s rest : List Char} (hread : Xml.element content s = some (node, rest)) :
    h.Holds [node] s rest := by
  rw [Xml.element] at hread
  obtain ⟨⟨name, rest₁⟩, hname, hread⟩ := Option.bind_eq_some_iff.mp hread
  obtain ⟨⟨empty, rest₂⟩, htag, hread⟩ := Option.bind_eq_some_iff.mp hread
  have hrest₂ : weight a rest₂ ≤ weight a s := by
    rw [readName_eq hname]
    exact weight_le_of_suffix a ((attributes_suffix htag).trans (List.suffix_append _ _))
  dsimp only at hread
  split_ifs at hread
  · obtain ⟨rfl, rfl⟩ := Prod.mk.inj (Option.some.inj hread)
    intro _
    simpa [weighAll, Node.weigh, specialsOfAll, Node.specials] using hrest₂
  · obtain ⟨⟨children, rest₃⟩, hchildren, hread⟩ := Option.bind_eq_some_iff.mp hread
    obtain ⟨rest₄, hend, hread⟩ := Option.bind_eq_some_iff.mp hread
    obtain ⟨rfl, rfl⟩ := Prod.mk.inj (Option.some.inj hread)
    have hrest₄ : weight a rest₄ ≤ weight a rest₃ := weight_le_of_suffix a (endTag_suffix hend)
    intro hlt
    have hbound := hcontent hchildren hlt
    simp only [weighAll, Node.weigh, specialsOfAll, Node.specials, Nat.add_zero]
    omega

/-- The cases of what may follow a `<`. -/
theorem markup (h : Bound w a k)
    (hcontent : ∀ {s nodes rest}, content s = some (nodes, rest) → h.Holds nodes s rest)
    {node : Node} {s rest : List Char} (hread : Xml.markup content s = some (node, rest)) :
    h.Holds [node] s rest := by
  unfold Xml.markup at hread
  split at hread
  · have hbound := h.comment hread
    intro hlt
    have := hbound hlt
    simp only [weight_cons] at this ⊢
    omega
  · have hbound := h.cdata hread
    intro hlt
    have := hbound hlt
    simp only [weight_cons] at this ⊢
    omega
  · exact h.instruction hread
  · exact h.element hcontent hread

end markup

/-- Whatever is read is bounded. -/
theorem content (h : Bound w a k) {fuel : ℕ} {s rest : List Char} {nodes : List Node}
    (hread : Xml.content fuel s = some (nodes, rest)) : h.Holds nodes s rest := by
  induction fuel generalizing s rest nodes with
  | zero => cases hread
  | succ fuel ih =>
    unfold Xml.content at hread
    split at hread
    · cases hread
    · obtain ⟨rfl, rfl⟩ := Prod.mk.inj (Option.some.inj hread)
      intro _
      simp [weighAll, specialsOfAll]
    · obtain ⟨rfl, rfl⟩ := Prod.mk.inj (Option.some.inj hread)
      intro _
      simp [weighAll, specialsOfAll]
    · next _ fuel' s' _ hfuel =>
      obtain rfl := Nat.succ.inj hfuel
      obtain ⟨⟨node, rest₁⟩, hnode, hread⟩ := Option.bind_eq_some_iff.mp hread
      obtain ⟨⟨nodes', rest₂⟩, hnodes, hread⟩ := Option.bind_eq_some_iff.mp hread
      obtain ⟨rfl, rfl⟩ := Prod.mk.inj (Option.some.inj hread)
      have hall : h.Holds (node :: nodes') s' rest₂ := (h.markup ih hnode).cons (ih hnodes)
      intro hlt
      have hle := hall hlt
      rw [weight_cons]
      omega
    · next _ fuel' c s' hc _ hfuel =>
      obtain rfl := Nat.succ.inj hfuel
      obtain ⟨data, hdata, hread⟩ := Option.bind_eq_some_iff.mp hread
      obtain ⟨⟨nodes', rest'⟩, hnodes, hread⟩ := Option.bind_eq_some_iff.mp hread
      obtain ⟨rfl, rfl⟩ := Prod.mk.inj (Option.some.inj hread)
      have hle := h.charData (fun hmem => by simpa using List.mem_takeWhile_imp hmem) hdata
      have hsplit := List.takeWhile_append_dropWhile (p := (· ≠ '<')) (l := c :: s')
      have hweight := weight_append a ((c :: s').takeWhile (· ≠ '<')) ((c :: s').dropWhile (· ≠ '<'))
      rw [hsplit] at hweight
      have htext : h.Holds [.text data] (c :: s') ((c :: s').dropWhile (· ≠ '<')) := by
        intro _
        simp only [weighAll, Node.weigh, specialsOfAll, Node.specials, Nat.mul_zero, Nat.add_zero]
        omega
      exact htext.cons (ih hnodes)

/-- The bound for a document, whose declaration does not count. -/
theorem parseDocument (h : Bound w a k) {decl s : List Char} {root : Node}
    (hread : Xml.parseDocument decl (decl ++ s) = some root) : ∃ rest, h.Holds [root] s rest := by
  rw [Xml.parseDocument] at hread
  obtain ⟨s₁, hdecl, hread⟩ := Option.bind_eq_some_iff.mp hread
  obtain ⟨s₂, hstart, hread⟩ := Option.bind_eq_some_iff.mp hread
  obtain ⟨⟨root', rest⟩, helement, hread⟩ := Option.bind_eq_some_iff.mp hread
  dsimp only at hread
  split_ifs at hread
  obtain rfl := Option.some.inj hread
  obtain rfl := List.append_cancel_left (expect_eq hdecl)
  have hskip := skipSpace_suffix s
  rw [expect_eq hstart] at hskip
  refine ⟨rest, fun hlt => ?_⟩
  have hbound := h.element h.content helement hlt
  have hle := weight_le_of_suffix a ((List.suffix_append _ _).trans hskip)
  omega

end Bound

end OrgLittle.Lib.Xml
