import OrgLittle.Imap.Fragmentation

/-!
# Writing a command and decoding it again

`ImapCommand.write` puts the parentheses of lists directly next to what is inside them and a space
between all other parameters. `write_emitted` shows that the decoder reads back what was written, for
every command that it can emit itself: what it emits never has a parameter that the writer would spell
differently (`Lex.Sound`), except that a number may come back in another spelling.
-/

namespace OrgLittle.Imap

open OrgLittle.Java OrgLittle.Lib ImapParameterDecoder

/-! ## Texts that a walk collects -/

/-- The bytes of a text that a walk collects: none of them ends it. -/
structure Spelling (max : ℕ) (visit : UInt8 → Visit) (bytes : List UInt8) : Prop where
  ascii : IsAscii bytes
  length : bytes.length ≤ max
  take : ∀ value ∈ bytes, visit value = .take

variable {max : ℕ} {visit : UInt8 → Visit} {f : JString → Lex} {bad : Lex} {bytes : List UInt8}

theorem spelling_nil : Spelling max visit [] := ⟨nofun, Nat.zero_le _, nofun⟩

/-- A spelling goes on with a byte that is taken. -/
theorem Spelling.concat (h : Spelling max visit bytes) {value : UInt8} (hascii : value.toNat < 128)
    (hvisit : visit value = .take) (hlength : bytes.length < max) :
    Spelling max visit (bytes ++ [value]) where
  ascii := by
    apply h.ascii.append
    intro b hb
    rw [List.mem_singleton.mp hb]
    exact hascii
  length := by
    rw [List.length_append, List.length_singleton]
    exact hlength
  take := by
    intro b hb
    obtain hb | hb := List.mem_append.mp hb
    · exact h.take b hb
    · rw [List.mem_singleton.mp hb]
      exact hvisit

/-- The characters of a text and of one more byte. -/
theorem asciiString_concat (bytes : List UInt8) {value : UInt8} (hascii : value.toNat < 128) :
    asciiString bytes ++ [signedChar value] = asciiString (bytes ++ [value]) := by
  rw [asciiString, asciiString, List.map_append, List.map_singleton, signedChar_of_lt hascii]

/-- The lexer collects the text. -/
theorem Spelling.passes_from (h : Spelling max visit bytes) (hf : Collects max visit f bad)
    (front : List UInt8) (hlength : front.length + bytes.length ≤ max) :
    lexer.Passes (f (asciiString front)) bytes (f (asciiString (front ++ bytes))) := by
  induction bytes generalizing front with
  | nil =>
    rw [List.append_nil]
    exact ⟨rfl, rfl⟩
  | cons value bytes ih =>
    rw [List.length_cons] at hlength
    have hvalue : value.toNat < 128 := h.ascii value List.mem_cons_self
    have hlt : (asciiString front).length < max := by
      rw [asciiString, List.length_map]
      omega
    have hstep : lexer.step (f (asciiString front)) value = (f (asciiString (front ++ [value])), []) := by
      rw [hf.take (h.take value List.mem_cons_self) hlt, asciiString_concat front hvalue]
    have hrest : Spelling max visit bytes :=
      ⟨fun b hb => h.ascii b (List.mem_cons_of_mem value hb), by omega,
        fun b hb => h.take b (List.mem_cons_of_mem value hb)⟩
    have hnext := ih hrest (front ++ [value]) (by
      rw [List.length_append, List.length_singleton]
      omega)
    rw [List.append_assoc, List.singleton_append] at hnext
    exact (Machine.Passes.of_step hstep).append hnext

/-- The lexer collects a spelling byte by byte. -/
theorem Spelling.passes (h : Spelling max visit bytes) (hf : Collects max visit f bad) :
    lexer.Passes (f []) bytes (f (asciiString bytes)) :=
  h.passes_from hf [] (by rw [List.length_nil, Nat.zero_add]; exact h.length)

/-- A text with such a spelling. -/
def Collected (max : ℕ) (visit : UInt8 → Visit) (seq : JString) : Prop :=
  ∃ bytes, seq = asciiString bytes ∧ Spelling max visit bytes

/-- What is collected goes on with the character of the byte. -/
theorem Collected.concat {seq : JString} (h : Collected max visit seq) {value : UInt8}
    (hascii : value.toNat < 128) (hvisit : visit value = .take) (hlength : seq.length < max) :
    Collected max visit (seq ++ [signedChar value]) := by
  obtain ⟨bytes, rfl, hbytes⟩ := h
  rw [asciiString, List.length_map] at hlength
  exact ⟨bytes ++ [value], asciiString_concat bytes hascii, hbytes.concat hascii hvisit hlength⟩

/-- Reading back a text that was written. -/
theorem Collected.passes {seq : JString} (h : Collected max visit seq) (hf : Collects max visit f bad) :
    lexer.Passes (f []) (writeAscii seq) (f seq) := by
  obtain ⟨bytes, rfl, hbytes⟩ := h
  rw [writeAscii_asciiString]
  exact hbytes.passes hf

/-- The text of a tag or a command name. -/
def IsName (seq : JString) : Prop := Collected AtomDecoder.MAX_ATOM_LENGTH AtomDecoder.process seq

/-- The text of a quoted string. -/
def IsQuoted (seq : JString) : Prop := Collected MAX_ATOM_LENGTH quotedVisit seq

/-- The text of an atom: its first byte starts an atom. -/
def IsAtom (seq : JString) : Prop :=
  ∃ first bytes, seq = asciiString (first :: bytes) ∧ parameterStart first = .READ_ATOM
    ∧ Spelling MAX_ATOM_LENGTH (atomVisit false) (first :: bytes)

theorem IsAtom.ne_nil {seq : JString} (h : IsAtom seq) : seq ≠ [] := by
  obtain ⟨first, bytes, rfl, -⟩ := h
  exact List.cons_ne_nil _ _

/-- An atom goes on with a byte that is taken. -/
theorem IsAtom.concat {seq : JString} (h : IsAtom seq) {value : UInt8} (hascii : value.toNat < 128)
    (hvisit : atomVisit false value = .take) (hlength : seq.length < MAX_ATOM_LENGTH) :
    IsAtom (seq ++ [signedChar value]) := by
  obtain ⟨first, bytes, rfl, hfirst, hbytes⟩ := h
  rw [asciiString, List.length_map] at hlength
  exact ⟨first, bytes ++ [value], asciiString_concat (first :: bytes) hascii, hfirst,
    hbytes.concat hascii hvisit hlength⟩

/-- One byte that starts an atom. -/
theorem isAtom_singleton {value : UInt8} (hascii : value.toNat < 128)
    (hstart : parameterStart value = .READ_ATOM) (hvisit : atomVisit false value = .take) :
    IsAtom [signedChar value] := by
  have hspelling : Spelling MAX_ATOM_LENGTH (atomVisit false) [value] :=
    spelling_nil.concat hascii hvisit (by decide)
  exact ⟨value, [], by rw [signedChar_of_lt hascii]; rfl, hstart, hspelling⟩

/-- Before a parameter, the first byte of an atom is read as in it. -/
theorem step_empty_of_start (b : Builder) {value : UInt8} (hstart : parameterStart value = .READ_ATOM)
    (hvisit : atomVisit false value = .take) :
    lexer.step (.empty b) value = lexer.step (.atom b []) value := by
  have hsp : value ≠ SP := fun h => atomVisit_take hvisit (Or.inr (Or.inr (Or.inl h)))
  show Lex.stepEmpty b value = Lex.stepAtom b [] value
  unfold parameterStart at hstart
  split_ifs at hstart with hquote hbracket hopen hclose
  rw [Lex.stepEmpty, if_neg hsp, if_neg hquote, if_neg hbracket, if_neg hopen, if_neg hclose]

/-- Reading back an atom. -/
theorem IsAtom.passes {seq : JString} (h : IsAtom seq) (b : Builder) :
    lexer.Passes (.empty b) (writeAscii seq) (.atom b seq) := by
  obtain ⟨first, bytes, rfl, hfirst, hbytes⟩ := h
  have hatom := hbytes.passes (collects_atom b)
  rw [writeAscii_asciiString]
  have hstep := step_empty_of_start b hfirst (hbytes.take first List.mem_cons_self)
  refine ⟨?_, ?_⟩
  · rw [Machine.run_cons, hstep, ← Machine.run_cons]
    exact hatom.1
  · rw [Machine.outputs_cons, hstep, ← Machine.outputs_cons]
    exact hatom.2

/-! ## Numbers -/

/-- What is read as an `int` is one. -/
theorem parseInt_range {s : JString} {v : ℤ} (h : parseInt s = some v) : -2 ^ 31 ≤ v ∧ v < 2 ^ 31 := by
  rw [parseInt, Option.filter_eq_some_iff] at h
  exact of_decide_eq_true h.2

/-- The byte of a character of a number. -/
theorem c2b_of_numeral {c : Char} (h : c = '-' ∨ c.isDigit = true) :
    Char.ofNat (c2b c).toNat = c ∧ (c2b c).toNat < 128 ∧ atomVisit false (c2b c) = .take
      ∧ parameterStart (c2b c) = .READ_ATOM := by
  obtain rfl | hdigit := h
  · decide
  · obtain ⟨hlo, hhi⟩ : 48 ≤ c.toNat ∧ c.toNat ≤ 57 := Char.isDigit_iff_toNat.mp hdigit
    have hself : c = Char.ofNat c.toNat := (Char.ofNat_toNat c).symm
    generalize c.toNat = n at hself hlo hhi
    subst hself
    interval_cases n <;> decide

/-- An `int` has at most eleven characters. -/
theorem length_intToString_le {v : ℤ} (hlo : -2 ^ 31 ≤ v) (hhi : v < 2 ^ 31) :
    (intToString v).length ≤ 11 := by
  have hdigits : (Nat.toDigits 10 v.natAbs).length ≤ 10 :=
    (Nat.length_toDigits_le_iff (by decide) (by decide)).mpr (by omega)
  rw [intToString]
  split_ifs
  · rw [List.length_cons]
    omega
  · omega

/-- A number is written as an atom. -/
theorem isAtom_intToString {v : ℤ} (hlo : -2 ^ 31 ≤ v) (hhi : v < 2 ^ 31) : IsAtom (intToString v) := by
  have hlength := length_intToString_le hlo hhi
  have hchars : ∀ c ∈ intToString v, c = '-' ∨ c.isDigit = true :=
    fun c hc => numeral_of_mem_intToString hc
  have hne : intToString v ≠ [] := by
    rw [intToString]
    split_ifs
    · exact List.cons_ne_nil _ _
    · exact Nat.toDigits_ne_nil
  generalize intToString v = text at hlength hchars hne
  obtain ⟨c, text, rfl⟩ := List.exists_cons_of_ne_nil hne
  have hspelling : Spelling MAX_ATOM_LENGTH (atomVisit false) ((c :: text).map c2b) := by
    refine ⟨?_, ?_, ?_⟩
    · intro b hb
      obtain ⟨d, hd, rfl⟩ := List.mem_map.mp hb
      exact (c2b_of_numeral (hchars d hd)).2.1
    · rw [List.length_map]
      exact hlength.trans (by decide)
    · intro b hb
      obtain ⟨d, hd, rfl⟩ := List.mem_map.mp hb
      exact (c2b_of_numeral (hchars d hd)).2.2.1
  have hsame : asciiString ((c :: text).map c2b) = c :: text := by
    rw [asciiString, List.map_map, List.map_congr_left, List.map_id]
    intro d hd
    exact (c2b_of_numeral (hchars d hd)).1
  exact ⟨c2b c, text.map c2b, hsame.symm, (c2b_of_numeral (hchars c List.mem_cons_self)).2.2.2,
    hspelling⟩

/-! ## Parameters -/

/-- The parameters that the decoder builds, without literals. -/
inductive Buildable : ImapCommandParameter → Prop
  | atom {seq : JString} (h : IsAtom seq) : Buildable (.ofAtom seq)
  | quotedString {seq : JString} (h : IsQuoted seq) : Buildable (.quotedString seq)
  | openList : Buildable .openList
  | closeList : Buildable .closeList

/-- An atom opens no list. -/
theorem ofAtom_ne_openList (seq : JString) : ImapCommandParameter.ofAtom seq ≠ .openList := by
  unfold ImapCommandParameter.ofAtom
  split_ifs
  · nofun
  · split <;> nofun

/-- What is written for an atom is an atom again, and stands for an equal parameter. Only numbers are
spelled anew. -/
theorem IsAtom.write_ofAtom {seq : JString} (h : IsAtom seq) :
    ∃ seq', IsAtom seq' ∧ (ImapCommandParameter.ofAtom seq).write = writeAscii seq'
      ∧ (ImapCommandParameter.ofAtom seq').equals (.ofAtom seq) = true := by
  by_cases hnil : seq = "NIL".toList
  · subst hnil
    exact ⟨_, h, rfl, rfl⟩
  cases hint : parseInt seq with
  | none =>
    have hatom : ImapCommandParameter.ofAtom seq = .atom seq := by
      rw [ImapCommandParameter.ofAtom, if_neg hnil, hint]
    rw [hatom]
    exact ⟨seq, h, rfl, by rw [hatom]; exact decide_eq_true rfl⟩
  | some v =>
    -- the number is written by its value, which may be a shorter text
    obtain ⟨hlo, hhi⟩ := parseInt_range hint
    have hnumber : ImapCommandParameter.ofAtom seq = .number v seq := by
      rw [ImapCommandParameter.ofAtom, if_neg hnil, hint]
    have hback := parseInt_intToString hlo hhi
    have hnil' : intToString v ≠ "NIL".toList := by
      intro heq
      rw [heq] at hback
      cases hback
    have hnumber' : ImapCommandParameter.ofAtom (intToString v) = .number v (intToString v) := by
      rw [ImapCommandParameter.ofAtom, if_neg hnil', hback]
    rw [hnumber]
    exact ⟨intToString v, isAtom_intToString hlo hhi, rfl, by rw [hnumber']; exact decide_eq_true rfl⟩

/-! ## Reading parameters back -/

/-- Where the lexer stands after the parameter `last`, or after the command name: directly before a
parameter if a list was opened, and else before a space, a line end or the end of a list. -/
structure After (last : Option ImapCommandParameter) (l : Lex) (b : Builder) : Prop where
  opened : last = some .openList → l = .empty b
  separated : last ≠ some .openList → ∀ value, value = SP ∨ value = CR ∨ value = LF →
    lexer.step l value = Lex.stepNext b value
  closed : last ≠ some .openList → last ≠ none →
    lexer.step l CLOSE_PARENTHESES = Lex.stepNext b CLOSE_PARENTHESES

/-- The decoder expects a blank behind any parameter but an open list. -/
theorem after_next {p : ImapCommandParameter} (hp : p ≠ .openList) (b : Builder) :
    After (some p) (.next b) b :=
  ⟨fun h => absurd (Option.some.inj h) hp, fun _ _ _ => rfl, fun _ _ => rfl⟩

/-- The end of an atom. -/
theorem after_atom {p : ImapCommandParameter} (hp : p ≠ .openList) (b : Builder) {seq : JString}
    (hseq : seq ≠ []) : After (some p) (.atom b seq) (b.add (.ofAtom seq)) := by
  have hend : ∀ value, (value = LF ∨ value = CR ∨ value = SP ∨ value = CLOSE_PARENTHESES) →
      lexer.step (.atom b seq) value = Lex.stepNext (b.add (.ofAtom seq)) value := by
    intro value hvalue
    show Lex.stepAtom b seq value = _
    rw [Lex.stepAtom, if_pos hvalue, if_neg hseq]
  refine ⟨fun h => absurd (Option.some.inj h) hp, fun _ value hvalue => hend value ?_,
    fun _ _ => hend CLOSE_PARENTHESES (Or.inr (Or.inr (Or.inr rfl)))⟩
  obtain hsp | hcr | hlf := hvalue
  · exact Or.inr (Or.inr (Or.inl hsp))
  · exact Or.inr (Or.inl hcr)
  · exact Or.inl hlf

/-- A parameter that was written is read back, from directly before it. -/
theorem Buildable.passes {p : ImapCommandParameter} (h : Buildable p) (b : Builder) :
    ∃ l q, lexer.Passes (.empty b) p.write l ∧ (Buildable q ∧ q.equals p = true)
      ∧ After (some p) l (b.add q) := by
  cases h with
  | atom h =>
    obtain ⟨seq', hatom, hwrite, hequals⟩ := h.write_ofAtom
    rw [hwrite]
    exact ⟨_, _, hatom.passes b, ⟨.atom hatom, hequals⟩,
      after_atom (ofAtom_ne_openList _) b hatom.ne_nil⟩
  | @quotedString seq h =>
    have hopen : lexer.Passes (.empty b) [QUOTE] (.quoted b []) := .of_step rfl
    have hclose : lexer.Passes (.quoted b seq) [QUOTE] (.next (b.add (.quotedString seq))) :=
      .of_step rfl
    refine ⟨_, .quotedString seq, (hopen.append (h.passes (collects_quoted b))).append hclose, ?_, ?_⟩
    · exact ⟨.quotedString h, decide_eq_true rfl⟩
    · exact after_next (by simp) _
  | openList =>
    refine ⟨.empty (b.add .openList), .openList, .of_step rfl, ⟨.openList, rfl⟩, ?_⟩
    exact ⟨fun _ => rfl, fun h => absurd rfl h, fun h => absurd rfl h⟩
  | closeList => exact ⟨_, .closeList, .of_step rfl, ⟨.closeList, rfl⟩, after_next (by simp) _⟩

/-- One parameter, with the space that is written before it or without. -/
theorem After.passes {last : Option ImapCommandParameter} {l : Lex} {b : Builder} (h : After last l b)
    {p : ImapCommandParameter} (hp : Buildable p) :
    ∃ l' q, lexer.Passes l ((if last = none ∨ (last ≠ some .openList ∧ p ≠ .closeList) then [SP] else [])
        ++ p.write) l' ∧ (Buildable q ∧ q.equals p = true) ∧ After (some p) l' (b.add q) := by
  obtain ⟨l', q, hpasses, hequals, hafter⟩ := hp.passes b
  split_ifs with hspace
  · have hlast : last ≠ some .openList := by
      rintro rfl
      obtain hnone | ⟨hne, -⟩ := hspace
      · cases hnone
      · exact hne rfl
    have hsp : lexer.Passes l [SP] (.empty b) := .of_step (h.separated hlast SP (Or.inl rfl))
    exact ⟨l', q, hsp.append hpasses, hequals, hafter⟩
  · rw [not_or, not_and_or, not_not, not_not] at hspace
    obtain ⟨hsome, hopen | rfl⟩ := hspace
    · rw [h.opened hopen]
      exact ⟨l', q, hpasses, hequals, hafter⟩
    · by_cases hopen : last = some .openList
      · rw [h.opened hopen]
        exact ⟨l', q, hpasses, hequals, hafter⟩
      · -- the closing parenthesis follows without a space
        have hclose : lexer.Passes l [CLOSE_PARENTHESES] (.next (b.add .closeList)) :=
          .of_step (h.closed hopen hsome)
        exact ⟨_, .closeList, hclose, ⟨.closeList, rfl⟩, after_next (by simp) _⟩

/-- All parameters and the end of the line: the lexer does what it does at the end of a line with equal
parameters. -/
theorem After.finishes {last : Option ImapCommandParameter} {l : Lex} {b : Builder} (h : After last l b)
    {ps : List ImapCommandParameter} (hps : ∀ p ∈ ps, Buildable p)
    (hlast : ps.getLast?.or last ≠ some .openList) :
    ∃ qs, (lexer.run l (ImapCommandParameter.writeFrom last ps ++ CRLF),
        lexer.outputs l (ImapCommandParameter.writeFrom last ps ++ CRLF))
          = Lex.finish { b with params := b.params ++ qs }
      ∧ List.Forall₂ (fun q p => Buildable q ∧ q.equals p = true) qs ps := by
  induction ps generalizing last l b with
  | nil =>
    -- the line does not end inside a list that was just opened
    refine ⟨[], ?_, List.Forall₂.nil⟩
    rw [List.getLast?_nil, Option.none_or] at hlast
    have hcr : lexer.Passes l [CR] (.next b) := .of_step (h.separated hlast CR (Or.inr (Or.inl rfl)))
    have hlf : (lexer.run (.next b) [LF], lexer.outputs (.next b) [LF]) = Lex.finish b := by
      rw [Machine.run_cons, Machine.run_nil, Machine.outputs_cons, Machine.outputs_nil, List.append_nil]
      rfl
    show (lexer.run l ([CR] ++ [LF]), lexer.outputs l ([CR] ++ [LF])) = _
    rw [hcr.run_append, hcr.outputs_append, hlf, List.append_nil]
  | cons p ps ih =>
    obtain ⟨l', q, hpasses, hequals, hafter⟩ := h.passes (hps p List.mem_cons_self)
    have hlast' : ps.getLast?.or (some p) ≠ some .openList := by
      intro heq
      apply hlast
      rw [← heq]
      cases ps <;> simp [List.getLast?_cons]
    obtain ⟨qs, hfinish, hall⟩ := ih hafter
      (fun p' hp' => hps p' (List.mem_cons_of_mem p hp')) hlast'
    refine ⟨q :: qs, ?_, List.Forall₂.cons hequals hall⟩
    rw [ImapCommandParameter.writeFrom, List.append_assoc, hpasses.run_append,
      hpasses.outputs_append, hfinish, Builder.add, List.append_assoc, List.singleton_append]

/-! ## What the decoder emits -/

/-- The parts of a command that the decoder has read. -/
structure Builder.Sound (b : Builder) : Prop where
  tag : IsName b.tag
  command : IsName b.command
  params : ∀ p ∈ b.params, Buildable p

/-- The parts of a command whose last parameter does not open a list. -/
structure Builder.Complete (b : Builder) : Prop extends b.Sound where
  last : b.params.getLast? ≠ some .openList

/-- A parameter that can be built keeps the builder in order. -/
theorem Builder.Sound.add {b : Builder} (h : b.Sound) {p : ImapCommandParameter} (hp : Buildable p) :
    (b.add p).Sound := by
  refine ⟨h.tag, h.command, fun q hq => ?_⟩
  obtain hq | hq := List.mem_append.mp hq
  · exact h.params q hq
  · rw [List.mem_singleton.mp hq]
    exact hp

theorem Builder.Sound.add_complete {b : Builder} (h : b.Sound) {p : ImapCommandParameter}
    (hp : Buildable p) (hopen : p ≠ .openList) : (b.add p).Complete := by
  refine ⟨h.add hp, ?_⟩
  rw [Builder.add, List.getLast?_concat]
  exact fun heq => hopen (Option.some.inj heq)

/-- What the lexer has read of the stream. -/
def Lex.Sound : Lex → Prop
  | .tag seq => IsName seq
  | .command name seq => IsName name ∧ IsName seq
  | .next b => b.Complete
  | .empty b => b.Sound
  | .atom b seq => b.Sound ∧ IsAtom seq
  | .quoted b seq => b.Sound ∧ IsQuoted seq
  | .literal => True
  | .broken => True
  | .dead => True

/-- A command that the writer and the decoder agree on. -/
def ImapCommand.Sound (cmd : ImapCommand) : Prop :=
  (⟨cmd.tag, cmd.command, cmd.parameters⟩ : Builder).Complete

/-- The outcome of a step. -/
def SoundStep (r : Lex × List ImapCommand) : Prop := r.1.Sound ∧ ∀ cmd ∈ r.2, cmd.Sound

theorem soundStep_nil {l : Lex} (h : l.Sound) : SoundStep (l, []) := ⟨h, nofun⟩

theorem isName_nil : IsName [] := ⟨[], rfl, spelling_nil⟩

/-- The end of a line gives a command. -/
theorem finish_sound {b : Builder} (h : b.Complete) : SoundStep (Lex.finish b) := by
  constructor
  · unfold Lex.finish
    dsimp only
    split_ifs
    · trivial
    · trivial
    · exact isName_nil
  · intro cmd hcmd
    rw [Lex.finish_snd, List.mem_singleton] at hcmd
    rw [hcmd]
    exact h

/-- A byte after the command name or a parameter. -/
theorem stepNext_sound {b : Builder} (h : b.Complete) {value : UInt8} :
    SoundStep (Lex.stepNext b value) := by
  unfold Lex.stepNext
  split_ifs with hsp hcr hlf hclose hsquare
  · exact soundStep_nil h.toSound
  · exact soundStep_nil h
  · exact finish_sound h
  · exact soundStep_nil (h.toSound.add_complete .closeList (by simp))
  · rw [hsquare]
    exact soundStep_nil ⟨h.toSound, isAtom_singleton (by decide) (by decide) (by decide)⟩
  · exact soundStep_nil trivial

/-- A byte that does not end an atom. -/
theorem atomVisit_eq_take {value : UInt8}
    (h : ¬ (value = LF ∨ value = CR ∨ value = SP ∨ value = CLOSE_PARENTHESES)) :
    atomVisit false value = .take := by
  unfold atomVisit
  rw [if_neg]
  simpa using h

/-- A byte of an atom. -/
theorem stepAtom_sound {b : Builder} (h : b.Sound) {seq : JString} (hseq : IsAtom seq) {value : UInt8}
    (hascii : value.toNat < 128) : SoundStep (Lex.stepAtom b seq value) := by
  unfold Lex.stepAtom
  split_ifs with hend hnil hlong
  · exact soundStep_nil trivial
  · exact stepNext_sound (h.add_complete (.atom hseq) (ofAtom_ne_openList seq))
  · exact soundStep_nil trivial
  · exact soundStep_nil ⟨h, hseq.concat hascii (atomVisit_eq_take hend) (by omega)⟩

/-- A byte before a parameter. -/
theorem stepEmpty_sound {b : Builder} (h : b.Sound) {value : UInt8} (hascii : value.toNat < 128) :
    SoundStep (Lex.stepEmpty b value) := by
  unfold Lex.stepEmpty
  split_ifs with hsp hquote hbracket hopen hclose
  · exact soundStep_nil h
  · exact soundStep_nil ⟨h, [], rfl, spelling_nil⟩
  · exact soundStep_nil trivial
  · exact soundStep_nil (h.add .openList)
  · exact soundStep_nil (h.add_complete .closeList (by simp))
  · by_cases hend : value = LF ∨ value = CR ∨ value = SP ∨ value = CLOSE_PARENTHESES
    · rw [Lex.stepAtom, if_pos hend, if_pos rfl]
      exact soundStep_nil trivial
    · have hstart : parameterStart value = .READ_ATOM := by
        rw [parameterStart, if_neg hquote, if_neg hbracket, if_neg hopen, if_neg hclose]
      rw [Lex.stepAtom, if_neg hend, if_neg (by decide)]
      exact soundStep_nil ⟨h, isAtom_singleton hascii hstart (atomVisit_eq_take hend)⟩

/-- A byte of a quoted text. -/
theorem stepQuoted_sound {b : Builder} (h : b.Sound) {seq : JString} (hseq : IsQuoted seq)
    {value : UInt8} (hascii : value.toNat < 128) : SoundStep (Lex.stepQuoted b seq value) := by
  unfold Lex.stepQuoted
  split_ifs with hquote hend hlong
  · exact soundStep_nil (h.add_complete (.quotedString hseq) (by simp))
  · exact soundStep_nil trivial
  · exact soundStep_nil trivial
  · have hvisit : quotedVisit value = .take := by
      rw [quotedVisit, if_neg hquote, if_neg hend]
    exact soundStep_nil ⟨h, hseq.concat hascii hvisit (by omega)⟩

/-- One more byte of a name. -/
theorem isName_concat {seq : JString} (h : IsName seq) {value : UInt8} (hascii : value.toNat < 128)
    (hname : ¬ Lex.isNameEnd value = true)
    (hlong : ¬ AtomDecoder.MAX_ATOM_LENGTH ≤ seq.length) : IsName (seq ++ [signedChar value]) := by
  have hvisit : AtomDecoder.process value = .take := by
    unfold AtomDecoder.process
    rw [if_neg]
    intro hend
    exact hname (decide_eq_true hend)
  exact h.concat hascii hvisit (by omega)

/-- One byte. -/
theorem step_sound {l : Lex} (h : l.Sound) {value : UInt8} (hascii : value.toNat < 128) :
    SoundStep (lexer.step l value) := by
  cases l with
  | tag seq =>
    show SoundStep (Lex.stepTag seq value)
    unfold Lex.stepTag
    split_ifs with hname hsp hlong
    · exact soundStep_nil ⟨h, isName_nil⟩
    · exact soundStep_nil trivial
    · exact soundStep_nil trivial
    · exact soundStep_nil (isName_concat h hascii hname hlong)
  | command tag seq =>
    show SoundStep (Lex.stepCommand tag seq value)
    unfold Lex.stepCommand
    split_ifs with hname hlong
    · exact stepNext_sound ⟨⟨h.1, h.2, by simp⟩, by simp⟩
    · exact soundStep_nil trivial
    · exact soundStep_nil ⟨h.1, isName_concat h.2 hascii hname hlong⟩
  | next b => exact stepNext_sound h
  | empty b => exact stepEmpty_sound h hascii
  | atom b seq => exact stepAtom_sound h.1 h.2 hascii
  | quoted b seq => exact stepQuoted_sound h.1 h.2 hascii
  | literal => exact soundStep_nil trivial
  | broken => exact soundStep_nil trivial
  | dead => exact soundStep_nil trivial

/-- All commands of a stream. -/
theorem outputs_sound {bytes : List UInt8} (hascii : IsAscii bytes) :
    ∀ cmd ∈ lexer.outputs (.tag []) bytes, cmd.Sound := by
  have hstep : ∀ l log value, SoundStep (l, log) → value.toNat < 128 →
      SoundStep ((lexer.step l value).1, log ++ (lexer.step l value).2) := by
    intro l log value hl hvalue
    have hnew := step_sound hl.1 hvalue
    refine ⟨hnew.1, fun cmd hcmd => ?_⟩
    obtain hcmd | hcmd := List.mem_append.mp hcmd
    · exact hl.2 cmd hcmd
    · exact hnew.2 cmd hcmd
  have hstart : SoundStep (.tag [], []) := soundStep_nil isName_nil
  exact (Machine.Along.outputs_invariant hstep (Machine.along_of_forall (.tag []) hascii) hstart).2

/-! ## The round trip -/

/-- An atom prints as it was read, also where it is a number. -/
theorem toString_ofAtom (seq : JString) : (ImapCommandParameter.ofAtom seq).toString = seq := by
  unfold ImapCommandParameter.ofAtom
  split_ifs with hnil
  · exact hnil.symm
  · split <;> rfl

/-- No parameter looks like the size of a literal. -/
theorem Buildable.stripped_eq_none {p : ImapCommandParameter} (h : Buildable p) :
    stripped p.toString '\x7b' '\x7d' = none := by
  cases h with
  | atom h =>
    obtain ⟨first, bytes, rfl, hfirst, hbytes⟩ := h
    have hne : '\x7b' ≠ Char.ofNat first.toNat := by
      intro heq
      have hbracket : first = OPEN_BRACKET := by
        rw [← c2b_ofNat_toNat first, ← heq]
        rfl
      rw [hbracket] at hfirst
      cases hfirst
    rw [toString_ofAtom, stripped, if_neg]
    intro hstarts
    simp [startsWith, asciiString, hne] at hstarts
  | quotedString h =>
    rw [stripped, if_neg]
    simp [startsWith, ImapCommandParameter.toString]
  | openList => rfl
  | closeList => rfl

/-- No parameter that was built asks for a literal. -/
theorem literalSize_eq_none {ps : List ImapCommandParameter} (h : ∀ p ∈ ps, Buildable p) :
    AppendCommand.literalSize ps = none := by
  have hnone : ((ps.drop 1).filterMap fun p => stripped p.toString '\x7b' '\x7d') = [] := by
    rw [List.filterMap_eq_nil_iff]
    intro p hp
    exact (h p (List.mem_of_mem_drop hp)).stripped_eq_none
  rw [AppendCommand.literalSize, hnone]
  rfl

/-- The lexer reads back a command that was written. -/
theorem ImapCommand.Sound.finishes {cmd : ImapCommand} (h : cmd.Sound) :
    ∃ qs, (lexed (cmd.write ++ CRLF), lexer.outputs (.tag []) (cmd.write ++ CRLF))
        = Lex.finish ⟨cmd.tag, cmd.command, qs⟩
      ∧ List.Forall₂ (fun q p => Buildable q ∧ q.equals p = true) qs cmd.parameters := by
  have hname : lexer.Passes (.tag []) (writeAscii cmd.tag ++ [SP] ++ writeAscii cmd.command)
      (.command cmd.tag cmd.command) := by
    have hsp : lexer.Passes (.tag cmd.tag) [SP] (.command cmd.tag []) := .of_step rfl
    exact ((h.tag.passes ImapCommandDecoder.collects_tag).append hsp).append
      (h.command.passes (ImapCommandDecoder.collects_command cmd.tag))
  have hafter : After none (.command cmd.tag cmd.command) ⟨cmd.tag, cmd.command, []⟩ := by
    refine ⟨nofun, fun _ value hvalue => ?_, fun _ hnone => absurd rfl hnone⟩
    show Lex.stepCommand cmd.tag cmd.command value = _
    rw [Lex.stepCommand, if_pos]
    obtain rfl | rfl | rfl := hvalue <;> rfl
  obtain ⟨qs, hfinish, hall⟩ := hafter.finishes h.params (by rw [Option.or_none]; exact h.last)
  refine ⟨qs, ?_, hall⟩
  rw [lexed, ImapCommand.write, List.append_assoc, hname.run_append, hname.outputs_append, hfinish,
    List.nil_append]

/-- Every command that the decoder emits for ASCII lines without literals is decoded again, by a new
decoder, from what is written for it. -/
theorem write_emitted (ctx ctx' : SessionContext) {lines : List (List UInt8)}
    (hascii : IsAscii (lines.flatMap (· ++ CRLF)))
    (hliteral : lexed (lines.flatMap (· ++ CRLF)) ≠ .literal) {cmd : ImapCommand}
    (hcmd : cmd ∈ emitted ctx [lines.flatMap (· ++ CRLF)]) :
    ∃ cmd', emitted ctx' [cmd.write ++ CRLF] = [cmd'] ∧ cmd'.tag = cmd.tag
      ∧ cmd'.command = cmd.command
      ∧ List.Forall₂ (fun q p => q.equals p = true) cmd'.parameters cmd.parameters := by
  rw [emitted_singleton ctx hliteral] at hcmd
  obtain ⟨qs, hfinish, hall⟩ := (outputs_sound hascii cmd hcmd).finishes
  have hline : [cmd.write].flatMap (· ++ CRLF) = cmd.write ++ CRLF := List.flatMap_singleton ..
  obtain ⟨hbuildable, hequals⟩ := (List.forall₂_and_left qs cmd.parameters).mp hall
  obtain ⟨hlexed, houtputs⟩ := Prod.ext_iff.mp hfinish
  have hend : lexed (cmd.write ++ CRLF) ≠ .literal := by
    rw [show lexed (cmd.write ++ CRLF) = _ from hlexed, Lex.finish]
    dsimp only
    rw [literalSize_eq_none hbuildable, if_pos rfl]
    split_ifs
    all_goals
      intro heq
      cases heq
  refine ⟨ImapCommandBuilder.build cmd.tag cmd.command qs, ?_, rfl, rfl, hequals⟩
  rw [← hline, emitted_singleton ctx' (by rw [hline]; exact hend), hline]
  exact houtputs.trans (Lex.finish_snd _)

/-- A command with lists, a quoted string and a number that is spelled anew. -/
def nestedCommand : ImapCommand :=
  ⟨['a'], ['X'], [.openList, .number 7 "007".toList, .quotedString "b c".toList, .openList, .nil,
    .closeList, .closeList, .atom ['d']], none, 0⟩

/-- It is decoded from one line and, after it was written, from another. -/
theorem write_emitted_nested :
    ∃ cmd', emitted .stub [nestedCommand.write ++ CRLF] = [cmd'] ∧ cmd'.tag = ['a']
      ∧ cmd'.command = ['X']
      ∧ List.Forall₂ (fun q p => q.equals p = true) cmd'.parameters nestedCommand.parameters := by
  have hcmd : nestedCommand
      ∈ emitted .stub [[ascii "a X ( 007 \"b c\" ( NIL)) d"].flatMap (· ++ CRLF)] := by decide
  exact write_emitted .stub .stub (by decide) (by decide) hcmd

end OrgLittle.Imap
