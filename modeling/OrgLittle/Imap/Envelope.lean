import OrgLittle.Imap.FetchAnswers

/-!
# The envelope and the structure of a message

`printEnvelope` and `printBodyStructure` put lists of the protocol together from texts. Subjects and
identifiers are escaped; addresses and file names are not. A message without a sender gets a list with a `NIL` in
it, one without recipients an empty list, and there is a blank in front of the third recipient. What is printed is
the text of the message's envelope and structure exactly if none of this matters (`fetchTextsWellFormed_iff`).
-/

namespace OrgLittle.Imap

open OrgLittle.Java OrgLittle.Lmsg

/-! ## The grammar -/

namespace Grammar

/-- The contents of a quoted string, in which quotation marks and backslashes are escaped. -/
def escape (s : JString) : JString := s.flatMap fun c => if c = '\\' ∨ c = '"' then ['\\', c] else [c]

def quotedString (s : JString) : JString := '"' :: (escape s ++ ['"'])

/-- `nstring`. -/
def nstring (s : Option JString) : JString := s.elim "NIL".toList quotedString

/-- A list in parentheses with blanks in between. -/
def list (items : List JString) : JString := '(' :: ([' '].intercalate items ++ [')'])

/-- `address`. -/
structure Address where
  name : Option JString
  adl : Option JString
  mailbox : Option JString
  host : Option JString

def Address.text (a : Address) : JString :=
  list [nstring a.name, nstring a.adl, nstring a.mailbox, nstring a.host]

/-- A list of addresses in an envelope: there is nothing between two of them, and `NIL` stands for no address. -/
def addresses : List Address → JString
  | [] => "NIL".toList
  | as => '(' :: (as.flatMap Address.text ++ [')'])

/-- `envelope`. -/
structure Envelope where
  date : Option JString
  subject : Option JString
  from_ : List Address
  sender : List Address
  replyTo : List Address
  to_ : List Address
  cc : List Address
  bcc : List Address
  inReplyTo : Option JString
  messageId : Option JString

def Envelope.fields (e : Envelope) : List JString :=
  [nstring e.date, nstring e.subject, addresses e.from_, addresses e.sender, addresses e.replyTo, addresses e.to_,
    addresses e.cc, addresses e.bcc, nstring e.inReplyTo, nstring e.messageId]

def Envelope.text (e : Envelope) : JString := list e.fields

/-- `body-fld-param`. -/
def params : List (JString × JString) → JString
  | [] => "NIL".toList
  | ps => list (ps.flatMap fun p => [quotedString p.1, quotedString p.2])

/-- What follows the number of octets of a part: the number of lines of a text, or the check sum and the
disposition of another part. -/
inductive PartEnd
  | lines (n : ℤ)
  | disposition (md5 : Option JString) (kind : JString) (parameters : List (JString × JString))

def PartEnd.items : PartEnd → List JString
  | lines n => [intToString n]
  | disposition md5 kind parameters => [nstring md5, list [quotedString kind, params parameters]]

/-- A part of a message: `body-type-text` or `body-type-basic`. -/
structure Part where
  type : JString
  subtype : JString
  parameters : List (JString × JString)
  id : Option JString
  description : Option JString
  encoding : JString
  octets : ℤ
  partEnd : PartEnd

def Part.text (p : Part) : JString :=
  list ([quotedString p.type, quotedString p.subtype, params p.parameters, nstring p.id, nstring p.description,
    quotedString p.encoding, intToString p.octets] ++ p.partEnd.items)

/-- `body-type-mpart`, with parameters and without a disposition and a language. -/
structure Multipart where
  parts : List Part
  subtype : JString
  parameters : List (JString × JString)

def Multipart.text (m : Multipart) : JString :=
  '(' :: (m.parts.flatMap Part.text ++ ' ' ::
    ([' '].intercalate [quotedString m.subtype, params m.parameters, "NIL".toList, "NIL".toList] ++ [')']))

/-! ### Texts that need no escapes -/

/-- Neither a quotation mark nor a backslash. -/
def Plain (s : JString) : Prop := ∀ c ∈ s, c ≠ '\\' ∧ c ≠ '"'

theorem escape_cons (c : Char) (s : JString) :
    escape (c :: s) = (if c = '\\' ∨ c = '"' then ['\\', c] else [c]) ++ escape s :=
  List.flatMap_cons

/-- A text without quotes and backslashes is written as it is. -/
theorem escape_of_plain {s : JString} (h : Plain s) : escape s = s := by
  induction s with
  | nil => rfl
  | cons c s ih =>
    obtain ⟨hback, hquote⟩ := h c List.mem_cons_self
    rw [escape_cons, if_neg (not_or.mpr ⟨hback, hquote⟩), ih fun x hx => h x (List.mem_cons_of_mem c hx)]
    rfl

/-- With one backslash in front, what is escaped is never the text itself: every character of the text would
have to be a backslash again. -/
theorem backslash_escape_ne {s r r' : JString} (k : ℕ) :
    List.replicate (k + 1) '\\' ++ (escape s ++ '"' :: r) ≠ s ++ '"' :: r' := by
  induction s generalizing k with
  | nil =>
    intro h
    rw [List.replicate_succ] at h
    exact absurd (List.cons.inj h).1 (by decide)
  | cons c s ih =>
    intro h
    rw [List.replicate_succ] at h
    obtain ⟨rfl, htail⟩ := List.cons.inj h
    rw [escape_cons, if_pos (Or.inl rfl)] at htail
    have hrest : List.replicate k '\\' ++ (['\\', '\\'] ++ escape s ++ '"' :: r) = s ++ '"' :: r' := htail
    apply ih (k + 1)
    rw [← hrest, List.replicate_add k 2, List.append_assoc, List.append_assoc]
    rfl

/-- A text is its own escaped form, up to the quotation mark behind it, only if there is nothing to escape. -/
theorem plain_of_escape_eq {s r r' : JString} (h : escape s ++ '"' :: r = s ++ '"' :: r') : Plain s := by
  induction s with
  | nil => exact List.forall_mem_nil _
  | cons c s ih =>
    rw [escape_cons] at h
    by_cases hc : c = '\\' ∨ c = '"'
    · rw [if_pos hc] at h
      obtain ⟨rfl, htail⟩ := List.cons.inj h
      exact absurd htail (backslash_escape_ne 0)
    · rw [if_neg hc] at h
      rw [not_or] at hc
      exact List.forall_mem_cons.mpr ⟨hc, ih (List.cons.inj h).2⟩

/-! ### Every text is read in one way -/

/-- A quoted text ends where its closing quote is, whatever comes behind. -/
theorem quotedString_append_inj {s s' r r' : JString} (h : quotedString s ++ r = quotedString s' ++ r') :
    s = s' ∧ r = r' := by
  have hcontents : escape s ++ '"' :: r = escape s' ++ '"' :: r' := by
    simpa [quotedString] using h
  clear h
  induction s generalizing s' with
  | nil =>
    cases s' with
    | nil => exact ⟨rfl, (List.cons.inj hcontents).2⟩
    | cons c' s' =>
      rw [escape_cons] at hcontents
      split_ifs at hcontents with hc'
      · exact absurd (List.cons.inj hcontents).1 (by decide)
      · exact absurd (List.cons.inj hcontents).1.symm (not_or.mp hc').2
  | cons c s ih =>
    cases s' with
    | nil =>
      rw [escape_cons] at hcontents
      split_ifs at hcontents with hc
      · exact absurd (List.cons.inj hcontents).1 (by decide)
      · exact absurd (List.cons.inj hcontents).1 (not_or.mp hc).2
    | cons c' s' =>
      rw [escape_cons, escape_cons] at hcontents
      split_ifs at hcontents with hc hc' hc'
      · obtain ⟨rfl, hrest⟩ := List.cons.inj (List.cons.inj hcontents).2
        obtain ⟨rfl, rfl⟩ := ih hrest
        exact ⟨rfl, rfl⟩
      · exact absurd (List.cons.inj hcontents).1.symm (not_or.mp hc').1
      · exact absurd (List.cons.inj hcontents).1 (not_or.mp hc).1
      · obtain ⟨rfl, hrest⟩ := List.cons.inj hcontents
        obtain ⟨rfl, rfl⟩ := ih hrest
        exact ⟨rfl, rfl⟩

/-- What is printed of a text or of `NIL` tells which it was, whatever comes behind. -/
theorem nstring_append_inj {s s' : Option JString} {r r' : JString} (h : nstring s ++ r = nstring s' ++ r') :
    s = s' ∧ r = r' := by
  cases s with
  | none =>
    cases s' with
    | none => exact ⟨rfl, List.append_cancel_left h⟩
    | some s' => exact absurd (List.cons.inj h).1 (by decide)
  | some s =>
    cases s' with
    | none => exact absurd (List.cons.inj h).1 (by decide)
    | some s' =>
      obtain ⟨rfl, hr⟩ := quotedString_append_inj h
      exact ⟨rfl, hr⟩

/-- What is printed of an address tells the address. -/
theorem Address.text_append_inj {a a' : Address} {r r' : JString} (h : a.text ++ r = a'.text ++ r') :
    a = a' ∧ r = r' := by
  obtain ⟨name, adl, mailbox, host⟩ := a
  obtain ⟨name', adl', mailbox', host'⟩ := a'
  simp only [Address.text, list, List.intercalate_cons_cons, List.intercalate_singleton, List.cons_append,
    List.append_assoc, List.cons.injEq, true_and, List.nil_append] at h
  obtain ⟨rfl, h1⟩ := nstring_append_inj h
  obtain ⟨rfl, h2⟩ := nstring_append_inj (List.cons.inj h1).2
  obtain ⟨rfl, h3⟩ := nstring_append_inj (List.cons.inj h2).2
  obtain ⟨rfl, h4⟩ := nstring_append_inj (List.cons.inj h3).2
  exact ⟨rfl, (List.cons.inj h4).2⟩

/-- The closing parenthesis ends the addresses. -/
theorem flatMap_text_append_inj {as as' : List Address} {r r' : JString}
    (h : as.flatMap Address.text ++ ')' :: r = as'.flatMap Address.text ++ ')' :: r') : as = as' ∧ r = r' := by
  induction as generalizing as' with
  | nil =>
    cases as' with
    | nil => exact ⟨rfl, (List.cons.inj h).2⟩
    | cons a' as' => exact absurd (List.cons.inj h).1 (by decide)
  | cons a as ih =>
    cases as' with
    | nil => exact absurd (List.cons.inj h).1 (by decide)
    | cons a' as' =>
      rw [List.flatMap_cons, List.flatMap_cons, List.append_assoc, List.append_assoc] at h
      obtain ⟨rfl, hrest⟩ := Address.text_append_inj h
      obtain ⟨rfl, hr⟩ := ih hrest
      exact ⟨rfl, hr⟩

/-- What is printed of a list of addresses tells the list. -/
theorem addresses_append_inj {as as' : List Address} {r r' : JString}
    (h : addresses as ++ r = addresses as' ++ r') : as = as' ∧ r = r' := by
  cases as with
  | nil =>
    cases as' with
    | nil => exact ⟨rfl, List.append_cancel_left h⟩
    | cons a' as' => exact absurd (List.cons.inj h).1 (by decide)
  | cons a as =>
    cases as' with
    | nil => exact absurd (List.cons.inj h).1 (by decide)
    | cons a' as' =>
      have hlist : (a :: as).flatMap Address.text ++ ')' :: r = (a' :: as').flatMap Address.text ++ ')' :: r' := by
        simpa [addresses] using h
      exact flatMap_text_append_inj hlist

/-- The text of an envelope has one reading. -/
theorem Envelope.text_injective : Function.Injective Envelope.text := by
  intro e e' h
  obtain ⟨date, subject, from_, sender, replyTo, to_, cc, bcc, inReplyTo, messageId⟩ := e
  obtain ⟨date', subject', from', sender', replyTo', to', cc', bcc', inReplyTo', messageId'⟩ := e'
  simp only [Envelope.text, Envelope.fields, list, List.intercalate_cons_cons, List.intercalate_singleton,
    List.cons_append, List.append_assoc, List.cons.injEq, true_and, List.nil_append] at h
  obtain ⟨rfl, h1⟩ := nstring_append_inj h
  obtain ⟨rfl, h2⟩ := nstring_append_inj (List.cons.inj h1).2
  obtain ⟨rfl, h3⟩ := addresses_append_inj (List.cons.inj h2).2
  obtain ⟨rfl, h4⟩ := addresses_append_inj (List.cons.inj h3).2
  obtain ⟨rfl, h5⟩ := addresses_append_inj (List.cons.inj h4).2
  obtain ⟨rfl, h6⟩ := addresses_append_inj (List.cons.inj h5).2
  obtain ⟨rfl, h7⟩ := addresses_append_inj (List.cons.inj h6).2
  obtain ⟨rfl, h8⟩ := addresses_append_inj (List.cons.inj h7).2
  obtain ⟨rfl, h9⟩ := nstring_append_inj (List.cons.inj h8).2
  obtain ⟨rfl, -⟩ := nstring_append_inj (List.cons.inj h9).2
  rfl

end Grammar

namespace FetchCommand

open Grammar

section envelope

variable (env : FetchEnv)

/-! ## What the texts should say -/

/-- The printers outside of the command do what is known of them: dates need no escapes, and a text without line ends
has nothing to unfold. -/
structure Documented : Prop where
  mailDate : ∀ date, Plain (env.mailDate date)
  unfold : ∀ str : JString, '\r' ∉ str → '\n' ∉ str → env.unfold str = str

/-- No text of the headers has a line end. -/
def NoLineEnd (s : Option JString) : Prop := ∀ str ∈ s, '\r' ∉ str ∧ '\n' ∉ str

/-- The address of a user. -/
def address (addr : JString) : Address :=
  let addr := canonicalAddr env addr
  ⟨some addr, none, some (addr.takeWhile (· ≠ '@')), some (addr.dropWhile (· ≠ '@')).tail⟩

/-- A header without a text is left out. -/
def header (s : Option JString) : Option JString := s.filter fun str => str ≠ []

/-- The envelope of a message: the sender three times, and all recipients. -/
def envelope (msg : Headers) : Envelope where
  date := some (ImapDate.toDateEnvelope env msg.sentDate)
  subject := header msg.subject
  from_ := msg.from_.toList.map (address env)
  sender := msg.from_.toList.map (address env)
  replyTo := msg.from_.toList.map (address env)
  to_ := (msg.to_.filterMap id).map (address env)
  cc := []
  bcc := []
  inReplyTo := none
  messageId := header msg.id

/-- The two parts of a message. -/
def bodyStructure (msg : FetchMessage) : Multipart where
  parts :=
    [{ type := "TEXT".toList
       subtype := "PLAIN".toList
       parameters := [("CHARSET".toList, "us-ascii".toList)]
       id := none
       description := none
       encoding := "7bit".toList
       octets := msg.bodyTxt.elim 1 fun body_txt => (utf16Length body_txt : ℤ)
       partEnd := .lines 8 },
     { type := "APPLICATION".toList
       subtype := "OCTET-STREAM".toList
       parameters := [("NAME".toList, orNull msg.filename)]
       id := none
       description := none
       encoding := "base64".toList
       octets := utf16Length msg.bodyBin76
       partEnd := .disposition none "attachment".toList [("FILENAME".toList, orNull msg.filename)] }]
  subtype := "MIXED".toList
  parameters := [("BOUNDARY".toList, "----=_Part_0_1637070917.1594301407736".toList)]

/-- The texts that are printed for these headers and this body are those of the envelope and the structure. -/
structure FetchTextsWellFormed (headers : Headers) (msg : FetchMessage) : Prop where
  envelope : printEnvelope env headers = (FetchCommand.envelope env headers).text
  bodyStructure : printBodyStructure msg = (FetchCommand.bodyStructure msg).text

/-! ## Texts and headers -/

/-- A header is escaped when it has been unfolded. -/
theorem escapeHeader_eq (str : JString) : escapeHeader env str = escape (env.unfold str) := by
  rw [escapeHeader, escape, List.flatMap_assoc]
  congr 1
  funext c
  by_cases hback : c = '\\'
  · subst hback
    rfl
  · by_cases hquote : c = '"' <;> simp [hback, hquote]

/-- A plain text needs no escape. -/
theorem quoted_of_plain {str : JString} (h : Plain str) : quoted str = quotedString str := by
  rw [quotedString, escape_of_plain h]
  rfl

/-- A header without an end of line is printed as the grammar asks. -/
theorem printHeader_eq (henv : Documented env) {str : Option JString} (h : NoLineEnd str) :
    printHeader env str = nstring (header str) := by
  cases str with
  | none => rfl
  | some str =>
    obtain ⟨hr, hn⟩ := h str rfl
    cases str with
    | nil => rfl
    | cons c str =>
      rw [printHeader, if_neg (by simp), escapeHeader_eq, henv.unfold _ hr hn, header, Option.filter_some,
        if_pos (by simp)]
      rfl

/-! ## Addresses -/

/-- An address without quotation marks and backslashes. If the default domain completes it, that has none either. -/
def PlainAddress (addr : JString) : Prop :=
  Plain addr ∧ ('@' ∉ addr ∨ indexOf '@' addr = some (addr.length - 1) → Plain env.defaultDomain)

theorem plain_append {s t : JString} : Plain (s ++ t) ↔ Plain s ∧ Plain t := List.forall_mem_append

/-- When the canonical form of an address is plain. -/
theorem plain_canonicalAddr (addr : JString) : Plain (canonicalAddr env addr) ↔ PlainAddress env addr := by
  have hat : Plain ['@'] := by
    intro c hc
    rw [List.mem_singleton.mp hc]
    decide
  unfold canonicalAddr PlainAddress
  by_cases hnone : indexOf '@' addr = none
  · have hmem := indexOf_eq_none.mp hnone
    have hlast : indexOf '@' (addr ++ '@' :: env.defaultDomain) = some addr.length := indexOf_append hmem _
    have hplain : Plain (addr ++ '@' :: env.defaultDomain) ↔ Plain addr ∧ Plain env.defaultDomain := by
      rw [← List.singleton_append, plain_append, plain_append, and_iff_right hat]
    rw [if_pos hnone]
    dsimp only
    split_ifs
    · rw [plain_append, hplain]
      simp [hmem]
    · rw [hplain]
      simp [hmem]
  · have hmem : '@' ∈ addr := by
      by_contra hcon
      exact hnone (indexOf_eq_none.mpr hcon)
    rw [if_neg hnone]
    dsimp only
    split_ifs with hend
    · rw [plain_append]
      simp [hend]
    · simp [hmem, hend]

/-- Such an address is printed as the grammar asks. -/
theorem printAddr_of_plain {addr : JString} (h : PlainAddress env addr) :
    printAddr env (some addr) = (address env addr).text := by
  rw [← plain_canonicalAddr] at h
  have huser : Plain ((canonicalAddr env addr).takeWhile (· ≠ '@')) := fun c hc => h c (List.takeWhile_subset _ hc)
  have hdomain : Plain ((canonicalAddr env addr).dropWhile (· ≠ '@')).tail :=
    fun c hc => h c (List.dropWhile_subset _ (List.mem_of_mem_tail hc))
  show '(' :: quoted _ ++ _ ++ quoted _ ++ ' ' :: quoted _ ++ [')'] = _
  rw [quoted_of_plain h, quoted_of_plain huser, quoted_of_plain hdomain]
  simp [address, Address.text, Grammar.list, nstring, List.intercalate_cons_cons]

/-- Where an address is read, it has to be one without anything to escape. -/
theorem plainAddress_of_read {addr r r' : JString}
    (h : printAddr env (some addr) ++ r = (address env addr).text ++ r') : PlainAddress env addr := by
  rw [← plain_canonicalAddr]
  have hopen : ∃ x y, canonicalAddr env addr ++ '"' :: x = escape (canonicalAddr env addr) ++ '"' :: y := by
    simp only [printAddr, quoted, address, Address.text, Grammar.list, nstring, quotedString,
      List.intercalate_cons_cons, Option.elim_some, List.cons_append, List.append_assoc, List.cons.injEq, true_and,
      List.nil_append] at h
    exact ⟨_, _, h⟩
  obtain ⟨x, y, hopen⟩ := hopen
  exact plain_of_escape_eq hopen.symm

/-! ## Senders and recipients -/

/-- The loop over the recipients, from the `n`-th on. -/
def printTo (n : ℕ) (to_ : List (Option JString)) : JString :=
  (to_.zipIdx n).flatMap fun addr => (if 1 < addr.2 then [' '] else []) ++ printAddr env addr.1

/-- One or two recipients, and their addresses need no escapes. -/
def PrintableRecipients (to_ : List (Option JString)) : Prop :=
  (to_.length = 1 ∨ to_.length = 2) ∧ ∀ a ∈ to_, ∃ addr, a = some addr ∧ PlainAddress env addr

/-- The recipients one by one: a blank stands in front from the third on. -/
theorem printTo_cons (n : ℕ) (a : Option JString) (to_ : List (Option JString)) : printTo env n (a :: to_)
    = (if 1 < n then [' '] else []) ++ printAddr env a ++ printTo env (n + 1) to_ := by
  rw [printTo, List.zipIdx_cons, List.flatMap_cons]
  rfl

/-- Behind an address there is another one or the end of the list. -/
theorem blank_ne_addresses {as : List Address} {x r : JString} : ' ' :: x ≠ as.flatMap Address.text ++ ')' :: r := by
  intro h
  cases as with
  | nil => exact absurd (List.cons.inj h).1 (by decide)
  | cons a as => exact absurd (List.cons.inj h).1 (by decide)

/-- An address that is read is plain, and what follows it is read behind it. -/
theorem read_address {n : ℕ} (hn : n ≤ 1) {addr : JString} {to_ : List (Option JString)} {as : List Address}
    {r r' : JString}
    (h : printTo env n (some addr :: to_) ++ ')' :: r = (address env addr :: as).flatMap Address.text ++ ')' :: r') :
    PlainAddress env addr ∧ printTo env (n + 1) to_ ++ ')' :: r = as.flatMap Address.text ++ ')' :: r' := by
  rw [printTo_cons, if_neg (by omega), List.nil_append, List.flatMap_cons, List.append_assoc, List.append_assoc] at h
  have hplain := plainAddress_of_read env h
  rw [printAddr_of_plain env hplain, List.append_cancel_left_eq] at h
  exact ⟨hplain, h⟩

/-- The recipients that can be read. -/
theorem printableRecipients_of_read {to_ : List (Option JString)} {r r' : JString}
    (h : '(' :: (printTo env 0 to_ ++ ')' :: r) = addresses ((to_.filterMap id).map (address env)) ++ r') :
    PrintableRecipients env to_ := by
  match to_ with
  | [] => exact absurd (List.cons.inj h).1 (by decide)
  | none :: to_ =>
    exfalso
    rw [List.filterMap_cons_none rfl] at h
    cases hrest : (to_.filterMap id).map (address env) with
    | nil =>
      rw [hrest] at h
      exact absurd (List.cons.inj h).1 (by decide)
    | cons a as =>
      rw [hrest] at h
      have hinner : ' ' :: ("NIL ".toList ++ printTo env 1 to_ ++ ')' :: r)
          = (a :: as).flatMap Address.text ++ ')' :: r' := by
        simpa [addresses, printTo_cons, printAddr] using h
      exact blank_ne_addresses hinner
  | some addr :: to_ =>
    have hinner : printTo env 0 (some addr :: to_) ++ ')' :: r
        = (address env addr :: (to_.filterMap id).map (address env)).flatMap Address.text ++ ')' :: r' := by
      simpa [addresses] using h
    obtain ⟨hfirst, hrest⟩ := read_address env (Nat.zero_le 1) hinner
    match to_ with
    | [] => exact ⟨.inl rfl, by simpa using hfirst⟩
    | none :: to_ =>
      rw [printTo_cons] at hrest
      exact absurd hrest blank_ne_addresses
    | some second :: to_ =>
      obtain ⟨hsecond, hrest⟩ := read_address env (Nat.le_refl 1) hrest
      match to_ with
      | [] => exact ⟨.inr rfl, by simpa using ⟨hfirst, hsecond⟩⟩
      | third :: to_ =>
        rw [printTo_cons] at hrest
        exact absurd hrest blank_ne_addresses

/-- Printable recipients are printed as a list of addresses. -/
theorem printTo_of_printable {to_ : List (Option JString)} (h : PrintableRecipients env to_) :
    '(' :: (printTo env 0 to_ ++ [')']) = addresses ((to_.filterMap id).map (address env)) := by
  obtain ⟨hlength, hplain⟩ := h
  match to_, hlength with
  | [a], _ =>
    obtain ⟨addr, rfl, haddr⟩ := hplain a List.mem_cons_self
    rw [printTo_cons, printAddr_of_plain env haddr]
    simp [printTo, addresses]
  | [a, b], _ =>
    obtain ⟨addr, rfl, haddr⟩ := hplain a List.mem_cons_self
    obtain ⟨second, rfl, hsecond⟩ := hplain b (List.mem_cons_of_mem _ List.mem_cons_self)
    rw [printTo_cons, printTo_cons, printAddr_of_plain env haddr, printAddr_of_plain env hsecond]
    simp [printTo, addresses]
  | [], h => simp at h
  | _ :: _ :: _ :: _, h => simp at h

/-- A message with a sender whose address needs no escapes. -/
def PrintableSender (from_ : Option JString) : Prop := ∃ addr, from_ = some addr ∧ PlainAddress env addr

/-- A sender that can be read as a list of addresses is printable. -/
theorem printableSender_of_read {from_ : Option JString} {r r' : JString}
    (h : '(' :: (printAddr env from_ ++ ')' :: r) = addresses (from_.toList.map (address env)) ++ r') :
    PrintableSender env from_ := by
  cases from_ with
  | none => exact absurd (List.cons.inj h).1 (by decide)
  | some addr =>
    have hinner : printAddr env (some addr) ++ ')' :: r = (address env addr).text ++ ')' :: r' := by
      simpa [addresses] using h
    exact ⟨addr, rfl, plainAddress_of_read env hinner⟩

/-- A printable sender is printed as a list of addresses. -/
theorem printFrom_of_printable {from_ : Option JString} (h : PrintableSender env from_) :
    '(' :: (printAddr env from_ ++ [')']) = addresses (from_.toList.map (address env)) := by
  obtain ⟨addr, rfl, haddr⟩ := h
  rw [printAddr_of_plain env haddr]
  simp [addresses]

/-! ## The whole texts -/

/-- An envelope with these texts as its fields. -/
def frame (date subject from_ to_ id : JString) : JString :=
  '(' :: (date ++ ' ' :: (subject ++ ' ' :: (from_ ++ ' ' :: (from_ ++ ' ' :: (from_ ++ ' ' :: (to_
    ++ (" NIL NIL NIL ".toList ++ (id ++ [')']))))))))

/-- The five texts of a printed envelope. -/
theorem printEnvelope_eq (msg : Headers) : printEnvelope env msg
    = frame (quoted (ImapDate.toDateEnvelope env msg.sentDate)) (printHeader env msg.subject)
        ('(' :: (printAddr env msg.from_ ++ [')'])) ('(' :: (printTo env 0 msg.to_ ++ [')']))
        (printHeader env msg.id) := by
  simp [printEnvelope, frame, printTo]

/-- The five texts of an envelope of the grammar. -/
theorem text_envelope (msg : Headers) : (envelope env msg).text
    = frame (quotedString (ImapDate.toDateEnvelope env msg.sentDate)) (nstring (header msg.subject))
        (addresses (msg.from_.toList.map (address env))) (addresses ((msg.to_.filterMap id).map (address env)))
        (nstring (header msg.id)) := by
  simp [Envelope.text, Envelope.fields, envelope, frame, Grammar.list, List.intercalate_cons_cons, nstring, addresses]

/-- The envelope is printed right exactly for a sender and one or two recipients without anything to escape. -/
theorem printEnvelope_eq_iff (henv : Documented env) {msg : Headers} (hsubject : NoLineEnd msg.subject)
    (hid : NoLineEnd msg.id) : printEnvelope env msg = (envelope env msg).text
      ↔ PrintableSender env msg.from_ ∧ PrintableRecipients env msg.to_ := by
  rw [printEnvelope_eq, text_envelope, ImapDate.toDateEnvelope, quoted_of_plain (henv.mailDate _),
    printHeader_eq env henv hsubject, printHeader_eq env henv hid]
  constructor
  · intro h
    simp only [frame, List.cons.injEq, true_and, List.append_cancel_left_eq, List.cons_append, List.append_assoc,
      List.nil_append] at h
    have hsender := printableSender_of_read env h
    rw [← printFrom_of_printable env hsender] at h
    simp only [List.cons.injEq, true_and, List.append_cancel_left_eq, List.cons_append, List.append_assoc,
      List.nil_append] at h
    exact ⟨hsender, printableRecipients_of_read env h⟩
  · rintro ⟨hsender, hrecipients⟩
    rw [printFrom_of_printable env hsender, printTo_of_printable env hrecipients]

/-! ### The structure -/

/-- What is written of the text part. -/
def textPart (msg : FetchMessage) : JString :=
  '(' :: quotedString "TEXT".toList ++ ' ' :: quotedString "PLAIN".toList
    ++ ' ' :: '(' :: quotedString "CHARSET".toList ++ ' ' :: quotedString "us-ascii".toList
    ++ ')' :: ' ' :: "NIL".toList ++ ' ' :: "NIL".toList ++ ' ' :: quotedString "7bit".toList
    ++ ' ' :: intToString (msg.bodyTxt.elim 1 fun body_txt => (utf16Length body_txt : ℤ))
    ++ ' ' :: intToString 8 ++ [')']

/-- What is written of the attachment, with a text for the contents of its name. -/
def attachmentPart (msg : FetchMessage) (filename : JString) : JString :=
  '(' :: quotedString "APPLICATION".toList ++ ' ' :: quotedString "OCTET-STREAM".toList
    ++ ' ' :: '(' :: quotedString "NAME".toList ++ ' ' :: '"' :: filename
    ++ '"' :: ')' :: ' ' :: "NIL".toList ++ ' ' :: "NIL".toList ++ ' ' :: quotedString "base64".toList
    ++ ' ' :: intToString (utf16Length msg.bodyBin76) ++ ' ' :: "NIL".toList
    ++ ' ' :: '(' :: quotedString "attachment".toList ++ ' ' :: '(' :: quotedString "FILENAME".toList
    ++ ' ' :: '"' :: filename ++ ['"', ')', ')', ')']

/-- The text of the structure. -/
def structureText (msg : FetchMessage) (filename : JString) : JString :=
  '(' :: textPart msg ++ attachmentPart msg filename ++ ' ' :: quotedString "MIXED".toList
    ++ ' ' :: '(' :: quotedString "BOUNDARY".toList
    ++ ' ' :: quotedString "----=_Part_0_1637070917.1594301407736".toList
    ++ ')' :: ' ' :: "NIL".toList ++ ' ' :: "NIL".toList ++ [')']

/-- The text of a body structure is determined by the name of the file. -/
theorem text_bodyStructure (msg : FetchMessage) :
    (bodyStructure msg).text = structureText msg (escape (orNull msg.filename)) := by
  have hquoted : quotedString (orNull msg.filename) = '"' :: (escape (orNull msg.filename) ++ ['"']) := rfl
  simp only [Multipart.text, bodyStructure, Part.text, PartEnd.items, Grammar.list, List.intercalate_cons_cons,
    List.intercalate_singleton, nstring, params, structureText, textPart, attachmentPart, List.flatMap_cons,
    List.flatMap_nil, List.append_assoc, List.cons_append, List.nil_append, Option.elim_none, List.append_nil, hquoted]

/-- The texts of `printBodyStructure` in between and the constants around them. -/
def glue (text lines name encoding disposition close mixed : JString) (msg : FetchMessage) : JString :=
  text ++ intToString (msg.bodyTxt.elim 1 fun body_txt => (utf16Length body_txt : ℤ)) ++ lines ++ name
    ++ orNull msg.filename ++ encoding ++ intToString (utf16Length msg.bodyBin76) ++ disposition
    ++ orNull msg.filename ++ close ++ mixed

theorem glue_congr {text text' lines lines' name name' encoding encoding' disposition disposition' close close'
    mixed mixed' : JString} (htext : text = text') (hlines : lines = lines') (hname : name = name')
    (hencoding : encoding = encoding') (hdisposition : disposition = disposition') (hclose : close = close')
    (hmixed : mixed = mixed') (msg : FetchMessage) :
    glue text lines name encoding disposition close mixed msg
      = glue text' lines' name' encoding' disposition' close' mixed' msg := by
  subst htext hlines hname hencoding hdisposition hclose hmixed
  rfl

/-- The constants of the code are put together from the texts of the grammar. -/
theorem printBodyStructure_eq (msg : FetchMessage) :
    printBodyStructure msg = structureText msg (orNull msg.filename) := by
  have htext : "((\"TEXT\" \"PLAIN\" (\"CHARSET\" \"us-ascii\") NIL NIL \"7bit\" ".toList
      = '(' :: '(' :: quotedString "TEXT".toList ++ ' ' :: quotedString "PLAIN".toList
        ++ ' ' :: '(' :: quotedString "CHARSET".toList ++ ' ' :: quotedString "us-ascii".toList
        ++ ')' :: ' ' :: "NIL".toList ++ ' ' :: "NIL".toList ++ ' ' :: quotedString "7bit".toList ++ [' '] := by
    decide
  have hlines : " 8)".toList = ' ' :: intToString 8 ++ [')'] := by decide
  have hname : "(\"APPLICATION\" \"OCTET-STREAM\" (\"NAME\" \"".toList
      = '(' :: quotedString "APPLICATION".toList ++ ' ' :: quotedString "OCTET-STREAM".toList
        ++ ' ' :: '(' :: quotedString "NAME".toList ++ [' ', '"'] := by decide
  have hencoding : "\") NIL NIL \"base64\" ".toList
      = '"' :: ')' :: ' ' :: "NIL".toList ++ ' ' :: "NIL".toList ++ ' ' :: quotedString "base64".toList ++ [' '] := by
    decide
  have hdisposition : " NIL (\"attachment\" (\"FILENAME\" \"".toList
      = ' ' :: "NIL".toList ++ ' ' :: '(' :: quotedString "attachment".toList
        ++ ' ' :: '(' :: quotedString "FILENAME".toList ++ [' ', '"'] := by decide
  have hclose : "\")))".toList = ['"', ')', ')', ')'] := by decide
  have hmixed : " \"MIXED\" (\"BOUNDARY\" \"----=_Part_0_1637070917.1594301407736\") NIL NIL)".toList
      = ' ' :: quotedString "MIXED".toList ++ ' ' :: '(' :: quotedString "BOUNDARY".toList
        ++ ' ' :: quotedString "----=_Part_0_1637070917.1594301407736".toList
        ++ ')' :: ' ' :: "NIL".toList ++ ' ' :: "NIL".toList ++ [')'] := by decide
  have hglue := glue_congr htext hlines hname hencoding hdisposition hclose hmixed msg
  apply Eq.trans hglue
  simp only [glue, structureText, textPart, attachmentPart, List.append_assoc, List.cons_append, List.nil_append]

/-- The structure is printed right exactly for a file name without anything to escape. -/
theorem printBodyStructure_eq_iff (msg : FetchMessage) :
    printBodyStructure msg = (bodyStructure msg).text ↔ ∀ filename ∈ msg.filename, Plain filename := by
  have hnull : Plain (orNull msg.filename) ↔ ∀ filename ∈ msg.filename, Plain filename := by
    cases msg.filename with
    | none => exact iff_of_true (show Plain "null".toList by simp [Plain]) (by simp)
    | some filename => simp [orNull]
  rw [printBodyStructure_eq, text_bodyStructure, ← hnull]
  constructor
  · intro h
    have hstart : ∃ x y, orNull msg.filename ++ '"' :: x = escape (orNull msg.filename) ++ '"' :: y := by
      simp only [structureText, attachmentPart, List.append_assoc, List.cons_append, List.cons.injEq, true_and,
        List.append_cancel_left_eq] at h
      exact ⟨_, _, h⟩
    obtain ⟨x, y, hstart⟩ := hstart
    exact plain_of_escape_eq hstart.symm
  · intro h
    rw [escape_of_plain h]

/-! ## Messages -/

/-- The envelope and the structure of a message are well formed exactly if there is a sender, there are one or two
recipients, and neither the addresses nor the file name have anything to escape. -/
theorem fetchTextsWellFormed_iff (henv : Documented env) {headers : Headers} (hsubject : NoLineEnd headers.subject)
    (hid : NoLineEnd headers.id) (msg : FetchMessage) : FetchTextsWellFormed env headers msg
      ↔ (PrintableSender env headers.from_ ∧ PrintableRecipients env headers.to_)
        ∧ ∀ filename ∈ msg.filename, Plain filename := by
  rw [← printEnvelope_eq_iff env henv hsubject hid, ← printBodyStructure_eq_iff]
  exact ⟨fun h => ⟨h.envelope, h.bodyStructure⟩, fun h => ⟨h.1, h.2⟩⟩

end envelope

/-! ## A message with an attachment -/

/-- The surroundings of the samples behave as documented. -/
theorem documented_stub : Documented .stub := by
  refine ⟨fun date c hc => ?_, fun str _ _ => rfl⟩
  have hall : ∀ c ∈ "Thu, 1 Jan 1970 00:00:00 +0000 (GMT)".toList, c ≠ '\\' ∧ c ≠ '"' := by simp
  exact hall c hc

/-- From `bob` to `amy`. -/
def sampleHeaders : Headers where
  sentDate := none
  subject := some "a \"b\"".toList
  from_ := some "bob".toList
  to_ := [some "amy".toList]
  id := none

theorem noLineEnd_sampleHeaders : NoLineEnd sampleHeaders.subject ∧ NoLineEnd sampleHeaders.id := by
  refine ⟨fun str hstr => ?_, by simp [NoLineEnd, sampleHeaders]⟩
  obtain rfl := Option.some.inj hstr
  simp

theorem plainAddress_stub {addr : JString} (h : Plain addr) : PlainAddress .stub addr := by
  refine ⟨h, fun _ c hc => ?_⟩
  have hall : ∀ c ∈ "localhost".toList, c ≠ '\\' ∧ c ≠ '"' := by simp
  exact hall c hc

theorem fetchTextsWellFormed_sample : FetchTextsWellFormed .stub sampleHeaders .blank := by
  rw [fetchTextsWellFormed_iff .stub documented_stub noLineEnd_sampleHeaders.1 noLineEnd_sampleHeaders.2]
  refine ⟨⟨⟨_, rfl, plainAddress_stub (by simp [Plain])⟩, .inl rfl, ?_⟩,
    by simp [FetchMessage.blank, Message.new, Plain]⟩
  intro a ha
  obtain rfl := List.mem_singleton.mp ha
  exact ⟨_, rfl, plainAddress_stub (by simp [Plain])⟩

/-- A message with a quotation mark in the name of its file. -/
def quotedFilename : FetchMessage where
  toMessage := { Message.new 0 with num := 1, uid := 1, filename := some "a\"b".toList }
  bodyBin76 := []
  num_le := by decide
  uid_le := by decide

/-- The quotation mark ends the name. -/
theorem not_fetchTextsWellFormed_filename :
    ¬ ∀ (env : FetchEnv) (headers : Headers) (msg : FetchMessage), Documented env → NoLineEnd headers.subject →
      NoLineEnd headers.id → FetchTextsWellFormed env headers msg := by
  intro h
  have hsample := h .stub sampleHeaders quotedFilename documented_stub noLineEnd_sampleHeaders.1
    noLineEnd_sampleHeaders.2
  have hplain := (printBodyStructure_eq_iff quotedFilename).mp hsample.bodyStructure _ rfl
  exact absurd (hplain '"' (by simp)) (by decide)

end FetchCommand

end OrgLittle.Imap
