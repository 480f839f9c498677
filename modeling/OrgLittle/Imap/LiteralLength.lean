import OrgLittle.Imap.FetchAnswers

/-!
# The literals of `FETCH` answers

A section of a message is sent as a literal: the number of its octets in braces, and then the octets. Every
branch of `parseMsg` announces the length of the text that it appends, and every `char` is written as one
octet. The exception is a message without a text, for which `null` is appended behind the number `1`
(`literalCounted_iff`).
-/

namespace OrgLittle.Imap

open OrgLittle.Java OrgLittle.Lmsg

/-- `EmptyResponse.write`. -/
def EmptyResponse.write (r : EmptyResponse) : List UInt8 :=
  r.tag.elim [42] writeAscii ++ SP :: writeAscii r.response

namespace FetchCommand

section literal

variable (env : FetchEnv) (number : ℤ) (msg : FetchMessage) (fetch : FetchRequest)

/-- A section of the body is requested. -/
def wantsBody : Bool := fetch.body_peek || fetch.body

/-- The data items in front of the section. -/
def itemsBefore : List Segment := ((segments env msg fetch).dropLast.filter Prod.fst).map Prod.snd

/-- What is written of the answer. -/
def written : List UInt8 := (FetchResponse.data number (parseMsg env msg fetch)).toEmptyResponse.write

/-- What is written in front of the literal. -/
def writtenBefore : List UInt8 :=
  42 :: SP :: writeAscii (intToString number ++ " FETCH (".toList
    ++ (itemsBefore env msg fetch).flatMap Segment.text ++ bodyLabel fetch ++ [' '])

/-- The answer ends with a literal that announces the number `n`, the octets behind the number, and a closing
parenthesis. -/
def Announces (n : ℤ) (octets : List UInt8) : Prop :=
  written env number msg fetch
    = writtenBefore env number msg fetch ++ writeAscii ('\x7b' :: intToString n ++ "\x7d\r\n".toList) ++ octets ++ [41]

/-- If a section is requested, then the literal has as many octets as it announces. -/
def LiteralCounted : Prop :=
  wantsBody fetch = true → ∃ n octets, Announces env number msg fetch n octets ∧ (octets.length : ℤ) = n

/-! ## What is announced and what is written -/

/-- The text of a section. -/
def sectionBody (body_section : Option JString) : JString :=
  match bodyPart body_section with
  | 0 => env.parse msg
  | 1 => orNull msg.bodyTxt
  | 2 => msg.bodyBin76
  | _ => headerText env msg

/-- The number of a section. -/
def sectionCount (body_section : Option JString) : ℤ :=
  if bodyPart body_section = 1 ∧ msg.bodyTxt = none then 1 else utf16Length (sectionBody env msg body_section)

theorem sectionText_eq (body_section : Option JString) : sectionText env msg body_section
    = literal (sectionCount env msg body_section) (sectionBody env msg body_section) := by
  unfold sectionText sectionCount sectionBody
  generalize bodyPart body_section = part
  match part with
  | 0 => rfl
  | 1 =>
    cases msg.bodyTxt with
    | none => rfl
    | some body_txt => rfl
  | 2 => rfl
  | part + 3 =>
    rw [if_neg (fun h => absurd h.1 (by omega))]
    rfl

/-- The section is the last data item. -/
theorem parseMsg_eq (h : wantsBody fetch = true) : parseMsg env msg fetch
    = itemsBefore env msg fetch ++ [⟨bodyLabel fetch, sectionText env msg fetch.body_section⟩] := by
  have hlast : segments env msg fetch = (segments env msg fetch).dropLast
      ++ [(wantsBody fetch, ⟨bodyLabel fetch, sectionText env msg fetch.body_section⟩)] := rfl
  have hfilter (item : Segment) : [(wantsBody fetch, item)].filter Prod.fst = [(wantsBody fetch, item)] :=
    List.filter_cons_of_pos h
  rw [parseMsg, hlast, List.filter_append, List.map_append, hfilter]
  rfl

theorem announces_section (h : wantsBody fetch = true) : Announces env number msg fetch
    (sectionCount env msg fetch.body_section) (writeAscii (sectionBody env msg fetch.body_section)) := by
  rw [Announces, written, writtenBefore, FetchResponse.toEmptyResponse, parseMsg_eq env msg fetch h,
    List.flatMap_append, List.flatMap_singleton, Segment.text, sectionText_eq, literal, EmptyResponse.write]
  have hclose : writeAscii [')'] = [41] := rfl
  simp only [writeAscii_append, ← hclose]
  simp [writeAscii]

/-- The number that is announced can be read, so that there is only one. -/
theorem Announces.unique {n n' : ℤ} {octets octets' : List UInt8} (h : Announces env number msg fetch n octets)
    (h' : Announces env number msg fetch n' octets') : n = n' ∧ octets = octets' := by
  have heq := h.symm.trans h'
  rw [List.append_assoc, List.append_assoc, List.append_assoc, List.append_assoc, List.append_cancel_left_eq] at heq
  have hcut (v : ℤ) (rest : List UInt8) :
      asciiString (writeAscii ('\x7b' :: intToString v ++ "\x7d\r\n".toList) ++ rest)
        = '\x7b' :: (intToString v ++ '\x7d' :: ("\r\n".toList ++ asciiString rest)) := by
    have hascii : ∀ c ∈ '\x7b' :: intToString v ++ "\x7d\r\n".toList, c.toNat < 128 := by
      intro c hc
      rcases List.mem_append.mp hc with hc | hc
      · rcases List.mem_cons.mp hc with rfl | hc
        · decide
        · exact toNat_lt_of_mem_intToString hc
      · rcases show c = '\x7d' ∨ c = '\r' ∨ c = '\n' by simpa using hc with rfl | rfl | rfl <;> decide
    rw [asciiString, List.map_append, ← asciiString, asciiString_writeAscii hascii]
    simp [asciiString]
  have htext := congrArg asciiString heq
  rw [hcut, hcut] at htext
  obtain ⟨hnumber, -⟩ := append_cons_inj (notMem_intToString (by decide) rfl)
    (notMem_intToString (by decide) rfl) (List.cons.inj htext).2
  have hn := intToString_injective hnumber
  subst hn
  rw [List.append_cancel_left_eq, List.append_cancel_right_eq] at heq
  exact ⟨rfl, heq⟩

/-! ## The lengths -/

theorem literalCounted_iff_sectionCount : LiteralCounted env number msg fetch
    ↔ (wantsBody fetch = true → sectionCount env msg fetch.body_section
        = utf16Length (sectionBody env msg fetch.body_section)) := by
  refine forall_congr' fun hbody => ?_
  have hsection := announces_section env number msg fetch hbody
  constructor
  · rintro ⟨n, octets, hannounces, hlength⟩
    obtain ⟨rfl, rfl⟩ := hannounces.unique env number msg fetch hsection
    rw [← hlength, length_writeAscii]
  · intro hcount
    exact ⟨_, _, hsection, by rw [length_writeAscii, hcount]⟩

/-- Only for a text that is `null` the number is not its length. -/
theorem sectionCount_eq_iff (body_section : Option JString) :
    sectionCount env msg body_section = utf16Length (sectionBody env msg body_section)
      ↔ ¬ (bodyPart body_section = 1 ∧ msg.bodyTxt = none) := by
  rw [sectionCount]
  split_ifs with hnull
  · have hbody : sectionBody env msg body_section = "null".toList := by
      rw [sectionBody, hnull.1, hnull.2]
      rfl
    rw [hbody]
    exact iff_of_false (by decide) (not_not_intro hnull)
  · exact iff_of_true rfl hnull

/-- The literal is right exactly if the message has a text, or another section is requested. -/
theorem literalCounted_iff : LiteralCounted env number msg fetch
    ↔ ¬ (wantsBody fetch = true ∧ bodyPart fetch.body_section = 1 ∧ msg.bodyTxt = none) := by
  rw [literalCounted_iff_sectionCount, sectionCount_eq_iff]
  exact not_and.symm

end literal

/-- A message whose text is `null`. -/
def textlessMessage : FetchMessage where
  toMessage := { Message.new 0 with num := 1, uid := 1, bodyTxt := none }
  bodyBin76 := []
  num_le := by decide
  uid_le := by decide

/-- The text of a message without one is `null`, behind the number `1`. -/
theorem not_literalCounted_null :
    ¬ ∀ (env : FetchEnv) (number : ℤ) (msg : FetchMessage) (fetch : FetchRequest),
      LiteralCounted env number msg fetch := by
  intro h
  have htext := h .stub 1 textlessMessage { FetchRequest.new with body := true, body_section := some "TEXT".toList }
  rw [literalCounted_iff_sectionCount, sectionCount_eq_iff] at htext
  exact htext rfl ⟨by decide, rfl⟩

end FetchCommand

end OrgLittle.Imap
