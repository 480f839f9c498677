import OrgLittle.Util.Base64

/-!
# `stringTransform`: passwords as LDAP texts

`getHex` looks at the digit that each character stands for and then writes the index of the character. So the text of
a password tells nothing but its length (`passwordToLdapMd5_eq_iff`).
-/

namespace OrgLittle.Util.StringTransform

open OrgLittle.Java

/-! ## The code -/

/-- `Character.digit(c, 16)`, on the characters up to `0xff`. -/
def digit16 (c : Char) : Option ℕ :=
  let n := c.toNat
  if 48 ≤ n ∧ n ≤ 57 then some (n - 48)
  else if 97 ≤ n ∧ n ≤ 102 then some (n - 87)
  else if 65 ≤ n ∧ n ≤ 70 then some (n - 55)
  else none

/-- `hexChars`. -/
def hexChars : List Char := "0123456789abcdef".toList

/-- The entry of `hexChars` for the low four bits of a number. -/
def hexChar (n : ℕ) : Char := hexChars.getD (n &&& 0x0f) '0'

/-- The loop of `getHex(char[])` from the index `i` on. What it writes is the index. -/
def getHexFrom (i : ℕ) : JString → Option JString
  | [] => some []
  | c :: char_buffer =>
    match digit16 c with
    | none => none
    | some _ => (getHexFrom (i + 1) char_buffer).map fun result => hexChar (i >>> 4) :: hexChar i :: result

/-- `getHex(char[])`. -/
def getHex (char_buffer : JString) : Option JString := getHexFrom 0 char_buffer

/-- `PasswordToLdapMd5`. The bytes of the digits are the same in every charset of a platform. -/
def PasswordToLdapMd5 (password : JString) : Except JavaException JString :=
  match getHex password with
  | none => .error .nullPointer
  | some hex_passwd => .ok ("{md5}".toList ++ Base64.byteArrayToBase64 (writeAscii hex_passwd))

/-- `LdapMd5ToPassword`, with the charset UTF-8. -/
def LdapMd5ToPassword (utf8 : Charset) (password : JString) : Except JavaException JString := do
  let hex_password ← substring password "{md5}".length password.length
  let decoded_password ← Base64.base64ToByteArray hex_password
  .ok (utf8.decode decoded_password)

/-- A string of hexadecimal digits. -/
@[ext]
structure HexString where
  text : JString
  digits : ∀ c ∈ text, (digit16 c).isSome = true

/-! ## What is written -/

/-- The indices from `i` on, `n` of them, with two digits each. -/
def indexText (i : ℕ) : ℕ → JString
  | 0 => []
  | n + 1 => hexChar (i >>> 4) :: hexChar i :: indexText (i + 1) n

theorem length_indexText (i n : ℕ) : (indexText i n).length = 2 * n := by
  induction n generalizing i with
  | zero => rfl
  | succ n ih =>
    rw [indexText, List.length_cons, List.length_cons, ih]
    omega

theorem getHexFrom_eq {s : JString} (h : ∀ c ∈ s, (digit16 c).isSome = true) (i : ℕ) :
    getHexFrom i s = some (indexText i s.length) := by
  induction s generalizing i with
  | nil => rfl
  | cons c s ih =>
    rw [List.forall_mem_cons] at h
    obtain ⟨n, hn⟩ := Option.isSome_iff_exists.mp h.1
    rw [getHexFrom, hn, ih h.2]
    rfl

theorem hexChar_lt (n : ℕ) : (hexChar n).toNat < 128 := by
  have hall : ∀ k : ℕ, k < 16 → (hexChars.getD k '0').toNat < 128 := by decide
  exact hall _ (Nat.lt_of_le_of_lt Nat.and_le_right (by decide))

theorem indexText_lt (i n : ℕ) : ∀ c ∈ indexText i n, c.toNat < 128 := by
  induction n generalizing i with
  | zero => exact fun c hc => absurd hc List.not_mem_nil
  | succ n ih =>
    rw [indexText, List.forall_mem_cons, List.forall_mem_cons]
    exact ⟨hexChar_lt _, hexChar_lt _, ih (i + 1)⟩

theorem passwordToLdapMd5_ok (p : HexString) :
    PasswordToLdapMd5 p.text
      = .ok ("{md5}".toList ++ Base64.byteArrayToBase64 (writeAscii (indexText 0 p.text.length))) := by
  rw [PasswordToLdapMd5, getHex, getHexFrom_eq p.digits]

theorem isAscii_writeAscii {s : JString} (h : ∀ c ∈ s, c.toNat < 128) : IsAscii (writeAscii s) := by
  intro b hb
  obtain ⟨c, hc, hbyte⟩ := List.mem_flatMap.mp hb
  have hlt := h c hc
  rw [if_neg (by omega), List.mem_singleton, c2b, if_neg (by omega)] at hbyte
  rw [hbyte, UInt8.toNat_ofNat', Nat.mod_eq_of_lt (show c.toNat < 2 ^ 8 by omega)]
  exact hlt

/-- Reading a text back gives the digits that were written, which are those of the indices. -/
theorem ldapMd5ToPassword_passwordToLdapMd5 (utf8 : Charset) (p : HexString) :
    (PasswordToLdapMd5 p.text).bind (LdapMd5ToPassword utf8) = .ok (indexText 0 p.text.length) := by
  rw [passwordToLdapMd5_ok]
  generalize hhex : indexText 0 p.text.length = hex
  have hlt : ∀ c ∈ hex, c.toNat < 128 := hhex ▸ indexText_lt 0 p.text.length
  have hcut : substring ("{md5}".toList ++ Base64.byteArrayToBase64 (writeAscii hex)) "{md5}".length
      ("{md5}".toList ++ Base64.byteArrayToBase64 (writeAscii hex)).length
        = .ok (Base64.byteArrayToBase64 (writeAscii hex)) := by
    have hlength : "{md5}".length = "{md5}".toList.length := rfl
    rw [substring, hlength, if_pos ⟨by rw [List.length_append]; omega, le_refl _⟩, List.drop_left,
      List.length_append, Nat.add_sub_cancel_left, List.take_length]
  change LdapMd5ToPassword utf8 _ = _
  rw [LdapMd5ToPassword, hcut]
  dsimp only [bind, Except.bind]
  rw [Base64.base64ToByteArray_byteArrayToBase64]
  dsimp only
  rw [utf8.decode_ascii _ (isAscii_writeAscii hlt), asciiString_writeAscii hlt]

/-- Two passwords have the same text if and only if they are of the same length. -/
theorem passwordToLdapMd5_eq_iff (p q : HexString) :
    PasswordToLdapMd5 p.text = PasswordToLdapMd5 q.text ↔ p.text.length = q.text.length := by
  constructor
  · intro h
    have hread : (PasswordToLdapMd5 p.text).bind (LdapMd5ToPassword Charset.latin1)
        = (PasswordToLdapMd5 q.text).bind (LdapMd5ToPassword Charset.latin1) := by rw [h]
    rw [ldapMd5ToPassword_passwordToLdapMd5, ldapMd5ToPassword_passwordToLdapMd5] at hread
    have hlength := congrArg List.length (Except.ok.inj hread)
    rw [length_indexText, length_indexText] at hlength
    omega
  · intro h
    rw [passwordToLdapMd5_ok, passwordToLdapMd5_ok, h]

/-- A string can be told from all others by its text, and by what is read back from that. -/
def Determined (p : HexString) : Prop :=
  (∀ q : HexString, PasswordToLdapMd5 q.text = PasswordToLdapMd5 p.text → q = p)
    ∧ ∀ utf8 : Charset, ∀ q : HexString, (PasswordToLdapMd5 q.text).bind (LdapMd5ToPassword utf8)
        = (PasswordToLdapMd5 p.text).bind (LdapMd5ToPassword utf8) → q = p

/-- Only the empty string can be told from all others. -/
theorem determined_iff (p : HexString) : Determined p ↔ p.text = [] := by
  constructor
  · rintro ⟨htext, -⟩
    by_contra hne
    obtain ⟨c, rest, hp⟩ := List.exists_cons_of_ne_nil hne
    have hrest : ∀ d ∈ rest, (digit16 d).isSome = true := fun d hd =>
      p.digits d (by rw [hp]; exact List.mem_cons_of_mem c hd)
    -- Both of these are of the same length, and they cannot both be the string itself.
    have hzero := htext ⟨'0' :: rest, List.forall_mem_cons.mpr ⟨rfl, hrest⟩⟩
      ((passwordToLdapMd5_eq_iff _ p).mpr (by rw [hp]; rfl))
    have hone := htext ⟨'1' :: rest, List.forall_mem_cons.mpr ⟨rfl, hrest⟩⟩
      ((passwordToLdapMd5_eq_iff _ p).mpr (by rw [hp]; rfl))
    have hsame := congrArg HexString.text (hzero.trans hone.symm)
    exact absurd (List.cons.inj hsame).1 (by decide)
  · intro hnil
    have hunique (q : HexString) (hlength : q.text.length = p.text.length) : q = p := by
      rw [hnil] at hlength
      exact HexString.ext ((List.length_eq_zero_iff.mp hlength).trans hnil.symm)
    refine ⟨fun q hq => hunique q ((passwordToLdapMd5_eq_iff q p).mp hq), fun utf8 q hq => hunique q ?_⟩
    rw [ldapMd5ToPassword_passwordToLdapMd5, ldapMd5ToPassword_passwordToLdapMd5] at hq
    have hlength := congrArg List.length (Except.ok.inj hq)
    rw [length_indexText, length_indexText] at hlength
    omega

/-- `1` and `2` have the same text. -/
theorem not_determined_one : ¬ Determined ⟨['1'], List.forall_mem_singleton.mpr rfl⟩ := by
  intro h
  have hsame := h.1 ⟨['2'], List.forall_mem_singleton.mpr rfl⟩ ((passwordToLdapMd5_eq_iff _ _).mpr rfl)
  exact absurd (List.cons.inj (congrArg HexString.text hsame)).1 (by decide)

end OrgLittle.Util.StringTransform
