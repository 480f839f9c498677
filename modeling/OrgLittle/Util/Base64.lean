import OrgLittle.Java.Text

/-!
# `org.little.util._Base64`

The decoder behind `SmtpAuthTransaction` and the encoder behind the attachments. For the decoder, a text
whose length is not a multiple of four, a character outside the alphabet, and a character above the end
of the lookup table each raise an exception. What the encoder writes it reads back
(`base64ToByteArray_byteArrayToBase64`).
-/

namespace OrgLittle.Util.Base64

open OrgLittle.Java

/-- The table `base64ToInt`: `-1` marks a character outside the alphabet. -/
def base64ToInt : List ℤ :=
  [-1, -1, -1, -1, -1, -1, -1, -1, -1, -1, -1, -1, -1, -1, -1, -1, -1,
   -1, -1, -1, -1, -1, -1, -1, -1, -1, -1, -1, -1, -1, -1, -1, -1, -1,
   -1, -1, -1, -1, -1, -1, -1, -1, -1, 62, -1, -1, -1, 63, 52, 53, 54,
   55, 56, 57, 58, 59, 60, 61, -1, -1, -1, -1, -1, -1, -1, 0, 1, 2, 3, 4,
   5, 6, 7, 8, 9, 10, 11, 12, 13, 14, 15, 16, 17, 18, 19, 20, 21, 22, 23,
   24, 25, -1, -1, -1, -1, -1, -1, 26, 27, 28, 29, 30, 31, 32, 33, 34,
   35, 36, 37, 38, 39, 40, 41, 42, 43, 44, 45, 46, 47, 48, 49, 50, 51]

/-- `base64toInt`: the six bits of one character. -/
def base64toInt (c : Char) : Except JavaException ℕ :=
  match base64ToInt[c.toNat]? with
  | none => .error .indexOutOfBounds
  | some r => if r < 0 then .error .illegalArgument else .ok r.toNat

/-- The loop over the full groups of four characters; returns the bytes and the unread text. -/
def fullGroups : ℕ → JString → Except JavaException (List UInt8 × JString)
  | 0, s => .ok ([], s)
  | n + 1, c0 :: c1 :: c2 :: c3 :: s => do
    let ch0 ← base64toInt c0
    let ch1 ← base64toInt c1
    let ch2 ← base64toInt c2
    let ch3 ← base64toInt c3
    let (bytes, rest) ← fullGroups n s
    .ok (UInt8.ofNat ((ch0 <<< 2) ||| (ch1 >>> 4)) :: UInt8.ofNat ((ch1 <<< 4) ||| (ch2 >>> 2))
      :: UInt8.ofNat ((ch2 <<< 6) ||| ch3) :: bytes, rest)
  | _ + 1, _ => .error .indexOutOfBounds

/-- The partial group, with `missing` padding characters. -/
def partialGroup (missing : ℕ) : JString → Except JavaException (List UInt8)
  | c0 :: c1 :: s => do
    let ch0 ← base64toInt c0
    let ch1 ← base64toInt c1
    let b0 := UInt8.ofNat ((ch0 <<< 2) ||| (ch1 >>> 4))
    if missing = 1 then
      match s with
      | c2 :: _ => do
        let ch2 ← base64toInt c2
        .ok [b0, UInt8.ofNat ((ch1 <<< 4) ||| (ch2 >>> 2))]
      | [] => .error .indexOutOfBounds
    else .ok [b0]
  | _ => .error .indexOutOfBounds

/-- `base64ToByteArray`. -/
def base64ToByteArray (s : JString) : Except JavaException (List UInt8) :=
  let sLen := s.length
  let numGroups := sLen / 4
  if 4 * numGroups ≠ sLen then .error .illegalArgument
  else
    let last := decide (sLen ≠ 0 ∧ s[sLen - 1]? = some '=')
    let beforeLast := decide (sLen ≠ 0 ∧ s[sLen - 2]? = some '=')
    let missingBytesInLastGroup := last.toNat + beforeLast.toNat
    let numFullGroups := if last then numGroups - 1 else numGroups
    do
      let (full, rest) ← fullGroups numFullGroups s
      if missingBytesInLastGroup ≠ 0 then
        let tail ← partialGroup missingBytesInLastGroup rest
        .ok (full ++ tail)
      else .ok full

example : base64ToByteArray "AGF2ADEyMw==".toList = .ok [0, 97, 118, 0, 49, 50, 51] := by decide

/-- `Base64ToStr`. -/
def base64ToStr (charset : Charset) (s : JString) : Except JavaException JString := do
  let bytes ← base64ToByteArray s
  .ok (charset.decode bytes)

/-! ## The encoder -/

/-- The table `intToBase64`. -/
def intToBase64 : List Char :=
  "ABCDEFGHIJKLMNOPQRSTUVWXYZabcdefghijklmnopqrstuvwxyz0123456789+/".toList

/-- The character for six bits. -/
def alpha (n : ℕ) : Char := intToBase64.getD n 'A'

/-- `byteArrayToBase64`: the full groups, and the partial group at the end. -/
def byteArrayToBase64 : List UInt8 → JString
  | byte0 :: byte1 :: byte2 :: a =>
    alpha (byte0.toNat >>> 2) :: alpha ((byte0.toNat <<< 4) &&& 0x3f ||| (byte1.toNat >>> 4))
      :: alpha ((byte1.toNat <<< 2) &&& 0x3f ||| (byte2.toNat >>> 6)) :: alpha (byte2.toNat &&& 0x3f)
      :: byteArrayToBase64 a
  | [byte0, byte1] =>
    [alpha (byte0.toNat >>> 2), alpha ((byte0.toNat <<< 4) &&& 0x3f ||| (byte1.toNat >>> 4)),
      alpha ((byte1.toNat <<< 2) &&& 0x3f), '=']
  | [byte0] => [alpha (byte0.toNat >>> 2), alpha ((byte0.toNat <<< 4) &&& 0x3f), '=', '=']
  | [] => []

example : byteArrayToBase64 [0, 97, 118, 0, 49, 50, 51] = "AGF2ADEyMw==".toList := by decide

theorem forall_mem_byteArrayToBase64 {P : Char → Prop} (hletters : ∀ c ∈ intToBase64, P c)
    (hpadding : P '=') (bytes : List UInt8) : ∀ c ∈ byteArrayToBase64 bytes, P c := by
  have halpha (n : ℕ) : P (alpha n) := by
    rw [alpha, List.getD_eq_getElem?_getD]
    rcases hget : intToBase64[n]? with _ | c
    · exact hletters 'A' (by decide)
    · exact hletters c (List.mem_of_getElem? hget)
  fun_induction byteArrayToBase64 bytes with
  | case1 byte0 byte1 byte2 a ih => simpa only [List.forall_mem_cons, halpha, true_and] using ih
  | case2 byte0 byte1 => simp [halpha, hpadding]
  | case3 byte0 => simp [halpha, hpadding]
  | case4 => simp

/-! ## Reading back what was written -/

set_option maxRecDepth 2000 in
theorem base64toInt_alpha {n : ℕ} (h : n < 64) : base64toInt (alpha n) = .ok n ∧ alpha n ≠ '=' := by
  revert n
  decide

theorem shiftLeft_or {k x y : ℕ} (h : y < 2 ^ k) : (x <<< k) ||| y = x * 2 ^ k + y := by
  rw [← Nat.shiftLeft_add_eq_or_of_lt h, Nat.shiftLeft_eq]

/-- The bits of two bytes that go into one character. -/
theorem and_or_eq {k x y : ℕ} (hk : k ≤ 6) (hy : y < 2 ^ k) :
    (x <<< k) &&& 0x3f ||| y = x % 2 ^ (6 - k) * 2 ^ k + y := by
  have hmod : (x <<< k) &&& 0x3f = (x % 2 ^ (6 - k)) <<< k := by
    have hmask : (0x3f : ℕ) = 2 ^ 6 - 1 := rfl
    have hpow : 2 ^ 6 = 2 ^ (6 - k) * 2 ^ k := by rw [← Nat.pow_add, Nat.sub_add_cancel hk]
    rw [hmask, Nat.and_two_pow_sub_one_eq_mod, Nat.shiftLeft_eq, Nat.shiftLeft_eq, hpow,
      Nat.mul_mod_mul_right]
  rw [hmod, shiftLeft_or hy]

theorem ofNat_eq_of_mod {n : ℕ} {b : UInt8} (h : n % 256 = b.toNat) : UInt8.ofNat n = b := by
  apply UInt8.toNat_inj.mp
  rw [UInt8.toNat_ofNat', h]

/-- The six bits of each of the four characters of a group, and the bytes that they give. -/
structure Sextets (byte0 byte1 byte2 : UInt8) (ch0 ch1 ch2 ch3 : ℕ) : Prop where
  written0 : byte0.toNat >>> 2 = ch0 ∧ ch0 < 64
  written1 : (byte0.toNat <<< 4) &&& 0x3f ||| (byte1.toNat >>> 4) = ch1 ∧ ch1 < 64
  written2 : (byte1.toNat <<< 2) &&& 0x3f ||| (byte2.toNat >>> 6) = ch2 ∧ ch2 < 64
  written3 : byte2.toNat &&& 0x3f = ch3 ∧ ch3 < 64
  read0 : UInt8.ofNat ((ch0 <<< 2) ||| (ch1 >>> 4)) = byte0
  read1 : UInt8.ofNat ((ch1 <<< 4) ||| (ch2 >>> 2)) = byte1
  read2 : UInt8.ofNat ((ch2 <<< 6) ||| ch3) = byte2

theorem exists_sextets (byte0 byte1 byte2 : UInt8) :
    ∃ ch0 ch1 ch2 ch3, Sextets byte0 byte1 byte2 ch0 ch1 ch2 ch3 := by
  have h0 := byte0.toNat_lt
  have h1 := byte1.toNat_lt
  have h2 := byte2.toNat_lt
  have hmask : byte2.toNat &&& 0x3f = byte2.toNat % 64 :=
    Nat.and_two_pow_sub_one_eq_mod byte2.toNat 6
  refine ⟨byte0.toNat / 4, byte0.toNat % 4 * 16 + byte1.toNat / 16,
    byte1.toNat % 16 * 4 + byte2.toNat / 64, byte2.toNat % 64, ?_⟩
  constructor
  · exact ⟨Nat.shiftRight_eq_div_pow _ 2, by omega⟩
  · refine ⟨?_, by omega⟩
    rw [Nat.shiftRight_eq_div_pow]
    exact and_or_eq (by decide) (by omega)
  · refine ⟨?_, by omega⟩
    rw [Nat.shiftRight_eq_div_pow]
    exact and_or_eq (by decide) (by omega)
  · exact ⟨hmask, by omega⟩
  all_goals apply ofNat_eq_of_mod
  · rw [Nat.shiftRight_eq_div_pow, shiftLeft_or (by omega)]
    omega
  · rw [Nat.shiftRight_eq_div_pow, shiftLeft_or (by omega)]
    omega
  · rw [shiftLeft_or (by omega)]
    omega

/-- One full group. -/
theorem fullGroups_cons (n : ℕ) (byte0 byte1 byte2 : UInt8) (a : List UInt8) :
    fullGroups (n + 1) (byteArrayToBase64 (byte0 :: byte1 :: byte2 :: a))
      = (fullGroups n (byteArrayToBase64 a)).map
          fun r => (byte0 :: byte1 :: byte2 :: r.1, r.2) := by
  obtain ⟨ch0, ch1, ch2, ch3, h⟩ := exists_sextets byte0 byte1 byte2
  rw [byteArrayToBase64, h.written0.1, h.written1.1, h.written2.1, h.written3.1, fullGroups,
    (base64toInt_alpha h.written0.2).1, (base64toInt_alpha h.written1.2).1,
    (base64toInt_alpha h.written2.2).1, (base64toInt_alpha h.written3.2).1]
  rcases fullGroups n (byteArrayToBase64 a) with e | ⟨bytes, rest⟩
  · rfl
  · show Except.ok _ = Except.ok _
    rw [h.read0, h.read1, h.read2]

/-- Induction over the full groups of bytes. -/
@[elab_as_elim]
theorem full_induction {motive : ℕ → List UInt8 → Prop} (nil : motive 0 [])
    (cons : ∀ k byte0 byte1 byte2 full, motive k full → motive (k + 1) (byte0 :: byte1 :: byte2 :: full))
    {k : ℕ} {full : List UInt8} (hfull : full.length = 3 * k) : motive k full := by
  induction k generalizing full with
  | zero =>
    obtain rfl := List.length_eq_zero_iff.mp hfull
    exact nil
  | succ k ih =>
    rcases full with _ | ⟨byte0, _ | ⟨byte1, _ | ⟨byte2, full⟩⟩⟩
    all_goals simp only [List.length_cons, List.length_nil] at hfull
    · omega
    · omega
    · omega
    · exact cons k byte0 byte1 byte2 full (ih (by omega))

/-- The full groups, up to the bytes `tail`. -/
theorem fullGroups_encode {k : ℕ} {full : List UInt8} (hfull : full.length = 3 * k)
    (tail : List UInt8) :
    fullGroups k (byteArrayToBase64 (full ++ tail)) = .ok (full, byteArrayToBase64 tail) := by
  refine full_induction ?_ (fun k byte0 byte1 byte2 full ih => ?_) hfull
  · rfl
  · rw [List.cons_append, List.cons_append, List.cons_append, fullGroups_cons, ih]
    rfl

theorem byteArrayToBase64_append {k : ℕ} {full : List UInt8} (hfull : full.length = 3 * k)
    (tail : List UInt8) :
    byteArrayToBase64 (full ++ tail) = byteArrayToBase64 full ++ byteArrayToBase64 tail
      ∧ (byteArrayToBase64 full).length = 4 * k := by
  refine full_induction ⟨rfl, rfl⟩ (fun k byte0 byte1 byte2 full ih => ⟨?_, ?_⟩) hfull
  · simp only [List.cons_append, byteArrayToBase64, ih.1]
  · simp only [byteArrayToBase64, List.length_cons, ih.2]
    omega

/-- Full groups have no padding. -/
theorem ne_padding_of_mem {k : ℕ} {full : List UInt8} (hfull : full.length = 3 * k) :
    ∀ c ∈ byteArrayToBase64 full, c ≠ '=' := by
  refine full_induction (fun c hc => ?_) (fun k byte0 byte1 byte2 full ih => ?_) hfull
  · cases hc
  · obtain ⟨ch0, ch1, ch2, ch3, h⟩ := exists_sextets byte0 byte1 byte2
    rw [byteArrayToBase64, h.written0.1, h.written1.1, h.written2.1, h.written3.1]
    simp only [List.mem_cons, forall_eq_or_imp]
    exact ⟨(base64toInt_alpha h.written0.2).2, (base64toInt_alpha h.written1.2).2,
      (base64toInt_alpha h.written2.2).2, (base64toInt_alpha h.written3.2).2, ih⟩

/-- A text without padding is its full groups. -/
theorem base64ToByteArray_unpadded {k : ℕ} {s : JString} {full : List UInt8} {rest : JString}
    (hlen : s.length = 4 * k) (hclean : ∀ c ∈ s, c ≠ '=') (hfull : fullGroups k s = .ok (full, rest)) :
    base64ToByteArray s = .ok full := by
  have hnot (i : ℕ) : ¬(s.length ≠ 0 ∧ s[i]? = some '=') := by
    rintro ⟨-, hget⟩
    exact hclean '=' (List.mem_of_getElem? hget) rfl
  have hdiv : s.length / 4 = k := by omega
  rw [base64ToByteArray, if_neg (by omega), decide_eq_false (hnot _), decide_eq_false (hnot _), hdiv]
  simp only [Bool.false_eq_true, ↓reduceIte, hfull]
  rfl

/-- A padded text is its full groups and the partial group. -/
theorem base64ToByteArray_padded {k : ℕ} {body : JString} {c0 c1 c2 : Char} {full : List UInt8}
    (hlen : body.length = 4 * k)
    (hfull : fullGroups k (body ++ [c0, c1, c2, '=']) = .ok (full, [c0, c1, c2, '='])) :
    base64ToByteArray (body ++ [c0, c1, c2, '='])
      = (partialGroup (1 + (decide (c2 = '=')).toNat) [c0, c1, c2, '=']).map (full ++ ·) := by
  have hsLen : (body ++ [c0, c1, c2, '=']).length = 4 * (k + 1) := by
    rw [List.length_append, hlen]
    rfl
  have hlast : (body ++ [c0, c1, c2, '='])[4 * (k + 1) - 1]? = some '=' := by
    rw [List.getElem?_append_right (by omega), hlen, show 4 * (k + 1) - 1 - 4 * k = 3 by omega]
    rfl
  have hbefore : (body ++ [c0, c1, c2, '='])[4 * (k + 1) - 2]? = some c2 := by
    rw [List.getElem?_append_right (by omega), hlen, show 4 * (k + 1) - 2 - 4 * k = 2 by omega]
    rfl
  have hne : 4 * (k + 1) ≠ 0 := by omega
  have hbeforeLast : decide (4 * (k + 1) ≠ 0 ∧ some c2 = some '=') = decide (c2 = '=') :=
    decide_eq_decide.mpr ⟨fun h => Option.some.inj h.2, fun h => ⟨hne, congrArg some h⟩⟩
  have hmissing : 1 + (decide (c2 = '=')).toNat ≠ 0 := by omega
  have hdiv : 4 * (k + 1) / 4 = k + 1 := by omega
  rw [base64ToByteArray, hsLen, hlast, hbefore, hdiv, if_neg (by omega), decide_eq_true ⟨hne, rfl⟩,
    hbeforeLast]
  simp only [Bool.toNat_true, ↓reduceIte, Nat.add_sub_cancel, hfull, if_pos hmissing]
  show (partialGroup _ [c0, c1, c2, '=']).bind (fun tail => Except.ok (full ++ tail)) = _
  rcases partialGroup (1 + (decide (c2 = '=')).toNat) [c0, c1, c2, '='] with e | tail
  · rfl
  · rfl

/-- What `byteArrayToBase64` writes, `base64ToByteArray` reads back. -/
theorem base64ToByteArray_byteArrayToBase64 (a : List UInt8) :
    base64ToByteArray (byteArrayToBase64 a) = .ok a := by
  obtain ⟨k, full, tail, rfl, hfull, htail⟩ : ∃ k full tail, a = full ++ tail
      ∧ full.length = 3 * k ∧ tail.length < 3 := by
    refine ⟨a.length / 3, a.take (3 * (a.length / 3)), a.drop (3 * (a.length / 3)),
      (List.take_append_drop _ _).symm, ?_, ?_⟩
    · rw [List.length_take]
      omega
    · rw [List.length_drop]
      omega
  obtain ⟨happ, hlen⟩ := byteArrayToBase64_append hfull tail
  have hgroups := fullGroups_encode hfull tail
  have hclean := ne_padding_of_mem hfull
  rcases tail with _ | ⟨byte0, _ | ⟨byte1, _ | ⟨byte2, tail⟩⟩⟩
  · rw [List.append_nil] at hgroups ⊢
    exact base64ToByteArray_unpadded hlen hclean hgroups
  · obtain ⟨ch0, ch1, ch2, ch3, h⟩ := exists_sextets byte0 0 0
    have hwritten1 : (byte0.toNat <<< 4) &&& 0x3f = ch1 := by simpa using h.written1.1
    rw [happ] at hgroups ⊢
    simp only [byteArrayToBase64, h.written0.1, hwritten1] at hgroups ⊢
    rw [base64ToByteArray_padded hlen hgroups, partialGroup, (base64toInt_alpha h.written0.2).1,
      (base64toInt_alpha h.written1.2).1]
    show Except.ok _ = Except.ok _
    rw [h.read0]
  · obtain ⟨ch0, ch1, ch2, ch3, h⟩ := exists_sextets byte0 byte1 0
    have hwritten2 : (byte1.toNat <<< 2) &&& 0x3f = ch2 := by simpa using h.written2.1
    have hne := (base64toInt_alpha h.written2.2).2
    rw [happ] at hgroups ⊢
    simp only [byteArrayToBase64, h.written0.1, h.written1.1, hwritten2] at hgroups ⊢
    rw [base64ToByteArray_padded hlen hgroups, decide_eq_false hne, partialGroup,
      (base64toInt_alpha h.written0.2).1, (base64toInt_alpha h.written1.2).1]
    show Except.map (full ++ ·) ((base64toInt (alpha ch2)).bind fun ch2 => Except.ok
      [_, UInt8.ofNat ((ch1 <<< 4) ||| (ch2 >>> 2))]) = _
    rw [(base64toInt_alpha h.written2.2).1]
    show Except.ok _ = Except.ok _
    rw [h.read0, h.read1]
  · simp only [List.length_cons] at htail
    omega

theorem byteArrayToBase64_injective : Function.Injective byteArrayToBase64 := by
  intro a b h
  have hread := base64ToByteArray_byteArrayToBase64 a
  rw [h, base64ToByteArray_byteArrayToBase64] at hread
  exact (Except.ok.inj hread).symm

end OrgLittle.Util.Base64
