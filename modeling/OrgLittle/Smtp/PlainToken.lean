import OrgLittle.Smtp.AuthRecovery

/-!
# The token of `AUTH PLAIN`

`setPlain` looks for two NUL bytes in the decoded token; both of its scans use zero for "not found". The bytes between
the two are the name and the bytes behind them the password. `setPlainChecked` is the function with the checks that
`new String(bytes, offset, length)` makes, none of which ever fails (`setPlainChecked_eq`).
-/

namespace OrgLittle.Smtp

open OrgLittle.Java OrgLittle.Util

/-- `new String(bytes, offset, length)`. -/
def newString (charset : Charset) (bytes : List UInt8) (offset length : ℤ) : Except JavaException JString :=
  if offset < 0 ∨ length < 0 ∨ offset > bytes.length - length then .error .indexOutOfBounds
  else .ok (charset.decode ((bytes.drop offset.toNat).take length.toNat))

namespace SmtpAuthTransaction

/-- `setPlain` on the decoded token. -/
def setPlainChecked (charset : Charset) (auth : SmtpAuthTransaction) (b_plain : List UInt8) :
    Except JavaException SmtpAuthTransaction := do
  let n_1 := indexOfNul b_plain 0
  let n_2 := indexOfNul b_plain (n_1 + 1)
  if n_2 = 0 then return auth
  if (n_2 : ℤ) = (b_plain.length : ℤ) - 1 then return auth
  let username ← newString charset b_plain (n_1 + 1) ((n_2 : ℤ) - n_1 - 1)
  let password ← newString charset b_plain (n_2 + 1) ((b_plain.length : ℤ) - n_2 - 1)
  return { auth with username := some username, password := some password }

end SmtpAuthTransaction

open SmtpAuthTransaction

/-! ## The checks -/

theorem newString_ok (charset : Charset) {bytes : List UInt8} {offset length : ℕ}
    (h : offset + length ≤ bytes.length) :
    newString charset bytes offset length = .ok (charset.decode ((bytes.drop offset).take length)) := by
  rw [newString, if_neg (by omega)]
  rfl

/-- A NUL byte that is found lies in the token, at or behind the start of the scan. -/
theorem indexOfNul_bounds {bytes : List UInt8} {start : ℕ} (h : indexOfNul bytes start ≠ 0) :
    start ≤ indexOfNul bytes start ∧ indexOfNul bytes start < bytes.length := by
  cases hfind : (bytes.drop start).findIdx? (· = 0) with
  | none =>
    rw [indexOfNul, hfind] at h
    exact absurd rfl h
  | some i =>
    have hlt := (List.findIdx?_eq_some_iff_getElem.mp hfind).1
    rw [List.length_drop] at hlt
    rw [show indexOfNul bytes start = start + i by rw [indexOfNul, hfind]]
    exact ⟨by omega, by omega⟩

/-- No call of `setPlain` raises an exception. -/
theorem setPlainChecked_eq (charset : Charset) (auth : SmtpAuthTransaction) (token : List UInt8) :
    auth.setPlainChecked charset token = .ok (auth.setPlainBytes charset token) := by
  rw [setPlainChecked, setPlainBytes]
  generalize indexOfNul token 0 = n_1
  by_cases hnone : indexOfNul token (n_1 + 1) = 0
  · simp only [hnone, if_true]
    rfl
  · obtain ⟨hstart, hend⟩ := indexOfNul_bounds hnone
    generalize indexOfNul token (n_1 + 1) = n_2 at hnone hstart hend
    by_cases hlast : n_2 = token.length - 1
    · simp only [if_neg hnone, if_pos hlast, if_pos (show (n_2 : ℤ) = (token.length : ℤ) - 1 by omega)]
      rfl
    · have huser := newString_ok charset (show n_1 + 1 + (n_2 - n_1 - 1) ≤ token.length by omega)
      have hpasswd := newString_ok charset (show n_2 + 1 + (token.length - n_2 - 1) ≤ token.length by omega)
      rw [Nat.cast_add, Nat.cast_one, show ((n_2 - n_1 - 1 : ℕ) : ℤ) = (n_2 : ℤ) - n_1 - 1 by omega] at huser
      rw [Nat.cast_add, Nat.cast_one, show ((token.length - n_2 - 1 : ℕ) : ℤ) = (token.length : ℤ) - n_2 - 1 by omega,
        List.take_of_length_le (by rw [List.length_drop]; omega)] at hpasswd
      simp only [if_neg hnone, if_neg hlast, if_neg (show ¬ (n_2 : ℤ) = (token.length : ℤ) - 1 by omega), huser,
        hpasswd]
      rfl

/-! ## What is set -/

/-- The token has two NUL bytes and something behind them; `user` and `passwd` are the bytes between the first two and
all the bytes behind. -/
structure IsPlain (token user passwd : List UInt8) : Prop where
  split : ∃ authzid, 0 ∉ authzid ∧ token = authzid ++ 0 :: (user ++ 0 :: passwd)
  user : 0 ∉ user
  passwd : passwd ≠ []

theorem indexOfNul_of_notMem {bytes : List UInt8} {start : ℕ} (h : 0 ∉ bytes.drop start) :
    indexOfNul bytes start = 0 := by
  have hnone : (bytes.drop start).findIdx? (· = 0) = none :=
    List.findIdx?_eq_none_iff.mpr fun b hb => decide_eq_false fun hzero => h (hzero ▸ hb)
  rw [indexOfNul, hnone]

/-- Any other token leaves the transaction as it is. -/
theorem setPlainBytes_of_not (charset : Charset) (auth : SmtpAuthTransaction) {token : List UInt8}
    (h : ∀ user passwd, ¬ IsPlain token user passwd) : auth.setPlainBytes charset token = auth := by
  by_cases hfirst : 0 ∈ token
  · obtain ⟨authzid, rest, rfl, hauthzid⟩ := List.eq_append_cons_of_mem hfirst
    have hn1 := indexOfNul_append hauthzid [] rest
    rw [List.nil_append, List.length_nil, Nat.zero_add] at hn1
    have hdrop : (authzid ++ 0 :: rest).drop (authzid.length + 1) = rest := by
      rw [List.drop_append, List.drop_eq_nil_of_le (by omega), Nat.add_sub_cancel_left]
      rfl
    by_cases hsecond : 0 ∈ rest
    · obtain ⟨user, passwd, rfl, huser⟩ := List.eq_append_cons_of_mem hsecond
      -- The second NUL is the last byte, or the token would be a good one.
      obtain rfl : passwd = [] := by
        by_contra hne
        exact h user passwd ⟨⟨authzid, hauthzid, rfl⟩, huser, hne⟩
      have hn2 := indexOfNul_append huser (authzid ++ [0]) []
      simp only [List.append_assoc, List.singleton_append, List.length_append, List.length_singleton] at hn2
      have hlast : authzid.length + 1 + user.length = (authzid ++ 0 :: (user ++ [0])).length - 1 := by
        simp only [List.length_append, List.length_cons, List.length_nil]
        omega
      simp only [setPlainBytes, hn1, hn2, if_pos hlast, ite_self]
    · have hn2 : indexOfNul (authzid ++ 0 :: rest) (authzid.length + 1) = 0 :=
        indexOfNul_of_notMem (hdrop.symm ▸ hsecond)
      simp only [setPlainBytes, hn1, hn2, if_true]
  · have hn1 : indexOfNul token 0 = 0 := indexOfNul_of_notMem hfirst
    have hn2 : indexOfNul token (0 + 1) = 0 := indexOfNul_of_notMem fun hmem => hfirst (List.mem_of_mem_drop hmem)
    simp only [setPlainBytes, hn1, hn2, if_true]

/-- `setPlain` sets the name and the password of a good token, and without an exception nothing for any other one, so
that a new transaction is not authenticated then. -/
theorem setPlainChecked_correct (charset : Charset) (token : List UInt8) :
    (∀ user passwd, IsPlain token user passwd → ∀ auth : SmtpAuthTransaction,
      auth.setPlainChecked charset token
        = .ok { auth with
            username := some (charset.decode user)
            password := some (charset.decode passwd) })
    ∧ ((∀ user passwd, ¬ IsPlain token user passwd) →
      (∀ auth : SmtpAuthTransaction, auth.setPlainChecked charset token = .ok auth)
        ∧ ∀ (cfg : CommonSMTP) (env : Env), ∃ auth, (new false).setPlainChecked charset token = .ok auth
          ∧ (auth.checkUser cfg env).isAuth = false) := by
  constructor
  · rintro user passwd ⟨⟨authzid, hauthzid, rfl⟩, huser, hpasswd⟩ auth
    rw [setPlainChecked_eq, setPlainBytes_append charset auth hauthzid huser hpasswd]
  · intro h
    have hkept (auth : SmtpAuthTransaction) : auth.setPlainChecked charset token = .ok auth := by
      rw [setPlainChecked_eq, setPlainBytes_of_not charset auth h]
    exact ⟨hkept, fun cfg env => ⟨new false, hkept _, rfl⟩⟩

end OrgLittle.Smtp
