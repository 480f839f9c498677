import OrgLittle.Auth.UserXML
import OrgLittle.Java.Strings

/-!
# HTTP digest authentication

`HttpAuthDigest.authParse` compares the `response` of the header with a digest that it forms from a user list. The
text of the digest is put together also where the list has no such user and where the user has no password: Java
writes `null` for what is missing. `authParse_sound_iff` says which headers are accepted although nobody's password
went into them.
-/

namespace OrgLittle.Http

open OrgLittle.Java OrgLittle.Lib OrgLittle.Auth

/-! ## Responses -/

/-- `HttpResponseStatus`, as far as authentication answers with it. -/
inductive HttpResponseStatus
  | OK
  | UNAUTHORIZED
deriving DecidableEq, Repr

/-- `HttpResponseStatus.toString`. -/
def HttpResponseStatus.toText : HttpResponseStatus → JString
  | .OK => "200 OK".toList
  | .UNAUTHORIZED => "401 Unauthorized".toList

/-- `HttpAuthResponse`. -/
structure HttpAuthResponse where
  status : HttpResponseStatus
  user : Option JString
  bodyMsg : Option JString
  authicationData : Option JString
  authicationHeader : Option JString
deriving DecidableEq, Repr

/-- `isAuth`. -/
def HttpAuthResponse.isAuth (response : HttpAuthResponse) : Bool := response.user.isSome

/-- `HttpAuth.getBody`. -/
def getBody (type realm : JString) (status : HttpResponseStatus) : JString :=
  "<!DOCTYPE HTML \"-//IETF//DTD HTML 2.0//EN\">\n".toList
    ++ "<html><head>\n".toList
    ++ "<title>Authentication Required</title>\n".toList
    ++ "</head><body>\n".toList
    ++ "<h1>".toList ++ type ++ " authentication Required</h1>\n".toList
    ++ "<p>This server could not verify that you\n".toList
    ++ "are authorized to access the document\n".toList
    ++ "requested.  Either you supplied the wrong\n".toList
    ++ "credentials (e.g., bad password), or your\n".toList
    ++ "browser doesn't understand how to supply\n".toList
    ++ "the credentials required.</p>\n ".toList ++ realm ++ " :".toList ++ status.toText
    ++ "</body></html>\n".toList

/-! ## `HttpAuthDigest` -/

/-- `stringTransform.isEmpty`. -/
def isEmpty (cs : Option JString) : Bool := (cs.getD []).all isWhitespace

namespace HttpAuthDigest

/-- `DIGEST_REALM`. -/
def DIGEST_REALM : JString := "FESBLoginService".toList

/-- `values.put`, for a `HashMap` as the function of its keys. -/
def put (values : JString → Option JString) (key value : JString) : JString → Option JString :=
  Function.update values key (some value)

/-- One round of the loop of `parseHeader`. -/
def putKeyval (values : JString → Option JString) (keyval : JString) : JString → Option JString :=
  match indexOf '=' keyval with
  | none => values
  | some i => put values (trim (keyval.take i)) (trim ((keyval.drop (i + 1)).filter (· ≠ '"')))

/-- `parseHeader`. -/
def parseHeader (headerString : JString) : JString → Option JString :=
  let start := match indexOf ' ' headerString with
    | none => 0
    | some i => i + 1
  (split [','] (trim (headerString.drop start))).foldl putKeyval fun _ => none

section

variable (md5 : JString → JString)

/-- The digest of the request: its method and its address, for `auth-int` also an empty body. -/
def requestDigest (request_method : JString) (qop reqURI : Option JString) : JString :=
  if !isEmpty qop && qop = some "auth-int".toList then
    md5 (request_method ++ ":".toList ++ textOf reqURI ++ ":".toList ++ md5 [])
  else md5 (request_method ++ ":".toList ++ textOf reqURI)

/-- `pre_serverResponse`. -/
def preServerResponse (headerValues : JString → Option JString) (request_method : JString) : JString :=
  let qop := headerValues "qop".toList
  let nonce := headerValues "nonce".toList
  let ha2 := requestDigest md5 request_method qop (headerValues "uri".toList)
  if isEmpty qop then ":".toList ++ textOf nonce ++ ":".toList ++ ha2
  else
    ":".toList ++ textOf nonce ++ ":".toList ++ textOf (headerValues "nc".toList) ++ ":".toList
      ++ textOf (headerValues "cnonce".toList) ++ ":".toList ++ textOf qop ++ ":".toList ++ ha2

/-- `getOpaque`. -/
def getOpaque (domain : JString) (nonce : Option JString) : JString := md5 (domain ++ textOf nonce)

/-- The response that asks for a login. -/
def unauthorized (nonce : Option JString) : HttpAuthResponse where
  status := .UNAUTHORIZED
  user := none
  bodyMsg := some (getBody "Digest".toList DIGEST_REALM .UNAUTHORIZED)
  authicationData := some
    ("Digest realm=".toList ++ DIGEST_REALM ++ ", qop=auth, nonce=".toList ++ textOf nonce ++ ", opaque=".toList
      ++ getOpaque md5 DIGEST_REALM nonce ++ ", algoritm=\"MD5\", state=\"FALSE\"".toList)
  authicationHeader := some "WWW-Authenticate".toList

/-- `authParse`; `calculateNonce` gives `newNonce`. -/
def authParse (newNonce : JString) (user_list : AuthUserXML) (str_auth : Option JString)
    (request_method : JString) : HttpAuthResponse :=
  if isEmpty str_auth then unauthorized md5 (some newNonce)
  else
    let headerValues := parseHeader (str_auth.getD [])
    let username := headerValues "username".toList
    let clientResponse := headerValues "response".toList
    let ha1 := user_list.getDigestUser md5 username DIGEST_REALM
    let ha2 := md5 (textOf ha1 ++ preServerResponse md5 headerValues request_method)
    if some ha2 = clientResponse then
      { status := .OK, user := username, bodyMsg := some [], authicationData := some [], authicationHeader := none }
    else unauthorized md5 (headerValues "nonce".toList)

end

variable {md5 : JString → JString} {newNonce : JString} {users : AuthUserXML} {header : Option JString}
  {method : JString}

/-- A header is accepted exactly for the digest that goes over what `getDigestUser` answers. -/
theorem authParse_ok_iff : (authParse md5 newNonce users header method).status = .OK ↔
    isEmpty header = false ∧ parseHeader (header.getD []) "response".toList
      = some (md5 (textOf (users.getDigestUser md5 (parseHeader (header.getD []) "username".toList) DIGEST_REALM)
        ++ preServerResponse md5 (parseHeader (header.getD [])) method)) := by
  rw [authParse]
  split_ifs with hempty
  · simp [unauthorized, hempty]
  · dsimp only
    split_ifs with heq
    · exact iff_of_true rfl ⟨by simpa using hempty, heq.symm⟩
    · exact iff_of_false (by simp [unauthorized]) fun h => heq h.2.symm

/-! ## Which headers are accepted -/

/-- An entry of the list has this name and this password. -/
def Own (users : AuthUserXML) (user passwd : JString) : Prop :=
  ∃ n ∈ users.ulist.getD [], isEntry n = true ∧ user ∈ texts "name" n.children
    ∧ passwd ∈ texts "password" n.children

/-- An accepted header has the name of a user, and its response is the digest over a password of this user. -/
def Sound (md5 : JString → JString) (newNonce : JString) (users : AuthUserXML) (header : Option JString)
    (method : JString) : Prop :=
  (authParse md5 newNonce users header method).status = .OK →
    ∃ user passwd, parseHeader (header.getD []) "username".toList = some user ∧ Own users user passwd
      ∧ parseHeader (header.getD []) "response".toList
        = some (md5 (md5 (AuthUserXML.a1 user DIGEST_REALM passwd)
          ++ preServerResponse md5 (parseHeader (header.getD [])) method))

/-- What stands in a digest for a user name without a password of this user: the text `null` where the list has no
such name, and the digest of `null` or of another entry's password where the first password behind the name is not
the user's own. -/
inductive Forgery (md5 : JString → JString) (users : AuthUserXML) : Option JString → JString → Prop
  | unknown {username : Option JString} (hunknown : ∀ user, username = some user → user ∉ names (users.ulist.getD [])) :
    Forgery md5 users username "null".toList
  | noPassword {user passwd : JString} (huser : user ∈ names (users.ulist.getD []))
    (hfirst : FirstBehind (users.ulist.getD []) user passwd) (hown : ¬ Own users user passwd) :
    Forgery md5 users (some user) (md5 (AuthUserXML.a1 user DIGEST_REALM passwd))

theorem mem_names_of_own {user passwd : JString} (h : Own users user passwd) :
    user ∈ names (users.ulist.getD []) := by
  obtain ⟨n, hn, hp, hu, -⟩ := h
  exact List.mem_flatMap.mpr ⟨n, List.mem_filter.mpr ⟨hn, hp⟩, hu⟩

/-- The text of `getDigestUser`, for a user of the list. -/
theorem getDigestUser_of_mem {user passwd realm : JString} (huser : user ∈ names (users.ulist.getD []))
    (hfirst : FirstBehind (users.ulist.getD []) user passwd) :
    users.getDigestUser md5 (some user) realm = some (md5 (AuthUserXML.a1 user realm passwd)) := by
  obtain ⟨_ | ulist⟩ := users
  · cases huser
  · rw [Option.getD_some] at huser hfirst
    rw [AuthUserXML.getDigestUser, if_pos (isUser_iff.mpr huser), textOf_getPswd_iff.mpr hfirst]
    rfl

theorem getDigestUser_of_unknown {username : Option JString} {realm : JString}
    (hunknown : ∀ user, username = some user → user ∉ names (users.ulist.getD [])) :
    users.getDigestUser md5 username realm = none := by
  rw [AuthUserXML.getDigestUser, if_neg]
  obtain ⟨_ | ulist⟩ := users
  · cases username <;> exact Bool.false_ne_true
  · cases username with
    | none => exact Bool.false_ne_true
    | some user => exact fun h => hunknown user rfl (isUser_iff.mp h)

/-- What stands in the digest for this user name is what the server forms. -/
theorem Forgery.textOf_getDigestUser {username : Option JString} {ha1 : JString}
    (h : Forgery md5 users username ha1) :
    textOf (users.getDigestUser md5 username DIGEST_REALM) = ha1 := by
  cases h with
  | unknown hunknown => rw [getDigestUser_of_unknown hunknown]; rfl
  | noPassword huser hfirst hown => rw [getDigestUser_of_mem huser hfirst]; rfl

/-- No password of the user goes into it. -/
theorem Forgery.ne_of_own (hmd5 : Function.Injective md5) {user passwd ha1 : JString}
    (h : Forgery md5 users (some user) ha1) (hown : Own users user passwd) :
    ha1 ≠ md5 (AuthUserXML.a1 user DIGEST_REALM passwd) := by
  cases h with
  | unknown hunknown => exact absurd (mem_names_of_own hown) (hunknown user rfl)
  | noPassword huser hfirst hnot =>
    intro heq
    rw [a1_injective user DIGEST_REALM (hmd5 heq)] at hnot
    exact hnot hown

/-- The server forms the digest over a password of the user, or one that stands without a password. -/
theorem own_or_forgery (md5 : JString → JString) (users : AuthUserXML) (username : Option JString) :
    (∃ user passwd, username = some user ∧ Own users user passwd
        ∧ users.getDigestUser md5 username DIGEST_REALM = some (md5 (AuthUserXML.a1 user DIGEST_REALM passwd)))
      ∨ ∃ ha1, Forgery md5 users username ha1 := by
  by_cases hunknown : ∀ user, username = some user → user ∉ names (users.ulist.getD [])
  · exact .inr ⟨_, .unknown hunknown⟩
  · simp only [not_forall, not_not] at hunknown
    obtain ⟨user, rfl, huser⟩ := hunknown
    have hfirst : FirstBehind (users.ulist.getD []) user _ := textOf_getPswd_iff.mp rfl
    by_cases hown : Own users user (textOf (AuthUserXML.getPswd ⟨some (users.ulist.getD [])⟩ (some user)))
    · exact .inl ⟨user, _, rfl, hown, getDigestUser_of_mem huser hfirst⟩
    · exact .inr ⟨_, .noPassword huser hfirst hown⟩

/-- Exactly the headers whose response is a digest without a password are accepted wrongly. -/
theorem authParse_sound_iff (md5 : JString → JString) (hmd5 : Function.Injective md5) (newNonce : JString)
    (users : AuthUserXML) (header : Option JString) (method : JString) :
    Sound md5 newNonce users header method ↔ isEmpty header = true
      ∨ ∀ ha1, Forgery md5 users (parseHeader (header.getD []) "username".toList) ha1 →
        parseHeader (header.getD []) "response".toList
          ≠ some (md5 (ha1 ++ preServerResponse md5 (parseHeader (header.getD [])) method)) := by
  rw [Sound, authParse_ok_iff]
  constructor
  · intro hsound
    by_cases hempty : isEmpty header = true
    · exact .inl hempty
    · refine .inr fun ha1 hforgery hresponse => ?_
      obtain ⟨user, passwd, husername, hown, hresponse'⟩ :=
        hsound ⟨by simpa using hempty, by rw [hforgery.textOf_getDigestUser, hresponse]⟩
      rw [husername] at hforgery
      have hdigest := hmd5 (Option.some_inj.mp (hresponse.symm.trans hresponse'))
      exact hforgery.ne_of_own hmd5 hown (List.append_cancel_right hdigest)
  · rintro hcond ⟨hempty, hresponse⟩
    rcases own_or_forgery md5 users (parseHeader (header.getD []) "username".toList) with
      ⟨user, passwd, husername, hown, hdigest⟩ | ⟨ha1, hforgery⟩
    · rw [hdigest] at hresponse
      exact ⟨user, passwd, husername, hown, hresponse⟩
    · rw [hforgery.textOf_getDigestUser] at hresponse
      exact absurd hresponse (hcond.resolve_left (by simp [hempty]) ha1 hforgery)

/-- Some digests of MD5, in an injective function. -/
def sampleMd5 : Equiv.Perm JString :=
  Equiv.swap "GET:/".toList "71998c64aea37ae77020c49c00f73fa8".toList
    * Equiv.swap "bob:FESBLoginService:secret".toList "6c9fbe6eaf58a7ec21419f484c4c4d54".toList
    * Equiv.swap "6c9fbe6eaf58a7ec21419f484c4c4d54:n:71998c64aea37ae77020c49c00f73fa8".toList
      "0a4ba41054c214ebf945d18d5ef036d8".toList
    * Equiv.swap "null:n:71998c64aea37ae77020c49c00f73fa8".toList "9247d03f175d488d45a9b304dee47b60".toList

/-- A list with one user. -/
def sampleUsers : AuthUserXML := .ofNode (some (.element "user".toList [
  .element "p".toList [.element "name".toList [.text "bob".toList],
    .element "password".toList [.text "secret".toList]]]))

/-- The right password of the user is accepted, and nothing is wrong with that. -/
theorem authParse_sound_bob :
    (authParse sampleMd5 [] sampleUsers (some
      "Digest username=\"bob\", nonce=\"n\", uri=\"/\", response=\"0a4ba41054c214ebf945d18d5ef036d8\"".toList)
      "GET".toList).status = .OK
    ∧ Sound sampleMd5 [] sampleUsers (some
      "Digest username=\"bob\", nonce=\"n\", uri=\"/\", response=\"0a4ba41054c214ebf945d18d5ef036d8\"".toList)
      "GET".toList := by
  refine ⟨by decide, (authParse_sound_iff sampleMd5 sampleMd5.injective _ _ _ _).mpr (.inr ?_)⟩
  intro ha1 hforgery
  have husername : parseHeader
      "Digest username=\"bob\", nonce=\"n\", uri=\"/\", response=\"0a4ba41054c214ebf945d18d5ef036d8\"".toList
      "username".toList = some "bob".toList := by decide
  rw [Option.getD_some, husername] at hforgery
  have hdigest := hforgery.textOf_getDigestUser
  have hown : Own sampleUsers "bob".toList "secret".toList :=
    ⟨_, List.mem_cons_self, rfl, List.mem_cons_self, List.mem_cons_self⟩
  exact absurd (hdigest.symm.trans (by decide)) (hforgery.ne_of_own sampleMd5.injective hown)

/-- A name that no user has is accepted with the digest of the text `null`. -/
theorem not_sound_unknown : ¬ Sound sampleMd5 [] sampleUsers (some
    "Digest username=\"mallory\", nonce=\"n\", uri=\"/\", response=\"9247d03f175d488d45a9b304dee47b60\"".toList)
    "GET".toList := by
  intro h
  obtain ⟨user, passwd, husername, hown, -⟩ := h (by decide)
  have hmallory : some user = some "mallory".toList := husername.symm.trans (by decide)
  rw [Option.some_inj.mp hmallory] at hown
  exact absurd (mem_names_of_own hown) (by decide)

end HttpAuthDigest

end OrgLittle.Http
