import OrgLittle.Java.Text
import OrgLittle.Lib.Xml

/-!
# `authUserXML`: users in an XML file

The users are the `p` elements of a `user` node, with a name and a password each. Three loops read them.
`checkUser` stops at the first entry without a name or without a password, and `getPswd` sees only passwords that stand
behind the name of their entry. `load` forgets the list as soon as it has read it. `agrees_iff` says for
which lists the password check and the digest still tell the same.
-/

namespace OrgLittle.Auth

open OrgLittle.Java OrgLittle.Lib

/-! ## `authUserXML` -/

/-- `authUserXML`, by its list `ulist`. -/
structure AuthUserXML where
  ulist : Option (List Xml.Node)

/-- A reference in a concatenation of texts. -/
def textOf (s : Option JString) : JString := s.getD "null".toList

/-- The texts of the children with this name. -/
def texts (name : String) (nodes : List Xml.Node) : List JString :=
  (nodes.filter fun n => n.name = name.toList).map Xml.Node.textContent

/-- The test for `p`. -/
def isEntry (n : Xml.Node) : Bool := n.name = "p".toList

namespace AuthUserXML

/-- `init`. -/
def init (node_cfg : Option Xml.Node) (users : AuthUserXML) : AuthUserXML :=
  match node_cfg with
  | none => users
  | some node => if node.name = "user".toList then ⟨some node.children⟩ else ⟨none⟩

/-- `new authUserXML(domain, node_cfg)`. -/
def ofNode (node_cfg : Option Xml.Node) : AuthUserXML := init node_cfg ⟨none⟩

/-- `load`, where `parse` reads the nodes of a document from a file. `doc` is always `null` at its start. -/
def load (parse : JString → Option (List Xml.Node)) (cfg_filename : Option JString) (users : AuthUserXML) :
    AuthUserXML :=
  match cfg_filename with
  | none => users
  | some cfg_filename =>
    if cfg_filename = [] ∨ startsWith cfg_filename [' '] then users
    else
      match parse cfg_filename with
      | none => ⟨none⟩
      | some doc =>
        let users := init doc.head? users
        { users with ulist := none }

/-- `new authUserXML(cfg_auth)`. -/
def ofFile (parse : JString → Option (List Xml.Node)) (cfg_filename : Option JString) : AuthUserXML :=
  load parse cfg_filename ⟨none⟩

/-- `isUser`. -/
def isUser (users : AuthUserXML) (user : Option JString) : Bool :=
  match user, users.ulist with
  | some user, some ulist =>
    ulist.any fun n =>
      isEntry n && n.children.any fun nn => nn.name = "name".toList && nn.textContent = user
  | _, _ => false

/-- The outer loop of `checkUser`; the inner one keeps the last name and the last password. -/
def checkEntries (user passwd : JString) : List Xml.Node → Bool
  | [] => false
  | n :: ulist =>
    if isEntry n then
      match (texts "name" n.children).getLast?, (texts "password" n.children).getLast? with
      | some u, some p => if user = u ∧ passwd = p then true else checkEntries user passwd ulist
      | _, _ => false
    else checkEntries user passwd ulist

/-- `checkUser`. -/
def checkUser (users : AuthUserXML) (user passwd : Option JString) : Bool :=
  match user, passwd, users.ulist with
  | some user, some passwd, some ulist => checkEntries user passwd ulist
  | _, _, _ => false

/-- The inner loop of `getPswd`. -/
def pswdIn (user : JString) : JString → List Xml.Node → Option JString
  | _, [] => none
  | u, nn :: nl =>
    let u := if nn.name = "name".toList then nn.textContent else u
    if user = u ∧ nn.name = "password".toList then some nn.textContent else pswdIn user u nl

/-- `getPswd`; it is called where there is a list. -/
def getPswd (users : AuthUserXML) (user : Option JString) : Option JString :=
  match user, users.ulist with
  | some user, some ulist =>
    ulist.findSome? fun n => if isEntry n then pswdIn user [] n.children else none
  | _, _ => none

/-- The text whose digest is the first one of HTTP digest authentication. -/
def a1 (user realm password : JString) : JString := user ++ ':' :: (realm ++ ':' :: password)

/-- `getDigestUser`. -/
def getDigestUser (md5 : JString → JString) (users : AuthUserXML) (user : Option JString) (realm : JString) :
    Option JString :=
  if users.isUser user then some (md5 (a1 (textOf user) realm (textOf (users.getPswd user)))) else none

end AuthUserXML

/-- What is hashed tells the password. -/
theorem a1_injective (user realm : JString) : Function.Injective (AuthUserXML.a1 user realm) := by
  intro p q h
  exact (List.cons.inj (List.append_cancel_left (List.cons.inj (List.append_cancel_left h)).2)).2

/-! ## What the list says -/

/-- The entry has this name and this password. -/
def IsEntry (n : Xml.Node) (user passwd : JString) : Prop :=
  isEntry n = true ∧ (texts "name" n.children).getLast? = some user
    ∧ (texts "password" n.children).getLast? = some passwd

/-- The name and the password of a complete entry. -/
def entry (n : Xml.Node) : Option (JString × JString) :=
  match (texts "name" n.children).getLast?, (texts "password" n.children).getLast? with
  | some u, some p => some (u, p)
  | _, _ => none

/-- All names in the list. -/
def names (ulist : List Xml.Node) : List JString :=
  (ulist.filter isEntry).flatMap fun n => texts "name" n.children

/-- The complete entries in front of the first incomplete one. -/
def reached (ulist : List Xml.Node) : List (JString × JString) :=
  (((ulist.filter isEntry).map entry).takeWhile Option.isSome).filterMap id

/-- The passwords of an entry, each with the name that stands last before it. -/
def passwordsFrom : JString → List Xml.Node → List (JString × JString)
  | _, [] => []
  | u, n :: nodes =>
    if n.name = "name".toList then passwordsFrom n.textContent nodes
    else if n.name = "password".toList then (u, n.textContent) :: passwordsFrom u nodes
    else passwordsFrom u nodes

/-- The passwords of all entries. -/
def passwords (ulist : List Xml.Node) : List (JString × JString) :=
  (ulist.filter isEntry).flatMap fun n => passwordsFrom [] n.children

/-- This is the first password of the list that stands behind the name. A password in front of all names of its
entry stands behind the empty name, and where no password stands behind the name it is the text `null`. -/
def FirstBehind (ulist : List Xml.Node) (user passwd : JString) : Prop :=
  (∃ pre post, passwords ulist = pre ++ (user, passwd) :: post ∧ ∀ e ∈ pre, e.1 ≠ user)
    ∨ (∀ e ∈ passwords ulist, e.1 ≠ user) ∧ passwd = "null".toList

/-- The name and the password of an entry are its last ones. -/
theorem entry_eq_some {n : Xml.Node} {e : JString × JString} :
    entry n = some e ↔ (texts "name" n.children).getLast? = some e.1
      ∧ (texts "password" n.children).getLast? = some e.2 := by
  rw [entry]
  split
  · next u p hu hp => simp [hu, hp, Prod.ext_iff]
  · next hnone => exact iff_of_false nofun fun h => hnone _ _ h.1 h.2

/-- An entry with this name and this password. -/
theorem isEntry_iff {n : Xml.Node} {user passwd : JString} :
    IsEntry n user passwd ↔ isEntry n = true ∧ entry n = some (user, passwd) := by
  rw [IsEntry, entry_eq_some]

section reached

variable {n : Xml.Node} {ulist : List Xml.Node}

/-- Other nodes are passed over. -/
theorem reached_skip (hn : isEntry n = false) : reached (n :: ulist) = reached ulist := by
  rw [reached, reached, List.filter_cons_of_neg (by simp [hn])]

/-- A complete entry is reached, and what is behind it. -/
theorem reached_some (hn : isEntry n = true) {e : JString × JString} (he : entry n = some e) :
    reached (n :: ulist) = e :: reached ulist := by
  rw [reached, reached, List.filter_cons_of_pos hn, List.map_cons, he, List.takeWhile_cons_of_pos rfl]
  rfl

/-- At an incomplete entry the loop stops. -/
theorem reached_none (hn : isEntry n = true) (he : entry n = none) : reached (n :: ulist) = [] := by
  rw [reached, List.filter_cons_of_pos hn, List.map_cons, he, List.takeWhile_cons_of_neg (by simp),
    List.filterMap_nil]

/-- A user is accepted if and only if an entry that is reached has the name and the password. -/
theorem checkEntries_iff {user passwd : JString} (ulist : List Xml.Node) :
    AuthUserXML.checkEntries user passwd ulist = true ↔ (user, passwd) ∈ reached ulist := by
  induction ulist with
  | nil => simp [AuthUserXML.checkEntries, reached]
  | cons n ulist ih =>
    rw [AuthUserXML.checkEntries]
    split_ifs with hn
    · cases hentry : entry n with
      | none =>
        rw [reached_none hn hentry]
        split
        · next u p hu hp => exact absurd (entry_eq_some (e := (u, p)).mpr ⟨hu, hp⟩) (by simp [hentry])
        · simp
      | some e =>
        obtain ⟨hu, hp⟩ := entry_eq_some.mp hentry
        rw [reached_some hn hentry, List.mem_cons, hu, hp]
        dsimp only
        split_ifs with heq
        · simp [heq.1, heq.2]
        · rw [ih]
          exact ⟨.inr, fun h => h.resolve_left fun h => heq ⟨congrArg Prod.fst h, congrArg Prod.snd h⟩⟩
    · rw [ih, reached_skip (by simpa using hn)]

/-- The entries that `checkUser` reaches are complete entries of the list. -/
theorem exists_of_mem_reached {e : JString × JString} (h : e ∈ reached ulist) :
    ∃ n ∈ ulist, IsEntry n e.1 e.2 := by
  rw [reached, List.mem_filterMap] at h
  obtain ⟨a, ha, rfl⟩ := h
  obtain ⟨n, hn, hentry⟩ := List.mem_map.mp (List.takeWhile_subset _ ha)
  obtain ⟨hmem, hp⟩ := List.mem_filter.mp hn
  exact ⟨n, hmem, isEntry_iff.mpr ⟨hp, hentry⟩⟩

end reached

/-! ## Names and passwords -/

theorem mem_texts {name : String} {nodes : List Xml.Node} {s : JString} :
    s ∈ texts name nodes ↔ ∃ n ∈ nodes, n.name = name.toList ∧ n.textContent = s := by
  simp [texts, and_assoc]

/-- A user is known if an entry has the name. -/
theorem isUser_iff {user : JString} {ulist : List Xml.Node} :
    AuthUserXML.isUser ⟨some ulist⟩ (some user) = true ↔ user ∈ names ulist := by
  simp [AuthUserXML.isUser, names, mem_texts, and_assoc]

/-- A name holds for the passwords behind it. -/
theorem passwordsFrom_name {u : JString} {n : Xml.Node} {nodes : List Xml.Node}
    (hn : n.name = "name".toList) : passwordsFrom u (n :: nodes) = passwordsFrom n.textContent nodes := by
  rw [passwordsFrom, if_pos hn]

/-- A password belongs to the name in front of it. -/
theorem passwordsFrom_password {u : JString} {n : Xml.Node} {nodes : List Xml.Node}
    (hn : n.name = "password".toList) :
    passwordsFrom u (n :: nodes) = (u, n.textContent) :: passwordsFrom u nodes := by
  rw [passwordsFrom, if_neg (by rw [hn]; decide), if_pos hn]

/-- The password of a user in an entry is the first behind the name. -/
theorem pswdIn_eq {user : JString} (u : JString) (nodes : List Xml.Node) :
    AuthUserXML.pswdIn user u nodes = ((passwordsFrom u nodes).find? fun e => e.1 = user).map Prod.snd := by
  induction nodes generalizing u with
  | nil => rfl
  | cons n nodes ih =>
    rw [AuthUserXML.pswdIn]
    by_cases hname : n.name = "name".toList
    · have hpass : n.name ≠ "password".toList := by rw [hname]; decide
      rw [passwordsFrom_name hname, if_pos hname, if_neg fun h => hpass h.2, ih]
    · rw [if_neg hname]
      by_cases hpass : n.name = "password".toList
      · rw [passwordsFrom_password hpass]
        by_cases huser : u = user
        · rw [if_pos ⟨huser.symm, hpass⟩, List.find?_cons_of_pos (by simpa using huser), Option.map_some]
        · rw [if_neg fun h => huser h.1.symm, List.find?_cons_of_neg (by simpa using huser), ih]
      · rw [if_neg fun h => hpass h.2, passwordsFrom, if_neg hname, if_neg hpass, ih]

/-- The passwords of an entry, and of those behind it. -/
theorem passwords_entry {n : Xml.Node} {ulist : List Xml.Node} (hn : isEntry n = true) :
    passwords (n :: ulist) = passwordsFrom [] n.children ++ passwords ulist := by
  rw [passwords, List.filter_cons_of_pos hn, List.flatMap_cons]
  rfl

/-- Other nodes have none. -/
theorem passwords_skip {n : Xml.Node} {ulist : List Xml.Node} (hn : isEntry n = false) :
    passwords (n :: ulist) = passwords ulist := by
  rw [passwords, List.filter_cons_of_neg (by simp [hn])]
  rfl

/-- The password of a user is the first of all. -/
theorem getPswd_eq {user : JString} (ulist : List Xml.Node) :
    AuthUserXML.getPswd ⟨some ulist⟩ (some user)
      = ((passwords ulist).find? fun e => e.1 = user).map Prod.snd := by
  induction ulist with
  | nil => rfl
  | cons n ulist ih =>
    have hcons : AuthUserXML.getPswd ⟨some (n :: ulist)⟩ (some user)
        = (if isEntry n then AuthUserXML.pswdIn user [] n.children else none).or
          (AuthUserXML.getPswd ⟨some ulist⟩ (some user)) := by
      simp only [AuthUserXML.getPswd, List.findSome?_cons]
      split <;> simp [*]
    rw [hcons, ih]
    cases hn : isEntry n with
    | true => rw [if_pos rfl, pswdIn_eq, passwords_entry hn, List.find?_append, Option.map_or]
    | false => rw [passwords_skip hn, if_neg (by simp), Option.none_or]

/-- `getPswd`, written into a text, gives the first password behind the name. -/
theorem textOf_getPswd_iff {user passwd : JString} {ulist : List Xml.Node} :
    textOf (AuthUserXML.getPswd ⟨some ulist⟩ (some user)) = passwd ↔ FirstBehind ulist user passwd := by
  rw [getPswd_eq]
  cases hfind : (passwords ulist).find? fun e => e.1 = user with
  | none =>
    have hnone : ∀ e ∈ passwords ulist, e.1 ≠ user := by simpa using hfind
    constructor
    · rintro rfl
      exact .inr ⟨hnone, rfl⟩
    · rintro (⟨pre, post, hsplit, -⟩ | ⟨-, rfl⟩)
      · exact absurd rfl (hnone (user, passwd) (by simp [hsplit]))
      · rfl
  | some e =>
    obtain ⟨he, pre, post, hsplit, hpre⟩ := List.find?_eq_some_iff_append.mp hfind
    have he : e.1 = user := of_decide_eq_true he
    constructor
    · rintro rfl
      exact .inl ⟨pre, post, by rw [hsplit, ← he]; rfl, by simpa using hpre⟩
    · rintro (⟨pre', post', hsplit', hpre'⟩ | ⟨hnone, -⟩)
      · have hfind' : (passwords ulist).find? (fun e => e.1 = user) = some (user, passwd) :=
          List.find?_eq_some_iff_append.mpr ⟨by simp, pre', post', hsplit', by simpa using hpre'⟩
        rw [hfind, Option.some_inj] at hfind'
        rw [hfind']
        rfl
      · exact absurd he (hnone e (by simp [hsplit]))

/-- In a list without a name twice, a user has one password. -/
theorem passwd_unique {user p q : JString} {ulist : List Xml.Node} (hnodup : (names ulist).Nodup)
    (hp : (user, p) ∈ reached ulist) (hq : (user, q) ∈ reached ulist) : p = q := by
  obtain ⟨m, hm, hmp, hmu, hmpass⟩ := exists_of_mem_reached hp
  obtain ⟨n, hn, hnp, hnu, hnpass⟩ := exists_of_mem_reached hq
  have hsame : m = n := by
    by_contra hne
    have hdisjoint := (List.nodup_flatMap.mp hnodup).2.imp (S := fun m n : Xml.Node =>
      (texts "name" m.children).Disjoint (texts "name" n.children)) id
    have hsymm : Std.Symm fun m n : Xml.Node =>
        (texts "name" m.children).Disjoint (texts "name" n.children) := ⟨fun _ _ h => h.symm⟩
    exact hdisjoint.forall (List.mem_filter.mpr ⟨hm, hmp⟩) (List.mem_filter.mpr ⟨hn, hnp⟩) hne
      (List.mem_of_getLast? hmu) (List.mem_of_getLast? hnu)
  subst hsame
  exact Option.some_inj.mp (hmpass.symm.trans hnpass)

/-- What is reached is known. -/
theorem mem_names_of_mem_reached {user p : JString} {ulist : List Xml.Node} (h : (user, p) ∈ reached ulist) :
    user ∈ names ulist := by
  obtain ⟨n, hn, hp, hu, -⟩ := exists_of_mem_reached h
  exact List.mem_flatMap.mpr ⟨n, List.mem_filter.mpr ⟨hn, hp⟩, List.mem_of_getLast? hu⟩

/-! ## The two checks -/

/-- A user list as an object gets it: a `user` node, or a file with a document that has one. -/
inductive Source
  | node (children : List Xml.Node)
  | file (cfg_filename : JString) (front children back : List Xml.Node)

namespace Source

/-- The children of the `user` node. -/
def ulist : Source → List Xml.Node
  | .node children => children
  | .file _ _ children _ => children

/-- The object that is made from it. -/
def users : Source → AuthUserXML
  | .node children => .ofNode (some (.element "user".toList children))
  | .file cfg_filename front children back =>
    .ofFile (fun _ => some (front ++ .element "user".toList children :: back)) (some cfg_filename)

end Source

/-- `checkUser` accepts the complete entries of a list and, where no name is there twice, `getDigestUser` gives
exactly the digests with a password that it accepts. -/
structure Agrees (md5 : JString → JString) (source : Source) : Prop where
  check : ∀ user passwd,
    source.users.checkUser (some user) (some passwd) = true ↔ ∃ n ∈ source.ulist, IsEntry n user passwd
  digest : (names source.ulist).Nodup → ∀ user realm digest,
    source.users.getDigestUser md5 (some user) realm = some digest
      ↔ ∃ passwd, source.users.checkUser (some user) (some passwd) = true
        ∧ digest = md5 (AuthUserXML.a1 user realm passwd)

/-- In a node, no complete entry is lost behind an incomplete one and, where no name is there twice, the first
password behind each name is that of a complete entry which `checkUser` reaches, or has the same digests. A file has
no complete entry. -/
def Holds (md5 : JString → JString) : Source → Prop
  | .node ulist =>
    (∀ n ∈ ulist, ∀ user passwd, IsEntry n user passwd → (user, passwd) ∈ reached ulist)
      ∧ ((names ulist).Nodup → ∀ user ∈ names ulist, ∃ passwd first,
        (user, passwd) ∈ reached ulist ∧ FirstBehind ulist user first
          ∧ ∀ realm, md5 (AuthUserXML.a1 user realm first) = md5 (AuthUserXML.a1 user realm passwd))
  | .file _ _ ulist _ => ∀ n ∈ ulist, ∀ user passwd, ¬ IsEntry n user passwd

/-- Which digest a user has, where one is given. -/
theorem getDigestUser_node_iff {md5 : JString → JString} {user realm digest : JString} {ulist : List Xml.Node} :
    AuthUserXML.getDigestUser md5 ⟨some ulist⟩ (some user) realm = some digest
      ↔ user ∈ names ulist ∧ ∃ first, FirstBehind ulist user first
        ∧ digest = md5 (AuthUserXML.a1 user realm first) := by
  simp only [← textOf_getPswd_iff, exists_eq_left']
  rw [AuthUserXML.getDigestUser]
  split_ifs with huser
  · rw [Option.some_inj, eq_comm, and_iff_right (isUser_iff.mp huser)]
    rfl
  · exact iff_of_false nofun fun h => huser (isUser_iff.mpr h.1)

/-- `load` leaves no list behind. -/
theorem Source.users_file (cfg_filename : JString) (front children back : List Xml.Node) :
    (Source.file cfg_filename front children back).users = ⟨none⟩ := by
  simp only [Source.users, AuthUserXML.ofFile, AuthUserXML.load]
  split_ifs <;> rfl

/-- When a user is accepted with a password. -/
theorem checkUser_node_iff {user passwd : JString} (ulist : List Xml.Node) :
    (Source.node ulist).users.checkUser (some user) (some passwd) = true ↔ (user, passwd) ∈ reached ulist := by
  rw [← checkEntries_iff]
  rfl

/-- The two checks agree on a list exactly where nothing in it is lost. -/
theorem agrees_iff (md5 : JString → JString) (source : Source) : Agrees md5 source ↔ Holds md5 source := by
  cases source with
  | file cfg_filename front children back =>
    -- A list read from a file has no users at all, so that it agrees just if nobody is listed.
    have hcheck (user passwd : JString) :
        ¬ (Source.file cfg_filename front children back).users.checkUser (some user) (some passwd) = true := by
      rw [Source.users_file]
      exact Bool.false_ne_true
    constructor
    · intro h n hn user passwd hentry
      exact hcheck user passwd ((h.check user passwd).mpr ⟨n, hn, hentry⟩)
    · intro h
      refine ⟨fun user passwd => iff_of_false (hcheck user passwd) ?_, fun _ user realm digest =>
        iff_of_false ?_ fun ⟨passwd, haccepted, _⟩ => hcheck user passwd haccepted⟩
      · rintro ⟨n, hn, hentry⟩
        exact h n hn user passwd hentry
      · rw [Source.users_file]
        exact nofun
  | node ulist =>
    have hdigest (user realm digest : JString) :
        (Source.node ulist).users.getDigestUser md5 (some user) realm = some digest
          ↔ user ∈ names ulist ∧ ∃ first, FirstBehind ulist user first
            ∧ digest = md5 (AuthUserXML.a1 user realm first) := getDigestUser_node_iff
    constructor
    · intro h
      refine ⟨fun n hn user passwd hentry => ?_, fun hnodup user huser => ?_⟩
      · exact (checkUser_node_iff ulist).mp ((h.check user passwd).mpr ⟨n, hn, hentry⟩)
      · -- The digest is that of the first password behind the name, with any realm.
        have hfirst : FirstBehind ulist user _ := textOf_getPswd_iff.mp rfl
        have haccepted (realm : JString) :=
          (h.digest hnodup user realm _).mp ((hdigest user realm _).mpr ⟨huser, _, hfirst, rfl⟩)
        obtain ⟨passwd, hpasswd, -⟩ := haccepted []
        rw [checkUser_node_iff] at hpasswd
        refine ⟨passwd, _, hpasswd, hfirst, fun realm => ?_⟩
        obtain ⟨q, hq, heq⟩ := haccepted realm
        rw [checkUser_node_iff] at hq
        rw [heq, passwd_unique hnodup hq hpasswd]
    · rintro ⟨hreached, hfirst⟩
      refine ⟨fun user passwd => ?_, fun hnodup user realm digest => ?_⟩
      · rw [checkUser_node_iff]
        exact ⟨exists_of_mem_reached, fun ⟨n, hn, hentry⟩ => hreached n hn user passwd hentry⟩
      · rw [hdigest]
        simp only [checkUser_node_iff]
        constructor
        · rintro ⟨huser, first, hbehind, rfl⟩
          obtain ⟨passwd, q, hpasswd, hq, heq⟩ := hfirst hnodup user huser
          rw [← textOf_getPswd_iff] at hbehind hq
          exact ⟨passwd, hpasswd, by rw [← heq realm, ← hbehind, hq]⟩
        · rintro ⟨passwd, hpasswd, rfl⟩
          have huser := mem_names_of_mem_reached hpasswd
          obtain ⟨p, first, hp, hbehind, heq⟩ := hfirst hnodup user huser
          exact ⟨huser, first, hbehind, by rw [heq realm, passwd_unique hnodup hp hpasswd]⟩

/-- An entry behind one without a password is lost for `checkUser`. -/
theorem not_agrees_behind_incomplete : ¬ Agrees id (.node [
    .element "p".toList [.element "name".toList [.text "alice".toList]],
    .element "p".toList [.element "name".toList [.text "bob".toList],
      .element "password".toList [.text "secret".toList]]]) := by
  intro h
  have hbob := (h.check "bob".toList "secret".toList).mpr
    ⟨_, List.mem_cons_of_mem _ List.mem_cons_self, rfl, rfl, rfl⟩
  exact absurd hbob (by decide)

end OrgLittle.Auth
