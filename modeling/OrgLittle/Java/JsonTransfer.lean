import OrgLittle.Java.Json
import OrgLittle.Java.JsonRoundTrip

/-!
# From one `JSONObject` to another

A `JSONObject` that was filled by `put` is written as a text and read by the other side, where `get` is asked for the
same keys. The text has the members in the order of `keys()`, which is not that of the `put`s. `found_transferred` says
that the other side finds what this side has put in, so that the modules that exchange objects may do without the text.
-/

namespace OrgLittle.Java

open JsonText

variable {D : Type*}

mutual

/-- The value in the order in which it was put together. -/
def Json.toValue : Json → Value D
  | .str s => .string (utf16 s)
  | .bool b => .bool b
  | .num n => boxed n
  | .arr l => .array (Json.toItems l)
  | .obj entries => .object (Json.toMembers entries)

/-- The values of an array. -/
def Json.toItems : List Json → List (Value D)
  | [] => []
  | value :: l => value.toValue :: Json.toItems l

/-- The members of an object. -/
def Json.toMembers : List (String × Json) → List (JText × Value D)
  | [] => []
  | (key, value) :: entries => (utf16 key.toList, value.toValue) :: Json.toMembers entries

end

mutual

/-- The value is found on the other side as `v`: under each key of an object what is there on this side, and nothing
else. -/
def Json.FoundAs : Json → Value D → Prop
  | .str s, v => v = .string (utf16 s)
  | .bool b, v => v = .bool b
  | .num n, v => v = boxed n
  | .arr l, v => ∃ items, v = .array items ∧ Json.FoundItems l items
  | .obj entries, v =>
    ∃ members, v = .object members ∧ members.length = entries.length ∧ Json.FoundMembers entries members

/-- The values of an array, one by one. -/
def Json.FoundItems : List Json → List (Value D) → Prop
  | [], items => items = []
  | value :: l, items => ∃ v rest, items = v :: rest ∧ value.FoundAs v ∧ Json.FoundItems l rest

/-- The members of an object, by their keys. -/
def Json.FoundMembers : List (String × Json) → List (JText × Value D) → Prop
  | [], _ => True
  | (key, value) :: entries, members =>
    (∃ v, members.lookup (utf16 key.toList) = some v ∧ value.FoundAs v) ∧ Json.FoundMembers entries members

end

/-- A value whose numbers are in the range of `long` and whose objects have each key once. -/
inductive Json.Transferable : Json → Prop
  | str (s : JString) : Transferable (.str s)
  | bool (b : Bool) : Transferable (.bool b)
  | num {n : ℤ} (hlo : -2 ^ 63 ≤ n) (hhi : n < 2 ^ 63) : Transferable (.num n)
  | arr {l : List Json} (h : ∀ value ∈ l, Transferable value) : Transferable (.arr l)
  | obj {entries : List (String × Json)} (hkeys : (entries.map Prod.fst).Nodup)
      (h : ∀ entry ∈ entries, Transferable entry.2) : Transferable (.obj entries)

theorem Json.toItems_eq_map (l : List Json) : (Json.toItems l : List (Value D)) = l.map Json.toValue := by
  induction l with
  | nil => rfl
  | cons value l ih => rw [Json.toItems, ih, List.map_cons]

theorem Json.toMembers_eq_map (entries : List (String × Json)) :
    (Json.toMembers entries : List (JText × Value D))
      = entries.map fun entry => (utf16 entry.1.toList, entry.2.toValue) := by
  induction entries with
  | nil => rfl
  | cons entry entries ih => rw [Json.toMembers, ih, List.map_cons]

/-- Different keys are different texts. -/
theorem utf16_toList_injective : Function.Injective fun key : String => utf16 key.toList := fun _ _ h =>
  String.toList_inj.mp (utf16_injective h)

theorem nodup_keys_toMembers {entries : List (String × Json)} (h : (entries.map Prod.fst).Nodup) :
    ((Json.toMembers entries : List (JText × Value D)).map Prod.fst).Nodup := by
  rw [Json.toMembers_eq_map, List.map_map]
  have hmap : entries.map (Prod.fst ∘ fun entry => (utf16 entry.1.toList, (entry.2.toValue : Value D)))
      = (entries.map Prod.fst).map fun key => utf16 key.toList := by rw [List.map_map]; rfl
  rw [hmap]
  exact h.map utf16_toList_injective

/-- The other side can read it. -/
theorem Json.Transferable.wellFormed {value : Json} (h : value.Transferable) (ok : D → Prop) :
    (value.toValue : Value D).WellFormed ok := by
  induction h with
  | str s => exact .string (utf16 s)
  | bool b => exact .bool b
  | num hlo hhi => exact wellFormed_boxed hlo hhi
  | arr hitems ih =>
    refine .array fun item hitem => ?_
    rw [Json.toItems_eq_map] at hitem
    obtain ⟨value, hvalue, rfl⟩ := List.mem_map.mp hitem
    exact ih value hvalue
  | obj hkeys hentries ih =>
    refine .object (nodup_keys_toMembers hkeys) fun member hmember => ?_
    rw [Json.toMembers_eq_map] at hmember
    obtain ⟨entry, hentry, rfl⟩ := List.mem_map.mp hmember
    exact ih entry hentry

namespace JsonText

/-! ## The order of the members -/

variable {keys : List JText → List JText} {members : List (JText × Value D)}

theorem listedItems_eq_map (items : List (Value D)) : listedItems keys items = items.map (Value.listed keys) := by
  induction items with
  | nil => rfl
  | cons value items ih => rw [listedItems, ih, List.map_cons]

theorem listedMembers_eq_map (members : List (JText × Value D)) :
    listedMembers keys members = members.map fun member => (member.1, member.2.listed keys) := by
  induction members with
  | nil => rfl
  | cons member members ih => rw [listedMembers, ih, List.map_cons]

/-- Only the values change with the order inside them. -/
theorem keys_listedMembers : (listedMembers keys members).map Prod.fst = members.map Prod.fst := by
  rw [listedMembers_eq_map, List.map_map]
  rfl

/-- The member with a key is the only one with it. -/
theorem find?_eq_some_of_mem (hmembers : (members.map Prod.fst).Nodup) {member : JText × Value D}
    (h : member ∈ members) : (members.find? fun m => m.1 = member.1) = some member := by
  induction members with
  | nil => exact absurd h List.not_mem_nil
  | cons m members ih =>
    rw [List.map_cons, List.nodup_cons] at hmembers
    rcases List.mem_cons.mp h with rfl | h
    · exact List.find?_cons_of_pos (by simp)
    · have hne : m.1 ≠ member.1 := fun heq => hmembers.1 (heq ▸ List.mem_map_of_mem h)
      rw [List.find?_cons_of_neg (by simpa using hne)]
      exact ih hmembers.2 h

/-- Nothing is lost or doubled by putting the members into the order of `keys()`. -/
theorem inOrder_perm (hkeys : ∀ ks, (keys ks).Perm ks) (hmembers : (members.map Prod.fst).Nodup) :
    (inOrder keys members).Perm members := by
  have hself : (members.map Prod.fst).filterMap (fun key => members.find? fun member => member.1 = key) = members := by
    rw [List.filterMap_map]
    exact (List.filterMap_congr fun member hmember => find?_eq_some_of_mem hmembers hmember).trans
      List.filterMap_some
  exact ((hkeys _).filterMap _).trans (.of_eq hself)

/-- With distinct keys, `lookup` is membership. -/
theorem lookup_eq_some_iff (hmembers : (members.map Prod.fst).Nodup) {key : JText} {value : Value D} :
    members.lookup key = some value ↔ (key, value) ∈ members := by
  induction members with
  | nil => simp
  | cons m members ih =>
    rw [List.map_cons, List.nodup_cons] at hmembers
    rw [List.lookup_cons, List.mem_cons]
    by_cases hkey : key = m.1
    · have hnot : (key, value) ∉ members := fun hin => hmembers.1 (hkey ▸ List.mem_map_of_mem hin)
      rw [beq_iff_eq.mpr hkey]
      simp only [hnot, or_false, Option.some.injEq]
      constructor
      · rintro rfl
        rw [hkey]
      · intro heq
        rw [← heq]
    · have hne : (key, value) ≠ m := fun heq => hkey (congrArg Prod.fst heq)
      rw [beq_false_of_ne hkey]
      simp only [hne, false_or]
      exact ih hmembers.2

/-- What a key stands for does not depend on the order. -/
theorem lookup_eq_of_perm {members' : List (JText × Value D)} (h : members'.Perm members)
    (hmembers : (members.map Prod.fst).Nodup) (key : JText) : members'.lookup key = members.lookup key := by
  have hmembers' : (members'.map Prod.fst).Nodup := (h.map Prod.fst).nodup_iff.mpr hmembers
  ext value
  rw [lookup_eq_some_iff hmembers', lookup_eq_some_iff hmembers, h.mem_iff]

/-- The order of the members has nothing to do with what is well formed. -/
theorem listed_wellFormed (hkeys : ∀ ks, (keys ks).Perm ks) {ok : D → Prop} {value : Value D}
    (h : value.WellFormed ok) : (value.listed keys).WellFormed ok := by
  induction h with
  | null => exact .null
  | bool b => exact .bool b
  | integer hlo hhi => exact .integer hlo hhi
  | long hlo hhi hlarge => exact .long hlo hhi hlarge
  | double hd => exact .double hd
  | string s => exact .string s
  | array hitems ih =>
    rw [Value.listed, listedItems_eq_map]
    refine .array fun item hitem => ?_
    obtain ⟨value, hvalue, rfl⟩ := List.mem_map.mp hitem
    exact ih value hvalue
  | @object members hnodup hmembers ih =>
    have hlisted : ((listedMembers keys members).map Prod.fst).Nodup := by rwa [keys_listedMembers]
    have hperm := inOrder_perm hkeys hlisted
    rw [Value.listed]
    refine .object ((hperm.map Prod.fst).nodup_iff.mpr hlisted) fun member hmember => ?_
    have hmember := hperm.mem_iff.mp hmember
    rw [listedMembers_eq_map] at hmember
    obtain ⟨m, hm, rfl⟩ := List.mem_map.mp hmember
    exact ih m hm

end JsonText

/-! ## The other side -/

theorem Json.foundItems_map {l : List Json} {f : Json → Value D} (h : ∀ value ∈ l, value.FoundAs (f value)) :
    Json.FoundItems l (l.map f) := by
  induction l with
  | nil => rfl
  | cons value l ih =>
    rw [List.forall_mem_cons] at h
    exact ⟨_, _, List.map_cons, h.1, ih h.2⟩

theorem Json.foundMembers_of {entries : List (String × Json)} {members : List (JText × Value D)}
    (h : ∀ entry ∈ entries, ∃ v, members.lookup (utf16 entry.1.toList) = some v ∧ entry.2.FoundAs v) :
    Json.FoundMembers entries members := by
  induction entries with
  | nil => trivial
  | cons entry entries ih =>
    rw [List.forall_mem_cons] at h
    exact ⟨h.1, ih h.2⟩

/-- Whatever the order in which the members are written, each key has its value. -/
theorem Json.Transferable.foundAs {keys : List JText → List JText} (hkeys : ∀ ks, (keys ks).Perm ks)
    {value : Json} (h : value.Transferable) : value.FoundAs ((value.toValue : Value D).listed keys) := by
  induction h with
  | str s => rfl
  | bool b => rfl
  | @num n hlo hhi =>
    change (boxed n : Value D).listed keys = boxed n
    rw [boxed]
    split_ifs <;> rfl
  | @arr l hitems ih =>
    refine ⟨_, rfl, ?_⟩
    rw [Json.toItems_eq_map, listedItems_eq_map, List.map_map]
    exact foundItems_map ih
  | @obj entries hnodup hentries ih =>
    have hlisted : ((listedMembers keys (Json.toMembers entries : List (JText × Value D))).map Prod.fst).Nodup := by
      rw [keys_listedMembers]
      exact nodup_keys_toMembers hnodup
    have hperm := inOrder_perm hkeys hlisted
    have hmap : listedMembers keys (Json.toMembers entries : List (JText × Value D))
        = entries.map fun entry => (utf16 entry.1.toList, (entry.2.toValue : Value D).listed keys) := by
      rw [listedMembers_eq_map, Json.toMembers_eq_map, List.map_map]
      rfl
    refine ⟨_, rfl, by rw [hperm.length_eq, hmap, List.length_map], foundMembers_of fun entry hentry => ?_⟩
    refine ⟨_, ?_, ih entry hentry⟩
    rw [lookup_eq_of_perm hperm hlisted, lookup_eq_some_iff hlisted, hmap]
    exact List.mem_map_of_mem hentry

/-- From the text of an object that was filled by `put` an object is read in which everything is found that was put
in, with any indentation and whatever the order of `keys()`. -/
theorem found_transferred (runtime : Runtime D) (hkeys : ∀ ks, (runtime.keys ks).Perm ks) (indentFactor : Int32)
    {o : JSONObject} (h : (Json.obj o).Transferable) :
    ∃ v, parseJSONObject runtime
        (writeValue runtime indentFactor 0 ((Json.obj o).toValue.listed runtime.keys)) = .ok v
      ∧ (Json.obj o).FoundAs v := by
  have hwell := listed_wellFormed hkeys (h.wellFormed runtime.Kept)
  rw [Json.toValue, Value.listed] at hwell
  have hparse := parseJSONObject_written indentFactor 0 hwell
  refine ⟨_, ?_, h.foundAs hkeys⟩
  rw [Json.toValue, Value.listed]
  exact hparse

/-! ## What `put` puts together -/

namespace Json.Transferable

/-- An empty object. -/
theorem new : (Json.obj JSONObject.new).Transferable := .obj List.nodup_nil nofun

/-- `put` replaces the member with the key, so that the keys stay distinct. -/
theorem put {o : JSONObject} (h : (Json.obj o).Transferable) (key : String) {value : Json}
    (hvalue : value.Transferable) : (Json.obj (o.put key (some value))).Transferable := by
  cases h with
  | obj hkeys hentries =>
    have hsublist : (o.filter fun e => e.1 != key).Sublist o := List.filter_sublist
    refine .obj (List.nodup_cons.mpr ⟨fun hmem => ?_, (hsublist.map Prod.fst).nodup hkeys⟩) fun entry hentry => ?_
    · obtain ⟨entry, hentry, heq⟩ := List.mem_map.mp hmem
      exact (bne_iff_ne.mp (List.mem_filter.mp hentry).2) heq
    · rcases List.mem_cons.mp hentry with rfl | hentry
      · exact hvalue
      · exact hentries entry (hsublist.subset hentry)

/-- `put` with `null` only takes away. -/
theorem putNull {o : JSONObject} (h : (Json.obj o).Transferable) (key : String) :
    (Json.obj (o.put key none)).Transferable := by
  cases h with
  | obj hkeys hentries =>
    have hsublist : (o.filter fun e => e.1 != key).Sublist o := List.filter_sublist
    exact .obj ((hsublist.map Prod.fst).nodup hkeys) fun entry hentry => hentries entry (hsublist.subset hentry)

theorem int (n : Int32) : (Json.num n.toInt).Transferable := by
  have hlo := n.le_toInt
  have hhi := n.toInt_lt
  exact .num (by omega) (by omega)

theorem long (n : Int64) : (Json.num n.toInt).Transferable := .num n.le_toInt n.toInt_lt

theorem size {n : ℕ} (h : n < 2 ^ 31) : (Json.num n).Transferable := .num (by omega) (by omega)

/-- A `JSONArray` that was filled from a list. -/
theorem objects {α : Type*} {l : List α} {f : α → JSONObject} (h : ∀ a ∈ l, (Json.obj (f a)).Transferable) :
    (Json.arr (l.map fun a => .obj (f a))).Transferable := by
  refine .arr fun value hvalue => ?_
  obtain ⟨a, ha, rfl⟩ := List.mem_map.mp hvalue
  exact h a ha

end Json.Transferable

end OrgLittle.Java
