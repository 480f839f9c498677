import OrgLittle.Java.LetterCase
import OrgLittle.Java.Strings

/-!
# JSON objects

The part of `org.json` that the modules write and read: objects with string keys, and the getters, which raise an
exception (`none`) if a key is missing or its value has another type. `put` with `null` removes the key.
-/

namespace OrgLittle.Java

/-- A JSON value. All numbers that occur are integral. -/
inductive Json
  | str (s : JString)
  | bool (b : Bool)
  | num (n : ℤ)
  | arr (l : List Json)
  | obj (entries : List (String × Json))

/-- `JSONObject`, with the last value of every key. -/
abbrev JSONObject := List (String × Json)

namespace Json

/-- The value as a `String`. -/
def asString : Json → Option JString
  | str s => some s
  | _ => none

/-- The value as a `boolean`. -/
def asBoolean : Json → Option Bool
  | bool b => some b
  | str s =>
    if equalsIgnoreCase s "false".toList then some false
    else if equalsIgnoreCase s "true".toList then some true
    else none
  | _ => none

/-- The value as an `int`. -/
def asInt : Json → Option Int32
  | num n => some (Int32.ofInt n)
  | str s => (parseInt s).map Int32.ofInt
  | _ => none

/-- The value as a `long`. -/
def asLong : Json → Option Int64
  | num n => some (Int64.ofInt n)
  | str s => (parseLong s).map Int64.ofInt
  | _ => none

/-- The value as a `JSONArray`. -/
def asArray : Json → Option (List Json)
  | arr l => some l
  | _ => none

/-- The value as a `JSONObject`. -/
def asObject : Json → Option JSONObject
  | obj entries => some entries
  | _ => none

end Json

namespace JSONObject

/-- `new JSONObject()`. -/
def new : JSONObject := []

/-- `put(key, value)`; `none` is `null`. -/
def put (key : String) (value : Option Json) (o : JSONObject) : JSONObject :=
  value.toList.map (fun v => (key, v)) ++ o.filter fun e => e.1 != key

/-- `get(key)`. -/
def get (o : JSONObject) (key : String) : Option Json := o.lookup key

/-- `getString(key)`. -/
def getString (o : JSONObject) (key : String) : Option JString := (o.get key).bind Json.asString

/-- `getBoolean(key)`. -/
def getBoolean (o : JSONObject) (key : String) : Option Bool := (o.get key).bind Json.asBoolean

/-- `getInt(key)`. -/
def getInt (o : JSONObject) (key : String) : Option Int32 := (o.get key).bind Json.asInt

/-- `getLong(key)`. -/
def getLong (o : JSONObject) (key : String) : Option Int64 := (o.get key).bind Json.asLong

/-- `getJSONArray(key)`. -/
def getJSONArray (o : JSONObject) (key : String) : Option (List Json) := (o.get key).bind Json.asArray

/-- `getJSONObject(key)`. -/
def getJSONObject (o : JSONObject) (key : String) : Option JSONObject := (o.get key).bind Json.asObject

/-! ## Reading back what was put -/

theorem lookup_filter_ne (o : JSONObject) {key other : String} (h : key ≠ other) :
    (o.filter fun e => e.1 != other).lookup key = o.lookup key := by
  induction o with
  | nil => rfl
  | cons e o ih =>
    rw [List.filter_cons]
    by_cases he : e.1 = other
    · have hne : (key == e.1) = false := beq_false_of_ne (he ▸ h)
      rw [if_neg (by simp [he]), ih, List.lookup_cons, hne]
    · rw [if_pos (by simp [he]), List.lookup_cons, List.lookup_cons, ih]

theorem lookup_filter_self (o : JSONObject) (key : String) :
    (o.filter fun e => e.1 != key).lookup key = none := by
  rw [List.lookup_eq_none_iff]
  intro e he
  have hne : e.1 ≠ key := by simpa using (List.mem_filter.mp he).2
  simpa using Ne.symm hne

/-- What `get` finds after `put`. -/
@[simp]
theorem get_put (o : JSONObject) (key other : String) (value : Option Json) :
    (o.put other value).get key = if key = other then value else o.get key := by
  rw [get, put, List.lookup_append]
  split_ifs with h
  · obtain rfl := h
    rw [lookup_filter_self]
    cases value with
    | none => rfl
    | some v => exact congrArg (Option.or · none) List.lookup_cons_self
  · have hne : (key == other) = false := beq_false_of_ne h
    have hvalue : (value.toList.map fun v => (other, v)).lookup key = none := by
      cases value with
      | none => rfl
      | some v => exact (List.lookup_cons (b := v)).trans (by rw [hne]; rfl)
    rw [hvalue, Option.none_or, lookup_filter_ne o h]
    rfl

end JSONObject

end OrgLittle.Java
