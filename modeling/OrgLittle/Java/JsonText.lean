import OrgLittle.Java.LetterCase

/-!
# JSON texts

`JSONTokener`, the constructors of `JSONObject` and `JSONArray` that read from it, and `write` of both. A text is a list
of UTF-16 units, since `\uXXXX` can give any of them. What is left of the text is the state of the tokener: `next` gives
`0` at its end, and `back` puts a unit in front again.
-/

namespace OrgLittle.Java.JsonText

/-- The units of a text of such characters. -/
def units (s : JString) : JText := s.map unit

/-- What the runtime decides: the two conversions of `Double`, where `valueOf` is `none` for an infinite value and for
what raises an exception, and the order in which a `HashMap` lists keys that were put in one after the other. -/
structure Runtime (D : Type*) where
  valueOf : JText → Option D
  toString : D → JText
  keys : List JText → List JText

/-- What is read: `NULL`, `Boolean`, `Integer`, `Long`, `Double`, `String`, `JSONArray` and `JSONObject`. The members of
an object that is read are in the order in which they were put in, those of an object that is written in the order of
its `keys()`, which can be any. -/
inductive Value (D : Type*)
  | null
  | bool (b : Bool)
  | integer (n : ℤ)
  | long (n : ℤ)
  | double (d : D)
  | string (s : JText)
  | array (items : List (Value D))
  | object (members : List (JText × Value D))

/-- `JSONException`, without the place in the text. No text is left `unfinished`. -/
inductive JSONException
  | syntaxError (message : String)
  | duplicateKey (key : JText)
  | unfinished

/-! ## Numbers and words -/

section number

variable {D : Type*} (runtime : Runtime D)

/-- `equalsIgnoreCase` with a word. -/
def isWord (word : String) (text : JText) : Bool := text.map foldUnit == (units word.toList).map foldUnit

/-- `new Long(string)`, if its decimal text is `string` again. -/
def canonicalLong (text : JText) : Option ℤ :=
  (parseSigned (text.map fun c => Char.ofNat c.toNat)).filter fun n =>
    units (intToString n) = text ∧ -2 ^ 63 ≤ n ∧ n < 2 ^ 63

/-- A number that is read: an `Integer` if it is an `int`, and a `Long` otherwise. -/
def boxed (n : ℤ) : Value D := if -2 ^ 31 ≤ n ∧ n < 2 ^ 31 then .integer n else .long n

/-- `JSONObject.stringToValue`. -/
def stringToValue (string : JText) : Value D :=
  if isWord "true" string then .bool true
  else if isWord "false" string then .bool false
  else if isWord "null" string then .null
  else
    match string with
    | [] => .string string
    | initial :: _ =>
      if (unit '0' ≤ initial ∧ initial ≤ unit '9') ∨ initial = unit '-' then
        if unit '.' ∈ string ∨ unit 'e' ∈ string ∨ unit 'E' ∈ string ∨ string = units ['-', '0'] then
          ((runtime.valueOf string).map Value.double).getD (.string string)
        else ((canonicalLong string).map boxed).getD (.string string)
      else .string string

/-- `JSONObject.numberToString`: without the zeros behind the point, and without the point if nothing is behind it. -/
def numberToString (d : D) : JText :=
  let string := runtime.toString d
  if 0 < string.idxOf (unit '.') ∧ unit '.' ∈ string ∧ unit 'e' ∉ string ∧ unit 'E' ∉ string then
    let kept := (string.reverse.dropWhile (· = unit '0'))
    (if kept.head? = some (unit '.') then kept.tail else kept).reverse
  else string

end number

/-! ## The tokener -/

/-- `next()`. -/
def next : JText → UInt16 × JText
  | [] => (0, [])
  | c :: rest => (c, rest)

/-- `nextClean()`. -/
def nextClean : JText → UInt16 × JText
  | [] => (0, [])
  | c :: rest => if c = 0 ∨ unit ' ' < c then (c, rest) else nextClean rest

/-- `back()` after the unit `c` was read. -/
def back (c : UInt16) (rest : JText) : JText := c :: rest

/-- The first units of the blocks of decimal digits. -/
def digitZeros : List ℕ :=
  [0x30, 0x660, 0x6f0, 0x7c0, 0x966, 0x9e6, 0xa66, 0xae6, 0xb66, 0xbe6, 0xc66, 0xce6, 0xd66, 0xe50, 0xed0, 0xf20,
    0x1040, 0x1090, 0x17e0, 0x1810, 0x1946, 0x19d0, 0x1a80, 0x1a90, 0x1b50, 0x1bb0, 0x1c40, 0x1c50, 0xa620, 0xa8d0,
    0xa900, 0xa9d0, 0xaa50, 0xabf0, 0xff10]

/-- The first units of the alphabets whose letters are digits. -/
def letterTens : List ℕ := [0x41, 0x61, 0xff21, 0xff41]

/-- `Character.digit(c, 16)`. -/
def digit16 (c : UInt16) : Option ℕ :=
  ((digitZeros.find? fun first => first ≤ c.toNat ∧ c.toNat < first + 10).map fun first => c.toNat - first).or
    ((letterTens.find? fun ten => ten ≤ c.toNat ∧ c.toNat < ten + 6).map fun ten => c.toNat - ten + 10)

/-- The value of a run of hexadecimal digits, behind a prefix with the value `v`. -/
def hexFrom (v : ℕ) : JText → Option ℕ
  | [] => some v
  | c :: rest => (digit16 c).bind fun d => hexFrom (16 * v + d) rest

/-- `(char) Integer.parseInt(s, 16)`. -/
def parseHex : JText → Option UInt16
  | c :: d :: rest =>
    if c = unit '-' then (hexFrom 0 (d :: rest)).map fun v => UInt16.ofInt (-v)
    else if c = unit '+' then (hexFrom 0 (d :: rest)).map UInt16.ofNat
    else (hexFrom 0 (c :: d :: rest)).map UInt16.ofNat
  | s => if s = [] then none else (hexFrom 0 s).map UInt16.ofNat

/-- The escapes of one unit in `nextString`. -/
def unescape (c : UInt16) : Option UInt16 :=
  if c = unit 'b' then some 8
  else if c = unit 't' then some 9
  else if c = unit 'n' then some 10
  else if c = unit 'f' then some 12
  else if c = unit 'r' then some 13
  else if c = unit '"' ∨ c = unit '\'' ∨ c = unit '\\' ∨ c = unit '/' then some c
  else none

/-- `nextString(quote)`, behind the quote. -/
def nextString (quote : UInt16) : JText → Except JSONException (JText × JText)
  | [] => .error (.syntaxError "Unterminated string")
  | c :: rest =>
    if c = 0 ∨ c = unit '\n' ∨ c = unit '\r' then .error (.syntaxError "Unterminated string")
    else if c = unit '\\' then
      match rest with
      | [] => .error (.syntaxError "Illegal escape.")
      | e :: rest =>
        if e = unit 'u' then
          match rest with
          | c₁ :: c₂ :: c₃ :: c₄ :: rest =>
            -- `next(4)`, which takes the unit 0 for the end
            if 0 ∈ [c₁, c₂, c₃, c₄] then .error (.syntaxError "Substring bounds error")
            else
              match parseHex [c₁, c₂, c₃, c₄] with
              | none => .error (.syntaxError "Illegal escape.")
              | some u => (nextString quote rest).map fun (s, rest) => (u :: s, rest)
          | _ => .error (.syntaxError "Substring bounds error")
        else
          match unescape e with
          | none => .error (.syntaxError "Illegal escape.")
          | some u => (nextString quote rest).map fun (s, rest) => (u :: s, rest)
    else if c = quote then .ok ([], rest)
    else (nextString quote rest).map fun (s, rest) => (c :: s, rest)

/-- The units that end a text without quotes. -/
def delimiters : JText := units [',', ':', ']', '}', '/', '\\', '"', '[', '{', ';', '=', '#']

/-- A unit of a text without quotes. -/
def isPlain (c : UInt16) : Bool := unit ' ' ≤ c && !delimiters.contains c

/-- The loop of `nextValue` over a text without quotes, with the `back()` behind it. -/
def nextWord : JText → JText × JText
  | [] => ([], back 0 [])
  | c :: rest =>
    if isPlain c then
      let (word, rest) := nextWord rest
      (c :: word, rest)
    else ([], back c rest)

/-- `trim()`. -/
def trim (s : JText) : JText :=
  ((s.dropWhile (· ≤ unit ' ')).reverse.dropWhile (· ≤ unit ' ')).reverse

/-! ## Writing -/

section write

/-- `Integer.toHexString(c)` with zeros in front of it, four digits in all. -/
def toHex (c : UInt16) : JText := units (List.leftpad 4 '0' (Nat.toDigits 16 c.toNat))

/-- A unit of `quote`, where `b` is the one before it. -/
def escape (b c : UInt16) : JText :=
  if c = unit '\\' ∨ c = unit '"' then [unit '\\', c]
  else if c = unit '/' then if b = unit '<' then [unit '\\', c] else [c]
  else if c = 8 then units ['\\', 'b']
  else if c = unit '\t' then units ['\\', 't']
  else if c = unit '\n' then units ['\\', 'n']
  else if c = 12 then units ['\\', 'f']
  else if c = unit '\r' then units ['\\', 'r']
  else if c < unit ' ' ∨ (0x80 ≤ c ∧ c < 0xa0) ∨ (0x2000 ≤ c ∧ c < 0x2100) then units ['\\', 'u'] ++ toHex c
  else [c]

/-- The loop of `quote`. -/
def escapeFrom (b : UInt16) : JText → JText
  | [] => []
  | c :: rest => escape b c ++ escapeFrom c rest

/-- `JSONObject.quote`. -/
def quote (s : JText) : JText := unit '"' :: (escapeFrom 0 s ++ [unit '"'])

/-- `indent(writer, indent)`. -/
def spaces (indent : Int32) : JText := List.replicate indent.toInt.toNat (unit ' ')

/-- The line end in front of an entry. -/
def newline (indentFactor : Int32) : JText := if 0 < indentFactor then [unit '\n'] else []

/-- The indentation of the entries: a single one stays on the line. -/
def innerIndent (indentFactor indent : Int32) (length : ℕ) : Int32 :=
  if length = 1 then indent else indent + indentFactor

/-- What `write` of an array or an object puts between the brackets. -/
def layout (indentFactor indent : Int32) : List JText → JText
  | [] => []
  | [text] => text
  | texts =>
    [unit ','].intercalate (texts.map fun text => newline indentFactor ++ spaces (indent + indentFactor) ++ text)
      ++ newline indentFactor ++ spaces indent

variable {D : Type*} (runtime : Runtime D) (indentFactor : Int32)

mutual

/-- `JSONObject.writeValue`, with `write` of `JSONArray` and `JSONObject`. -/
def writeValue (indent : Int32) : Value D → JText
  | .null => units ['n', 'u', 'l', 'l']
  | .bool b => units (if b then ['t', 'r', 'u', 'e'] else ['f', 'a', 'l', 's', 'e'])
  | .integer n => units (intToString n)
  | .long n => units (intToString n)
  | .double d => numberToString runtime d
  | .string s => quote s
  | .array items =>
    unit '[' :: (layout indentFactor indent (writeItems (innerIndent indentFactor indent items.length) items)
      ++ [unit ']'])
  | .object members =>
    unit '{' :: (layout indentFactor indent (writeMembers (innerIndent indentFactor indent members.length) members)
      ++ [unit '}'])

/-- The values of an array. -/
def writeItems (indent : Int32) : List (Value D) → List JText
  | [] => []
  | value :: items => writeValue indent value :: writeItems indent items

/-- The members of an object. -/
def writeMembers (indent : Int32) : List (JText × Value D) → List JText
  | [] => []
  | (key, value) :: members =>
    (quote key ++ unit ':' :: ((if 0 < indentFactor then [unit ' '] else []) ++ writeValue indent value))
      :: writeMembers indent members

end

/-- The members in the order of `keys()`. -/
def inOrder (keys : List JText → List JText) (members : List (JText × Value D)) : List (JText × Value D) :=
  (keys (members.map Prod.fst)).filterMap fun key => members.find? fun member => member.1 = key

mutual

/-- The value with the members of its objects in the order of `keys()`. -/
def Value.listed (keys : List JText → List JText) : Value D → Value D
  | .array items => .array (listedItems keys items)
  | .object members => .object (inOrder keys (listedMembers keys members))
  | value => value

/-- The values of an array. -/
def listedItems (keys : List JText → List JText) : List (Value D) → List (Value D)
  | [] => []
  | value :: items => value.listed keys :: listedItems keys items

/-- The members of an object. -/
def listedMembers (keys : List JText → List JText) : List (JText × Value D) → List (JText × Value D)
  | [] => []
  | (key, value) :: members => (key, value.listed keys) :: listedMembers keys members

end

/-- `toString()` of a value that is read as a key. -/
def Value.toString : Value D → JText
  | .double d => runtime.toString d
  | .string s => s
  | value => writeValue runtime 0 0 (value.listed runtime.keys)

end write

/-! ## Reading -/

section read

variable {D : Type*} (runtime : Runtime D)

/-- `putOnce`. -/
def putOnce (members : List (JText × Value D)) (key : JText) (value : Value D) :
    Except JSONException (List (JText × Value D)) :=
  if key ∈ members.map Prod.fst then .error (.duplicateKey key) else .ok (members ++ [(key, value)])

mutual

/-- `nextValue()`. -/
def nextValue : ℕ → JText → Except JSONException (Value D × JText)
  | 0, _ => .error .unfinished
  | fuel + 1, x =>
    let (c, rest) := nextClean x
    if c = unit '"' ∨ c = unit '\'' then (nextString c rest).map fun (s, rest) => (.string s, rest)
    else if c = unit '{' then newJSONObject fuel (back c rest)
    else if c = unit '[' then newJSONArray fuel (back c rest)
    else
      let (word, rest) := nextWord (back c rest)
      if trim word = [] then .error (.syntaxError "Missing value")
      else .ok (stringToValue runtime (trim word), rest)

/-- `new JSONObject(x)`. -/
def newJSONObject : ℕ → JText → Except JSONException (Value D × JText)
  | 0, _ => .error .unfinished
  | fuel + 1, x =>
    let (c, rest) := nextClean x
    if c = unit '{' then readMembers fuel [] rest
    else .error (.syntaxError "A JSONObject text must begin with '\x7b'")

/-- The loop of `new JSONObject(x)`. -/
def readMembers : ℕ → List (JText × Value D) → JText → Except JSONException (Value D × JText)
  | 0, _, _ => .error .unfinished
  | fuel + 1, members, x =>
    let (c, rest) := nextClean x
    if c = 0 then .error (.syntaxError "A JSONObject text must end with '\x7d'")
    else if c = unit '}' then .ok (.object members, rest)
    else do
      let (key, rest) ← nextValue fuel (back c rest)
      let (c, rest) := nextClean rest
      if c = unit ':' then
        let (value, rest) ← nextValue fuel rest
        let members ← putOnce members (key.toString runtime) value
        let (c, rest) := nextClean rest
        if c = unit ';' ∨ c = unit ',' then
          let (c, rest) := nextClean rest
          if c = unit '}' then .ok (.object members, rest) else readMembers fuel members (back c rest)
        else if c = unit '}' then .ok (.object members, rest)
        else .error (.syntaxError "Expected a ',' or '\x7d'")
      else .error (.syntaxError "Expected a ':' after a key")

/-- `new JSONArray(x)`. -/
def newJSONArray : ℕ → JText → Except JSONException (Value D × JText)
  | 0, _ => .error .unfinished
  | fuel + 1, x =>
    let (c, rest) := nextClean x
    if c = unit '[' then
      let (c, rest) := nextClean rest
      if c = unit ']' then .ok (.array [], rest) else readItems fuel [] (back c rest)
    else .error (.syntaxError "A JSONArray text must start with '['")

/-- The loop of `new JSONArray(x)`. -/
def readItems : ℕ → List (Value D) → JText → Except JSONException (Value D × JText)
  | 0, _, _ => .error .unfinished
  | fuel + 1, items, x => do
    let (c, rest) := nextClean x
    let entry := if c = unit ',' then .ok (.null, back c rest) else nextValue fuel (back c rest)
    let (value, rest) ← entry
    let (c, rest) := nextClean rest
    if c = unit ',' then
      let (c, rest) := nextClean rest
      if c = unit ']' then .ok (.array (items ++ [value]), rest)
      else readItems fuel (items ++ [value]) (back c rest)
    else if c = unit ']' then .ok (.array (items ++ [value]), rest)
    else .error (.syntaxError "Expected a ',' or ']'")

end

/-- More rounds than any text of this length takes. -/
def rounds (x : JText) : ℕ := 3 * x.length + 3

/-- `new JSONObject(source)`. -/
def parseJSONObject (source : JText) : Except JSONException (Value D) :=
  (newJSONObject runtime (rounds source) source).map Prod.fst

/-- `new JSONArray(source)`. -/
def parseJSONArray (source : JText) : Except JSONException (Value D) :=
  (newJSONArray runtime (rounds source) source).map Prod.fst

end read

end OrgLittle.Java.JsonText
