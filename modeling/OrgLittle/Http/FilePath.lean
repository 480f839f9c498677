import OrgLittle.Java.Text
import OrgLittle.Lib.Path

/-!
# The files that `lHttpResponse.getFile` sends

The path of a request is decoded once more and put behind the root of the documents. A decoded path is refused if it
does not begin with `/`, if a name in it begins or ends with a dot, or if the expression `.*[<>&"].*` matches it. The
dot of an expression matches no line terminator, so that a path with one is never refused by the expression.
-/

namespace OrgLittle.Http

open OrgLittle.Java OrgLittle.Lib

/-! ## `URLDecoder` -/

/-- `Character.digit` for the radix 16 and `new String` for UTF-8. A digit is a letter or a digit of ASCII, or it is
beyond ASCII. -/
structure URLDecoder where
  digit : Char → Option (Fin 16)
  newString : List UInt8 → JString
  digit_ascii : ∀ c d, digit c = some d → c.isAlphanum ∨ 127 < c.toNat

namespace URLDecoder

variable (decoder : URLDecoder)

/-- `Integer.parseInt` of two characters for the radix 16, as a byte. A negative number is refused. -/
def parseHex (x y : Char) : Option UInt8 :=
  if x = '+' then (decoder.digit y).map fun low => UInt8.ofNat low
  else if x = '-' then if decoder.digit y = some 0 then some 0 else none
  else do
    let high ← decoder.digit x
    let low ← decoder.digit y
    some (UInt8.ofNat (16 * high + low))

/-- The text of the escapes that were read. -/
def flush (bytes : List UInt8) : JString := if bytes = [] then [] else decoder.newString bytes

/-- `URLDecoder.decode`, with the bytes of the escapes that come before. -/
def decodeFrom (bytes : List UInt8) : JString → Except JavaException JString
  | '%' :: x :: y :: s =>
    match decoder.parseHex x y with
    | some byte => decodeFrom (bytes ++ [byte]) s
    | none => .error .illegalArgument
  | '%' :: _ => .error .illegalArgument
  | c :: s => (decodeFrom [] s).map fun text => decoder.flush bytes ++ (if c = '+' then ' ' else c) :: text
  | [] => .ok (decoder.flush bytes)

/-- `URLDecoder.decode`. -/
def decode : JString → Except JavaException JString := decoder.decodeFrom []

end URLDecoder

/-! ## `decodePath` -/

/-- The characters that a dot of an expression does not match. -/
def lineTerminators : List Char := ['\n', '\r', Char.ofNat 0x85, Char.ofNat 0x2028, Char.ofNat 0x2029]

/-- The characters that `INSECURE_URI` looks for. -/
def insecureChars : List Char := ['<', '>', '&', '"']

/-- `INSECURE_URI.matcher(uri).matches()`. -/
def insecureUri (uri : JString) : Bool := uri.any (· ∈ insecureChars) && uri.all (· ∉ lineTerminators)

/-- What the files are read with: the decoder, `getRootDocument`, `File.separatorChar`, and the file system; `transfers`
tells whether the transfer of a file can be begun. -/
structure FileEnv where
  decoder : URLDecoder
  root : JString
  separator : Char
  isHidden : JString → Bool
  exists_ : JString → Bool
  isFile : JString → Bool
  open_ : JString → Option (List UInt8)
  transfers : JString → Bool
  separator_ne : separator ≠ '.'

variable (env : FileEnv)

/-- The path with the separators of the platform. -/
def FileEnv.replace (uri : JString) : JString := uri.map fun c => if c = '/' then env.separator else c

/-- `decodePath`. -/
def decodePath (uri0 : JString) : Except JavaException (Option JString) :=
  (env.decoder.decode uri0).map fun uri =>
    if uri.head? ≠ some '/' then none
    else
      let uri := env.replace uri
      if [env.separator, '.'] <:+: uri ∨ ['.', env.separator] <:+: uri ∨ uri.head? = some '.'
          ∨ uri.getLast? = some '.' ∨ insecureUri uri then
        none
      else some (env.root ++ uri)

/-! ## `getFile` -/

/-- What a request is answered: a file, or a text of HTML with its status. Where the transfer of a file cannot be begun,
the header of the file has been written before the text. -/
inductive FileAnswer
  | content (path : JString) (bytes : List UInt8)
  | txt (text : JString) (status : ℕ)
deriving DecidableEq

/-- `getFile` of a path. -/
def getFileAt (path0 : JString) : Except JavaException FileAnswer :=
  match decodePath env path0 with
  | .error e => .error e
  | .ok none => .error .nullPointer
  | .ok (some path) =>
    let err := "GET url:".toList ++ path0 ++ " file:".toList ++ path
    if env.isHidden path || !env.exists_ path then .ok (.txt (err ++ " not exists".toList) 404)
    else if !env.isFile path then .ok (.txt (err ++ " FORBIDDEN".toList) 403)
    else match env.open_ path with
      | some bytes =>
        if env.transfers path then .ok (.content path bytes)
        else .ok (.txt ("file:".toList ++ path ++ " not exists".toList) 404)
      | none => .ok (.txt (err ++ " not exists".toList) 404)

/-- The path that `getFile` looks up for the path of a request. -/
def requestedPath : Option JString → JString
  | none => "/index.html".toList
  | some path => if path = [] ∨ path = ['/'] ∨ path = ['\\'] then "/index.html".toList else path

/-- `getFile` of a request. -/
def getFile (path : Option JString) : Except JavaException FileAnswer := getFileAt env (requestedPath path)

/-! ## What is sent -/

/-- The names between the separators. -/
def components (path : JString) : List JString := (Path.split env.separator path).filter (· ≠ [])

/-- A path that `decodePath` lets pass. -/
structure Passes (uri : JString) : Prop where
  absolute : uri.head? = some env.separator
  noDots : ∀ name ∈ Path.split env.separator uri, name.head? ≠ some '.' ∧ name.getLast? ≠ some '.'
  secure : insecureUri uri = false

variable {env}

theorem head?_replace {uri : JString} (h : uri.head? = some '/') : (env.replace uri).head? = some env.separator := by
  obtain ⟨uri, rfl⟩ := List.head?_eq_some_iff.mp h
  rfl

/-- `decodePath` lets a path pass exactly if no name in it begins or ends with a dot and `INSECURE_URI` does not
match. -/
theorem decodePath_eq_some_iff {uri0 path : JString} :
    decodePath env uri0 = .ok (some path)
      ↔ ∃ uri, env.decoder.decode uri0 = .ok uri ∧ uri.head? = some '/' ∧ Passes env (env.replace uri)
        ∧ path = env.root ++ env.replace uri := by
  have hdot : '.' ≠ env.separator := env.separator_ne.symm
  rw [decodePath]
  cases hdecode : env.decoder.decode uri0 with
  | error e => simp [Except.map]
  | ok uri =>
    have hfirst := Path.exists_head?_split hdot (env.replace uri)
    have hlast := Path.exists_getLast?_split hdot (env.replace uri)
    have hsafe : (¬ ([env.separator, '.'] <:+: env.replace uri ∨ ['.', env.separator] <:+: env.replace uri
          ∨ (env.replace uri).head? = some '.' ∨ (env.replace uri).getLast? = some '.' ∨ insecureUri (env.replace uri)))
        ↔ (∀ name ∈ Path.split env.separator (env.replace uri), name.head? ≠ some '.' ∧ name.getLast? ≠ some '.')
          ∧ insecureUri (env.replace uri) = false := by
      rw [← not_iff_not] at hfirst hlast
      push Not at hfirst hlast
      simp only [forall_and, not_or, Bool.not_eq_true]
      tauto
    simp only [Except.map, Except.ok.injEq, exists_eq_left']
    constructor
    · intro h
      split_ifs at h with habsolute hunsafe
      rw [not_not] at habsolute
      obtain ⟨hnoDots, hsecure⟩ := hsafe.mp hunsafe
      exact ⟨habsolute, ⟨head?_replace habsolute, hnoDots, hsecure⟩, (Option.some.inj h).symm⟩
    · rintro ⟨habsolute, hpasses, rfl⟩
      rw [if_neg (not_not.mpr habsolute), if_neg (hsafe.mpr ⟨hpasses.noDots, hpasses.secure⟩)]

/-- What is answered rests on a path that passes; a text names it, with the path of the request. -/
theorem getFile_ok {path : Option JString} {answer : FileAnswer} (h : getFile env path = .ok answer) :
    ∃ uri, env.decoder.decode (requestedPath path) = .ok uri ∧ Passes env (env.replace uri) ∧
      match answer with
      | .content file bytes => file = env.root ++ env.replace uri ∧ env.isHidden file = false ∧ env.exists_ file = true
        ∧ env.isFile file = true ∧ env.open_ file = some bytes
      | .txt text _ => (∃ reason ∈ [" not exists".toList, " FORBIDDEN".toList], text = "GET url:".toList
          ++ requestedPath path ++ " file:".toList ++ (env.root ++ env.replace uri) ++ reason)
        ∨ text = "file:".toList ++ (env.root ++ env.replace uri) ++ " not exists".toList := by
  rw [getFile, getFileAt] at h
  split at h
  · cases h
  · cases h
  · next file hpath =>
    obtain ⟨uri, hdecode, -, hpasses, rfl⟩ := decodePath_eq_some_iff.mp hpath
    refine ⟨uri, hdecode, hpasses, ?_⟩
    dsimp only at h
    split at h
    · cases h
      exact .inl ⟨_, List.mem_cons_self, rfl⟩
    · next hfound =>
      rw [Bool.or_eq_true, not_or, Bool.not_eq_true, Bool.not_eq_true, Bool.not_eq_false'] at hfound
      split at h
      · cases h
        exact .inl ⟨_, List.mem_cons_of_mem _ (List.mem_singleton_self _), rfl⟩
      · next hfile =>
        split at h
        · next bytes hopen =>
          split_ifs at h with htransfers
          · cases h
            exact ⟨rfl, hfound.1, hfound.2, by simpa using hfile, hopen⟩
          · cases h
            exact .inr rfl
        · cases h
          exact .inl ⟨_, List.mem_cons_self, rfl⟩

variable (env) in
/-- A file at the root followed by names none of which begins or ends with a dot. It lies below the root, wherever that
leads to. -/
def Confined (file : JString) : Prop :=
  ∃ uri, file = env.root ++ env.separator :: uri
    ∧ (∀ name ∈ components env uri, name.head? ≠ some '.' ∧ name.getLast? ≠ some '.')
    ∧ ∀ dir, Path.resolve "..".toList dir (components env uri) = dir ++ components env uri

/-- Whatever the request, the file that is sent is one that lies below the root and is not hidden. -/
theorem getFile_confined {path : Option JString} {file : JString} {bytes : List UInt8}
    (h : getFile env path = .ok (.content file bytes)) :
    Confined env file ∧ env.isFile file = true ∧ env.isHidden file = false := by
  obtain ⟨uri, -, hpasses, rfl, hhidden, -, hfile, -⟩ := getFile_ok h
  obtain ⟨rest, hrest⟩ := List.head?_eq_some_iff.mp hpasses.absolute
  rw [hrest] at hfile hhidden ⊢
  have hnames : ∀ name ∈ components env rest, name.head? ≠ some '.' ∧ name.getLast? ≠ some '.' := by
    intro name hname
    refine hpasses.noDots name ?_
    rw [hrest, Path.split, if_pos rfl]
    exact List.mem_cons_of_mem _ (List.mem_filter.mp hname).1
  refine ⟨⟨rest, rfl, hnames, fun dir => Path.resolve_of_notMem (fun hup => ?_) dir⟩, hfile, hhidden⟩
  exact (hnames _ hup).1 rfl

/-- The digits of ASCII. -/
def asciiDecoder : URLDecoder where
  digit c :=
    if c.isDigit then some (Fin.ofNat 16 (c.toNat - 48))
    else if c.isUpper && c.toNat ≤ 70 then some (Fin.ofNat 16 (c.toNat - 55))
    else if c.isLower && c.toNat ≤ 102 then some (Fin.ofNat 16 (c.toNat - 87))
    else none
  newString := asciiString
  digit_ascii := fun c d h => by
    refine .inl ?_
    rw [Char.isAlphanum, Char.isAlpha]
    split_ifs at h <;> simp_all

/-- A server with one file. -/
def oneFile (file : JString) : FileEnv where
  decoder := asciiDecoder
  root := "var/html".toList
  separator := '/'
  isHidden := fun _ => false
  exists_ path := path = file
  isFile path := path = file
  open_ path := if path = file then some [60, 62] else none
  transfers := fun _ => true
  separator_ne := by decide

/-- An escape and a blank in the names. -/
theorem getFile_confined_escaped :
    let env := oneFile "var/html/a b/c.html".toList
    let file := "var/html/a b/c.html".toList
    getFile env (some "/a+b/%63.html".toList) = .ok (.content file [60, 62])
      ∧ Confined env file ∧ env.isFile file = true ∧ env.isHidden file = false :=
  have h : getFile (oneFile "var/html/a b/c.html".toList) (some "/a+b/%63.html".toList)
      = .ok (.content "var/html/a b/c.html".toList [60, 62]) := by decide +kernel
  ⟨h, getFile_confined h⟩

/-! ## What is written of the request -/

/-- A character that is no digit is not part of an escape. -/
theorem URLDecoder.parseHex_of_insecure (decoder : URLDecoder) {x y c : Char} (hc : c ∈ insecureChars)
    (h : c = x ∨ c = y) : decoder.parseHex x y = none := by
  have hdigit : decoder.digit c = none := by
    rw [Option.eq_none_iff_forall_ne_some]
    intro d hd
    have := decoder.digit_ascii c d hd
    fin_cases hc <;> revert this <;> decide
  have hsign : c ≠ '+' ∧ c ≠ '-' := by fin_cases hc <;> decide
  rw [parseHex]
  rcases h with rfl | rfl
  · rw [if_neg hsign.1, if_neg hsign.2, hdigit]
    rfl
  · split_ifs with hplus hminus hzero
    · rw [hdigit]
      rfl
    · cases hdigit.symm.trans hzero
    · rfl
    · cases decoder.digit x <;> simp [hdigit]

/-- Decoding keeps the characters that `INSECURE_URI` looks for. -/
theorem URLDecoder.mem_decodeFrom (decoder : URLDecoder) {c : Char} (hc : c ∈ insecureChars) {bytes : List UInt8}
    {s text : JString} (hmem : c ∈ s) (h : decoder.decodeFrom bytes s = .ok text) : c ∈ text := by
  have hpercent : c ≠ '%' := by fin_cases hc <;> decide
  have hplus : c ≠ '+' := by fin_cases hc <;> decide
  induction bytes, s using URLDecoder.decodeFrom.induct decoder generalizing text with
  | case1 bytes x y s byte hbyte ih =>
    rw [decodeFrom, hbyte] at h
    simp only [List.mem_cons, hpercent, false_or] at hmem
    rcases hmem with hx | hy | hs
    · cases hbyte.symm.trans (decoder.parseHex_of_insecure hc (.inl hx))
    · cases hbyte.symm.trans (decoder.parseHex_of_insecure hc (.inr hy))
    · exact ih hs h
  | case2 => simp_all [decodeFrom]
  | case3 => simp_all [decodeFrom]
  | case4 bytes d s _ _ ih =>
    rw [decodeFrom] at h
    · obtain ⟨rest, hrest, rfl⟩ := exists_of_map h
      refine List.mem_append_right _ ?_
      rcases List.mem_cons.mp hmem with rfl | hs
      · rw [if_neg hplus]
        exact List.mem_cons_self
      · exact List.mem_cons_of_mem _ (ih hs hrest)
    all_goals assumption
  | case5 => cases hmem

/-- A text of HTML that is answered repeats the path of the file, and mostly that of the request. It has a character of
markup in it only if the decoded path has a line terminator, with which `INSECURE_URI` never matches. -/
theorem getFile_markup {path : Option JString} {text : JString} {status : ℕ}
    (hroot : ∀ c ∈ insecureChars, c ∉ env.root) (h : getFile env path = .ok (.txt text status)) {c : Char}
    (hc : c ∈ insecureChars) (hmem : c ∈ text) :
    ∃ uri, env.decoder.decode (requestedPath path) = .ok uri ∧ ∃ t ∈ lineTerminators, t ∈ env.replace uri := by
  obtain ⟨uri, hdecode, hpasses, htext⟩ := getFile_ok h
  refine ⟨uri, hdecode, ?_⟩
  have hslash : c ≠ '/' := by fin_cases hc <;> decide
  have hexists : c ∉ " not exists".toList := by fin_cases hc <;> decide
  have hin : c ∈ requestedPath path ∨ c ∈ env.replace uri := by
    rcases htext with ⟨reason, hreason, rfl⟩ | rfl
    · have hget : c ∉ "GET url:".toList := by fin_cases hc <;> decide
      have hfile : c ∉ " file:".toList := by fin_cases hc <;> decide
      have hreason : c ∉ reason := by
        fin_cases hreason
        · exact hexists
        · fin_cases hc <;> decide
      simp only [List.mem_append, hget, hfile, hroot c hc, hreason, false_or, or_false] at hmem
      exact hmem
    · have hfile : c ∉ "file:".toList := by fin_cases hc <;> decide
      simp only [List.mem_append, hfile, hroot c hc, hexists, false_or, or_false] at hmem
      exact .inr hmem
  have huri : c ∈ env.replace uri := by
    refine hin.elim (fun hpath => ?_) id
    have hdecoded : c ∈ uri := env.decoder.mem_decodeFrom hc hpath hdecode
    rw [FileEnv.replace, List.mem_map]
    exact ⟨c, hdecoded, if_neg hslash⟩
  have hsecure := hpasses.secure
  rw [insecureUri, Bool.and_eq_false_iff] at hsecure
  rcases hsecure with hnone | hterminator
  · rw [List.any_eq_false] at hnone
    exact absurd (decide_eq_true hc) (hnone c huri)
  · rw [List.all_eq_false] at hterminator
    obtain ⟨t, ht, hterminator⟩ := hterminator
    exact ⟨t, by simpa using hterminator, ht⟩

theorem oneFile_root (file : JString) : ∀ c ∈ insecureChars, c ∉ (oneFile file).root := by
  intro c hc
  show c ∉ "var/html".toList
  fin_cases hc <;> decide

/-- A newline lets the markup through. -/
theorem getFile_markup_after_newline :
    getFile (oneFile []) (some "/\n<b>".toList)
        = .ok (.txt "GET url:/\n<b> file:var/html/\n<b> not exists".toList 404)
      ∧ ∃ uri, (oneFile []).decoder.decode (requestedPath (some "/\n<b>".toList)) = .ok uri
        ∧ ∃ t ∈ lineTerminators, t ∈ (oneFile []).replace uri := by
  have h : getFile (oneFile []) (some "/\n<b>".toList)
      = .ok (.txt "GET url:/\n<b> file:var/html/\n<b> not exists".toList 404) := by decide +kernel
  have hmem : '<' ∈ "GET url:/\n<b> file:var/html/\n<b> not exists".toList := by decide
  exact ⟨h, getFile_markup (oneFile_root []) h (show '<' ∈ insecureChars by decide) hmem⟩

end OrgLittle.Http
