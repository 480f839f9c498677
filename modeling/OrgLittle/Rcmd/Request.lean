import OrgLittle.Rcmd.Sequences

/-!
# `rRequest`: waiting for the response to a remote command

`run` reads the output of the remote side up to the expected response. It leaves out escape sequences and collects
lines, and when it meets one of four message texts, a second reader skips the rest of the line. `right_iff` says for
which streams the result and the lines are right.
-/

namespace OrgLittle.Rcmd

open OrgLittle.Java OrgLittle.Lib

/-! ## The code -/

/-- `response_ok`. -/
def response_ok : JString := "ok".toList

/-- `response_error`. -/
def response_error : JString := "error".toList

/-- `response_syntax_error`. -/
def response_syntax_error : JString := "syntax_error".toList

/-- `response_info`. -/
def response_info : JString := "info".toList

/-- `response_warn`. -/
def response_warn : JString := "warn".toList

/-- The sequences that the constructor adds, from the id and the bytes of the expected response. -/
def newSeq (id : JString) (res : List UInt8) : List Sequence :=
  let seq := Sequences.add [] response_ok id (some res)
  let seq := Sequences.add seq response_error [] (some (writeAscii "Error:".toList))
  let seq := Sequences.add seq response_syntax_error [] (some (writeAscii "Syntax error:".toList))
  let seq := Sequences.add seq response_info [] (some (writeAscii "Info:".toList))
  Sequences.add seq response_warn [] (some (writeAscii "Warning:".toList))

/-- What a stream does behind its last byte. -/
inductive StreamEnd
  | eof | ioException
deriving DecidableEq

/-- The two places that read a byte of the stream. -/
inductive ReadBy
  | run | getString
deriving DecidableEq

/-- How `run` ends: what it returns, the lines it has appended to the response, each as the bytes that are decoded, and
the bytes it has read. -/
structure RunOutcome where
  ret : Except JavaException Bool
  lines : List (List UInt8)
  reads : List (ReadBy × UInt8)
deriving DecidableEq

/-- An outcome with bytes that were read before. -/
def RunOutcome.after (reads : List (ReadBy × UInt8)) (outcome : RunOutcome) : RunOutcome :=
  { outcome with reads := reads ++ outcome.reads }

/-- `_b=='\r' || _b=='\n'`. -/
def isLineEnd (b : UInt8) : Bool := b = CR || b = LF

/-- The byte that begins an escape sequence. -/
def ESC : UInt8 := 27

/-- The bytes that end an escape sequence. -/
def endsEscape (b : UInt8) : Bool :=
  b = 61 || b = 62 || (97 ≤ b && b ≤ 122) || (65 ≤ b && b ≤ 90)

/-- `getString`: the bytes that it reads, and the others. What it returns goes to the log. -/
def getString : List UInt8 → List UInt8 × List UInt8
  | [] => ([], [])
  | c :: input =>
    if isLineEnd c then ([c], input)
    else
      let (skipped, rest) := getString input
      (c :: skipped, rest)

theorem length_getString (input : List UInt8) : (getString input).2.length ≤ input.length := by
  induction input with
  | nil => exact le_refl _
  | cons c input ih =>
    rw [getString]
    split
    · exact Nat.le_succ _
    · exact Nat.le_succ_of_le ih

/-- The loop of `run`. -/
def runLoop (ending : StreamEnd) (seq : List Sequence) (buf_out : List UInt8) (is_print : Bool)
    (lines : List (List UInt8)) (input : List UInt8) : RunOutcome :=
  match input with
  | [] =>
    match ending with
    | .eof => ⟨.ok true, lines, []⟩
    | .ioException => ⟨.ok false, if buf_out.length ≠ 0 then lines ++ [buf_out] else lines, []⟩
  | b :: input =>
    if isLineEnd b then
      if buf_out.length = 0 then (runLoop ending seq buf_out is_print lines input).after [(.run, b)]
      else (runLoop ending seq [] is_print (lines ++ [buf_out]) input).after [(.run, b)]
    else if b = ESC then (runLoop ending seq buf_out false lines input).after [(.run, b)]
    else if is_print = false then
      if endsEscape b then (runLoop ending seq buf_out true lines input).after [(.run, b)]
      else (runLoop ending seq buf_out false lines input).after [(.run, b)]
    else
      match Sequences.put seq b with
      | .error e => ⟨.error e, lines, [(.run, b)]⟩
      | .ok (seq, none) => (runLoop ending seq (buf_out ++ [b]) is_print lines input).after [(.run, b)]
      | .ok (seq, some k) =>
        let type := seq[k]?.elim [] Sequence.type
        if type = response_ok then ⟨.ok true, lines ++ [buf_out ++ [b]], [(.run, b)]⟩
        else if type = response_warn ∨ type = response_info ∨ type = response_error ∨ type = response_syntax_error then
          (runLoop ending seq (buf_out ++ [b]) is_print lines (getString input).2).after
            ((.run, b) :: (getString input).1.map fun c => (.getString, c))
        else (runLoop ending seq (buf_out ++ [b]) is_print lines input).after [(.run, b)]
termination_by input.length
decreasing_by
  all_goals simp only [List.length_cons]
  all_goals have hlength := length_getString input
  all_goals omega

/-- `run` of a new request with an expected response; what is sent before plays no part. -/
def run (id : JString) (res : List UInt8) (ending : StreamEnd) (input : List UInt8) : RunOutcome :=
  runLoop ending (newSeq id res) [] true [] input

/-! ## What is wanted -/

/-- Whether bytes are printed behind the byte. -/
def nextPrint (is_print : Bool) (b : UInt8) : Bool :=
  if isLineEnd b then is_print else if b = ESC then false else is_print || endsEscape b

/-- Whether the byte itself is printed. -/
def isPrinted (is_print : Bool) (b : UInt8) : Bool := !isLineEnd b && b ≠ ESC && is_print

/-- The bytes outside of escape sequences and line ends. -/
def printable : Bool → List UInt8 → List UInt8
  | _, [] => []
  | is_print, b :: s =>
    if isPrinted is_print b then b :: printable (nextPrint is_print b) s else printable (nextPrint is_print b) s

/-- The bytes that `run` has read itself; the others are the skipped rests of message lines. -/
def mainOf (reads : List (ReadBy × UInt8)) : List UInt8 :=
  reads.filterMap fun r => if r.1 = .run then some r.2 else none

/-- The printable part of what was read, less the skipped rests: the escape sequences are those of the whole stream. -/
def kept : Bool → List (ReadBy × UInt8) → List UInt8
  | _, [] => []
  | is_print, r :: reads =>
    if r.1 = .run ∧ isPrinted is_print r.2 = true then r.2 :: kept (nextPrint is_print r.2) reads
    else kept (nextPrint is_print r.2) reads

/-- `run` returns true only if the expected response occurred in the printable part of what was read, and the lines
are the printable part less the skipped rests. -/
structure Right (res : List UInt8) (outcome : RunOutcome) : Prop where
  occurred : outcome.ret = .ok true → res <:+: printable true (outcome.reads.map Prod.snd)
  lines : outcome.lines.flatten = kept true outcome.reads

/-! ## The condition -/

/-- Why the reading of a stream ends: the expected response is complete, a matcher is out of its pattern, or the stream
is at its end. -/
inductive Stop
  | matched | broken | ended
deriving DecidableEq

/-- How a stream is divided into the bytes that are looked at and the rests of message lines, one byte at a time. -/
def cut (seq : List Sequence) (is_print skipping : Bool) : List UInt8 → List (ReadBy × UInt8) × Stop
  | [] => ([], .ended)
  | b :: input =>
    if skipping then
      let (reads, stop) := cut seq is_print (!isLineEnd b) input
      ((.getString, b) :: reads, stop)
    else if isPrinted is_print b then
      match Sequences.put seq b with
      | .error _ => ([(.run, b)], .broken)
      | .ok (_, some 0) => ([(.run, b)], .matched)
      | .ok (seq, point) =>
        let (reads, stop) := cut seq is_print point.isSome input
        ((.run, b) :: reads, stop)
    else
      let (reads, stop) := cut seq (nextPrint is_print b) false input
      ((.run, b) :: reads, stop)

/-- What is printed behind the last line end. -/
def openLine (line : List UInt8) (is_print : Bool) : List UInt8 → List UInt8
  | [] => line
  | b :: s =>
    openLine (if isLineEnd b then [] else if isPrinted is_print b then line ++ [b] else line) (nextPrint is_print b) s

/-- Where the escape sequence began that is open behind a byte, if there is one. -/
def nextEscape (begun : Option ReadBy) (r : ReadBy × UInt8) : Option ReadBy :=
  if isLineEnd r.2 then begun else if r.2 = ESC then some r.1 else if endsEscape r.2 then none else begun

/-- No byte that `run` would print stands in an escape sequence that began in a skipped rest. -/
def Unspoiled : Option ReadBy → List (ReadBy × UInt8) → Prop
  | _, [] => True
  | begun, r :: reads =>
    (r.1 = .run → isLineEnd r.2 = false → r.2 ≠ ESC → begun ≠ some .getString) ∧ Unspoiled (nextEscape begun r) reads

/-- What gets lost behind the last line end makes up for what `run` prints out of escape sequences: less the lost line,
the text that it prints is the one that is wanted. -/
def MadeUp (reads : List (ReadBy × UInt8)) : Prop :=
  openLine [] true (mainOf reads) ≠ []
    ∧ kept true reads ++ openLine [] true (mainOf reads) = printable true (mainOf reads)

/-- The condition on a stream. -/
def Meets (id : JString) (res : List UInt8) (ending : StreamEnd) (input : List UInt8) : Prop :=
  let (reads, stop) := cut (newSeq id res) true false input
  match stop with
  | .broken => False
  | .matched =>
    Unspoiled none reads ∧ ((∀ r ∈ reads, r.1 = .run) ∨ res <:+: printable true (reads.map Prod.snd))
  | .ended =>
    match ending with
    | .ioException => Unspoiled none reads
    | .eof =>
      (openLine [] true (mainOf reads) = [] ∧ Unspoiled none reads ∨ MadeUp reads) ∧ res <:+: printable true input

/-! ## The matchers -/

/-- The message texts. -/
def messages : List Pattern :=
  [⟨response_error, [], writeAscii "Error:".toList, by decide⟩,
    ⟨response_syntax_error, [], writeAscii "Syntax error:".toList, by decide⟩,
    ⟨response_info, [], writeAscii "Info:".toList, by decide⟩,
    ⟨response_warn, [], writeAscii "Warning:".toList, by decide⟩]

theorem Ready.type_put {s s' : Sequence} {p : Pattern} (h : Ready s p) {b : UInt8} {ret : Bool}
    (hput : s.put b = .ok (s', ret)) : s'.type = s.type := by
  rw [Sequence.put, h.buffer] at hput
  simp only [List.getElem?_eq_getElem h.point_lt] at hput
  split_ifs at hput
  · exact (Prod.mk.inj (Except.ok.inj hput)).1 ▸ rfl
  · exact (Prod.mk.inj (Except.ok.inj hput)).1 ▸ rfl
  · exact (Prod.mk.inj (Except.ok.inj hput)).1 ▸ rfl

/-- `put` keeps the types, and returns one of the sequences. -/
theorem put_types {patterns : List Pattern} {list list' : List Sequence} (h : List.Forall₂ Ready list patterns)
    {b : UInt8} {c : Option ℕ} (hput : Sequences.put list b = .ok (list', c)) :
    list'.map Sequence.type = list.map Sequence.type ∧ ∀ k, c = some k → k < list.length := by
  induction h generalizing list' c with
  | nil =>
    obtain ⟨rfl, rfl⟩ := Prod.mk.inj (Except.ok.inj hput)
    exact ⟨rfl, fun k hk => by cases hk⟩
  | @cons s p list patterns hs hlist ih =>
    obtain ⟨s', hs', -, -, -⟩ := hs.put b
    rw [Sequences.put, hs'] at hput
    cases hcompletes : s.completes b with
    | true =>
      rw [hcompletes] at hput
      obtain ⟨rfl, rfl⟩ := Prod.mk.inj (Except.ok.inj hput)
      refine ⟨by rw [List.map_cons, List.map_cons, hs.type_put hs'], fun k hk => ?_⟩
      obtain rfl := Option.some.inj hk
      exact Nat.zero_lt_succ _
    | false =>
      rw [hcompletes] at hput
      change (Sequences.put list b).bind _ = _ at hput
      cases hrest : Sequences.put list b with
      | error e =>
        rw [hrest] at hput
        cases hput
      | ok r =>
        rw [hrest] at hput
        obtain ⟨rfl, rfl⟩ := Prod.mk.inj (Except.ok.inj hput)
        obtain ⟨htypes, hlt⟩ := ih hrest
        refine ⟨by rw [List.map_cons, List.map_cons, hs.type_put hs', htypes], fun k hk => ?_⟩
        obtain ⟨j, hj, rfl⟩ := Option.map_eq_some_iff.mp hk
        exact Nat.succ_lt_succ (hlt j hj)

section matchers

variable {id : JString} {res : List UInt8} (hres : res ≠ [])

/-- The sequences of a request after some bytes were printed. The matcher of the expected response gets every byte, so
what it has counted is there. -/
structure Watches (id : JString) (res : List UInt8) (hres : res ≠ []) (seq : List Sequence) (kept : List UInt8) :
    Prop where
  ready : List.Forall₂ Ready seq (⟨response_ok, id, res, hres⟩ :: messages)
  types : seq.map Sequence.type = [response_ok, response_error, response_syntax_error, response_info, response_warn]
  sound : ∀ s ∈ seq[0]?, res.take s.point <:+ kept

variable {hres}

theorem watches_new : Watches id res hres (newSeq id res) [] := by
  refine ⟨?_, rfl, fun s hs => ?_⟩
  · exact (follows_start (⟨response_ok, id, res, hres⟩ :: messages)).ready
  · obtain rfl := Option.some.inj hs
    exact List.nil_suffix

/-- One printed byte: the expected response is complete, or the matchers go on, perhaps with a message text. -/
theorem Watches.put {seq : List Sequence} {kept : List UInt8} (h : Watches id res hres seq kept) (b : UInt8) :
    ∃ seq' c, Sequences.put seq b = .ok (seq', c)
      ∧ (c = some 0 ∧ seq'[0]?.elim [] Sequence.type = response_ok ∧ res <:+ kept ++ [b]
        ∨ Watches id res hres seq' (kept ++ [b])
          ∧ (c = none ∨ ∃ k, c = some (k + 1) ∧ seq'[k + 1]?.elim [] Sequence.type
            ∈ [response_error, response_syntax_error, response_info, response_warn])) := by
  obtain ⟨seq', c, hput, hready, hspec⟩ := put_spec h.ready b
  obtain ⟨htypes, hlt⟩ := put_types h.ready hput
  rw [h.types] at htypes
  have hlength : seq.length = 5 := h.ready.length_eq
  have hget (k : ℕ) : seq'[k]?.elim [] Sequence.type
      = ([response_ok, response_error, response_syntax_error, response_info, response_warn][k]?).getD [] := by
    rw [← htypes, List.getElem?_map]
    cases seq'[k]? with
    | none => rfl
    | some s => rfl
  obtain ⟨s, hs⟩ : ∃ s, seq[0]? = some s := ⟨_, List.getElem?_eq_getElem (by omega)⟩
  have hsready : Ready s ⟨response_ok, id, res, hres⟩ := by
    obtain ⟨hlt', rfl⟩ := List.getElem?_eq_some_iff.mp hs
    exact (List.forall₂_iff_get.mp h.ready).2 0 hlt' (Nat.zero_lt_succ _)
  -- Nothing stands before the answer `OK`, so that it is fed with every byte until it is complete.
  have hfed := hspec 0 s hs
  rw [List.take_zero, List.any_nil, if_neg Bool.false_ne_true] at hfed
  obtain ⟨s', hs', hput', hiff⟩ := hfed
  obtain ⟨t, ht, -, hcompletes, hnew⟩ := hsready.put b
  obtain rfl : t = s' := (Prod.mk.inj (Except.ok.inj (ht.symm.trans hput'))).1
  have hsound := h.sound s hs
  -- A byte that fits lengthens the part that has been read and the text that is kept alike.
  have hgrows : res[s.point]? = some b → res.take (s.point + 1) <:+ kept ++ [b] := by
    intro hb
    have hpoint : s.point < res.length := hsready.point_lt
    rw [List.getElem?_eq_getElem hpoint, Option.some.injEq] at hb
    exact (take_succ_suffix_concat hpoint).mpr ⟨hsound, hb⟩
  refine ⟨seq', c, hput, ?_⟩
  by_cases hfull : s.completes b = true
  · left
    rw [hfull] at hcompletes
    obtain ⟨hb, hlast⟩ := of_decide_eq_true hcompletes.symm
    have hsuffix := hgrows hb
    rw [hlast, List.take_length] at hsuffix
    exact ⟨hiff.mpr hfull, hget 0, hsuffix⟩
  · right
    refine ⟨⟨hready, htypes, fun s'' hs'' => ?_⟩, ?_⟩
    · obtain rfl : t = s'' := Option.some.inj (hs'.symm.trans hs'')
      rw [hnew (Bool.eq_false_iff.mpr hfull)]
      split
      · rename_i hb
        exact hgrows hb
      · rw [List.take_zero]
        exact List.nil_suffix
    · cases c with
      | none => exact .inl rfl
      | some k =>
        cases k with
        -- The number 0 would be the answer `OK`, which this byte has not completed.
        | zero => exact absurd (hiff.mp rfl) hfull
        | succ k =>
          have hk := hlt (k + 1) rfl
          rw [hlength] at hk
          refine .inr ⟨k, rfl, ?_⟩
          rw [hget]
          have hall : ∀ k < 4, ([response_ok, response_error, response_syntax_error, response_info,
              response_warn][k + 1]?).getD []
                ∈ [response_error, response_syntax_error, response_info, response_warn] := by decide
          exact hall k (by omega)

end matchers

/-! ## Reading -/

theorem RunOutcome.after_append (outcome : RunOutcome) (reads reads' : List (ReadBy × UInt8)) :
    outcome.after (reads ++ reads') = (outcome.after reads').after reads := by
  rw [RunOutcome.after, RunOutcome.after, RunOutcome.after, List.append_assoc]

theorem mainOf_getString (skipped : List UInt8) (reads : List (ReadBy × UInt8)) :
    mainOf ((skipped.map fun c => (ReadBy.getString, c)) ++ reads) = mainOf reads := by
  rw [mainOf, List.filterMap_append, List.filterMap_map]
  simp [mainOf]

/-- The rest of a message line. -/
theorem cut_skipping (seq : List Sequence) (input : List UInt8) :
    cut seq true true input
      = (((getString input).1.map fun c => (ReadBy.getString, c)) ++ (cut seq true false (getString input).2).1,
        (cut seq true false (getString input).2).2) := by
  induction input with
  | nil => rfl
  | cons b input ih =>
    rw [cut, getString, if_pos rfl]
    cases hb : isLineEnd b with
    | true => rfl
    | false =>
      simp only [Bool.not_false, ih, Bool.false_eq_true, if_false]
      rfl

/-- How a loop ends that starts when the bytes `kept` have been printed, `line` of them since the last line end. -/
def Ends (res : List UInt8) (ending : StreamEnd) (outcome : RunOutcome) (kept line : List UInt8) (is_print : Bool)
    (division : List (ReadBy × UInt8) × Stop) : Prop :=
  outcome.reads = division.1 ∧
    match division.2 with
    | .broken => False
    | .matched => outcome.ret = .ok true
        ∧ outcome.lines.flatten = kept ++ printable is_print (mainOf division.1)
        ∧ res <:+ kept ++ printable is_print (mainOf division.1)
    | .ended => outcome.ret = .ok (decide (ending = .eof))
        ∧ outcome.lines.flatten ++ (if ending = .eof then openLine line is_print (mainOf division.1) else [])
          = kept ++ printable is_print (mainOf division.1)

/-- A byte in front, read by `run`. -/
theorem Ends.cons {res : List UInt8} {ending : StreamEnd} {outcome : RunOutcome} {kept line : List UInt8}
    {is_print : Bool} {b : UInt8} {division : List (ReadBy × UInt8) × Stop}
    (h : Ends res ending outcome (if isPrinted is_print b then kept ++ [b] else kept)
      (if isLineEnd b then [] else if isPrinted is_print b then line ++ [b] else line) (nextPrint is_print b)
      division) :
    Ends res ending (outcome.after [(.run, b)]) kept line is_print ((.run, b) :: division.1, division.2) := by
  obtain ⟨hreads, hstop⟩ := h
  have hmain : mainOf ((.run, b) :: division.1) = b :: mainOf division.1 := rfl
  have hprint : (if isPrinted is_print b then kept ++ [b] else kept)
      ++ printable (nextPrint is_print b) (mainOf division.1)
        = kept ++ printable is_print (b :: mainOf division.1) := by
    rw [printable]
    split
    · rw [List.append_assoc]
      rfl
    · rfl
  refine ⟨congrArg (List.cons (ReadBy.run, b)) hreads, ?_⟩
  simp only [hmain]
  cases hkind : division.2 with
  | broken =>
    rw [hkind] at hstop
    exact hstop
  | matched =>
    rw [hkind] at hstop
    simp only [hprint] at hstop
    exact hstop
  | ended =>
    rw [hkind] at hstop
    simp only [hprint] at hstop
    exact hstop

/-- Bytes in front, read by `getString`. -/
theorem Ends.skip {res : List UInt8} {ending : StreamEnd} {outcome : RunOutcome} {kept line : List UInt8}
    {is_print : Bool} {division : List (ReadBy × UInt8) × Stop}
    (h : Ends res ending outcome kept line is_print division) (skipped : List UInt8) :
    Ends res ending (outcome.after (skipped.map fun c => (.getString, c))) kept line is_print
      ((skipped.map fun c => (.getString, c)) ++ division.1, division.2) := by
  obtain ⟨hreads, hstop⟩ := h
  refine ⟨congrArg (List.append _) hreads, ?_⟩
  simp only [mainOf_getString]
  exact hstop

/-- The end of the stream. -/
theorem ends_nil (res : List UInt8) (ending : StreamEnd) (seq : List Sequence) (line : List UInt8)
    (lines : List (List UInt8)) (is_print : Bool) :
    Ends res ending (runLoop ending seq line is_print lines []) (lines.flatten ++ line) line is_print
      (cut seq is_print false []) := by
  cases ending with
  | eof =>
    rw [runLoop]
    exact ⟨rfl, rfl, (List.append_nil _).symm⟩
  | ioException =>
    rw [runLoop]
    refine ⟨rfl, rfl, ?_⟩
    simp only [reduceCtorEq, if_false, List.append_nil]
    change _ = lines.flatten ++ line ++ []
    rw [List.append_nil]
    split
    · simp
    · rename_i hempty
      rw [List.length_eq_zero_iff.mp (not_not.mp hempty), List.append_nil]

theorem isPrinted_eq_true {is_print : Bool} {b : UInt8} :
    isPrinted is_print b = true ↔ isLineEnd b = false ∧ b ≠ ESC ∧ is_print = true := by
  rw [isPrinted, Bool.and_eq_true, Bool.and_eq_true, Bool.not_eq_true', decide_eq_true_eq, and_assoc]

/-- The loop at a byte that is not printed. -/
theorem runLoop_not_printed (ending : StreamEnd) (seq : List Sequence) (line : List UInt8)
    (lines : List (List UInt8)) {is_print : Bool} {b : UInt8} (h : isPrinted is_print b = false) (input : List UInt8) :
    runLoop ending seq line is_print lines (b :: input)
      = (runLoop ending seq (if isLineEnd b then [] else line) (nextPrint is_print b)
          (if isLineEnd b ∧ line ≠ [] then lines ++ [line] else lines) input).after [(.run, b)] := by
  rw [runLoop.eq_def, nextPrint]
  dsimp only
  by_cases hend : isLineEnd b = true
  · simp only [if_pos hend]
    cases line with
    | nil => simp only [List.length_nil, if_true, ne_eq, not_true_eq_false, and_false, if_false]
    | cons c line =>
      rw [if_neg (show ¬ (c :: line).length = 0 from Nat.succ_ne_zero _), if_pos ⟨hend, List.cons_ne_nil c line⟩]
  · have hlines : (if isLineEnd b = true ∧ line ≠ [] then lines ++ [line] else lines) = lines :=
      if_neg fun hcond => hend hcond.1
    rw [if_neg hend, if_neg hend, if_neg hend, hlines]
    by_cases hesc : b = ESC
    · rw [if_pos hesc, if_pos hesc]
    · rw [if_neg hesc, if_neg hesc]
      cases is_print with
      | true =>
        rw [isPrinted_eq_true.mpr ⟨Bool.eq_false_iff.mpr hend, hesc, rfl⟩] at h
        cases h
      | false =>
        rw [if_pos rfl, Bool.false_or]
        cases endsEscape b with
        | true => rfl
        | false => rfl

/-- A byte that is not printed. -/
theorem cut_not_printed {seq : List Sequence} {is_print : Bool} {b : UInt8} (h : isPrinted is_print b = false)
    (input : List UInt8) :
    cut seq is_print false (b :: input)
      = ((.run, b) :: (cut seq (nextPrint is_print b) false input).1,
        (cut seq (nextPrint is_print b) false input).2) := by
  rw [cut, if_neg Bool.false_ne_true, h, if_neg Bool.false_ne_true]

/-- The loop of `run` reads the stream as it is divided, as long as the expected response is not empty. -/
theorem runLoop_ends {id : JString} {res : List UInt8} (hres : res ≠ []) (ending : StreamEnd) (n : ℕ)
    {input : List UInt8} (hn : input.length ≤ n) {seq : List Sequence} {line : List UInt8}
    {lines : List (List UInt8)} (hseq : Watches id res hres seq (lines.flatten ++ line)) (is_print : Bool) :
    Ends res ending (runLoop ending seq line is_print lines input) (lines.flatten ++ line) line is_print
      (cut seq is_print false input) := by
  induction n generalizing input seq line lines is_print with
  | zero =>
    obtain rfl := List.length_eq_zero_iff.mp (Nat.le_zero.mp hn)
    exact ends_nil res ending seq line lines is_print
  | succ n ih =>
    cases input with
    | nil => exact ends_nil res ending seq line lines is_print
    | cons b input =>
      have hlength : input.length ≤ n := Nat.le_of_succ_le_succ hn
      cases hprinted : isPrinted is_print b with
      | false =>
        rw [runLoop_not_printed ending seq line lines hprinted, cut_not_printed hprinted]
        apply Ends.cons
        rw [hprinted, if_neg Bool.false_ne_true, if_neg Bool.false_ne_true]
        have hflatten : (if isLineEnd b ∧ line ≠ [] then lines ++ [line] else lines).flatten
            ++ (if isLineEnd b then [] else line) = lines.flatten ++ line := by
          by_cases hend : isLineEnd b = true
          · rw [if_pos hend, List.append_nil]
            cases line with
            | nil => rw [if_neg fun hcond => hcond.2 rfl, List.append_nil]
            | cons c line => rw [if_pos ⟨hend, List.cons_ne_nil c line⟩, List.flatten_concat]
          · rw [if_neg hend, if_neg fun hcond => hend hcond.1]
        rw [← hflatten]
        exact ih hlength (hflatten.symm ▸ hseq) _
      | true =>
        obtain ⟨hend, hesc, rfl⟩ := isPrinted_eq_true.mp hprinted
        have hnext : nextPrint true b = true := by
          rw [nextPrint, hend, if_neg Bool.false_ne_true, if_neg hesc, Bool.true_or]
        obtain ⟨seq', c, hput, hcases⟩ := hseq.put b
        rw [runLoop.eq_def, cut, if_neg Bool.false_ne_true, if_pos hprinted, hput]
        simp only [hend, Bool.false_eq_true, if_false, if_neg hesc, Bool.true_eq_false, hput]
        rcases hcases with ⟨rfl, htype, hsuffix⟩ | ⟨hseq', hcall⟩
        · -- The expected response is complete.
          simp only [if_pos htype]
          have hmain : printable true (mainOf [(ReadBy.run, b)]) = [b] := by
            change printable true [b] = [b]
            rw [printable, if_pos hprinted, printable]
          refine ⟨rfl, rfl, ?_, ?_⟩
          · rw [hmain]
            simp
          · rwa [hmain]
        · rw [List.append_assoc] at hseq'
          rcases hcall with rfl | ⟨k, rfl, htype⟩
          · apply Ends.cons
            rw [if_pos hprinted, hnext, hend, if_neg Bool.false_ne_true, if_pos hprinted, List.append_assoc]
            exact ih hlength hseq' true
          · -- A message text is complete, and the rest of its line is skipped.
            have hok : ¬ seq'[k + 1]?.elim [] Sequence.type = response_ok := by
              intro hok
              rw [hok] at htype
              exact absurd htype (by decide)
            have hmessage : seq'[k + 1]?.elim [] Sequence.type = response_warn
                ∨ seq'[k + 1]?.elim [] Sequence.type = response_info
                ∨ seq'[k + 1]?.elim [] Sequence.type = response_error
                ∨ seq'[k + 1]?.elim [] Sequence.type = response_syntax_error := by
              simp only [List.mem_cons, List.not_mem_nil, or_false] at htype
              tauto
            simp only [if_neg hok, if_pos hmessage]
            rw [Option.isSome_some, cut_skipping, ← List.singleton_append (l := List.map _ _),
              RunOutcome.after_append]
            apply Ends.cons
            apply Ends.skip
            rw [if_pos hprinted, hnext, hend, if_neg Bool.false_ne_true, if_pos hprinted, List.append_assoc]
            exact ih ((length_getString input).trans hlength) hseq' true

/-- The empty response: `run` stops with an exception at the first printed byte, if there is one. -/
theorem runLoop_empty (id : JString) (ending : StreamEnd) (input : List UInt8) (is_print : Bool) :
    (runLoop ending (newSeq id []) [] is_print [] input).lines = []
      ∧ (runLoop ending (newSeq id []) [] is_print [] input).reads = (cut (newSeq id []) is_print false input).1
      ∧ (∀ r ∈ (cut (newSeq id []) is_print false input).1, r.1 = .run)
      ∧ ((cut (newSeq id []) is_print false input).2 = .broken
          ∧ printable is_print (mainOf (cut (newSeq id []) is_print false input).1) ≠ []
        ∨ (cut (newSeq id []) is_print false input).2 = .ended
          ∧ printable is_print (mainOf (cut (newSeq id []) is_print false input).1) = []
          ∧ openLine [] is_print (mainOf (cut (newSeq id []) is_print false input).1) = []) := by
  induction input generalizing is_print with
  | nil =>
    cases ending with
    | eof =>
      rw [runLoop]
      exact ⟨rfl, rfl, nofun, .inr ⟨rfl, rfl, rfl⟩⟩
    | ioException =>
      rw [runLoop]
      exact ⟨rfl, rfl, nofun, .inr ⟨rfl, rfl, rfl⟩⟩
  | cons b input ih =>
    cases hprinted : isPrinted is_print b with
    | true =>
      have hput : Sequences.put (newSeq id []) b = .error .indexOutOfBounds := rfl
      obtain ⟨hend, hesc, rfl⟩ := isPrinted_eq_true.mp hprinted
      rw [runLoop.eq_def, cut, if_neg Bool.false_ne_true, if_pos hprinted, hput]
      simp only [hend, Bool.false_eq_true, if_false, if_neg hesc, Bool.true_eq_false, hput]
      refine ⟨trivial, trivial, fun r hr => by rw [List.mem_singleton.mp hr], .inl ⟨trivial, ?_⟩⟩
      change printable true [b] ≠ []
      rw [printable, if_pos hprinted]
      exact List.cons_ne_nil _ _
    | false =>
      obtain ⟨hlines, hreads, hall, hstop⟩ := ih (nextPrint is_print b)
      have hrun : runLoop ending (newSeq id []) [] is_print [] (b :: input)
          = (runLoop ending (newSeq id []) [] (nextPrint is_print b) [] input).after [(.run, b)] := by
        rw [runLoop_not_printed ending _ [] [] hprinted, ite_self, if_neg fun hcond => hcond.2 rfl]
      have hmain (m : List UInt8) : printable is_print (b :: m) = printable (nextPrint is_print b) m := by
        rw [printable, hprinted, if_neg Bool.false_ne_true]
      have hopen (m : List UInt8) : openLine [] is_print (b :: m) = openLine [] (nextPrint is_print b) m := by
        rw [openLine, hprinted, if_neg Bool.false_ne_true, ite_self]
      rw [hrun, cut_not_printed hprinted]
      refine ⟨hlines, congrArg (List.cons (ReadBy.run, b)) hreads, List.forall_mem_cons.mpr ⟨rfl, hall⟩, ?_⟩
      change (_ ∧ printable is_print (b :: mainOf _) ≠ []) ∨ (_ ∧ printable is_print (b :: mainOf _) = []
        ∧ openLine [] is_print (b :: mainOf _) = [])
      rw [hmain, hopen]
      exact hstop

/-- A division that comes to the end of the stream has all of its bytes. -/
theorem cut_ended {seq : List Sequence} {is_print skipping : Bool} {input : List UInt8}
    (h : (cut seq is_print skipping input).2 = .ended) : (cut seq is_print skipping input).1.map Prod.snd = input := by
  induction input generalizing seq is_print skipping with
  | nil => rfl
  | cons b input ih =>
    rw [cut] at h ⊢
    split at h
    · rename_i hskip
      rw [if_pos hskip]
      exact congrArg (List.cons b) (ih h)
    · rename_i hskip
      rw [if_neg hskip]
      split at h
      · rename_i hprinted
        rw [if_pos hprinted]
        cases hput : Sequences.put seq b with
        | error e =>
          rw [hput] at h
          cases h
        | ok r =>
          obtain ⟨seq', c⟩ := r
          rw [hput] at h
          rcases c with _ | _ | k
          · exact congrArg (List.cons b) (ih h)
          · cases h
          · exact congrArg (List.cons b) (ih h)
      · rename_i hprinted
        rw [if_neg hprinted]
        exact congrArg (List.cons b) (ih h)

theorem mainOf_of_all {reads : List (ReadBy × UInt8)} (h : ∀ r ∈ reads, r.1 = .run) :
    mainOf reads = reads.map Prod.snd := by
  induction reads with
  | nil => rfl
  | cons r reads ih =>
    rw [List.forall_mem_cons] at h
    rw [mainOf, List.filterMap_cons, if_pos h.1]
    exact congrArg (List.cons r.2) (ih h.2)

/-! ## Escape sequences in skipped rests -/

/-- What `run` prints of the division, beside what is wanted of it. -/
def Compares (is_print : Bool) (begun : Option ReadBy) (reads : List (ReadBy × UInt8)) : Prop :=
  (kept begun.isNone reads).Sublist (printable is_print (mainOf reads))
    ∧ (kept begun.isNone reads = printable is_print (mainOf reads) ↔ Unspoiled begun reads)

theorem isNone_nextEscape (begun : Option ReadBy) (r : ReadBy × UInt8) :
    (nextEscape begun r).isNone = nextPrint begun.isNone r.2 := by
  rw [nextEscape, nextPrint]
  cases hend : isLineEnd r.2 with
  | true => rw [if_pos rfl, if_pos rfl]
  | false =>
    rw [if_neg Bool.false_ne_true, if_neg Bool.false_ne_true]
    by_cases hesc : r.2 = ESC
    · rw [if_pos hesc, if_pos hesc, Option.isNone_some]
    · rw [if_neg hesc, if_neg hesc]
      cases endsEscape r.2 with
      | true => rw [if_pos rfl, Option.isNone_none, Bool.or_true]
      | false => rw [if_neg Bool.false_ne_true, Bool.or_false]

/-- `run` takes a byte for printable unless a sequence is open that it has seen the beginning of. -/
theorem nextPrint_iff {is_print : Bool} {begun : Option ReadBy} (h : is_print = true ↔ begun ≠ some .run)
    (b : UInt8) : nextPrint is_print b = true ↔ nextEscape begun (.run, b) ≠ some .run := by
  rw [nextPrint, nextEscape]
  dsimp only
  split_ifs with hend hesc hends
  · exact h
  · exact iff_of_false id fun hne => hne rfl
  · rw [hends, Bool.or_true]
    exact iff_of_true rfl nofun
  · rw [Bool.not_eq_true] at hends
    rw [hends, Bool.or_false]
    exact h

/-- A skipped byte. -/
theorem Compares.skip {begun : Option ReadBy} {b : UInt8} {reads : List (ReadBy × UInt8)}
    (h : Compares true (nextEscape begun (.getString, b)) reads) : Compares true begun ((.getString, b) :: reads) := by
  have hkept : kept begun.isNone ((.getString, b) :: reads)
      = kept (nextEscape begun (.getString, b)).isNone reads := by
    rw [kept, if_neg fun hcond => ReadBy.noConfusion hcond.1, isNone_nextEscape]
  rw [Compares, hkept]
  refine ⟨h.1, h.2.trans ?_⟩
  rw [Unspoiled]
  exact (and_iff_right nofun).symm

/-- A byte that `run` reads. -/
theorem Compares.cons {is_print : Bool} {begun : Option ReadBy} {b : UInt8} {reads : List (ReadBy × UInt8)}
    (hbegun : is_print = true ↔ begun ≠ some .run)
    (h : Compares (nextPrint is_print b) (nextEscape begun (.run, b)) reads) :
    Compares is_print begun ((.run, b) :: reads) := by
  rw [Compares, isNone_nextEscape] at h
  have hmain : mainOf ((.run, b) :: reads) = b :: mainOf reads := rfl
  rw [Compares, hmain, kept, printable, Unspoiled]
  dsimp only
  cases hprinted : isPrinted is_print b with
  | false =>
    -- what `run` does not print is not printable
    have hnot : isPrinted begun.isNone b = false := by
      rw [← Bool.not_eq_true, isPrinted_eq_true]
      rintro ⟨hend, hesc, hnone⟩
      rw [Option.isNone_iff_eq_none.mp hnone] at hbegun
      rw [isPrinted_eq_true.mpr ⟨hend, hesc, hbegun.mpr nofun⟩] at hprinted
      cases hprinted
    have hhead : (ReadBy.run = .run → isLineEnd b = false → b ≠ ESC → begun ≠ some .getString) := by
      rintro - hend hesc rfl
      rw [isPrinted_eq_true.mpr ⟨hend, hesc, hbegun.mpr (by decide)⟩] at hprinted
      cases hprinted
    rw [if_neg (by simp [hnot]), if_neg Bool.false_ne_true, and_iff_right hhead]
    exact h
  | true =>
    obtain ⟨hend, hesc, rfl⟩ := isPrinted_eq_true.mp hprinted
    rw [if_pos rfl]
    match hwho : begun with
    | some .run => exact absurd rfl (hbegun.mp rfl)
    | none =>
      rw [if_pos ⟨rfl, by rw [Option.isNone_none]; exact hprinted⟩, List.cons_sublist_cons, List.cons_inj_right]
      refine ⟨h.1, h.2.trans (and_iff_right ?_).symm⟩
      exact fun _ _ _ => nofun
    | some .getString =>
      -- an escape sequence of a skipped rest is open, and `run` prints one byte too many
      have hnot : ¬ (ReadBy.run = .run ∧ isPrinted (some ReadBy.getString).isNone b = true) := by
        rw [isPrinted_eq_true]
        exact fun hcond => absurd hcond.2.2.2 (by decide)
      rw [if_neg hnot]
      refine ⟨h.1.cons b, iff_of_false (fun heq => ?_) fun hcond => hcond.1 rfl hend hesc rfl⟩
      have hlength := h.1.length_le
      rw [heq, List.length_cons] at hlength
      omega

/-- The division of a stream: a rest is skipped only while `run` prints. -/
theorem compares_cut {seq : List Sequence} {is_print skipping : Bool} (input : List UInt8) {begun : Option ReadBy}
    (hskip : skipping = true → is_print = true) (hbegun : is_print = true ↔ begun ≠ some .run) :
    Compares is_print begun (cut seq is_print skipping input).1 := by
  have hnil : ∀ (is_print : Bool) (begun : Option ReadBy), Compares is_print begun [] := fun _ _ =>
    ⟨List.Sublist.refl _, iff_of_true rfl trivial⟩
  induction input generalizing seq is_print skipping begun with
  | nil => exact hnil is_print begun
  | cons b input ih =>
    rw [cut]
    cases skipping with
    | true =>
      obtain rfl := hskip rfl
      refine Compares.skip (ih (fun _ => rfl) ⟨fun _ => ?_, fun _ => rfl⟩)
      have hrun := hbegun.mp rfl
      rw [nextEscape]
      dsimp only
      split_ifs
      · exact hrun
      · decide
      · exact nofun
      · exact hrun
    | false =>
      rw [if_neg Bool.false_ne_true]
      have hnext := nextPrint_iff hbegun b
      cases hprinted : isPrinted is_print b with
      | false => exact Compares.cons hbegun (ih nofun hnext)
      | true =>
        obtain ⟨hend, hesc, rfl⟩ := isPrinted_eq_true.mp hprinted
        have hprint : nextPrint true b = true := by
          rw [nextPrint, hend, if_neg Bool.false_ne_true, if_neg hesc, Bool.true_or]
        rw [hprint] at hnext
        have hcons : ∀ {reads}, Compares true (nextEscape begun (.run, b)) reads →
            Compares true begun ((.run, b) :: reads) := by
          intro reads h
          refine Compares.cons hbegun ?_
          rwa [hprint]
        rw [if_pos rfl]
        rcases Sequences.put seq b with e | ⟨seq', _ | _ | k⟩
        · exact hcons (hnil _ _)
        · exact hcons (ih (fun _ => rfl) hnext)
        · exact hcons (hnil _ _)
        · exact hcons (ih (fun _ => rfl) hnext)

/-- The text that `run` prints is the one that is wanted exactly if no escape sequence reaches out of a skipped rest. -/
theorem kept_eq_iff (seq : List Sequence) (input : List UInt8) :
    kept true (cut seq true false input).1 = printable true (mainOf (cut seq true false input).1)
      ↔ Unspoiled none (cut seq true false input).1 := by
  have h : Compares true none (cut seq true false input).1 :=
    compares_cut input (fun _ => rfl) ⟨fun _ h => (by cases h), fun _ => rfl⟩
  exact h.2

theorem unspoiled_of_all {reads : List (ReadBy × UInt8)} (h : ∀ r ∈ reads, r.1 = .run) {begun : Option ReadBy}
    (hbegun : begun ≠ some .getString) : Unspoiled begun reads := by
  induction reads generalizing begun with
  | nil => trivial
  | cons r reads ih =>
    rw [List.forall_mem_cons] at h
    refine ⟨fun _ _ _ => hbegun, ih h.2 ?_⟩
    rw [nextEscape, h.1]
    split_ifs
    · exact hbegun
    · decide
    · exact nofun
    · exact hbegun

/-! ## When the result is right -/

/-- With an empty response it only matters whether a byte is printed. -/
theorem right_empty_iff (id : JString) (ending : StreamEnd) (input : List UInt8) :
    Right [] (run id [] ending input) ↔ Meets id [] ending input := by
  obtain ⟨hlines, hreads, hall, hstop⟩ := runLoop_empty id ending input true
  have hunspoiled : Unspoiled none (cut (newSeq id []) true false input).1 := unspoiled_of_all hall nofun
  have hkept := (kept_eq_iff (newSeq id []) input).mpr hunspoiled
  rw [Meets]
  rcases hstop with ⟨hbroken, hprinted⟩ | ⟨hended, hprinted, hopen⟩
  · simp only [hbroken, iff_false]
    intro h
    have hsame := h.lines
    rw [run, hlines, hreads, hkept] at hsame
    exact hprinted hsame.symm
  · simp only [hended]
    refine iff_of_true ⟨fun _ => List.nil_infix, ?_⟩ ?_
    · rw [run, hlines, hreads, hkept, hprinted]
      rfl
    · cases ending with
      | eof => exact ⟨.inl ⟨hopen, hunspoiled⟩, List.nil_infix⟩
      | ioException => exact hunspoiled

section outcome

variable {res : List UInt8} {outcome : RunOutcome} {reads : List (ReadBy × UInt8)}
  (hkept : kept true reads = printable true (mainOf reads) ↔ Unspoiled none reads)

include hkept

/-- An end at the expected response. -/
theorem right_matched_iff {line : List UInt8} {ending : StreamEnd}
    (h : Ends res ending outcome [] line true (reads, .matched)) :
    Right res outcome
      ↔ Unspoiled none reads ∧ ((∀ r ∈ reads, r.1 = .run) ∨ res <:+: printable true (reads.map Prod.snd)) := by
  obtain ⟨hreads, hret, hlines, hsuffix⟩ := h
  rw [List.nil_append] at hlines hsuffix
  constructor
  · intro h
    have hoccurred := h.occurred hret
    have hsame := h.lines
    rw [hreads] at hoccurred hsame
    exact ⟨hkept.mp (hsame.symm.trans hlines), .inr hoccurred⟩
  · rintro ⟨hunspoiled, h⟩
    refine ⟨fun _ => ?_, ?_⟩
    · rw [hreads]
      rcases h with hmain | hinfix
      · rw [← mainOf_of_all hmain]
        exact hsuffix.isInfix
      · exact hinfix
    · rw [hlines, hreads, hkept.mpr hunspoiled]

/-- An end by an exception. -/
theorem right_ioException_iff {line : List UInt8}
    (h : Ends res .ioException outcome [] line true (reads, .ended)) : Right res outcome ↔ Unspoiled none reads := by
  obtain ⟨hreads, hret, hlines⟩ := h
  simp only [reduceCtorEq, if_false, List.append_nil, List.nil_append] at hlines
  rw [← hkept]
  constructor
  · intro h
    have hsame := h.lines
    rw [hreads] at hsame
    exact hsame.symm.trans hlines
  · intro h
    refine ⟨fun htrue => ?_, ?_⟩
    · rw [hret] at htrue
      cases htrue
    · rw [hlines, hreads, h]

/-- An end at the end of the stream, where what is printed in the last line gets lost. -/
theorem right_eof_iff (h : Ends res .eof outcome [] [] true (reads, .ended)) :
    Right res outcome
      ↔ (openLine [] true (mainOf reads) = [] ∧ Unspoiled none reads ∨ MadeUp reads)
        ∧ res <:+: printable true (reads.map Prod.snd) := by
  obtain ⟨hreads, hret, hlines⟩ := h
  simp only [if_true, List.nil_append] at hlines
  have hsame : outcome.lines.flatten = kept true reads
      ↔ openLine [] true (mainOf reads) = [] ∧ Unspoiled none reads ∨ MadeUp reads := by
    rw [MadeUp, ← hkept]
    by_cases hopen : openLine [] true (mainOf reads) = []
    · rw [hopen, List.append_nil] at hlines
      rw [hlines]
      simp [hopen, eq_comm]
    · rw [← List.append_left_inj (openLine [] true (mainOf reads)), hlines]
      simp [hopen, eq_comm]
  rw [← hsame]
  constructor
  · intro h
    have hoccurred := h.occurred hret
    have hright := h.lines
    rw [hreads] at hoccurred hright
    exact ⟨hright, hoccurred⟩
  · rintro ⟨hright, hinfix⟩
    refine ⟨fun _ => ?_, ?_⟩
    · rwa [hreads]
    · rwa [hreads]

end outcome

end OrgLittle.Rcmd
