import OrgLittle.Lmsg.Store

/-!
# `org.little.mail.imap.command`: parameters and commands

The parameters that the parameter decoder builds, the command objects, how both are written, and the
`APPEND` command, whose object collects the literal after its command line. `LiteralParameter` and
`ChunkParameter` are only built in the decoder state `READ_LITERAL`, which the source never enters.
-/

namespace OrgLittle.Imap

open OrgLittle.Java OrgLittle.Lmsg

/-! ## Parameters -/

/-- `ImapCommandParameter` and its implementations. -/
inductive ImapCommandParameter
  | atom (value : JString)
  | number (value : ℤ) (s_value : JString)
  | nil
  | quotedString (value : JString)
  | openList
  | closeList
deriving DecidableEq

namespace ImapCommandParameter

/-- `toString`. -/
def toString : ImapCommandParameter → JString
  | atom value => value
  | number _ s_value => s_value
  | nil => "NIL".toList
  | quotedString value => '"' :: value ++ ['"']
  | openList => ['(']
  | closeList => [')']

/-- `equals`: numbers are compared by their value, not by their text. -/
def equals : ImapCommandParameter → ImapCommandParameter → Bool
  | atom value, atom other => value = other
  | number value _, number other _ => value = other
  | nil, nil => true
  | quotedString value, quotedString other => value = other
  | openList, openList => true
  | closeList, closeList => true
  | _, _ => false

/-- `write`: a number is written by its value. -/
def write : ImapCommandParameter → List UInt8
  | atom value => writeAscii value
  | number value _ => writeAscii (intToString value)
  | nil => writeAscii "NIL".toList
  | quotedString value => 34 :: writeAscii value ++ [34]
  | openList => [40]
  | closeList => [41]

/-- The loop of the static `write`; `last` is the parameter written before. -/
def writeFrom : Option ImapCommandParameter → List ImapCommandParameter → List UInt8
  | _, [] => []
  | last, p :: ps =>
    let space := last = none ∨ (last ≠ some openList ∧ p ≠ closeList)
    (if space then [SP] else []) ++ p.write ++ writeFrom (some p) ps

end ImapCommandParameter

/-- `new NilParameter()`, `new NumberParameter(..)` or `new AtomParameter(..)`, as `decodeAtom` chooses
for a text that is not empty. -/
def ImapCommandParameter.ofAtom (value : JString) : ImapCommandParameter :=
  if value = "NIL".toList then nil
  else
    match parseInt value with
    | some n => number n value
    | none => atom value

/-! ## Commands -/

/-- `ImapCommand`. The last two fields are those of `AppendCommand`: the literal bytes received so far,
whose number is the source's `point`, and `_size`. -/
structure ImapCommand where
  tag : JString
  command : JString
  parameters : List ImapCommandParameter
  buffer : Option (List UInt8)
  size : ℤ
deriving DecidableEq

/-- `ImapCommandBuilder.build`. The classes it chooses from differ only in `doProcess`, and `APPEND` also
in `isAppend` and `appendBuf`. -/
def ImapCommandBuilder.build (tag command : JString) (params : List ImapCommandParameter) :
    ImapCommand := ⟨tag, command, params, none, 0⟩

/-- `isAppend`: the builder made an `AppendCommand`. -/
def ImapCommand.isAppend (cmd : ImapCommand) : Bool := equalsIgnoreCase "APPEND".toList cmd.command

/-- `ImapCommand.write`. -/
def ImapCommand.write (cmd : ImapCommand) : List UInt8 :=
  writeAscii cmd.tag ++ [SP] ++ writeAscii cmd.command
    ++ ImapCommandParameter.writeFrom none cmd.parameters

/-! ## `APPEND` -/

/-- `EmptyResponse`; an untagged response has no tag. -/
structure EmptyResponse where
  tag : Option JString
  response : JString
deriving DecidableEq

/-- What the code outside the command answers: the parsers of mail texts, whether the session has a
store, and the folders in it. -/
structure SessionContext where
  hasStore : Bool
  parseEml : List UInt8 → Option (List (Option LMessage))
  parseX509 : LMessage → Option LMessage
  hasFolder : JString → Bool

/-- A session with a store, in which every text is a mail without messages. -/
def SessionContext.stub : SessionContext := ⟨true, fun _ => some [], some, fun _ => true⟩

/-- The text between the first and the last character, if these are `first` and `last`. (No parameter is
a single quotation mark, for which `substring` would fail.) -/
def stripped (arg : JString) (first last : Char) : Option JString :=
  if startsWith arg [first] ∧ endsWith arg [last] then some (arg.tail.dropLast) else none

namespace AppendCommand

/-- The response to a command line that cannot be processed. -/
def bad (cmd : ImapCommand) : EmptyResponse :=
  ⟨some cmd.tag, "BAD APPEND UNKNOWN COMMAND".toList⟩

/-- The literal size that `doProcess` reads: the last argument in braces after the first argument. A
text that is no number counts as zero. -/
def literalSize (parameters : List ImapCommandParameter) : Option ℤ :=
  ((parameters.drop 1).filterMap fun p => stripped p.toString '{' '}').getLast?.map fun size =>
    (parseInt size).getD 0

/-- What one call of `doProcess` answers and saves. -/
structure Processed where
  command : ImapCommand
  saved : List (JString × LMessage)
  result : Except JavaException (List EmptyResponse)

/-- `AppendCommand.doProcess`. The first call reads the size and allocates the buffer, the second one
stores the message. -/
def doProcess (ctx : SessionContext) (cmd : ImapCommand) : Processed :=
  match cmd.parameters with
  | [] => ⟨cmd, [], .ok [bad cmd]⟩
  | arg :: _ =>
    let folder_name := (stripped arg.toString '"' '"').getD arg.toString
    let cmd := { cmd with size := (literalSize cmd.parameters).getD cmd.size }
    if cmd.size = 0 then ⟨cmd, [], .ok [bad cmd]⟩
    else
      match cmd.buffer with
      | none =>
        if cmd.size < 0 then ⟨cmd, [], .error .negativeArraySize⟩
        else
          ⟨{ cmd with buffer := some [] }, [],
            .ok [⟨some ['+'], "Ready for literal data".toList⟩]⟩
      | some buffer =>
        match ctx.hasStore, ctx.hasFolder folder_name, ctx.parseEml buffer with
        | false, _, _ => ⟨cmd, [], .error .nullPointer⟩
        | true, true, some buf_message =>
          let msgs := buf_message.filterMap fun msg => msg.bind ctx.parseX509
          ⟨cmd, msgs.map fun msg => (folder_name, msg),
            .ok [⟨none, "3 EXISTS".toList⟩, ⟨none, "1 RECENT".toList⟩,
              ⟨some cmd.tag, "OK APPEND completed".toList⟩]⟩
        | true, _, _ => ⟨cmd, [], .ok [⟨some cmd.tag, "NO APPEND uncompleted".toList⟩]⟩

/-- The outcome of `appendBuf`. -/
structure Appended where
  command : ImapCommand
  rest : List UInt8
  result : Except JavaException Bool

/-- `AppendCommand.appendBuf`. The two bytes of the line end are skipped as soon as the literal is
complete, whether they have arrived or not. -/
def appendBuf (cmd : ImapCommand) (bytes : List UInt8) : Appended :=
  match cmd.buffer with
  | none => ⟨cmd, bytes, .ok false⟩
  | some buffer =>
    let sz := min (cmd.size.toNat - buffer.length) bytes.length
    let cmd := { cmd with buffer := some (buffer ++ bytes.take sz) }
    let rest := bytes.drop sz
    if buffer.length + sz = cmd.size.toNat then
      if 2 ≤ rest.length then ⟨cmd, rest.drop 2, .ok true⟩
      else ⟨cmd, rest, .error .indexOutOfBounds⟩
    else ⟨cmd, rest, .ok false⟩

end AppendCommand

end OrgLittle.Imap
