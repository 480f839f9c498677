import OrgLittle.Java.LetterCase

/-!
# Messages of the queues, and `ufpsParser`

The parser goes through the events of a stream reader up to the `Body` of the message and keeps the texts of
the header elements. The router needs the addresses in `To`.
-/

namespace OrgLittle.Mq

open OrgLittle.Java

/-- A message of a queue, as far as the stream programs look at it: its data. -/
structure MqMsg where
  data : List UInt8
deriving DecidableEq

/-- The events of a stream reader. `failure` is an `XMLStreamException`, after which there are no more. -/
inductive StaxEvent
  | startElement (localPart : JString)
  | characters (text : JString) (isWhiteSpace : Bool)
  | other
  | failure
deriving DecidableEq

/-- The reader of a message: its events after the start of the document. `none` if the data of the message or the
reader cannot be had. -/
abbrev StaxReader := MqMsg → Option (List StaxEvent)

/-- The result of a parse: the return code, `true` for `RET_OK`, and the addresses of the message. -/
structure Parsed where
  isOk : Bool
  tos : List JString
deriving DecidableEq

namespace UfpsParser

/-- `def.H_BODY`. -/
def H_BODY : JString := "Body".toList

/-- `def.H_NAME_TO`. -/
def H_NAME_TO : JString := "To".toList

/-- `set`, for the addresses. -/
def set (tos : List JString) (element : Option JString) (data : JString) : List JString :=
  match element with
  | some element => if equalsIgnoreCase element H_NAME_TO then tos ++ [data] else tos
  | none => tos

/-- The loop of `parse`. At the body one more event is read before it ends. -/
def parse (tos : List JString) (current : Option JString) : List StaxEvent → Parsed
  | [] => ⟨true, tos⟩
  | .failure :: _ => ⟨false, tos⟩
  | .startElement name :: events =>
    if equalsIgnoreCase name H_BODY then ⟨events.head? ≠ some .failure, tos⟩
    else parse tos (some name) events
  | .characters text isWhiteSpace :: events =>
    parse (if isWhiteSpace then tos else set tos current text) current events
  | .other :: events => parse tos current events

end UfpsParser

end OrgLittle.Mq
