import OrgLittle.Imap.ParameterDecoder
import OrgLittle.Lib.StreamDecoder

/-!
# `ImapCommandDecoder`

One call of `decode` reads a tag, a command name and parameters, as far as the unread bytes go, and
resumes there in the next call. After an `APPEND` command line it hands all bytes to the command object
until its literal is complete. The command handler runs between two calls: it may change the object that
`READ_APPEND` refers to, so its call belongs to the step (`imapDecoder`).
-/

namespace OrgLittle.Imap

open OrgLittle.Java OrgLittle.Lib

/-- `ImapCommandDecoder.State`. -/
inductive CommandState
  | READ_TAG
  | READ_COMMAND
  | READ_PARAMTERS
  | READ_APPEND
deriving DecidableEq

/-- The fields of `ImapCommandDecoder`, with those of its `builder`. The atom decoder clears itself before
each use and keeps nothing. -/
structure ImapCommandDecoder where
  currentState : CommandState
  tag : JString
  command : JString
  params : List ImapCommandParameter
  paramDecoder : ImapParameterDecoder
  request : Option ImapCommand
deriving DecidableEq

namespace ImapCommandDecoder

/-- `resetNow`. -/
def resetNow : ImapCommandDecoder := ⟨.READ_TAG, [], [], [], .reset false, none⟩

/-- The loop of `READ_PARAMTERS`. Every parameter takes at least one byte, so the number of unread bytes
and one more is enough fuel. -/
def readParameters : ℕ → ImapCommandDecoder → List UInt8 →
    ImapCommandDecoder × List UInt8 × Except JavaException Unit
  | 0, s, bytes => (s, bytes, .ok ())
  | fuel + 1, s, bytes =>
    let n := s.paramDecoder.next bytes
    let s := { s with paramDecoder := n.decoder }
    match n.result with
    | .error e => (s, n.rest, .error e)
    | .ok none => (s, n.rest, .ok ())
    | .ok (some param) => readParameters fuel { s with params := s.params ++ [param] } n.rest

/-- The outcome of one call of `decode`. -/
abbrev Decoded := Outcome ImapCommandDecoder UInt8 ImapCommand JavaException

/-- `decode` from `READ_PARAMTERS` on. -/
def decodeParameters (s : ImapCommandDecoder) (bytes : List UInt8) : Decoded :=
  match readParameters (bytes.length + 1) s bytes with
  | (s, rest, .error e) => .fault e s rest
  | (s, rest, .ok _) =>
    if s.paramDecoder.currentState = .Ended then
      let request := ImapCommandBuilder.build s.tag s.command s.params
      if request.isAppend then
        .emitted request { s with currentState := .READ_APPEND, request := some request } rest
      else .emitted request resetNow rest
    else .starved s rest

/-- `decode` from `READ_COMMAND` on. -/
def decodeCommand (s : ImapCommandDecoder) (bytes : List UInt8) : Decoded :=
  match AtomDecoder.parse bytes with
  | .error e => .fault e s bytes
  | .ok none => .starved s bytes
  | .ok (some (atom, rest)) =>
    decodeParameters { s with command := atom, currentState := .READ_PARAMTERS } rest

/-- `decode` from `READ_TAG` on. -/
def decodeTag (s : ImapCommandDecoder) (bytes : List UInt8) : Decoded :=
  match AtomDecoder.parse bytes with
  | .error e => .fault e s bytes
  | .ok none => .starved s bytes
  | .ok (some (atom, rest)) =>
    let s := { s with tag := atom }
    if rest.head? = some SP then decodeCommand { s with currentState := .READ_COMMAND } (rest.drop 1)
    else .fault .corruptedFrame s rest

/-- `decode` in `READ_APPEND`. -/
def decodeAppend (s : ImapCommandDecoder) (bytes : List UInt8) : Decoded :=
  match s.request with
  | none => .starved s bytes
  | some request =>
    let a := AppendCommand.appendBuf request bytes
    match a.result with
    | .error e => .fault e { s with request := some a.command } a.rest
    | .ok true => .emitted a.command resetNow a.rest
    | .ok false => .starved { s with request := some a.command } a.rest

/-- `decode`. -/
def decode (s : ImapCommandDecoder) (bytes : List UInt8) : Decoded :=
  match s.currentState with
  | .READ_TAG => decodeTag s bytes
  | .READ_COMMAND => decodeCommand s bytes
  | .READ_PARAMTERS => decodeParameters s bytes
  | .READ_APPEND => decodeAppend s bytes

/-- The decoder after the handler has processed the command it emitted. It refers to the object only
after an `APPEND` command line. -/
def handled (ctx : SessionContext) (s : ImapCommandDecoder) : ImapCommandDecoder :=
  { s with request := s.request.map fun cmd => (AppendCommand.doProcess ctx cmd).command }

end ImapCommandDecoder

/-- The decoder and the command handler behind it. -/
def imapDecoder (ctx : SessionContext) :
    StreamDecoder ImapCommandDecoder UInt8 ImapCommand JavaException where
  decode s bytes :=
    match s.decode bytes with
    | .starved s rest => .starved s rest
    | .emitted cmd s rest => .emitted cmd (s.handled ctx) rest
    | .fault e s rest => .fault e s rest
  nothingRead := .decoderException

section Decode

variable {ctx : SessionContext} {s s' : ImapCommandDecoder} {x rest : List UInt8}

theorem imapDecoder_starved : (imapDecoder ctx).decode s x = .starved s' rest
    ↔ s.decode x = .starved s' rest := by
  simp only [imapDecoder]
  cases s.decode x <;> simp

theorem imapDecoder_emitted {cmd : ImapCommand} : (imapDecoder ctx).decode s x = .emitted cmd s' rest
    ↔ ∃ s₁ : ImapCommandDecoder, s₁.handled ctx = s' ∧ s.decode x = .emitted cmd s₁ rest := by
  simp only [imapDecoder]
  cases s.decode x with
  | emitted o s₁ rest₁ =>
    simp only [Outcome.emitted.injEq]
    constructor
    · rintro ⟨rfl, rfl, rfl⟩
      exact ⟨s₁, rfl, rfl, rfl, rfl⟩
    · rintro ⟨_, rfl, rfl, rfl, rfl⟩
      exact ⟨rfl, rfl, rfl⟩
  | _ => simp

theorem imapDecoder_fault {e : JavaException} : (imapDecoder ctx).decode s x = .fault e s' rest
    ↔ s.decode x = .fault e s' rest := by
  simp only [imapDecoder]
  cases s.decode x <;> simp

end Decode

/-- The commands emitted for a stream that arrives in chunks on a new connection. -/
def emitted (ctx : SessionContext) (chunks : List (List UInt8)) : List ImapCommand :=
  messages ((imapDecoder ctx).channel.outputs (.resetNow, []) chunks)

end OrgLittle.Imap
