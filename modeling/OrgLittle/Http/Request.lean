import OrgLittle.Http.Digest
import OrgLittle.Lib.Effect

/-!
# `lHttpRequest`: the requests of one connection

netty delivers a request and its body as separate objects. `lHttpServerHandler` hands them all to the one `lHttpRequest`
of the connection: the request is authorised when it arrives, and the handlers for `POST` and `PUT` are called when the
last content has arrived. Between the two there is only the decoder of the body.

What netty decodes, what authentication answers and what an application does in its handlers are parameters (`Env`).
The log keeps what happened, for the statements.
-/

namespace OrgLittle.Http

open OrgLittle.Java OrgLittle.Lib

/-! ## What netty delivers -/

/-- `HttpRequest`. -/
structure HttpRequest where
  method : JString
  uri : JString
  headers : List (JString × JString)
deriving DecidableEq, Repr

/-- `HttpContent`; the last one is a `LastHttpContent`. -/
structure HttpContent where
  content : List UInt8
  isLast : Bool
deriving DecidableEq, Repr

/-- `HttpObject`. A `FullHttpRequest` is a request and the last content at once. -/
inductive HttpObject
  | request (request : HttpRequest)
  | content (chunk : HttpContent)
  | full (request : HttpRequest) (chunk : HttpContent)
deriving DecidableEq, Repr

/-- What the object has of a request. -/
def HttpObject.httpRequest? : HttpObject → Option HttpRequest
  | .request r => some r
  | .content _ => none
  | .full r _ => some r

/-- What a decoder finds in a body. Reading an attribute or a file can fail. -/
inductive InterfaceHttpData
  | attributeData (name : JString) (string : Option JString)
  | fileUpload (filename contentType : JString) (completed : Bool) (length : ℕ) (get : Option (List UInt8))
  | internal
deriving DecidableEq, Repr

/-- `java.net.URI`. An opaque one has no path. -/
structure URI where
  path : Option JString
  query : Option JString
deriving DecidableEq, Repr

/-- `ErrorDataDecoderException`, which is caught, and other exceptions. -/
inductive HttpException
  | errorDataDecoder
  | nullPointer
  | other
deriving DecidableEq, Repr

/-! ## State -/

/-- `lHttpBuf`. -/
structure LHttpBuf where
  name : JString
  mime : JString
  bin_buf : List UInt8
deriving DecidableEq, Repr

/-- What `getPath`, `getApp`, `getQuery` and `getBinBuffer` show. -/
structure View where
  path : Option JString
  app : Option JString
  app_arg : JString → Option JString
  bin_buffer : List LHttpBuf

/-- The methods that an application overrides. -/
inductive Handler
  | HttpGet
  | HttpPost
  | HttpPut
deriving DecidableEq, Repr

/-- What happens on a connection: a request arrives, `authParse` answers, a handler is called. -/
inductive Event
  | received (request : HttpRequest)
  | authParse (request : HttpRequest) (response : HttpAuthResponse)
  | handler (handler : Handler) (request : Option HttpRequest) (view : View)

/-- What `lHttpResponse` sends. -/
inductive Response
  | authRequired (response : HttpAuthResponse)
  | error (txt : JString)
  | ok (txt : JString)

/-- netty, the authentication object with states `A`, decoders of bodies with states `D`, and the application, whose
handlers answer and may call `clear`. -/
structure Env (A D : Type) where
  newURI : JString → Option URI
  isKeepAlive : HttpRequest → Bool
  authParse : A → HttpRequest → Except HttpException (Option HttpAuthResponse) × A
  newDecoder : HttpRequest → Except HttpException D
  offer : D → HttpContent → Except HttpException Unit × D
  read : D → List InterfaceHttpData × Except HttpException Unit × D
  destroy : D → Except HttpException Unit
  app : Handler → Option HttpRequest → View → Except HttpException Bool × Bool
  send : Bool → Response → Except HttpException Unit

/-- `lHttpRequest`. -/
structure LHttpRequest (A D : Type) where
  request : Option HttpRequest
  keepAlive : Bool
  decoder : Option D
  http_auth : A
  view : View
  log : List Event

variable {A D : Type}

/-- `new lHttpRequest()`. -/
def LHttpRequest.new (D : Type) (http_auth : A) : LHttpRequest A D where
  request := none
  keepAlive := false
  decoder := none
  http_auth := http_auth
  view := { path := none, app := none, app_arg := fun _ => none, bin_buffer := [] }
  log := []

/-! ## `setHttpReq` -/

namespace LHttpRequest

/-- A block of statements on an `lHttpRequest`. -/
abbrev Code (A D α : Type) := Block HttpException (LHttpRequest A D) α

/-- Keep an event. -/
def emit (event : Event) : Code A D Unit := Block.update fun s => { s with log := s.log ++ [event] }

/-- Change what the handlers see. -/
def setView (f : View → View) : Code A D Unit := Block.update fun s => { s with view := f s.view }

/-- `clear`. -/
def clear : Code A D Unit := Block.update fun s => { s with keepAlive := false, decoder := none }

/-- `clearContent`. -/
def clearContent (env : Env A D) : Code A D Unit := do
  Block.update fun s => { s with request := none }
  match (← get).decoder with
  | none => pure ()
  | some decoder => Block.call (env.destroy decoder)
  Block.update fun s => { s with decoder := none }

/-- The name at the end of a path. -/
def appOf (path : JString) : JString := (stringTokens ['/'] path).getLastD path

/-- `app_arg.put` for one part of a query. -/
def putField (app_arg : JString → Option JString) (p : JString) : JString → Option JString :=
  let tokens := stringTokens ['='] p
  HttpAuthDigest.put app_arg (tokens[0]?.getD []) (tokens[1]?.getD [])

/-- The loop over a query. -/
def putQuery (app_arg : JString → Option JString) (query : Option JString) : JString → Option JString :=
  match query with
  | none => app_arg
  | some query => (stringTokens ['&'] query).foldl putField app_arg

/-- `setHttpReq`. Without a path `new StringTokenizer` throws, and the `catch` is the one for a malformed address. -/
def setHttpReq (env : Env A D) (request : HttpRequest) : Code A D Bool := do
  clearContent env
  clear
  Block.update fun s => { s with request := some request, keepAlive := env.isKeepAlive request }
  match env.newURI request.uri with
  | none => do
    clear
    pure false
  | some uri => do
    setView fun v => { v with path := uri.path }
    match uri.path with
    | none => do
      clear
      pure false
    | some path => do
      setView fun v => { v with app := some (appOf path), app_arg := putQuery v.app_arg uri.query }
      pure true

/-! ## `processHttpRequest` -/

/-- `Auth`. An answer `null` is taken apart for the log of the server. -/
def Auth (env : Env A D) : Code A D (Option HttpAuthResponse) := do
  let s ← get
  match s.request with
  | none => pure none
  | some request => do
    Block.update fun s' => { s' with http_auth := (env.authParse s.http_auth request).2 }
    match ← Block.call (env.authParse s.http_auth request).1 with
    | none => Block.call (.error .nullPointer)
    | some response => do
      emit (.authParse request response)
      pure (some response)

/-- The calls of `response`. -/
def send (env : Env A D) (response : Response) : Code A D Unit := do
  Block.call (env.send (← get).keepAlive response)

/-- A handler of the application. -/
def callHandler (env : Env A D) (handler : Handler) : Code A D Bool := do
  let s ← get
  emit (.handler handler s.request s.view)
  if (env.app handler s.request s.view).2 then clear
  Block.call (env.app handler s.request s.view).1

/-- The answer where a handler did not process the request. -/
def orSendOk (env : Env A D) (handler : Code A D Bool) : Code A D Unit := do
  if (← handler) = false then send env (.ok " ".toList)

/-- `createPostRequestDecoder`. -/
def createPostRequestDecoder (env : Env A D) (request : HttpRequest) : Code A D Bool :=
  match env.newDecoder request with
  | .ok decoder => do
    Block.update fun s => { s with decoder := some decoder }
    pure true
  | .error .errorDataDecoder => pure false
  | .error e => Block.call (.error e)

/-- What `processHttpRequest` does for an authorised request. -/
def processMethod (env : Env A D) (request : HttpRequest) : Code A D Unit :=
  if request.method = "GET".toList then orSendOk env (callHandler env .HttpGet)
  else if request.method = "POST".toList ∨ request.method = "PUT".toList then do
    if (← createPostRequestDecoder env request) = false then
      send env (.error "createPostRequestDecoder==false".toList)
  else send env (.ok " ".toList)

/-- `processHttpRequest`. -/
def processHttpRequest (env : Env A D) (request : HttpRequest) : Code A D Unit := do
  emit (.received request)
  let _ ← setHttpReq env request
  match ← Auth env with
  | none => Block.call (.error .nullPointer)
  | some ret_auth =>
    if ret_auth.isAuth = false then send env (.authRequired ret_auth) else processMethod env request

/-! ## `addContent` -/

/-- `writeData`. -/
def writeData (v : View) : InterfaceHttpData → View
  | .attributeData name (some string) => { v with app_arg := HttpAuthDigest.put v.app_arg name string }
  | .attributeData _ none => v
  | .fileUpload filename contentType completed length get =>
    match get with
    | some bin_buf =>
      if completed ∧ length < 1000000 then
        { v with bin_buffer := v.bin_buffer ++ [⟨filename, contentType, bin_buf⟩] }
      else v
    | none => v
  | .internal => v

/-- `readDataByChunk`. The end of the data is an exception that is caught. -/
def readDataByChunk (env : Env A D) (decoder : D) : Code A D Unit := do
  Block.update fun s => { s with decoder := some (env.read decoder).2.2 }
  setView fun v => (env.read decoder).1.foldl writeData v
  Block.call (env.read decoder).2.1

/-- The handler for the last content. -/
def lastContent (env : Env A D) : Code A D Unit := do
  match (← get).request with
  | none => Block.call (.error .nullPointer)
  | some request => do
    orSendOk env
      (if request.method = "PUT".toList then callHandler env .HttpPut
      else if request.method = "POST".toList then callHandler env .HttpPost
      else pure false)
    clearContent env

/-- `addContent`. -/
def addContent (env : Env A D) (chunk : HttpContent) : Code A D ℤ := do
  match (← get).decoder with
  | none => pure (-1)
  | some decoder => do
    Block.update fun s => { s with decoder := some (env.offer decoder chunk).2 }
    match (env.offer decoder chunk).1 with
    | .error .errorDataDecoder => pure (-1)
    | .error e => Block.call (.error e)
    | .ok _ => do
      readDataByChunk env (env.offer decoder chunk).2
      if chunk.isLast then do
        lastContent env
        pure 0
      else pure 1

end LHttpRequest

/-! ## `lHttpServerHandler` -/

namespace LHttpServerHandler

open LHttpRequest

/-- `channelRead0`. -/
def channelRead0 (env : Env A D) : HttpObject → Code A D Unit
  | .request request => processHttpRequest env request
  | .content chunk => do
    let _ ← addContent env chunk
    pure ()
  | .full request chunk => do
    processHttpRequest env request
    let _ ← addContent env chunk
    pure ()

/-- `exceptionCaught`; an exception that it raises itself is only logged. -/
def exceptionCaught (env : Env A D) : Code A D Unit := clearContent env

/-- One object, with what netty does on an exception. -/
def receive (env : Env A D) (s : LHttpRequest A D) (msg : HttpObject) : LHttpRequest A D :=
  match (channelRead0 env msg).run.run s with
  | (.ok _, s') => s'
  | (.error _, s') => ((exceptionCaught env).run.run s').2

/-- The objects of a connection, in order. -/
def receiveAll (env : Env A D) (s : LHttpRequest A D) (msgs : List HttpObject) : LHttpRequest A D :=
  msgs.foldl (receive env) s

end LHttpServerHandler

/-! ## What one object can do -/

section steps

open LHttpRequest LHttpServerHandler

variable {env : Env A D} {request : HttpRequest} {chunk : HttpContent}

/-- What the handlers see when the address of a request has been read. -/
def uriView (env : Env A D) (request : HttpRequest) (v : View) : View :=
  match env.newURI request.uri with
  | none => v
  | some uri =>
    match uri.path with
    | none => { v with path := none }
    | some path => { v with path := some path, app := some (appOf path), app_arg := putQuery v.app_arg uri.query }

/-- What a content gives, where the decoder takes it. -/
def chunkData (env : Env A D) (decoder : D) (chunk : HttpContent) : List InterfaceHttpData :=
  match (env.offer decoder chunk).1 with
  | .ok _ => (env.read (env.offer decoder chunk).2).1
  | .error _ => []

/-- The decoder after a content. -/
def chunkDecoder (env : Env A D) (decoder : D) (chunk : HttpContent) : D :=
  match (env.offer decoder chunk).1 with
  | .ok _ => (env.read (env.offer decoder chunk).2).2.2
  | .error _ => (env.offer decoder chunk).2

/-- The decoder takes the last content. -/
def Completes (env : Env A D) (decoder : D) (chunk : HttpContent) : Prop :=
  chunk.isLast = true ∧ (env.offer decoder chunk).1.isOk = true

instance (env : Env A D) (decoder : D) (chunk : HttpContent) : Decidable (Completes env decoder chunk) :=
  inferInstanceAs (Decidable (_ ∧ _))

/-- The content raises an exception. -/
def Fails (env : Env A D) (decoder : D) (chunk : HttpContent) : Prop :=
  match (env.offer decoder chunk).1 with
  | .ok _ => (env.read (env.offer decoder chunk).2).2.1.isOk = false
  | .error e => e ≠ .errorDataDecoder

/-- The method of the request is one with a body. -/
def HasBody (request : HttpRequest) : Prop := request.method = "POST".toList ∨ request.method = "PUT".toList

/-- The decoder of the request before is released without an exception. -/
def Clears (env : Env A D) (s : LHttpRequest A D) : Prop :=
  ∀ decoder, s.decoder = some decoder → (env.destroy decoder).isOk = true

/-- A request that calls its handler or gets a decoder. -/
structure Accepts (env : Env A D) (s : LHttpRequest A D) (request : HttpRequest) : Prop where
  clears : Clears env s
  authorised : ∃ response, (env.authParse s.http_auth request).1 = .ok (some response) ∧ response.isAuth = true
  method : request.method = "GET".toList ∨ HasBody request ∧ (env.newDecoder request).isOk = true

/-- No content will call a handler. -/
def Quiet (s : LHttpRequest A D) : Prop := s.decoder = none ∨ s.request = none

/-- With a decoder and a request the state is not quiet. -/
theorem Quiet.elim {s : LHttpRequest A D} (h : Quiet s) {decoder : D} (hdecoder : s.decoder = some decoder)
    (hrequest : s.request = some request) : False := by
  rcases h with h | h
  · rw [h] at hdecoder
    cases hdecoder
  · rw [h] at hrequest
    cases hrequest

/-- What a request can do. -/
inductive Processed (env : Env A D) (request : HttpRequest) (s s' : LHttpRequest A D) : Prop
  | stopped (hnot : ¬ Accepts env s request) (events : List Event)
    (hevents : ∀ event ∈ events, ∃ response, event = .authParse request response)
    (hlog : s'.log = s.log ++ .received request :: events) (hquiet : Quiet s')
  | get (haccepts : Accepts env s request) (response : HttpAuthResponse) (hauth : response.isAuth = true)
    (hmethod : request.method = "GET".toList)
    (hlog : s'.log = s.log ++ [.received request, .authParse request response,
      .handler .HttpGet (some request) (uriView env request s.view)]) (hquiet : Quiet s')
  | waits (haccepts : Accepts env s request) (response : HttpAuthResponse) (hauth : response.isAuth = true)
    (hbody : HasBody request) (decoder : D) (hnew : env.newDecoder request = .ok decoder)
    (hlog : s'.log = s.log ++ [.received request, .authParse request response]) (hdecoder : s'.decoder = some decoder)
    (hrequest : s'.request = some request) (hview : s'.view = uriView env request s.view)

/-- What a content can do. -/
inductive Added (env : Env A D) (chunk : HttpContent) (s s' : LHttpRequest A D) : Prop
  | stopped (hfails : ∀ decoder request, s.decoder = some decoder → s.request = some request →
      HasBody request → Fails env decoder chunk) (hlog : s'.log = s.log) (hquiet : Quiet s')
  | waits (decoder : D) (hdecoder : s.decoder = some decoder) (htakes : ¬ Fails env decoder chunk)
    (hgoes : ¬ Completes env decoder chunk) (hlog : s'.log = s.log) (hrequest : s'.request = s.request)
    (hdecoder' : s'.decoder = some (chunkDecoder env decoder chunk))
    (hview : s'.view = (chunkData env decoder chunk).foldl writeData s.view)
  | handled (decoder : D) (hdecoder : s.decoder = some decoder) (htakes : ¬ Fails env decoder chunk)
    (hlast : Completes env decoder chunk) (handler : Handler) (request : HttpRequest)
    (hrequest : s.request = some request)
    (hlog : s'.log = s.log ++ [.handler handler (some request)
      ((chunkData env decoder chunk).foldl writeData s.view)]) (hquiet : Quiet s')

/-- `clearContent` drops the decoder and the request, unless the decoder throws. -/
theorem clearContent_spec (s : LHttpRequest A D) :
    Block.wp (clearContent env) (fun _ s' => Clears env s ∧ s' = { s with request := none, decoder := none })
      (fun _ s' => ¬ Clears env s ∧ s' = { s with request := none }) s := by
  rw [clearContent]
  simp only [Block.wp_bind, Block.wp_update, Block.wp_get, Clears]
  cases s.decoder with
  | none => simp
  | some decoder =>
    cases hdestroy : env.destroy decoder with
    | ok _ => simp [hdestroy, Except.isOk, Except.toBool]
    | error e => simp [hdestroy, Except.isOk, Except.toBool]

/-- `setHttpReq` begins a request with an empty body. -/
theorem setHttpReq_spec (s : LHttpRequest A D) :
    Block.wp (setHttpReq env request)
      (fun _ s' => Clears env s ∧ s'.request = some request ∧ s'.decoder = none ∧ s'.http_auth = s.http_auth
        ∧ s'.log = s.log ∧ s'.view = uriView env request s.view)
      (fun _ s' => ¬ Clears env s ∧ s'.log = s.log) s := by
  rw [setHttpReq, Block.wp_bind]
  apply Block.wp_mono (clearContent_spec s)
  · rintro - _ ⟨hclears, rfl⟩
    simp only [clear, setView, Block.wp_bind, Block.wp_update, uriView]
    cases env.newURI request.uri with
    | none => simp [hclears]
    | some uri =>
      simp only [Block.wp_bind, Block.wp_update]
      cases uri.path with
      | none => simp [hclears]
      | some path => simp [hclears]
  · rintro - _ ⟨hnot, rfl⟩
    exact ⟨hnot, rfl⟩

/-- Whatever `Auth` answers was given by the authorisation for this request. -/
theorem auth_spec {s : LHttpRequest A D} (hrequest : s.request = some request) :
    Block.wp (Auth env)
      (fun ret s' => s'.request = s.request ∧ s'.decoder = s.decoder ∧ s'.view = s.view
        ∧ (env.authParse s.http_auth request).1 = .ok ret
        ∧ s'.log = s.log ++ ret.toList.map (.authParse request))
      (fun _ s' => (∀ response, (env.authParse s.http_auth request).1 ≠ .ok (some response)) ∧ s'.log = s.log)
      s := by
  rw [Auth, Block.wp_bind, Block.wp_get, hrequest]
  simp only [Block.wp_bind, Block.wp_update, Block.wp_call]
  refine ⟨fun ret hret => ?_, fun e herror => ⟨fun response h => ?_, trivial⟩⟩
  · cases ret with
    | none => simp [hret]
    | some response => simp [emit, hrequest, hret]
  · rw [herror] at h
    cases h

theorem send_spec (response : Response) (s : LHttpRequest A D) :
    Block.wp (send env response) (fun _ s' => s' = s) (fun _ s' => s' = s) s := by
  rw [send, Block.wp_bind, Block.wp_get]
  simp

/-- A call of a handler is seen, and may take the decoder away. -/
theorem callHandler_spec (handler : Handler) (s : LHttpRequest A D) :
    Block.wp (callHandler env handler)
      (fun _ s' => (s'.decoder = s.decoder ∨ s'.decoder = none) ∧ s'.request = s.request
        ∧ s'.log = s.log ++ [.handler handler s.request s.view])
      (fun _ s' => s'.log = s.log ++ [.handler handler s.request s.view]) s := by
  rw [callHandler, Block.wp_bind, Block.wp_get]
  simp only [Block.wp_bind, emit, Block.wp_update]
  split_ifs
  · simp [clear]
  · simp

theorem orSendOk_spec {handler : Code A D Bool} {P Q : LHttpRequest A D → Prop} {s : LHttpRequest A D}
    (h : Block.wp handler (fun _ => P) (fun _ => Q) s) (hPQ : ∀ s', P s' → Q s') :
    Block.wp (orSendOk env handler) (fun _ => P) (fun _ => Q) s := by
  rw [orSendOk, Block.wp_bind]
  apply Block.wp_mono h
  · intro processed s' hP
    cases processed with
    | false =>
      apply Block.wp_mono (send_spec _ s')
      · rintro - _ rfl
        exact hP
      · rintro - _ rfl
        exact hPQ _ hP
    | true => exact Block.wp_pure.mpr hP
  · exact fun _ _ hQ => hQ

/-- An exception leaves a log, and what catches it a quiet object with the same log. -/
def After (P : LHttpRequest A D → Prop) (s : LHttpRequest A D) : Prop :=
  ∀ s' : LHttpRequest A D, s'.log = s.log → Quiet s' → P s'

/-- Behind the authorisation: a body is waited for, or the handler is called at once. -/
theorem processMethod_spec {s s₂ : LHttpRequest A D} {response : HttpAuthResponse} (hclears : Clears env s)
    (hresponse : (env.authParse s.http_auth request).1 = .ok (some response))
    (hauth : response.isAuth = true) (hrequest : s₂.request = some request) (hdecoder : s₂.decoder = none)
    (hview : s₂.view = uriView env request s.view)
    (hlog : s₂.log = s.log ++ [.received request, .authParse request response]) :
    Block.wp (processMethod env request) (fun _ => Processed env request s)
      (fun _ => After (Processed env request s)) s₂ := by
  -- without a handler and without a decoder nothing waits
  have hstopped (hnot : ¬ (request.method = "GET".toList
      ∨ HasBody request ∧ (env.newDecoder request).isOk = true)) (s' : LHttpRequest A D)
      (hlog' : s'.log = s₂.log) (hquiet : Quiet s') : Processed env request s s' :=
    .stopped (fun h => hnot h.method) [.authParse request response] (by simp) (by rw [hlog', hlog]) hquiet
  have haccepts (hmethod : request.method = "GET".toList
      ∨ HasBody request ∧ (env.newDecoder request).isOk = true) : Accepts env s request :=
    ⟨hclears, ⟨response, hresponse, hauth⟩, hmethod⟩
  rw [processMethod]
  split_ifs with hget hpost
  · -- the handler sees this request, and behind it there is no decoder
    have hget' : ∀ s' : LHttpRequest A D, s'.log = s₂.log ++ [.handler .HttpGet s₂.request s₂.view] →
        Quiet s' → Processed env request s s' := by
      intro s' hlog' hquiet
      rw [hrequest, hview, hlog, List.append_assoc] at hlog'
      exact .get (haccepts (.inl hget)) response hauth hget hlog' hquiet
    have hcall : Block.wp (orSendOk env (callHandler env .HttpGet))
        (fun _ s' => s'.decoder = none ∧ s'.log = s₂.log ++ [.handler .HttpGet s₂.request s₂.view])
        (fun _ s' => s'.log = s₂.log ++ [.handler .HttpGet s₂.request s₂.view]) s₂ := by
      refine orSendOk_spec ?_ fun _ h => h.2
      exact Block.wp_mono (callHandler_spec .HttpGet s₂)
        (fun _ _ h => ⟨h.1.elim (fun hd => hd.trans hdecoder) id, h.2.2⟩) fun _ _ h => h
    apply Block.wp_mono hcall
    · rintro - s' ⟨hdecoder', hlog'⟩
      exact hget' s' hlog' (.inl hdecoder')
    · intro e s₃ hlog₃ s' hlog'
      exact hget' s' (hlog'.trans hlog₃)
  · rw [createPostRequestDecoder, Block.wp_bind]
    cases hnew : env.newDecoder request with
    | ok decoder =>
      simp only [Block.wp_bind, Block.wp_update, Block.wp_pure]
      exact .waits (haccepts (.inr ⟨hpost, by rw [hnew]; rfl⟩)) response hauth hpost decoder hnew hlog rfl hrequest
        hview
    | error e =>
      have hnot : ¬ (request.method = "GET".toList ∨ HasBody request ∧ (env.newDecoder request).isOk = true) := by
        rintro (h | ⟨-, h⟩)
        · exact hget h
        · rw [hnew] at h
          cases h
      cases e with
      | errorDataDecoder =>
        apply Block.wp_mono (send_spec _ s₂)
        · rintro - _ rfl
          exact hstopped hnot _ rfl (.inl hdecoder)
        · rintro - _ rfl
          exact hstopped hnot
      | nullPointer => exact Block.wp_call_error (hstopped hnot)
      | other => exact Block.wp_call_error (hstopped hnot)
  · have hnot : ¬ (request.method = "GET".toList ∨ HasBody request ∧ (env.newDecoder request).isOk = true) :=
      fun h => h.elim hget fun h => hpost h.1
    apply Block.wp_mono (send_spec _ s₂)
    · rintro - _ rfl
      exact hstopped hnot _ rfl (.inl hdecoder)
    · rintro - _ rfl
      exact hstopped hnot

/-- All branches of a request. -/
theorem processHttpRequest_spec (s : LHttpRequest A D) :
    Block.wp (processHttpRequest env request) (fun _ => Processed env request s)
      (fun _ => After (Processed env request s)) s := by
  rw [processHttpRequest]
  simp only [Block.wp_bind, emit, Block.wp_update]
  apply Block.wp_mono (setHttpReq_spec _)
  · rintro - s₁ ⟨hclears, hrequest, hdecoder, hauth₁, hlog, hview⟩
    rw [Block.wp_bind]
    apply Block.wp_mono (auth_spec hrequest)
    · rintro ret s₂ ⟨hrequest₂, hdecoder₂, hview₂, hret, hlog₂⟩
      rw [hrequest] at hrequest₂
      rw [hdecoder] at hdecoder₂
      rw [hview] at hview₂
      rw [hauth₁] at hret
      rw [hlog, List.append_assoc] at hlog₂
      -- No handler is reached without an authorisation, whichever way the request is refused.
      have hstopped (hnot : ∀ response, ret = some response → response.isAuth = false) (s' : LHttpRequest A D)
          (hlog' : s'.log = s₂.log) (hquiet : Quiet s') : Processed env request s s' := by
        refine .stopped (fun h => ?_) (ret.toList.map (.authParse request)) (by simp)
          (by rw [hlog', hlog₂]; rfl) hquiet
        obtain ⟨response, hresponse, hisAuth⟩ := h.authorised
        rw [hnot response (Except.ok.inj (hret.symm.trans hresponse))] at hisAuth
        cases hisAuth
      cases ret with
      | none => exact Block.wp_call_error (hstopped fun _ h => by cases h)
      | some response =>
        dsimp only
        split_ifs with hauth
        · have hnot : ∀ r, some response = some r → r.isAuth = false := by
            rintro _ ⟨⟩
            exact hauth
          apply Block.wp_mono (send_spec _ s₂)
          · rintro - _ rfl
            exact hstopped hnot _ rfl (.inl hdecoder₂)
          · rintro - _ rfl
            exact hstopped hnot
        · exact processMethod_spec hclears hret (by simpa using hauth) hrequest₂ hdecoder₂ hview₂ hlog₂
    · rintro e s₂ ⟨herror, hlog₂⟩ s' hlog' hquiet
      rw [hlog₂, hlog] at hlog'
      rw [hauth₁] at herror
      refine .stopped (fun h => ?_) [] (by simp) hlog' hquiet
      obtain ⟨response, hresponse, -⟩ := h.authorised
      exact herror response hresponse
  · rintro e s₁ ⟨hnot, hlog⟩ s' hlog' hquiet
    rw [hlog] at hlog'
    exact .stopped (fun h => hnot h.clears) [] (by simp) hlog' hquiet

/-- The log after the last content: a handler is called for a method with a body. -/
def CalledBy (s s' : LHttpRequest A D) : Prop :=
  (∀ request, s.request = some request → ¬ HasBody request) ∧ s'.log = s.log
    ∨ ∃ handler request, s.request = some request ∧ s'.log = s.log ++ [.handler handler (some request) s.view]

/-- The last piece of a body calls the handler, with the body that has been collected. -/
theorem lastContent_spec (s : LHttpRequest A D) :
    Block.wp (lastContent env) (fun _ s' => Quiet s' ∧ CalledBy s s') (fun _ => CalledBy s) s := by
  rw [lastContent, Block.wp_bind, Block.wp_get]
  cases hrequest : s.request with
  | none => exact Block.wp_call_error (.inl ⟨by simp [hrequest], rfl⟩)
  | some request =>
    have hhandler (handler : Handler) :
        Block.wp (callHandler env handler) (fun _ => CalledBy s) (fun _ => CalledBy s) s := by
      apply Block.wp_mono (callHandler_spec handler s)
      · rintro - s' ⟨-, -, hlog⟩
        exact .inr ⟨handler, request, hrequest, by rw [hlog, hrequest]⟩
      · intro e s' hlog
        exact .inr ⟨handler, request, hrequest, by rw [hlog, hrequest]⟩
    have hcall : Block.wp
        (if request.method = "PUT".toList then callHandler env .HttpPut
          else if request.method = "POST".toList then callHandler env .HttpPost
          else pure false) (fun _ => CalledBy s) (fun _ => CalledBy s) s := by
      split_ifs with hput hpost
      · exact hhandler .HttpPut
      · exact hhandler .HttpPost
      · refine Block.wp_pure.mpr (.inl ⟨fun r hr h => ?_, rfl⟩)
        obtain rfl := Option.some_inj.mp (hrequest.symm.trans hr)
        exact h.elim hpost hput
    rw [Block.wp_bind]
    apply Block.wp_mono (orSendOk_spec hcall fun _ h => h)
    · intro _ s₁ hcalled
      apply Block.wp_mono (clearContent_spec s₁)
      · rintro - _ ⟨-, rfl⟩
        exact ⟨.inl rfl, hcalled⟩
      · rintro - _ ⟨-, rfl⟩
        exact hcalled
    · exact fun _ _ h => h

/-- All branches of a piece of a body. -/
theorem addContent_spec (s : LHttpRequest A D) :
    Block.wp (addContent env chunk) (fun _ => Added env chunk s) (fun _ => After (Added env chunk s)) s := by
  rw [addContent, Block.wp_bind, Block.wp_get]
  cases hdecoder : s.decoder with
  | none => exact Block.wp_pure.mpr (.stopped (by simp [hdecoder]) rfl (.inl hdecoder))
  | some decoder =>
    -- Every call of the library that fails, but for `errorDataDecoder`, leaves the block without an answer.
    have hstopped (hfails : Fails env decoder chunk) (s' : LHttpRequest A D) (hlog : s'.log = s.log)
        (hquiet : Quiet s') : Added env chunk s s' := by
      refine .stopped (fun d request hd _ _ => ?_) hlog hquiet
      rwa [← Option.some_inj.mp (hdecoder.symm.trans hd)]
    simp only [Block.wp_bind, Block.wp_update]
    cases hoffer : (env.offer decoder chunk).1 with
    | error e =>
      have hgoes : ¬ Completes env decoder chunk := fun h => by simpa [hoffer, Except.isOk, Except.toBool] using h.2
      have hfails : Fails env decoder chunk ↔ e ≠ .errorDataDecoder := by rw [Fails, hoffer]
      cases e with
      | errorDataDecoder =>
        refine Block.wp_pure.mpr (.waits decoder hdecoder (fun h => hfails.mp h rfl) hgoes rfl rfl ?_ ?_)
        · rw [chunkDecoder, hoffer]
        · rw [chunkData, hoffer]
          rfl
      | nullPointer => exact Block.wp_call_error (hstopped (hfails.mpr fun h => by cases h))
      | other => exact Block.wp_call_error (hstopped (hfails.mpr fun h => by cases h))
    | ok _ =>
      have hfails : Fails env decoder chunk ↔ (env.read (env.offer decoder chunk).2).2.1.isOk = false := by
        rw [Fails, hoffer]
      simp only [readDataByChunk, setView, Block.wp_bind, Block.wp_update, Block.wp_call]
      refine ⟨fun _ hread => ?_, fun _ hread => hstopped (hfails.mpr (by rw [hread]; rfl))⟩
      have htakes : ¬ Fails env decoder chunk := by
        rw [hfails, hread]
        exact Bool.noConfusion
      have hdata : (env.read (env.offer decoder chunk).2).1 = chunkData env decoder chunk := by
        rw [chunkData, hoffer]
      have hnext : (env.read (env.offer decoder chunk).2).2.2 = chunkDecoder env decoder chunk := by
        rw [chunkDecoder, hoffer]
      rw [hdata, hnext]
      split_ifs with hlast
      · -- With the last piece the handler is called; whether it answers or throws, what follows is the same.
        have hadded {s' : LHttpRequest A D} (hquiet : Quiet s')
            (hcalled : CalledBy { s with
              decoder := some (chunkDecoder env decoder chunk)
              view := (chunkData env decoder chunk).foldl writeData s.view } s') : Added env chunk s s' := by
          rcases hcalled with ⟨hbody, hlog⟩ | ⟨handler, request, hrequest, hlog⟩
          · exact .stopped (fun _ request _ hrequest h => absurd h (hbody request hrequest)) hlog hquiet
          · exact .handled decoder hdecoder htakes ⟨hlast, by rw [hoffer]; rfl⟩ handler request hrequest hlog hquiet
        rw [Block.wp_bind]
        apply Block.wp_mono (lastContent_spec _)
        · intro _ s' h
          exact Block.wp_pure.mpr (hadded h.1 h.2)
        · intro e s₁ hcalled s' hlog hquiet
          refine hadded hquiet ?_
          rw [CalledBy, hlog]
          exact hcalled
      · exact Block.wp_pure.mpr (.waits decoder hdecoder htakes (fun h => hlast h.1) rfl rfl rfl rfl)

theorem exceptionCaught_spec (env : Env A D) (s : LHttpRequest A D) :
    ((exceptionCaught env).run.run s).2.log = s.log ∧ Quiet ((exceptionCaught env).run.run s).2 := by
  have h : Block.wp (clearContent env) (fun _ s' => s'.log = s.log ∧ Quiet s')
      (fun _ s' => s'.log = s.log ∧ Quiet s') s := by
    apply Block.wp_mono (clearContent_spec s)
    · rintro - _ ⟨-, rfl⟩
      exact ⟨rfl, .inl rfl⟩
    · rintro - _ ⟨-, rfl⟩
      exact ⟨rfl, .inr rfl⟩
  revert h
  unfold Block.wp exceptionCaught
  rcases (clearContent env).run.run s with ⟨_ | _, s'⟩
  · exact id
  · exact id

/-- An object that raises an exception leaves what its handling establishes. -/
theorem receive_spec {P : LHttpRequest A D → Prop} {msg : HttpObject} {s : LHttpRequest A D}
    (h : Block.wp (channelRead0 env msg) (fun _ => P) (fun _ => After P) s) : P (receive env s msg) := by
  revert h
  unfold Block.wp receive
  rcases (channelRead0 env msg).run.run s with ⟨_ | _, s'⟩
  · intro hafter
    obtain ⟨hlog, hquiet⟩ := exceptionCaught_spec env s'
    exact hafter _ hlog hquiet
  · exact id

/-- One request. -/
theorem receive_request (s : LHttpRequest A D) : Processed env request s (receive env s (.request request)) :=
  receive_spec (processHttpRequest_spec s)

/-- One piece of a body. -/
theorem receive_content (s : LHttpRequest A D) : Added env chunk s (receive env s (.content chunk)) := by
  apply receive_spec
  rw [channelRead0, Block.wp_bind]
  exact Block.wp_mono (addContent_spec s) (fun _ _ h => Block.wp_pure.mpr h) fun _ _ h => h

/-- A `FullHttpRequest` is a request and then a content. -/
theorem receive_full (env : Env A D) (request : HttpRequest) (chunk : HttpContent) (s : LHttpRequest A D) :
    ∃ s₁, Processed env request s s₁ ∧ Added env chunk s₁ (receive env s (.full request chunk)) := by
  apply receive_spec (P := fun s' => ∃ s₁, Processed env request s s₁ ∧ Added env chunk s₁ s')
  rw [channelRead0, Block.wp_bind]
  apply Block.wp_mono (processHttpRequest_spec s)
  · intro _ s₁ hprocessed
    rw [Block.wp_bind]
    apply Block.wp_mono (addContent_spec s₁)
    · exact fun _ s' h => Block.wp_pure.mpr ⟨s₁, hprocessed, h⟩
    · exact fun _ _ h s' hlog hquiet => ⟨s₁, hprocessed, h s' hlog hquiet⟩
  · intro e s₁ hafter s' hlog hquiet
    exact ⟨s', hafter s' hlog hquiet, .stopped (fun _ _ hd hr _ => (hquiet.elim hd hr).elim) rfl hquiet⟩

end steps

end OrgLittle.Http
