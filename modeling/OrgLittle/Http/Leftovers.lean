import OrgLittle.Http.Request

/-!
# What a request finds of the requests before it

`setHttpReq` sets the path and the arguments of a request and clears its decoder. It never empties `app_arg` and
`bin_buffer`, and an address that cannot be read leaves the path as it was. So a history leaves what its requests have
set last, and all their uploads; `requests_independent_iff` says which requests do not show a difference between two
histories.
-/

namespace OrgLittle.Http

open OrgLittle.Java OrgLittle.Lib LHttpRequest LHttpServerHandler

variable {A D : Type}

/-! ## What a request sets itself -/

/-- What a request sets of what its handler sees. -/
structure Own where
  path : Option (Option JString)
  app : Option JString
  app_arg : JString → Option JString
  bin_buffer : List LHttpBuf

namespace Own

/-- What the handler sees, over what is left from before. -/
def onto (own : Own) (v : View) : View where
  path := own.path.getD v.path
  app := own.app.or v.app
  app_arg := fun key => (own.app_arg key).or (v.app_arg key)
  bin_buffer := v.bin_buffer ++ own.bin_buffer

/-- With one more piece of data of the body. -/
def add (own : Own) : InterfaceHttpData → Own
  | .attributeData name (some string) => { own with app_arg := HttpAuthDigest.put own.app_arg name string }
  | .attributeData _ none => own
  | .fileUpload filename contentType completed length get =>
    match get with
    | some bin_buf =>
      if completed ∧ length < 1000000 then
        { own with bin_buffer := own.bin_buffer ++ [⟨filename, contentType, bin_buf⟩] }
      else own
    | none => own
  | .internal => own

/-- What the address sets. -/
def ofUri (env : Env A D) (request : HttpRequest) : Own :=
  match env.newURI request.uri with
  | none => { path := none, app := none, app_arg := fun _ => none, bin_buffer := [] }
  | some uri =>
    match uri.path with
    | none => { path := some none, app := none, app_arg := fun _ => none, bin_buffer := [] }
    | some path =>
      { path := some (some path), app := some (appOf path), app_arg := putQuery (fun _ => none) uri.query,
        bin_buffer := [] }

/-- The data that is read from a body until a handler is called. -/
def bodyData (env : Env A D) (decoder : D) : List HttpContent → List InterfaceHttpData
  | [] => []
  | chunk :: chunks =>
    chunkData env decoder chunk
      ++ if Completes env decoder chunk then [] else bodyData env (chunkDecoder env decoder chunk) chunks

/-- What a request with its body sets. -/
def ofRequest (env : Env A D) (request : HttpRequest) (chunks : List HttpContent) : Own :=
  if request.method = "GET".toList then ofUri env request
  else
    match env.newDecoder request with
    | .ok decoder => (bodyData env decoder chunks).foldl add (ofUri env request)
    | .error _ => ofUri env request

/-- Nothing set. -/
def blank : Own := { path := none, app := none, app_arg := fun _ => none, bin_buffer := [] }

/-- What is set by one thing after another: the last path, application and arguments, and all uploads. -/
def after (own left : Own) : Own where
  path := own.path.or left.path
  app := own.app.or left.app
  app_arg := fun key => (own.app_arg key).or (left.app_arg key)
  bin_buffer := left.bin_buffer ++ own.bin_buffer

/-- What a content sets, if there is a decoder for it. -/
def ofChunk (env : Env A D) (decoder : Option D) (chunk : HttpContent) : Own :=
  match decoder with
  | none => blank
  | some decoder => (chunkData env decoder chunk).foldl add blank

/-- A request does not show a difference between what two histories have set: what it does not set itself is the same
in both, and so are all uploads. A path that was never set is `null`. -/
structure Hides (own left₁ left₂ : Own) : Prop where
  path : own.path = none → left₁.path.getD none = left₂.path.getD none
  app : own.app = none → left₁.app = left₂.app
  app_arg : ∀ key, own.app_arg key = none → left₁.app_arg key = left₂.app_arg key
  bin_buffer : left₁.bin_buffer = left₂.bin_buffer

/-- The object of a new connection shows what was set since. -/
theorem onto_new_eq_iff {own left₁ left₂ : Own} (http_auth : A) :
    own.onto (left₁.onto (LHttpRequest.new D http_auth).view)
      = own.onto (left₂.onto (LHttpRequest.new D http_auth).view) ↔ own.Hides left₁ left₂ := by
  have hor {α : Type} (o : Option α) (a b : Option α) : o.or a = o.or b ↔ (o = none → a = b) := by
    cases o <;> simp
  have hgetD (o : Option (Option JString)) (a b : Option JString) :
      o.getD a = o.getD b ↔ (o = none → a = b) := by
    cases o <;> simp
  simp only [onto, View.mk.injEq, hgetD, funext_iff, hor, List.append_left_inj, LHttpRequest.new, Option.or_none,
    List.nil_append]
  exact ⟨fun ⟨h₁, h₂, h₃, h₄⟩ => ⟨h₁, h₂, h₃, h₄⟩, fun h => ⟨h.path, h.app, h.app_arg, h.bin_buffer⟩⟩

/-- A request without anything of its own leaves what is there. -/
theorem blank_onto (v : View) : blank.onto v = v := by
  simp [blank, onto]

/-- One layer over another. -/
theorem after_onto (own left : Own) (v : View) : (own.after left).onto v = own.onto (left.onto v) := by
  simp only [after, onto, Option.or_assoc, List.append_assoc, View.mk.injEq, and_true]
  cases own.path <;> rfl

/-- A value of the request's own hides the one that is left. -/
theorem put_or (own left : JString → Option JString) (key value : JString) :
    HttpAuthDigest.put (fun k => (own k).or (left k)) key value
      = fun k => (HttpAuthDigest.put own key value k).or (left k) := by
  funext k
  by_cases hk : k = key
  · subst hk
    simp [HttpAuthDigest.put]
  · simp [HttpAuthDigest.put, Function.update_of_ne hk]

/-- The parameters of the query hide those that are left. -/
theorem putQuery_or (left : JString → Option JString) (query : Option JString) :
    putQuery left query = fun key => (putQuery (fun _ => none) query key).or (left key) := by
  cases query with
  | none => rfl
  | some query =>
    have hfold (parts : List JString) (own : JString → Option JString) :
        parts.foldl putField (fun key => (own key).or (left key))
          = fun key => (parts.foldl putField own key).or (left key) := by
      induction parts generalizing own with
      | nil => rfl
      | cons p parts ih =>
        rw [List.foldl_cons, List.foldl_cons, ← ih, putField, put_or]
        rfl
    exact hfold _ fun _ => none

/-- What the URI writes is the request's own. -/
theorem ofUri_onto (env : Env A D) (request : HttpRequest) (v : View) :
    (ofUri env request).onto v = uriView env request v := by
  rw [ofUri, uriView]
  cases env.newURI request.uri with
  | none => simp [onto]
  | some uri =>
    obtain ⟨_ | path, query⟩ := uri
    · simp [onto]
    · simp [onto, putQuery_or v.app_arg]

/-- What a part of the body writes is the request's own. -/
theorem add_onto (own : Own) (data : InterfaceHttpData) (v : View) :
    (own.add data).onto v = writeData (own.onto v) data := by
  cases data with
  | attributeData name string =>
    cases string with
    | none => rfl
    | some string => simp only [add, onto, writeData, put_or]
  | fileUpload filename contentType completed length get =>
    cases get with
    | none => rfl
    | some bin_buf =>
      simp only [add, writeData]
      split_ifs
      · simp [onto]
      · rfl
  | internal => rfl

/-- So is what all parts write. -/
theorem foldl_add_onto (own : Own) (data : List InterfaceHttpData) (v : View) :
    (data.foldl add own).onto v = data.foldl writeData (own.onto v) := by
  induction data generalizing own with
  | nil => rfl
  | cons d data ih => rw [List.foldl_cons, List.foldl_cons, ih, add_onto]

end Own

/-! ## What a history leaves -/

/-- Decoders are released without an exception. -/
def Releases (env : Env A D) : Prop := ∀ decoder, (env.destroy decoder).isOk = true

/-- The authentication accepts a request. -/
def authorised (env : Env A D) (http_auth : A) (request : HttpRequest) : Bool :=
  match (env.authParse http_auth request).1 with
  | .ok (some response) => response.isAuth
  | _ => false

instance (request : HttpRequest) : Decidable (HasBody request) := inferInstanceAs (Decidable (_ ∨ _))

/-- The decoder for the body of a request, if there is one. -/
def bodyDecoder (env : Env A D) (request : HttpRequest) : Option D :=
  if HasBody request then (env.newDecoder request).toOption else none

/-- The decoder that waits for the body of a request. -/
def opens (env : Env A D) (http_auth : A) (request : HttpRequest) : Option D :=
  if authorised env http_auth request then bodyDecoder env request else none

/-- The decoder that goes on behind a content. -/
def goesOn (env : Env A D) (chunk : HttpContent) (decoder : D) : Option D :=
  match (env.offer decoder chunk).1 with
  | .error .errorDataDecoder => some (env.offer decoder chunk).2
  | .error _ => none
  | .ok _ =>
    if (env.read (env.offer decoder chunk).2).2.1.isOk = true ∧ chunk.isLast = false then
      some (env.read (env.offer decoder chunk).2).2.2
    else none

/-- What a connection has between two objects, besides what the handlers see. -/
structure Reading (A D : Type) where
  http_auth : A
  decoder : Option D

/-- The next object. -/
def Reading.next (env : Env A D) (c : Reading A D) : HttpObject → Reading A D
  | .request request => ⟨(env.authParse c.http_auth request).2, opens env c.http_auth request⟩
  | .content chunk => ⟨c.http_auth, c.decoder.bind (goesOn env chunk)⟩
  | .full request chunk =>
    ⟨(env.authParse c.http_auth request).2, (opens env c.http_auth request).bind (goesOn env chunk)⟩

namespace Own

/-- What an object sets. -/
def ofObject (env : Env A D) (c : Reading A D) : HttpObject → Own
  | .request request => ofUri env request
  | .content chunk => ofChunk env c.decoder chunk
  | .full request chunk => (ofChunk env (opens env c.http_auth request) chunk).after (ofUri env request)

/-- What a history sets. -/
def ofHistory (env : Env A D) (c : Reading A D) : List HttpObject → Own
  | [] => blank
  | msg :: msgs => (ofHistory env (c.next env msg) msgs).after (ofObject env c msg)

/-- So is what a chunk writes. -/
theorem ofChunk_onto (env : Env A D) (decoder : D) (chunk : HttpContent) (v : View) :
    (ofChunk env (some decoder) chunk).onto v = (chunkData env decoder chunk).foldl writeData v := by
  rw [ofChunk, foldl_add_onto, blank_onto]

end Own

section leaves

variable {env : Env A D} {request : HttpRequest} {chunk : HttpContent}

/-- Only the request and its decoder have changed. -/
def SameInside (s s' : LHttpRequest A D) : Prop := s'.http_auth = s.http_auth ∧ s'.view = s.view

/-- What an object leaves. -/
def Leaves (http_auth : A) (decoder : Option D) (view : View) (s' : LHttpRequest A D) : Prop :=
  s'.http_auth = http_auth ∧ s'.decoder = decoder ∧ s'.view = view

/-- What an object leaves that raises an exception, which closes the decoder. -/
def Breaks (http_auth : A) (decoder : Option D) (view : View) (s' : LHttpRequest A D) : Prop :=
  s'.http_auth = http_auth ∧ decoder = none ∧ s'.view = view

/-- Where buffers are released, everything is cleared. -/
theorem clears_of_releases (h : Releases env) (s : LHttpRequest A D) : Clears env s := fun decoder _ => h decoder

/-- `clearContent` ends without an exception. -/
theorem clearContent_releases (h : Releases env) (s : LHttpRequest A D) {E : HttpException → LHttpRequest A D → Prop} :
    Block.wp (clearContent env) (fun _ s' => s' = { s with request := none, decoder := none }) E s := by
  apply Block.wp_mono (clearContent_spec s)
  · exact fun _ _ hs => hs.2
  · exact fun _ _ hs => absurd (clears_of_releases h s) hs.1

/-- An exception clears the request. -/
theorem exceptionCaught_releases (h : Releases env) (s : LHttpRequest A D) :
    ((exceptionCaught env).run.run s).2 = { s with request := none, decoder := none } := by
  have hclear := clearContent_releases h s (E := fun _ _ => False)
  revert hclear
  unfold Block.wp exceptionCaught
  rcases (clearContent env).run.run s with ⟨_ | _, s'⟩
  · exact False.elim
  · exact id

/-- What a message leaves is what its reading leaves. -/
theorem receive_leaves (h : Releases env) {msg : HttpObject} {s : LHttpRequest A D} {http_auth : A}
    {decoder : Option D} {view : View}
    (hread : Block.wp (channelRead0 env msg) (fun _ => Leaves http_auth decoder view)
      (fun _ => Breaks http_auth decoder view) s) : Leaves http_auth decoder view (receive env s msg) := by
  revert hread
  unfold Block.wp receive
  rcases (channelRead0 env msg).run.run s with ⟨_ | _, s'⟩
  · rintro ⟨hauth, hdecoder, hview⟩
    show Leaves http_auth decoder view ((exceptionCaught env).run.run s').2
    rw [exceptionCaught_releases h]
    exact ⟨hauth, hdecoder.symm, hview⟩
  · exact id

/-- A handler looks at the request and leaves it as it is. -/
theorem callHandler_inside (handler : Handler) (s : LHttpRequest A D) :
    Block.wp (callHandler env handler) (fun _ s' => SameInside s s' ∧ (s.decoder = none → s'.decoder = none))
      (fun _ => SameInside s) s := by
  rw [callHandler, Block.wp_bind, Block.wp_get]
  simp only [Block.wp_bind, emit, Block.wp_update]
  split_ifs
  · simp [clear, SameInside]
  · simp [SameInside]

/-- The method decides whether a decoder is made. -/
theorem processMethod_leaves {s : LHttpRequest A D} (hdecoder : s.decoder = none) :
    Block.wp (processMethod env request) (fun _ => Leaves s.http_auth (bodyDecoder env request) s.view)
      (fun _ => Breaks s.http_auth (bodyDecoder env request) s.view) s := by
  rw [processMethod]
  split_ifs with hget hpost
  · have hnone : bodyDecoder env request = none := by
      refine if_neg fun hbody => ?_
      rw [HasBody, hget] at hbody
      exact absurd hbody (by decide)
    rw [hnone]
    have hcall : Block.wp (orSendOk env (callHandler env .HttpGet))
        (fun _ s' => SameInside s s' ∧ s'.decoder = none) (fun _ s' => SameInside s s') s := by
      refine orSendOk_spec ?_ fun _ h => h.1
      exact Block.wp_mono (callHandler_inside .HttpGet s) (fun _ _ h => ⟨h.1, h.2 hdecoder⟩) fun _ _ h => h
    exact Block.wp_mono hcall (fun _ _ h => ⟨h.1.1, h.2, h.1.2⟩) fun _ _ h => ⟨h.1, rfl, h.2⟩
  · have hbody : bodyDecoder env request = (env.newDecoder request).toOption := if_pos hpost
    rw [hbody, createPostRequestDecoder, Block.wp_bind]
    cases env.newDecoder request with
    | ok decoder =>
      simp only [Block.wp_bind, Block.wp_update, Block.wp_pure]
      exact ⟨rfl, rfl, rfl⟩
    | error e =>
      cases e with
      | errorDataDecoder =>
        apply Block.wp_mono (send_spec _ s)
        · rintro - _ rfl
          exact ⟨rfl, hdecoder, rfl⟩
        · rintro - _ rfl
          exact ⟨rfl, rfl, rfl⟩
      | nullPointer => exact Block.wp_call_error ⟨rfl, rfl, rfl⟩
      | other => exact Block.wp_call_error ⟨rfl, rfl, rfl⟩
  · have hnone : bodyDecoder env request = none := if_neg hpost
    rw [hnone]
    apply Block.wp_mono (send_spec _ s)
    · rintro - _ rfl
      exact ⟨rfl, hdecoder, rfl⟩
    · rintro - _ rfl
      exact ⟨rfl, rfl, rfl⟩

/-- The authorisation writes nothing of the request. -/
theorem auth_leaves {s : LHttpRequest A D} (hrequest : s.request = some request) :
    Block.wp (Auth env)
      (fun ret s' => (env.authParse s.http_auth request).1 = .ok ret
        ∧ Leaves (env.authParse s.http_auth request).2 s.decoder s.view s')
      (fun _ s' => authorised env s.http_auth request = false
        ∧ Leaves (env.authParse s.http_auth request).2 s.decoder s.view s') s := by
  rw [Auth, Block.wp_bind, Block.wp_get, hrequest]
  simp only [Block.wp_bind, Block.wp_update, Block.wp_call]
  refine ⟨fun ret hret => ?_, fun e herror => ⟨by rw [authorised, herror], rfl, rfl, rfl⟩⟩
  cases ret with
  | none => exact Block.wp_call_error ⟨by rw [authorised, hret], rfl, rfl, rfl⟩
  | some response => simp [emit, Leaves, hret]

/-- The head of a request leaves its URI and perhaps a decoder. -/
theorem processHttpRequest_leaves (h : Releases env) (s : LHttpRequest A D) :
    Block.wp (processHttpRequest env request)
      (fun _ => Leaves (env.authParse s.http_auth request).2 (opens env s.http_auth request)
        (uriView env request s.view))
      (fun _ => Breaks (env.authParse s.http_auth request).2 (opens env s.http_auth request)
        (uriView env request s.view)) s := by
  rw [processHttpRequest]
  simp only [Block.wp_bind, emit, Block.wp_update]
  apply Block.wp_mono (setHttpReq_spec _)
  · rintro - s₁ ⟨-, hrequest, hdecoder, hauth₁, -, hview⟩
    rw [Block.wp_bind]
    apply Block.wp_mono (auth_leaves hrequest)
    · rintro ret s₂ ⟨hret, hauth₂, hdecoder₂, hview₂⟩
      rw [hauth₁] at hret hauth₂
      rw [hdecoder] at hdecoder₂
      rw [hview] at hview₂
      dsimp only at hret hauth₂ hview₂
      -- a request that is not accepted opens nothing
      have hclosed (hnot : authorised env s.http_auth request = false) : opens env s.http_auth request = none := by
        rw [opens, hnot, if_neg Bool.false_ne_true]
      cases ret with
      | none => exact Block.wp_call_error ⟨hauth₂, hclosed (by rw [authorised, hret]), hview₂⟩
      | some response =>
        dsimp only
        split_ifs with hauth
        · have hnone := hclosed (by rw [authorised, hret]; exact hauth)
          apply Block.wp_mono (send_spec _ s₂)
          · rintro - _ rfl
            exact ⟨hauth₂, hdecoder₂.trans hnone.symm, hview₂⟩
          · rintro - _ rfl
            exact ⟨hauth₂, hnone, hview₂⟩
        · have hopens : opens env s.http_auth request = bodyDecoder env request := by
            rw [opens, authorised, hret]
            exact if_pos (by simpa using hauth)
          rw [hopens, ← hauth₂, ← hview₂]
          exact processMethod_leaves hdecoder₂
    · rintro e s₂ ⟨hnot, hauth₂, hdecoder₂, hview₂⟩
      rw [hauth₁] at hnot hauth₂
      exact ⟨hauth₂, by rw [opens, hnot, if_neg Bool.false_ne_true], hview₂.trans hview⟩
  · rintro e s₁ ⟨hnot, -⟩
    exact absurd (clears_of_releases h _) hnot

/-- The last chunk releases the decoder. -/
theorem lastContent_inside (h : Releases env) (s : LHttpRequest A D) :
    Block.wp (lastContent env) (fun _ s' => SameInside s s' ∧ s'.decoder = none) (fun _ => SameInside s) s := by
  rw [lastContent, Block.wp_bind, Block.wp_get]
  cases s.request with
  | none => exact Block.wp_call_error ⟨rfl, rfl⟩
  | some request =>
    have hhandler (handler : Handler) :
        Block.wp (callHandler env handler) (fun _ => SameInside s) (fun _ => SameInside s) s :=
      Block.wp_mono (callHandler_inside handler s) (fun _ _ h => h.1) fun _ _ h => h
    have hcall : Block.wp
        (if request.method = "PUT".toList then callHandler env .HttpPut
          else if request.method = "POST".toList then callHandler env .HttpPost
          else pure false) (fun _ => SameInside s) (fun _ => SameInside s) s := by
      split_ifs
      · exact hhandler .HttpPut
      · exact hhandler .HttpPost
      · exact Block.wp_pure.mpr ⟨rfl, rfl⟩
    rw [Block.wp_bind]
    apply Block.wp_mono (orSendOk_spec hcall fun _ h => h)
    · intro _ s₁ hsame
      apply Block.wp_mono (clearContent_releases h s₁ (E := fun _ _ => False))
      · rintro - _ rfl
        exact ⟨hsame, rfl⟩
      · exact fun _ _ h => h.elim
    · exact fun _ _ h => h

/-- A chunk leaves what it adds to the body. -/
theorem addContent_leaves (h : Releases env) (s : LHttpRequest A D) :
    Block.wp (addContent env chunk)
      (fun _ => Leaves s.http_auth (s.decoder.bind (goesOn env chunk)) ((Own.ofChunk env s.decoder chunk).onto s.view))
      (fun _ => Breaks s.http_auth (s.decoder.bind (goesOn env chunk)) ((Own.ofChunk env s.decoder chunk).onto s.view))
      s := by
  rw [addContent, Block.wp_bind, Block.wp_get]
  cases hdecoder : s.decoder with
  | none => exact Block.wp_pure.mpr ⟨rfl, hdecoder, (Own.blank_onto _).symm⟩
  | some decoder =>
    rw [Option.bind_some, goesOn, Own.ofChunk_onto, chunkData]
    simp only [Block.wp_bind, Block.wp_update]
    cases (env.offer decoder chunk).1 with
    | error e =>
      cases e with
      | errorDataDecoder => exact Block.wp_pure.mpr ⟨rfl, rfl, rfl⟩
      | nullPointer => exact Block.wp_call_error ⟨rfl, rfl, rfl⟩
      | other => exact Block.wp_call_error ⟨rfl, rfl, rfl⟩
    | ok _ =>
      simp only [readDataByChunk, setView, Block.wp_bind, Block.wp_update, Block.wp_call]
      refine ⟨fun _ hread => ?_, fun _ hread => ⟨rfl, by rw [hread]; rfl, rfl⟩⟩
      rw [hread]
      cases hlast : chunk.isLast with
      | true =>
        rw [if_pos rfl, if_neg (by simp), Block.wp_bind]
        apply Block.wp_mono (lastContent_inside h _)
        · intro _ s' hs
          exact Block.wp_pure.mpr ⟨hs.1.1, hs.2, hs.1.2⟩
        · exact fun _ s' hs => ⟨hs.1, rfl, hs.2⟩
      | false =>
        rw [if_neg Bool.false_ne_true]
        exact Block.wp_pure.mpr ⟨rfl, (if_pos ⟨rfl, rfl⟩).symm, rfl⟩

/-- The object of a connection has this decoder and this authentication object. -/
def Reading.Fits (c : Reading A D) (s : LHttpRequest A D) : Prop := s.http_auth = c.http_auth ∧ s.decoder = c.decoder

/-- What one object leaves. -/
theorem Reading.Fits.receive (h : Releases env) {c : Reading A D} {s : LHttpRequest A D} (hc : c.Fits s)
    (msg : HttpObject) :
    (c.next env msg).Fits (LHttpServerHandler.receive env s msg)
      ∧ (LHttpServerHandler.receive env s msg).view = (Own.ofObject env c msg).onto s.view := by
  suffices Leaves (c.next env msg).http_auth (c.next env msg).decoder ((Own.ofObject env c msg).onto s.view)
      (LHttpServerHandler.receive env s msg) from ⟨⟨this.1, this.2.1⟩, this.2.2⟩
  obtain ⟨hauth, hdecoder⟩ := hc
  refine receive_leaves h ?_
  cases msg with
  | request request =>
    rw [Own.ofObject, Own.ofUri_onto, Reading.next, ← hauth]
    exact processHttpRequest_leaves h s
  | content chunk =>
    rw [channelRead0, Block.wp_bind, Own.ofObject, Reading.next, ← hauth, ← hdecoder]
    exact Block.wp_mono (addContent_leaves h s) (fun _ _ h => Block.wp_pure.mpr h) fun _ _ h => h
  | full request chunk =>
    rw [channelRead0, Block.wp_bind, Own.ofObject, Own.after_onto, Own.ofUri_onto, Reading.next, ← hauth]
    apply Block.wp_mono (processHttpRequest_leaves h s)
    · rintro - s₁ ⟨hauth₁, hdecoder₁, hview₁⟩
      rw [← hauth₁, ← hdecoder₁, ← hview₁, Block.wp_bind]
      exact Block.wp_mono (addContent_leaves h s₁) (fun _ _ h => Block.wp_pure.mpr h) fun _ _ h => h
    · rintro e s₁ ⟨hauth₁, hnone, hview₁⟩
      refine ⟨hauth₁, ?_, ?_⟩
      · dsimp only
        rw [hnone, Option.bind_none]
      · rw [hnone, Own.ofChunk, Own.blank_onto]
        exact hview₁

/-- What a history leaves. -/
theorem Reading.Fits.receiveAll (h : Releases env) (msgs : List HttpObject) {c : Reading A D} {s : LHttpRequest A D}
    (hc : c.Fits s) :
    (msgs.foldl (Reading.next env) c).Fits (LHttpServerHandler.receiveAll env s msgs)
      ∧ (LHttpServerHandler.receiveAll env s msgs).view = (Own.ofHistory env c msgs).onto s.view := by
  induction msgs generalizing c s with
  | nil => exact ⟨hc, (Own.blank_onto s.view).symm⟩
  | cons msg msgs ih =>
    obtain ⟨hfits, hview⟩ := hc.receive h msg
    obtain ⟨hfits', hview'⟩ := ih hfits
    refine ⟨hfits', hview'.trans ?_⟩
    rw [hview, Own.ofHistory, Own.after_onto]

end leaves

/-! ## One request after others -/

/-- A request with its body, as chunks or at once. -/
inductive Next
  | chunked (request : HttpRequest) (chunks : List HttpContent)
  | full (request : HttpRequest) (chunk : HttpContent)

namespace Next

/-- The request. -/
def request : Next → HttpRequest
  | .chunked r _ => r
  | .full r _ => r

/-- Its body. -/
def chunks : Next → List HttpContent
  | .chunked _ chunks => chunks
  | .full _ chunk => [chunk]

/-- The objects that netty delivers. -/
def objects : Next → List HttpObject
  | .chunked request chunks => .request request :: chunks.map .content
  | .full request chunk => [.full request chunk]

end Next

/-- What a handler sees. -/
def Event.view? : Event → Option View
  | .handler _ _ view => some view
  | _ => none

/-- What the handlers see that are called for a request. -/
def views (env : Env A D) (s : LHttpRequest A D) (next : Next) : List View :=
  (receiveAll env { s with log := [] } next.objects).log.filterMap Event.view?

/-- A body that comes to its end: no content raises an exception, up to a last one that the decoder takes. -/
def Ends (env : Env A D) (decoder : D) : List HttpContent → Prop
  | [] => False
  | chunk :: chunks => ¬ Fails env decoder chunk
    ∧ (Completes env decoder chunk ∨ Ends env (chunkDecoder env decoder chunk) chunks)

/-- A request for which a handler is called: it is authorised, and its method is `GET`, or it has a body that comes to
its end. -/
def Handled (env : Env A D) (http_auth : A) (next : Next) : Prop :=
  authorised env http_auth next.request = true
    ∧ (next.request.method = "GET".toList
      ∨ HasBody next.request ∧ ∃ decoder, env.newDecoder next.request = .ok decoder ∧ Ends env decoder next.chunks)

/-- Contents, one after the other. -/
def Chain (env : Env A D) : List HttpContent → LHttpRequest A D → LHttpRequest A D → Prop
  | [], s, s' => s' = s
  | chunk :: chunks, s, s' => ∃ s₁, Added env chunk s s₁ ∧ Chain env chunks s₁ s'

section chain

variable {env : Env A D} {s s' : LHttpRequest A D}

/-- The chunks follow one another. -/
theorem chain_receiveAll (chunks : List HttpContent) (s : LHttpRequest A D) :
    Chain env chunks s (receiveAll env s (chunks.map .content)) := by
  induction chunks generalizing s with
  | nil => rfl
  | cons chunk chunks ih => exact ⟨_, receive_content s, ih _⟩

/-- The chunks follow their head. -/
theorem next_chain (env : Env A D) (next : Next) (s : LHttpRequest A D) :
    ∃ s₁, Processed env next.request s s₁ ∧ Chain env next.chunks s₁ (receiveAll env s next.objects) := by
  cases next with
  | chunked request chunks => exact ⟨_, receive_request s, chain_receiveAll chunks _⟩
  | full request chunk =>
    obtain ⟨s₁, hprocessed, hadded⟩ := receive_full env request chunk s
    exact ⟨s₁, hprocessed, _, hadded, rfl⟩

/-- A quiet object stays quiet, and no handler is called. -/
theorem Chain.log_of_quiet {chunks : List HttpContent} (h : Chain env chunks s s') (hquiet : Quiet s) :
    s'.log = s.log := by
  induction chunks generalizing s with
  | nil => rw [h]
  | cons chunk chunks ih =>
    obtain ⟨s₁, hadded, hchain⟩ := h
    cases hadded with
    | stopped hfails hlog hquiet' => rw [ih hchain hquiet', hlog]
    | waits decoder hdecoder htakes hgoes hlog hrequest hdecoder' hview =>
      have hnone : s.request = none := hquiet.resolve_left (by simp [hdecoder])
      rw [ih hchain (.inr (hrequest.trans hnone)), hlog]
    | handled decoder hdecoder htakes hlast handler request hrequest hlog hquiet' =>
      rcases hquiet with h | h
      · exact absurd (h.symm.trans hdecoder) nofun
      · exact absurd (h.symm.trans hrequest) nofun

/-- A handler that is called for a body sees what the body gives. -/
theorem Chain.mem_view {chunks : List HttpContent} {decoder : D} (h : Chain env chunks s s')
    (hdecoder : s.decoder = some decoder) {v : View} (hv : v ∈ s'.log.filterMap Event.view?) :
    v ∈ s.log.filterMap Event.view? ∨ v = (Own.bodyData env decoder chunks).foldl writeData s.view := by
  induction chunks generalizing s decoder with
  | nil =>
    rw [h] at hv
    exact .inl hv
  | cons chunk chunks ih =>
    obtain ⟨s₁, hadded, hchain⟩ := h
    cases hadded with
    | stopped hfails hlog hquiet =>
      rw [hchain.log_of_quiet hquiet, hlog] at hv
      exact .inl hv
    | waits d hd htakes hgoes hlog hrequest hdecoder' hview =>
      obtain rfl := Option.some_inj.mp (hd.symm.trans hdecoder)
      rw [Own.bodyData, if_neg hgoes, List.foldl_append, ← hview, ← hlog]
      exact ih hchain hdecoder'
    | handled d hd htakes hlast handler request hrequest hlog hquiet =>
      obtain rfl := Option.some_inj.mp (hd.symm.trans hdecoder)
      rw [hchain.log_of_quiet hquiet, hlog, List.filterMap_append, List.mem_append] at hv
      rw [Own.bodyData, if_pos hlast, List.append_nil]
      exact hv.imp id List.mem_singleton.mp

/-- A handler is called for a body exactly if it comes to its end. -/
theorem Chain.exists_view_iff {chunks : List HttpContent} {decoder : D} {request : HttpRequest}
    (h : Chain env chunks s s') (hdecoder : s.decoder = some decoder) (hrequest : s.request = some request)
    (hbody : HasBody request) (hlog : s.log.filterMap Event.view? = []) :
    s'.log.filterMap Event.view? ≠ [] ↔ Ends env decoder chunks := by
  induction chunks generalizing s decoder with
  | nil =>
    rw [h, hlog]
    exact iff_of_false (not_not_intro rfl) id
  | cons chunk chunks ih =>
    obtain ⟨s₁, hadded, hchain⟩ := h
    rw [Ends]
    cases hadded with
    | stopped hfails hlog₁ hquiet =>
      rw [hchain.log_of_quiet hquiet, hlog₁, hlog]
      exact iff_of_false (not_not_intro rfl) fun h => h.1 (hfails decoder request hdecoder hrequest hbody)
    | waits d hd htakes hgoes hlog₁ hrequest₁ hdecoder₁ hview =>
      obtain rfl := Option.some_inj.mp (hd.symm.trans hdecoder)
      rw [and_iff_right htakes, or_iff_right hgoes]
      exact ih hchain hdecoder₁ (hrequest₁.trans hrequest) (hlog₁ ▸ hlog)
    | handled d hd htakes hlast handler r hr hlog₁ hquiet =>
      obtain rfl := Option.some_inj.mp (hd.symm.trans hdecoder)
      rw [hchain.log_of_quiet hquiet, hlog₁, List.filterMap_append]
      exact iff_of_true (List.append_ne_nil_of_right_ne_nil _ nofun) ⟨htakes, .inl hlast⟩

end chain

/-- A request is authorised if its answer says so. -/
theorem authorised_iff {env : Env A D} {http_auth : A} {request : HttpRequest} :
    authorised env http_auth request = true
      ↔ ∃ response, (env.authParse http_auth request).1 = .ok (some response) ∧ response.isAuth = true := by
  rw [authorised]
  rcases (env.authParse http_auth request).1 with e | _ | response
  · simp
  · simp
  · simp

/-- A handler is called for a request exactly if it is authorised and its body comes to its end. -/
theorem views_ne_nil_iff {env : Env A D} (h : Releases env) (s : LHttpRequest A D) (next : Next) :
    views env s next ≠ [] ↔ Handled env s.http_auth next := by
  obtain ⟨s₁, hprocessed, hchain⟩ := next_chain env next { s with log := [] }
  rw [views, Handled, authorised_iff]
  cases hprocessed with
  | stopped hnot events hevents hlog hquiet =>
    have hnone : events.filterMap Event.view? = [] := by
      rw [List.filterMap_eq_nil_iff]
      intro event hevent
      obtain ⟨response, rfl⟩ := hevents event hevent
      rfl
    rw [hchain.log_of_quiet hquiet, hlog, List.nil_append, List.filterMap_cons_none (by rfl), hnone]
    refine iff_of_false (not_not_intro rfl) fun hhandled => hnot ⟨clears_of_releases h _, hhandled.1, ?_⟩
    refine hhandled.2.imp_right fun ⟨hbody, decoder, hnew, _⟩ => ⟨hbody, ?_⟩
    rw [hnew]
    rfl
  | get haccepts response hauth hmethod hlog hquiet =>
    rw [hchain.log_of_quiet hquiet, hlog]
    exact iff_of_true (List.cons_ne_nil _ _) ⟨haccepts.authorised, .inl hmethod⟩
  | waits haccepts response hauth hbody decoder hnew hlog hdecoder hrequest hview =>
    rw [hchain.exists_view_iff hdecoder hrequest hbody (by rw [hlog]; rfl)]
    constructor
    · exact fun hends => ⟨haccepts.authorised, .inr ⟨hbody, decoder, hnew, hends⟩⟩
    · rintro ⟨-, hget | ⟨-, d, hd, hends⟩⟩
      · rw [HasBody, hget] at hbody
        exact absurd hbody (by decide)
      · rwa [Except.ok.inj (hnew.symm.trans hd)]

/-- Every view that a handler gets is what the request writes over what is left. -/
theorem eq_of_mem_views {env : Env A D} {s : LHttpRequest A D} {next : Next} {v : View}
    (hv : v ∈ views env s next) : v = (Own.ofRequest env next.request next.chunks).onto s.view := by
  obtain ⟨s₁, hprocessed, hchain⟩ := next_chain env next { s with log := [] }
  rw [Own.ofRequest]
  cases hprocessed with
  | stopped hnot events hevents hlog hquiet =>
    have hnone : events.filterMap Event.view? = [] := by
      rw [List.filterMap_eq_nil_iff]
      intro event hevent
      obtain ⟨response, rfl⟩ := hevents event hevent
      rfl
    rw [views, hchain.log_of_quiet hquiet, hlog, List.nil_append,
      List.filterMap_cons_none (f := Event.view?) rfl, hnone] at hv
    cases hv
  | get haccepts response hauth hmethod hlog hquiet =>
    rw [views, hchain.log_of_quiet hquiet, hlog] at hv
    rw [if_pos hmethod, Own.ofUri_onto]
    exact List.mem_singleton.mp hv
  | waits haccepts response hauth hmethod decoder hnew hlog hdecoder hrequest hview =>
    have hget : next.request.method ≠ "GET".toList := by
      rcases hmethod with h | h
      · rw [h]; decide
      · rw [h]; decide
    rw [if_neg hget, hnew, Own.foldl_add_onto, Own.ofUri_onto, ← hview]
    rcases hchain.mem_view hdecoder hv with h | h
    · rw [hlog] at h
      cases h
    · exact h

/-- Where handlers see a request after two histories, they see the same. -/
def Independent (env : Env A D) (s₁ s₂ : LHttpRequest A D) (next : Next) : Prop :=
  ∀ v₁ ∈ views env s₁ next, ∀ v₂ ∈ views env s₂ next, v₁ = v₂

/-- The authentication object after a history. -/
def authAfter (env : Env A D) (http_auth : A) (history : List HttpObject) : A :=
  (history.foldl (Reading.next env) ⟨http_auth, none⟩).http_auth

/-- After two histories of a connection a request for which a handler is called after both looks the same exactly if
it sets itself whatever the requests of the histories have set differently, and these have brought the same uploads. -/
theorem requests_independent_iff {env : Env A D} (h : Releases env) (http_auth : A)
    (history₁ history₂ : List HttpObject) (next : Next) :
    Independent env (receiveAll env (.new D http_auth) history₁) (receiveAll env (.new D http_auth) history₂) next
      ↔ (Handled env (authAfter env http_auth history₁) next → Handled env (authAfter env http_auth history₂) next →
        (Own.ofRequest env next.request next.chunks).Hides (Own.ofHistory env ⟨http_auth, none⟩ history₁)
          (Own.ofHistory env ⟨http_auth, none⟩ history₂)) := by
  have hnew : Reading.Fits ⟨http_auth, none⟩ (LHttpRequest.new D http_auth) := ⟨rfl, rfl⟩
  obtain ⟨⟨hauth₁, -⟩, hview₁⟩ := hnew.receiveAll h history₁
  obtain ⟨⟨hauth₂, -⟩, hview₂⟩ := hnew.receiveAll h history₂
  rw [authAfter, authAfter, ← hauth₁, ← hauth₂, ← views_ne_nil_iff h, ← views_ne_nil_iff h]
  constructor
  · intro hindependent hne₁ hne₂
    obtain ⟨v₁, hv₁⟩ := List.exists_mem_of_ne_nil _ hne₁
    obtain ⟨v₂, hv₂⟩ := List.exists_mem_of_ne_nil _ hne₂
    rw [← Own.onto_new_eq_iff http_auth, ← hview₁, ← hview₂, ← eq_of_mem_views hv₁, ← eq_of_mem_views hv₂]
    exact hindependent v₁ hv₁ v₂ hv₂
  · intro hhides v₁ hv₁ v₂ hv₂
    rw [eq_of_mem_views hv₁, eq_of_mem_views hv₂, hview₁, hview₂, Own.onto_new_eq_iff http_auth]
    exact hhides (List.ne_nil_of_mem hv₁) (List.ne_nil_of_mem hv₂)

/-- A server without a login whose application processes every `GET`. -/
def sampleEnv : Env Unit Unit where
  newURI uri :=
    if uri = "/list?folder=inbox".toList then some ⟨some "/list".toList, some "folder=inbox".toList⟩
    else some ⟨some uri, none⟩
  isKeepAlive _ := true
  authParse _ _ := (.ok (some ⟨.OK, some "noname".toList, none, none, none⟩), ())
  newDecoder _ := .error .errorDataDecoder
  offer _ _ := (.ok (), ())
  read _ := ([], .ok (), ())
  destroy _ := .ok ()
  app _ _ _ := (.ok true, false)
  send _ _ := .ok ()

/-- A request that sets the one argument itself that a request before it has set. -/
theorem requests_independent_same_query : Independent sampleEnv
    (receiveAll sampleEnv (.new Unit ()) [])
    (receiveAll sampleEnv (.new Unit ())
      [.request ⟨"GET".toList, "/list?folder=inbox".toList, []⟩, .content ⟨[], true⟩])
    (.chunked ⟨"GET".toList, "/list?folder=inbox".toList, []⟩ [⟨[], true⟩]) := by
  refine (requests_independent_iff (fun _ => rfl) () _ _ _).mpr fun _ _ => ⟨nofun, nofun, fun key hkey => ?_, rfl⟩
  have hother : key ≠ "folder".toList := by
    rintro rfl
    cases hkey
  have hset : (Own.ofHistory sampleEnv ⟨(), none⟩
      [.request ⟨"GET".toList, "/list?folder=inbox".toList, []⟩, .content ⟨[], true⟩]).app_arg
        = HttpAuthDigest.put (fun _ => none) "folder".toList "inbox".toList := rfl
  rw [hset, HttpAuthDigest.put, Function.update_of_ne hother]
  rfl

/-- An argument of the request before is still there. -/
theorem not_independent_query : ¬ Independent sampleEnv
    (receiveAll sampleEnv (.new Unit ()) [])
    (receiveAll sampleEnv (.new Unit ())
      [.request ⟨"GET".toList, "/list?folder=inbox".toList, []⟩, .content ⟨[], true⟩])
    (.chunked ⟨"GET".toList, "/list".toList, []⟩ [⟨[], true⟩]) := by
  intro h
  have hfirst : (views sampleEnv (receiveAll sampleEnv (.new Unit ()) [])
      (.chunked ⟨"GET".toList, "/list".toList, []⟩ [⟨[], true⟩])).map (fun v => v.app_arg "folder".toList)
        = [none] := by decide
  have hsecond : (views sampleEnv (receiveAll sampleEnv (.new Unit ())
      [.request ⟨"GET".toList, "/list?folder=inbox".toList, []⟩, .content ⟨[], true⟩])
      (.chunked ⟨"GET".toList, "/list".toList, []⟩ [⟨[], true⟩])).map (fun v => v.app_arg "folder".toList)
        = [some "inbox".toList] := by decide
  obtain ⟨v₁, hv₁, hnone⟩ := List.mem_map.mp (hfirst ▸ List.mem_singleton_self none)
  obtain ⟨v₂, hv₂, hsome⟩ := List.mem_map.mp (hsecond ▸ List.mem_singleton_self (some "inbox".toList))
  rw [h v₁ hv₁ v₂ hv₂, hsome] at hnone
  cases hnone

end OrgLittle.Http
