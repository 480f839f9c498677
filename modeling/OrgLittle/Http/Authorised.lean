import OrgLittle.Http.Request

/-!
# Handlers run for authorised requests

The answer of `authParse` is looked at once, when the request arrives. What is left of it is the decoder: as long as
there is one, and the request has not been forgotten, this request is the last one that arrived and it was authorised.
-/

namespace OrgLittle.Http

open LHttpServerHandler

/-- The request that arrives with an event. -/
def Event.received? : Event → Option HttpRequest
  | .received request => some request
  | _ => none

/-- The last request that arrived is this one, and `authParse` has since answered that it is authorised. -/
def Cleared (log : List Event) (request : HttpRequest) : Prop :=
  ∃ front back response, log = front ++ .received request :: back ∧ back.filterMap Event.received? = []
    ∧ .authParse request response ∈ back ∧ response.isAuth = true

/-- Every handler is called with the request that has been cleared. -/
def Authorised (log : List Event) : Prop :=
  ∀ front back handler request view, log = front ++ .handler handler request view :: back →
    ∃ r, request = some r ∧ Cleared front r

section logs

variable {log : List Event} {request : HttpRequest}

/-- An authorisation that has just been accepted clears its request. -/
theorem cleared_request (log : List Event) (request : HttpRequest) {response : HttpAuthResponse}
    (hauth : response.isAuth = true) :
    Cleared (log ++ [.received request, .authParse request response]) request :=
  ⟨log, [.authParse request response], response, rfl, rfl, List.mem_singleton_self _, hauth⟩

theorem authorised_nil : Authorised [] := by
  intro front back handler request view h
  simp at h

/-- A log stays authorised if the last event is no handler, or one for a cleared request. -/
theorem authorised_concat {event : Event} : Authorised (log ++ [event]) ↔ Authorised log
    ∧ ∀ handler request view, event = .handler handler request view →
      ∃ r, request = some r ∧ Cleared log r := by
  constructor
  · intro h
    refine ⟨fun front back handler request view hsplit => ?_, fun handler request view hevent => ?_⟩
    · exact h front (back ++ [event]) handler request view (by rw [hsplit]; simp)
    · exact h log [] handler request view (by rw [hevent])
  · rintro ⟨hlog, hevent⟩ front back handler request view hsplit
    rcases List.eq_nil_or_concat' back with rfl | ⟨back, last, rfl⟩
    · obtain ⟨rfl, hlast⟩ := List.append_inj' hsplit rfl
      exact hevent handler request view (List.singleton_inj.mp hlast)
    · rw [← List.cons_append, ← List.append_assoc] at hsplit
      exact hlog front back handler request view (List.append_inj' hsplit rfl).1

/-- Events that are no calls of handlers. -/
theorem Authorised.append (h : Authorised log) {events : List Event}
    (hevents : ∀ event ∈ events, ∀ handler request view, event ≠ .handler handler request view) :
    Authorised (log ++ events) := by
  induction events generalizing log with
  | nil => rwa [List.append_nil]
  | cons event events ih =>
    rw [List.append_cons]
    refine ih (authorised_concat.mpr ⟨h, fun handler request view hevent => ?_⟩)
      fun e he => hevents e (List.mem_cons_of_mem event he)
    exact absurd hevent (hevents event List.mem_cons_self handler request view)

/-- A call of a handler for a cleared request. -/
theorem Authorised.handler (h : Authorised log) (hcleared : Cleared log request) (handler : Handler) (view : View) :
    Authorised (log ++ [.handler handler (some request) view]) :=
  authorised_concat.mpr ⟨h, by rintro _ _ _ ⟨⟩; exact ⟨request, rfl, hcleared⟩⟩

end logs

/-! ## The invariant -/

variable {A D : Type} {env : Env A D} {request : HttpRequest} {chunk : HttpContent} {s s' : LHttpRequest A D}

/-- All calls so far were authorised, and a content that comes next finds a cleared request or none. -/
structure Inv (s : LHttpRequest A D) : Prop where
  authorised : Authorised s.log
  cleared : ∀ request, s.decoder ≠ none → s.request = some request → Cleared s.log request

theorem inv_of_quiet (h : Authorised s.log) (hquiet : Quiet s) : Inv s := by
  refine ⟨h, fun request hdecoder hrequest => ?_⟩
  rcases hquiet with hnone | hnone
  · exact absurd hnone hdecoder
  · rw [hnone] at hrequest
    cases hrequest

/-- A request keeps the invariant. -/
theorem Processed.inv (h : Processed env request s s') (hs : Inv s) : Inv s' := by
  cases h with
  | stopped hnot events hevents hlog hquiet =>
    refine inv_of_quiet ?_ hquiet
    rw [hlog]
    apply hs.authorised.append
    rintro event hevent handler r view rfl
    rcases List.mem_cons.mp hevent with h | h
    · cases h
    · obtain ⟨response, h⟩ := hevents _ h
      cases h
  | get haccepts response hauth hmethod hlog hquiet =>
    refine inv_of_quiet ?_ hquiet
    have hbefore : Authorised (s.log ++ [.received request, .authParse request response]) :=
      hs.authorised.append (by simp)
    have hhandler := hbefore.handler (cleared_request s.log request hauth) .HttpGet (uriView env request s.view)
    rw [hlog]
    rwa [List.append_assoc] at hhandler
  | waits haccepts response hauth hbody decoder hnew hlog hdecoder hrequest hview =>
    refine ⟨?_, fun r _ hr => ?_⟩
    · rw [hlog]
      exact hs.authorised.append (by simp)
    · rw [hrequest] at hr
      cases hr
      rw [hlog]
      exact cleared_request s.log request hauth

/-- So does a piece of a body. -/
theorem Added.inv (h : Added env chunk s s') (hs : Inv s) : Inv s' := by
  cases h with
  | stopped hfails hlog hquiet => exact inv_of_quiet (hlog ▸ hs.authorised) hquiet
  | waits decoder hdecoder htakes hgoes hlog hrequest hdecoder' hview =>
    refine ⟨hlog ▸ hs.authorised, fun r _ hr => ?_⟩
    rw [hlog]
    exact hs.cleared r (by simp [hdecoder]) (hrequest ▸ hr)
  | handled decoder hdecoder htakes hlast handler request hrequest hlog hquiet =>
    refine inv_of_quiet ?_ hquiet
    rw [hlog]
    exact hs.authorised.handler (hs.cleared request (by simp [hdecoder]) hrequest) handler _

/-- One step. -/
theorem receive_inv (msg : HttpObject) (hs : Inv s) : Inv (receive env s msg) := by
  cases msg with
  | request request => exact (receive_request s).inv hs
  | content chunk => exact (receive_content s).inv hs
  | full request chunk =>
    obtain ⟨s₁, hprocessed, hadded⟩ := receive_full env request chunk s
    exact hadded.inv (hprocessed.inv hs)

/-! ## The requests in the log -/

theorem Processed.received (h : Processed env request s s') :
    s'.log.filterMap Event.received? = s.log.filterMap Event.received? ++ [request] := by
  cases h with
  | stopped hnot events hevents hlog hquiet =>
    have hnone : events.filterMap Event.received? = [] := by
      rw [List.filterMap_eq_nil_iff]
      intro event hevent
      obtain ⟨response, rfl⟩ := hevents event hevent
      rfl
    rw [hlog, List.filterMap_append, List.filterMap_cons_some (f := Event.received?) rfl, hnone]
  | get haccepts response hauth hmethod hlog hquiet => rw [hlog, List.filterMap_append]; rfl
  | waits haccepts response hauth hbody decoder hnew hlog hdecoder hrequest hview =>
    rw [hlog, List.filterMap_append]; rfl

theorem Added.received (h : Added env chunk s s') :
    s'.log.filterMap Event.received? = s.log.filterMap Event.received? := by
  cases h with
  | stopped hfails hlog hquiet => rw [hlog]
  | waits decoder hdecoder htakes hgoes hlog hrequest hdecoder' hview => rw [hlog]
  | handled decoder hdecoder htakes hlast handler request hrequest hlog hquiet =>
    rw [hlog, List.filterMap_append]
    exact List.append_nil _

theorem receive_received (s : LHttpRequest A D) (msg : HttpObject) :
    (receive env s msg).log.filterMap Event.received?
      = s.log.filterMap Event.received? ++ msg.httpRequest?.toList := by
  cases msg with
  | request request => exact (receive_request s).received
  | content chunk => exact (receive_content s).received.trans (List.append_nil _).symm
  | full request chunk =>
    obtain ⟨s₁, hprocessed, hadded⟩ := receive_full env request chunk s
    exact hadded.received.trans hprocessed.received

/-- The requests that the log has are those that have come, in their order. -/
theorem receiveAll_received (s : LHttpRequest A D) (msgs : List HttpObject) :
    (receiveAll env s msgs).log.filterMap Event.received?
      = s.log.filterMap Event.received? ++ msgs.filterMap HttpObject.httpRequest? := by
  induction msgs generalizing s with
  | nil => exact (List.append_nil _).symm
  | cons msg msgs ih =>
    rw [receiveAll, List.foldl_cons]
    refine (ih _).trans ?_
    rw [receive_received, List.append_assoc]
    cases hmsg : msg.httpRequest? with
    | none => rw [List.filterMap_cons_none hmsg]; rfl
    | some request => rw [List.filterMap_cons_some hmsg]; rfl

/-- A whole connection. -/
theorem receiveAll_inv {s : LHttpRequest A D} (msgs : List HttpObject) (hs : Inv s) :
    Inv (receiveAll env s msgs) := by
  induction msgs generalizing s with
  | nil => exact hs
  | cons msg msgs ih => exact ih (receive_inv msg hs)

/-- Whatever objects a connection receives: its log has the requests in their order, and every handler is called with
the last one before the call, after `authParse` has authorised it. -/
theorem handlers_authorised (env : Env A D) (http_auth : A) (msgs : List HttpObject) :
    (receiveAll env (.new D http_auth) msgs).log.filterMap Event.received?
        = msgs.filterMap HttpObject.httpRequest?
      ∧ Authorised (receiveAll env (.new D http_auth) msgs).log := by
  have hnew : Inv (LHttpRequest.new D http_auth) := inv_of_quiet authorised_nil (.inl rfl)
  exact ⟨receiveAll_received _ msgs, (receiveAll_inv msgs hnew).authorised⟩

end OrgLittle.Http
