import Sentinel.Api.RateLimit

/-!
# What the API gives away

The middleware stack of `create_app` around its endpoints, from the outside in: security headers,
CORS, request context, rate limit, the exception handlers and the routes.  Every data endpoint
depends on `require_api_key`, which is solved before the parameters of the endpoint are validated.

What Starlette answers where no route matches (`fallback`) and what its CORS middleware does
(`Cors`) are parameters: they see the target of a request, never its credentials.  An endpoint is
represented by the outcome of its handler, one for each request of a run, so whatever the database
holds by then is in it.  Requests are listed in the order in which the rate limit sees them.
-/

namespace Sentinel.Api

/-! ## Requests and responses -/

/-- What routing and CORS look at: not the credentials. -/
structure Target (γ : Type*) where
  method : String
  path : String
  headers : γ

structure Call (γ : Type*) where
  target : Target γ
  authorization : Option String
  client : Option String

/-- What the rate limit and `require_api_key` read. -/
def Call.request {γ : Type*} (call : Call γ) : Request :=
  { path := call.target.path, authorization := call.authorization, client := call.client }

/-- The project error envelope, or what an endpoint answers. -/
inductive Body (β : Type*) where
  | error (code message : String)
  | content (value : β)

/-- Header names are in lower case, as they are sent. -/
structure Response (β : Type*) where
  statusCode : ℕ
  headers : List (String × String)
  body : Body β

/-- What ends a request short of a response: `HTTPException`, `RequestValidationError`, or any other
exception, of which the type is logged. -/
inductive Raised where
  | http (statusCode : ℕ) (detail : String) (headers : List (String × String))
  | validation
  | other (error : String)

inductive LogLine where
  | authFailed (reason client path : String)
  | unhandledError (error : String)
  | request (method path : String) (status : ℕ)
deriving DecidableEq

def lower (name : String) : String := String.ofList (name.toList.map Char.toLower)

/-- The JSON response of an error; content type and length are left out. -/
def ErrorResponse.toResponse {β : Type*} (e : ErrorResponse) : Response β where
  statusCode := e.statusCode
  headers := e.headers.map fun header => (lower header.1, header.2)
  body := .error e.code e.message

/-- `MutableHeaders.setdefault`. -/
def setdefault (headers : List (String × String)) (name value : String) : List (String × String) :=
  match Dict.get headers (lower name) with
  | some _ => headers
  | none => headers ++ [(lower name, value)]

/-- `MutableHeaders.__setitem__`: the first header of that name, and no other. -/
def setItem : List (String × String) → String → String → List (String × String)
  | [], name, value => [(lower name, value)]
  | header :: headers, name, value =>
      if header.1 = lower name then
        (lower name, value) :: headers.filter fun other => other.1 ≠ lower name
      else header :: setItem headers name value

/-! ## Authentication -/

/-- `require_api_key`: the exception, if any, and what is logged. -/
def requireApiKey (apiKey : Option String) (request : Request) : Option Raised × List LogLine :=
  let refuse := fun detail : String =>
    some (.http 401 detail [("WWW-Authenticate", "Bearer")])
  let failed := fun reason : String =>
    [.authFailed reason (request.client.getD "unknown") request.path]
  match apiKey with
  | none => (some (.http 503 "authentication is not configured" []), [])
  | some configured =>
      match bearerToken request with
      | none => (refuse "missing bearer token", failed "missing_bearer_token")
      | some token =>
          if token = configured then (none, [])
          else (refuse "invalid token", failed "invalid_token")

/-! ## The application -/

inductive Route where
  | healthz
  | readyz
  | metrics
  | events
  | alerts
  | rules
deriving DecidableEq

/-- The endpoints that depend on `require_api_key`. -/
def Route.guarded : Route → Bool
  | .healthz | .readyz => false
  | .metrics | .events | .alerts | .rules => true

/-- Every route is a `GET` on a fixed path. -/
def route (method path : String) : Option Route :=
  if method = "GET" then
    match path with
    | "/healthz" => some .healthz
    | "/readyz" => some .readyz
    | "/metrics" => some .metrics
    | "/events" => some .events
    | "/alerts" => some .alerts
    | "/rules" => some .rules
    | _ => none
  else none

/-- Starlette's `CORSMiddleware`: the answer to a preflight, and the headers it adds to others. -/
structure Cors (β γ : Type*) where
  preflight : Target γ → Option (Response β)
  simple : Target γ → Response β → Response β

structure App (β γ : Type*) where
  limiter : Config
  cors : Cors β γ
  fallback : Target γ → Except Raised (Response β)

/-- The outcome of the handler of each endpoint. -/
abbrev Handlers (β : Type*) := Route → Except Raised (Response β)

/-- `_CODES`. -/
def codes : ℕ → String
  | 401 => "UNAUTHORIZED"
  | 403 => "FORBIDDEN"
  | 404 => "NOT_FOUND"
  | 429 => "RATE_LIMITED"
  | 503 => "SERVICE_UNAVAILABLE"
  | _ => "ERROR"

variable {β γ : Type*}

/-- `_http_error` and `_validation_error`; other exceptions are not handled here. -/
def handleRaised : Raised → Except String (Response β)
  | .http statusCode detail headers =>
      .ok (errorResponse statusCode (codes statusCode) detail headers).toResponse
  | .validation =>
      .ok (errorResponse 422 "VALIDATION_ERROR" "request parameters failed validation"
        []).toResponse
  | .other error => .error error

def handled : Except Raised (Response β) → Except String (Response β)
  | .ok response => .ok response
  | .error raised => handleRaised raised

/-- The routes and the exception handlers. -/
def serve (app : App β γ) (handlers : Handlers β) (call : Call γ) :
    Except String (Response β) × List LogLine :=
  match route call.target.method call.target.path with
  | none => (handled (app.fallback call.target), [])
  | some r =>
      if r.guarded then
        match requireApiKey app.limiter.apiKey call.request with
        | (some raised, log) => (handleRaised raised, log)
        | (none, log) => (handled (handlers r), log)
      else (handled (handlers r), [])

/-- `RequestContextMiddleware.dispatch`. -/
def inContext (target : Target γ) (requestId : String)
    (inner : Except String (Response β) × List LogLine) : Response β × List LogLine :=
  let (response, log) : Response β × List LogLine :=
    match inner.1 with
    | .ok response => (response, inner.2)
    | .error error =>
        ((errorResponse 500 "INTERNAL_ERROR" "an unexpected error occurred" []).toResponse,
          inner.2 ++ [.unhandledError error])
  ({ response with headers := setItem response.headers "X-Request-ID" requestId },
    log ++ [.request target.method target.path response.statusCode])

/-- `SecurityHeadersMiddleware.dispatch`. -/
def secured (response : Response β) : Response β :=
  { response with
    headers := securityHeaders.foldl (fun headers header => setdefault headers header.1 header.2)
      response.headers }

/-- A request, the time that the rate limit reads for it, and its id. -/
structure Arrived (γ : Type*) where
  call : Call γ
  now : ℚ
  requestId : String

/-- The response to a request and what is logged for it, and `_hits` after it. -/
def answer (app : App β γ) (handlers : Handlers β) (hits : Hits) (a : Arrived γ) :
    (Response β × List LogLine) × Hits :=
  match app.cors.preflight a.call.target with
  | some response => ((secured response, []), hits)
  | none =>
      let (refused, hits) := dispatch app.limiter hits a.call.request a.now
      let inner : Except String (Response β) × List LogLine :=
        match refused with
        | some error => (.ok error.toResponse, [])
        | none => serve app handlers a.call
      let (response, log) := inContext a.call.target a.requestId inner
      ((secured (app.cors.simple a.call.target response), log), hits)

/-- The answers to the requests of a run, the handlers of each being given. -/
def answers (app : App β γ) : (ℕ → Handlers β) → Hits → List (Arrived γ) →
    List (Response β × List LogLine)
  | _, _, [] => []
  | world, hits, a :: arrivals =>
      (answer app (world 0) hits a).1 ::
        answers app (fun n => world (n + 1)) (answer app (world 0) hits a).2 arrivals

variable {app app' : App β γ} {handlers handlers' : Handlers β} {hits : Hits} {a a' : Arrived γ}

/-! ## One request -/

/-- `_hits` after a request. -/
def hitsAfter (app : App β γ) (hits : Hits) (a : Arrived γ) : Hits :=
  match app.cors.preflight a.call.target with
  | some _ => hits
  | none => (dispatch app.limiter hits a.call.request a.now).2

/-- The endpoints have no influence on the rate limit. -/
lemma answer_snd : (answer app handlers hits a).2 = hitsAfter app hits a := by
  unfold answer hitsAfter
  cases app.cors.preflight a.call.target <;> rfl

/-- Without the key, a guarded endpoint raises before its handler is called. -/
lemma requireApiKey_of_anonymous {request : Request}
    (h : app.limiter.authenticated request = false) :
    ∃ raised, (requireApiKey app.limiter.apiKey request).1 = some raised := by
  unfold Config.authenticated at h
  unfold requireApiKey
  cases hkey : app.limiter.apiKey with
  | none => exact ⟨_, rfl⟩
  | some configured =>
      cases htoken : bearerToken request with
      | none => exact ⟨_, rfl⟩
      | some token =>
          rw [hkey, htoken] at h
          dsimp only
          rw [if_neg (beq_eq_false_iff_ne.mp h)]
          exact ⟨_, rfl⟩

/-- Without the key, only the open endpoints are reached. -/
lemma serve_of_anonymous {call : Call γ} (h : app.limiter.authenticated call.request = false)
    (hopen : ∀ r : Route, r.guarded = false → handlers r = handlers' r) :
    serve app handlers call = serve app handlers' call := by
  unfold serve
  cases route call.target.method call.target.path with
  | none => rfl
  | some r =>
      cases hguarded : r.guarded with
      | false =>
          dsimp only
          rw [if_neg (hguarded ▸ Bool.false_ne_true), if_neg (hguarded ▸ Bool.false_ne_true),
            hopen r hguarded]
      | true =>
          obtain ⟨raised, hraised⟩ := requireApiKey_of_anonymous h
          dsimp only
          rw [if_pos hguarded, if_pos hguarded]
          cases hrequire : requireApiKey app.limiter.apiKey call.request with
          | mk first log =>
              rw [hrequire] at hraised
              obtain rfl : first = some raised := hraised
              rfl

lemma answer_of_anonymous (h : app.limiter.authenticated a.call.request = false)
    (hopen : ∀ r : Route, r.guarded = false → handlers r = handlers' r) :
    (answer app handlers hits a).1 = (answer app handlers' hits a).1 := by
  unfold answer
  rw [serve_of_anonymous h hopen]

/-! ## What the endpoints hold -/

lemma getElem?_answers (app : App β γ) (arrivals : List (Arrived γ)) :
    ∀ (world : ℕ → Handlers β) (hits : Hits) (i : ℕ), (answers app world hits arrivals)[i]? =
      arrivals[i]?.map fun a =>
        (answer app (world i) ((arrivals.take i).foldl (hitsAfter app) hits) a).1 := by
  induction arrivals with
  | nil => exact fun _ _ _ => rfl
  | cons a arrivals ih =>
      intro world hits i
      cases i with
      | zero => rfl
      | succ i =>
          rw [answers, List.getElem?_cons_succ, ih, answer_snd, List.getElem?_cons_succ,
            List.take_succ_cons, List.foldl_cons]

/-- **Default deny.**  Two services that hold different events, alerts, rules and metrics serve the
same requests, some with the key and some without.  Whoever does not present the key gets the same
answers from both, and the same is logged for it: nothing of what the endpoints hold gets out, in
no response, by no error and not through the rate limit. -/
theorem no_key_no_data (app : App β γ) (world world' : ℕ → Handlers β) (hits : Hits)
    (arrivals : List (Arrived γ)) (i : ℕ) (a : Arrived γ) (ha : arrivals[i]? = some a)
    (hanonymous : app.limiter.authenticated a.call.request = false)
    (hopen : ∀ n, ∀ r : Route, r.guarded = false → world n r = world' n r) :
    (answers app world hits arrivals)[i]? = (answers app world' hits arrivals)[i]? := by
  rw [getElem?_answers, getElem?_answers, ha, Option.map_some, Option.map_some,
    answer_of_anonymous hanonymous (hopen i)]

def noCors : Cors String Unit where
  preflight _ := none
  simple _ response := response

def smallApp (apiKey : String) : App String Unit where
  limiter :=
    { limit := 5, windowSeconds := 60, apiKey := some apiKey,
      exemptPaths := ["/healthz", "/readyz"] }
  cors := noCors
  fallback _ := .error (.http 404 "Not Found" [])

/-- Every endpoint answers with what there is. -/
def holding (value : String) : Handlers String := fun _ =>
  .ok { statusCode := 200, headers := [("content-type", "application/json")],
        body := .content value }

def eventsCall (token : String) : Arrived Unit where
  call :=
    { target := { method := "GET", path := "/events", headers := () }
      authorization := some ("Bearer " ++ token)
      client := some "192.0.2.7" }
  now := 0
  requestId := "0123456789abcdef"

/-- One request presents the key, the next one does not. -/
theorem no_key_no_data_scanner :
    (answers (smallApp "s3cret") (fun _ => holding "a login from 192.0.2.9") []
        [eventsCall "s3cret", eventsCall "guess"])[1]?
      = (answers (smallApp "s3cret") (fun _ r => if r.guarded then holding "nothing" r else
          holding "a login from 192.0.2.9" r) [] [eventsCall "s3cret", eventsCall "guess"])[1]? :=
  no_key_no_data (smallApp "s3cret") _ _ [] _ 1 (eventsCall "guess") rfl (by decide +kernel)
    fun _ r hr => by rw [hr, if_neg Bool.false_ne_true]

/-! ## What the credentials leave behind -/

/-- Two requests that differ in their credentials only: both present a token or neither does, and
both tokens are right or neither is. -/
structure SameButToken (app app' : App β γ) (a a' : Arrived γ) : Prop where
  target : a.call.target = a'.call.target
  client : a.call.client = a'.call.client
  now : a.now = a'.now
  requestId : a.requestId = a'.requestId
  token : (bearerToken a.call.request).isSome = (bearerToken a'.call.request).isSome
  authenticated : app.limiter.authenticated a.call.request =
    app'.limiter.authenticated a'.call.request

/-- Two services that differ in the key they are configured with only. -/
structure SameButKey (app app' : App β γ) : Prop where
  cors : app.cors = app'.cors
  fallback : app.fallback = app'.fallback
  limit : app.limiter.limit = app'.limiter.limit
  window : app.limiter.windowSeconds = app'.limiter.windowSeconds
  exempt : app.limiter.exemptPaths = app'.limiter.exemptPaths
  apiKey : app.limiter.apiKey.isSome = app'.limiter.apiKey.isSome

lemma SameButKey.dispatch (h : SameButKey app app') (ha : SameButToken app app' a a') :
    dispatch app.limiter hits a.call.request a.now =
      dispatch app'.limiter hits a'.call.request a'.now := by
  have hpath : a.call.request.path = a'.call.request.path := congrArg Target.path ha.target
  have hbucket : app.limiter.bucket a.call.request = app'.limiter.bucket a'.call.request :=
    Prod.ext ha.authenticated (congrArg (Option.getD · "unknown") ha.client)
  simp only [Api.dispatch, rateLimited, h.exempt, h.limit, h.window, hpath, hbucket, ha.now]

lemma requireApiKey_eq {request request' : Request} {c c' : Config}
    (hkey : c.apiKey.isSome = c'.apiKey.isSome)
    (htoken : (bearerToken request).isSome = (bearerToken request').isSome)
    (hclient : request.client = request'.client) (hpath : request.path = request'.path)
    (hauthenticated : c.authenticated request = c'.authenticated request') :
    requireApiKey c.apiKey request = requireApiKey c'.apiKey request' := by
  unfold Config.authenticated at hauthenticated
  unfold requireApiKey
  rw [hclient, hpath]
  cases hc : c.apiKey with
  | none =>
      rw [hc, Option.isSome_none, eq_comm, Option.isSome_eq_false_iff,
        Option.isNone_iff_eq_none] at hkey
      rw [hkey]
  | some key =>
      rw [hc, Option.isSome_some, eq_comm, Option.isSome_iff_exists] at hkey
      obtain ⟨key', hc'⟩ := hkey
      rw [hc']
      cases ht : bearerToken request with
      | none =>
          rw [ht, Option.isSome_none, eq_comm, Option.isSome_eq_false_iff,
            Option.isNone_iff_eq_none] at htoken
          rw [htoken]
      | some token =>
          rw [ht, Option.isSome_some, eq_comm, Option.isSome_iff_exists] at htoken
          obtain ⟨token', ht'⟩ := htoken
          rw [ht']
          rw [hc, hc', ht, ht'] at hauthenticated
          have hright : token = key ↔ token' = key' := by
            rw [← beq_iff_eq, ← beq_iff_eq (a := token')]
            exact Bool.eq_iff_iff.mp hauthenticated
          simp only [hright]

lemma SameButKey.serve (h : SameButKey app app') (ha : SameButToken app app' a a') :
    serve app handlers a.call = serve app' handlers a'.call := by
  have hpath : a.call.request.path = a'.call.request.path := congrArg Target.path ha.target
  rw [Api.serve, Api.serve, h.fallback, ha.target,
    requireApiKey_eq h.apiKey ha.token ha.client hpath ha.authenticated]

lemma SameButKey.answer (h : SameButKey app app') (ha : SameButToken app app' a a') :
    answer app handlers hits a = answer app' handlers hits a' := by
  rw [Api.answer, Api.answer, h.cors, ha.target, h.dispatch ha, h.serve ha, ha.requestId]

/-- **Credentials leave no trace.**  Two services have different keys, and get the same requests
with different tokens: each request presents a token to both or to neither, and the right one to
both or to neither.  All responses and everything that is logged are the same, so neither holds
more of a key or a token than whether there was one and whether it was right. -/
theorem credentials_unseen (app app' : App β γ) (h : SameButKey app app')
    (world : ℕ → Handlers β) (hits : Hits) (arrivals arrivals' : List (Arrived γ))
    (ha : List.Forall₂ (SameButToken app app') arrivals arrivals') :
    answers app world hits arrivals = answers app' world hits arrivals' := by
  induction ha generalizing world hits with
  | nil => rfl
  | cons ha _ ih => rw [answers, answers, h.answer ha, ih]

/-- The same wrong guess at two different keys. -/
theorem credentials_unseen_scanner :
    answers (smallApp "s3cret") (fun _ => holding "nothing") [] [eventsCall "guess"]
      = answers (smallApp "hunter2") (fun _ => holding "nothing") [] [eventsCall "hunter"] :=
  credentials_unseen _ _ ⟨rfl, rfl, rfl, rfl, rfl, rfl⟩ _ [] _ _
    (.cons ⟨rfl, rfl, rfl, rfl, by decide +kernel, by decide +kernel⟩ .nil)

/-! ## What every response carries -/

/-- The header names that belong to the middlewares, in lower case. -/
def ownNames : List String := ("X-Request-ID" :: securityHeaders.map Prod.fst).map lower

/-- A response that sets none of the headers of the middlewares. -/
def Plain (headers : List (String × String)) : Prop :=
  ∀ name ∈ ownNames, Dict.get headers name = none

lemma get_append_of_none {headers : List (String × String)} {name value : String} {k : String}
    (h : Dict.get headers name = none) :
    Dict.get (headers ++ [(name, value)]) k =
      if name = k then some value else Dict.get headers k := by
  induction headers with
  | nil => rfl
  | cons header headers ih =>
      obtain ⟨first, found⟩ := header
      rw [Dict.get] at h
      split_ifs at h with hfirst
      rw [List.cons_append, Dict.get, Dict.get, ih h]
      split_ifs with hk hname
      · exact absurd (hk.trans hname.symm) hfirst
      · rfl
      · rfl
      · rfl

lemma get_setdefault (headers : List (String × String)) (name value k : String) :
    Dict.get (setdefault headers name value) k =
      if lower name = k then some ((Dict.get headers k).getD value) else Dict.get headers k := by
  unfold setdefault
  cases h : Dict.get headers (lower name) with
  | none =>
      dsimp only
      rw [get_append_of_none h]
      split_ifs with hk
      · rw [← hk, h, Option.getD_none]
      · rfl
  | some found =>
      dsimp only
      split_ifs with hk
      · rw [← hk, h, Option.getD_some]
      · rfl

lemma get_filter_ne {headers : List (String × String)} {name k : String} (hne : name ≠ k) :
    Dict.get (headers.filter fun other => other.1 ≠ name) k = Dict.get headers k := by
  induction headers with
  | nil => rfl
  | cons header headers ih =>
      obtain ⟨first, found⟩ := header
      by_cases hfirst : first = name
      · rw [List.filter_cons_of_neg (by simp [hfirst]), ih, Dict.get, if_neg (hfirst ▸ hne)]
      · rw [List.filter_cons_of_pos (by simp [hfirst]), Dict.get, Dict.get, ih]

lemma get_setItem (headers : List (String × String)) (name value k : String) :
    Dict.get (setItem headers name value) k =
      if lower name = k then some value else Dict.get headers k := by
  induction headers with
  | nil => rfl
  | cons header headers ih =>
      obtain ⟨first, found⟩ := header
      rw [setItem]
      by_cases hfirst : first = lower name
      · rw [if_pos hfirst, Dict.get]
        split_ifs with hk
        · rfl
        · rw [get_filter_ne hk, Dict.get, if_neg (hfirst ▸ hk)]
      · rw [if_neg hfirst, Dict.get, ih, Dict.get]
        split_ifs with hk hname
        · exact absurd (hk.trans hname.symm) hfirst
        · rfl
        · rfl
        · rfl

/-- Headers as they are sent. -/
def sent (headers : List (String × String)) : List (String × String) :=
  headers.map fun header => (lower header.1, header.2)

lemma sent_cons (header : String × String) (headers : List (String × String)) :
    sent (header :: headers) = (lower header.1, header.2) :: sent headers := rfl

/-- `setdefault` for one header after the other. -/
lemma get_foldl_setdefault (defaults : List (String × String)) :
    ∀ (headers : List (String × String)) (k : String),
      Dict.get (defaults.foldl (fun headers header => setdefault headers header.1 header.2)
        headers) k = (Dict.get headers k).or (Dict.get (sent defaults) k) := by
  induction defaults with
  | nil => exact fun headers k => (Option.or_none).symm
  | cons default defaults ih =>
      intro headers k
      obtain ⟨name, value⟩ := default
      rw [List.foldl_cons, ih, get_setdefault, sent_cons, Dict.get]
      split_ifs with hk
      · cases Dict.get headers k <;> rfl
      · rfl

lemma get_sent_securityHeaders : ∀ header ∈ securityHeaders,
    Dict.get (sent securityHeaders) (lower header.1) = some header.2 := by
  decide +kernel

/-- The security headers are not there yet, or have their value. -/
def Proper (headers : List (String × String)) : Prop :=
  ∀ header ∈ securityHeaders, Dict.get headers (lower header.1) = none ∨
    Dict.get headers (lower header.1) = some header.2

lemma Proper.secured {response : Response β} (h : Proper response.headers) :
    ∀ header ∈ securityHeaders,
      Dict.get (secured response).headers (lower header.1) = some header.2 := by
  intro header hheader
  rw [Api.secured, get_foldl_setdefault, get_sent_securityHeaders header hheader]
  obtain hnone | hsome := h header hheader
  · rw [hnone, Option.none_or]
  · rw [hsome, Option.some_or]

lemma Proper.setItem {headers : List (String × String)} (h : Proper headers) (requestId : String) :
    Proper (Api.setItem headers "X-Request-ID" requestId) := by
  have hne : ∀ header ∈ securityHeaders, lower "X-Request-ID" ≠ lower header.1 := by
    decide +kernel
  intro header hheader
  rw [get_setItem, if_neg (hne header hheader)]
  exact h header hheader

end Sentinel.Api
