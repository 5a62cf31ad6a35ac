import Mathlib.Algebra.Order.Ring.Rat
import Sentinel.Library.Url

/-!
# The webhook sink

`alerting.sinks.webhook`: the guard against requests to addresses inside, the URL that is pinned to
the address that was checked, and the retries.  Texts that come from outside are lists of
characters.  The resolver is a function of how often it was asked before, so that no two answers
need to be the same.

* `postWithRetry` — the loop, with the requests it makes and how long it sleeps.
* `Destined` — what the guard accepts, without its order of checks: `resolveDestination_eq_ok_iff`.
* `Meets` — what is promised of one `emit`.

The guard checks the value of an address and the request is made to its text.  The two differ in the
zone that an IPv6 address may carry, which can hold the characters that end an address in a URL.

Before it sends anything `client.post` builds a request (`Sink.builds`).  It refuses a header that
is not ASCII, so a host name that is not ASCII passes the guard, is resolved, and gets no request.
-/

namespace Sentinel.Webhook

open Url (Parts Urllib Target)

/-! ## The guard -/

/-- `_HTTPS_PORT`. -/
def httpsPort : ℕ := 443

/-- What `emit` raises: `DestinationBlockedError`, `ValueError`, what the resolver raises, what the
client raises besides the errors that are retried, and `WebhookError`. -/
inductive Error where
  | blocked (message : String)
  | value
  | resolver
  | client
  | delivery (message : String)
deriving DecidableEq, Repr

/-- `Destination`. -/
structure Destination where
  host : List Char
  port : ℕ
  addresses : List (List Char)
deriving DecidableEq, Repr

/-- What the sink uses of other libraries: the parts of `urllib.parse` that are not spelled out,
the tables of `ipaddress`, whether `httpx` takes a URL, the JSON of an alert and the HMAC of a
secret and a body. -/
structure Library (α : Type) where
  urllib : Urllib
  registry : IpAddress.Registry
  acceptsUrl : List Char → Bool
  modelDumpJson : α → String
  hmacSha256 : String → String → String

variable {α : Type}

/-- `is_blocked_address`, `none` when it raises `ValueError`. -/
def isBlockedAddress (registry : IpAddress.Registry) (address : List Char) : Option Bool :=
  (IpAddress.ipAddress address).map fun ip =>
    let ip := ip.ipv4Mapped.getD ip
    !ip.isGlobal registry || ip.isMulticast registry

/-- `_is_ip_literal`. -/
def isIpLiteral (host : List Char) : Bool := (IpAddress.ipAddress host).isSome

/-- `parts.port or _HTTPS_PORT`. -/
def configuredPort : Option ℕ → ℕ
  | none => httpsPort
  | some 0 => httpsPort
  | some port => port

/-- `_split`. -/
def split (urllib : Urllib) (url : List Char) : Except Error (List Char × ℕ) :=
  match urllib.urlsplit url with
  | none => .error .value
  | some parts =>
      if parts.scheme ≠ "https".toList then .error (.blocked "webhook URL must use https")
      else
        match urllib.hostname parts.netloc with
        | none => .error (.blocked "webhook URL has no host")
        | some host =>
            if host = [] then .error (.blocked "webhook URL has no host")
            else
              match Url.port parts.netloc with
              | none => .error (.blocked "webhook URL has an invalid port")
              | some port => .ok (host, configuredPort port)

/-- `any(is_blocked_address(address) for address in addresses)`, `none` when it raises. -/
def anyBlocked (registry : IpAddress.Registry) : List (List Char) → Option Bool
  | [] => some false
  | address :: addresses =>
      match isBlockedAddress registry address with
      | none => none
      | some true => some true
      | some false => anyBlocked registry addresses

/-- The checks of `resolve_destination` on the addresses. -/
def checkAddresses (registry : IpAddress.Registry) (allowPrivate : Bool) (host : List Char)
    (port : ℕ) (addresses : List (List Char)) : Except Error Destination :=
  if addresses = [] then
    .error (.blocked ("webhook destination " ++ String.ofList host ++ " did not resolve"))
  else if allowPrivate then .ok ⟨host, port, addresses⟩
  else
    match anyBlocked registry addresses with
    | none => .error .value
    | some true =>
        .error (.blocked
          ("webhook destination " ++ String.ofList host ++ " resolves to a blocked address"))
    | some false => .ok ⟨host, port, addresses⟩

/-- Answers of a resolver: the first argument is how often it was asked before, and there is none
when it raises. -/
abbrev Resolver := ℕ → List Char → ℕ → Option (List (List Char))

/-- `resolve_destination`, with what it asked the resolver. -/
def resolveDestination (lib : Library α) (allowPrivate : Bool) (resolver : Resolver)
    (url : List Char) : List (List Char × ℕ) × Except Error Destination :=
  match split lib.urllib url with
  | .error e => ([], .error e)
  | .ok (host, port) =>
      if isIpLiteral host then ([], checkAddresses lib.registry allowPrivate host port [host])
      else
        match resolver 0 host port with
        | none => ([(host, port)], .error .resolver)
        | some addresses =>
            ([(host, port)], checkAddresses lib.registry allowPrivate host port addresses)

/-! ## The request -/

/-- `_pinned_url`. -/
def pinnedUrl (url : List Char) (destination : Destination) : List Char :=
  Url.geturl { Url.split url with
    netloc := Url.pin (destination.addresses.headD []) destination.port }

/-- A request: what is passed to `client.post`. -/
structure Post where
  url : List Char
  content : String
  headers : List (String × String)
  extensions : List (String × List Char)
deriving DecidableEq, Repr

/-- How a request ends: with a status, with a network error, at its deadline, or with an exception
that is none of these. -/
inductive Outcome where
  | status (code : ℕ)
  | networkError
  | timeout
  | raised
deriving DecidableEq, Repr

/-- `_SUCCESS`. -/
def isSuccess (code : ℕ) : Bool := 200 ≤ code && code < 300

/-- `_RETRYABLE_STATUS`. -/
def retryableStatus : List ℕ := [429, 500, 502, 503, 504]

/-- `_BACKOFF_BASE_S`. -/
def backoffBase : ℚ := 1 / 2

/-- What a call did, and how it ended. -/
structure Run where
  asked : List (List Char × ℕ) := []
  posts : List Post := []
  slept : List ℚ := []
  result : Except Error Unit

/-- One attempt before the others. -/
def Run.after (post : Post) (slept : List ℚ) (run : Run) : Run :=
  { run with posts := post :: run.posts, slept := slept ++ run.slept }

/-- `_post_with_retry` from some attempt on: the first argument is how many are left. -/
def postWithRetry (post : Post) (outcomes : ℕ → Outcome) : ℕ → ℕ → Run
  | 0, _ => { result := .error (.delivery "webhook delivery failed after retries") }
  | left + 1, attempt =>
      let slept := if 0 < left then [backoffBase * 2 ^ attempt] else []
      match outcomes attempt with
      | .networkError => (postWithRetry post outcomes left (attempt + 1)).after post slept
      | .timeout => (postWithRetry post outcomes left (attempt + 1)).after post slept
      | .raised => { posts := [post], result := .error .client }
      | .status code =>
          if isSuccess code then { posts := [post], result := .ok () }
          else if code ∉ retryableStatus then
            { posts := [post]
              result := .error (.delivery ("webhook returned status " ++ toString code)) }
          else (postWithRetry post outcomes left (attempt + 1)).after post slept

/-- `WebhookSink`. -/
structure Sink where
  url : List Char
  secret : String
  maxRetries : ℤ
  allowPrivate : Bool

/-- `max(1, max_retries)`. -/
def Sink.attempts (sink : Sink) : ℕ := (max 1 sink.maxRetries).toNat

/-- The `Host` header. -/
def Sink.host (sink : Sink) : List Char :=
  (Url.split sink.url).netloc.rtakeWhile fun c => c ≠ '@'

/-- `client.post` builds a request: `httpx` takes the URL, and the header is ASCII.  The values of
the other headers are. -/
def Sink.builds (sink : Sink) (lib : Library α) (destination : Destination) : Bool :=
  lib.acceptsUrl (pinnedUrl sink.url destination) && sink.host.all fun c => c.toNat < 128

/-- The request that `emit` makes for an alert. -/
def Sink.post (sink : Sink) (lib : Library α) (alert : α) (destination : Destination) : Post :=
  let body := lib.modelDumpJson alert
  { url := pinnedUrl sink.url destination
    content := body
    headers :=
      [("Content-Type", "application/json"),
        ("X-Sentinel-Signature", "sha256=" ++ lib.hmacSha256 sink.secret body),
        ("Host", String.ofList sink.host)]
    extensions :=
      if isIpLiteral destination.host then [] else [("sni_hostname", destination.host)] }

/-- `WebhookSink.emit`. -/
def Sink.emit (sink : Sink) (lib : Library α) (resolver : Resolver) (outcomes : ℕ → Outcome)
    (alert : α) : Run :=
  match resolveDestination lib sink.allowPrivate resolver sink.url with
  | (asked, .error e) => { asked := asked, result := .error e }
  | (asked, .ok destination) =>
      if sink.builds lib destination then
        { postWithRetry (sink.post lib alert destination) outcomes sink.attempts 0 with
          asked := asked }
      else { asked := asked, result := .error .client }

/-! ## What is promised -/

/-- The URL names a host and a port over https. -/
def Located (urllib : Urllib) (url host : List Char) (port : ℕ) : Prop :=
  ∃ parts written, urllib.urlsplit url = some parts ∧ parts.scheme = "https".toList ∧
    urllib.hostname parts.netloc = some host ∧ host ≠ [] ∧
    Url.port parts.netloc = some written ∧ port = configuredPort written

/-- The URL names a host and a port, the addresses are those of the host, there is one, and none of
them is blocked. -/
structure Destined (lib : Library α) (resolver : Resolver) (url host : List Char) (port : ℕ)
    (addresses : List (List Char)) : Prop where
  located : Located lib.urllib url host port
  answered : if isIpLiteral host then addresses = [host] else resolver 0 host port = some addresses
  nonempty : addresses ≠ []
  checked : ∀ address ∈ addresses, isBlockedAddress lib.registry address = some false

/-- The status is final: the request is not made again. -/
def Outcome.Final (outcome : Outcome) : Prop :=
  ∃ code, outcome = .status code ∧ (isSuccess code = true ∨ code ∉ retryableStatus)

/-- What is promised of one call: the resolver is asked at most once, a request goes to the first of
the addresses that were checked, there is none without them, and otherwise there are as many
identical ones as it takes, up to the number of attempts. -/
structure Meets (sink : Sink) (lib : Library α) (resolver : Resolver) (outcomes : ℕ → Outcome)
    (run : Run) : Prop where
  asked : run.asked.length ≤ 1
  targeted : ∀ post ∈ run.posts, ∃ host port first rest,
    Destined lib resolver sink.url host port (first :: rest) ∧
      Url.target httpsPort post.url = some ⟨"https".toList, first, port⟩
  refused : (¬ ∃ host port addresses, Destined lib resolver sink.url host port addresses) →
    run.posts = [] ∧ ∃ e, run.result = .error e
  attempted : (∃ host port addresses, Destined lib resolver sink.url host port addresses) →
    1 ≤ run.posts.length ∧ run.posts.length ≤ sink.attempts ∧
      (run.result = .ok () ↔
        ∃ code, outcomes (run.posts.length - 1) = .status code ∧ isSuccess code = true)
  identical : ∀ post ∈ run.posts, ∀ post' ∈ run.posts, post = post'
  stopped : ∀ i, i + 1 < run.posts.length → ¬ (outcomes i).Final

/-! ## What the guard accepts -/

variable {lib : Library α} {resolver : Resolver} {outcomes : ℕ → Outcome} {sink : Sink}
  {url host : List Char} {port : ℕ} {addresses : List (List Char)}

lemma split_of_located (h : Located lib.urllib url host port) :
    split lib.urllib url = .ok (host, port) := by
  rcases h with ⟨parts, written, hparts, hscheme, hhost, hne, hport, rfl⟩
  unfold split
  simp only [hparts, hscheme, hhost, hne, hport, ne_eq, not_true_eq_false, if_false]

lemma located_of_split (h : split lib.urllib url = .ok (host, port)) :
    Located lib.urllib url host port := by
  unfold split at h
  split at h
  case h_1 => cases h
  case h_2 parts hparts =>
    split_ifs at h with hscheme
    split at h
    case h_1 => cases h
    case h_2 host' hhost =>
      split_ifs at h with hne
      split at h
      case h_1 => cases h
      case h_2 written hport =>
        cases h
        exact ⟨parts, written, hparts, not_not.mp hscheme, hhost, hne, hport, rfl⟩

/-- No address is blocked, and all of them are addresses. -/
lemma anyBlocked_eq_false_iff {registry : IpAddress.Registry} :
    anyBlocked registry addresses = some false ↔
      ∀ address ∈ addresses, isBlockedAddress registry address = some false := by
  induction addresses with
  | nil => exact ⟨fun _ address h => absurd h List.not_mem_nil, fun _ => rfl⟩
  | cons address addresses ih =>
      rw [List.forall_mem_cons, ← ih, anyBlocked]
      cases isBlockedAddress registry address with
      | none => simp
      | some blocked =>
          cases blocked with
          | true => simp
          | false => simp

lemma checkAddresses_eq_ok_iff {registry : IpAddress.Registry} {destination : Destination} :
    checkAddresses registry false host port addresses = .ok destination ↔
      destination = ⟨host, port, addresses⟩ ∧ addresses ≠ [] ∧
        ∀ address ∈ addresses, isBlockedAddress registry address = some false := by
  rw [← anyBlocked_eq_false_iff, checkAddresses]
  by_cases hempty : addresses = []
  · simp [hempty]
  · rw [if_neg hempty, if_neg Bool.false_ne_true]
    cases anyBlocked registry addresses with
    | none => simp
    | some blocked =>
        cases blocked with
        | true => simp
        | false => simp [hempty, eq_comm]

/-- The resolver is asked at most once. -/
lemma length_asked_le (lib : Library α) (allowPrivate : Bool) (resolver : Resolver)
    (url : List Char) : (resolveDestination lib allowPrivate resolver url).1.length ≤ 1 := by
  unfold resolveDestination
  split
  · exact Nat.zero_le 1
  · split_ifs
    · exact Nat.zero_le 1
    · split
      · exact le_rfl
      · exact le_rfl

/-- What the guard accepts. -/
lemma resolveDestination_eq_ok_iff (destination : Destination) :
    (resolveDestination lib false resolver url).2 = .ok destination ↔
      Destined lib resolver url destination.host destination.port destination.addresses := by
  constructor
  · intro h
    unfold resolveDestination at h
    split at h
    case h_1 => cases h
    case h_2 host port hsplit =>
      have hlocated := located_of_split hsplit
      split_ifs at h with hliteral
      · have hcheck : checkAddresses lib.registry false host port [host] = .ok destination := h
        rcases checkAddresses_eq_ok_iff.mp hcheck with ⟨rfl, hne, hchecked⟩
        exact ⟨hlocated, by rw [if_pos hliteral], hne, hchecked⟩
      · split at h
        case h_1 => cases h
        case h_2 addresses hanswer =>
          have hcheck : checkAddresses lib.registry false host port addresses =
            .ok destination := h
          rcases checkAddresses_eq_ok_iff.mp hcheck with ⟨rfl, hne, hchecked⟩
          exact ⟨hlocated, by rw [if_neg hliteral]; exact hanswer, hne, hchecked⟩
  · intro h
    have hcheck := checkAddresses_eq_ok_iff.mpr
      ⟨(rfl : destination = ⟨destination.host, destination.port, destination.addresses⟩),
        h.nonempty, h.checked⟩
    have hanswered := h.answered
    unfold resolveDestination
    rw [split_of_located h.located]
    by_cases hliteral : isIpLiteral destination.host = true
    · rw [if_pos hliteral] at hanswered
      simp only [hliteral, if_true]
      rw [← hanswered]
      exact hcheck
    · rw [if_neg hliteral] at hanswered
      simp only [hliteral, hanswered, Bool.false_eq_true, if_false]
      exact hcheck

/-! ## The retries -/

variable {post : Post} {run : Run} {left attempt : ℕ}

/-- How the loop ends that has some attempts left. -/
structure Retried (post : Post) (outcomes : ℕ → Outcome) (left attempt : ℕ) (run : Run) : Prop where
  same : ∀ post' ∈ run.posts, post' = post
  length_le : run.posts.length ≤ left
  pos : 0 < left → 0 < run.posts.length
  delivered : 0 < left → (run.result = .ok () ↔
    ∃ code, outcomes (attempt + (run.posts.length - 1)) = .status code ∧ isSuccess code = true)
  stopped : ∀ i, i + 1 < run.posts.length → ¬ (outcomes (attempt + i)).Final

/-- The attempt is the last one. -/
lemma retried_singleton {result : Except Error Unit}
    (hresult : result = .ok () ↔ ∃ code, outcomes attempt = .status code ∧ isSuccess code = true) :
    Retried post outcomes (left + 1) attempt { posts := [post], result := result } where
  same := fun post' h => List.mem_singleton.mp h
  length_le := Nat.succ_le_succ (Nat.zero_le left)
  pos := fun _ => Nat.one_pos
  delivered := by
    intro _
    exact hresult
  stopped := fun i hi => absurd hi (by simp)

/-- The attempt failed, and the others follow. -/
lemma retried_after (hfailed : ¬ (outcomes attempt).Final) (slept : List ℚ)
    (hrest : Retried post outcomes left (attempt + 1) run)
    (hlast : left = 0 → run.posts = [] ∧ run.result ≠ .ok ()) :
    Retried post outcomes (left + 1) attempt (run.after post slept) where
  same := by
    intro post' hpost'
    rcases List.mem_cons.mp hpost' with rfl | hpost'
    · rfl
    · exact hrest.same post' hpost'
  length_le := Nat.succ_le_succ hrest.length_le
  pos := fun _ => Nat.succ_pos _
  delivered := by
    intro _
    show run.result = .ok () ↔ ∃ code, outcomes (attempt + run.posts.length) = .status code ∧
      isSuccess code = true
    rcases Nat.eq_zero_or_pos left with hleft | hleft
    · rcases hlast hleft with ⟨hposts, hresult⟩
      rw [hposts, List.length_nil, Nat.add_zero]
      refine ⟨fun h => absurd h hresult, ?_⟩
      rintro ⟨code, hcode, hsuccess⟩
      exact absurd ⟨code, hcode, Or.inl hsuccess⟩ hfailed
    · have hpos := hrest.pos hleft
      have hindex : attempt + 1 + (run.posts.length - 1) = attempt + run.posts.length := by omega
      rw [hrest.delivered hleft, hindex]
  stopped := by
    intro i hi
    cases i with
    | zero => exact hfailed
    | succ i =>
        rw [← Nat.add_assoc, Nat.add_right_comm]
        exact hrest.stopped i (Nat.lt_of_succ_lt_succ hi)

lemma not_final_of_status {code : ℕ} (houtcome : outcomes attempt = .status code)
    (hsuccess : ¬ isSuccess code = true) (hretryable : ¬ code ∉ retryableStatus) :
    ¬ (outcomes attempt).Final := by
  rintro ⟨code', hcode, hfinal⟩
  rw [houtcome] at hcode
  cases hcode
  exact hfinal.elim hsuccess hretryable

/-- The loop, by induction on the attempts that are left. -/
lemma retried_postWithRetry (post : Post) (outcomes : ℕ → Outcome) (left attempt : ℕ) :
    Retried post outcomes left attempt (postWithRetry post outcomes left attempt) := by
  induction left generalizing attempt with
  | zero =>
      exact
        { same := fun _ h => absurd h List.not_mem_nil
          length_le := le_rfl
          pos := fun h => absurd h (lt_irrefl 0)
          delivered := fun h => absurd h (lt_irrefl 0)
          stopped := fun _ h => absurd h (Nat.not_lt_zero _) }
  | succ left ih =>
      have hlast : left = 0 → (postWithRetry post outcomes left (attempt + 1)).posts = [] ∧
          (postWithRetry post outcomes left (attempt + 1)).result ≠ .ok () := by
        rintro rfl
        exact ⟨rfl, nofun⟩
      unfold postWithRetry
      cases houtcome : outcomes attempt with
      | networkError =>
          refine retried_after ?_ _ (ih (attempt + 1)) hlast
          rintro ⟨code, hcode, -⟩
          exact nomatch houtcome.symm.trans hcode
      | timeout =>
          refine retried_after ?_ _ (ih (attempt + 1)) hlast
          rintro ⟨code, hcode, -⟩
          exact nomatch houtcome.symm.trans hcode
      | raised => exact retried_singleton (by simp [houtcome])
      | status code =>
          by_cases hsuccess : isSuccess code = true
          · simp only [hsuccess, if_true]
            exact retried_singleton (by simp [houtcome, hsuccess])
          · by_cases hretryable : code ∉ retryableStatus
            · simp only [hsuccess, hretryable, if_false, if_true, Bool.false_eq_true,
                not_false_eq_true]
              exact retried_singleton (by simp [houtcome, hsuccess])
            · simp only [hsuccess, hretryable, if_false, Bool.false_eq_true]
              exact retried_after (not_final_of_status houtcome hsuccess hretryable) _
                (ih (attempt + 1)) hlast

/-! ## Where the requests go -/

lemma configuredPort_le {written : Option ℕ} (h : ∀ port ∈ written, port ≤ 65535) :
    configuredPort written ≤ 65535 := by
  match written with
  | none => exact (by decide : httpsPort ≤ 65535)
  | some 0 => exact (by decide : httpsPort ≤ 65535)
  | some (port + 1) => exact h (port + 1) rfl

lemma port_le {netloc : List Char} {written : Option ℕ} (h : Url.port netloc = some written) :
    ∀ port ∈ written, port ≤ 65535 := by
  intro port hport
  unfold Url.port at h
  split at h
  · cases h
    cases hport
  · rcases Option.map_eq_some_iff.mp h with ⟨port', hparse, rfl⟩
    cases hport
    unfold Url.parsePort at hparse
    split_ifs at hparse
    exact of_decide_eq_true (Option.filter_eq_some_iff.mp hparse).2

/-- The pinned URL is one for the address that was checked exactly if the zone of the address has
no characters that mean something in a URL. -/
lemma target_pinnedUrl_iff {first : List Char} {rest : List (List Char)}
    (h : Destined lib resolver url host port (first :: rest)) :
    Url.target httpsPort (pinnedUrl url ⟨host, port, first :: rest⟩) =
      some ⟨"https".toList, first, port⟩ ↔ Url.Plain (Url.zone first) := by
  rcases h.located with ⟨parts, written, hparts, hscheme, -, -, hport, rfl⟩
  have hsplit : Url.split url = parts := by
    unfold Urllib.urlsplit at hparts
    split_ifs at hparts
    exact Option.some.inj hparts
  rcases Option.map_eq_some_iff.mp (h.checked first List.mem_cons_self) with ⟨ip, hip, -⟩
  rw [← Url.plain_iff_zone hip]
  exact Url.target_geturl_iff (by rw [hsplit]; exact hscheme) rfl (Url.isAddress_of_ipAddress hip)
    (configuredPort_le (port_le hport)) httpsPort

/-- What the guard accepts is determined. -/
lemma destined_unique {host' : List Char} {port' : ℕ} {addresses' : List (List Char)}
    (h : Destined lib resolver url host port addresses)
    (h' : Destined lib resolver url host' port' addresses') :
    (⟨host, port, addresses⟩ : Destination) = ⟨host', port', addresses'⟩ := by
  have hok := (resolveDestination_eq_ok_iff ⟨host, port, addresses⟩).mpr h
  have hok' := (resolveDestination_eq_ok_iff ⟨host', port', addresses'⟩).mpr h'
  exact Except.ok.inj (hok.symm.trans hok')

/-- One `emit`, when the guard accepts the destination. -/
lemma emit_of_destined (hpublic : sink.allowPrivate = false)
    (h : Destined lib resolver sink.url host port addresses) (outcomes : ℕ → Outcome) (alert : α) :
    sink.emit lib resolver outcomes alert =
      if sink.builds lib ⟨host, port, addresses⟩ then
        { postWithRetry (sink.post lib alert ⟨host, port, addresses⟩) outcomes sink.attempts 0 with
          asked := (resolveDestination lib false resolver sink.url).1 }
      else
        { asked := (resolveDestination lib false resolver sink.url).1
          result := .error .client } := by
  have hok := (resolveDestination_eq_ok_iff ⟨host, port, addresses⟩).mpr h
  rw [Sink.emit, hpublic]
  rcases hresolve : resolveDestination lib false resolver sink.url with ⟨asked, result⟩
  rw [hresolve] at hok
  have hresult : result = .ok ⟨host, port, addresses⟩ := hok
  rw [hresult]

/-- One `emit`, when the guard refuses the destination. -/
lemma emit_of_not_destined (hpublic : sink.allowPrivate = false)
    (h : ¬ ∃ host port addresses, Destined lib resolver sink.url host port addresses)
    (outcomes : ℕ → Outcome) (alert : α) :
    ∃ e, sink.emit lib resolver outcomes alert =
      { asked := (resolveDestination lib false resolver sink.url).1, result := .error e } := by
  rw [Sink.emit, hpublic]
  rcases hresolve : resolveDestination lib false resolver sink.url with ⟨asked, result⟩
  cases result with
  | error e => exact ⟨e, rfl⟩
  | ok destination =>
      refine absurd ⟨destination.host, destination.port, destination.addresses, ?_⟩ h
      rw [← resolveDestination_eq_ok_iff, hresolve]

/-- **A request only ever goes to an address that was checked for it, exactly if** the zone of the
first address has none of the characters that mean something in a URL and the client builds a
request for it. -/
theorem meets_iff_plain_zone (lib : Library α) (sink : Sink) (hpublic : sink.allowPrivate = false)
    (resolver : Resolver) (outcomes : ℕ → Outcome) (alert : α) :
    Meets sink lib resolver outcomes (sink.emit lib resolver outcomes alert) ↔
      ∀ host port first rest, Destined lib resolver sink.url host port (first :: rest) →
        Url.Plain (Url.zone first) ∧ sink.builds lib ⟨host, port, first :: rest⟩ = true := by
  have hasked := length_asked_le lib false resolver sink.url
  have hattempts : 0 < sink.attempts := by
    unfold Sink.attempts
    omega
  constructor
  · intro hmeets host port first rest h
    have hretried := retried_postWithRetry (sink.post lib alert ⟨host, port, first :: rest⟩)
      outcomes sink.attempts 0
    rw [emit_of_destined hpublic h] at hmeets
    by_cases hbuilds : sink.builds lib ⟨host, port, first :: rest⟩ = true
    swap
    · rw [if_neg hbuilds] at hmeets
      exact absurd (hmeets.attempted ⟨host, port, first :: rest, h⟩).1 (by simp)
    rw [if_pos hbuilds] at hmeets
    refine ⟨?_, hbuilds⟩
    rcases List.exists_mem_of_length_pos (hretried.pos hattempts) with ⟨post, hpost⟩
    rcases hmeets.targeted post hpost with ⟨host', port', first', rest', h', htarget⟩
    cases destined_unique h h'
    rw [hretried.same post hpost] at htarget
    exact (target_pinnedUrl_iff h).mp htarget
  · intro hplain
    by_cases hdestined : ∃ host port addresses,
        Destined lib resolver sink.url host port addresses
    · rcases hdestined with ⟨host, port, addresses, h⟩
      rcases List.exists_cons_of_ne_nil h.nonempty with ⟨first, rest, rfl⟩
      have hretried := retried_postWithRetry (sink.post lib alert ⟨host, port, first :: rest⟩)
        outcomes sink.attempts 0
      obtain ⟨hzone, hbuilds⟩ := hplain host port first rest h
      have htarget := (target_pinnedUrl_iff h).mpr hzone
      rw [emit_of_destined hpublic h, if_pos hbuilds]
      exact
        { asked := hasked
          targeted := fun post hpost =>
            ⟨host, port, first, rest, h, by rw [hretried.same post hpost]; exact htarget⟩
          refused := fun hno => absurd ⟨host, port, first :: rest, h⟩ hno
          attempted := fun _ => ⟨hretried.pos hattempts, hretried.length_le, by
            rw [hretried.delivered hattempts, Nat.zero_add]⟩
          identical := fun post hpost post' hpost' =>
            (hretried.same post hpost).trans (hretried.same post' hpost').symm
          stopped := fun i hi => by
            rw [← Nat.zero_add i]
            exact hretried.stopped i hi }
    · rcases emit_of_not_destined hpublic hdestined outcomes alert with ⟨e, hemit⟩
      rw [hemit]
      exact
        { asked := hasked
          targeted := fun post hpost => absurd hpost List.not_mem_nil
          refused := fun _ => ⟨rfl, e, rfl⟩
          attempted := fun h => absurd h hdestined
          identical := fun post hpost => absurd hpost List.not_mem_nil
          stopped := fun i hi => absurd hi (Nat.not_lt_zero _) }

/-! ## A zone that is not plain -/

/-- The libraries on ASCII texts, and on the one body that is signed below. -/
def asciiLibrary : Library String where
  urllib := ⟨fun _ => true, fun text => text.map Char.toLower⟩
  registry := IpAddress.specialPurpose
  acceptsUrl url := url.all fun c => 32 ≤ c.toNat && c.toNat < 127
  modelDumpJson := id
  hmacSha256 := fun _ _ => "46bdc2a2e83964bd2695acc6a1f97162d8bafc135a071aa5cd5c99aae5481440"

def hook : Sink where
  url := "https://hooks.example.com:8443/h".toList
  secret := "whsec_test"
  maxRetries := 3
  allowPrivate := false

/-- The host has one address. -/
def resolvesTo (address : String) : Resolver := fun _ _ _ => some [address.toList]

/-- The first answer of the server is 503, the others are 200. -/
def unavailableOnce : ℕ → Outcome
  | 0 => .status 503
  | _ + 1 => .status 200

lemma split_hook : split asciiLibrary.urllib hook.url =
    .ok ("hooks.example.com".toList, 8443) := by
  decide +kernel

lemma destination_of_destined {address : String}
    (h : Destined asciiLibrary (resolvesTo address) hook.url host port addresses) :
    host = "hooks.example.com".toList ∧ port = 8443 ∧ addresses = [address.toList] := by
  have hlocated := split_of_located h.located
  rw [split_hook] at hlocated
  obtain ⟨rfl, rfl⟩ := Prod.mk.inj (Except.ok.inj hlocated)
  have hanswered := h.answered
  rw [if_neg (by decide +kernel)] at hanswered
  exact ⟨rfl, rfl, (Option.some.inj hanswered).symm⟩

theorem meets_iff_plain_zone_public :
    Meets hook asciiLibrary (resolvesTo "93.184.216.34") unavailableOnce
      (hook.emit asciiLibrary (resolvesTo "93.184.216.34") unavailableOnce "{}") :=
  (meets_iff_plain_zone asciiLibrary hook rfl (resolvesTo "93.184.216.34") unavailableOnce
    "{}").mpr fun host port first rest h => by
      obtain ⟨rfl, rfl, haddresses⟩ := destination_of_destined h
      obtain ⟨rfl, rfl⟩ := List.cons.inj haddresses
      exact ⟨by decide +kernel, by decide +kernel⟩

/-- An address that is globally reachable, with a zone that puts another one into the URL. -/
def misleading : String := "2606:4700:4700::1111%x]@127.0.0.1#"

/-- The request goes to the address in the zone, which is blocked. -/
theorem zone_misdirects :
    ¬ ∀ (lib : Library String) (sink : Sink) (resolver : Resolver) (outcomes : ℕ → Outcome)
      (alert : String), sink.allowPrivate = false →
        Meets sink lib resolver outcomes (sink.emit lib resolver outcomes alert) := by
  intro h
  have hmeets := h asciiLibrary hook (resolvesTo misleading) unavailableOnce "{}" rfl
  have hposts : (hook.emit asciiLibrary (resolvesTo misleading) unavailableOnce
      "{}").posts.map (fun post => Url.target httpsPort post.url) =
        [some ⟨"https".toList, "127.0.0.1".toList, 443⟩,
          some ⟨"https".toList, "127.0.0.1".toList, 443⟩] := by
    decide +kernel
  have htarget : some (⟨"https".toList, "127.0.0.1".toList, 443⟩ : Target) ∈
      (hook.emit asciiLibrary (resolvesTo misleading) unavailableOnce "{}").posts.map
        fun post => Url.target httpsPort post.url := by
    rw [hposts]
    exact List.mem_cons_self
  rcases List.mem_map.mp htarget with ⟨post, hpost, heq⟩
  rcases hmeets.targeted post hpost with ⟨host, port, first, rest, hdestined, htarget'⟩
  rw [heq] at htarget'
  have hfirst : "127.0.0.1".toList = first := congrArg Target.host (Option.some.inj htarget')
  have hchecked := hdestined.checked first List.mem_cons_self
  rw [← hfirst] at hchecked
  exact absurd hchecked (by decide +kernel)

end Sentinel.Webhook
