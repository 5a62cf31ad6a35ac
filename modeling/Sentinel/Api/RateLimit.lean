import Mathlib.Data.Finset.Card
import Mathlib.Data.Rat.Floor
import Sentinel.Library.Dict
import Sentinel.Library.IpAddress
import Sentinel.Library.RateLimit

/-!
# The rate limit of the API

`RateLimitMiddleware` of `api/security.py`.  Every request that is not exempt is counted in the
bucket of its client: the TCP peer, with the API key or without it.  At most `_MAX_TRACKED_CLIENTS`
buckets have a window; one more evicts the oldest.  A request is served without a pause between the
reading of the clock and the update of its window, so requests come one after the other.
-/

namespace Sentinel.Api

/-! ## Requests and responses -/

/-- What the middleware reads of a request. -/
structure Request where
  path : String
  authorization : Option String := none
  client : Option String := none
deriving DecidableEq

structure ErrorResponse where
  statusCode : ℕ
  code : String
  message : String
  headers : List (String × String)
deriving DecidableEq

/-- `_SECURITY_HEADERS`. -/
def securityHeaders : List (String × String) :=
  [("Strict-Transport-Security", "max-age=31536000; includeSubDomains"),
    ("X-Content-Type-Options", "nosniff"),
    ("X-Frame-Options", "DENY"),
    ("Referrer-Policy", "strict-origin-when-cross-origin"),
    ("Permissions-Policy", "camera=(), microphone=(), geolocation=()"),
    ("Cache-Control", "no-store"),
    ("Content-Security-Policy", "default-src 'none'; frame-ancestors 'none'")]

/-- `error_response`. -/
def errorResponse (statusCode : ℕ) (code message : String) (headers : List (String × String)) :
    ErrorResponse where
  statusCode := statusCode
  code := code
  message := message
  headers := headers.foldl (fun d header => Dict.set d header.1 header.2) securityHeaders

/-- `_bearer_token`. -/
def bearerToken (request : Request) : Option String :=
  let header := (request.authorization.getD "").toList
  let scheme := header.takeWhile (· ≠ ' ')
  let token := (header.dropWhile (· ≠ ' ')).drop 1
  if scheme.map Char.toLower = "bearer".toList ∧ token ≠ [] then some (String.ofList token)
  else none

/-! ## The middleware -/

/-- `_MAX_TRACKED_CLIENTS`. -/
def maxTrackedClients : ℕ := 100000

structure Config where
  limit : ℕ
  windowSeconds : ℚ
  apiKey : Option String := none
  exemptPaths : List String := []

/-- Whether the request presents the API key, and its peer. -/
abbrev Bucket := Bool × String

def Config.authenticated (c : Config) (request : Request) : Bool :=
  match bearerToken request, c.apiKey with
  | some token, some key => token == key
  | _, _ => false

def Config.bucket (c : Config) (request : Request) : Bucket :=
  (c.authenticated request, request.client.getD "unknown")

/-- The key of a bucket in `_hits`. -/
def bucketName (bucket : Bucket) : String := (if bucket.1 then "key" else "anon") ++ ":" ++ bucket.2

/-- `_hits`. -/
abbrev Hits := List (String × List ℚ)

/-- `_window_for`: the window of a client, and `_hits` with it. -/
def windowFor (hits : Hits) (client : String) : List ℚ × Hits :=
  match Dict.get hits client with
  | some existing => (existing, hits)
  | none => ([], Dict.set (if maxTrackedClients ≤ hits.length then hits.tail else hits) client [])

/-- `str(int(self._window) or 1)`. -/
def retryAfter (windowSeconds : ℚ) : String :=
  let seconds := Int.tdiv windowSeconds.num windowSeconds.den
  toString (if seconds = 0 then 1 else seconds)

/-- The response to a request that is refused. -/
def rateLimited (c : Config) : ErrorResponse :=
  errorResponse 429 "RATE_LIMITED" "rate limit exceeded"
    [("Retry-After", retryAfter c.windowSeconds)]

/-- `dispatch`: the response if the request is refused, and `none` if it is passed on. -/
def dispatch (c : Config) (hits : Hits) (request : Request) (now : ℚ) :
    Option ErrorResponse × Hits :=
  if request.path ∈ c.exemptPaths then (none, hits)
  else
    let name := bucketName (c.bucket request)
    let (window, hits) := windowFor hits name
    let window := RateLimit.trim c.windowSeconds window now
    if c.limit ≤ window.length then (some (rateLimited c), Dict.set hits name window)
    else (none, Dict.set hits name (window ++ [now]))

/-! ## Runs -/

/-- A request and the time that `dispatch` reads for it. -/
structure Arrival where
  request : Request
  now : ℚ
deriving DecidableEq

/-- `_hits` after some requests. -/
def after (c : Config) : Hits → List Arrival → Hits
  | hits, [] => hits
  | hits, a :: arrivals => after c (dispatch c hits a.request a.now).2 arrivals

/-- The next request is passed on. -/
def admits (c : Config) (before : List Arrival) (a : Arrival) : Bool :=
  (dispatch c (after c [] before) a.request a.now).1.isNone

/-- The request is counted in the bucket. -/
def Config.charges (c : Config) (bucket : Bucket) (a : Arrival) : Bool :=
  decide (a.request.path ∉ c.exemptPaths ∧ c.bucket a.request = bucket)

/-- The times at which requests of a bucket were admitted, of those in `arrivals` that come after
those in `before`. -/
def admittedFrom (c : Config) (bucket : Bucket) : List Arrival → List Arrival → List ℚ
  | _, [] => []
  | before, a :: arrivals =>
      (if c.charges bucket a && admits c before a then [a.now] else []) ++
        admittedFrom c bucket (before ++ [a]) arrivals

def admittedTimes (c : Config) (bucket : Bucket) (arrivals : List Arrival) : List ℚ :=
  admittedFrom c bucket [] arrivals

/-- The buckets that occur. -/
def bucketsOf (c : Config) (arrivals : List Arrival) : List Bucket :=
  (arrivals.filter fun a => a.request.path ∉ c.exemptPaths).map fun a => c.bucket a.request

variable {c : Config} {hits : Hits} {arrivals before : List Arrival} {a : Arrival} {bucket : Bucket}

lemma after_append (arrivals' : List Arrival) :
    after c hits (arrivals ++ arrivals') = after c (after c hits arrivals) arrivals' := by
  induction arrivals generalizing hits with
  | nil => rfl
  | cons a arrivals ih => exact ih

lemma admittedFrom_append (arrivals' : List Arrival) :
    admittedFrom c bucket before (arrivals ++ arrivals') =
      admittedFrom c bucket before arrivals ++
        admittedFrom c bucket (before ++ arrivals) arrivals' := by
  induction arrivals generalizing before with
  | nil => simp [admittedFrom]
  | cons a arrivals ih =>
      rw [List.cons_append, admittedFrom, ih, admittedFrom, List.append_assoc, List.append_assoc,
        List.singleton_append]

lemma admittedTimes_concat : admittedTimes c bucket (arrivals ++ [a]) =
    admittedTimes c bucket arrivals ++
      if c.charges bucket a && admits c arrivals a then [a.now] else [] := by
  rw [admittedTimes, admittedFrom_append, admittedFrom, admittedFrom, List.append_nil,
    List.nil_append]
  rfl

lemma bucketName_injective : Function.Injective bucketName := by
  rintro ⟨auth, client⟩ ⟨auth', client'⟩ h
  have hchars := congrArg String.toList h
  simp only [bucketName, String.toList_append, List.append_assoc] at hchars
  cases auth <;> cases auth'
  · exact Prod.ext rfl (String.toList_injective (by simpa using hchars))
  · simp at hchars
  · simp at hchars
  · exact Prod.ext rfl (String.toList_injective (by simpa using hchars))

/-! ## One request -/

/-- `_hits` with a place for a client. -/
def roomFor (hits : Hits) (client : String) : Hits :=
  if Dict.get hits client = none ∧ maxTrackedClients ≤ hits.length then hits.tail else hits

/-- The window in which a request is counted. -/
def windowAt (c : Config) (hits : Hits) (bucket : Bucket) (now : ℚ) : List ℚ :=
  RateLimit.trim c.windowSeconds ((Dict.get hits (bucketName bucket)).getD []) now

lemma windowFor_fst (hits : Hits) (client : String) :
    (windowFor hits client).1 = (Dict.get hits client).getD [] := by
  unfold windowFor
  cases Dict.get hits client <;> rfl

lemma get_windowFor {client name : String} (hne : client ≠ name) :
    Dict.get (windowFor hits client).2 name = Dict.get (roomFor hits client) name := by
  unfold windowFor roomFor
  cases Dict.get hits client with
  | none =>
      dsimp only
      rw [Dict.get_set, if_neg hne]
      simp
  | some existing => simp

lemma nodup_roomFor (client : String) (h : (Dict.keys hits).Nodup) :
    (Dict.keys (roomFor hits client)).Nodup := by
  unfold roomFor
  split_ifs
  · exact List.Nodup.sublist ((List.tail_sublist hits).map Prod.fst) h
  · exact h

lemma keys_roomFor_subset {client : String} :
    Dict.keys (roomFor hits client) ⊆ Dict.keys hits := by
  unfold roomFor
  split_ifs
  · exact List.map_subset _ (List.tail_subset hits)
  · exact List.Subset.refl _

lemma nodup_windowFor {client : String} (h : (Dict.keys hits).Nodup) :
    (Dict.keys (windowFor hits client).2).Nodup := by
  unfold windowFor
  cases hget : Dict.get hits client with
  | none =>
      have hroom := nodup_roomFor client h
      rw [roomFor, hget] at hroom
      simp only [true_and] at hroom
      exact Dict.nodup_keys_set hroom client []
  | some existing => exact h

/-- An exempt request is passed on and leaves everything as it is. -/
lemma dispatch_of_exempt (h : a.request.path ∈ c.exemptPaths) :
    dispatch c hits a.request a.now = (none, hits) := if_pos h

lemma dispatch_of_limited (h : a.request.path ∉ c.exemptPaths) :
    dispatch c hits a.request a.now =
      if c.limit ≤ (windowAt c hits (c.bucket a.request) a.now).length then
        (some (rateLimited c), Dict.set (windowFor hits (bucketName (c.bucket a.request))).2
          (bucketName (c.bucket a.request)) (windowAt c hits (c.bucket a.request) a.now))
      else (none, Dict.set (windowFor hits (bucketName (c.bucket a.request))).2
        (bucketName (c.bucket a.request))
          (windowAt c hits (c.bucket a.request) a.now ++ [a.now])) := by
  rw [dispatch, if_neg h, windowAt, ← windowFor_fst]

lemma isNone_dispatch (h : a.request.path ∉ c.exemptPaths) :
    (dispatch c hits a.request a.now).1.isNone = true ↔
      (windowAt c hits (c.bucket a.request) a.now).length < c.limit := by
  rw [dispatch_of_limited h]
  split_ifs with hfull
  · simpa using hfull
  · simpa using hfull

/-- What a request leaves in its window. -/
lemma dispatch_snd (h : a.request.path ∉ c.exemptPaths) :
    (dispatch c hits a.request a.now).2 =
      Dict.set (windowFor hits (bucketName (c.bucket a.request))).2
        (bucketName (c.bucket a.request))
        (windowAt c hits (c.bucket a.request) a.now ++
          if (dispatch c hits a.request a.now).1.isNone then [a.now] else []) := by
  rw [dispatch_of_limited h]
  by_cases hfull : c.limit ≤ (windowAt c hits (c.bucket a.request) a.now).length
  · rw [if_pos hfull]
    simp
  · rw [if_neg hfull]
    rfl

lemma charges_iff : c.charges bucket a = true ↔
    a.request.path ∉ c.exemptPaths ∧ c.bucket a.request = bucket := decide_eq_true_iff

lemma after_concat : after c [] (before ++ [a]) =
    (dispatch c (after c [] before) a.request a.now).2 := after_append [a]

lemma nodup_after (before : List Arrival) : (Dict.keys (after c [] before)).Nodup := by
  induction before using List.reverseRecOn with
  | nil => exact List.nodup_nil
  | append_singleton before a ih =>
      rw [after_concat]
      by_cases hpath : a.request.path ∈ c.exemptPaths
      · rw [dispatch_of_exempt hpath]
        exact ih
      · rw [dispatch_snd hpath]
        exact Dict.nodup_keys_set (nodup_windowFor ih) _ _

/-- A request changes its own window; of the others it may evict one. -/
lemma get_after_concat (hpath : a.request.path ∉ c.exemptPaths) (bucket : Bucket) :
    Dict.get (after c [] (before ++ [a])) (bucketName bucket) =
      if c.bucket a.request = bucket then
        some (windowAt c (after c [] before) bucket a.now ++
          if admits c before a then [a.now] else [])
      else Dict.get (roomFor (after c [] before) (bucketName (c.bucket a.request)))
        (bucketName bucket) := by
  rw [after_concat, dispatch_snd hpath, Dict.get_set]
  by_cases hbucket : c.bucket a.request = bucket
  · rw [if_pos (congrArg bucketName hbucket), if_pos hbucket, hbucket]
    rfl
  · have hname : bucketName (c.bucket a.request) ≠ bucketName bucket := fun hname =>
      hbucket (bucketName_injective hname)
    rw [if_neg hname, if_neg hbucket, get_windowFor hname]

/-- The times a request adds to those of a bucket. -/
lemma admittedTimes_of_other (h : c.charges bucket a = false) :
    admittedTimes c bucket (before ++ [a]) = admittedTimes c bucket before := by
  rw [admittedTimes_concat, h, Bool.false_and, if_neg Bool.false_ne_true, List.append_nil]

lemma admittedTimes_of_own (h : c.charges bucket a = true) :
    admittedTimes c bucket (before ++ [a]) =
      admittedTimes c bucket before ++ if admits c before a then [a.now] else [] := by
  rw [admittedTimes_concat, h, Bool.true_and]

/-! ## What a window remembers -/

/-- A window holds the last admitted times of its bucket, whatever was evicted. -/
lemma exists_admittedTimes_eq (before : List Arrival) (bucket : Bucket) :
    ∃ old, admittedTimes c bucket before =
      old ++ (Dict.get (after c [] before) (bucketName bucket)).getD [] := by
  induction before using List.reverseRecOn with
  | nil => exact ⟨[], rfl⟩
  | append_singleton before a ih =>
      rcases ih with ⟨old, hold⟩
      by_cases hpath : a.request.path ∈ c.exemptPaths
      · have hother : c.charges bucket a = false :=
          Bool.eq_false_iff.mpr fun h => (charges_iff.mp h).1 hpath
        rw [admittedTimes_of_other hother, after_concat, dispatch_of_exempt hpath]
        exact ⟨old, hold⟩
      · rw [get_after_concat hpath]
        by_cases hbucket : c.bucket a.request = bucket
        · -- its own window: what has expired joins the forgotten times
          have hsplit : (Dict.get (after c [] before) (bucketName bucket)).getD [] =
              ((Dict.get (after c [] before) (bucketName bucket)).getD []).takeWhile
                (fun t => decide (t < a.now - c.windowSeconds)) ++
              windowAt c (after c [] before) bucket a.now := List.takeWhile_append_dropWhile.symm
          rw [if_pos hbucket, admittedTimes_of_own (charges_iff.mpr ⟨hpath, hbucket⟩), hold, hsplit,
            Option.getD_some, List.append_assoc, List.append_assoc, ← List.append_assoc old]
          exact ⟨_, rfl⟩
        · have hother : c.charges bucket a = false :=
            Bool.eq_false_iff.mpr fun h => hbucket (charges_iff.mp h).2
          rw [if_neg hbucket, admittedTimes_of_other hother]
          cases hroom : Dict.get (roomFor (after c [] before)
            (bucketName (c.bucket a.request))) (bucketName bucket) with
          | none => exact ⟨_, (List.append_nil _).symm⟩
          | some window =>
              have hget : Dict.get (after c [] before) (bucketName bucket) = some window := by
                unfold roomFor at hroom
                split_ifs at hroom
                · exact Dict.get_of_get_tail (nodup_after before) hroom
                · exact hroom
              rw [hget] at hold
              exact ⟨old, hold⟩

lemma admittedTimes_sublist : (admittedTimes c bucket before).Sublist (before.map Arrival.now) := by
  induction before using List.reverseRecOn with
  | nil => exact List.Sublist.slnil
  | append_singleton before a ih =>
      rw [admittedTimes_concat, List.map_append]
      refine ih.append ?_
      split_ifs
      · exact List.Sublist.refl _
      · exact List.nil_sublist _

/-- **A request is refused only for what its own bucket was granted.** -/
lemma le_count_of_refused (hpath : a.request.path ∉ c.exemptPaths)
    (hclock : (before.map Arrival.now).Pairwise (· ≤ ·)) (hnow : ∀ b ∈ before, b.now ≤ a.now)
    (hrefused : admits c before a = false) :
    c.limit ≤ RateLimit.count (a.now - c.windowSeconds) a.now
      (admittedTimes c (c.bucket a.request) before) := by
  have hfull : c.limit ≤
      (windowAt c (after c [] before) (c.bucket a.request) a.now).length := by
    by_contra hroom
    exact absurd ((isNone_dispatch hpath).mpr (Nat.not_le.mp hroom))
      (Bool.eq_false_iff.mp hrefused)
  rcases exists_admittedTimes_eq before (c.bucket a.request) with ⟨old, hold⟩
  have hsublist : (admittedTimes c (c.bucket a.request) before).Sublist (before.map Arrival.now) :=
    admittedTimes_sublist
  have hsorted := hclock.sublist hsublist
  have hle : ∀ t ∈ admittedTimes c (c.bucket a.request) before, t ≤ a.now := by
    intro t ht
    rcases List.mem_map.mp (admittedTimes_sublist.subset ht) with ⟨b, hb, rfl⟩
    exact hnow b hb
  unfold windowAt at hfull
  generalize (Dict.get (after c [] before) (bucketName (c.bucket a.request))).getD [] = window
    at hold hfull
  rw [hold] at hsorted hle ⊢
  have hkept : RateLimit.Kept c.windowSeconds window window a.now :=
    ⟨[], rfl, List.forall_mem_nil _⟩
  rw [hkept.length_trim (List.pairwise_append.mp hsorted).2.1
    fun t ht => hle t (List.mem_append_right _ ht)] at hfull
  rw [RateLimit.count, List.countP_append]
  exact hfull.trans (Nat.le_add_left _ _)

/-! ## Few buckets -/

/-- Only buckets that occur are tracked. -/
lemma exists_bucket_of_mem_keys {name : String} (h : name ∈ Dict.keys (after c [] before)) :
    ∃ bucket ∈ bucketsOf c before, bucketName bucket = name := by
  induction before using List.reverseRecOn with
  | nil => cases h
  | append_singleton before a ih =>
      have hmono : ∀ bucket ∈ bucketsOf c before, bucket ∈ bucketsOf c (before ++ [a]) := by
        intro bucket hbucket
        rw [bucketsOf, List.filter_append, List.map_append]
        exact List.mem_append_left _ hbucket
      rw [after_concat] at h
      by_cases hpath : a.request.path ∈ c.exemptPaths
      · rw [dispatch_of_exempt hpath] at h
        rcases ih h with ⟨bucket, hbucket, hname⟩
        exact ⟨bucket, hmono bucket hbucket, hname⟩
      · by_cases hown : bucketName (c.bucket a.request) = name
        · refine ⟨c.bucket a.request, ?_, hown⟩
          rw [bucketsOf, List.filter_append, List.map_append]
          exact List.mem_append_right _ (by simp [hpath])
        · rw [dispatch_snd hpath, Dict.mem_keys_set] at h
          have hold : name ∈ Dict.keys (after c [] before) := by
            by_contra hout
            refine Dict.get_eq_none_iff.mp ?_ (h.resolve_left (Ne.symm hown))
            rw [get_windowFor hown]
            exact Dict.get_eq_none_iff.mpr fun hroom => hout (keys_roomFor_subset hroom)
          rcases ih hold with ⟨bucket, hbucket, hname⟩
          exact ⟨bucket, hmono bucket hbucket, hname⟩

/-- As long as there are few buckets, nothing is evicted. -/
lemma roomFor_of_few (hpath : a.request.path ∉ c.exemptPaths)
    (hfew : (bucketsOf c (before ++ [a])).toFinset.card ≤ maxTrackedClients) :
    roomFor (after c [] before) (bucketName (c.bucket a.request)) = after c [] before := by
  refine if_neg ?_
  rintro ⟨hnew, hfull⟩
  have hsubset : insert (bucketName (c.bucket a.request))
      (Dict.keys (after c [] before)).toFinset ⊆
        (bucketsOf c (before ++ [a])).toFinset.image bucketName := by
    intro name hname
    have hconcat : bucketsOf c (before ++ [a]) = bucketsOf c before ++ [c.bucket a.request] := by
      simp [bucketsOf, hpath]
    rw [hconcat, Finset.mem_image]
    rcases Finset.mem_insert.mp hname with rfl | hold
    · exact ⟨_, by simp, rfl⟩
    · rcases exists_bucket_of_mem_keys (List.mem_toFinset.mp hold) with ⟨bucket, hmem, hbucket⟩
      exact ⟨bucket, by simp [hmem], hbucket⟩
  have hcard := (Finset.card_le_card hsubset).trans Finset.card_image_le
  rw [Finset.card_insert_of_notMem (by simpa using Dict.get_eq_none_iff.mp hnew),
    List.toFinset_card_of_nodup (nodup_after before)] at hcard
  have hlength : (Dict.keys (after c [] before)).length = (after c [] before).length :=
    List.length_map _
  omega

lemma few_of_concat {n : ℕ} (h : (bucketsOf c (before ++ [a])).toFinset.card ≤ n) :
    (bucketsOf c before).toFinset.card ≤ n := by
  refine le_trans (Finset.card_le_card fun bucket hmem => ?_) h
  rw [List.mem_toFinset] at hmem ⊢
  rw [bucketsOf, List.filter_append, List.map_append]
  exact List.mem_append_left _ hmem

/-- A clock that does not go back. -/
lemma clock_concat (h : ((before ++ [a]).map Arrival.now).Pairwise (· ≤ ·)) :
    (before.map Arrival.now).Pairwise (· ≤ ·) ∧ ∀ b ∈ before, b.now ≤ a.now := by
  rw [List.map_append] at h
  rcases List.pairwise_append.mp h with ⟨hsorted, -, hlast⟩
  exact ⟨hsorted, fun b hb =>
    hlast b.now (List.mem_map_of_mem hb) a.now (List.mem_singleton_self _)⟩

/-- Then each window has every time of its bucket that still counts. -/
lemma kept_after (hclock : (before.map Arrival.now).Pairwise (· ≤ ·))
    (hfew : (bucketsOf c before).toFinset.card ≤ maxTrackedClients) (bucket : Bucket) {now : ℚ}
    (hnow : ∀ b ∈ before, b.now ≤ now) :
    RateLimit.Kept c.windowSeconds (admittedTimes c bucket before)
      ((Dict.get (after c [] before) (bucketName bucket)).getD []) now := by
  induction before using List.reverseRecOn generalizing now with
  | nil => exact .nil _ _
  | append_singleton before a ih =>
      rcases clock_concat hclock with ⟨hsorted, hbefore⟩
      have hkept := ih hsorted (few_of_concat hfew) hbefore
      have hle : a.now ≤ now := hnow a (by simp)
      by_cases hpath : a.request.path ∈ c.exemptPaths
      · have hother : c.charges bucket a = false :=
          Bool.eq_false_iff.mpr fun h => (charges_iff.mp h).1 hpath
        rw [admittedTimes_of_other hother, after_concat, dispatch_of_exempt hpath]
        exact hkept.mono hle
      · rw [get_after_concat hpath, roomFor_of_few hpath hfew]
        by_cases hbucket : c.bucket a.request = bucket
        · rw [if_pos hbucket, admittedTimes_of_own (charges_iff.mpr ⟨hpath, hbucket⟩),
            Option.getD_some]
          split_ifs
          · exact hkept.trim.snoc.mono hle
          · rw [List.append_nil, List.append_nil]
            exact hkept.trim.mono hle
        · have hother : c.charges bucket a = false :=
            Bool.eq_false_iff.mpr fun h => hbucket (charges_iff.mp h).2
          rw [if_neg hbucket, admittedTimes_of_other hother]
          exact hkept.mono hle

/-- **With few buckets a request is passed on exactly if its bucket has room.** -/
lemma admits_iff (hpath : a.request.path ∉ c.exemptPaths)
    (hclock : ((before ++ [a]).map Arrival.now).Pairwise (· ≤ ·))
    (hfew : (bucketsOf c (before ++ [a])).toFinset.card ≤ maxTrackedClients) :
    admits c before a = true ↔
      RateLimit.count (a.now - c.windowSeconds) a.now
        (admittedTimes c (c.bucket a.request) before) < c.limit := by
  rcases clock_concat hclock with ⟨hsorted, hbefore⟩
  have hkept := kept_after hsorted (few_of_concat hfew) (c.bucket a.request) hbefore
  rw [admits, isNone_dispatch hpath, windowAt, hkept.length_trim]
  · exact hsorted.sublist admittedTimes_sublist
  · intro t ht
    rcases List.mem_map.mp (admittedTimes_sublist.subset ht) with ⟨b, hb, rfl⟩
    exact hbefore b hb

/-- The requests of one bucket are of one bucket. -/
lemma card_bucketsOf_filter (arrivals : List Arrival) (bucket : Bucket) :
    (bucketsOf c (arrivals.filter (c.charges bucket))).toFinset.card ≤ 1 := by
  refine Finset.card_le_one.mpr fun b hb b' hb' => ?_
  have hone : ∀ b ∈ bucketsOf c (arrivals.filter (c.charges bucket)), b = bucket := by
    intro b hb
    rcases List.mem_map.mp hb with ⟨a, ha, rfl⟩
    exact (charges_iff.mp (List.mem_filter.mp (List.mem_filter.mp ha).1).2).2
  rw [hone b (List.mem_toFinset.mp hb), hone b' (List.mem_toFinset.mp hb')]

/-- Among few buckets, a bucket that was granted the same times decides the same. -/
lemma admits_filter_of_times (hpath : a.request.path ∉ c.exemptPaths)
    (hclock : ((before ++ [a]).map Arrival.now).Pairwise (· ≤ ·))
    (hfew : (bucketsOf c (before ++ [a])).toFinset.card ≤ maxTrackedClients)
    (htimes : admittedTimes c (c.bucket a.request)
      (before.filter (c.charges (c.bucket a.request))) =
        admittedTimes c (c.bucket a.request) before) :
    admits c (before.filter (c.charges (c.bucket a.request))) a = admits c before a := by
  have hcharges : c.charges (c.bucket a.request) a = true := charges_iff.mpr ⟨hpath, rfl⟩
  have hfilter : (before ++ [a]).filter (c.charges (c.bucket a.request)) =
      before.filter (c.charges (c.bucket a.request)) ++ [a] := by
    simp [hcharges]
  have hone := card_bucketsOf_filter (c := c) (before ++ [a]) (c.bucket a.request)
  have hclock' := hclock.sublist ((List.filter_sublist (p := c.charges (c.bucket a.request))
    (l := before ++ [a])).map Arrival.now)
  rw [hfilter] at hone hclock'
  rw [Bool.eq_iff_iff, admits_iff hpath hclock hfew,
    admits_iff hpath hclock' (hone.trans (by decide)), htimes]

/-- With few buckets a bucket does not notice the others. -/
lemma admittedTimes_filter (hclock : (arrivals.map Arrival.now).Pairwise (· ≤ ·))
    (hfew : (bucketsOf c arrivals).toFinset.card ≤ maxTrackedClients) (bucket : Bucket) :
    admittedTimes c bucket (arrivals.filter (c.charges bucket)) =
      admittedTimes c bucket arrivals := by
  induction arrivals using List.reverseRecOn with
  | nil => rfl
  | append_singleton before a ih =>
      have htimes := ih (clock_concat hclock).1 (few_of_concat hfew)
      cases hcharges : c.charges bucket a with
      | false =>
          have hfilter : (before ++ [a]).filter (c.charges bucket) =
              before.filter (c.charges bucket) := by
            simp [hcharges]
          rw [hfilter, admittedTimes_of_other hcharges, htimes]
      | true =>
          have hfilter : (before ++ [a]).filter (c.charges bucket) =
              before.filter (c.charges bucket) ++ [a] := by
            simp [hcharges]
          rcases charges_iff.mp hcharges with ⟨hpath, rfl⟩
          rw [hfilter, admittedTimes_of_own hcharges, admittedTimes_of_own hcharges, htimes,
            admits_filter_of_times hpath hclock hfew htimes]

/-! ## The specification -/

/-- **The rate limit of the API.**  Exempt requests are passed on and change nothing.  With few
buckets a request is passed on exactly if its bucket has room, and the requests of other buckets
make no difference.  With any number of buckets a request is refused only if its bucket has used up
its limit. -/
theorem rate_limit_spec (c : Config) (before : List Arrival) (a : Arrival)
    (hclock : ((before ++ [a]).map Arrival.now).Pairwise (· ≤ ·)) :
    (a.request.path ∈ c.exemptPaths →
      dispatch c (after c [] before) a.request a.now = (none, after c [] before)) ∧
    (a.request.path ∉ c.exemptPaths →
      ((bucketsOf c (before ++ [a])).toFinset.card ≤ maxTrackedClients →
        (admits c before a = true ↔
          RateLimit.count (a.now - c.windowSeconds) a.now
            (admittedTimes c (c.bucket a.request) before) < c.limit) ∧
        admits c (before.filter (c.charges (c.bucket a.request))) a = admits c before a) ∧
      (admits c before a = false →
        c.limit ≤ RateLimit.count (a.now - c.windowSeconds) a.now
          (admittedTimes c (c.bucket a.request) before))) := by
  refine ⟨dispatch_of_exempt, fun hpath => ⟨fun hfew => ⟨admits_iff hpath hclock hfew, ?_⟩, ?_⟩⟩
  · exact admits_filter_of_times hpath hclock hfew
      (admittedTimes_filter (clock_concat hclock).1 (few_of_concat hfew) _)
  · exact le_count_of_refused hpath (clock_concat hclock).1 (clock_concat hclock).2

/-! ## A flood of clients -/

/-- The key holder asks for something. -/
def keyed (now : ℚ) : Arrival where
  request :=
    { path := "/events", authorization := some "Bearer secret", client := some "192.0.2.1" }
  now := now

/-- A request without a key from the `n`-th of many addresses. -/
def anonymous (n : ℕ) : Arrival where
  request :=
    { path := "/"
      client := some (String.ofList
        (IpAddress.dottedQuad [10, n / 65536, n / 256 % 256, n % 256])) }
  now := 1

def oneInTen : Config := { limit := 1, windowSeconds := 10, apiKey := some "secret" }

/-- One request of each of many addresses. -/
def flood : List Arrival := (List.range maxTrackedClients).map anonymous

theorem rate_limit_spec_keyed : admits oneInTen [keyed 0] (keyed 5) = false := by
  have hspec := ((rate_limit_spec oneInTen [keyed 0] (keyed 5) (by decide +kernel)).2
    (by decide)).1 (by decide +kernel)
  rw [Bool.eq_false_iff, ne_eq, hspec.1]
  decide +kernel

/-- The name of the bucket a request is counted in. -/
def nameOf (c : Config) (a : Arrival) : String := bucketName (c.bucket a.request)

/-- A new client is the last one, and the first one may have to go. -/
lemma keys_dispatch_of_new (hpath : a.request.path ∉ c.exemptPaths)
    (hnew : nameOf c a ∉ Dict.keys hits) :
    Dict.keys (dispatch c hits a.request a.now).2 =
      (if maxTrackedClients ≤ hits.length then (Dict.keys hits).tail else Dict.keys hits) ++
        [nameOf c a] := by
  have hget : Dict.get hits (nameOf c a) = none := Dict.get_eq_none_iff.mpr hnew
  have hwindow : (windowFor hits (nameOf c a)).2 =
      Dict.set (if maxTrackedClients ≤ hits.length then hits.tail else hits) (nameOf c a) [] := by
    rw [windowFor, hget]
  have hkeys : Dict.keys (if maxTrackedClients ≤ hits.length then hits.tail else hits) =
      if maxTrackedClients ≤ hits.length then (Dict.keys hits).tail else Dict.keys hits := by
    split_ifs
    · exact List.map_tail
    · rfl
  have hout : nameOf c a ∉ (if maxTrackedClients ≤ hits.length then (Dict.keys hits).tail
      else Dict.keys hits) := by
    split_ifs
    · exact fun hmem => hnew (List.mem_of_mem_tail hmem)
    · exact hnew
  rw [dispatch_snd hpath]
  show Dict.keys (Dict.set (windowFor hits (nameOf c a)).2 (nameOf c a) _) = _
  rw [Dict.keys_set, hwindow, Dict.keys_set, hkeys, if_neg hout, if_pos (by simp)]

/-- The last `n` elements after one more. -/
lemma drop_concat {α : Type} (l : List α) (x : α) {n : ℕ} (hpos : 0 < n) :
    (l ++ [x]).drop (l.length + 1 - n) =
      (if n ≤ l.length then (l.drop (l.length - n)).tail else l.drop (l.length - n)) ++ [x] := by
  rw [List.drop_append_of_le_length (by omega)]
  split_ifs with hfull
  · have hcount : l.length + 1 - n = l.length - n + 1 := by omega
    rw [hcount, List.tail_drop]
  · have hcount : l.length + 1 - n = l.length - n := by omega
    rw [hcount]

/-- Of clients that come once, the last ones are tracked. -/
lemma keys_after_of_new (names : List String)
    (hkeys : Dict.keys hits = names.drop (names.length - maxTrackedClients))
    (hpath : ∀ a ∈ arrivals, a.request.path ∉ c.exemptPaths)
    (hnodup : (names ++ arrivals.map (nameOf c)).Nodup) :
    Dict.keys (after c hits arrivals) = (names ++ arrivals.map (nameOf c)).drop
      (names.length + arrivals.length - maxTrackedClients) := by
  have hpos : 0 < maxTrackedClients := by decide
  generalize hmax : maxTrackedClients = tracked at hkeys hpos ⊢
  induction arrivals generalizing names hits with
  | nil =>
      rw [after, hkeys, List.map_nil, List.append_nil]
      rfl
  | cons a arrivals ih =>
      have hsplit : names ++ (a :: arrivals).map (nameOf c) =
          (names ++ [nameOf c a]) ++ arrivals.map (nameOf c) := by simp
      have hnew : nameOf c a ∉ Dict.keys hits := by
        rw [hkeys]
        intro hmem
        rw [List.map_cons] at hnodup
        exact (List.nodup_append.mp hnodup).2.2 _ (List.mem_of_mem_drop hmem) _
          List.mem_cons_self rfl
      have hlength : hits.length = names.length - (names.length - tracked) := by
        rw [← List.length_drop, ← hkeys]
        exact (List.length_map _).symm
      have hfull : tracked ≤ hits.length ↔ tracked ≤ names.length := by omega
      have hnext : Dict.keys (dispatch c hits a.request a.now).2 =
          (names ++ [nameOf c a]).drop ((names ++ [nameOf c a]).length - tracked) := by
        rw [keys_dispatch_of_new (hpath a List.mem_cons_self) hnew, hmax, hkeys,
          List.length_append, List.length_singleton, drop_concat names _ hpos]
        simp only [hfull]
      have hrest := ih (names ++ [nameOf c a]) (fun b hb => hpath b (List.mem_cons_of_mem _ hb))
        (hsplit ▸ hnodup) hnext
      have hcount : (names ++ [nameOf c a]).length + arrivals.length =
          names.length + (a :: arrivals).length := by
        simp only [List.length_append, List.length_cons, List.length_nil]
        omega
      rw [hsplit, after, hrest, hcount]

/-- As many clients as are tracked make the one before them forgotten. -/
lemma keys_after_of_many {name : String} (hkeys : Dict.keys hits = [name])
    (hpath : ∀ a ∈ arrivals, a.request.path ∉ c.exemptPaths)
    (hnodup : (name :: arrivals.map (nameOf c)).Nodup)
    (hmany : arrivals.length = maxTrackedClients) :
    Dict.keys (after c hits arrivals) = arrivals.map (nameOf c) := by
  have hpos : 0 < maxTrackedClients := by decide
  have hfirst : Dict.keys hits = [name].drop ([name].length - maxTrackedClients) := by
    rw [List.length_singleton, Nat.sub_eq_zero_of_le hpos, List.drop_zero, hkeys]
  have hlast : [name].length + arrivals.length - maxTrackedClients = 1 := by
    rw [← hmany, Nat.add_sub_cancel, List.length_singleton]
  rw [keys_after_of_new [name] hfirst hpath hnodup, hlast]
  rfl

/-- The addresses of the flood are different. -/
lemma nodup_flood : (flood.map (nameOf oneInTen)).Nodup := by
  have hinjective : ∀ n < 2 ^ 24, ∀ n' < 2 ^ 24,
      nameOf oneInTen (anonymous n) = nameOf oneInTen (anonymous n') → n = n' := by
    intro n hn n' hn' h
    have hclient : String.ofList (IpAddress.dottedQuad
        [10, n / 65536, n / 256 % 256, n % 256]) = String.ofList (IpAddress.dottedQuad
          [10, n' / 65536, n' / 256 % 256, n' % 256]) := congrArg Prod.snd (bucketName_injective h)
    have hoctets := IpAddress.dottedQuad_injective (List.cons_ne_nil _ _) (List.cons_ne_nil _ _)
      (String.ofList_injective hclient)
    simp only [List.cons.injEq, and_true, true_and] at hoctets
    omega
  have hsmall : maxTrackedClients ≤ 2 ^ 24 := by decide
  rw [flood, List.map_map]
  refine List.Nodup.map_on (fun n hn n' hn' h => ?_) List.nodup_range
  exact hinjective n ((List.mem_range.mp hn).trans_le hsmall) n'
    ((List.mem_range.mp hn').trans_le hsmall) h

lemma limited_flood : ∀ a ∈ flood, a.request.path ∉ oneInTen.exemptPaths := by
  intro a ha
  exact List.not_mem_nil

/-- The key holder's name is not one of the flood's. -/
lemma keyed_notMem_flood : nameOf oneInTen (keyed 0) ∉ flood.map (nameOf oneInTen) := by
  intro hmem
  rw [flood, List.map_map] at hmem
  rcases List.mem_map.mp hmem with ⟨n, -, hname⟩
  have hkey := congrArg Prod.fst (bucketName_injective hname)
  have hanonymous : (oneInTen.bucket (anonymous n).request).1 = false := rfl
  have hkeyed : (oneInTen.bucket (keyed 0).request).1 = true := by decide
  rw [hanonymous, hkeyed] at hkey
  cases hkey

/-- After the flood the window of the key holder is forgotten. -/
lemma get_after_flood :
    Dict.get (after oneInTen [] (keyed 0 :: flood)) (nameOf oneInTen (keyed 0)) = none := by
  have hfirst : Dict.keys (after oneInTen [] [keyed 0]) = [nameOf oneInTen (keyed 0)] := by
    decide +kernel
  have hmany : flood.length = maxTrackedClients := by
    rw [flood, List.length_map, List.length_range]
  have hkeys := keys_after_of_many hfirst limited_flood
    (List.nodup_cons.mpr ⟨keyed_notMem_flood, nodup_flood⟩) hmany
  rw [← List.singleton_append, after_append, Dict.get_eq_none_iff, hkeys]
  exact keyed_notMem_flood

/-- Requests without the key can make the difference between a request with the key that is passed
on and one that is refused: they evict the window of the key holder, who is then granted a request
too early, and it is this request that counts later on. -/
theorem eviction_interferes :
    ¬ ∀ (c : Config) (before : List Arrival) (a : Arrival),
      ((before ++ [a]).map Arrival.now).Pairwise (· ≤ ·) → c.authenticated a.request = true →
        admits c (before.filter fun b => c.authenticated b.request) a = true →
          admits c before a = true := by
  intro h
  have hclock : ((keyed 0 :: flood ++ [keyed 5] ++ [keyed 11]).map Arrival.now).Pairwise
      (· ≤ ·) := by
    have hones : ∀ t ∈ flood.map Arrival.now, t = 1 := by
      intro t ht
      rw [flood, List.map_map] at ht
      rcases List.mem_map.mp ht with ⟨n, -, rfl⟩
      rfl
    have hflood : (flood.map Arrival.now).Pairwise (· ≤ ·) :=
      List.pairwise_of_forall_mem_list fun t ht t' ht' => by rw [hones t ht, hones t' ht']
    have hlate : ∀ t ∈ ([keyed 5] ++ [keyed 11]).map Arrival.now, 1 ≤ t ∧ 0 ≤ t := by
      decide +kernel
    rw [List.append_assoc, List.cons_append, List.map_cons, List.map_append]
    refine List.pairwise_cons.mpr ⟨fun t ht => ?_, List.pairwise_append.mpr
      ⟨hflood, by decide +kernel, fun t ht t' ht' => ?_⟩⟩
    · rcases List.mem_append.mp ht with ht | ht
      · rw [hones t ht]
        exact (by decide : (0 : ℚ) ≤ 1)
      · exact (hlate t ht).2
    · rw [hones t ht]
      exact (hlate t' ht').1
  have hfilter : (keyed 0 :: flood ++ [keyed 5]).filter
      (fun b => oneInTen.authenticated b.request) = [keyed 0, keyed 5] := by
    have hnone : flood.filter (fun b => oneInTen.authenticated b.request) = [] := by
      refine List.filter_eq_nil_iff.mpr fun a ha => ?_
      rcases List.mem_map.mp ha with ⟨n, -, rfl⟩
      exact Bool.false_ne_true
    rw [List.filter_append, List.filter_cons, hnone]
    rfl
  have halone : admits oneInTen [keyed 0, keyed 5] (keyed 11) = true := by decide +kernel
  have hadmits := h oneInTen (keyed 0 :: flood ++ [keyed 5]) (keyed 11) hclock (by decide)
    (by rw [hfilter]; exact halone)
  -- the key holder's window is new at 5, and so it is full at 11
  have hwindow : Dict.get (after oneInTen [] (keyed 0 :: flood ++ [keyed 5]))
      (bucketName (oneInTen.bucket (keyed 11).request)) = some [5] := by
    have hforgotten : windowAt oneInTen (after oneInTen [] (keyed 0 :: flood))
        (oneInTen.bucket (keyed 11).request) 5 = [] := by
      rw [windowAt, show Dict.get (after oneInTen [] (keyed 0 :: flood))
        (bucketName (oneInTen.bucket (keyed 11).request)) = none from get_after_flood]
      rfl
    have hgranted : admits oneInTen (keyed 0 :: flood) (keyed 5) = true := by
      rw [admits, isNone_dispatch (by decide), show windowAt oneInTen
        (after oneInTen [] (keyed 0 :: flood)) (oneInTen.bucket (keyed 5).request) (keyed 5).now =
          [] from hforgotten]
      decide
    rw [get_after_concat (by decide), if_pos (by decide), hgranted]
    exact congrArg (fun window => some (window ++ [5])) hforgotten
  rw [admits, isNone_dispatch (by decide), windowAt, hwindow] at hadmits
  exact absurd hadmits (by decide +kernel)

end Sentinel.Api
