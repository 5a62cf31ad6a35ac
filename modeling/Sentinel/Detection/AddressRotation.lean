import Sentinel.Detection.Thresholds

/-!
# Rotating addresses does not dodge a threshold

A threshold by source address counts the address's bucket: an IPv6 address by its /64, an
IPv4-mapped one by its IPv4 address.  The statement is about two runs on the same events but for
`source.ip` and the event id, where each address may be replaced by another one of the same bucket.
If no rule looks at the two fields, except that thresholds may be grouped by `source.ip`, then the
runs fire the same rules in the same order (`rotation_fires_same`).

The two engines have equal window tables throughout, in the same order, so evictions coincide as
well.  The reason is that each rule reaches the same verdict on both events: no condition reads a
field that differs (`evaluateCondition_congr`, over the tree) and the groups have equal keys
(`groupKey_eq`).  A rule that does look at event ids tells the runs apart
(`event_id_tells_apart`).
-/

namespace Sentinel.Engine

open DetectionEngine

/-! ## The fields a condition reads -/

mutual

/-- The field paths a condition tests. -/
def Condition.fields : Condition → List String
  | .field path _ _ => [path]
  | .all children => Condition.fieldsOf children
  | .any children => Condition.fieldsOf children
  | .not child => child.fields
  | .threshold pattern _ _ _ => pattern.fields

def Condition.fieldsOf : List Condition → List String
  | [] => []
  | child :: children => child.fields ++ Condition.fieldsOf children

end

/-- The field a threshold rule groups by. -/
def Condition.groupBy? : Condition → Option String
  | .threshold _ _ _ groupBy => some groupBy
  | _ => none

section Reads

variable {re : RegexEngine} {view view' : List (String × Json)}

mutual

/-- A condition depends on the fields it tests. -/
theorem evaluateCondition_congr : ∀ (c : Condition) (pos : List ℕ),
    (∀ path ∈ c.fields, resolveField path view = resolveField path view') →
      evaluateCondition re view pos c = evaluateCondition re view' pos c
  | .field path op value, pos, h => by
      rw [evaluateCondition, evaluateCondition, h path (by simp [Condition.fields])]
  | .all children, pos, h => by
      rw [Condition.fields] at h
      rw [evaluateCondition, evaluateCondition, (evaluateChildren_congr children pos 0 h).1]
  | .any children, pos, h => by
      rw [Condition.fields] at h
      rw [evaluateCondition, evaluateCondition, (evaluateChildren_congr children pos 0 h).2]
  | .not child, pos, h => by
      rw [Condition.fields] at h
      rw [evaluateCondition, evaluateCondition, evaluateCondition_congr child (0 :: pos) h]
  | .threshold pattern _ _ _, pos, h => by
      rw [Condition.fields] at h
      rw [evaluateCondition, evaluateCondition, evaluateCondition_congr pattern (0 :: pos) h]

theorem evaluateChildren_congr : ∀ (cs : List Condition) (pos : List ℕ) (i : ℕ),
    (∀ path ∈ Condition.fieldsOf cs, resolveField path view = resolveField path view') →
      evaluateAll re view pos i cs = evaluateAll re view' pos i cs ∧
        evaluateAny re view pos i cs = evaluateAny re view' pos i cs
  | [], pos, i, _ => by simp [evaluateAll, evaluateAny]
  | child :: children, pos, i, h => by
      rw [Condition.fieldsOf] at h
      have hchild := evaluateCondition_congr child (i :: pos)
        fun path hpath => h path (List.mem_append_left _ hpath)
      obtain ⟨hall, hany⟩ := evaluateChildren_congr children pos (i + 1)
        fun path hpath => h path (List.mem_append_right _ hpath)
      constructor
      · rw [evaluateAll, evaluateAll, hchild, hall]
      · rw [evaluateAny, evaluateAny, hchild, hany]

end

end Reads

mutual

/-- The schema lets a condition test real fields only. -/
theorem fields_known : ∀ (c : Condition) (root : Bool), checkCondition root c = .ok () →
    ∀ path ∈ c.fields, path ∈ eventFields.map Prod.fst
  | .field path op value, root, h => by
      rw [checkCondition, checkField] at h
      rw [Condition.fields]
      simp only [List.mem_singleton, forall_eq]
      split at h
      case h_1 => cases h
      case h_2 kinds hkinds =>
        by_contra hunknown
        rw [lookup_eq_none.mpr hunknown] at hkinds
        cases hkinds
  | .all children, root, h => by
      rw [checkCondition] at h
      rw [Condition.fields]
      exact fieldsOf_known children h
  | .any children, root, h => by
      rw [checkCondition] at h
      rw [Condition.fields]
      exact fieldsOf_known children h
  | .not child, root, h => by
      rw [checkCondition] at h
      rw [Condition.fields]
      exact fields_known child false h
  | .threshold pattern _ _ _, root, h => by
      rw [checkCondition] at h
      rw [Condition.fields]
      split_ifs at h
      exact fields_known pattern false h

theorem fieldsOf_known : ∀ (cs : List Condition), checkConditions cs = .ok () →
    ∀ path ∈ Condition.fieldsOf cs, path ∈ eventFields.map Prod.fst
  | [], h => by simp [Condition.fieldsOf]
  | child :: children, h => by
      rw [checkConditions] at h
      split at h
      case h_1 => cases h
      case h_2 hchild =>
        rw [Condition.fieldsOf]
        intro path hpath
        rcases List.mem_append.mp hpath with hpath | hpath
        · exact fields_known child false hchild path hpath
        · exact fieldsOf_known children h path hpath

end

lemma groupBy_known {rule : Rule} {groupBy : String} (h : rule.condition.groupBy? = some groupBy) :
    groupBy ∈ eventFields.map Prod.fst := by
  have hchecked := rule.checked
  cases hcond : rule.condition with
  | threshold pattern windowSeconds count field =>
      rw [hcond, Condition.groupBy?, Option.some.injEq] at h
      subst h
      rw [hcond, checkCondition] at hchecked
      split_ifs at hchecked with _ hknown
      by_contra hunknown
      rw [lookup_eq_none.mpr hunknown] at hknown
      exact hknown rfl
  | _ =>
      rw [hcond] at h
      cases h

/-! ## Replacing an address -/

/-- What the `ipaddress` documentation says of the text of addresses and networks: an IPv4 address
has one spelling (leading zeros are refused), which `str` returns, and a network written with host
bits under `strict=False` is the network of its first bits. -/
structure IpModule.Documented (ip : IpModule) : Prop where
  strV4 : ∀ text bits, ip.ipAddress text = some (.v4 bits) → text = ip.strV4 bits
  strV6Network : ∀ bits bits' : BitVec 128, bits >>> (64 : ℕ) = bits' >>> (64 : ℕ) →
    ip.strV6Network bits none ipv6SubscriberPrefix = ip.strV6Network bits' none ipv6SubscriberPrefix

/-- Two spellings of addresses of one bucket: IPv6 addresses of one /64, neither of them mapped, or
an IPv4 address and its mapped form. -/
inductive SameBucket (ip : IpModule) : String → String → Prop where
  | v6 {s t : String} {bits bits' : BitVec 128} :
      ip.ipAddress s = some (.v6 bits none) → ip.ipAddress t = some (.v6 bits' none) →
      ipv4Mapped bits = none → ipv4Mapped bits' = none →
      bits >>> (64 : ℕ) = bits' >>> (64 : ℕ) →
      SameBucket ip s t
  | mapped {s t : String} {bits : BitVec 32} {bits' : BitVec 128} {scope : Option String} :
      ip.ipAddress s = some (.v4 bits) → ip.ipAddress t = some (.v6 bits' scope) →
      ipv4Mapped bits' = some bits → SameBucket ip s t
  | symm {s t : String} : SameBucket ip s t → SameBucket ip t s

/-- Addresses of one bucket have one key. -/
lemma groupKey_eq {ip : IpModule} (hip : ip.Documented) {s t : String} (h : SameBucket ip s t) :
    groupKey ip s = groupKey ip t := by
  induction h with
  | v6 hs ht hplain hplain' hprefix =>
      simp only [groupKey, hs, ht, hplain, hplain']
      exact hip.strV6Network _ _ hprefix
  | mapped hs ht hmapped =>
      simp only [groupKey, hs, ht, hmapped]
      exact hip.strV4 _ _ hs
  | symm _ ih => exact ih.symm

/-- The event with another source address and another id. -/
def rotate (event : Event) (address : Option String) (id : String) (hid : IsHexDigest id) : Event :=
  { event with
    source := { event.source with ip := address }
    event := { event.event with id := id, id_hex := hid } }

/-- The second event agrees with the first one on everything except the event id and `source.ip`,
which is the same or an address of the same bucket. -/
def RotatedEvent (ip : IpModule) (first second : Event) : Prop :=
  ∃ address id hid, second = rotate first address id hid ∧
    (address = first.source.ip ∨
      ∃ s t, first.source.ip = some s ∧ address = some t ∧ SameBucket ip s t)

def addressField : String := "source.ip"

def idField : String := "event.id"

section Rotate

variable {isoformat : ℚ → String} {event : Event} {address : Option String} {id : String}
  {hid : IsHexDigest id}

/-- Every other field is the same. -/
lemma resolveField_rotate {path : String} (hknown : path ∈ eventFields.map Prod.fst)
    (haddress : path ≠ addressField) (hidField : path ≠ idField) :
    resolveField path ((rotate event address id hid).modelDump isoformat)
      = resolveField path (event.modelDump isoformat) := by
  have hpaths : ∀ path ∈ eventFields.map Prod.fst, path ≠ addressField → path ≠ idField →
      fieldPath path ∈ [["timestamp"], ["event", "kind"], ["event", "category"],
        ["event", "action"], ["event", "outcome"], ["event", "severity"], ["host", "name"],
        ["source", "port"], ["source", "user"], ["destination", "ip"],
        ["destination", "port"], ["destination", "user"],
        ["process", "pid"], ["process", "ppid"], ["process", "name"], ["process", "executable"],
        ["process", "command_line"], ["file", "path"], ["file", "size"], ["file", "mode"],
        ["file", "hash", "sha256"], ["message"]] := by
    decide
  have hparts := hpaths path hknown haddress hidField
  unfold resolveField
  generalize fieldPath path = parts at hparts
  simp only [List.mem_cons, List.not_mem_nil, or_false] at hparts
  rcases hparts with rfl | rfl | rfl | rfl | rfl | rfl | rfl | rfl | rfl | rfl | rfl | rfl | rfl |
    rfl | rfl | rfl | rfl | rfl | rfl | rfl | rfl | rfl
  all_goals rfl

lemma resolveField_addressField :
    resolveField addressField (event.modelDump isoformat) = .ofOption .str event.source.ip := by
  have hpath : fieldPath addressField = ["source", "ip"] := by decide
  rw [resolveField, hpath, resolveParts_cons]
  exact resolveParts_cons "ip" [] _

/-- The group of a rotated event is the same, unless the rule groups by event id. -/
lemma groupOf_rotated {p : Platform} (hip : p.ip.Documented) {first second : Event}
    (h : RotatedEvent p.ip first second) {groupBy : String}
    (hknown : groupBy ∈ eventFields.map Prod.fst) (hidField : groupBy ≠ idField) :
    groupOf p groupBy second = groupOf p groupBy first := by
  obtain ⟨address, id, hid, rfl, hbucket⟩ := h
  unfold groupOf
  by_cases haddress : groupBy = addressField
  · subst haddress
    have haddress : (rotate first address id hid).source.ip = address := rfl
    rw [resolveField_addressField, resolveField_addressField, haddress]
    rcases hbucket with rfl | ⟨s, t, hs, rfl, hsame⟩
    · rfl
    · rw [hs]
      exact congrArg some (groupKey_eq hip hsame).symm
  · rw [resolveField_rotate hknown haddress hidField]

/-- So is the answer of its condition, if that does not test the address or the id. -/
lemma evaluateCondition_rotated {p : Platform} {first second : Event}
    (h : RotatedEvent p.ip first second) {rule : Rule}
    (haddress : addressField ∉ rule.condition.fields) (hidField : idField ∉ rule.condition.fields) :
    evaluateCondition (p.regex rule) (second.modelDump p.isoformat) [] rule.condition
      = evaluateCondition (p.regex rule) (first.modelDump p.isoformat) [] rule.condition := by
  obtain ⟨address, id, hid, rfl, -⟩ := h
  refine evaluateCondition_congr rule.condition [] ?_
  intro path hpath
  refine resolveField_rotate (fields_known rule.condition true rule.checked path hpath) ?_ ?_
  · rintro rfl
    exact haddress hpath
  · rintro rfl
    exact hidField hpath

end Rotate

/-! ## Two runs -/

/-- The rule looks at neither of the two fields, except that it may group by the address. -/
structure Rule.Indifferent (rule : Rule) : Prop where
  address : addressField ∉ rule.condition.fields
  id : idField ∉ rule.condition.fields
  groupBy : rule.condition.groupBy? ≠ some idField

/-- The same call, on a rotated event. -/
structure Observation.Rotated (first second : Observation) : Prop where
  platform : second.platform = first.platform
  documented : first.platform.ip.Documented
  event : RotatedEvent first.platform.ip first.event second.event

lemma Observation.Rotated.agree {first second : Observation} (h : first.Rotated second) :
    second.event.event.action = first.event.event.action ∧
      second.event.timestamp = first.event.timestamp := by
  obtain ⟨address, id, hid, hevent, -⟩ := h.event
  rw [hevent]
  exact ⟨rfl, rfl⟩

/-- An indifferent rule reaches the same verdict. -/
lemma verdict_rotated {first second : Observation} (h : first.Rotated second) {rule : Rule}
    (hrule : rule.Indifferent) : second.round.verdict rule = first.round.verdict rule := by
  have hanswer : second.round.answer rule = first.round.answer rule := by
    simp only [Observation.round, h.platform, h.agree.1,
      evaluateCondition_rotated h.event hrule.address hrule.id]
  cases hcond : rule.condition with
  | threshold pattern windowSeconds count groupBy =>
      have hgroupBy : rule.condition.groupBy? = some groupBy := by rw [hcond]; rfl
      have hgroup : groupOf second.round.observation.platform groupBy second.round.observation.event
          = groupOf first.round.observation.platform groupBy first.round.observation.event := by
        change groupOf second.platform groupBy second.event = _
        rw [h.platform]
        refine groupOf_rotated h.documented h.event (groupBy_known hgroupBy) ?_
        rintro rfl
        exact hrule.groupBy hgroupBy
      rw [second.round.verdict_threshold hcond, first.round.verdict_threshold hcond, hanswer,
        hgroup]
  | _ =>
      have hplain : rule.condition.isThreshold = false := by rw [hcond]; rfl
      rw [Round.verdict, Round.verdict, verdictOf_plain hplain, verdictOf_plain hplain, hanswer]

/-- Equal verdicts leave equal tables and fire the same rules. -/
lemma foldl_playRule_rotated {first second : Observation} (h : first.Rotated second)
    {maxGroups : ℕ} : ∀ (rules : List Rule), (∀ rule ∈ rules, rule.Indifferent) →
    ∀ acc acc' : List Detection × Windows, acc'.2 = acc.2 →
      acc'.1.map Detection.ruleId = acc.1.map Detection.ruleId →
      (rules.foldl (playRule maxGroups second.round) acc').2
          = (rules.foldl (playRule maxGroups first.round) acc).2 ∧
        (rules.foldl (playRule maxGroups second.round) acc').1.map Detection.ruleId
          = (rules.foldl (playRule maxGroups first.round) acc).1.map Detection.ruleId
  | [], _, acc, acc', hwindows, hids => ⟨hwindows, hids⟩
  | rule :: rules, hrules, acc, acc', hwindows, hids => by
      rw [List.foldl_cons, List.foldl_cons]
      have hresult : (second.round.verdict rule).apply maxGroups
            second.round.observation.event.timestamp acc'.2
          = (first.round.verdict rule).apply maxGroups
            first.round.observation.event.timestamp acc.2 := by
        rw [verdict_rotated h (hrules rule List.mem_cons_self), hwindows]
        exact congrArg (fun moment => (first.round.verdict rule).apply maxGroups moment acc.2)
          h.agree.2
      refine foldl_playRule_rotated h rules
        (fun rule hrule => hrules rule (List.mem_cons_of_mem _ hrule)) _ _ ?_ ?_
      · simp only [playRule, hresult]
      · simp only [playRule, hresult, List.map_append, hids]
        congr 1
        rcases ((first.round.verdict rule).apply maxGroups
          first.round.observation.event.timestamp acc.2).1 with - | - | -
        · rfl
        · rfl
        · rfl

lemma play_rotated {first second : Observation} (h : first.Rotated second) {maxGroups : ℕ}
    {rules : List Rule} (hrules : ∀ rule ∈ rules, rule.Indifferent) (windows : Windows) :
    (play maxGroups rules second.round windows).2 = (play maxGroups rules first.round windows).2 ∧
      (play maxGroups rules second.round windows).1.map Detection.ruleId
        = (play maxGroups rules first.round windows).1.map Detection.ruleId :=
  foldl_playRule_rotated h rules hrules ([], windows) ([], windows) rfl rfl

section TwoRuns

variable {rules : List Rule} {maxGroups : ℕ} {first second : List Observation}

/-- The two tables are equal throughout. -/
lemma tableAt_rotated (hrules : ∀ rule ∈ rules, rule.Indifferent)
    (h : List.Forall₂ Observation.Rotated first second) (n : ℕ) :
    tableAt maxGroups rules (second.map Observation.round) n
      = tableAt maxGroups rules (first.map Observation.round) n := by
  induction n with
  | zero => rfl
  | succ n ih =>
      rcases Nat.lt_or_ge n first.length with hlt | hge
      · have hlt' : n < second.length := h.length_eq ▸ hlt
        have hround : (first.map Observation.round)[n]? = some (first[n]).round := by simp [hlt]
        have hround' : (second.map Observation.round)[n]? = some (second[n]).round := by
          simp [hlt']
        rw [tableAt_succ _ _ hround, tableAt_succ _ _ hround', ih]
        exact (play_rotated (h.get hlt hlt') hrules _).1
      · rw [tableAt_of_length_le _ _ (by rw [List.length_map, ← h.length_eq]; exact hge),
          tableAt_of_length_le _ _ (by rw [List.length_map]; exact hge), ih]

end TwoRuns

/-- **Rotating addresses cannot dodge a threshold.**  Two runs of an engine, on events that agree on
everything except the event id and source addresses of the same bucket, fire the same rules in the
same order at every position, if no rule tests the address or the id or groups by the id. -/
theorem rotation_fires_same (rules : List Rule) (maxThresholdGroups : ℕ)
    (hrules : ∀ rule ∈ rules, rule.Indifferent) (first second : List Observation)
    (h : List.Forall₂ Observation.Rotated first second) :
    ((runEngine evaluate second (new rules maxThresholdGroups)).1.map
        fun detections => detections.map Detection.ruleId)
      = (runEngine evaluate first (new rules maxThresholdGroups)).1.map
        fun detections => detections.map Detection.ruleId := by
  have hrules' : ∀ rule ∈ rules.filter Rule.enabled, rule.Indifferent :=
    fun rule hrule => hrules rule (List.mem_of_mem_filter hrule)
  refine List.ext_getElem? ?_
  intro n
  rw [List.getElem?_map, List.getElem?_map]
  rcases Nat.lt_or_ge n first.length with hlt | hge
  · have hlt' : n < second.length := h.length_eq ▸ hlt
    rw [runEngine_getElem rules maxThresholdGroups first (List.getElem?_eq_getElem hlt),
      runEngine_getElem rules maxThresholdGroups second (List.getElem?_eq_getElem hlt'),
      tableAt_rotated hrules' h]
    exact congrArg some (play_rotated (h.get hlt hlt') hrules' _).2
  · rw [List.getElem?_eq_none (by rw [length_runEngine, ← h.length_eq]; exact hge),
      List.getElem?_eq_none (by rw [length_runEngine]; exact hge)]

/-- A platform that knows two addresses of one /64. -/
def subscriberPlatform : Platform :=
  { plainPlatform with
    ip :=
      { ipAddress := fun text =>
          if text = "2001:db8::1" then some (.v6 0x20010db8000000000000000000000001#128 none)
          else if text = "2001:db8::2" then some (.v6 0x20010db8000000000000000000000002#128 none)
          else none
        strV4 := fun _ => "0.0.0.0"
        strV6Network := fun bits _ _ =>
          if bits >>> (64 : ℕ) = 0x20010db800000000#128 then "2001:db8::/64" else "::/64" } }

lemma subscriberPlatform_documented : subscriberPlatform.ip.Documented where
  strV4 := by
    intro text bits h
    simp only [subscriberPlatform] at h
    split_ifs at h
    · cases h
    · cases h
  strV6Network := by
    intro bits bits' h
    simp only [subscriberPlatform, h]

def loginFrom (address : String) : Event :=
  rotate failedLogin (some address) failedLogin.event.id failedLogin.event.id_hex

/-- Two failed logins from two addresses of one /64. -/
theorem rotation_fires_same_subscriber :
    ((runEngine evaluate [⟨loginFrom "2001:db8::1", subscriberPlatform⟩,
        ⟨loginFrom "2001:db8::2", subscriberPlatform⟩] (new [sshBruteForce] 10)).1.map
      fun detections => detections.map Detection.ruleId) = [[], ["ssh-brute-force"]] := by
  have hplain : sshBruteForce.Indifferent := ⟨by decide, by decide, by decide⟩
  have hsame : Observation.Rotated ⟨loginFrom "2001:db8::1", subscriberPlatform⟩
      ⟨loginFrom "2001:db8::1", subscriberPlatform⟩ :=
    ⟨rfl, subscriberPlatform_documented, _, _, failedLogin.event.id_hex, rfl, Or.inl rfl⟩
  have hother : Observation.Rotated ⟨loginFrom "2001:db8::1", subscriberPlatform⟩
      ⟨loginFrom "2001:db8::2", subscriberPlatform⟩ :=
    ⟨rfl, subscriberPlatform_documented, _, _, failedLogin.event.id_hex, rfl,
      Or.inr ⟨_, _, rfl, rfl, .v6 rfl rfl (by decide) (by decide) (by decide)⟩⟩
  rw [rotation_fires_same [sshBruteForce] 10 (by simpa using hplain)
    [⟨loginFrom "2001:db8::1", subscriberPlatform⟩, ⟨loginFrom "2001:db8::1", subscriberPlatform⟩]
    _ (.cons hsame (.cons hother .nil))]
  decide +kernel

/-- A rule that tests event ids. -/
def idPrefix : Rule where
  id := "id-prefix"
  title := "Id prefix"
  severity := 1
  attack := ["T1110"]
  nistCsf := ["DE.CM-01"]
  condition := .field "event.id" .startswith (.scalar (.str "a"))
  severity_le := by decide
  valid := by decide
  checked := by decide

/-- A rule that counts by event id. -/
def idFlood : Rule where
  id := "id-flood"
  title := "Id flood"
  severity := 1
  attack := ["T1110"]
  nistCsf := ["DE.CM-01"]
  condition := .threshold (.field "event.action" .equals (.scalar (.str "ssh_login_failed")))
    60 2 "event.id"
  severity_le := by decide
  valid := by decide
  checked := by decide

def renamedLogin : Event :=
  rotate failedLogin failedLogin.source.ip (String.ofList (List.replicate 64 'b'))
    (by decide +kernel)

/-- Rules may test the event id and group by it, and then they tell runs apart that differ in it. -/
theorem event_id_tells_apart :
    addressField ∉ idPrefix.condition.fields ∧ addressField ∉ idFlood.condition.fields ∧
    RotatedEvent plainPlatform.ip failedLogin failedLogin ∧
    RotatedEvent plainPlatform.ip failedLogin renamedLogin ∧
    (runEngine evaluate [⟨failedLogin, plainPlatform⟩] (new [idPrefix] 10)).1.map
        (fun detections => detections.map Detection.ruleId)
      ≠ (runEngine evaluate [⟨renamedLogin, plainPlatform⟩] (new [idPrefix] 10)).1.map
        (fun detections => detections.map Detection.ruleId) ∧
    (runEngine evaluate [⟨failedLogin, plainPlatform⟩, ⟨failedLogin, plainPlatform⟩]
        (new [idFlood] 10)).1.map (fun detections => detections.map Detection.ruleId)
      ≠ (runEngine evaluate [⟨failedLogin, plainPlatform⟩, ⟨renamedLogin, plainPlatform⟩]
        (new [idFlood] 10)).1.map (fun detections => detections.map Detection.ruleId) := by
  refine ⟨by decide, by decide, ?_, ?_, by decide +kernel, by decide +kernel⟩
  · exact ⟨_, _, failedLogin.event.id_hex, rfl, Or.inl rfl⟩
  · exact ⟨_, _, by decide +kernel, rfl, Or.inl rfl⟩

end Sentinel.Engine
