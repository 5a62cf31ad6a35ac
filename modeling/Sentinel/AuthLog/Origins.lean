import Sentinel.AuthLog.Header

/-!
# Where a message says it comes from

The end of an `sshd` message, ` from <ip> port <port>` and perhaps ` ssh2` and more, is its origin.
A message can hold several texts of that shape, since the user name is the client's and the text
after `ssh2` may be too.  The user group is greedy, so the last one counts: `matchBody_eq_some_iff`
says that a message is read as its shape, its last origin and everything before it.
-/

namespace Sentinel.AuthLog

open Regex Regex.Pattern PyText

variable {u : Unicode}

/-! ## Origins -/

/-- A text without white space. -/
def IsToken (text : List Char) : Prop := text ≠ [] ∧ ∀ ch ∈ text, isSpace ch = false

/-- A text of one to five digits. -/
def IsPort (u : Unicode) (text : List Char) : Prop :=
  (1 ≤ text.length ∧ text.length ≤ 5) ∧ ∀ ch ∈ text, u.isDigit ch = true

/-- What may stand after the port. -/
def IsTrailer (u : Unicode) (text : List Char) : Prop :=
  text = [] ∨ ∃ spaces more, spaces ≠ [] ∧ (∀ ch ∈ spaces, isSpace ch = true) ∧
    text = spaces ++ ("ssh2".toList ++ more) ∧ ∀ ch ∈ more.head?, u.isWord ch = false

/-- The text is the origin `ip`, `port`. -/
def IsOrigin (u : Unicode) (text ip port : List Char) : Prop :=
  ∃ trailer, text = " from ".toList ++ (ip ++ (" port ".toList ++ (port ++ trailer))) ∧
    IsToken ip ∧ IsPort u port ∧ IsTrailer u trailer

/-- The last origin in the text, and what stands before it. -/
def LastOrigin (u : Unicode) (text before ip port : List Char) : Prop :=
  (∃ tail, text = before ++ tail ∧ IsOrigin u tail ip port) ∧
    ∀ before' tail', text = before' ++ tail' → before.length < before'.length →
      ∀ ip' port', ¬ IsOrigin u tail' ip' port'

lemma IsToken.run {text : List Char} (h : IsToken text) :
    ∀ ch ∈ text, (fun ch => !isSpace ch) ch = true := by
  intro ch hch
  simp [h.2 ch hch]

lemma IsTrailer.head {trailer : List Char} (h : IsTrailer u trailer) :
    trailer = [] ∨ ∃ ch more, trailer = ch :: more ∧ isSpace ch = true := by
  rcases h with rfl | ⟨spaces, more, hne, hspaces, rfl, -⟩
  · exact Or.inl rfl
  · obtain ⟨ch, spaces, rfl⟩ := List.exists_cons_of_ne_nil hne
    exact Or.inr ⟨ch, _, rfl, hspaces ch List.mem_cons_self⟩

/-- A port ends where the digits end. -/
lemma port_unique (hu : u.Lawful) {port port' trailer trailer' : List Char} (hport : IsPort u port)
    (hport' : IsPort u port') (htrailer : IsTrailer u trailer) (htrailer' : IsTrailer u trailer')
    (h : port ++ trailer = port' ++ trailer') : port = port' := by
  have hdigit : ∀ {ch : Char}, isSpace ch = true → u.isDigit ch = false := by
    intro ch hch
    rw [Bool.eq_false_iff]
    intro hd
    rw [hu.digit ch hd] at hch
    cases hch
  have htake : ∀ {port trailer : List Char}, IsPort u port → IsTrailer u trailer →
      (port ++ trailer).takeWhile u.isDigit = port := by
    intro port trailer hport htrailer
    rw [List.takeWhile_append_of_pos hport.2]
    rcases htrailer.head with rfl | ⟨ch, more, rfl, hch⟩
    · rw [List.takeWhile_nil, List.append_nil]
    · rw [List.takeWhile_cons_of_neg (by simp [hdigit hch]), List.append_nil]
  rw [← htake hport htrailer, h, htake hport' htrailer']

/-- **An origin has one reading.** -/
lemma IsOrigin.unique (hu : u.Lawful) {text ip port ip' port' : List Char}
    (h : IsOrigin u text ip port) (h' : IsOrigin u text ip' port') : ip = ip' ∧ port = port' := by
  obtain ⟨trailer, rfl, hip, hport, htrailer⟩ := h
  obtain ⟨trailer', htext, hip', hport', htrailer'⟩ := h'
  have hips : ip ++ ' ' :: ("port ".toList ++ (port ++ trailer)) =
      ip' ++ ' ' :: ("port ".toList ++ (port' ++ trailer')) := List.append_cancel_left htext
  obtain ⟨rfl, -, hports⟩ := run_unique hip.run hip'.run (by decide) (by decide) hips
  exact ⟨rfl, port_unique hu hport hport' htrailer htrailer' (List.append_cancel_left hports)⟩

lemma LastOrigin.unique (hu : u.Lawful) {text before ip port before' ip' port' : List Char}
    (h : LastOrigin u text before ip port) (h' : LastOrigin u text before' ip' port') :
    before = before' ∧ ip = ip' ∧ port = port' := by
  obtain ⟨⟨tail, rfl, horigin⟩, hlast⟩ := h
  obtain ⟨⟨tail', htext, horigin'⟩, hlast'⟩ := h'
  have hlength : before.length = before'.length := by
    rcases Nat.lt_trichotomy before.length before'.length with hlt | heq | hgt
    · exact absurd horigin' (hlast before' tail' htext hlt ip' port')
    · exact heq
    · exact absurd horigin (hlast' before tail rfl hgt ip port)
  obtain ⟨rfl, rfl⟩ := List.append_inj htext hlength
  obtain ⟨rfl, rfl⟩ := horigin.unique hu horigin'
  exact ⟨rfl, rfl, rfl⟩

lemma lastOrigin_append_iff {x text before ip port : List Char} :
    LastOrigin u (x ++ text) (x ++ before) ip port ↔ LastOrigin u text before ip port := by
  constructor
  · rintro ⟨⟨tail, htext, horigin⟩, hlast⟩
    refine ⟨⟨tail, by simpa using htext, horigin⟩, ?_⟩
    intro before' tail' htext' hlt
    exact hlast (x ++ before') tail' (by rw [htext', List.append_assoc]) (by simpa using hlt)
  · rintro ⟨⟨tail, htext, horigin⟩, hlast⟩
    refine ⟨⟨tail, by rw [htext, List.append_assoc], horigin⟩, ?_⟩
    intro before' tail' htext' hlt
    rw [List.length_append] at hlt
    rcases List.append_eq_append_iff.mp htext' with ⟨before'', rfl, hrest⟩ | ⟨more, rfl, -⟩
    · exact hlast before'' tail' hrest (by simpa using hlt)
    · rw [List.length_append] at hlt
      omega

/-- A text that has an origin has a last one. -/
lemma exists_lastOrigin (before : List Char) {tail ip port : List Char}
    (h : IsOrigin u tail ip port) :
    ∃ before' ip' port', LastOrigin u (before ++ tail) before' ip' port' := by
  -- what stands after the last one gets shorter
  induction hn : tail.length using Nat.strong_induction_on generalizing before tail ip port with
  | _ n ih =>
      by_cases hlater : ∃ before' tail', before ++ tail = before' ++ tail' ∧
          before.length < before'.length ∧ ∃ ip' port', IsOrigin u tail' ip' port'
      · obtain ⟨before', tail', htext, hlt, ip', port', horigin⟩ := hlater
        have hlengths := congrArg List.length htext
        rw [List.length_append, List.length_append] at hlengths
        rw [htext]
        exact ih tail'.length (by omega) before' horigin rfl
      · refine ⟨before, ip, port, ⟨tail, rfl, h⟩, ?_⟩
        intro before' tail' htext hlt ip' port' horigin
        exact hlater ⟨before', tail', htext, hlt, ip', port', horigin⟩

/-! ## The end of the pattern -/

lemma isWord_two (hu : u.Lawful) : u.isWord '2' = true := by
  rw [hu.isWord '2' (by decide)]
  decide

/-- The optional part of `_TAIL`. -/
lemma takes_trailer (hu : u.Lawful) {prev : Option Char} {x : List Char} {groups : Match}
    (hdot : ∀ ch ∈ x, dot ch = true) :
    (opt (all [.rep isSpace 1 none true, lit "ssh2", .wordBoundary u.isWord,
      .rep dot 0 none true])).Takes prev x [] groups ↔ groups = [] ∧ IsTrailer u x := by
  -- the character before the word boundary is the `2`
  have hword : ∀ {more : List Char} {before : Option Char},
      (("ssh2".toList.getLast?.or before).any u.isWord ≠ more.head?.any u.isWord) ↔
        ∀ ch ∈ more.head?, u.isWord ch = false := by
    intro more before
    cases more <;> simp [isWord_two hu]
  rw [takes_opt]
  constructor
  · rintro (⟨spaces, _, _, _, rfl, rfl, ⟨hlen, -, hspaces, rfl⟩, _, _, _, _, rfl, rfl, hssh,
      _, _, _, _, rfl, rfl, ⟨rfl, rfl, hboundary⟩, more, _, _, _, rfl, rfl, ⟨-, -, -, rfl⟩,
      rfl, rfl⟩ | ⟨rfl, rfl⟩)
    · obtain ⟨rfl, rfl⟩ := takes_lit.mp hssh
      refine ⟨rfl, Or.inr ⟨spaces, more, List.length_pos_iff.mp hlen, hspaces, by simp, ?_⟩⟩
      simpa using hword.mp hboundary
    · exact ⟨rfl, Or.inl rfl⟩
  · rintro ⟨rfl, rfl | ⟨spaces, more, hne, hspaces, rfl, hboundary⟩⟩
    · exact Or.inr ⟨rfl, rfl⟩
    · have hmore : ∀ ch ∈ more, dot ch = true := by
        intro ch hch
        exact hdot ch (by simp [hch])
      have htext : spaces ++ ("ssh2".toList ++ more) =
          spaces ++ ("ssh2".toList ++ ([] ++ (more ++ []))) := by simp
      have hgroups : ([] : Match) = [] ++ ([] ++ ([] ++ ([] ++ []))) := rfl
      rw [htext, hgroups]
      exact Or.inl (.cons ⟨List.length_pos_iff.mpr hne, by simp, hspaces, rfl⟩
        (.cons (takes_lit.mpr ⟨rfl, rfl⟩) (.cons ⟨rfl, rfl, hword.mpr (by simpa using hboundary)⟩
        (.cons ⟨Nat.zero_le _, by simp, hmore, rfl⟩ ⟨rfl, rfl⟩))))

/-- **`_TAIL` takes the origins.** -/
lemma takes_tailRe (hu : u.Lawful) {prev : Option Char} {x : List Char} {groups : Match}
    (hdot : ∀ ch ∈ x, dot ch = true) :
    (tailRe u).Takes prev x [] groups ↔
      ∃ ip port, groups = [(.ip, ip), (.port, port)] ∧ IsOrigin u x ip port := by
  constructor
  · rintro ⟨_, _, _, _, rfl, rfl, hfrom, ip, _, _, _, rfl, rfl, ⟨_, rfl, hip, -, hip', rfl⟩,
      _, _, _, _, rfl, rfl, hport, port, _, _, _, rfl, rfl, ⟨_, rfl, hlo, hhi, hdigits, rfl⟩,
      trailer, _, _, _, rfl, rfl, htrailer, _, _, _, _, rfl, rfl, ⟨rfl, rfl, -⟩, rfl, rfl⟩
    obtain ⟨rfl, rfl⟩ := takes_lit.mp hfrom
    obtain ⟨rfl, rfl⟩ := takes_lit.mp hport
    obtain ⟨rfl, hended⟩ := (takes_trailer hu fun ch hch => hdot ch (by simp [hch])).mp htrailer
    refine ⟨ip, port, rfl, trailer, by simp, ⟨List.length_pos_iff.mp hip, ?_⟩,
      ⟨⟨hlo, hhi 5 rfl⟩, hdigits⟩, hended⟩
    intro ch hch
    simpa using hip' ch hch
  · rintro ⟨ip, port, rfl, trailer, rfl, hip, hport, htrailer⟩
    have htext : " from ".toList ++ (ip ++ (" port ".toList ++ (port ++ trailer))) =
        " from ".toList ++ (ip ++ (" port ".toList ++ (port ++ (trailer ++ ([] ++ []))))) := by
      simp
    have hgroups : [(Group.ip, ip), (Group.port, port)] =
        [] ++ ([(Group.ip, ip)] ++ ([] ++ ([(Group.port, port)] ++ ([] ++ ([] ++ []))))) := rfl
    have hbound : ∀ top ∈ some 5, port.length ≤ top := by simpa using hport.1.2
    have htrailer' : ∀ ch ∈ trailer, dot ch = true := by
      intro ch hch
      exact hdot ch (by simp [hch])
    rw [htext, hgroups]
    exact .cons (takes_lit.mpr ⟨rfl, rfl⟩)
      (.cons ⟨[], rfl, List.length_pos_iff.mpr hip.1, by simp, hip.run, rfl⟩
      (.cons (takes_lit.mpr ⟨rfl, rfl⟩) (.cons ⟨[], rfl, hport.1.1, hbound, hport.2, rfl⟩
      (.cons ((takes_trailer hu htrailer').mpr ⟨rfl, htrailer⟩)
      (.cons ⟨rfl, rfl, Or.inl rfl⟩ ⟨rfl, rfl⟩)))))

/-- `_TAIL` goes to the end of the message. -/
lemma rest_of_tailRe {prev : Option Char} {x rest : List Char} {groups : Match}
    (h : (tailRe u).Takes prev x rest groups) (hdot : ∀ ch ∈ rest, dot ch = true) : rest = [] := by
  obtain ⟨_, _, _, _, rfl, rfl, -, _, _, _, _, rfl, rfl, -, _, _, _, _, rfl, rfl, -,
    _, _, _, _, rfl, rfl, -, _, _, _, _, rfl, rfl, -, _, _, _, _, rfl, rfl, ⟨rfl, rfl, hend⟩,
    rfl, rfl⟩ := h
  rcases hend with hnil | hnewline
  · exact hnil
  · exact absurd (hdot '\n' (by rw [show rest = ['\n'] from hnewline]; simp)) (by decide)

lemma mem_ends_tailRe (hu : u.Lawful) {c d : Cursor Group} (hdot : ∀ ch ∈ c.rest, dot ch = true) :
    d ∈ (all [tailRe u]).ends c ↔ ∃ ip port, IsOrigin u c.rest ip port ∧
      d = c.after c.rest [] [(.ip, ip), (.port, port)] := by
  rw [mem_ends_iff]
  constructor
  · rintro ⟨x, groups, hrest, ⟨_, _, _, _, rfl, rfl, htakes, rfl, rfl⟩, hd⟩
    have hnil : d.rest = [] := by
      refine rest_of_tailRe htakes ?_
      intro ch hch
      exact hdot ch (by rw [hrest]; simpa using Or.inr hch)
    rw [hnil] at hrest htakes hd
    simp only [List.append_nil] at hrest htakes hd
    obtain ⟨ip, port, rfl, horigin⟩ := (takes_tailRe hu (by rw [← hrest]; exact hdot)).mp htakes
    rw [hrest]
    exact ⟨ip, port, horigin, hd⟩
  · rintro ⟨ip, port, horigin, rfl⟩
    have htakes : (tailRe u).Takes c.prev c.rest [] [(.ip, ip), (.port, port)] :=
      (takes_tailRe hu hdot).mpr ⟨ip, port, rfl, horigin⟩
    refine ⟨c.rest, _, by simp [Cursor.after], ?_, rfl⟩
    exact ⟨c.rest, [], _, [], by simp, by simp, htakes, rfl, rfl⟩

/-- **The user is everything before the last origin.** -/
lemma head?_ends_user (hu : u.Lawful) {c d : Cursor Group} (hdot : ∀ ch ∈ c.rest, dot ch = true)
    (h : ((all [userRe, tailRe u]).ends c).head? = some d) :
    ∃ before ip port, before ≠ [] ∧ LastOrigin u c.rest before ip port ∧
      d.groups = c.groups ++ [(.user, before), (.ip, ip), (.port, port)] := by
  obtain ⟨before, tail, hrest, hlen, -, hd, hlonger⟩ := head?_ends_greedy h
  have htail : ∀ ch ∈ tail, dot ch = true := by
    intro ch hch
    exact hdot ch (by rw [hrest]; simp [hch])
  obtain ⟨ip, port, horigin, rfl⟩ := (mem_ends_tailRe hu htail).mp (List.mem_of_mem_head? hd)
  refine ⟨before, ip, port, List.length_pos_iff.mp hlen, ⟨⟨tail, hrest, horigin⟩, ?_⟩, ?_⟩
  · intro before' tail' hrest' hlt ip' port' horigin'
    have hdots : (∀ ch ∈ before', dot ch = true) ∧ ∀ ch ∈ tail', dot ch = true := by
      rw [hrest'] at hdot
      exact List.forall_mem_append.mp hdot
    have hnone : (all [tailRe u]).ends (c.after before' tail' [(.user, before')]) = [] :=
      hlonger before' tail' hrest' hlt (by simp) hdots.1
    have hmem := (mem_ends_tailRe hu (c := c.after before' tail' [(.user, before')])
      hdots.2).mpr ⟨ip', port', horigin', rfl⟩
    rw [hnone] at hmem
    cases hmem
  · simp [Cursor.after]

lemma ends_user_ne_nil (hu : u.Lawful) {c : Cursor Group} (hdot : ∀ ch ∈ c.rest, dot ch = true)
    {before tail ip port : List Char} (hrest : c.rest = before ++ tail) (hne : before ≠ [])
    (h : IsOrigin u tail ip port) : (all [userRe, tailRe u]).ends c ≠ [] := by
  rw [hrest] at hdot
  obtain ⟨hbefore, htail⟩ := List.forall_mem_append.mp hdot
  have htakes : (all [userRe, tailRe u]).Takes c.prev (before ++ (tail ++ [])) []
      ([(.user, before)] ++ ([(.ip, ip), (.port, port)] ++ [])) :=
    .cons ⟨[], rfl, List.length_pos_iff.mpr hne, by simp, hbefore, rfl⟩
      (.cons ((takes_tailRe hu htail).mpr ⟨ip, port, rfl, h⟩) ⟨rfl, rfl⟩)
  have hmem : c.after (before ++ (tail ++ [])) []
      ([(.user, before)] ++ ([(.ip, ip), (.port, port)] ++ [])) ∈
      (all [userRe, tailRe u]).ends c := by
    refine (mem_ends_iff _).mpr ⟨_, _, ?_, htakes, rfl⟩
    simp [Cursor.after, hrest]
  exact List.ne_nil_of_mem hmem

/-! ## Shapes -/

/-- The ways `sshd` begins a message about an attempt. -/
inductive Shape where
  | failed (method : List Char)
  | accepted (method : List Char)
  | invalid
deriving DecidableEq, Repr

/-- The alternatives of `_METHODS`. -/
def methodNames : List String :=
  ["password", "publickey", "keyboard-interactive/pam", "keyboard-interactive", "hostbased",
    "gssapi-with-mic"]

def invalidUser : List Char := "invalid user ".toList

/-- What stands before the user; the `invalid user ` of a failed attempt counts as the user's. -/
def Shape.opening : Shape → List Char
  | .failed method => "Failed ".toList ++ (method ++ " for ".toList)
  | .accepted method => "Accepted ".toList ++ (method ++ " for ".toList)
  | .invalid => "Invalid user ".toList

def Shape.recognised : Shape → Bool
  | .failed method => decide (String.ofList method ∈ methodNames)
  | .accepted method => decide (String.ofList method ∈ methodNames)
  | .invalid => true

/-- The method is one word. -/
def Shape.WellFormed : Shape → Prop
  | .failed method => IsToken method
  | .accepted method => IsToken method
  | .invalid => True

/-- What stands before the origin of a failed attempt begins with `invalid user ` and goes on. -/
def namesInvalid (before : List Char) : Bool :=
  invalidUser.isPrefixOf before && before ≠ invalidUser

/-- How a message is read, from what stands before its last origin. -/
def Shape.body : Shape → (before ip port : List Char) → Body
  | .failed _, before, ip, port =>
      { user := if namesInvalid before then before.drop invalidUser.length else before
        ip := ip, port := port, action := actionFail, outcome := "failure"
        severity := if namesInvalid before then 5 else 4 }
  | .accepted _, before, ip, port =>
      { user := before, ip := ip, port := port, action := actionOk, outcome := "success"
        severity := 2 }
  | .invalid, before, ip, port =>
      { user := before, ip := ip, port := port, action := actionFail, outcome := "failure"
        severity := 5 }

lemma Shape.body_ip (shape : Shape) (before ip port : List Char) :
    (shape.body before ip port).ip = ip := by
  cases shape <;> rfl

lemma Shape.body_port (shape : Shape) (before ip port : List Char) :
    (shape.body before ip port).port = port := by
  cases shape <;> rfl

lemma takes_methodsRe {prev : Option Char} {x rest : List Char} {groups : Match} :
    methodsRe.Takes prev x rest groups ↔
      String.ofList x ∈ methodNames ∧ groups = [(.method, x)] := by
  have hpam : "keyboard-interactive/pam".toList =
      "keyboard-interactive".toList ++ "/pam".toList := by decide
  have hnames : String.ofList x ∈ methodNames ↔ x = "password".toList ∨ x = "publickey".toList ∨
      (x = "keyboard-interactive/pam".toList ∨ x = "keyboard-interactive".toList) ∨
      x = "hostbased".toList ∨ x = "gssapi-with-mic".toList := by
    simp only [methodNames, List.mem_cons, List.not_mem_nil, or_false, or_assoc,
      ← String.toList_inj, String.toList_ofList]
  rw [methodsRe, takes_group]
  simp only [takes_oneOf_cons, takes_oneOf_nil, takes_lit, takes_lit_opt, ← hpam, ← or_and_right,
    ← hnames]
  constructor
  · rintro ⟨inside, rfl, hname, rfl⟩
    exact ⟨hname, rfl⟩
  · rintro ⟨hname, rfl⟩
    exact ⟨[], rfl, hname, rfl⟩

/-- The beginning of the two patterns with a method. -/
def openingRe (word : String) : Re := all [.start, lit word, methodsRe, lit " for "]

/-- **The method ends where the first word after the verb does.** -/
lemma mem_ends_openingRe (word : String) {method : List Char} (hmethod : IsToken method)
    (text : List Char) {e : Cursor Group} :
    e ∈ (openingRe word).ends
        { rest := word.toList ++ (method ++ (" for ".toList ++ text)) } ↔
      String.ofList method ∈ methodNames ∧
        e = { prev := some ' ', rest := text, groups := [(.method, method)] } := by
  rw [mem_ends_iff]
  constructor
  · rintro ⟨_, _, htext, ⟨_, _, _, _, rfl, rfl, ⟨rfl, rfl, -⟩, _, _, _, _, rfl, rfl, hword,
      method', _, _, _, rfl, rfl, hmethods, _, _, _, _, rfl, rfl, hfor, rfl, rfl⟩, he⟩
    obtain ⟨rfl, rfl⟩ := takes_lit.mp hword
    obtain ⟨rfl, rfl⟩ := takes_lit.mp hfor
    obtain ⟨hname, rfl⟩ := takes_methodsRe.mp hmethods
    have hnospace : ∀ ch ∈ method', (fun ch => !isSpace ch) ch = true := by
      have hall : ∀ name ∈ methodNames, ∀ ch ∈ name.toList, (!isSpace ch) = true := by decide
      intro ch hch
      exact hall _ hname ch (by rwa [String.toList_ofList])
    have hmethods : method ++ ' ' :: ("for ".toList ++ text) =
        method' ++ ' ' :: ("for ".toList ++ e.rest) := by
      simpa using htext
    obtain ⟨rfl, -, hrest⟩ := run_unique hmethod.run hnospace (by decide) (by decide) hmethods
    obtain rfl := List.append_cancel_left hrest
    refine ⟨hname, ?_⟩
    rw [he]
    simp [Cursor.after]
  · rintro ⟨hname, rfl⟩
    refine ⟨[] ++ (word.toList ++ (method ++ (" for ".toList ++ []))),
      [] ++ ([] ++ ([(.method, method)] ++ ([] ++ []))), by simp, ?_, by simp [Cursor.after]⟩
    exact .cons ⟨rfl, rfl, rfl⟩ (.cons (takes_lit.mpr ⟨rfl, rfl⟩)
      (.cons (takes_methodsRe.mpr ⟨hname, rfl⟩) (.cons (takes_lit.mpr ⟨rfl, rfl⟩) ⟨rfl, rfl⟩)))

/-! ## Reading a message -/

/-- The groups of a user and an origin. -/
def originGroups (user ip port : List Char) : Match := [(.user, user), (.ip, ip), (.port, port)]

/-- The end of a pattern reads the last origin. -/
lemma map_groups_user (hu : u.Lawful) {c : Cursor Group} (hdot : ∀ ch ∈ c.rest, dot ch = true)
    (groups : Match) :
    (((all [userRe, tailRe u]).ends c).head?).map Cursor.groups = some groups ↔
      ∃ before ip port, before ≠ [] ∧ LastOrigin u c.rest before ip port ∧
        groups = c.groups ++ originGroups before ip port := by
  rw [Option.map_eq_some_iff]
  constructor
  · rintro ⟨d, hd, rfl⟩
    exact head?_ends_user hu hdot hd
  · rintro ⟨before, ip, port, hne, hlast, rfl⟩
    obtain ⟨tail, hrest, horigin⟩ := hlast.1
    obtain ⟨d, ds, hends⟩ :=
      List.exists_cons_of_ne_nil (ends_user_ne_nil hu hdot hrest hne horigin)
    have hd : ((all [userRe, tailRe u]).ends c).head? = some d := by rw [hends, List.head?_cons]
    obtain ⟨before', ip', port', -, hlast', hgroups⟩ := head?_ends_user hu hdot hd
    obtain ⟨rfl, rfl, rfl⟩ := hlast.unique hu hlast'
    exact ⟨d, hd, hgroups⟩

/-- A pattern that begins with a word does not match a text that begins with another character. -/
lemma matchText_eq_none_of_head (word : String) {ch : Char} {patterns : List Re} {text : List Char}
    (hword : word.toList.head? = some ch) (htext : text.head? ≠ some ch) :
    (all (.start :: lit word :: patterns)).matchText text = none := by
  refine matchText_eq_none ?_
  rintro _ rest groups rfl ⟨_, _, _, _, rfl, -, ⟨rfl, -⟩, _, more, _, _, rfl, -, hlit, -⟩
  obtain ⟨rfl, -⟩ := takes_lit.mp hlit
  refine htext ?_
  rw [List.nil_append, List.append_assoc, List.head?_append, hword, Option.some_or]

lemma failedRe_eq_none {text : List Char} (h : text.head? ≠ some 'F') :
    (failedRe u).matchText text = none := by
  rw [failedRe]
  exact matchText_eq_none_of_head "Failed " (by decide) h

lemma acceptedRe_eq_none {text : List Char} (h : text.head? ≠ some 'A') :
    (acceptedRe u).matchText text = none := by
  rw [acceptedRe]
  exact matchText_eq_none_of_head "Accepted " (by decide) h

lemma invalidRe_eq_none {text : List Char} (h : text.head? ≠ some 'I') :
    (invalidRe u).matchText text = none := by
  rw [invalidRe]
  exact matchText_eq_none_of_head "Invalid user " (by decide) h

/-- The two patterns with a method go on after it. -/
lemma matchText_openingRe (word : String) {method : List Char} (hmethod : IsToken method)
    (patterns : List Re) (text : List Char) :
    (all ([.start, lit word, methodsRe, lit " for "] ++ patterns)).matchText
        (word.toList ++ (method ++ (" for ".toList ++ text))) =
      if String.ofList method ∈ methodNames then
        (((all patterns).ends
          { prev := some ' ', rest := text, groups := [(.method, method)] }).head?).map
            Cursor.groups
      else none := by
  rw [matchText, ends_all_append]
  show (((Pattern.seq (openingRe word) (all patterns)).ends _).head?).map Cursor.groups = _
  split_ifs with hname
  · have he := (mem_ends_openingRe word hmethod text).mpr ⟨hname, rfl⟩
    rw [head?_ends_seq_of_unique he fun e' he' => ((mem_ends_openingRe word hmethod text).mp he').2]
  · have hnone : (openingRe word).ends
        { rest := word.toList ++ (method ++ (" for ".toList ++ text)) } = [] := by
      rw [List.eq_nil_iff_forall_not_mem]
      intro e he
      exact hname ((mem_ends_openingRe word hmethod text).mp he).1
    rw [ends, hnone]
    rfl

/-- The groups of a failed attempt, from what stands before its last origin. -/
def failedGroups (before ip port : List Char) : Match :=
  if namesInvalid before then
    (.invalid, invalidUser) :: originGroups (before.drop invalidUser.length) ip port
  else originGroups before ip port

lemma namesInvalid_iff {before : List Char} :
    namesInvalid before = true ↔ ∃ user, user ≠ [] ∧ before = invalidUser ++ user := by
  rw [namesInvalid, Bool.and_eq_true, List.isPrefixOf_iff_prefix, decide_eq_true_eq]
  constructor
  · rintro ⟨⟨user, rfl⟩, hne⟩
    refine ⟨user, ?_, rfl⟩
    rintro rfl
    exact hne (List.append_nil _)
  · rintro ⟨user, hne, rfl⟩
    exact ⟨List.prefix_append _ _, fun heq => hne (List.append_right_eq_self.mp heq)⟩

lemma mem_ends_invalid {c e : Cursor Group} :
    e ∈ (Pattern.group Group.invalid (lit "invalid user ")).ends c ↔
      c.rest = invalidUser ++ e.rest ∧
        e = c.after invalidUser e.rest [(.invalid, invalidUser)] := by
  rw [mem_ends_iff]
  constructor
  · rintro ⟨x, groups, hrest, ⟨inside, rfl, htakes⟩, he⟩
    obtain ⟨rfl, rfl⟩ := takes_lit.mp htakes
    exact ⟨hrest, he⟩
  · rintro ⟨hrest, he⟩
    exact ⟨invalidUser, _, hrest, ⟨[], rfl, takes_lit.mpr ⟨rfl, rfl⟩⟩, he⟩

/-- **The `invalid user ` of a failed attempt is taken off the user if that leaves one.** -/
lemma map_groups_failed (hu : u.Lawful) {c : Cursor Group} (hdot : ∀ ch ∈ c.rest, dot ch = true)
    (groups : Match) :
    (((all [opt (.group .invalid (lit "invalid user ")), userRe, tailRe u]).ends c).head?).map
        Cursor.groups = some groups ↔
      ∃ before ip port, before ≠ [] ∧ LastOrigin u c.rest before ip port ∧
        groups = c.groups ++ failedGroups before ip port := by
  have hopt := head?_ends_opt (.group .invalid (lit "invalid user ")) (all [userRe, tailRe u]) c
  have hinside : ∀ {text : List Char}, c.rest = invalidUser ++ text →
      ∀ ch ∈ (c.after invalidUser text [(.invalid, invalidUser)]).rest, dot ch = true := by
    intro text hrest ch hch
    exact hdot ch (by rw [hrest]; exact List.mem_append_right _ hch)
  -- a way through the first branch leaves a user
  have hfirst : ∀ {d : Cursor Group}, ((Pattern.seq (.group .invalid (lit "invalid user "))
      (all [userRe, tailRe u])).ends c).head? = some d → ∃ user ip port, user ≠ [] ∧
        LastOrigin u c.rest (invalidUser ++ user) ip port := by
    intro d hd
    obtain ⟨e, he, hd⟩ := exists_of_head?_ends_seq hd
    obtain ⟨hrest, hafter⟩ := mem_ends_invalid.mp he
    rw [hafter] at hd
    obtain ⟨user, ip, port, hne, hlast, -⟩ := head?_ends_user hu (hinside hrest) hd
    rw [hrest]
    exact ⟨user, ip, port, hne, lastOrigin_append_iff.mpr hlast⟩
  have hread : ∀ before ip port, before ≠ [] → LastOrigin u c.rest before ip port →
      (((all [opt (.group .invalid (lit "invalid user ")), userRe, tailRe u]).ends c).head?).map
        Cursor.groups = some (c.groups ++ failedGroups before ip port) := by
    intro before ip port hne hlast
    refine (congrArg (Option.map Cursor.groups) hopt).trans ?_
    rw [failedGroups]
    split_ifs with hnames
    · obtain ⟨user, huser, rfl⟩ := namesInvalid_iff.mp hnames
      obtain ⟨tail, htext, -⟩ := hlast.1
      have hrest : c.rest = invalidUser ++ (user ++ tail) := by rw [htext, List.append_assoc]
      rw [hrest] at hlast
      have hgroups := (map_groups_user hu (hinside hrest) _).mpr
        ⟨user, ip, port, huser, lastOrigin_append_iff.mp hlast, rfl⟩
      obtain ⟨d, hd, hd'⟩ := Option.map_eq_some_iff.mp hgroups
      have he : c.after invalidUser (user ++ tail) [(.invalid, invalidUser)] ∈
          (Pattern.group Group.invalid (lit "invalid user ")).ends c :=
        mem_ends_invalid.mpr ⟨hrest, rfl⟩
      rw [head?_ends_seq_of_unique he ?_, hd, Option.some_or, Option.map_some, hd', List.drop_left]
      · simp [Cursor.after]
      · intro e he
        obtain ⟨hrest', he'⟩ := mem_ends_invalid.mp he
        rw [he', List.append_cancel_left (hrest'.symm.trans hrest)]
    · have hnone : ((Pattern.seq (.group .invalid (lit "invalid user "))
          (all [userRe, tailRe u])).ends c).head? = none := by
        rw [Option.eq_none_iff_forall_ne_some]
        intro d hd
        obtain ⟨user, ip', port', huser, hlast'⟩ := hfirst hd
        exact hnames (namesInvalid_iff.mpr ⟨user, huser, (hlast.unique hu hlast').1⟩)
      rw [hnone, Option.none_or]
      exact (map_groups_user hu hdot _).mpr ⟨before, ip, port, hne, hlast, rfl⟩
  constructor
  · intro hmatch
    obtain ⟨d, hd, -⟩ := Option.map_eq_some_iff.mp hmatch
    have hlast : ∃ before ip port, before ≠ [] ∧ LastOrigin u c.rest before ip port := by
      rcases Option.or_eq_some_iff.mp (hopt.symm.trans hd) with hd | ⟨-, hd⟩
      · obtain ⟨user, ip, port, -, hlast⟩ := hfirst hd
        exact ⟨_, ip, port, List.append_ne_nil_of_left_ne_nil (by decide) user, hlast⟩
      · obtain ⟨before, ip, port, hne, hlast, -⟩ := head?_ends_user hu hdot hd
        exact ⟨before, ip, port, hne, hlast⟩
    obtain ⟨before, ip, port, hne, hlast⟩ := hlast
    refine ⟨before, ip, port, hne, hlast, ?_⟩
    exact Option.some.inj (hmatch.symm.trans (hread before ip port hne hlast))
  · rintro ⟨before, ip, port, hne, hlast, rfl⟩
    exact hread before ip port hne hlast

lemma failed_opening (method text : List Char) : (Shape.failed method).opening ++ text =
    "Failed ".toList ++ (method ++ (" for ".toList ++ text)) := by
  show "Failed ".toList ++ (method ++ " for ".toList) ++ text = _
  rw [List.append_assoc, List.append_assoc]

lemma accepted_opening (method text : List Char) : (Shape.accepted method).opening ++ text =
    "Accepted ".toList ++ (method ++ (" for ".toList ++ text)) := by
  show "Accepted ".toList ++ (method ++ " for ".toList) ++ text = _
  rw [List.append_assoc, List.append_assoc]

lemma head?_word_append {word : String} {ch ch' : Char} (hword : word.toList.head? = some ch)
    (hne : ch ≠ ch') (text : List Char) : (word.toList ++ text).head? ≠ some ch' := by
  rw [List.head?_append, hword, Option.some_or]
  exact fun heq => hne (Option.some.inj heq)

/-- The pattern without a method goes on after its word. -/
lemma matchText_wordRe (word : String) (patterns : List Re) (text : List Char) :
    (all ([.start, lit word] ++ patterns)).matchText (word.toList ++ text) =
      (((all patterns).ends { prev := word.toList.getLast?, rest := text }).head?).map
        Cursor.groups := by
  have hunique : ∀ e : Cursor Group, e ∈ (all [.start, lit word]).ends
      { rest := word.toList ++ text } ↔ e = { prev := word.toList.getLast?, rest := text } := by
    intro e
    rw [mem_ends_iff]
    constructor
    · rintro ⟨_, _, htext, ⟨_, _, _, _, rfl, rfl, ⟨rfl, rfl, -⟩, _, _, _, _, rfl, rfl, hword,
        rfl, rfl⟩, he⟩
      obtain ⟨rfl, rfl⟩ := takes_lit.mp hword
      have hrest : text = e.rest := by simpa using htext
      rw [he, hrest]
      simp [Cursor.after]
    · rintro rfl
      refine ⟨[] ++ (word.toList ++ []), [] ++ ([] ++ []), by simp, ?_, by simp [Cursor.after]⟩
      exact .cons ⟨rfl, rfl, rfl⟩ (.cons (takes_lit.mpr ⟨rfl, rfl⟩) ⟨rfl, rfl⟩)
  rw [matchText, ends_all_append,
    head?_ends_seq_of_unique ((hunique _).mpr rfl) fun e' he' => (hunique e').mp he']

/-- What is made of the groups, from what they are. -/
lemma map_body_iff (make : Match → Body) {found : Option Match} {Q : List Char → List Char →
    List Char → Prop} {groupsOf : List Char → List Char → List Char → Match}
    (h : ∀ groups, found = some groups ↔ ∃ before ip port, before ≠ [] ∧ Q before ip port ∧
      groups = groupsOf before ip port) (body : Body) :
    found.map make = some body ↔ ∃ before ip port, before ≠ [] ∧ Q before ip port ∧
      body = make (groupsOf before ip port) := by
  rw [Option.map_eq_some_iff]
  constructor
  · rintro ⟨groups, hgroups, rfl⟩
    obtain ⟨before, ip, port, hne, hQ, rfl⟩ := (h groups).mp hgroups
    exact ⟨before, ip, port, hne, hQ, rfl⟩
  · rintro ⟨before, ip, port, hne, hQ, rfl⟩
    exact ⟨_, (h _).mpr ⟨before, ip, port, hne, hQ, rfl⟩, rfl⟩

lemma matchBody_failed (hu : u.Lawful) {method text : List Char} (hmethod : IsToken method)
    (hdot : ∀ ch ∈ text, dot ch = true) (body : Body) :
    matchBody u ((Shape.failed method).opening ++ text) = some body ↔
      String.ofList method ∈ methodNames ∧ ∃ before ip port, before ≠ [] ∧
        LastOrigin u text before ip port ∧ body = (Shape.failed method).body before ip port := by
  have hword : "Failed ".toList.head? = some 'F' := by decide
  have hfailed : (failedRe u).matchText ("Failed ".toList ++ (method ++ (" for ".toList ++ text))) =
      _ := matchText_openingRe "Failed " hmethod
        [opt (.group .invalid (lit "invalid user ")), userRe, tailRe u] text
  rw [failed_opening, matchBody, acceptedRe_eq_none (head?_word_append hword (by decide) _),
    invalidRe_eq_none (head?_word_append hword (by decide) _), hfailed]
  by_cases hname : String.ofList method ∈ methodNames
  swap
  · simp [hname]
  rw [if_pos hname, and_iff_right hname]
  have hbody := map_body_iff (fun failed =>
      { user := Match.text failed .user, ip := Match.text failed .ip
        port := Match.text failed .port, action := actionFail, outcome := "failure"
        severity := if (Match.get failed .invalid).isSome then 5 else 4 })
    (map_groups_failed hu (c := ⟨some ' ', text, [(.method, method)]⟩) hdot) body
  have hread : ∀ before ip port, Body.mk
      (Match.text ([(.method, method)] ++ failedGroups before ip port) .user)
      (Match.text ([(.method, method)] ++ failedGroups before ip port) .ip)
      (Match.text ([(.method, method)] ++ failedGroups before ip port) .port)
      actionFail "failure"
      (if (Match.get ([(.method, method)] ++ failedGroups before ip port) .invalid).isSome then 5
        else 4) = (Shape.failed method).body before ip port := by
    intro before ip port
    rw [failedGroups, Shape.body]
    cases namesInvalid before <;> rfl
  simp only [hread] at hbody
  rw [← hbody]
  generalize Option.map Cursor.groups _ = found
  cases found <;> rfl

lemma matchBody_accepted (hu : u.Lawful) {method text : List Char} (hmethod : IsToken method)
    (hdot : ∀ ch ∈ text, dot ch = true) (body : Body) :
    matchBody u ((Shape.accepted method).opening ++ text) = some body ↔
      String.ofList method ∈ methodNames ∧ ∃ before ip port, before ≠ [] ∧
        LastOrigin u text before ip port ∧ body = (Shape.accepted method).body before ip port := by
  have hword : "Accepted ".toList.head? = some 'A' := by decide
  have haccepted :
      (acceptedRe u).matchText ("Accepted ".toList ++ (method ++ (" for ".toList ++ text))) = _ :=
    matchText_openingRe "Accepted " hmethod [userRe, tailRe u] text
  rw [accepted_opening, matchBody, failedRe_eq_none (head?_word_append hword (by decide) _),
    invalidRe_eq_none (head?_word_append hword (by decide) _), haccepted]
  by_cases hname : String.ofList method ∈ methodNames
  swap
  · simp [hname]
  rw [if_pos hname, and_iff_right hname]
  have hbody := map_body_iff (fun accepted =>
      { user := Match.text accepted .user, ip := Match.text accepted .ip
        port := Match.text accepted .port, action := actionOk, outcome := "success"
        severity := 2 })
    (map_groups_user hu (c := ⟨some ' ', text, [(.method, method)]⟩) hdot) body
  rw [show (∃ before ip port, before ≠ [] ∧ LastOrigin u text before ip port ∧
    body = (Shape.accepted method).body before ip port) ↔ _ from hbody.symm]
  generalize Option.map Cursor.groups _ = found
  cases found <;> rfl

lemma matchBody_invalid (hu : u.Lawful) {text : List Char} (hdot : ∀ ch ∈ text, dot ch = true)
    (body : Body) :
    matchBody u (Shape.invalid.opening ++ text) = some body ↔ ∃ before ip port, before ≠ [] ∧
      LastOrigin u text before ip port ∧ body = Shape.invalid.body before ip port := by
  have hword : "Invalid user ".toList.head? = some 'I' := by decide
  have hinvalid : (invalidRe u).matchText ("Invalid user ".toList ++ text) = _ :=
    matchText_wordRe "Invalid user " [userRe, tailRe u] text
  show matchBody u ("Invalid user ".toList ++ text) = some body ↔ _
  rw [matchBody, failedRe_eq_none (head?_word_append hword (by decide) _),
    acceptedRe_eq_none (head?_word_append hword (by decide) _), hinvalid]
  exact map_body_iff (fun invalid =>
      { user := Match.text invalid .user, ip := Match.text invalid .ip
        port := Match.text invalid .port, action := actionFail, outcome := "failure"
        severity := 5 })
    (map_groups_user hu (c := ⟨_, text, []⟩) hdot) body

/-- **A message is read as its shape and its last origin.** -/
theorem matchBody_eq_some_iff (hu : u.Lawful) {shape : Shape} (hshape : shape.WellFormed)
    {text : List Char} (hdot : ∀ ch ∈ text, dot ch = true) (body : Body) :
    matchBody u (shape.opening ++ text) = some body ↔ shape.recognised = true ∧
      ∃ before ip port, before ≠ [] ∧ LastOrigin u text before ip port ∧
        body = shape.body before ip port := by
  cases shape with
  | failed method =>
      rw [Shape.recognised, decide_eq_true_eq]
      exact matchBody_failed hu hshape hdot body
  | accepted method =>
      rw [Shape.recognised, decide_eq_true_eq]
      exact matchBody_accepted hu hshape hdot body
  | invalid =>
      rw [Shape.recognised, and_iff_right rfl]
      exact matchBody_invalid hu hdot body

end Sentinel.AuthLog
