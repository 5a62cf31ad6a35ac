import Sentinel.AuthLog.Spoofing

/-!
# Attempts that are not counted

A failed attempt is counted by the brute-force rules if its line becomes a record.  The raw model
takes users of 1 to 256 characters, and unlike the command lines and paths of the other collectors
the user is not clipped to that: a longer one hides the attempt.  `.+` asks for a user as well, so
an `Invalid user` line with an empty one is not recognised; the same attempt after `Failed password
for` is, since the words `invalid user ` are taken for the user.
-/

namespace Sentinel.AuthLog

open Regex Regex.Pattern Calendar PyText

variable {c : Context} {now : DateTime}

/-- The header says when and where, within the limits of the raw model. -/
structure Header.Valid (h : Header c.unicode) (now : DateTime) : Prop where
  time : ∃ t, h.timestamp now = some (some t)
  host : Bounded 1 253 ((c.hostOverride.filter (· ≠ "")).getD (String.ofList h.host))
  stamp : h.stamp.length ≤ 64

/-- The two lines `sshd` logs about a failed attempt of a user that does not exist. -/
inductive FailedLine where
  | failedPassword
  | invalid
deriving DecidableEq, Repr

/-- The endpoint is one the raw model takes. -/
structure Endpoint.InRange (e : Endpoint) : Prop where
  ip : e.ip.length ≤ 64
  port : ascii.int e.port ≤ maxPort

namespace FailedLine

def shape : FailedLine → Shape
  | .failedPassword => .failed "password".toList
  | .invalid => .invalid

def trailer : FailedLine → Trailer
  | .failedPassword => .ssh2
  | .invalid => .none

/-- What the line has between its opening and its origin. -/
def named (line : FailedLine) (user : List Char) : List Char :=
  match line with
  | .failedPassword => invalidUser ++ user
  | .invalid => user

/-- `Failed password for invalid user u from ip port p ssh2` and `Invalid user u from ip port p`. -/
def message (line : FailedLine) (user : List Char) (huser : ∀ ch ∈ user, dot ch = true)
    (e : Endpoint) : Message where
  shape := line.shape
  user := line.named user
  endpoint := e
  trailer := line.trailer
  shape_valid := by
    cases line with
    | failedPassword => exact ⟨by decide, by decide⟩
    | invalid => exact True.intro
  user_valid := by
    cases line with
    | failedPassword => exact List.forall_mem_append.mpr ⟨by decide, huser⟩
    | invalid => exact huser
  trailer_valid := by cases line <;> exact List.forall_mem_nil _

/-- The user is one that hides nothing. -/
def Takes (line : FailedLine) (user : List Char) : Prop :=
  match line with
  | .failedPassword => user.length ≤ 256
  | .invalid => 1 ≤ user.length ∧ user.length ≤ 256

end FailedLine

/-- There is exactly one record, of a failed attempt from this endpoint. -/
def Counted (now : DateTime) (h : Header c.unicode) (m : Message) : Prop :=
  ∃ r, parseAuthRecords c now (h.text ++ m.text) = some [r] ∧
    r.ip = String.ofList m.endpoint.ip ∧ r.port = ascii.int m.endpoint.port ∧
    r.action = actionFail

/-- What is fixed in a reading is within the limits of the raw model. -/
lemma Shape.body_limits (shape : Shape) (before ip port : List Char) :
    Bounded 1 200 (shape.body before ip port).action ∧
      Bounded 1 20 (shape.body before ip port).outcome ∧
      (shape.body before ip port).severity ≤ 7 := by
  cases shape with
  | failed method =>
      refine ⟨(by decide : Bounded 1 200 actionFail), (by decide : Bounded 1 20 "failure"), ?_⟩
      show (if namesInvalid before then 5 else 4) ≤ 7
      split_ifs <;> decide
  | accepted method =>
      exact ⟨(by decide : Bounded 1 200 actionOk), (by decide : Bounded 1 20 "success"),
        (by decide : 2 ≤ 7)⟩
  | invalid =>
      exact ⟨(by decide : Bounded 1 200 actionFail), (by decide : Bounded 1 20 "failure"),
        (by decide : 5 ≤ 7)⟩

/-- The raw model looks at the user; the rest of the line is within its limits. -/
lemma Header.fields_valid_iff (hu : c.unicode.Lawful) (h : Header c.unicode) (hv : h.Valid now)
    {m : Message} (hlength : (h.text ++ m.text).length ≤ maxLineLen) (he : m.endpoint.InRange)
    (before : List Char) (t : ℤ) :
    (h.fields (m.shape.body before m.endpoint.ip m.endpoint.port) m.text t).Valid ↔
      Bounded 1 256 (String.ofList (m.shape.body before m.endpoint.ip m.endpoint.port).user) := by
  constructor
  · exact fun hvalid => hvalid.user
  · intro huser
    have hlength' : m.text.length ≤ 8192 := by
      rw [List.length_append] at hlength
      exact (Nat.le_add_left _ _).trans hlength
    refine ⟨hv.host, ?_, ?_, ?_, ?_, ?_, huser, ?_, ?_, ?_⟩
    · exact ⟨String.length_ofList ▸ List.length_pos_iff.mpr (h.stamp_ne_nil hu),
        String.length_ofList ▸ hv.stamp⟩
    · show (String.ofList (h.pid.getD [])).length ≤ 20
      rw [String.length_ofList]
      cases hpid : h.pid with
      | none => exact Nat.zero_le 20
      | some pid => exact (h.pid_valid pid hpid).1.2.trans (by decide)
    · exact (m.shape.body_limits before m.endpoint.ip m.endpoint.port).1
    · exact (m.shape.body_limits before m.endpoint.ip m.endpoint.port).2.1
    · exact (m.shape.body_limits before m.endpoint.ip m.endpoint.port).2.2
    · show Bounded 1 64 (String.ofList (m.shape.body before m.endpoint.ip m.endpoint.port).ip)
      rw [Shape.body_ip, Bounded, String.length_ofList]
      exact ⟨List.length_pos_iff.mpr m.endpoint.ip_valid.1, he.ip⟩
    · show c.unicode.int (m.shape.body before m.endpoint.ip m.endpoint.port).port ≤ maxPort
      rw [Shape.body_port, hu.int_eq m.endpoint.port_valid.2]
      exact he.port
    · show Bounded 1 10000 (String.ofList m.text)
      rw [Bounded, String.length_ofList]
      exact ⟨List.length_pos_iff.mpr m.text_ne_nil, hlength'.trans (by decide)⟩

namespace FailedLine

variable (line : FailedLine) {user : List Char}

/-- What such a message is read as, if it is read at all. -/
lemma matchBody_message {u : Unicode} (hu : u.Lawful) (huser : ∀ ch ∈ user, dot ch = true)
    (e : Endpoint) (body : Body) :
    matchBody u (line.message user huser e).text = some body ↔
      line.named user ≠ [] ∧ body = line.shape.body (line.named user) e.ip e.port := by
  have hnone : ∀ before ip port, ¬ LastOrigin u line.trailer.after before ip port := by
    rintro before ip port ⟨⟨tail, htext, horigin⟩, -⟩
    have hnil : line.trailer.after = [] := by
      cases line <;> rfl
    rw [hnil] at htext
    have hhead := horigin.head
    rw [(List.append_eq_nil_iff.mp htext.symm).2] at hhead
    cases hhead
  have hrecognised : line.shape.recognised = true := by
    cases line <;> decide
  have hlast := (line.message user huser e).lastOrigin_of_not_after hu hnone
  refine (Message.matchBody_text hu (line.message user huser e) body).trans ?_
  constructor
  · rintro ⟨-, before, ip, port, hne, hlast', rfl⟩
    obtain ⟨rfl, rfl, rfl⟩ := hlast.unique hu hlast'
    exact ⟨hne, rfl⟩
  · rintro ⟨hne, rfl⟩
    exact ⟨hrecognised, _, _, _, hne, hlast, rfl⟩

/-- The user of the record. -/
lemma bounded_user_iff (ip port : List Char) :
    line.named user ≠ [] ∧ Bounded 1 256
        (String.ofList (line.shape.body (line.named user) ip port).user) ↔
      line.Takes user := by
  cases line with
  | failedPassword =>
      have hne : invalidUser ++ user ≠ [] := List.append_ne_nil_of_left_ne_nil (by decide) user
      show (invalidUser ++ user ≠ [] ∧ Bounded 1 256 (String.ofList
        (if namesInvalid (invalidUser ++ user) then (invalidUser ++ user).drop invalidUser.length
          else invalidUser ++ user))) ↔ user.length ≤ 256
      rw [and_iff_right hne, List.drop_left, Bounded, String.length_ofList]
      split_ifs with hnames
      · obtain ⟨name, hname, heq⟩ := namesInvalid_iff.mp hnames
        rw [List.append_cancel_left heq]
        have hpos := List.length_pos_iff.mpr hname
        omega
      · have hnil : user = [] := by
          by_contra huser
          exact hnames (namesInvalid_iff.mpr ⟨user, huser, rfl⟩)
        rw [hnil]
        decide
  | invalid =>
      show (user ≠ [] ∧ Bounded 1 256 (String.ofList user)) ↔ 1 ≤ user.length ∧ user.length ≤ 256
      rw [Bounded, String.length_ofList, ← List.length_pos_iff]
      omega

lemma action_body (before ip port : List Char) :
    (line.shape.body before ip port).action = actionFail := by
  cases line <;> rfl

end FailedLine

section Counted

variable (hu : c.unicode.Lawful) (h : Header c.unicode) (line : FailedLine) {user : List Char}
  (huser : ∀ ch ∈ user, dot ch = true) {e : Endpoint}
  (hlength : (h.text ++ (line.message user huser e).text).length ≤ maxLineLen)
include hu hlength

lemma parseAuthRecords_failedLine (now : DateTime) :
    parseAuthRecords c now (h.text ++ (line.message user huser e).text) =
      h.records now (line.message user huser e).text 1 := by
  rcases Message.parseAuthRecords_message now hu h (w := .plain) True.intro
    (line.message user huser e) with ⟨-, hnot⟩ | ⟨hparse, -⟩
  · exact absurd ⟨hlength, True.intro⟩ hnot
  · exact hparse

lemma takes_of_counted (hcounted : Counted now h (line.message user huser e)) :
    line.Takes user := by
  obtain ⟨r, hrecords, -⟩ := hcounted
  rw [parseAuthRecords_failedLine hu h line huser hlength] at hrecords
  obtain ⟨body, t, hbody, -, hvalid, -⟩ :=
    h.exists_of_mem_records hrecords (List.mem_singleton_self r)
  obtain ⟨hne, rfl⟩ := (line.matchBody_message hu huser e body).mp hbody
  exact (line.bounded_user_iff e.ip e.port).mp ⟨hne, hvalid.user⟩

lemma counted_of_takes (hv : h.Valid now) (he : e.InRange) (htakes : line.Takes user) :
    Counted now h (line.message user huser e) := by
  obtain ⟨hne, hbounded⟩ := (line.bounded_user_iff e.ip e.port).mpr htakes
  obtain ⟨t, htime⟩ := hv.time
  have hvalid := (h.fields_valid_iff hu hv (m := line.message user huser e) hlength he _ t).mpr
    hbounded
  rw [Counted, parseAuthRecords_failedLine hu h line huser hlength]
  refine ⟨_, h.records_of_valid 1 ((line.matchBody_message hu huser e _).mpr ⟨hne, rfl⟩) htime
    hvalid, ?_, ?_, ?_⟩
  · exact congrArg String.ofList (Shape.body_ip _ _ _ _)
  · exact (congrArg c.unicode.int (Shape.body_port _ _ _ _)).trans (hu.int_eq e.port_valid.2)
  · exact line.action_body _ _ _

end Counted

/-- **A failed attempt is counted exactly if the raw model takes its user.** -/
theorem counted_iff (now : DateTime) (hu : c.unicode.Lawful) (h : Header c.unicode)
    (hv : h.Valid now) (line : FailedLine) {user : List Char} (huser : ∀ ch ∈ user, dot ch = true)
    {e : Endpoint} (he : e.InRange)
    (hlength : (h.text ++ (line.message user huser e).text).length ≤ maxLineLen) :
    Counted now h (line.message user huser e) ↔ line.Takes user := by
  constructor
  · exact takes_of_counted hu h line huser hlength
  · exact counted_of_takes hu h line huser hlength hv he

/-! ## Two users -/

lemma webHeader_valid : webHeader.Valid (c := plainContext) noon := by
  have htime : webHeader.timestamp (c := plainContext) noon = some (some 63917207999000000) := by
    decide +kernel
  exact ⟨⟨_, htime⟩, by decide +kernel, by decide +kernel⟩

lemma webClient_inRange : webClient.InRange := ⟨by decide, by decide⟩

lemma dot_brackets : ∀ ch ∈ "x] from 6.6.6.6 port 1".toList, dot ch = true := by decide

theorem counted_iff_brackets : Counted (c := plainContext) noon webHeader
    (FailedLine.invalid.message "x] from 6.6.6.6 port 1".toList dot_brackets webClient) := by
  exact (counted_iff (c := plainContext) noon ascii_lawful webHeader webHeader_valid
    FailedLine.invalid dot_brackets webClient_inRange (by decide +kernel)).mpr
      ⟨by decide, by decide⟩

lemma dot_padding : ∀ ch ∈ List.replicate 257 'a', dot ch = true := by
  intro ch hch
  rw [List.eq_of_mem_replicate hch]
  decide

/-- A user one character too long. -/
theorem attempt_hidden :
    ¬ ∀ (c : Context) (now : DateTime) (h : Header c.unicode) (line : FailedLine)
      (user : List Char) (huser : ∀ ch ∈ user, dot ch = true) (e : Endpoint), c.unicode.Lawful →
      h.Valid now → e.InRange →
      (h.text ++ (line.message user huser e).text).length ≤ maxLineLen →
      Counted now h (line.message user huser e) := by
  intro hclaim
  have hlength : (webHeader.text ++ (FailedLine.failedPassword.message (List.replicate 257 'a')
      dot_padding webClient).text).length ≤ maxLineLen := by
    decide +kernel
  have hcounted := hclaim plainContext noon webHeader .failedPassword _ dot_padding webClient
    ascii_lawful webHeader_valid webClient_inRange hlength
  have htakes : (List.replicate 257 'a').length ≤ 256 :=
    takes_of_counted (c := plainContext) ascii_lawful webHeader .failedPassword dot_padding hlength
      hcounted
  rw [List.length_replicate] at htakes
  omega

end Sentinel.AuthLog
