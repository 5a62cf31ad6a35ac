import Sentinel.AuthLog.Exceptions
import Sentinel.AuthLog.Messages

/-!
# Forged source addresses

Who chooses the address a login is counted for.  The client chooses the user name, and the holder of
a key may choose the text that `sshd` logs after `ssh2:`.  A user name cannot move the origin, since
the last one counts; but a text after `ssh2:` that is an origin itself comes after the real one and
is taken for it.  `source_address_iff` and `trailer_trusted_iff` say that nothing else can.
-/

namespace Sentinel.AuthLog

open Regex Regex.Pattern Calendar PyText

variable {u : Unicode} {c : Context}

/-- If no ` from ` follows the colon, only what stands right after it can be an origin. -/
lemma lastOrigin_after_iff {t : Trailer}
    (hfrom : ∀ more, t = .extra more → ¬ " from ".toList <:+: more) {before ip port : List Char} :
    LastOrigin u t.after before ip port ↔ before = [] ∧ IsOrigin u t.after ip port := by
  have hstart : ∀ {x tail ip port : List Char}, t.after = x ++ tail → IsOrigin u tail ip port →
      x = [] := by
    intro x tail ip port htext horigin
    have hhead := horigin.head
    obtain ⟨trailer, rfl, -⟩ := horigin
    cases x with
    | nil => rfl
    | cons ch x =>
        cases t with
        | none | ssh2 => cases htext
        | extra more =>
            obtain ⟨-, htext⟩ := List.cons.inj htext
            exact absurd ⟨x, _, (htext.trans (List.append_assoc _ _ _).symm).symm⟩ (hfrom more rfl)
  constructor
  · rintro ⟨⟨tail, htext, horigin⟩, -⟩
    obtain rfl := hstart htext horigin
    rw [htext]
    exact ⟨rfl, horigin⟩
  · rintro ⟨rfl, horigin⟩
    refine ⟨⟨_, rfl, horigin⟩, ?_⟩
    intro before tail htext hlt ip' port' horigin'
    rw [hstart htext horigin'] at hlt
    exact absurd hlt (Nat.lt_irrefl _)

/-! ## Three lines -/

/-- A header of `sshd` on a host called `web`. -/
def webHeader : Header plainContext.unicode where
  kind := .bsd
  stamp := "Jun 16 11:59:59".toList
  stampGap := ' '
  host := "web".toList
  hostGap := ' '
  proc := "sshd".toList
  pid := some "9".toList
  procGap := ' '
  stamp_valid := accepts_of_any (by decide +kernel)
  stampGap_valid := by decide
  host_valid := by decide
  hostGap_valid := by decide
  proc_valid := by decide
  pid_valid := by
    intro text htext
    cases htext
    decide
  procGap_valid := by decide

def webClient : Endpoint where
  ip := "1.2.3.4".toList
  port := "22".toList
  ip_valid := by
    unfold IsToken
    decide
  port_valid := by
    unfold IsPort
    decide

/-- A user name that looks like the end of a message. -/
def hostileUser : Message where
  shape := .failed "password".toList
  user := "x from 6.6.6.6 port 1 ssh2".toList
  endpoint := webClient
  trailer := .ssh2
  shape_valid := by
    show IsToken _
    unfold IsToken
    decide
  user_valid := by decide
  trailer_valid := by decide

/-- A text after `ssh2:` that ends like a message. -/
def hostileTrailer (more : List Char) (hmore : ∀ ch ∈ ' ' :: more, dot ch = true) : Message where
  shape := .accepted "publickey".toList
  user := "root".toList
  endpoint := webClient
  trailer := .extra more
  shape_valid := by
    show IsToken _
    unfold IsToken
    decide
  user_valid := by decide
  trailer_valid := hmore

/-! ## The source address -/

/-- **The address and the port are the real ones, unless the text after `ssh2:` is read as others.**
The line has to be turned into records at all for that. -/
theorem source_address_iff (now : DateTime) (hu : c.unicode.Lawful) (h : Header c.unicode)
    {w : Wrapping} (hw : w.WellFormed) (m : Message)
    (hfrom : ∀ more, m.trailer = .extra more → ¬ " from ".toList <:+: more) :
    (∀ records, parseAuthRecords c now (h.text ++ w.wrap m.text) = some records →
        ∀ r ∈ records, r.ip = String.ofList m.endpoint.ip ∧ r.port = ascii.int m.endpoint.port) ↔
      ∀ ip port, IsOrigin c.unicode m.trailer.after ip port → m.shape.recognised = true →
        h.Yields now w m (m.shape.body m.beforeAfter ip port) →
        ip = m.endpoint.ip ∧ c.unicode.int port = ascii.int m.endpoint.port := by
  rw [m.forall_records_iff now hu h hw fun _ ip port =>
    ip = String.ofList m.endpoint.ip ∧ port = ascii.int m.endpoint.port]
  constructor
  · intro hall ip port horigin hshape hyields
    have hlast := m.lastOrigin_of_after ((lastOrigin_after_iff hfrom).mpr ⟨rfl, horigin⟩)
    rw [List.append_nil] at hlast
    have hbody := (m.matchBody_text hu _).mpr
      ⟨hshape, _, ip, port, m.beforeAfter_ne_nil, hlast, rfl⟩
    obtain ⟨hip, hport⟩ := hall _ hbody hyields
    rw [Shape.body_ip] at hip
    rw [Shape.body_port] at hport
    exact ⟨String.ofList_injective hip, hport⟩
  · intro hall body hbody hyields
    obtain ⟨hshape, before, ip, port, -, hlast, rfl⟩ := (m.matchBody_text hu body).mp hbody
    rw [Shape.body_ip, Shape.body_port]
    rcases m.lastOrigin_named hu hlast with ⟨b, rfl, hafter⟩ | ⟨-, -, rfl, rfl⟩
    · obtain ⟨rfl, horigin⟩ := (lastOrigin_after_iff hfrom).mp hafter
      rw [List.append_nil] at hyields
      obtain ⟨rfl, hport⟩ := hall ip port horigin hshape hyields
      exact ⟨rfl, hport⟩
    · exact ⟨rfl, hu.int_eq m.endpoint.port_valid.2⟩

theorem source_address_iff_hostileUser :
    (parseAuthRecords plainContext noon (webHeader.text ++ hostileUser.text)).map
        (fun records => records.map fun r => (r.user, r.ip, r.port)) =
      some [("x from 6.6.6.6 port 1 ssh2", "1.2.3.4", 22)] ∧
    ∀ records, parseAuthRecords plainContext noon
        (webHeader.text ++ Wrapping.plain.wrap hostileUser.text) = some records →
      ∀ r ∈ records, r.ip = String.ofList webClient.ip ∧ r.port = ascii.int webClient.port := by
  refine ⟨by decide +kernel, (source_address_iff (c := plainContext) noon ascii_lawful
    webHeader (w := .plain) True.intro hostileUser ?_).mpr ?_⟩
  · intro more hmore
    cases hmore
  · intro ip port horigin
    exact absurd horigin.head (by decide +kernel)

/-- Only the blank before it makes this text a whole origin. -/
def forgedOrigin : Message := hostileTrailer "from 6.6.6.6 port 1".toList (by decide +kernel)

theorem source_address_forged :
    ¬ ∀ (c : Context) (now : DateTime) (h : Header c.unicode) (w : Wrapping) (m : Message),
      c.unicode.Lawful → w.WellFormed →
      (∀ more, m.trailer = .extra more → ¬ " from ".toList <:+: more) →
      ∀ records, parseAuthRecords c now (h.text ++ w.wrap m.text) = some records →
        ∀ r ∈ records, r.ip = String.ofList m.endpoint.ip ∧ r.port = ascii.int m.endpoint.port := by
  intro hclaim
  have hfrom : ∀ more, forgedOrigin.trailer = .extra more → ¬ " from ".toList <:+: more := by
    intro more hmore
    cases hmore
    decide +kernel
  have hall := hclaim plainContext noon webHeader .plain forgedOrigin ascii_lawful True.intro hfrom
  have hparse : (parseAuthRecords plainContext noon
      (webHeader.text ++ Wrapping.plain.wrap forgedOrigin.text)).map
        (fun records => records.map fun r => r.ip) = some ["6.6.6.6"] := by
    decide +kernel
  obtain ⟨records, hrecords, hips⟩ := Option.map_eq_some_iff.mp hparse
  obtain ⟨r, hr, hip⟩ := List.mem_map.mp (show "6.6.6.6" ∈ records.map fun r => r.ip by
    rw [hips]
    exact List.mem_singleton_self _)
  have hwrong := (hall records hrecords r hr).1
  rw [hip] at hwrong
  exact absurd hwrong (by decide +kernel)

/-! ## Users without white space -/

section Users

variable {user : List Char} (huser : ∀ ch ∈ user, isSpace ch = false)
include huser

lemma namesInvalid_user : namesInvalid user = false := by
  rw [Bool.eq_false_iff]
  intro hnames
  obtain ⟨name, -, rfl⟩ := namesInvalid_iff.mp hnames
  exact absurd (huser ' ' (List.mem_append_left _ (by decide +kernel))) (by decide +kernel)

/-- `invalid` may be the user, but then ` from ` follows. -/
lemma namesInvalid_user_from (rest : List Char) :
    namesInvalid (user ++ (" from ".toList ++ rest)) = false := by
  rw [Bool.eq_false_iff]
  intro hnames
  obtain ⟨name, -, hname⟩ := namesInvalid_iff.mp hnames
  have hword : ∀ ch ∈ user, (fun ch => !isSpace ch) ch = true := by
    intro ch hch
    simp [huser ch hch]
  have hcut : user ++ ' ' :: ("from ".toList ++ rest) =
      "invalid".toList ++ ' ' :: ("user ".toList ++ name) := hname
  obtain ⟨-, -, hrest⟩ :=
    run_unique hword (by decide +kernel) (by decide +kernel) (by decide +kernel) hcut
  exact absurd (List.cons.inj hrest).1 (by decide +kernel)

end Users

lemma Shape.body_user (shape : Shape) {before : List Char} (h : namesInvalid before = false)
    (ip port : List Char) : (shape.body before ip port).user = before := by
  cases shape with
  | failed method =>
      rw [Shape.body, h]
      rfl
  | accepted method => rfl
  | invalid => rfl

/-- **The text after `ssh2:` is trusted exactly as long as it holds no origin.**  With one, the user
is wrong as well: it is everything before that origin. -/
theorem trailer_trusted_iff (now : DateTime) (hu : c.unicode.Lawful) (h : Header c.unicode)
    (m : Message) (hshape : m.shape = .accepted "publickey".toList ∨
      m.shape = .failed "publickey".toList) (huser : ∀ ch ∈ m.user, isSpace ch = false) :
    (∀ records, parseAuthRecords c now (h.text ++ m.text) = some records → ∀ r ∈ records,
        r.user = String.ofList m.user ∧ r.ip = String.ofList m.endpoint.ip ∧
          r.port = ascii.int m.endpoint.port) ↔
      ∀ before ip port, LastOrigin c.unicode m.trailer.after before ip port →
        ¬ h.Yields now .plain m (m.shape.body (m.beforeAfter ++ before) ip port) := by
  have hrecognised : m.shape.recognised = true := by
    rcases hshape with heq | heq <;>
      · rw [heq]
        decide +kernel
  have hrecords := m.forall_records_iff now hu h (w := .plain) True.intro
    fun user ip port => user = String.ofList m.user ∧ ip = String.ofList m.endpoint.ip ∧
      port = ascii.int m.endpoint.port
  refine hrecords.trans ?_
  constructor
  · intro hall before ip port hafter hyields
    have hbody := (m.matchBody_text hu _).mpr ⟨hrecognised, _, ip, port,
      List.append_ne_nil_of_left_ne_nil m.beforeAfter_ne_nil before,
      m.lastOrigin_of_after hafter, rfl⟩
    have hwrong := (hall _ hbody hyields).1
    have hbefore : m.beforeAfter ++ before = m.user ++ (" from ".toList ++ (m.endpoint.ip ++
        (" port ".toList ++ (m.endpoint.port ++ (m.trailer.before ++ before))))) := by
      simp [Message.beforeAfter, Endpoint.text]
    rw [hbefore, Shape.body_user _ (namesInvalid_user_from huser _)] at hwrong
    have hlength := congrArg List.length (String.ofList_injective hwrong)
    rw [List.length_append, List.length_append] at hlength
    have hfrom : " from ".toList.length = 6 := by decide
    omega
  · intro hall body hbody hyields
    obtain ⟨-, before, ip, port, -, hlast, rfl⟩ := (m.matchBody_text hu body).mp hbody
    rcases m.lastOrigin_named hu hlast with ⟨b, rfl, hafter⟩ | ⟨-, rfl, rfl, rfl⟩
    · exact absurd hyields (hall b ip port hafter)
    · rw [Shape.body_user _ (namesInvalid_user huser), Shape.body_ip, Shape.body_port]
      exact ⟨rfl, rfl, hu.int_eq m.endpoint.port_valid.2⟩

/-- The key ID of a certificate, as the holder asked for it. -/
def forgedKeyId : Message :=
  hostileTrailer "RSA-CERT ID x from 6.6.6.6 port 1".toList (by decide +kernel)

def plainKeyId : Message := hostileTrailer "RSA-CERT ID x".toList (by decide +kernel)

theorem trailer_trusted_iff_plainKeyId :
    (parseAuthRecords plainContext noon (webHeader.text ++ plainKeyId.text)).map
        (fun records => records.map fun r => (r.user, r.ip, r.port)) =
      some [("root", "1.2.3.4", 22)] ∧
    ∀ records, parseAuthRecords plainContext noon (webHeader.text ++ plainKeyId.text) =
        some records → ∀ r ∈ records, r.user = String.ofList plainKeyId.user ∧
      r.ip = String.ofList webClient.ip ∧ r.port = ascii.int webClient.port := by
  refine ⟨by decide +kernel, (trailer_trusted_iff (c := plainContext) noon ascii_lawful
    webHeader plainKeyId (Or.inl rfl) (by decide +kernel)).mpr ?_⟩
  rintro before ip port ⟨⟨tail, htext, horigin⟩, -⟩
  -- no part of the text begins with ` from `
  obtain ⟨trailer, rfl, -⟩ := horigin
  have hinfix : " from ".toList <:+: plainKeyId.trailer.after :=
    ⟨before, _, by rw [htext, List.append_assoc]⟩
  exact absurd hinfix (by decide +kernel)

theorem trailer_forges :
    ¬ ∀ (c : Context) (now : DateTime) (h : Header c.unicode) (m : Message), c.unicode.Lawful →
      (m.shape = .accepted "publickey".toList ∨ m.shape = .failed "publickey".toList) →
      (∀ ch ∈ m.user, isSpace ch = false) →
      ∀ records, parseAuthRecords c now (h.text ++ m.text) = some records → ∀ r ∈ records,
        r.user = String.ofList m.user ∧ r.ip = String.ofList m.endpoint.ip ∧
          r.port = ascii.int m.endpoint.port := by
  intro hclaim
  have hall := hclaim plainContext noon webHeader forgedKeyId ascii_lawful (Or.inl rfl)
    (by decide +kernel)
  have hparse : (parseAuthRecords plainContext noon (webHeader.text ++ forgedKeyId.text)).map
      (fun records => records.map fun r => r.ip) = some ["6.6.6.6"] := by
    decide +kernel
  obtain ⟨records, hrecords, hips⟩ := Option.map_eq_some_iff.mp hparse
  obtain ⟨r, hr, hip⟩ := List.mem_map.mp (show "6.6.6.6" ∈ records.map fun r => r.ip by
    rw [hips]
    exact List.mem_singleton_self _)
  have hwrong := (hall records hrecords r hr).2.1
  rw [hip] at hwrong
  exact absurd hwrong (by decide +kernel)

end Sentinel.AuthLog
