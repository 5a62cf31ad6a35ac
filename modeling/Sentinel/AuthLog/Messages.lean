import Sentinel.AuthLog.Origins

/-!
# Messages of sshd

What `sshd` logs about an attempt: a `Message` has a shape, a user, the endpoint the client really
connects from and a trailer, and rsyslog may wrap it in a summary.  `lastOrigin_named` says which
origin such a message is read with: the endpoint, unless the trailer holds another one.  What the
user name looks like does not matter.
-/

namespace Sentinel.AuthLog

open Regex Regex.Pattern Calendar PyText

/-! ## The parts of a message -/

/-- Where a client connects from, as `sshd` writes it. -/
structure Endpoint where
  ip : List Char
  port : List Char
  ip_valid : IsToken ip
  port_valid : IsPort ascii port

def Endpoint.text (e : Endpoint) : List Char :=
  " from ".toList ++ (e.ip ++ (" port ".toList ++ e.port))

/-- What `sshd` writes after the port. -/
inductive Trailer where
  | none
  | ssh2
  | extra (more : List Char)
deriving DecidableEq, Repr

namespace Trailer

/-- The trailer up to the colon. -/
def before : Trailer → List Char
  | .none => []
  | .ssh2 => " ssh2".toList
  | .extra _ => " ssh2:".toList

/-- What stands after the colon. -/
def after : Trailer → List Char
  | .none => []
  | .ssh2 => []
  | .extra more => ' ' :: more

def text (t : Trailer) : List Char := t.before ++ t.after

end Trailer

/-- A message about an attempt.  The `invalid user ` of a failed attempt is part of `user`. -/
structure Message where
  shape : Shape
  user : List Char
  endpoint : Endpoint
  trailer : Trailer
  shape_valid : shape.WellFormed
  user_valid : ∀ ch ∈ user, dot ch = true
  trailer_valid : ∀ ch ∈ trailer.after, dot ch = true

namespace Message

/-- Everything after the opening. -/
def named (m : Message) : List Char := m.user ++ (m.endpoint.text ++ m.trailer.text)

def text (m : Message) : List Char := m.shape.opening ++ m.named

/-- Everything between the opening and what may stand after `ssh2:`. -/
def beforeAfter (m : Message) : List Char := m.user ++ (m.endpoint.text ++ m.trailer.before)

end Message

/-! ## The last origin of a message -/

variable {u : Unicode}

lemma isPort_of_ascii (hu : u.Lawful) {port : List Char} (h : IsPort ascii port) :
    IsPort u port :=
  ⟨h.1, fun ch hch => hu.isDigit_of_ascii (h.2 ch hch)⟩

/-- The endpoint is an origin. -/
lemma isOrigin_endpoint (hu : u.Lawful) (e : Endpoint) (t : Trailer) :
    IsOrigin u (e.text ++ t.text) e.ip e.port := by
  refine ⟨t.text, by simp [Endpoint.text], e.ip_valid, isPort_of_ascii hu e.port_valid, ?_⟩
  have hcolon : u.isWord ':' = false := by
    rw [hu.isWord ':' (by decide)]
    decide
  cases t with
  | none => exact Or.inl rfl
  | ssh2 => exact Or.inr ⟨[' '], [], by decide, by decide, rfl, by simp⟩
  | extra more => exact Or.inr ⟨[' '], ':' :: ' ' :: more, by decide, by decide, rfl, by
      simpa using hcolon⟩

/-- A blank begins a segment, and what begins with a blank and ends the text begins where a segment
does. -/
lemma segment_cases {w x tail text : List Char} (hword : ∀ ch ∈ w, isSpace ch = false)
    (htail : tail.head? = some ' ') (h : ' ' :: (w ++ text) = x ++ tail) :
    x = [] ∨ ∃ y, text = y ++ tail := by
  cases x with
  | nil => exact Or.inl rfl
  | cons ch x =>
      right
      obtain ⟨-, h⟩ := List.cons.inj h
      rcases List.append_eq_append_iff.mp h with ⟨y, -, htext⟩ | ⟨y, hy, htail'⟩
      · exact ⟨y, htext⟩
      · cases y with
        | nil => exact ⟨[], htail'.symm⟩
        | cons ch' y =>
            rw [htail'] at htail
            obtain rfl := Option.some.inj htail
            have hspace := hword ' ' (by rw [hy]; simp)
            exact absurd hspace (by decide)

lemma IsOrigin.head {text ip port : List Char} (h : IsOrigin u text ip port) :
    text.head? = some ' ' := by
  obtain ⟨trailer, rfl, -⟩ := h
  rfl

/-- A blank that begins an origin has `from ` after it. -/
lemma IsOrigin.not_blank {ch : Char} {text ip port : List Char} (hch : ch ≠ 'f') :
    ¬ IsOrigin u (' ' :: ch :: text) ip port := by
  rintro ⟨trailer, htext, -⟩
  exact hch (List.cons.inj (List.cons.inj htext).2).1

/-- The address is followed by `port`, and that is followed by digits. -/
lemma not_isOrigin_ip (e : Endpoint) {text ip port : List Char} :
    ¬ IsOrigin u (' ' :: (e.ip ++ (' ' :: ("port".toList ++ (' ' :: (e.port ++ text)))))) ip
      port := by
  rintro ⟨trailer, htext, hip, -, -⟩
  have hfrom : e.ip ++ ' ' :: ("port".toList ++ ' ' :: (e.port ++ text)) =
      "from".toList ++ ' ' :: (ip ++ ' ' :: ("port ".toList ++ (port ++ trailer))) :=
    (List.cons.inj htext).2
  obtain ⟨-, -, hport⟩ := run_unique e.ip_valid.run (by decide) (by decide) (by decide) hfrom
  obtain ⟨-, -, hport'⟩ := run_unique (p := fun ch => !isSpace ch) (by decide) hip.run (by decide)
    (by decide) hport
  obtain ⟨⟨hlo, -⟩, hdigits⟩ := e.port_valid
  cases hp : e.port with
  | nil =>
      rw [hp] at hlo
      cases hlo
  | cons ch digits =>
      rw [hp] at hport' hdigits
      have hch : ch = 'p' := (List.cons.inj hport').1
      have hdigit := hdigits ch List.mem_cons_self
      rw [hch] at hdigit
      exact absurd hdigit (by decide)

/-- **Inside a message, another origin can only stand after `ssh2:`.** -/
lemma origin_in_trailer (e : Endpoint) (t : Trailer) {x tail ip port : List Char} (hx : x ≠ [])
    (htext : e.text ++ t.text = x ++ tail) (horigin : IsOrigin u tail ip port) :
    ∃ b, t.after = b ++ tail := by
  have hhead := horigin.head
  have hseen : e.text ++ t.text = ' ' :: ("from".toList ++ (' ' :: (e.ip ++ (' ' ::
      ("port".toList ++ (' ' :: (e.port ++ t.text))))))) := by
    simp [Endpoint.text]
  rw [hseen] at htext
  have hstart : ∀ {ch : Char} {text : List Char}, ch ≠ 'f' → tail ≠ ' ' :: ch :: text := by
    rintro ch text hch rfl
    exact horigin.not_blank hch
  rcases segment_cases (by decide) hhead htext with hnil | ⟨x₁, h₁⟩
  · exact absurd hnil hx
  rcases segment_cases e.ip_valid.2 hhead h₁ with rfl | ⟨x₂, h₂⟩
  · rw [List.nil_append] at h₁
    rw [← h₁] at horigin
    exact absurd horigin (not_isOrigin_ip e)
  rcases segment_cases (by decide) hhead h₂ with rfl | ⟨x₃, h₃⟩
  · exact absurd h₂.symm (hstart (by decide))
  have hport : ∀ ch ∈ e.port, isSpace ch = false := fun ch hch =>
    isSpace_of_ascii_digit (e.port_valid.2 ch hch)
  rcases segment_cases hport hhead h₃ with rfl | ⟨x₄, h₄⟩
  · have hpos := e.port_valid.1.1
    cases hp : e.port with
    | nil =>
        rw [hp] at hpos
        cases hpos
    | cons ch digits =>
        have hdigit := e.port_valid.2 ch (by rw [hp]; exact List.mem_cons_self)
        rw [hp] at h₃
        refine absurd h₃.symm (hstart ?_)
        rintro rfl
        exact absurd hdigit (by decide)
  -- the trailer
  cases t with
  | none =>
      rw [(List.append_eq_nil_iff.mp h₄.symm).2] at hhead
      cases hhead
  | ssh2 =>
      rcases segment_cases (w := "ssh2".toList) (by decide) hhead h₄ with rfl | ⟨x₅, h₅⟩
      · exact absurd h₄.symm (hstart (by decide))
      · exact ⟨x₅, h₅⟩
  | extra more =>
      rcases segment_cases (w := "ssh2:".toList) (by decide) hhead h₄ with rfl | ⟨x₅, h₅⟩
      · exact absurd h₄.symm (hstart (by decide))
      · exact ⟨x₅, h₅⟩

namespace Message

lemma named_eq (m : Message) : m.named = m.beforeAfter ++ m.trailer.after := by
  simp [named, beforeAfter, Trailer.text]

lemma beforeAfter_ne_nil (m : Message) : m.beforeAfter ≠ [] := by
  simp [beforeAfter, Endpoint.text]

lemma dot_named (m : Message) : ∀ ch ∈ m.named, dot ch = true := by
  have hword : ∀ {text : List Char}, (∀ ch ∈ text, isSpace ch = false) →
      ∀ ch ∈ text, dot ch = true := by
    intro text htext ch hch
    rw [dot, bne_iff_ne]
    rintro rfl
    exact absurd (htext _ hch) (by decide)
  have hport := hword fun ch hch => isSpace_of_ascii_digit (m.endpoint.port_valid.2 ch hch)
  have hbefore : ∀ ch ∈ m.trailer.before, dot ch = true := by
    have hssh2 : ∀ ch ∈ " ssh2:".toList, dot ch = true := by decide
    cases m.trailer with
    | none => exact fun ch hch => absurd hch List.not_mem_nil
    | ssh2 => decide
    | extra more => exact hssh2
  simp only [named, Endpoint.text, Trailer.text, List.forall_mem_append]
  exact ⟨m.user_valid, ⟨by decide, hword m.endpoint.ip_valid.2, by decide, hport⟩, hbefore,
    m.trailer_valid⟩

lemma dot_text (m : Message) : ∀ ch ∈ m.text, dot ch = true := by
  have hmethod : ∀ {method : List Char}, IsToken method → ∀ ch ∈ method, dot ch = true := by
    intro method hmethod ch hch
    rw [dot, bne_iff_ne]
    rintro rfl
    exact absurd (hmethod.2 _ hch) (by decide)
  have hshape := m.shape_valid
  refine List.forall_mem_append.mpr ⟨?_, m.dot_named⟩
  cases hs : m.shape with
  | failed method =>
      rw [hs] at hshape
      exact List.forall_mem_append.mpr ⟨by decide,
        List.forall_mem_append.mpr ⟨hmethod hshape, by decide⟩⟩
  | accepted method =>
      rw [hs] at hshape
      exact List.forall_mem_append.mpr ⟨by decide,
        List.forall_mem_append.mpr ⟨hmethod hshape, by decide⟩⟩
  | invalid => decide

/-- Another origin after `ssh2:` is the last one. -/
lemma lastOrigin_of_after (m : Message) {before ip port : List Char}
    (h : LastOrigin u m.trailer.after before ip port) :
    LastOrigin u m.named (m.beforeAfter ++ before) ip port := by
  rw [m.named_eq]
  exact lastOrigin_append_iff.mpr h

/-- **Otherwise the endpoint is, whatever the user name looks like.** -/
lemma lastOrigin_of_not_after (hu : u.Lawful) (m : Message)
    (h : ∀ before ip port, ¬ LastOrigin u m.trailer.after before ip port) :
    LastOrigin u m.named m.user m.endpoint.ip m.endpoint.port := by
  refine ⟨⟨_, rfl, isOrigin_endpoint hu m.endpoint m.trailer⟩, ?_⟩
  intro before tail htext hlt ip port horigin
  rcases List.append_eq_append_iff.mp htext with ⟨x, rfl, hrest⟩ | ⟨x, hx, -⟩
  · have hx : x ≠ [] := by
      rintro rfl
      simp at hlt
    obtain ⟨b, hafter⟩ := origin_in_trailer m.endpoint m.trailer hx hrest horigin
    obtain ⟨before', ip', port', hlast⟩ := exists_lastOrigin b horigin
    rw [← hafter] at hlast
    exact h before' ip' port' hlast
  · rw [hx, List.length_append] at hlt
    omega

/-- The origins a message is read with. -/
lemma lastOrigin_named (hu : u.Lawful) (m : Message) {before ip port : List Char}
    (h : LastOrigin u m.named before ip port) :
    (∃ b, before = m.beforeAfter ++ b ∧ LastOrigin u m.trailer.after b ip port) ∨
      (∀ b ip port, ¬ LastOrigin u m.trailer.after b ip port) ∧
        before = m.user ∧ ip = m.endpoint.ip ∧ port = m.endpoint.port := by
  by_cases hafter : ∃ b ip port, LastOrigin u m.trailer.after b ip port
  · obtain ⟨b, ip', port', hlast⟩ := hafter
    obtain ⟨rfl, rfl, rfl⟩ := h.unique hu (m.lastOrigin_of_after hlast)
    exact Or.inl ⟨b, rfl, hlast⟩
  · have hnone : ∀ b ip port, ¬ LastOrigin u m.trailer.after b ip port :=
      fun b ip port hlast => hafter ⟨b, ip, port, hlast⟩
    exact Or.inr ⟨hnone, h.unique hu (m.lastOrigin_of_not_after hu hnone)⟩

end Message

/-! ## Summaries -/

/-- A message as it is, or rsyslog's summary of a message that was repeated. -/
inductive Wrapping where
  | plain
  | repeated (count : List Char)
deriving DecidableEq, Repr

namespace Wrapping

def wrap : Wrapping → List Char → List Char
  | .plain, message => message
  | .repeated count, message =>
      "message repeated ".toList ++ (count ++ (" times: [".toList ++ (' ' :: (message ++ [']']))))

lemma wrap_repeated (count message : List Char) : wrap (.repeated count) message =
    "message repeated ".toList ++ (count ++ (" times: [".toList ++ (' ' :: (message ++ [']'])))) :=
  rfl

/-- The count is a number. -/
def WellFormed : Wrapping → Prop
  | .plain => True
  | .repeated count => count ≠ [] ∧ ∀ ch ∈ count, ascii.isDigit ch = true

/-- The count does not have too many digits. -/
def Readable : Wrapping → Prop
  | .plain => True
  | .repeated count => count.length ≤ 9

/-- How many records there are. -/
def count : Wrapping → ℕ
  | .plain => 1
  | .repeated count => min (ascii.int count) maxRepeat

end Wrapping

/-- The beginning of `_REPEAT_RE` after its first word. -/
def countRe (u : Unicode) : Re := all [.group .count (digitsUpTo u 9), lit " times: ["]

lemma mem_ends_countRe (hu : u.Lawful) {count : List Char} (hne : count ≠ [])
    (hcount : ∀ ch ∈ count, ascii.isDigit ch = true) (prev : Option Char) (text : List Char)
    {e : Cursor Group} :
    e ∈ (countRe u).ends { prev := prev, rest := count ++ (" times: [".toList ++ text) } ↔
      count.length ≤ 9 ∧ e = { prev := some '[', rest := text, groups := [(.count, count)] } := by
  have hdigits : ∀ ch ∈ count, u.isDigit ch = true := fun ch hch =>
    hu.isDigit_of_ascii (hcount ch hch)
  have hblank : u.isDigit ' ' = false := isDigit_eq_false hu (by decide) (by decide)
  rw [mem_ends_iff]
  constructor
  · rintro ⟨_, _, htext, ⟨count', _, _, _, rfl, rfl, ⟨_, rfl, -, hbound, hdigits', rfl⟩,
      _, _, _, _, rfl, rfl, htimes, rfl, rfl⟩, he⟩
    obtain ⟨rfl, rfl⟩ := takes_lit.mp htimes
    have hcounts : count ++ ' ' :: ("times: [".toList ++ text) =
        count' ++ ' ' :: ("times: [".toList ++ e.rest) := by
      simpa using htext
    obtain ⟨rfl, -, hrest⟩ := run_unique hdigits hdigits' hblank hblank hcounts
    obtain rfl := List.append_cancel_left hrest
    refine ⟨hbound 9 rfl, ?_⟩
    rw [he]
    simp [Cursor.after]
  · rintro ⟨hlength, rfl⟩
    have hbound : ∀ top ∈ some 9, count.length ≤ top := by simpa using hlength
    refine ⟨count ++ (" times: [".toList ++ []), [(.count, count)] ++ ([] ++ []), by simp, ?_,
      by simp [Cursor.after]⟩
    exact .cons ⟨[], rfl, List.length_pos_iff.mpr hne, hbound, hdigits, rfl⟩
      (.cons (takes_lit.mpr ⟨rfl, rfl⟩) ⟨rfl, rfl⟩)

/-- What is inside the brackets ends with the last one. -/
lemma mem_ends_innerRe {c d : Cursor Group} {message : List Char}
    (hdot : ∀ ch ∈ message, dot ch = true) (hrest : c.rest = message ++ [']']) :
    d ∈ (all [.group .inner (.rep dot 0 none true), lit "]", .finish]).ends c ↔
      d = { prev := some ']', rest := [], groups := c.groups ++ [(.inner, message)] } := by
  rw [mem_ends_iff]
  constructor
  · rintro ⟨_, _, htext, ⟨inner, _, _, _, rfl, rfl, ⟨_, rfl, -, -, -, rfl⟩,
      _, _, _, _, rfl, rfl, hclose, _, _, _, _, rfl, rfl, ⟨rfl, rfl, hend⟩, rfl, rfl⟩, hd⟩
    obtain ⟨rfl, rfl⟩ := takes_lit.mp hclose
    rcases hend with hnil | hnewline
    · have hnil' : d.rest = [] := hnil
      have heq : message ++ [']'] = inner ++ [']'] := by
        rw [← hrest, htext, hnil']
        simp
      rw [hd, hnil', List.append_cancel_right heq]
      simp [Cursor.after]
    · have hnewline' : d.rest = ['\n'] := hnewline
      have heq : message ++ [']'] = (inner ++ [']']) ++ ['\n'] := by
        rw [← hrest, htext, hnewline']
        simp
      have hlast := (List.append_inj' heq rfl).2
      exact absurd hlast (by decide)
  · rintro rfl
    refine ⟨message ++ ("]".toList ++ ([] ++ [])), [(.inner, message)] ++ ([] ++ ([] ++ [])),
      ?_, ?_, by simp [Cursor.after]⟩
    · simp [hrest]
    · exact .cons ⟨[], rfl, Nat.zero_le _, by simp, hdot, rfl⟩
        (.cons (takes_lit.mpr ⟨rfl, rfl⟩) (.cons ⟨rfl, rfl, Or.inl rfl⟩ ⟨rfl, rfl⟩))

lemma repLengths_blank (text : List Char) :
    repLengths isSpace 0 (some 1) true (' ' :: text) = [1, 0] := by
  have hblank : isSpace ' ' = true := by decide
  have htop : min (((' ' :: text).takeWhile isSpace).length) 1 = 1 := by
    rw [List.takeWhile_cons_of_pos hblank, List.length_cons]
    omega
  simp only [repLengths, Option.elim_some, htop]
  rfl

/-- **A summary is taken apart.** -/
lemma matchText_repeatRe (hu : u.Lawful) {count message : List Char} (hne : count ≠ [])
    (hcount : ∀ ch ∈ count, ascii.isDigit ch = true) (hdot : ∀ ch ∈ message, dot ch = true) :
    (repeatRe u).matchText ((Wrapping.repeated count).wrap message) =
      if count.length ≤ 9 then some [(.count, count), (.inner, message)] else none := by
  have hre : repeatRe u = all ([.start, lit "message repeated "] ++
      ([.group .count (digitsUpTo u 9), lit " times: ["] ++
        [.rep isSpace 0 (some 1) true, .group .inner (.rep dot 0 none true), lit "]",
          .finish])) := rfl
  have hcountRe : ∀ e : Cursor Group, _ := fun e =>
    mem_ends_countRe hu hne hcount "message repeated ".toList.getLast?
      (' ' :: (message ++ [']'])) (e := e)
  rw [hre, Wrapping.wrap_repeated, matchText_wordRe, ends_all_append]
  show (((Pattern.seq (countRe u) _).ends _).head?).map Cursor.groups = _
  split_ifs with hlength
  · rw [head?_ends_seq_of_unique ((hcountRe _).mpr ⟨hlength, rfl⟩)
      fun e he => ((hcountRe e).mp he).2]
    -- the blank after the bracket is taken
    have hblank : ∀ e : Cursor Group, e.rest = ' ' :: (message ++ [']']) →
        (Pattern.rep isSpace 0 (some 1) true).ends e = [e.advance 1, e.advance 0] := by
      intro e he
      rw [ends, he, repLengths_blank]
      rfl
    have hinner := fun d : Cursor Group =>
      mem_ends_innerRe (c := ⟨some ' ', message ++ [']'], [(.count, count)]⟩) (d := d) hdot rfl
    have hhead := head?_ends_seq_of_cons (hblank ⟨some '[', ' ' :: (message ++ [']']),
      [(.count, count)]⟩ rfl) (List.ne_nil_of_mem ((hinner _).mpr rfl))
    exact congrArg (Option.map Cursor.groups) (hhead.trans (head?_of_forall_mem_iff hinner))
  · have hnone : (countRe u).ends (Cursor.mk "message repeated ".toList.getLast?
        (count ++ (" times: [".toList ++ (' ' :: (message ++ [']'])))) []) = [] := by
      rw [List.eq_nil_iff_forall_not_mem]
      intro e he
      exact hlength ((hcountRe e).mp he).1
    rw [ends, hnone]
    rfl

lemma unwrapRepeat_repeated (hu : u.Lawful) {count message : List Char} (hne : count ≠ [])
    (hcount : ∀ ch ∈ count, ascii.isDigit ch = true) (hdot : ∀ ch ∈ message, dot ch = true) :
    unwrapRepeat u ((Wrapping.repeated count).wrap message) =
      if count.length ≤ 9 then (message, min (ascii.int count) maxRepeat)
      else ((Wrapping.repeated count).wrap message, 1) := by
  rw [unwrapRepeat, matchText_repeatRe hu hne hcount hdot]
  split_ifs with hlength
  · rw [← hu.int_eq hcount]
    rfl
  · rfl

namespace Message

/-- A message is no summary. -/
lemma unwrapRepeat_plain (m : Message) : unwrapRepeat u m.text = (m.text, 1) := by
  have hhead : m.text.head? ≠ some 'm' := by
    rw [text]
    cases m.shape with
    | failed method =>
        rw [failed_opening]
        exact head?_word_append (by decide : _ = some 'F') (by decide) _
    | accepted method =>
        rw [accepted_opening]
        exact head?_word_append (by decide : _ = some 'A') (by decide) _
    | invalid => exact head?_word_append (by decide : _ = some 'I') (by decide) _
  have hnone : (repeatRe u).matchText m.text = none := by
    rw [repeatRe]
    exact matchText_eq_none_of_head "message repeated " (by decide) hhead
  rw [unwrapRepeat, hnone]

end Message

/-- A summary is no message. -/
lemma matchBody_repeated (count message : List Char) :
    matchBody u ((Wrapping.repeated count).wrap message) = none := by
  have hword : "message repeated ".toList.head? = some 'm' := by decide
  rw [Wrapping.wrap_repeated, matchBody, failedRe_eq_none (head?_word_append hword (by decide) _),
    acceptedRe_eq_none (head?_word_append hword (by decide) _),
    invalidRe_eq_none (head?_word_append hword (by decide) _)]
  rfl

/-! ## Records -/

variable {c : Context} {now : DateTime}

/-- A line is turned into records: it is short enough, it stands for some messages, its timestamp
is a time, and the raw model takes its fields. -/
structure Header.Yields (h : Header c.unicode) (now : DateTime) (w : Wrapping) (m : Message)
    (body : Body) : Prop where
  length : (h.text ++ w.wrap m.text).length ≤ maxLineLen
  readable : w.Readable
  count : 0 < w.count
  fields : ∃ t, h.timestamp now = some (some t) ∧ (h.fields body m.text t).Valid

lemma Header.records_of_valid (h : Header c.unicode) {message : List Char} {body : Body} {t : ℤ}
    (count : ℕ) (hbody : matchBody c.unicode message = some body)
    (htime : h.timestamp now = some (some t)) (hvalid : (h.fields body message t).Valid) :
    h.records now message count =
      some ((List.range count).map (withOccurrence ⟨h.fields body message t, hvalid⟩)) := by
  rw [records, hbody]
  simp only [htime, Option.map_some, RawAuthEvent.build, dif_pos hvalid]

lemma Header.exists_of_mem_records (h : Header c.unicode) {message : List Char} {count : ℕ}
    {records : List RawAuthEvent} (hrecords : h.records now message count = some records)
    {r : RawAuthEvent} (hr : r ∈ records) : ∃ body t, matchBody c.unicode message = some body ∧
      h.timestamp now = some (some t) ∧ ∃ hvalid : (h.fields body message t).Valid,
        ∃ n < count, r = withOccurrence ⟨h.fields body message t, hvalid⟩ n := by
  rw [Header.records] at hrecords
  cases hbody : matchBody c.unicode message with
  | none =>
      rw [hbody] at hrecords
      rw [← Option.some.inj hrecords] at hr
      cases hr
  | some body =>
      rw [hbody] at hrecords
      obtain ⟨timestamp, htime, rfl⟩ := Option.map_eq_some_iff.mp hrecords
      cases timestamp with
      | none => cases hr
      | some t =>
          by_cases hvalid : (h.fields body message t).Valid
          · simp only [RawAuthEvent.build, dif_pos hvalid] at hr
            obtain ⟨n, hn, rfl⟩ := List.mem_map.mp hr
            exact ⟨body, t, rfl, htime, hvalid, n, List.mem_range.mp hn, rfl⟩
          · simp only [RawAuthEvent.build, dif_neg hvalid] at hr
            cases hr

namespace Message

lemma text_ne_nil (m : Message) : m.text ≠ [] := by
  rw [text, named_eq]
  exact List.append_ne_nil_of_right_ne_nil _
    (List.append_ne_nil_of_left_ne_nil m.beforeAfter_ne_nil _)

lemma dot_wrap {w : Wrapping} (hw : w.WellFormed) (m : Message) :
    ∀ ch ∈ w.wrap m.text, dot ch = true := by
  cases w with
  | plain => exact m.dot_text
  | repeated count =>
      have hcount : ∀ ch ∈ count, dot ch = true := by
        intro ch hch
        rw [dot, bne_iff_ne]
        rintro rfl
        exact absurd (isSpace_of_ascii_digit (hw.2 _ hch)) (by decide)
      simp only [Wrapping.wrap_repeated, List.forall_mem_append, List.forall_mem_cons]
      exact ⟨by decide, hcount, by decide, by decide, m.dot_text, by decide, by simp⟩

/-- **What the parser makes of a line with a message.** -/
lemma parseAuthRecords_message (now : DateTime) (hu : c.unicode.Lawful) (h : Header c.unicode)
    {w : Wrapping} (hw : w.WellFormed) (m : Message) :
    parseAuthRecords c now (h.text ++ w.wrap m.text) = some [] ∧
        ¬ ((h.text ++ w.wrap m.text).length ≤ maxLineLen ∧ w.Readable) ∨
      parseAuthRecords c now (h.text ++ w.wrap m.text) = h.records now m.text w.count ∧
        (h.text ++ w.wrap m.text).length ≤ maxLineLen ∧ w.Readable := by
  have hne : w.wrap m.text ≠ [] := by
    cases w with
    | plain => exact m.text_ne_nil
    | repeated count => exact List.append_ne_nil_of_left_ne_nil (by decide) _
  rw [h.parseAuthRecords_line hu hne (m.dot_wrap hw)]
  by_cases hlength : (h.text ++ w.wrap m.text).length > maxLineLen
  · rw [if_pos hlength]
    exact Or.inl ⟨rfl, fun hle => absurd hlength (Nat.not_lt.mpr hle.1)⟩
  rw [if_neg hlength]
  have hle := Nat.not_lt.mp hlength
  cases w with
  | plain =>
      right
      refine ⟨?_, hle, True.intro⟩
      show h.records now (unwrapRepeat c.unicode m.text).1 (unwrapRepeat c.unicode m.text).2 = _
      rw [m.unwrapRepeat_plain]
      rfl
  | repeated count =>
      rw [unwrapRepeat_repeated hu hw.1 hw.2 m.dot_text]
      by_cases hcount : count.length ≤ 9
      · rw [if_pos hcount]
        exact Or.inr ⟨rfl, hle, hcount⟩
      · rw [if_neg hcount, Header.records, matchBody_repeated]
        exact Or.inl ⟨rfl, fun hle => hcount hle.2⟩

/-- **What holds of every record of a line, from how its message is read.** -/
theorem forall_records_iff (now : DateTime) (hu : c.unicode.Lawful) (h : Header c.unicode)
    {w : Wrapping} (hw : w.WellFormed) (m : Message) (P : String → String → ℕ → Prop) :
    (∀ records, parseAuthRecords c now (h.text ++ w.wrap m.text) = some records →
        ∀ r ∈ records, P r.user r.ip r.port) ↔
      ∀ body, matchBody c.unicode m.text = some body → h.Yields now w m body →
        P (String.ofList body.user) (String.ofList body.ip) (c.unicode.int body.port) := by
  rcases parseAuthRecords_message now hu h hw m with ⟨hparse, hnot⟩ | ⟨hparse, hlength,
    hreadable⟩
  · rw [hparse]
    constructor
    · intro _ body _ hyields
      exact absurd ⟨hyields.length, hyields.readable⟩ hnot
    · intro _ records hrecords r hr
      rw [← Option.some.inj hrecords] at hr
      cases hr
  · rw [hparse]
    constructor
    · rintro hall body hbody ⟨-, -, hcount, t, htime, hvalid⟩
      exact hall _ (h.records_of_valid w.count hbody htime hvalid) _
        (List.mem_map_of_mem (List.mem_range.mpr hcount))
    · intro hall records hrecords r hr
      obtain ⟨body, t, hbody, htime, hvalid, n, hn, rfl⟩ := h.exists_of_mem_records hrecords hr
      exact hall body hbody ⟨hlength, hreadable, by omega, t, htime, hvalid⟩

/-- **How a message is read.** -/
lemma matchBody_text (hu : u.Lawful) (m : Message) (body : Body) :
    matchBody u m.text = some body ↔ m.shape.recognised = true ∧ ∃ before ip port, before ≠ [] ∧
      LastOrigin u m.named before ip port ∧ body = m.shape.body before ip port :=
  matchBody_eq_some_iff hu m.shape_valid m.dot_named body

end Message

end Sentinel.AuthLog
