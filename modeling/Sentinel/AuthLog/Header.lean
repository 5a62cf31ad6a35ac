import Sentinel.AuthLog.Parser
import Sentinel.Library.Matching

/-!
# Syslog headers

A `Header` is what stands before the message of an `sshd` line.  Every delimiter of it is a
character that what stands before the delimiter cannot hold, so there is only one way through
`_SYSLOG_RE`, and it captures the fields of the header and the message as they are
(`matchText_header`).
-/

namespace Sentinel.AuthLog

open Regex Regex.Pattern Calendar PyText

variable {u : Unicode}

/-! ## Timestamps -/

/-- The two kinds of timestamp. -/
inductive Stamp where
  | bsd
  | iso
deriving DecidableEq, Repr

def Stamp.group : Stamp → Group
  | .bsd => .bsd
  | .iso => .iso

def Stamp.re (u : Unicode) : Stamp → Re
  | .bsd => bsdRe u
  | .iso => isoRe u

lemma within_clockRe {P : Char → Prop} (hdigits : ∀ ch, u.isDigit ch = true → P ch)
    (hcolon : P ':') : (clockRe u).Within P := by
  have hlit : (lit ":" : Re).Within P := within_lit (by simpa using hcolon)
  exact ⟨hdigits, hlit, hdigits, hlit, hdigits, True.intro⟩

lemma within_isoRe {P : Char → Prop} (hdigits : ∀ ch, u.isDigit ch = true → P ch)
    (hsigns : ∀ ch ∈ ['-', 'T', ':', '.', 'Z', '+'], P ch) : (isoRe u).Within P := by
  have hlit : ∀ text : String, (∀ ch ∈ text.toList, ch ∈ ['-', 'T', ':', '.', 'Z', '+']) →
      (lit text : Re).Within P :=
    fun text htext => within_lit fun ch hch => hsigns ch (htext ch hch)
  refine ⟨hdigits, hlit "-" (by decide), hdigits, hlit "-" (by decide), hdigits,
    hlit "T" (by decide), within_clockRe hdigits (hsigns ':' (by decide)),
    ⟨⟨hlit "." (by decide), hdigits, True.intro⟩, True.intro⟩,
    ⟨hlit "Z" (by decide), ?_, hdigits, ⟨hlit ":" (by decide), True.intro⟩, hdigits, True.intro⟩,
    True.intro⟩
  intro ch hch
  rcases Bool.or_eq_true_iff.mp hch with hplus | hminus
  · rw [beq_iff_eq.mp hplus]
    exact hsigns '+' (by decide)
  · rw [beq_iff_eq.mp hminus]
    exact hsigns '-' (by decide)

lemma Stamp.within (kind : Stamp) : (kind.re u).Within fun _ => True := by
  cases kind with
  | bsd =>
      exact ⟨fun _ _ => True.intro, fun _ _ => True.intro, fun _ _ => True.intro,
        fun _ _ => True.intro, fun _ _ => True.intro,
        within_clockRe (fun _ _ => True.intro) True.intro, True.intro⟩
  | iso => exact within_isoRe (fun _ _ => True.intro) fun _ _ => True.intro

/-- The parts of a BSD timestamp. -/
lemma parts_of_bsd (hdigits : ∀ ch, u.isDigit ch = true → isSpace ch = false)
    {raw : List Char} (h : (bsdRe u).Accepts raw) :
    ∃ first letters gap spaces day gap' clock,
      raw = (first :: letters) ++ gap :: (spaces ++ (day ++ gap' :: clock)) ∧
      ('A' ≤ first ∧ first ≤ 'Z') ∧ (∀ ch ∈ first :: letters, isSpace ch = false) ∧
      (∀ ch ∈ gap :: spaces, isSpace ch = true) ∧
      day ≠ [] ∧ (∀ ch ∈ day, isSpace ch = false) ∧ isSpace gap' = true ∧
      clock ≠ [] ∧ ∀ ch ∈ clock, isSpace ch = false := by
  obtain ⟨prev, rest, groups, h⟩ := accepts_iff.mp h
  obtain ⟨capital, raw, _, _, rfl, -, ⟨⟨first, rfl, hfirst⟩, -⟩, h⟩ := takes_all_cons.mp h
  obtain ⟨letters, raw, _, _, rfl, -, ⟨-, -, hletters, -⟩, h⟩ := takes_all_cons.mp h
  obtain ⟨spaces, raw, _, _, rfl, -, ⟨hlen, -, hspaces, -⟩, h⟩ := takes_all_cons.mp h
  obtain ⟨day, raw, _, _, rfl, -, ⟨hday, -, hday', -⟩, h⟩ := takes_all_cons.mp h
  obtain ⟨_, raw, _, _, rfl, -, ⟨⟨gap', rfl, hgap'⟩, -⟩, h⟩ := takes_all_cons.mp h
  obtain ⟨clock, raw, _, _, rfl, -, hclock, h⟩ := takes_all_cons.mp h
  obtain ⟨rfl, -⟩ := takes_all_nil.mp h
  rw [decide_eq_true_eq] at hfirst
  have hclock' := (within_clockRe hdigits (by decide)).forall_mem hclock
  obtain ⟨hour, _, _, _, rfl, -, ⟨hhour, -⟩, -⟩ := takes_all_cons.mp hclock
  have hmonth : ∀ ch ∈ first :: letters, isSpace ch = false := by
    intro ch hch
    rcases List.mem_cons.mp hch with rfl | hch
    · have hhi : ch.toNat ≤ 'Z'.toNat := hfirst.2
      exact isSpace_of_letter hfirst.1 (hhi.trans (by decide))
    · have hletter := hletters ch hch
      rw [decide_eq_true_eq] at hletter
      have hlo : 'a'.toNat ≤ ch.toNat := hletter.1
      exact isSpace_of_letter (le_trans (by decide) hlo) hletter.2
  cases spaces with
  | nil => cases hlen
  | cons gap spaces =>
      refine ⟨first, letters, gap, spaces, day, gap', _, ?_, hfirst, hmonth, hspaces,
        List.length_pos_iff.mp hday, fun ch hch => hdigits ch (hday' ch hch), hgap', ?_, hclock'⟩
      · simp
      · intro hnil
        rw [(List.append_eq_nil_iff.mp hnil).1] at hhour
        cases hhour

/-- An RFC 3339 timestamp is one word, and it begins with a digit. -/
lemma word_of_iso (hdigits : ∀ ch, u.isDigit ch = true → isSpace ch = false) {raw : List Char}
    (h : (isoRe u).Accepts raw) :
    (∀ ch ∈ raw, isSpace ch = false) ∧ ∃ ch tail, raw = ch :: tail ∧ u.isDigit ch = true := by
  obtain ⟨prev, rest, groups, h⟩ := accepts_iff.mp h
  refine ⟨(within_isoRe hdigits (by decide)).forall_mem h, ?_⟩
  obtain ⟨year, raw, _, _, rfl, -, ⟨hlen, -, hyear, -⟩, -⟩ := takes_all_cons.mp h
  cases year with
  | nil => cases hlen
  | cons ch year => exact ⟨ch, year ++ raw, rfl, hyear ch List.mem_cons_self⟩

/-- **The end of a timestamp is where the pattern finds it.** -/
lemma stamp_unique (hu : u.Lawful) {kind kind' : Stamp} {stamp stamp' y y' : List Char}
    {gap gap' : Char} (h : (kind.re u).Accepts stamp) (h' : (kind'.re u).Accepts stamp')
    (hgap : isSpace gap = true) (hgap' : isSpace gap' = true)
    (htext : stamp ++ gap :: y = stamp' ++ gap' :: y') :
    kind = kind' ∧ stamp = stamp' ∧ gap = gap' ∧ y = y' := by
  have hword : ∀ {x : List Char}, (∀ ch ∈ x, isSpace ch = false) →
      ∀ ch ∈ x, (fun ch => !isSpace ch) ch = true := by
    intro x hx ch hch
    simp [hx ch hch]
  have hend : ∀ {ch : Char}, isSpace ch = true → (fun ch => !isSpace ch) ch = false := by
    intro ch hch
    simp [hch]
  -- a capital letter is no digit
  have hclash : ∀ {bsd iso z z' : List Char}, (bsdRe u).Accepts bsd → (isoRe u).Accepts iso →
      bsd ++ z ≠ iso ++ z' := by
    intro bsd iso z z' hbsd hiso heq
    obtain ⟨first, letters, _, _, _, _, _, rfl, hfirst, -⟩ := parts_of_bsd hu.digit hbsd
    obtain ⟨-, ch, tail, rfl, hdigit⟩ := word_of_iso hu.digit hiso
    rw [List.cons_append, List.cons_append, List.cons_append] at heq
    rw [← (List.cons.inj heq).1] at hdigit
    have hlo : 65 ≤ first.toNat := hfirst.1
    have hhi : first.toNat ≤ 90 := hfirst.2
    have hnot : first.isDigit = false := by
      rw [Bool.eq_false_iff]
      intro hd
      have hlt : first.toNat ≤ 57 := (Char.isDigit_iff_toNat.mp hd).2
      omega
    rw [Unicode.isDigit, hu.decimal first (by omega)] at hdigit
    simp [ascii, hnot] at hdigit
  cases kind with
  | iso =>
      cases kind' with
      | bsd => exact absurd htext.symm (hclash h' h)
      | iso =>
          obtain ⟨rfl, rfl, rfl⟩ := run_unique (hword (word_of_iso hu.digit h).1)
            (hword (word_of_iso hu.digit h').1) (hend hgap) (hend hgap') htext
          exact ⟨rfl, rfl, rfl, rfl⟩
  | bsd =>
      cases kind' with
      | iso => exact absurd htext (hclash h h')
      | bsd =>
          obtain ⟨first, letters, sp, spaces, day, sep, clock, rfl, -, hmonth, hspaces, hday₁,
            hday₂, hsep, -, hclock⟩ := parts_of_bsd hu.digit h
          obtain ⟨first', letters', sp', spaces', day', sep', clock', rfl, -, hmonth', hspaces',
            hday₁', hday₂', hsep', -, hclock'⟩ := parts_of_bsd hu.digit h'
          obtain ⟨d, days, rfl⟩ := List.exists_cons_of_ne_nil hday₁
          obtain ⟨d', days', rfl⟩ := List.exists_cons_of_ne_nil hday₁'
          have hmonths : (first :: letters) ++ sp :: (spaces ++ d :: (days ++ sep ::
              (clock ++ gap :: y))) = (first' :: letters') ++ sp' :: (spaces' ++ d' :: (days' ++
              sep' :: (clock' ++ gap' :: y'))) := by
            simpa using htext
          obtain ⟨hmonth, rfl, hspacesDay⟩ := run_unique (hword hmonth) (hword hmonth')
            (hend (hspaces sp List.mem_cons_self)) (hend (hspaces' sp' List.mem_cons_self)) hmonths
          obtain ⟨rfl, rfl, hdays⟩ := run_unique
            (fun ch hch => hspaces ch (List.mem_cons_of_mem _ hch))
            (fun ch hch => hspaces' ch (List.mem_cons_of_mem _ hch))
            (hday₂ d List.mem_cons_self) (hday₂' d' List.mem_cons_self) hspacesDay
          obtain ⟨rfl, rfl, hclocks⟩ := run_unique
            (hword fun ch hch => hday₂ ch (List.mem_cons_of_mem _ hch))
            (hword fun ch hch => hday₂' ch (List.mem_cons_of_mem _ hch)) (hend hsep) (hend hsep')
            hdays
          obtain ⟨rfl, rfl, rfl⟩ := run_unique (hword hclock) (hword hclock') (hend hgap)
            (hend hgap') hclocks
          rw [hmonth]
          exact ⟨rfl, rfl, rfl, rfl⟩

/-! ## Headers -/

/-- A character of a process name. -/
def isProc (u : Unicode) (c : Char) : Bool := u.isWord c || c == '/' || c == '.' || c == '-'

/-- What stands before the message of a line of `sshd`. -/
structure Header (u : Unicode) where
  kind : Stamp
  stamp : List Char
  stampGap : Char
  host : List Char
  hostGap : Char
  proc : List Char
  pid : Option (List Char)
  procGap : Char
  stamp_valid : (kind.re u).Accepts stamp
  stampGap_valid : isSpace stampGap = true
  host_valid : host ≠ [] ∧ ∀ ch ∈ host, isSpace ch = false
  hostGap_valid : isSpace hostGap = true
  proc_valid : String.ofList proc ∈ sshdProcs
  pid_valid : ∀ text ∈ pid, (1 ≤ text.length ∧ text.length ≤ 10) ∧
    ∀ ch ∈ text, u.isDigit ch = true
  procGap_valid : isSpace procGap = true

namespace Header

/-- `[pid]`, if there is one. -/
def pidText (h : Header u) : List Char := h.pid.elim [] fun text => '[' :: (text ++ [']'])

def text (h : Header u) : List Char :=
  h.stamp ++ h.stampGap :: (h.host ++ h.hostGap :: (h.proc ++ (h.pidText ++ [':', h.procGap])))

/-- The groups of a line with this header. -/
def groups (h : Header u) (msg : List Char) : Match :=
  [(h.kind.group, h.stamp), (.host, h.host), (.proc, h.proc)] ++
    (h.pid.toList.map fun text => (.pid, text)) ++ [(.msg, msg)]

lemma stamp_ne_nil (hu : u.Lawful) (h : Header u) : h.stamp ≠ [] := by
  have hvalid := h.stamp_valid
  cases hkind : h.kind with
  | bsd =>
      rw [hkind] at hvalid
      obtain ⟨first, letters, _, _, _, _, _, heq, -⟩ := parts_of_bsd hu.digit hvalid
      rw [heq]
      exact List.cons_ne_nil _ _
  | iso =>
      rw [hkind] at hvalid
      obtain ⟨-, ch, tail, heq, -⟩ := word_of_iso hu.digit hvalid
      rw [heq]
      exact List.cons_ne_nil _ _

lemma proc_eq (h : Header u) : h.proc = "sshd".toList ∨ h.proc = "sshd-session".toList := by
  have hproc := h.proc_valid
  rw [sshdProcs, List.mem_cons, List.mem_singleton] at hproc
  refine hproc.imp ?_ ?_ <;>
    · intro heq
      rw [← heq, String.toList_ofList]

lemma isProc_proc (hu : u.Lawful) (h : Header u) : ∀ ch ∈ h.proc, isProc u ch = true := by
  have hascii : ∀ ch ∈ h.proc, ch.toNat < 128 ∧ isProc ascii ch = true := by
    rcases h.proc_eq with heq | heq <;>
      · rw [heq]
        decide
  intro ch hch
  rw [isProc, hu.isWord ch (hascii ch hch).1]
  exact (hascii ch hch).2

end Header

lemma isProc_eq_false (hu : u.Lawful) {ch : Char} (hch : ch ∈ ['[', ':']) :
    isProc u ch = false := by
  have hascii : ∀ ch ∈ ['[', ':'], ch.toNat < 128 ∧ isProc ascii ch = false := by decide
  rw [isProc, hu.isWord ch (hascii ch hch).1]
  exact (hascii ch hch).2

lemma isDigit_eq_false (hu : u.Lawful) {ch : Char} (hascii : ch.toNat < 128)
    (hch : ascii.isDigit ch = false) : u.isDigit ch = false := by
  rw [Unicode.isDigit, hu.decimal ch hascii]
  exact hch

namespace Header

lemma takes_pid (h : Header u) (prev : Option Char) (rest : List Char) :
    (opt (all [lit "[", .group .pid (digitsUpTo u 10), lit "]"])).Takes prev h.pidText rest
      (h.pid.toList.map fun text => (Group.pid, text)) := by
  rw [takes_opt, pidText]
  cases hpid : h.pid with
  | none => exact Or.inr ⟨rfl, rfl⟩
  | some text =>
      obtain ⟨⟨hlo, hhi⟩, hdigits⟩ := h.pid_valid text hpid
      have htext : (some text).elim [] (fun text => '[' :: (text ++ [']'])) =
          "[".toList ++ (text ++ ("]".toList ++ [])) := by simp
      have hgroups : ((some text).toList.map fun text => (Group.pid, text)) =
          [] ++ ([(Group.pid, text)] ++ ([] ++ [])) := rfl
      have hbound : ∀ top ∈ some 10, text.length ≤ top := by simpa using hhi
      rw [htext, hgroups]
      exact Or.inl (.cons (takes_lit.mpr ⟨rfl, rfl⟩) (.cons ⟨[], rfl, hlo, hbound, hdigits, rfl⟩
        (.cons (takes_lit.mpr ⟨rfl, rfl⟩) ⟨rfl, rfl⟩)))

lemma takes_stamp (h : Header u) (rest : List Char) :
    (Pattern.alt (.group .bsd (bsdRe u)) (.group .iso (isoRe u))).Takes none h.stamp rest
      [(h.kind.group, h.stamp)] := by
  obtain ⟨prev, rest', groups, htakes⟩ := accepts_iff.mp h.stamp_valid
  obtain ⟨-, htakes⟩ := h.kind.within.takes htakes none rest
  cases hkind : h.kind with
  | bsd =>
      rw [hkind] at htakes
      exact Or.inl ⟨[], rfl, htakes⟩
  | iso =>
      rw [hkind] at htakes
      exact Or.inr ⟨[], rfl, htakes⟩

lemma takes (hu : u.Lawful) (h : Header u) {msg : List Char} (hmsg : ∀ ch ∈ msg, dot ch = true) :
    (syslogRe u).Takes none (h.text ++ msg) [] (h.groups msg) := by
  have hspace : ∀ {prev : Option Char} {rest : List Char} {ch : Char}, isSpace ch = true →
      space.Takes prev [ch] rest [] := fun hch => ⟨⟨_, rfl, hch⟩, rfl⟩
  have hhost : ∀ ch ∈ h.host, (!isSpace ch) = true := by
    intro ch hch
    simp [h.host_valid.2 ch hch]
  have hproc : 1 ≤ h.proc.length := by
    rcases h.proc_eq with heq | heq <;>
      · rw [heq]
        decide
  have htext : h.text ++ msg = [] ++ (h.stamp ++ ([h.stampGap] ++ (h.host ++ ([h.hostGap] ++
      (h.proc ++ (h.pidText ++ (":".toList ++ ([h.procGap] ++ (msg ++ ([] ++ [])))))))))) := by
    simp [text]
  have hgroups : h.groups msg = [] ++ ([(h.kind.group, h.stamp)] ++ ([] ++ ([(.host, h.host)] ++
      ([] ++ ([(.proc, h.proc)] ++ ((h.pid.toList.map fun text => (.pid, text)) ++ ([] ++ ([] ++
        ([(.msg, msg)] ++ ([] ++ [])))))))))) := by
    simp [groups]
  rw [htext, hgroups, syslogRe]
  exact .cons ⟨rfl, rfl, rfl⟩ (.cons (h.takes_stamp _) (.cons (hspace h.stampGap_valid)
    (.cons ⟨[], rfl, List.length_pos_iff.mpr h.host_valid.1, by simp, hhost, rfl⟩
    (.cons (hspace h.hostGap_valid) (.cons ⟨[], rfl, hproc, by simp, h.isProc_proc hu, rfl⟩
    (.cons (h.takes_pid _ _) (.cons (takes_lit.mpr ⟨rfl, rfl⟩) (.cons (hspace h.procGap_valid)
    (.cons ⟨[], rfl, Nat.zero_le _, by simp, hmsg, rfl⟩
    (.cons ⟨rfl, rfl, Or.inl rfl⟩ ⟨rfl, rfl⟩))))))))))

lemma stamp_of_takes {prev : Option Char} {stamp rest : List Char} {groups : Match}
    (h : (Pattern.alt (.group .bsd (bsdRe u)) (.group .iso (isoRe u))).Takes prev stamp rest
      groups) : ∃ kind : Stamp, (kind.re u).Accepts stamp ∧ groups = [(kind.group, stamp)] := by
  rcases h with ⟨inside, rfl, htakes⟩ | ⟨inside, rfl, htakes⟩
  · rw [(Stamp.bsd.within.takes htakes none []).1]
    exact ⟨.bsd, accepts_iff.mpr ⟨_, _, _, htakes⟩, rfl⟩
  · rw [(Stamp.iso.within.takes htakes none []).1]
    exact ⟨.iso, accepts_iff.mpr ⟨_, _, _, htakes⟩, rfl⟩

/-- A process id is in brackets, and nothing else is. -/
lemma pid_unique (hu : u.Lawful) (h : Header u) {prev : Option Char} {text rest y y' : List Char}
    {groups : Match} (htakes : (opt (all [lit "[", .group .pid (digitsUpTo u 10), lit "]"])).Takes
      prev text rest groups) (htext : h.pidText ++ ':' :: y = text ++ ':' :: y') :
    groups = (h.pid.toList.map fun text => (.pid, text)) ∧ y = y' := by
  rw [pidText] at htext
  rcases htakes with htakes | ⟨rfl, rfl⟩
  · obtain ⟨_, _, _, _, rfl, rfl, hopen, _, _, _, _, rfl, rfl, ⟨inside, rfl, -, -, hdigits, rfl⟩,
      _, _, _, _, rfl, rfl, hclose, rfl, rfl⟩ := htakes
    obtain ⟨rfl, rfl⟩ := takes_lit.mp hopen
    obtain ⟨rfl, rfl⟩ := takes_lit.mp hclose
    cases hpid : h.pid with
    | none =>
        rw [hpid] at htext
        simp at htext
    | some pid =>
        rw [hpid] at htext
        have hbracket : u.isDigit ']' = false := isDigit_eq_false hu (by decide) (by decide)
        obtain ⟨rfl, -, hrest⟩ := run_unique (h.pid_valid pid hpid).2 hdigits hbracket hbracket
          (by simpa using htext)
        exact ⟨rfl, by simpa using hrest⟩
  · cases hpid : h.pid with
    | none =>
        rw [hpid] at htext
        exact ⟨rfl, by simpa using htext⟩
    | some pid =>
        rw [hpid] at htext
        simp at htext

lemma proc_unique (hu : u.Lawful) (h : Header u) {proc : List Char} {prev : Option Char}
    {text rest y y' : List Char} {groups : Match} (hproc : ∀ ch ∈ proc, isProc u ch = true)
    (htakes : (opt (all [lit "[", .group .pid (digitsUpTo u 10), lit "]"])).Takes prev text rest
      groups) (htext : h.proc ++ (h.pidText ++ ':' :: y) = proc ++ (text ++ ':' :: y')) :
    h.proc = proc ∧ h.pidText ++ ':' :: y = text ++ ':' :: y' := by
  obtain ⟨d, z, hd, heq⟩ : ∃ d z, d ∈ ['[', ':'] ∧ h.pidText ++ ':' :: y = d :: z := by
    rw [pidText]
    cases h.pid with
    | none => exact ⟨':', y, by decide, rfl⟩
    | some pid => exact ⟨'[', pid ++ [']'] ++ ':' :: y, by decide, by simp⟩
  obtain ⟨d', z', hd', heq'⟩ : ∃ d z, d ∈ ['[', ':'] ∧ text ++ ':' :: y' = d :: z := by
    rcases htakes with ⟨_, tail, _, _, rfl, -, hopen, -⟩ | ⟨rfl, -⟩
    · obtain ⟨rfl, -⟩ := takes_lit.mp hopen
      exact ⟨'[', tail ++ ':' :: y', by decide, by simp⟩
    · exact ⟨':', y', by decide, rfl⟩
  rw [heq, heq'] at htext
  obtain ⟨hprocs, rfl, rfl⟩ := run_unique (h.isProc_proc hu) hproc (isProc_eq_false hu hd)
    (isProc_eq_false hu hd') htext
  exact ⟨hprocs, by rw [heq, heq']⟩

/-- **A line with this header has one reading.** -/
theorem matchText_header (hu : u.Lawful) (h : Header u) {msg : List Char}
    (hmsg : ∀ ch ∈ msg, dot ch = true) :
    (syslogRe u).matchText (h.text ++ msg) = some (h.groups msg) := by
  have htakes := h.takes hu hmsg
  have hunique := matchText_of_takes htakes
  rw [List.append_nil] at hunique
  refine hunique ?_
  intro x rest groups htext hcut
  rw [syslogRe] at hcut
  rw [takes_all_cons] at hcut
  obtain ⟨_, _, _, _, rfl, rfl, ⟨rfl, rfl, -⟩, hcut⟩ := hcut
  rw [takes_all_cons] at hcut
  obtain ⟨stamp, _, _, _, rfl, rfl, hstamp, hcut⟩ := hcut
  rw [takes_all_cons] at hcut
  obtain ⟨_, _, _, _, rfl, rfl, ⟨⟨gap, rfl, hgap⟩, rfl⟩, hcut⟩ := hcut
  rw [takes_all_cons] at hcut
  obtain ⟨host, _, _, _, rfl, rfl, ⟨_, rfl, -, -, hhost, rfl⟩, hcut⟩ := hcut
  rw [takes_all_cons] at hcut
  obtain ⟨_, _, _, _, rfl, rfl, ⟨⟨gap', rfl, hgap'⟩, rfl⟩, hcut⟩ := hcut
  rw [takes_all_cons] at hcut
  obtain ⟨proc, _, _, _, rfl, rfl, ⟨_, rfl, -, -, hproc, rfl⟩, hcut⟩ := hcut
  rw [takes_all_cons] at hcut
  obtain ⟨pid, _, _, _, rfl, rfl, hpid, hcut⟩ := hcut
  rw [takes_all_cons] at hcut
  obtain ⟨_, _, _, _, rfl, rfl, hcolon, hcut⟩ := hcut
  rw [takes_all_cons] at hcut
  obtain ⟨_, _, _, _, rfl, rfl, ⟨⟨gap'', rfl, -⟩, rfl⟩, hcut⟩ := hcut
  rw [takes_all_cons] at hcut
  obtain ⟨msg', _, _, _, rfl, rfl, ⟨_, rfl, -, -, hmsg', rfl⟩, hcut⟩ := hcut
  rw [takes_all_cons] at hcut
  obtain ⟨_, _, _, _, rfl, rfl, ⟨rfl, rfl, hend⟩, hcut⟩ := hcut
  obtain ⟨rfl, rfl⟩ := takes_all_nil.mp hcut
  obtain ⟨rfl, rfl⟩ := takes_lit.mp hcolon
  obtain ⟨kind, haccepts, rfl⟩ := stamp_of_takes hstamp
  have hword : ∀ {ch : Char}, isSpace ch = true → (fun ch => !isSpace ch) ch = false := by
    intro ch hch
    simp [hch]
  have hhost' : ∀ ch ∈ h.host, (fun ch => !isSpace ch) ch = true := by
    intro ch hch
    simp [h.host_valid.2 ch hch]
  -- one delimiter after the other
  have hline : h.stamp ++ h.stampGap :: (h.host ++ h.hostGap :: (h.proc ++ (h.pidText ++
      ':' :: h.procGap :: msg))) =
      stamp ++ gap :: (host ++ gap' :: (proc ++ (pid ++ ':' :: gap'' :: (msg' ++ rest)))) := by
    simpa [text] using htext
  obtain ⟨rfl, rfl, rfl, hhosts⟩ :=
    stamp_unique hu h.stamp_valid haccepts h.stampGap_valid hgap hline
  obtain ⟨rfl, rfl, hprocs⟩ := run_unique hhost' hhost (hword h.hostGap_valid) (hword hgap') hhosts
  obtain ⟨rfl, hpids⟩ := h.proc_unique hu hproc hpid hprocs
  obtain ⟨rfl, hmsgs⟩ := h.pid_unique hu hpid hpids
  obtain ⟨-, hmsgs⟩ := List.cons.inj hmsgs
  have hrest : rest = [] := by
    rcases hend with hnil | hnewline
    · exact hnil
    · have hmem : '\n' ∈ msg := by
        rw [hmsgs, show rest = ['\n'] from hnewline]
        simp
      exact absurd (hmsg _ hmem) (by decide)
  rw [hmsgs, hrest]
  simp [groups]

/-! ## Lines -/

section Lines

variable {c : Context} {now : DateTime} (h : Header c.unicode)

/-- The universal time of the line: the outer `none` is an exception. -/
def timestamp (now : DateTime) : Option (Option ℤ) :=
  match h.kind with
  | .bsd => parseBsdTimestamp c now h.stamp
  | .iso => parseIsoTimestamp h.stamp

/-- The fields of the line's record. -/
def fields (body : Body) (message : List Char) (t : ℤ) : AuthFields :=
  { occurredAt := posix t
    host := (c.hostOverride.filter (· ≠ "")).getD (String.ofList h.host)
    syslogTs := String.ofList h.stamp
    pid := String.ofList (h.pid.getD [])
    action := body.action
    outcome := body.outcome
    severity := body.severity
    user := String.ofList body.user
    ip := String.ofList body.ip
    port := c.unicode.int body.port
    message := String.ofList message }

/-- The records of a message that stands for `count` lines. -/
def records (now : DateTime) (message : List Char) (count : ℕ) : Option (List RawAuthEvent) :=
  match matchBody c.unicode message with
  | none => some []
  | some body =>
      (h.timestamp now).map fun timestamp =>
        match timestamp with
        | none => []
        | some t =>
            match RawAuthEvent.build (h.fields body message t) with
            | none => []
            | some first => (List.range count).map (withOccurrence first)

lemma headerTimestamp_groups (msg : List Char) :
    headerTimestamp c now (h.groups msg) = (h.stamp, h.timestamp now) := by
  unfold timestamp groups
  cases h.kind with
  | bsd => rfl
  | iso => cases h.pid <;> rfl

lemma text_groups (msg : List Char) :
    Match.text (h.groups msg) .host = h.host ∧ Match.text (h.groups msg) .proc = h.proc ∧
      Match.text (h.groups msg) .pid = h.pid.getD [] ∧ Match.text (h.groups msg) .msg = msg := by
  unfold groups
  cases h.kind <;> cases h.pid <;> exact ⟨rfl, rfl, rfl, rfl⟩

/-- **What the parser makes of a line with this header.** -/
theorem parseAuthRecords_line (hu : c.unicode.Lawful) {msg : List Char} (hne : msg ≠ [])
    (hmsg : ∀ ch ∈ msg, dot ch = true) :
    parseAuthRecords c now (h.text ++ msg) =
      if (h.text ++ msg).length > maxLineLen then some []
      else h.records now (unwrapRepeat c.unicode msg).1 (unwrapRepeat c.unicode msg).2 := by
  obtain ⟨hhost, hproc, hpid, hmessage⟩ := h.text_groups msg
  have hstrip : (h.text ++ msg).rdropWhile (· == '\n') = h.text ++ msg := by
    rw [List.rdropWhile_eq_self_iff]
    intro _
    rw [List.getLast_append_of_right_ne_nil _ _ hne]
    have hlast := hmsg _ (List.getLast_mem hne)
    simpa [dot] using hlast
  rw [parseAuthRecords, hstrip, h.matchText_header hu hmsg]
  dsimp only
  rw [hproc, if_neg (not_not.mpr h.proc_valid), hmessage, records, headerTimestamp_groups]
  simp only [authFields, hhost, hpid]
  rfl

end Lines

end Header

end Sentinel.AuthLog
