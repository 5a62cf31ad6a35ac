import Sentinel.Library.Calendar
import Sentinel.Library.PyText
import Sentinel.Library.Regex
import Sentinel.Normalizer.Raw

/-!
# Parsing auth-log lines

`parse_auth_records` of `collectors/authlog.py`: the syslog header, rsyslog's "message repeated"
summary, the three sshd message bodies, the two kinds of timestamp, and the records of a line.

A text is a list of characters.  `none` is an exception that leaves the function, such as the
`OverflowError` of a time whose universal time is outside the years 1 to 9999.  A `ValueError` is
caught in the source and gives no records.
-/

namespace Sentinel.AuthLog

open Regex Regex.Pattern Calendar PyText

/-! ## Patterns -/

/-- The groups of the patterns. -/
inductive Group where
  | bsd | iso | host | proc | pid | msg | count | inner | method | invalid | user | ip | port
deriving DecidableEq, Repr

abbrev Re := Pattern Group

section Patterns

variable (u : Unicode)

/-- `\d{n}` -/
def digits (n : ℕ) : Re := .rep u.isDigit n (some n) true

/-- `\d{1,n}` -/
def digitsUpTo (n : ℕ) : Re := .rep u.isDigit 1 (some n) true

def space : Re := .chr isSpace

/-- `\S+` -/
def nonSpaces : Re := .rep (fun c => !isSpace c) 1 none true

/-- `.`, everything but a newline. -/
def dot (c : Char) : Bool := c != '\n'

/-- `\d{2}:\d{2}:\d{2}` -/
def clockRe : Re := all [digits u 2, lit ":", digits u 2, lit ":", digits u 2]

def bsdRe : Re :=
  all
    [.chr fun c => decide ('A' ≤ c ∧ c ≤ 'Z'),
      .rep (fun c => decide ('a' ≤ c ∧ c ≤ 'z')) 2 (some 2) true,
      .rep isSpace 1 none true, digitsUpTo u 2, space, clockRe u]

def isoRe : Re :=
  all
    [digits u 4, lit "-", digits u 2, lit "-", digits u 2, lit "T", clockRe u,
      opt (all [lit ".", digitsUpTo u 9]),
      .alt (lit "Z")
        (all [.chr fun c => c == '+' || c == '-', digits u 2, opt (lit ":"), digits u 2])]

/-- `_SYSLOG_RE`. -/
def syslogRe : Re :=
  all
    [.start, .alt (.group .bsd (bsdRe u)) (.group .iso (isoRe u)), space,
      .group .host nonSpaces, space,
      .group .proc (.rep (fun c => u.isWord c || c == '/' || c == '.' || c == '-') 1 none false),
      opt (all [lit "[", .group .pid (digitsUpTo u 10), lit "]"]), lit ":", space,
      .group .msg (.rep dot 0 none true), .finish]

/-- `_REPEAT_RE`. -/
def repeatRe : Re :=
  all
    [.start, lit "message repeated ", .group .count (digitsUpTo u 9), lit " times: [",
      .rep isSpace 0 (some 1) true, .group .inner (.rep dot 0 none true), lit "]", .finish]

/-- `_METHODS`. -/
def methodsRe : Re :=
  .group .method
    (oneOf
      [lit "password", lit "publickey", all [lit "keyboard-interactive", opt (lit "/pam")],
        lit "hostbased"] (lit "gssapi-with-mic"))

/-- `_TAIL`. -/
def tailRe : Re :=
  all
    [lit " from ", .group .ip nonSpaces, lit " port ", .group .port (digitsUpTo u 5),
      opt
        (all [.rep isSpace 1 none true, lit "ssh2", .wordBoundary u.isWord, .rep dot 0 none true]),
      .finish]

def userRe : Re := .group .user (.rep dot 1 none true)

/-- `_FAILED_RE`. -/
def failedRe : Re :=
  all
    [.start, lit "Failed ", methodsRe, lit " for ", opt (.group .invalid (lit "invalid user ")),
      userRe, tailRe u]

/-- `_ACCEPTED_RE`. -/
def acceptedRe : Re := all [.start, lit "Accepted ", methodsRe, lit " for ", userRe, tailRe u]

/-- `_INVALID_RE`. -/
def invalidRe : Re := all [.start, lit "Invalid user ", userRe, tailRe u]

end Patterns

/-! ## Message bodies -/

/-- The groups of a match, by name. -/
abbrev Match := List (Group × List Char)

def Match.get (m : Match) (g : Group) : Option (List Char) := m.lookup g

/-- A group that took part in the match. -/
def Match.text (m : Match) (g : Group) : List Char := (m.get g).getD []

/-- `_Body`. -/
structure Body where
  user : List Char
  ip : List Char
  port : List Char
  action : String
  outcome : String
  severity : ℕ

def actionOk : String := "ssh_login_succeeded"
def actionFail : String := "ssh_login_failed"

/-- `_match_body`. -/
def matchBody (u : Unicode) (msg : List Char) : Option Body :=
  match (failedRe u).matchText msg with
  | some failed =>
      some
        { user := Match.text failed .user, ip := Match.text failed .ip
          port := Match.text failed .port, action := actionFail, outcome := "failure"
          severity := if (Match.get failed .invalid).isSome then 5 else 4 }
  | none =>
      match (acceptedRe u).matchText msg with
      | some accepted =>
          some
            { user := Match.text accepted .user, ip := Match.text accepted .ip
              port := Match.text accepted .port, action := actionOk, outcome := "success"
              severity := 2 }
      | none =>
          ((invalidRe u).matchText msg).map fun invalid =>
            { user := Match.text invalid .user, ip := Match.text invalid .ip
              port := Match.text invalid .port, action := actionFail, outcome := "failure"
              severity := 5 }

/-! ## Timestamps -/

/-- `_MONTHS`. -/
def months : List (String × ℕ) :=
  [("Jan", 1), ("Feb", 2), ("Mar", 3), ("Apr", 4), ("May", 5), ("Jun", 6), ("Jul", 7), ("Aug", 8),
    ("Sep", 9), ("Oct", 10), ("Nov", 11), ("Dec", 12)]

/-- The calendar context of a collector. -/
structure Context where
  unicode : Unicode
  year : Option ℕ := none
  tz : TimeZone := utc
  hostOverride : Option String := none

/-- `local > current + timedelta(days=1)`, both in the same zone. -/
def moreThanADayAhead (localTime current : DateTime) : Bool :=
  decide (current.micros + microsPerDay < localTime.micros)

/-- `datetime(year or current.year, month, int(day), hour, minute, second)`: `none` is a
`ValueError`. -/
def bsdLocal (c : Context) (current : DateTime) (month : ℕ) (day clock : List Char) :
    Option DateTime :=
  match (clock.splitOn ':').map c.unicode.int with
  | [hour, minute, second] =>
      DateTime.new ((c.year.filter (· ≠ 0)).getD current.year) month (c.unicode.int day) hour minute
        second 0
  | _ => none

/-- The year of a local time whose year was inferred: the outer `none` is the `OverflowError` of a
day after the end of year 9999, the inner one a `ValueError`. -/
def inferYear (c : Context) (current localTime : DateTime) : Option (Option DateTime) :=
  if c.year.isSome then some (some localTime)
  else if maxOrdinal * microsPerDay ≤ current.micros + microsPerDay then none
  else if moreThanADayAhead localTime current then some (localTime.replaceYear (current.year - 1))
  else some (some localTime)

/-- `_parse_bsd_timestamp` at the clock reading `now`: the outer `none` is an exception. -/
def parseBsdTimestamp (c : Context) (now : DateTime) (raw : List Char) : Option (Option ℤ) :=
  match splitSpace raw with
  | [monthName, day, clock] =>
      match months.lookup (String.ofList monthName) with
      | none => some none
      | some month =>
          (c.tz.fromUtc now).bind fun current =>
            match bsdLocal c current month day clock with
            | none => some none
            | some localTime =>
                (inferYear c current localTime).bind fun inferred =>
                  match inferred with
                  | none => some none
                  | some localTime => (toUtc localTime (c.tz.utcOffset localTime)).map some
  | _ => none

def asciiInt? (text : List Char) : Option ℕ :=
  if text.all Char.isDigit then some (ascii.int text) else none

/-- The microseconds of a fraction; digits beyond the sixth are dropped. -/
def fractionMicros (text : List Char) : Option ℕ :=
  match text with
  | [] => some 0
  | _ :: fraction =>
      (asciiInt? fraction).map fun _ =>
        ascii.int ((fraction ++ List.replicate 6 '0').take 6)

/-- The offset, in seconds, of `Z`, `+HH:MM` or `+HHMM`. -/
def offsetSeconds (text : List Char) : Option ℤ :=
  match text with
  | ['Z'] => some 0
  | sign :: rest =>
      let rest := rest.filter (· ≠ ':')
      (asciiInt? (rest.take 2)).bind fun hours =>
        (asciiInt? (rest.drop 2)).bind fun minutes =>
          let seconds := hours * 3600 + minutes * 60
          if seconds < 86400 then some (if sign = '-' then -(seconds : ℤ) else seconds) else none
  | [] => none

/-- `datetime.fromisoformat` of a text that matched the RFC 3339 pattern: `none` is a `ValueError`.
Only ASCII digits are accepted. -/
def fromIsoFormat (raw : List Char) : Option (DateTime × ℤ) :=
  let field (start length : ℕ) := asciiInt? ((raw.drop start).take length)
  let suffix := raw.drop 19
  let fraction := suffix.takeWhile fun ch => ch == '.' || ch.isDigit
  let zone := suffix.drop fraction.length
  (field 0 4).bind fun year => (field 5 2).bind fun month => (field 8 2).bind fun day =>
  (field 11 2).bind fun hour => (field 14 2).bind fun minute => (field 17 2).bind fun second =>
  (fractionMicros fraction).bind fun micro => (offsetSeconds zone).bind fun offset =>
  (DateTime.new year month day hour minute second micro).map fun d => (d, offset)

/-- `_parse_iso_timestamp`: the outer `none` is an `OverflowError`. -/
def parseIsoTimestamp (raw : List Char) : Option (Option ℤ) :=
  match fromIsoFormat raw with
  | none => some none
  | some (d, offset) => (toUtc d offset).map some

/-! ## Records -/

def maxLineLen : ℕ := 8192
def maxRepeat : ℕ := 1000
def sshdProcs : List String := ["sshd", "sshd-session"]

/-- `model_copy(update={"occurrence": n})`. -/
def withOccurrence (r : RawAuthEvent) (n : ℕ) : RawAuthEvent :=
  ⟨{ r.toAuthFields with occurrence := n }, ⟨r.valid.host, r.valid.syslogTs, r.valid.pid,
    r.valid.action, r.valid.outcome, r.valid.severity, r.valid.user, r.valid.ip, r.valid.port,
    r.valid.message⟩⟩

/-- The message of a line and how often it stands for it. -/
def unwrapRepeat (u : Unicode) (msg : List Char) : List Char × ℕ :=
  match (repeatRe u).matchText msg with
  | some m => (Match.text m .inner, min (u.int (Match.text m .count)) maxRepeat)
  | none => (msg, 1)

/-- The raw timestamp of a header and its universal time. -/
def headerTimestamp (c : Context) (now : DateTime) (syslog : Match) :
    List Char × Option (Option ℤ) :=
  match Match.get syslog .bsd with
  | some raw => (raw, parseBsdTimestamp c now raw)
  | none => (Match.text syslog .iso, parseIsoTimestamp (Match.text syslog .iso))

/-- The fields of a line's record. -/
def authFields (c : Context) (syslog : Match) (body : Body) (rawTs message : List Char) (t : ℤ) :
    AuthFields :=
  { occurredAt := posix t
    host := (c.hostOverride.filter (· ≠ "")).getD (String.ofList (Match.text syslog .host))
    syslogTs := String.ofList rawTs
    pid := String.ofList (Match.text syslog .pid)
    action := body.action
    outcome := body.outcome
    severity := body.severity
    user := String.ofList body.user
    ip := String.ofList body.ip
    port := c.unicode.int body.port
    message := String.ofList message }

/-- `parse_auth_records` at the clock reading `now`: `none` is an exception. -/
def parseAuthRecords (c : Context) (now : DateTime) (line : List Char) :
    Option (List RawAuthEvent) :=
  if line.length > maxLineLen then some []
  else
    match (syslogRe c.unicode).matchText (line.rdropWhile (· == '\n')) with
    | none => some []
    | some syslog =>
        if String.ofList (Match.text syslog .proc) ∉ sshdProcs then some []
        else
          let (message, count) := unwrapRepeat c.unicode (Match.text syslog .msg)
          match matchBody c.unicode message with
          | none => some []
          | some body =>
              let (rawTs, timestamp) := headerTimestamp c now syslog
              timestamp.map fun timestamp =>
                match timestamp with
                | none => []
                | some t =>
                    match RawAuthEvent.build (authFields c syslog body rawTs message t) with
                    | none => []
                    | some first => (List.range count).map (withOccurrence first)

end Sentinel.AuthLog
