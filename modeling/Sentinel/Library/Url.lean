import Sentinel.Library.IpParse

/-!
# URLs

How Python's `urllib.parse` takes a URL apart and puts it together.  The checks of `urlsplit` on the
network location, which are about brackets and about Unicode normal forms, and `str.lower` are
parameters; nothing here depends on what they do.

`target` is where a request for a URL goes.  `target_geturl_iff` says when a URL whose network
location was replaced by an address and a port is one for this address: exactly if the zone of the
address has none of the characters that mean something in a URL.
-/

namespace Url

/-! ## Taking apart -/

/-- `SplitResult`. -/
structure Parts where
  scheme : List Char
  netloc : List Char
  path : List Char
  query : List Char
  fragment : List Char
deriving DecidableEq, Repr

/-- `_WHATWG_C0_CONTROL_OR_SPACE`. -/
def isControlOrSpace (c : Char) : Bool := c.toNat ≤ 32

/-- `_UNSAFE_URL_BYTES_TO_REMOVE`. -/
def isUnsafe (c : Char) : Bool := c == '\t' || c == '\r' || c == '\n'

/-- `text.partition(sep)` without the separator. -/
def partition (sep : Char) (text : List Char) : List Char × List Char :=
  (text.takeWhile fun c => c ≠ sep, (text.dropWhile fun c => c ≠ sep).tail)

/-- The characters of a scheme. -/
def isSchemeChar (c : Char) : Bool := c.isAlphanum || c == '+' || c == '-' || c == '.'

/-- The scheme in lower case, and what follows its colon. -/
def splitScheme (url : List Char) : List Char × List Char :=
  let name := url.takeWhile fun c => c ≠ ':'
  if ':' ∈ url ∧ (name.head?.map Char.isAlpha).getD false = true ∧ name.all isSchemeChar then
    (name.map Char.toLower, (partition ':' url).2)
  else ([], url)

/-- The end of a network location. -/
def isDelimiter (c : Char) : Bool := c == '/' || c == '?' || c == '#'

/-- The network location after `//`, and what follows it. -/
def splitNetloc : List Char → List Char × List Char
  | '/' :: '/' :: url =>
      (url.takeWhile fun c => !isDelimiter c, url.dropWhile fun c => !isDelimiter c)
  | url => ([], url)

/-- `urlsplit(url)` without its checks. -/
def split (url : List Char) : Parts :=
  let url := (url.dropWhile isControlOrSpace).filter fun c => !isUnsafe c
  let (scheme, url) := splitScheme url
  let (netloc, url) := splitNetloc url
  let (url, fragment) := partition '#' url
  let (path, query) := partition '?' url
  ⟨scheme, netloc, path, query, fragment⟩

/-- What is not spelled out of `urllib.parse`: whether a network location passes the checks, and
`str.lower`. -/
structure Urllib where
  accepts : List Char → Bool
  lower : List Char → List Char

/-- `urlsplit(url)`, `none` when it raises `ValueError`. -/
def Urllib.urlsplit (lib : Urllib) (url : List Char) : Option Parts :=
  if lib.accepts (split url).netloc then some (split url) else none

/-! ## The network location -/

/-- `_hostinfo`: the host and the port of a network location, as they are written. -/
def hostinfo (netloc : List Char) : List Char × List Char :=
  let info := netloc.rtakeWhile fun c => c ≠ '@'
  if '[' ∈ info then
    let (host, rest) := partition ']' (partition '[' info).2
    (host, (partition ':' rest).2)
  else partition ':' info

/-- `hostname`: in lower case, but for the zone of an address. -/
def Urllib.hostname (lib : Urllib) (netloc : List Char) : Option (List Char) :=
  let host := (hostinfo netloc).1
  if host = [] then none
  else
    some (lib.lower (host.takeWhile fun c => c ≠ '%') ++ host.dropWhile fun c => c ≠ '%')

/-- A port is a number of ASCII digits, not more than `int` takes, up to 65535. -/
def parsePort (text : List Char) : Option ℕ :=
  if text.length ≤ PyText.intMaxStrDigits then (IpAddress.number 10 text).filter fun n => n ≤ 65535
  else none

/-- `port`: there may be none, and an invalid one is a `ValueError`. -/
def port (netloc : List Char) : Option (Option ℕ) :=
  match (hostinfo netloc).2 with
  | [] => some none
  | text => (parsePort text).map some

/-! ## Putting together -/

/-- What follows the network location. -/
def suffix (parts : Parts) : List Char :=
  (if parts.path ≠ [] ∧ parts.path.head? ≠ some '/' then '/' :: parts.path else parts.path) ++
    (if parts.query = [] then [] else '?' :: parts.query) ++
    (if parts.fragment = [] then [] else '#' :: parts.fragment)

/-- `geturl()` of parts with a scheme and a network location. -/
def geturl (parts : Parts) : List Char :=
  parts.scheme ++ [':', '/', '/'] ++ parts.netloc ++ suffix parts

/-- Where a request goes. -/
structure Target where
  scheme : List Char
  host : List Char
  port : ℕ
deriving DecidableEq, Repr

/-- The target of a request for a URL. -/
def target (defaultPort : ℕ) (url : List Char) : Option Target :=
  (port (split url).netloc).map fun port =>
    ⟨(split url).scheme, (hostinfo (split url).netloc).1, port.getD defaultPort⟩

/-- An address as it stands in a network location. -/
def literal (address : List Char) : List Char :=
  if ':' ∈ address then '[' :: address ++ [']'] else address

/-- An address and a port. -/
def pin (address : List Char) (port : ℕ) : List Char :=
  literal address ++ ':' :: Nat.toDigits 10 port

/-- None of the characters that end an address in a URL, or that are removed from it. -/
def Plain (text : List Char) : Prop :=
  ∀ c ∈ text, c ≠ '@' ∧ c ≠ ']' ∧ isDelimiter c = false ∧ isUnsafe c = false

instance (text : List Char) : Decidable (Plain text) :=
  inferInstanceAs (Decidable (∀ c ∈ text, c ≠ '@' ∧ c ≠ ']' ∧ isDelimiter c = false ∧
    isUnsafe c = false))

/-! ## Reading back -/

variable {parts : Parts} {text rest : List Char}

/-- The text is at its end or at a delimiter. -/
def Stops (text : List Char) : Prop := ∀ c ∈ text.head?, isDelimiter c = true

lemma stops_nil : Stops [] := fun _ hc => absurd hc (Option.not_mem_none _)

lemma stops_cons {c : Char} (hc : isDelimiter c = true) (text : List Char) : Stops (c :: text) := by
  intro d hd
  rw [← Option.some.inj hd]
  exact hc

lemma Stops.append (h : Stops text) (hrest : Stops rest) : Stops (text ++ rest) := by
  cases text with
  | nil => exact hrest
  | cons c text => exact stops_cons (h c rfl) _

/-- A delimiter is not removed. -/
lemma Stops.filter (h : Stops text) : Stops (text.filter fun c => !isUnsafe c) := by
  cases text with
  | nil => exact stops_nil
  | cons c text =>
      have hc := h c rfl
      have hsafe : isUnsafe c = false := by
        simp only [isDelimiter, Bool.or_eq_true, beq_iff_eq] at hc
        rcases hc with (rfl | rfl) | rfl
        · rfl
        · rfl
        · rfl
      rw [List.filter_cons_of_pos (by rw [hsafe]; rfl)]
      exact stops_cons hc _

lemma stops_suffix (parts : Parts) : Stops (suffix parts) := by
  refine Stops.append (Stops.append ?_ ?_) ?_
  · split_ifs with hpath
    · exact stops_cons rfl _
    · intro c hc
      rw [not_and_or, not_not, not_not] at hpath
      rcases hpath with hnil | hslash
      · rw [hnil] at hc
        exact stops_nil c hc
      · rw [hslash] at hc
        rw [← Option.some.inj hc]
        rfl
  · split_ifs
    · exact stops_nil
    · exact stops_cons rfl _
  · split_ifs
    · exact stops_nil
    · exact stops_cons rfl _

/-- What starts with a delimiter is not part of a network location. -/
lemma takeWhile_append_of_stops (hrest : Stops rest) (text : List Char) :
    (text ++ rest).takeWhile (fun c => !isDelimiter c) =
      text.takeWhile fun c => !isDelimiter c := by
  induction text with
  | nil =>
      cases rest with
      | nil => rfl
      | cons c rest =>
          rw [List.nil_append, List.takeWhile_cons_of_neg (by rw [hrest c rfl]; decide),
            List.takeWhile_nil]
  | cons c text ih => rw [List.cons_append, List.takeWhile_cons, List.takeWhile_cons, ih]

/-- The scheme and the network location of a URL that was put together. -/
lemma split_geturl (hscheme : parts.scheme = "https".toList) :
    (split (geturl parts)).scheme = "https".toList ∧
      (split (geturl parts)).netloc =
        (parts.netloc.filter fun c => !isUnsafe c).takeWhile fun c => !isDelimiter c := by
  have hclean : ((geturl parts).dropWhile isControlOrSpace).filter (fun c => !isUnsafe c) =
      "https://".toList ++ ((parts.netloc ++ suffix parts).filter fun c => !isUnsafe c) := by
    rw [geturl, hscheme, List.append_assoc]
    rfl
  have hsplit : ∀ tail, splitScheme ("https://".toList ++ tail) =
      ("https".toList, '/' :: '/' :: tail) := by
    intro tail
    have hname : ("https://".toList ++ tail).takeWhile (fun c => c ≠ ':') = "https".toList := rfl
    have hrest : (partition ':' ("https://".toList ++ tail)).2 = '/' :: '/' :: tail := rfl
    have hcolon : ':' ∈ "https://".toList ++ tail := List.mem_append_left _ (by decide)
    rw [splitScheme, hname, hrest]
    exact if_pos ⟨hcolon, by decide, by decide⟩
  simp only [split, hclean, hsplit, splitNetloc]
  refine ⟨trivial, ?_⟩
  rw [List.filter_append]
  exact takeWhile_append_of_stops (stops_suffix parts).filter _

/-! ## The address in it -/

lemma partition_append {sep : Char} (h : sep ∉ text) (rest : List Char) :
    partition sep (text ++ sep :: rest) = (text, rest) := by
  have hkeep : ∀ c ∈ text, decide (c ≠ sep) = true := fun c hc =>
    decide_eq_true fun heq => h (heq ▸ hc)
  rw [partition, List.takeWhile_append_of_pos hkeep, List.dropWhile_append_of_pos hkeep,
    List.takeWhile_cons_of_neg (by simp), List.dropWhile_cons_of_neg (by simp), List.append_nil]
  rfl

lemma rtakeWhile_append_at (before : List Char) (h : '@' ∉ text) :
    (before ++ '@' :: text).rtakeWhile (fun c => c ≠ '@') = text := by
  have hkeep : ∀ c ∈ text.reverse, decide (c ≠ '@') = true := fun c hc =>
    decide_eq_true fun heq => h (heq ▸ List.mem_reverse.mp hc)
  rw [List.rtakeWhile, List.reverse_append, List.reverse_cons, List.append_assoc,
    List.takeWhile_append_of_pos hkeep, List.singleton_append, List.takeWhile_cons_of_neg (by simp),
    List.append_nil, List.reverse_reverse]

lemma rtakeWhile_of_notMem (h : '@' ∉ text) : text.rtakeWhile (fun c => c ≠ '@') = text :=
  List.rtakeWhile_eq_self_iff.mpr fun _ hc => decide_eq_true fun heq => h (heq ▸ hc)

/-- The decimal digits of a number mean nothing else in a URL. -/
lemma digit_of_mem {n : ℕ} {c : Char} (hc : c ∈ Nat.toDigits 10 n) : c.isDigit = true :=
  Nat.isDigit_of_mem_toDigits (by decide) (by decide) hc

lemma plain_of_isDigit {c : Char} (hc : c.isDigit = true) :
    (c ≠ '@' ∧ c ≠ '[' ∧ c ≠ ':' ∧ c ≠ ']') ∧ isDelimiter c = false ∧ isUnsafe c = false := by
  have hne : ∀ d : Char, d.isDigit = false → c ≠ d := fun d hd heq => by
    rw [heq, hd] at hc
    cases hc
  refine ⟨⟨hne '@' rfl, hne '[' rfl, hne ':' rfl, hne ']' rfl⟩, ?_, ?_⟩
  · simp [isDelimiter, hne '/' rfl, hne '?' rfl, hne '#' rfl]
  · simp [isUnsafe, hne '\t' rfl, hne '\r' rfl, hne '\n' rfl]

/-- A host with a colon was in brackets. -/
lemma host_of_colon {netloc : List Char} (h : ':' ∈ (hostinfo netloc).1) :
    '[' ∈ netloc.rtakeWhile (fun c => c ≠ '@') ∧
      (hostinfo netloc).1 =
        (partition ']' (partition '[' (netloc.rtakeWhile fun c => c ≠ '@')).2).1 := by
  dsimp only [hostinfo] at h ⊢
  split_ifs at h ⊢ with hbracket
  · exact ⟨hbracket, rfl⟩
  · exact absurd (List.mem_takeWhile_imp h) (by simp)

/-- The texts that `ipaddress` accepts, as far as a URL is concerned. -/
def IsAddress (text : List Char) : Prop :=
  (∀ c ∈ text, c = '.' ∨ c.isDigit = true) ∨ ':' ∈ text

/-- The zone of an address, with its percent sign. -/
def zone (address : List Char) : List Char := address.dropWhile fun c => c ≠ '%'

lemma plain_of_digitValue {c : Char} (h : (PyText.digitValue 16 c).isSome = true) :
    c ≠ '@' ∧ c ≠ ']' ∧ isDelimiter c = false ∧ isUnsafe c = false := by
  have hne : ∀ d : Char, PyText.digitValue 16 d = none → c ≠ d := fun d hd heq => by
    rw [heq, hd] at h
    cases h
  refine ⟨hne '@' rfl, hne ']' rfl, ?_, ?_⟩
  · simp [isDelimiter, hne '/' rfl, hne '?' rfl, hne '#' rfl]
  · simp [isUnsafe, hne '\t' rfl, hne '\r' rfl, hne '\n' rfl]

/-- Only the zone can have special characters. -/
lemma plain_iff_zone {address : List Char} {ip : IpAddress.Address}
    (h : IpAddress.ipAddress address = some ip) : Plain address ↔ Plain (zone address) := by
  constructor
  · exact fun hplain c hc => hplain c ((List.dropWhile_sublist _).subset hc)
  · intro hzone c hc
    rcases IpAddress.chars_of_ipAddress h with hdigits | ⟨-, -, hchars⟩
    · rcases hdigits c hc with rfl | hdigit
      · exact ⟨by decide, by decide, rfl, rfl⟩
      · exact plain_of_digitValue (IpAddress.isSome_digitValue_mono (by decide) hdigit)
    · rw [← List.takeWhile_append_dropWhile (l := address) (p := fun c => c ≠ '%'),
        List.mem_append] at hc
      rcases hc with hc | hc
      · rcases hchars c hc with rfl | rfl | hdigit
        · exact ⟨by decide, by decide, rfl, rfl⟩
        · exact ⟨by decide, by decide, rfl, rfl⟩
        · exact plain_of_digitValue hdigit
      · exact hzone c hc

lemma isDigit_of_digitValue {c : Char} (h : (PyText.digitValue 10 c).isSome = true) :
    c.isDigit = true := by
  rw [Char.isDigit_iff_toNat]
  show 48 ≤ c.toNat ∧ c.toNat ≤ 57
  dsimp only [PyText.digitValue] at h
  split_ifs at h
  all_goals first | assumption | omega | cases h

lemma isAddress_of_ipAddress {address : List Char} {ip : IpAddress.Address}
    (h : IpAddress.ipAddress address = some ip) : IsAddress address := by
  rcases IpAddress.chars_of_ipAddress h with hdigits | ⟨hcolon, -, -⟩
  · exact Or.inl fun c hc => (hdigits c hc).imp_right isDigit_of_digitValue
  · exact Or.inr ((List.takeWhile_sublist _).subset hcolon)

/-- The network location of an address and a port, as it is found again. -/
def reread (address : List Char) (port : ℕ) : List Char :=
  ((pin address port).filter fun c => !isUnsafe c).takeWhile fun c => !isDelimiter c

variable {address : List Char} {n : ℕ}

lemma filter_pin (hcolon : ':' ∈ address) :
    (pin address n).filter (fun c => !isUnsafe c) =
      '[' :: (address.filter (fun c => !isUnsafe c) ++ ']' :: ':' :: Nat.toDigits 10 n) := by
  have hdigits : (Nat.toDigits 10 n).filter (fun c => !isUnsafe c) = Nat.toDigits 10 n :=
    List.filter_eq_self.mpr fun _ hc => by rw [(plain_of_isDigit (digit_of_mem hc)).2.2]; rfl
  rw [pin, literal, if_pos hcolon, List.cons_append, List.cons_append, List.append_assoc,
    List.filter_cons_of_pos rfl, List.filter_append, List.singleton_append,
    List.filter_cons_of_pos rfl, List.filter_cons_of_pos rfl, hdigits]

/-- An address without special characters is found again. -/
lemma hostinfo_reread_of_plain (haddress : IsAddress address) (hplain : Plain address) :
    hostinfo (reread address n) = (address, Nat.toDigits 10 n) := by
  have hsafe : ∀ c ∈ pin address n, c ≠ '@' ∧ isDelimiter c = false ∧ isUnsafe c = false := by
    intro c hc
    have hmem : c ∈ address ∨ c = '[' ∨ c = ']' ∨ c = ':' ∨ c ∈ Nat.toDigits 10 n := by
      unfold pin literal at hc
      split_ifs at hc
      · simpa [or_assoc, or_left_comm] using hc
      · rcases List.mem_append.mp hc with hc | hc
        · exact Or.inl hc
        · exact Or.inr (Or.inr (Or.inr (List.mem_cons.mp hc)))
    rcases hmem with hc | rfl | rfl | rfl | hc
    · exact ⟨(hplain c hc).1, (hplain c hc).2.2⟩
    · exact ⟨by decide, rfl, rfl⟩
    · exact ⟨by decide, rfl, rfl⟩
    · exact ⟨by decide, rfl, rfl⟩
    · exact ⟨(plain_of_isDigit (digit_of_mem hc)).1.1, (plain_of_isDigit (digit_of_mem hc)).2⟩
  have hsame : reread address n = pin address n := by
    rw [reread, List.filter_eq_self.mpr fun c hc => by rw [(hsafe c hc).2.2]; rfl]
    exact List.takeWhile_eq_self_iff.mpr fun c hc => by rw [(hsafe c hc).2.1]; rfl
  have hinfo : (pin address n).rtakeWhile (fun c => c ≠ '@') = pin address n :=
    rtakeWhile_of_notMem fun hmem => (hsafe '@' hmem).1 rfl
  rw [hsame]
  dsimp only [hostinfo]
  rw [hinfo, pin, literal]
  by_cases hcolon : ':' ∈ address
  · have hclose : ']' ∉ address := fun hmem => (hplain ']' hmem).2.1 rfl
    have hopen : partition '[' ('[' :: (address ++ ']' :: ':' :: Nat.toDigits 10 n)) =
        ([], address ++ ']' :: ':' :: Nat.toDigits 10 n) :=
      partition_append List.not_mem_nil _
    have hport : partition ':' (':' :: Nat.toDigits 10 n) = ([], Nat.toDigits 10 n) :=
      partition_append List.not_mem_nil _
    rw [if_pos hcolon, List.cons_append, List.cons_append, List.append_assoc,
      List.singleton_append, if_pos List.mem_cons_self, hopen, partition_append hclose, hport]
  · rcases haddress with hdigits | hmem
    · have hopen : '[' ∉ address ++ ':' :: Nat.toDigits 10 n := by
        intro hmem
        rcases List.mem_append.mp hmem with hmem | hmem
        · rcases hdigits '[' hmem with h | h
          · exact absurd h (by decide)
          · exact absurd h (by decide)
        · rcases List.mem_cons.mp hmem with h | h
          · exact absurd h (by decide)
          · exact (plain_of_isDigit (digit_of_mem h)).1.2.1 rfl
      rw [if_neg hcolon, if_neg hopen, partition_append hcolon]
    · exact absurd hmem hcolon

/-- A host in brackets is shorter than the network location. -/
lemma length_host_lt {netloc : List Char} (h : ':' ∈ (hostinfo netloc).1) :
    (hostinfo netloc).1.length < netloc.length := by
  rcases host_of_colon h with ⟨hopen, hhost⟩
  have hinfo : (netloc.rtakeWhile fun c => c ≠ '@').length ≤ netloc.length :=
    (List.rtakeWhile_suffix _ _).length_le
  generalize netloc.rtakeWhile (fun c => c ≠ '@') = info at hopen hhost hinfo
  rcases List.eq_append_cons_of_mem hopen with ⟨before, after, rfl, hbefore⟩
  rw [partition_append hbefore, partition] at hhost
  have hle := (List.takeWhile_sublist (l := after) fun c => c ≠ ']').length_le
  rw [hhost]
  simp only [List.length_append, List.length_cons] at hinfo
  simp only at hle ⊢
  omega

/-- A text stops before its first delimiter. -/
lemma length_takeWhile_lt {c : Char} (hc : c ∈ text) (hdelimiter : isDelimiter c = true)
    (rest : List Char) :
    ((text ++ rest).takeWhile fun c => !isDelimiter c).length < text.length := by
  induction text with
  | nil => exact absurd hc List.not_mem_nil
  | cons d text ih =>
      rw [List.cons_append, List.takeWhile_cons]
      cases hd : isDelimiter d with
      | true => exact Nat.succ_pos _
      | false =>
          rcases List.mem_cons.mp hc with rfl | hc
          · rw [hdelimiter] at hd
            cases hd
          · exact Nat.succ_lt_succ (ih hc)

/-- An address that is found again has no delimiter. -/
lemma isDelimiter_of_host_reread (hcolon : ':' ∈ address)
    (h : (hostinfo (reread address n)).1 = address) :
    ∀ c ∈ address.filter fun c => !isUnsafe c, isDelimiter c = false := by
  intro c hc
  have hshort := length_host_lt (h.symm ▸ hcolon : ':' ∈ (hostinfo (reread address n)).1)
  rw [h, reread, filter_pin hcolon, List.takeWhile_cons_of_pos rfl, List.length_cons] at hshort
  by_contra hdelimiter
  have hlt := length_takeWhile_lt hc (Bool.not_eq_false _ ▸ hdelimiter)
    (']' :: ':' :: Nat.toDigits 10 n)
  have hle := List.length_filter_le (fun c => !isUnsafe c) address
  omega

lemma reread_eq (hcolon : ':' ∈ address)
    (h : ∀ c ∈ address.filter fun c => !isUnsafe c, isDelimiter c = false) :
    reread address n =
      '[' :: (address.filter (fun c => !isUnsafe c) ++ ']' :: ':' :: Nat.toDigits 10 n) := by
  rw [reread, filter_pin hcolon]
  refine List.takeWhile_eq_self_iff.mpr fun c hc => ?_
  rcases List.mem_cons.mp hc with rfl | hc
  · rfl
  rcases List.mem_append.mp hc with hc | hc
  · rw [h c hc]
    rfl
  rcases List.mem_cons.mp hc with rfl | hc
  · rfl
  rcases List.mem_cons.mp hc with rfl | hc
  · rfl
  · rw [(plain_of_isDigit (digit_of_mem hc)).2.1]
    rfl

/-- The host of what stands in brackets. -/
lemma host_bracketed {before inner after : List Char} (hopen : '[' ∉ before)
    (hclose : ']' ∉ inner) :
    (partition ']' (partition '[' (before ++ '[' :: (inner ++ ']' :: after))).2).1 = inner := by
  rw [partition_append hopen, partition_append hclose]

/-- What follows the last `@` is shorter, also after the next opening bracket. -/
lemma at_notMem_of_host_reread (hcolon : ':' ∈ address) (hclose : ']' ∉ address)
    (h : (hostinfo (reread address n)).1 = address) :
    '@' ∉ address.filter fun c => !isUnsafe c := by
  intro hat
  have hhost := host_of_colon (h.symm ▸ hcolon : ':' ∈ (hostinfo (reread address n)).1)
  rw [h, reread_eq hcolon (isDelimiter_of_host_reread hcolon h)] at hhost
  have hle := List.length_filter_le (fun c => !isUnsafe c) address
  have hclose' : ']' ∉ address.filter fun c => !isUnsafe c :=
    fun hmem => hclose (List.mem_of_mem_filter hmem)
  generalize address.filter (fun c => !isUnsafe c) = clean at hat hhost hle hclose'
  rcases List.eq_append_cons_of_mem (List.mem_reverse.mpr hat) with ⟨after, before, heq, hafter⟩
  rw [List.reverse_eq_iff, List.reverse_append, List.reverse_cons, List.append_assoc,
    List.singleton_append] at heq
  have hrest : '@' ∉ after.reverse ++ ']' :: ':' :: Nat.toDigits 10 n := by
    intro hmem
    rcases List.mem_append.mp hmem with hmem | hmem
    · exact hafter (List.mem_reverse.mp hmem)
    rcases List.mem_cons.mp hmem with hmem | hmem
    · exact absurd hmem (by decide)
    rcases List.mem_cons.mp hmem with hmem | hmem
    · exact absurd hmem (by decide)
    · exact (plain_of_isDigit (digit_of_mem hmem)).1.1 rfl
  rw [heq, List.append_assoc, List.cons_append, ← List.cons_append,
    rtakeWhile_append_at _ hrest] at hhost
  have hopen : '[' ∈ after.reverse := by
    rcases List.mem_append.mp hhost.1 with hmem | hmem
    · exact hmem
    rcases List.mem_cons.mp hmem with hmem | hmem
    · exact absurd hmem (by decide)
    rcases List.mem_cons.mp hmem with hmem | hmem
    · exact absurd hmem (by decide)
    · exact absurd rfl (plain_of_isDigit (digit_of_mem hmem)).1.2.1
  rcases List.eq_append_cons_of_mem hopen with ⟨front, inner, hinner, hfront⟩
  have hclose'' : ']' ∉ inner := by
    intro hmem
    refine hclose' ?_
    rw [heq, hinner]
    simp [hmem]
  rw [hinner, List.append_assoc, List.cons_append, host_bracketed hfront hclose''] at hhost
  have hlength := congrArg List.length heq
  rw [hinner] at hlength
  simp only [List.length_append, List.length_cons] at hlength
  rw [hhost.2] at hle
  omega

/-- An address that is found again has no special characters. -/
lemma plain_of_host_reread (hcolon : ':' ∈ address)
    (h : (hostinfo (reread address n)).1 = address) : Plain address := by
  have hhost := host_of_colon (h.symm ▸ hcolon : ':' ∈ (hostinfo (reread address n)).1)
  have hclose : ']' ∉ address := by
    intro hmem
    rw [← h, hhost.2] at hmem
    exact absurd (List.mem_takeWhile_imp hmem) (by simp)
  have hdelimiter := isDelimiter_of_host_reread hcolon h
  have hat := at_notMem_of_host_reread hcolon hclose h
  have hinfo : (reread address n).rtakeWhile (fun c => c ≠ '@') = reread address n := by
    refine rtakeWhile_of_notMem fun hmem => ?_
    rw [reread_eq hcolon hdelimiter] at hmem
    simp only [List.mem_cons, List.mem_append] at hmem
    rcases hmem with hmem | hmem | hmem | hmem | hmem
    · exact absurd hmem (by decide)
    · exact hat hmem
    · exact absurd hmem (by decide)
    · exact absurd hmem (by decide)
    · exact (plain_of_isDigit (digit_of_mem hmem)).1.1 rfl
  have hsame : address.filter (fun c => !isUnsafe c) = address := by
    rw [hinfo, h, reread_eq hcolon hdelimiter, ← List.nil_append ('[' :: _),
      host_bracketed List.not_mem_nil fun hmem => hclose (List.mem_of_mem_filter hmem)] at hhost
    exact hhost.2.symm
  rw [hsame] at hat hdelimiter
  rw [List.filter_eq_self] at hsame
  intro c hc
  refine ⟨fun heq => hat (heq ▸ hc), fun heq => hclose (heq ▸ hc), hdelimiter c hc, ?_⟩
  rw [← Bool.not_eq_true']
  exact hsame c hc

/-- **A URL with an address in it.**  It is a URL for this address exactly if the address has none
of the characters that mean something else. -/
lemma target_geturl_iff (hscheme : parts.scheme = "https".toList)
    (hnetloc : parts.netloc = pin address n) (haddress : IsAddress address) (hport : n ≤ 65535)
    (defaultPort : ℕ) :
    target defaultPort (geturl parts) = some ⟨"https".toList, address, n⟩ ↔ Plain address := by
  have hsplit := split_geturl hscheme
  rw [hnetloc] at hsplit
  have hreread : (split (geturl parts)).netloc = reread address n := hsplit.2
  constructor
  · intro h
    rw [target, hreread] at h
    rcases Option.map_eq_some_iff.mp h with ⟨port, -, htarget⟩
    have hhost : (hostinfo (reread address n)).1 = address := congrArg Target.host htarget
    rcases haddress with hdigits | hcolon
    · intro c hc
      rcases hdigits c hc with rfl | hdigit
      · exact ⟨by decide, by decide, rfl, rfl⟩
      · have hplain := plain_of_isDigit hdigit
        exact ⟨hplain.1.1, hplain.1.2.2.2, hplain.2⟩
    · exact plain_of_host_reread hcolon hhost
  · intro hplain
    have hinfo := hostinfo_reread_of_plain (n := n) haddress hplain
    have hnumber : parsePort (Nat.toDigits 10 n) = some n := by
      have hlength : (Nat.toDigits 10 n).length ≤ PyText.intMaxStrDigits := by
        refine ((Nat.length_toDigits_le_iff (by decide) (by decide)).mpr ?_).trans
          (show 5 ≤ PyText.intMaxStrDigits by decide)
        exact Nat.lt_of_le_of_lt hport (by decide)
      rw [parsePort, if_pos hlength, IpAddress.number_toDigits]
      exact Option.filter_eq_some_iff.mpr ⟨rfl, decide_eq_true hport⟩
    have hread : port (reread address n) = some (some n) := by
      rw [port, hinfo]
      cases hdigits : Nat.toDigits 10 n with
      | nil => exact absurd hdigits (Nat.toDigits_ne_nil)
      | cons c digits =>
          rw [hdigits] at hnumber
          simp only [hnumber, Option.map_some]
    rw [target, hreread, hread, hinfo, hsplit.1]
    rfl

end Url
