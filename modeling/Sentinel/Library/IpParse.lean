import Mathlib.Algebra.Group.Nat.Defs
import Sentinel.Library.PyInt

/-!
# Reading an IP address

How Python's `ipaddress.ip_address` reads a text.  An IPv6 address may carry a zone after a percent
sign, which is any text without another percent sign and without a slash; everything before it is
hexadecimal digits, colons and dots (`chars_of_ipAddress`).

Which addresses are globally reachable is a table that grows with the IANA registries, so it is a
parameter `Registry`; `specialPurpose` is the one of Python 3.13.
-/

namespace IpAddress

/-! ## IPv4 -/

/-- The value of digits. -/
def number (base : ℕ) (text : List Char) : Option ℕ :=
  (text.mapM (PyText.digitValue base)).map fun ds => ds.foldl (fun n d => n * base + d) 0

/-- `_parse_octet`: no leading zeros. -/
def parseOctet (text : List Char) : Option ℕ :=
  if text = [] ∨ 3 < text.length ∨ (text ≠ ['0'] ∧ text.head? = some '0') then none
  else (number 10 text).filter fun n => n ≤ 255

/-- `IPv4Address(text)`. -/
def parseIpv4 (text : List Char) : Option ℕ :=
  let octets := text.splitOn '.'
  if octets.length = 4 then
    (octets.mapM parseOctet).map fun ns => ns.foldl (fun n octet => n * 256 + octet) 0
  else none

/-! ## IPv6 -/

/-- `_parse_hextet`. -/
def parseHextet (text : List Char) : Option ℕ :=
  if text = [] ∨ 4 < text.length then none else number 16 text

/-- An IPv4 address at the end stands for two groups. -/
def expandDotted (parts : List (List Char)) : Option (List (List Char)) :=
  match parts.getLast? with
  | some last =>
      if '.' ∈ last then
        (parseIpv4 last).map fun n =>
          parts.dropLast ++ [Nat.toDigits 16 (n / 65536 % 65536), Nat.toDigits 16 (n % 65536)]
      else some parts
  | none => some parts

/-- Where `::` is: the empty groups, not counting the ends. -/
def skips (parts : List (List Char)) : List ℕ :=
  (List.range parts.length).filter fun i =>
    0 < i ∧ i + 1 < parts.length ∧ parts[i]? = some []

/-- How many groups stand before `::`; an empty one at the start is part of it. -/
def highCount (parts : List (List Char)) (skip : ℕ) : ℕ :=
  if parts.head? = some [] then skip - 1 else skip

/-- How many groups stand after `::`. -/
def lowCount (parts : List (List Char)) (skip : ℕ) : ℕ :=
  if parts.getLast? = some [] then parts.length - skip - 2 else parts.length - skip - 1

/-- The groups around `::`. -/
def parseSkipped (parts : List (List Char)) (skip : ℕ) : Option (List ℕ) :=
  let high := highCount parts skip
  let low := lowCount parts skip
  if parts.head? = some [] ∧ high ≠ 0 ∨ parts.getLast? = some [] ∧ low ≠ 0 ∨ 8 < high + low + 1
  then none
  else
    ((parts.take high).mapM parseHextet).bind fun before =>
      ((parts.drop (parts.length - low)).mapM parseHextet).map fun after =>
        before ++ List.replicate (8 - (high + low)) 0 ++ after

/-- The eight groups. -/
def parseHextets (parts : List (List Char)) : Option (List ℕ) :=
  match skips parts with
  | [] =>
      if parts.length = 8 ∧ parts.head? ≠ some [] ∧ parts.getLast? ≠ some [] then
        parts.mapM parseHextet
      else none
  | [skip] => parseSkipped parts skip
  | _ => none

/-- `IPv6Address._ip_int_from_string`. -/
def parseIpv6 (text : List Char) : Option ℕ :=
  let parts := text.splitOn ':'
  if parts.length < 3 then none
  else
    (expandDotted parts).bind fun parts =>
      if 9 < parts.length then none
      else (parseHextets parts).map fun groups => groups.foldl (fun n group => n * 65536 + group) 0

/-! ## Addresses -/

inductive Address where
  | v4 (value : ℕ)
  | v6 (value : ℕ) (scopeId : Option (List Char))
deriving DecidableEq, Repr

/-- `ip_address(text)`, `none` when it raises `ValueError`. -/
def ipAddress (text : List Char) : Option Address :=
  match parseIpv4 text with
  | some value => some (.v4 value)
  | none =>
      if '/' ∈ text then none
      else
        let address := text.takeWhile fun c => c ≠ '%'
        match text.dropWhile fun c => c ≠ '%' with
        | [] => (parseIpv6 address).map fun value => .v6 value none
        | _ :: scopeId =>
            if scopeId = [] ∨ '%' ∈ scopeId then none
            else (parseIpv6 address).map fun value => .v6 value (some scopeId)

/-- The tables behind `is_global` and `is_multicast`. -/
structure Registry where
  global4 : ℕ → Bool
  multicast4 : ℕ → Bool
  global6 : ℕ → Bool
  multicast6 : ℕ → Bool

/-- The address is in the network with these leading bits. -/
def inNetwork (width value : ℕ) (network : ℕ × ℕ) : Bool :=
  value / 2 ^ (width - network.2) == network.1 / 2 ^ (width - network.2)

/-- The tables of Python 3.13. -/
def specialPurpose : Registry where
  global4 value :=
    let shared := [(0x64400000, 10)]
    let privates := [(0x00000000, 8), (0x0a000000, 8), (0x7f000000, 8), (0xa9fe0000, 16),
      (0xac100000, 12), (0xc0000000, 24), (0xc00000aa, 31), (0xc0000200, 24), (0xc0a80000, 16),
      (0xc6120000, 15), (0xc6336400, 24), (0xcb007100, 24), (0xf0000000, 4), (0xffffffff, 32)]
    let exceptions := [(0xc0000009, 32), (0xc000000a, 32)]
    !shared.any (inNetwork 32 value) &&
      !(privates.any (inNetwork 32 value) && !exceptions.any (inNetwork 32 value))
  multicast4 value := inNetwork 32 value (0xe0000000, 4)
  global6 value :=
    let privates := [(1, 128), (0, 128), (0xffff00000000, 96),
      (0x0064ff9b000100000000000000000000, 48), (0x01000000000000000000000000000000, 64),
      (0x20010000000000000000000000000000, 23), (0x20010db8000000000000000000000000, 32),
      (0x20020000000000000000000000000000, 16), (0x3fff0000000000000000000000000000, 20),
      (0xfc000000000000000000000000000000, 7), (0xfe800000000000000000000000000000, 10)]
    let exceptions := [(0x20010001000000000000000000000001, 128),
      (0x20010001000000000000000000000002, 128), (0x20010003000000000000000000000000, 32),
      (0x20010004011200000000000000000000, 48), (0x20010020000000000000000000000000, 28),
      (0x20010030000000000000000000000000, 28)]
    !(privates.any (inNetwork 128 value) && !exceptions.any (inNetwork 128 value))
  multicast6 value := inNetwork 128 value (0xff000000000000000000000000000000, 8)

/-- The IPv4 address in an IPv4-mapped IPv6 address. -/
def mapped (value : ℕ) : Option ℕ :=
  if value / 2 ^ 32 = 0xffff then some (value % 2 ^ 32) else none

/-- `ipv4_mapped`. -/
def Address.ipv4Mapped : Address → Option Address
  | .v4 _ => none
  | .v6 value _ => (mapped value).map .v4

def Address.isGlobal (registry : Registry) : Address → Bool
  | .v4 value => registry.global4 value
  | .v6 value _ => ((mapped value).map registry.global4).getD (registry.global6 value)

def Address.isMulticast (registry : Registry) : Address → Bool
  | .v4 value => registry.multicast4 value
  | .v6 value _ => ((mapped value).map registry.multicast4).getD (registry.multicast6 value)

/-! ## What is accepted -/

/-- The characters of the text are digits of the base. -/
def Digits (base : ℕ) (text : List Char) : Prop :=
  ∀ c ∈ text, (PyText.digitValue base c).isSome = true

lemma isSome_of_mapM {α β : Type} {f : α → Option β} :
    ∀ {l : List α} {l' : List β}, l.mapM f = some l' → ∀ a ∈ l, (f a).isSome = true
  | [], _, _, _, ha => absurd ha List.not_mem_nil
  | a :: l, l', h, b, hb => by
      rw [List.mapM_cons] at h
      cases hfirst : f a with
      | none =>
          rw [hfirst] at h
          cases h
      | some x =>
          rw [hfirst] at h
          cases hrest : l.mapM f with
          | none =>
              rw [hrest] at h
              cases h
          | some xs =>
              rcases List.mem_cons.mp hb with rfl | hb
              · rw [hfirst]
                rfl
              · exact isSome_of_mapM hrest b hb

/-- A character is the separator or stands in a part. -/
lemma mem_part {sep c : Char} {text : List Char} (hc : c ∈ text) (hsep : c ≠ sep) :
    ∃ part ∈ text.splitOn sep, c ∈ part := by
  induction text with
  | nil => exact absurd hc List.not_mem_nil
  | cons d text ih =>
      rw [List.splitOn_cons_eq_if_modifyHead]
      rcases hparts : text.splitOn sep with _ | ⟨part, parts⟩
      · exact absurd hparts (List.splitOn_ne_nil sep text)
      · rw [hparts] at ih
        rcases List.mem_cons.mp hc with rfl | hc
        · rw [if_neg (by simpa using hsep)]
          exact ⟨c :: part, List.mem_cons_self, List.mem_cons_self⟩
        · rcases ih hc with ⟨part', hpart', hmem⟩
          split_ifs
          · exact ⟨part', List.mem_cons_of_mem _ hpart', hmem⟩
          · rcases List.mem_cons.mp hpart' with rfl | hpart'
            · exact ⟨d :: part', List.mem_cons_self, List.mem_cons_of_mem d hmem⟩
            · exact ⟨part', List.mem_cons_of_mem _ hpart', hmem⟩

lemma digits_of_number {base n : ℕ} {text : List Char} (h : number base text = some n) :
    Digits base text := by
  rcases Option.map_eq_some_iff.mp h with ⟨ds, hds, -⟩
  exact isSome_of_mapM hds

/-- The number that decimal digits stand for. -/
lemma number_eq_ofDigitChars {text : List Char} (h : ∀ c ∈ text, c.isDigit = true) :
    number 10 text = some (Nat.ofDigitChars 10 text 0) := by
  rw [number, PyText.mapM_digitValue fun c hc => by rw [PyText.digitValue_ten (h c hc)]; rfl,
    Option.map_some, List.foldl_map, ← PyText.digitsValue_ten h]
  rfl

lemma number_toDigits (n : ℕ) : number 10 (Nat.toDigits 10 n) = some n := by
  rw [number_eq_ofDigitChars fun c hc =>
    Nat.isDigit_of_mem_toDigits (by decide) (by decide) hc, Nat.ofDigitChars_ten_toDigits]

/-- A digit of a base is one of a greater base. -/
lemma isSome_digitValue_mono {base base' : ℕ} (hle : base ≤ base') {c : Char}
    (h : (PyText.digitValue base c).isSome = true) :
    (PyText.digitValue base' c).isSome = true := by
  dsimp only [PyText.digitValue] at h ⊢
  split_ifs at h ⊢
  all_goals first | rfl | omega

/-- The text of an IPv4 address. -/
lemma chars_of_parseIpv4 {text : List Char} {n : ℕ} (h : parseIpv4 text = some n) :
    ∀ c ∈ text, c = '.' ∨ (PyText.digitValue 10 c).isSome = true := by
  intro c hc
  by_cases hsep : c = '.'
  · exact Or.inl hsep
  · right
    rcases mem_part hc hsep with ⟨part, hpart, hmem⟩
    dsimp only [parseIpv4] at h
    split_ifs at h
    rcases Option.map_eq_some_iff.mp h with ⟨ns, hns, -⟩
    rcases Option.isSome_iff_exists.mp (isSome_of_mapM hns part hpart) with ⟨m, hm⟩
    unfold parseOctet at hm
    split_ifs at hm
    exact digits_of_number (Option.filter_eq_some_iff.mp hm).1 c hmem

lemma digits_of_parseHextet {text : List Char} {n : ℕ} (h : parseHextet text = some n) :
    Digits 16 text := by
  unfold parseHextet at h
  split_ifs at h
  exact digits_of_number h

lemma digits_of_mapM {parts : List (List Char)} {groups : List ℕ}
    (h : parts.mapM parseHextet = some groups) : ∀ part ∈ parts, Digits 16 part := by
  intro part hpart
  rcases Option.isSome_iff_exists.mp (isSome_of_mapM h part hpart) with ⟨n, hn⟩
  exact digits_of_parseHextet hn

lemma digits_nil (base : ℕ) : Digits base [] := fun _ hc => absurd hc List.not_mem_nil

/-- A part before `::` that is not read is the first one, and empty. -/
lemma head_of_lt_skip {parts : List (List Char)} {skip i : ℕ} (hlt : i < skip)
    (hhigh : highCount parts skip ≤ i)
    (hzero : parts.head? = some [] → highCount parts skip = 0) :
    i = 0 ∧ parts.head? = some [] := by
  by_cases hhead : parts.head? = some []
  · have hcount := hzero hhead
    rw [highCount, if_pos hhead] at hcount
    exact ⟨by omega, hhead⟩
  · rw [highCount, if_neg hhead] at hhigh
    exact absurd hlt (Nat.not_lt.mpr hhigh)

/-- A part after `::` that is not read is the last one, and empty. -/
lemma last_of_skip_lt {parts : List (List Char)} {skip i : ℕ} (hlt : skip < i)
    (hlow : i < parts.length - lowCount parts skip)
    (hzero : parts.getLast? = some [] → lowCount parts skip = 0) :
    i = parts.length - 1 ∧ parts.getLast? = some [] := by
  by_cases hlast : parts.getLast? = some []
  · have hcount := hzero hlast
    rw [lowCount, if_pos hlast] at hcount
    exact ⟨by omega, hlast⟩
  · rw [lowCount, if_neg hlast] at hlow
    omega

/-- A part that is neither before `::` nor after it is empty. -/
lemma digits_of_parseSkipped {parts : List (List Char)} {skip : ℕ} {groups : List ℕ}
    (hskip : skip ∈ skips parts) (h : parseSkipped parts skip = some groups) :
    ∀ part ∈ parts, Digits 16 part := by
  rw [skips, List.mem_filter, decide_eq_true_iff] at hskip
  rcases hskip.2 with ⟨hpos, hlt, hempty⟩
  dsimp only [parseSkipped] at h
  split_ifs at h with hends
  rcases Option.bind_eq_some_iff.mp h with ⟨before, hbefore, h⟩
  rcases Option.map_eq_some_iff.mp h with ⟨after, hafter, -⟩
  have hhead : parts.head? = some [] → highCount parts skip = 0 := fun hhead => by
    by_contra hne
    exact hends (Or.inl ⟨hhead, hne⟩)
  have hlast : parts.getLast? = some [] → lowCount parts skip = 0 := fun hlast => by
    by_contra hne
    exact hends (Or.inr (Or.inl ⟨hlast, hne⟩))
  intro part hpart
  rcases List.mem_iff_getElem?.mp hpart with ⟨i, hi⟩
  have hilt : i < parts.length := (List.getElem?_eq_some_iff.mp hi).1
  rcases Nat.lt_or_ge i (highCount parts skip) with hhigh | hhigh
  · exact digits_of_mapM hbefore part (List.mem_iff_getElem?.mpr
      ⟨i, by rw [List.getElem?_take_of_lt hhigh, hi]⟩)
  rcases Nat.lt_or_ge i (parts.length - lowCount parts skip) with hlow | hlow
  · have hnil : some part = some [] := by
      rw [← hi]
      rcases Nat.lt_trichotomy i skip with hlt' | rfl | hlt'
      · rcases head_of_lt_skip hlt' hhigh hhead with ⟨rfl, hfirst⟩
        rw [← List.head?_eq_getElem?, hfirst]
      · exact hempty
      · rcases last_of_skip_lt hlt' hlow hlast with ⟨rfl, hend⟩
        rw [← List.getLast?_eq_getElem?, hend]
    rw [Option.some.inj hnil]
    exact digits_nil 16
  · refine digits_of_mapM hafter part (List.mem_iff_getElem?.mpr
      ⟨i - (parts.length - lowCount parts skip), ?_⟩)
    rw [List.getElem?_drop, Nat.add_sub_cancel' hlow, hi]

/-- The groups of an IPv6 address. -/
lemma digits_of_parseHextets {parts : List (List Char)} {groups : List ℕ}
    (h : parseHextets parts = some groups) : ∀ part ∈ parts, Digits 16 part := by
  unfold parseHextets at h
  split at h
  case h_1 =>
    split_ifs at h
    exact digits_of_mapM h
  case h_2 skip hskips =>
    refine digits_of_parseSkipped ?_ h
    rw [hskips]
    exact List.mem_singleton_self skip
  case h_3 => cases h

/-- A dotted quad stands for digits that it does not have; the parts before it are kept. -/
lemma chars_of_expandDotted {parts parts' : List (List Char)}
    (h : expandDotted parts = some parts') (hdigits : ∀ part ∈ parts', Digits 16 part) :
    ∀ part ∈ parts, ∀ c ∈ part, c = '.' ∨ (PyText.digitValue 16 c).isSome = true := by
  unfold expandDotted at h
  split at h
  case h_1 last hlast =>
    split_ifs at h
    · rcases Option.map_eq_some_iff.mp h with ⟨n, hn, rfl⟩
      rcases List.getLast?_eq_some_iff.mp hlast with ⟨front, rfl⟩
      intro part hpart c hc
      rcases List.mem_append.mp hpart with hpart | hpart
      · refine Or.inr (hdigits part (List.mem_append_left _ ?_) c hc)
        rw [List.dropLast_concat]
        exact hpart
      · rw [List.mem_singleton.mp hpart] at hc
        exact (chars_of_parseIpv4 hn c hc).imp_right (isSome_digitValue_mono (by decide))
    · cases h
      exact fun part hpart c hc => Or.inr (hdigits part hpart c hc)
  case h_2 =>
    cases h
    exact fun part hpart c hc => Or.inr (hdigits part hpart c hc)

/-- The text of an IPv6 address without its zone. -/
lemma chars_of_parseIpv6 {text : List Char} {n : ℕ} (h : parseIpv6 text = some n) :
    ':' ∈ text ∧ ∀ c ∈ text, c = ':' ∨ c = '.' ∨ (PyText.digitValue 16 c).isSome = true := by
  dsimp only [parseIpv6] at h
  split_ifs at h with hparts
  rcases Option.bind_eq_some_iff.mp h with ⟨parts, hexpand, h⟩
  split_ifs at h
  rcases Option.map_eq_some_iff.mp h with ⟨groups, hgroups, -⟩
  constructor
  · by_contra hcolon
    rw [List.splitOn_eq_singleton hcolon] at hparts
    exact hparts (show 1 < 3 by decide)
  · intro c hc
    by_cases hsep : c = ':'
    · exact Or.inl hsep
    · rcases mem_part hc hsep with ⟨part, hpart, hmem⟩
      exact Or.inr (chars_of_expandDotted hexpand (digits_of_parseHextets hgroups) part hpart c
        hmem)

/-- **The text of an address.**  An IPv4 address is digits and dots.  An IPv6 address is digits,
dots and at least one colon, and it may have a zone, which is any text without a slash. -/
lemma chars_of_ipAddress {text : List Char} {address : Address}
    (h : ipAddress text = some address) :
    (∀ c ∈ text, c = '.' ∨ (PyText.digitValue 10 c).isSome = true) ∨
      ':' ∈ text.takeWhile (fun c => c ≠ '%') ∧ '/' ∉ text ∧
        ∀ c ∈ text.takeWhile (fun c => c ≠ '%'),
          c = ':' ∨ c = '.' ∨ (PyText.digitValue 16 c).isSome = true := by
  unfold ipAddress at h
  split at h
  case h_1 value hvalue => exact Or.inl (chars_of_parseIpv4 hvalue)
  case h_2 =>
    right
    split_ifs at h with hslash
    have hvalue : ∃ n, parseIpv6 (text.takeWhile fun c => c ≠ '%') = some n := by
      dsimp only at h
      split at h
      · exact (Option.map_eq_some_iff.mp h).imp fun _ hn => hn.1
      · split_ifs at h
        exact (Option.map_eq_some_iff.mp h).imp fun _ hn => hn.1
    rcases hvalue with ⟨n, hn⟩
    exact ⟨(chars_of_parseIpv6 hn).1, hslash, (chars_of_parseIpv6 hn).2⟩

end IpAddress
