import Mathlib.Data.List.Basic
import Sentinel.Library.PyInt

/-!
# The text of an IP address

How Python's `ipaddress` writes an address that is given by its octets, most significant first.  Of
an IPv6 address the longest run of two or more zero groups becomes `::`, the first one if there are
several.  From Python 3.13 on an IPv4-mapped address ends with its dotted quad.

Different addresses have different texts (`dottedQuad_injective`, `ipv6Text_injective`).  What `::`
stands for is the only thing that is not written out, and it is as many zeros as there is room for.
-/

namespace IpAddress

/-- `str(IPv4Address(octets))`. -/
def dottedQuad (octets : List ℕ) : List Char :=
  ['.'].intercalate (octets.map (Nat.toDigits 10))

lemma point_notMem_toDigits (n : ℕ) : '.' ∉ Nat.toDigits 10 n := by
  intro hmem
  exact absurd (Nat.isDigit_of_mem_toDigits (by decide) (by decide) hmem) (by decide)

/-- Different addresses have different texts. -/
lemma dottedQuad_injective {octets octets' : List ℕ} (hne : octets ≠ []) (hne' : octets' ≠ [])
    (h : dottedQuad octets = dottedQuad octets') : octets = octets' := by
  have hsplit : ∀ {ns : List ℕ}, ns ≠ [] →
      (dottedQuad ns).splitOn '.' = ns.map (Nat.toDigits 10) := by
    intro ns hns
    refine List.splitOn_intercalate '.' (fun digits hdigits => ?_) (by simpa using hns)
    rcases List.mem_map.mp hdigits with ⟨n, -, rfl⟩
    exact point_notMem_toDigits n
  have hdigits : octets.map (Nat.toDigits 10) = octets'.map (Nat.toDigits 10) := by
    rw [← hsplit hne, ← hsplit hne', h]
  refine List.map_injective_iff.mpr (fun n n' hn => ?_) hdigits
  rw [← Nat.ofDigitChars_ten_toDigits (n := n), hn, Nat.ofDigitChars_ten_toDigits]

lemma dottedQuad_cons_cons (octet next : ℕ) (octets : List ℕ) :
    dottedQuad (octet :: next :: octets) =
      Nat.toDigits 10 octet ++ '.' :: dottedQuad (next :: octets) := by
  rw [dottedQuad, List.map_cons, List.map_cons, List.intercalate_cons_cons, List.append_assoc]
  rfl

lemma colon_notMem_dottedQuad : ∀ octets : List ℕ, ':' ∉ dottedQuad octets
  | [] => List.not_mem_nil
  | [octet] => by
      intro hmem
      rw [dottedQuad, List.map_cons, List.map_nil, List.intercalate_singleton] at hmem
      exact absurd (Nat.isDigit_of_mem_toDigits (by decide) (by decide) hmem) (by decide)
  | octet :: next :: octets => by
      intro hmem
      rw [dottedQuad_cons_cons] at hmem
      rcases List.mem_append.mp hmem with hmem | hmem
      · exact absurd (Nat.isDigit_of_mem_toDigits (by decide) (by decide) hmem) (by decide)
      · rcases List.mem_cons.mp hmem with hpoint | hmem
        · exact absurd hpoint (by decide)
        · exact colon_notMem_dottedQuad (next :: octets) hmem

/-- The groups of sixteen bits. -/
def hextets : List ℕ → List ℕ
  | hi :: lo :: octets => (hi * 256 + lo) :: hextets octets
  | _ => []

/-- Neighbouring groups: where they start and how many they are. -/
structure Run where
  start : ℕ
  length : ℕ

/-- The loop of `_compress_hextets`: the first of the longest runs of zeros. -/
def longestZeros : List ℕ → ℕ → Run → Run → Run
  | [], _, _, best => best
  | group :: groups, index, current, best =>
      if group = 0 then
        let current : Run :=
          if current.length = 0 then ⟨index, 1⟩ else ⟨current.start, current.length + 1⟩
        longestZeros groups (index + 1) current
          (if best.length < current.length then current else best)
      else longestZeros groups (index + 1) ⟨index, 0⟩ best

/-- `_compress_hextets`. -/
def compress (groups : List ℕ) : List (List Char) :=
  let texts := groups.map (Nat.toDigits 16)
  let best := longestZeros groups 0 ⟨0, 0⟩ ⟨0, 0⟩
  let stop := best.start + best.length
  if best.length ≤ 1 then texts
  else
    (if best.start = 0 then [[]] else []) ++ texts.take best.start ++ [[]] ++ texts.drop stop ++
      (if stop = texts.length then [[]] else [])

/-- `str(IPv6Address(octets))`; `mappedDotted` from Python 3.13 on. -/
def ipv6Text (mappedDotted : Bool) (octets : List ℕ) : List Char :=
  if mappedDotted ∧ octets.take 12 = [0, 0, 0, 0, 0, 0, 0, 0, 0, 0, 255, 255] then
    "::ffff:".toList ++ dottedQuad (octets.drop 12)
  else [':'].intercalate (compress (hextets octets))

/-! ## The groups around `::` -/

/-- The run lies in the groups, and they are zero there. -/
def Run.Zeros (groups : List ℕ) (run : Run) : Prop :=
  ∀ i, run.start ≤ i → i < run.start + run.length → groups[i]? = some 0

/-- The loop finds a run of zeros. -/
lemma zeros_longestZeros {groups : List ℕ} : ∀ {rest : List ℕ} {index : ℕ} {current best : Run},
    groups.drop index = rest → (current.length ≠ 0 → current.start + current.length = index) →
    current.Zeros groups → best.Zeros groups →
      (longestZeros rest index current best).Zeros groups
  | [], _, _, _, _, _, _, hbest => hbest
  | group :: rest, index, current, best, hdrop, hindex, hcurrent, hbest => by
      have hgroup : groups[index]? = some group := by
        rw [← List.head?_drop, hdrop, List.head?_cons]
      have hrest : groups.drop (index + 1) = rest := by
        rw [← List.drop_drop, hdrop, List.drop_one, List.tail_cons]
      rw [longestZeros]
      by_cases hzero : group = 0
      · rw [if_pos hzero]
        dsimp only
        set next : Run :=
          if current.length = 0 then ⟨index, 1⟩ else ⟨current.start, current.length + 1⟩ with hnext
        have hends : next.start + next.length = index + 1 := by
          rw [hnext]
          split_ifs with hempty
          · rfl
          · have := hindex hempty
            dsimp only
            omega
        have hzeros : next.Zeros groups := by
          intro i hlo hhi
          by_cases hlast : i = index
          · rw [hlast, hgroup, hzero]
          · rw [hnext] at hlo
            split_ifs at hlo with hempty
            · dsimp only at hlo
              omega
            · have := hindex hempty
              exact hcurrent i hlo (by omega)
        refine zeros_longestZeros hrest (fun _ => hends) hzeros ?_
        split_ifs
        · exact hzeros
        · exact hbest
      · rw [if_neg hzero]
        refine zeros_longestZeros hrest (fun hne => absurd rfl hne) ?_ hbest
        intro i hlo hhi
        dsimp only at hlo hhi
        omega

/-- The run that `::` stands for. -/
def skipped (groups : List ℕ) : Run := longestZeros groups 0 ⟨0, 0⟩ ⟨0, 0⟩

lemma zeros_skipped (groups : List ℕ) : (skipped groups).Zeros groups := by
  have hempty : Run.Zeros groups ⟨0, 0⟩ := fun i hlo hhi => by
    dsimp only at hlo hhi
    omega
  exact zeros_longestZeros rfl (fun hne => absurd rfl hne) hempty hempty

/-- A run of zeros lies in the groups. -/
lemma Run.Zeros.le_length {groups : List ℕ} {run : Run} (h : run.Zeros groups)
    (hne : run.length ≠ 0) : run.start + run.length ≤ groups.length := by
  have hlast := h (run.start + run.length - 1) (by omega) (by omega)
  have := (List.getElem?_eq_some_iff.mp hlast).1
  omega

/-- The texts before and after an empty one, none of them empty. -/
lemma eq_of_append_nil_cons {A A' R R' : List (List Char)} (hA : ∀ t ∈ A, t ≠ [])
    (hA' : ∀ t ∈ A', t ≠ []) (h : A ++ [] :: R = A' ++ [] :: R') : A = A' := by
  have htake : ∀ {A R : List (List Char)}, (∀ t ∈ A, t ≠ []) →
      (A ++ [] :: R).takeWhile (fun t => decide (t ≠ [])) = A := by
    intro A R hA
    rw [List.takeWhile_append_of_pos fun t ht => decide_eq_true (hA t ht)]
    simp
  rw [← htake hA, h, htake hA']

/-- The same from the other end. -/
lemma eq_of_cons_nil_append {B B' L L' : List (List Char)} (hB : ∀ t ∈ B, t ≠ [])
    (hB' : ∀ t ∈ B', t ≠ []) (h : L ++ [] :: B = L' ++ [] :: B') : B = B' := by
  have hreverse := congrArg List.reverse h
  rw [List.reverse_append, List.reverse_append, List.reverse_cons, List.reverse_cons,
    List.append_assoc, List.append_assoc] at hreverse
  exact List.reverse_injective (eq_of_append_nil_cons (fun t ht => hB t (List.mem_reverse.mp ht))
    (fun t ht => hB' t (List.mem_reverse.mp ht)) hreverse)

lemma texts_ne_nil {groups : List ℕ} : ∀ t ∈ groups.map (Nat.toDigits 16), t ≠ [] := by
  intro t ht
  obtain ⟨n, -, rfl⟩ := List.mem_map.mp ht
  exact Nat.toDigits_ne_nil

/-- Without a run of zeros every group is written out. -/
lemma compress_of_short {groups : List ℕ} (h : (skipped groups).length ≤ 1) :
    compress groups = groups.map (Nat.toDigits 16) := if_pos h

/-- With one, the groups before it are written, then an empty text, and last the groups after
it. -/
lemma compress_eq_of_long {groups : List ℕ} (h : ¬ (skipped groups).length ≤ 1) :
    compress groups =
      (if (skipped groups).start = 0 then [[]] else []) ++
        (groups.take (skipped groups).start).map (Nat.toDigits 16) ++ [[]] ++
        (groups.drop ((skipped groups).start + (skipped groups).length)).map (Nat.toDigits 16) ++
        (if (skipped groups).start + (skipped groups).length = groups.length then [[]]
          else []) := by
  have hlong : compress groups =
      (if (skipped groups).start = 0 then [[]] else []) ++
        (groups.map (Nat.toDigits 16)).take (skipped groups).start ++ [[]] ++
        (groups.map (Nat.toDigits 16)).drop ((skipped groups).start + (skipped groups).length) ++
        (if (skipped groups).start + (skipped groups).length = (groups.map (Nat.toDigits 16)).length
          then [[]] else []) := if_neg h
  rw [hlong, ← List.map_take, ← List.map_drop, List.length_map]

lemma compress_of_long {groups : List ℕ} (h : ¬ (skipped groups).length ≤ 1) :
    (∃ R, compress groups =
      (groups.take (skipped groups).start).map (Nat.toDigits 16) ++ [] :: R) ∧
    ∃ L, compress groups = L ++ [] ::
      (groups.drop ((skipped groups).start + (skipped groups).length)).map (Nat.toDigits 16) := by
  rw [compress_eq_of_long h]
  constructor
  · by_cases hstart : (skipped groups).start = 0
    · rw [if_pos hstart, hstart, List.take_zero, List.map_nil]
      exact ⟨_, rfl⟩
    · rw [if_neg hstart, List.nil_append, List.append_assoc, List.append_assoc]
      exact ⟨_, rfl⟩
  · by_cases hstop : (skipped groups).start + (skipped groups).length = groups.length
    · rw [if_pos hstop, hstop, List.drop_length, List.map_nil, List.append_nil]
      exact ⟨_, rfl⟩
    · rw [if_neg hstop, List.append_nil, List.append_assoc]
      exact ⟨_, rfl⟩

/-- **The groups can be read off what is written of them.** -/
lemma compress_injective {groups groups' : List ℕ} (hlength : groups.length = groups'.length)
    (h : compress groups = compress groups') : groups = groups' := by
  have hmap : Function.Injective (List.map (Nat.toDigits 16)) :=
    List.map_injective_iff.mpr PyText.toDigits_injective
  by_cases hshort : (skipped groups).length ≤ 1
  · by_cases hshort' : (skipped groups').length ≤ 1
    · rw [compress_of_short hshort, compress_of_short hshort'] at h
      exact hmap h
    · obtain ⟨R, hR⟩ := (compress_of_long hshort').1
      rw [compress_of_short hshort, hR] at h
      exact absurd rfl (texts_ne_nil [] (h ▸ List.mem_append_right _ List.mem_cons_self))
  · by_cases hshort' : (skipped groups').length ≤ 1
    · obtain ⟨R, hR⟩ := (compress_of_long hshort).1
      rw [compress_of_short hshort', hR] at h
      exact absurd rfl (texts_ne_nil [] (h ▸ List.mem_append_right _ List.mem_cons_self))
    · obtain ⟨⟨R, hR⟩, L, hL⟩ := compress_of_long hshort
      obtain ⟨⟨R', hR'⟩, L', hL'⟩ := compress_of_long hshort'
      have hle := (zeros_skipped groups).le_length (by omega)
      have hle' := (zeros_skipped groups').le_length (by omega)
      have hbefore := hmap (eq_of_append_nil_cons texts_ne_nil texts_ne_nil
        (hR.symm.trans (h.trans hR')))
      have hafter := hmap (eq_of_cons_nil_append texts_ne_nil texts_ne_nil
        (hL.symm.trans (h.trans hL')))
      have hstart : (skipped groups).start = (skipped groups').start := by
        have := congrArg List.length hbefore
        rw [List.length_take, List.length_take] at this
        omega
      have hstop : (skipped groups).start + (skipped groups).length =
          (skipped groups').start + (skipped groups').length := by
        have := congrArg List.length hafter
        rw [List.length_drop, List.length_drop] at this
        omega
      -- what is not written is zero in both
      refine List.ext_getElem? fun i => ?_
      by_cases hlo : i < (skipped groups).start
      · rw [← List.getElem?_take_of_lt hlo, hbefore, List.getElem?_take_of_lt (by omega)]
      · by_cases hhi : i < (skipped groups).start + (skipped groups).length
        · rw [zeros_skipped groups i (by omega) hhi,
            zeros_skipped groups' i (by omega) (by omega)]
        · obtain ⟨j, rfl⟩ := Nat.exists_eq_add_of_le (Nat.le_of_not_lt hhi)
          rw [← List.getElem?_drop, hafter, List.getElem?_drop, hstop]

/-! ## Different addresses have different texts -/

lemma hextets_injective : ∀ {octets octets' : List ℕ}, octets.length = octets'.length →
    octets.length % 2 = 0 → (∀ octet ∈ octets, octet < 256) → (∀ octet ∈ octets', octet < 256) →
    hextets octets = hextets octets' → octets = octets'
  | [], [], _, _, _, _, _ => rfl
  | [_], _, _, heven, _, _, _ => absurd heven (by simp)
  | [], _ :: _, hlength, _, _, _, _ => absurd hlength (by simp)
  | _ :: _ :: _, [], hlength, _, _, _, _ => absurd hlength (by simp)
  | _ :: _ :: octets, [_], hlength, _, _, _, _ => absurd hlength (by simp)
  | hi :: lo :: octets, hi' :: lo' :: octets', hlength, heven, hlt, hlt', h => by
      rw [List.forall_mem_cons, List.forall_mem_cons] at hlt hlt'
      obtain ⟨-, hlo, hlt⟩ := hlt
      obtain ⟨-, hlo', hlt'⟩ := hlt'
      rw [hextets, hextets, List.cons.injEq] at h
      have hlength : octets.length = octets'.length := by simpa using hlength
      have heven : octets.length % 2 = 0 := by
        rw [List.length_cons, List.length_cons] at heven
        omega
      have hrest := hextets_injective hlength heven hlt hlt' h.2
      have hgroup := h.1
      rw [hrest, show hi = hi' by omega, show lo = lo' by omega]

lemma length_hextets : ∀ octets : List ℕ, (hextets octets).length = octets.length / 2
  | [] => rfl
  | [octet] => by
      show ([] : List ℕ).length = _
      rw [List.length_nil, List.length_singleton]
  | _ :: _ :: octets => by
      rw [hextets, List.length_cons, length_hextets octets, List.length_cons, List.length_cons]
      omega

/-- What stands between the colons. -/
def ipv6Pieces (mappedDotted : Bool) (octets : List ℕ) : List (List Char) :=
  if mappedDotted ∧ octets.take 12 = [0, 0, 0, 0, 0, 0, 0, 0, 0, 0, 255, 255] then
    [[], [], "ffff".toList, dottedQuad (octets.drop 12)]
  else compress (hextets octets)

lemma ipv6Text_eq (mappedDotted : Bool) (octets : List ℕ) :
    ipv6Text mappedDotted octets = [':'].intercalate (ipv6Pieces mappedDotted octets) := by
  unfold ipv6Text ipv6Pieces
  split_ifs
  · simp [List.intercalate, List.intersperse]
  · rfl

/-- Every text of a compressed address is of hexadecimal digits. -/
lemma digit_of_mem_compress {groups : List ℕ} {t : List Char} (ht : t ∈ compress groups) {c : Char}
    (hc : c ∈ t) : (PyText.digitValue 16 c).isSome = true := by
  have hmem : t = [] ∨ t ∈ groups.map (Nat.toDigits 16) := by
    by_cases hshort : (skipped groups).length ≤ 1
    · rw [compress_of_short hshort] at ht
      exact Or.inr ht
    · have hite : ∀ {p : Prop} [Decidable p],
          t ∈ (if p then [[]] else ([] : List (List Char))) → t = [] := by
        intro p _ h
        split_ifs at h
        · exact List.mem_singleton.mp h
        · cases h
      rw [compress_eq_of_long hshort, List.map_take, List.map_drop] at ht
      rcases List.mem_append.mp ht with ht | ht
      · rcases List.mem_append.mp ht with ht | ht
        · rcases List.mem_append.mp ht with ht | ht
          · rcases List.mem_append.mp ht with ht | ht
            · exact Or.inl (hite ht)
            · exact Or.inr (List.mem_of_mem_take ht)
          · exact Or.inl (List.mem_singleton.mp ht)
        · exact Or.inr (List.mem_of_mem_drop ht)
      · exact Or.inl (hite ht)
  rcases hmem with rfl | hmem
  · cases hc
  · obtain ⟨n, -, rfl⟩ := List.mem_map.mp hmem
    exact PyText.digitValue_of_mem_toDigits hc

lemma notMem_of_mem_compress {groups : List ℕ} {t : List Char} (ht : t ∈ compress groups)
    {c : Char} (hc : PyText.digitValue 16 c = none) : c ∉ t := by
  intro hmem
  have hdigit := digit_of_mem_compress ht hmem
  rw [hc] at hdigit
  cases hdigit

lemma compress_ne_nil {groups : List ℕ} (h : groups ≠ []) : compress groups ≠ [] := by
  by_cases hshort : (skipped groups).length ≤ 1
  · rw [compress_of_short hshort]
    exact fun hnil => h (List.map_eq_nil_iff.mp hnil)
  · obtain ⟨R, hR⟩ := (compress_of_long hshort).1
    rw [hR]
    exact List.append_ne_nil_of_right_ne_nil _ (List.cons_ne_nil _ _)

/-- The pieces can be found again in the text. -/
lemma splitOn_ipv6Text (mappedDotted : Bool) {octets : List ℕ} (h : 2 ≤ octets.length) :
    (ipv6Text mappedDotted octets).splitOn ':' = ipv6Pieces mappedDotted octets := by
  have hgroups : hextets octets ≠ [] := by
    intro hnil
    have := length_hextets octets
    rw [hnil, List.length_nil] at this
    omega
  rw [ipv6Text_eq]
  refine List.splitOn_intercalate ':' ?_ ?_
  · intro piece hpiece
    unfold ipv6Pieces at hpiece
    split_ifs at hpiece
    · simp only [List.mem_cons, List.not_mem_nil, or_false] at hpiece
      rcases hpiece with rfl | rfl | rfl | rfl
      · decide
      · decide
      · decide
      · exact colon_notMem_dottedQuad _
    · exact notMem_of_mem_compress hpiece (by decide)
  · unfold ipv6Pieces
    split_ifs
    · exact List.cons_ne_nil _ _
    · exact compress_ne_nil hgroups

/-- **Different addresses have different texts**, all sixteen octets of them. -/
theorem ipv6Text_injective (mappedDotted : Bool) {octets octets' : List ℕ}
    (hlength : octets.length = 16) (hlength' : octets'.length = 16)
    (hlt : ∀ octet ∈ octets, octet < 256) (hlt' : ∀ octet ∈ octets', octet < 256)
    (h : ipv6Text mappedDotted octets = ipv6Text mappedDotted octets') : octets = octets' := by
  have hpieces : ipv6Pieces mappedDotted octets = ipv6Pieces mappedDotted octets' := by
    rw [← splitOn_ipv6Text mappedDotted (by omega), h, splitOn_ipv6Text mappedDotted (by omega)]
  -- a dotted quad is not one of the pieces of a compressed address
  have hquad : ∀ {octets octets' : List ℕ}, octets.length = 16 →
      [[], [], "ffff".toList, dottedQuad (octets.drop 12)] = compress (hextets octets') →
        False := by
    intro octets octets' hlength h
    have hmem : dottedQuad (octets.drop 12) ∈ compress (hextets octets') := by
      rw [← h]
      simp
    refine notMem_of_mem_compress (c := '.') hmem (by decide) ?_
    have hdrop : (octets.drop 12).length = 4 := by rw [List.length_drop, hlength]
    match octets.drop 12, hdrop with
    | octet :: next :: rest, _ =>
        rw [dottedQuad_cons_cons]
        exact List.mem_append_right _ List.mem_cons_self
  unfold ipv6Pieces at hpieces
  split_ifs at hpieces with hmapped hmapped' hmapped'
  · simp only [List.cons.injEq, and_true, true_and] at hpieces
    have hne : ∀ {octets : List ℕ}, octets.length = 16 → octets.drop 12 ≠ [] := by
      intro octets hlength hnil
      have := congrArg List.length hnil
      rw [List.length_drop, hlength] at this
      cases this
    rw [← List.take_append_drop 12 octets, ← List.take_append_drop 12 octets', hmapped.2,
      hmapped'.2, dottedQuad_injective (hne hlength) (hne hlength') hpieces]
  · exact (hquad hlength hpieces).elim
  · exact (hquad hlength' hpieces.symm).elim
  · refine hextets_injective (hlength.trans hlength'.symm) (by rw [hlength]) hlt hlt'
      (compress_injective ?_ hpieces)
    rw [length_hextets, length_hextets, hlength, hlength']

end IpAddress
