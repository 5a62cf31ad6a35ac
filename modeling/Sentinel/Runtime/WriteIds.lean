import Mathlib.Data.List.Induction
import Mathlib.Data.List.Nodup
import Mathlib.Tactic.IntervalCases
import Mathlib.Tactic.Ring
import Sentinel.Runtime.Persistence

/-!
# Write ids and the tables they protect

Two facts carry exactly-once storage.  `writeId_injective`: one writer never hands out the same
id twice, although its sequence number is rendered as padded hexadecimal text.  `TableSound`: a
table of distinct ids, all of them handed out, stays one under every insert that skips an id
already stored, in whatever order the inserts of first attempts, retries and abandoned calls
arrive.  `writeId_lt` adds that the ids ascend as texts, as long as the sequence number fits its
sixteen digits.
-/

namespace Sentinel.Persistence

/-! ## The rendered sequence number can be read back -/

/-- The value of one hexadecimal digit. -/
def hexValue (c : Char) : ℕ :=
  if c.toNat ≤ 57 then c.toNat - 48 else c.toNat - 87

/-- The number a list of hexadecimal digits spells. -/
def hexNumber (digits : List Char) : ℕ :=
  digits.foldl (fun n c => n * 16 + hexValue c) 0

lemma hexValue_digitChar : ∀ d < 16, hexValue d.digitChar = d := by
  decide

lemma hexNumber_append_singleton (digits : List Char) (c : Char) :
    hexNumber (digits ++ [c]) = hexNumber digits * 16 + hexValue c := by
  simp [hexNumber]

/-- Reading the digits of a number gives the number. -/
lemma hexNumber_toDigits (n : ℕ) : hexNumber (Nat.toDigits 16 n) = n := by
  induction n using Nat.strong_induction_on with
  | _ n ih =>
    by_cases h : n < 16
    · rw [Nat.toDigits_of_lt_base h]
      simp [hexNumber, hexValue_digitChar n h]
    · rw [Nat.toDigits_of_base_le (by norm_num) (by omega), hexNumber_append_singleton,
        ih (n / 16) (by omega), hexValue_digitChar _ (Nat.mod_lt _ (by norm_num))]
      omega

/-- Leading zeros do not change the number. -/
lemma hexNumber_replicate_append (k : ℕ) (digits : List Char) :
    hexNumber (List.replicate k '0' ++ digits) = hexNumber digits := by
  induction k with
  | zero => simp
  | succ k ih =>
      rw [← ih]
      simp only [List.replicate_succ, List.cons_append, hexNumber, List.foldl_cons]
      rfl

lemma hexNumber_hex016 (n : ℕ) : hexNumber (hex016 n).toList = n := by
  simp only [hex016, String.toList_ofList, hexNumber_replicate_append, hexNumber_toDigits]

/-- **One writer's ids are distinct.** -/
theorem writeId_injective (token : String) : Function.Injective (writeId token) := by
  intro m n h
  have hlist : (writeId token m).toList = (writeId token n).toList := congrArg _ h
  simp only [writeId, String.toList_append] at hlist
  rw [← hexNumber_hex016 m, ← hexNumber_hex016 n, List.append_cancel_left hlist]

/-! ## The ids ascend -/

/-- The character is a digit that `Nat.toDigits 16` writes. -/
def IsHexDigit (c : Char) : Prop := ∃ d < 16, c = Nat.digitChar d

lemma digitChar_lt : ∀ d < 16, ∀ e < 16, d < e → Nat.digitChar d < Nat.digitChar e := by
  decide

lemma hexNumber_cons (c : Char) (digits : List Char) :
    hexNumber (c :: digits) = hexValue c * 16 ^ digits.length + hexNumber digits := by
  induction digits using List.reverseRecOn with
  | nil => simp [hexNumber]
  | append_singleton digits d ih =>
      rw [← List.cons_append, hexNumber_append_singleton, ih, hexNumber_append_singleton,
        List.length_append, List.length_singleton, pow_succ]
      ring

lemma hexNumber_lt (digits : List Char) (h : ∀ c ∈ digits, IsHexDigit c) :
    hexNumber digits < 16 ^ digits.length := by
  induction digits with
  | nil => simp [hexNumber]
  | cons c digits ih =>
      rw [List.forall_mem_cons] at h
      obtain ⟨⟨d, hd, rfl⟩, hrest⟩ := h
      have hlt := ih hrest
      have hle : (d + 1) * 16 ^ digits.length ≤ 16 * 16 ^ digits.length :=
        Nat.mul_le_mul_right _ hd
      rw [Nat.add_mul, Nat.one_mul] at hle
      rw [hexNumber_cons, hexValue_digitChar d hd, List.length_cons, pow_succ, Nat.mul_comm _ 16]
      omega

/-- Digit texts of one length compare as their numbers. -/
lemma lt_of_hexNumber_lt : ∀ (l m : List Char), l.length = m.length → (∀ c ∈ l, IsHexDigit c) →
    (∀ c ∈ m, IsHexDigit c) → hexNumber l < hexNumber m → l < m
  | [], [], _, _, _, h => by simp at h
  | [], _ :: _, hlen, _, _, _ => by cases hlen
  | _ :: _, [], hlen, _, _, _ => by cases hlen
  | c :: l, c' :: m, hlen, hl, hm, h => by
      rw [List.forall_mem_cons] at hl hm
      obtain ⟨⟨d, hd, rfl⟩, hl⟩ := hl
      obtain ⟨⟨e, he, rfl⟩, hm⟩ := hm
      rw [List.length_cons, List.length_cons, Nat.add_right_cancel_iff] at hlen
      rw [hexNumber_cons, hexNumber_cons, hlen, hexValue_digitChar d hd, hexValue_digitChar e he]
        at h
      have hlt := hexNumber_lt m hm
      rw [List.cons_lt_cons_iff]
      rcases Nat.lt_trichotomy d e with hde | rfl | hde
      · exact Or.inl (digitChar_lt d hd e he hde)
      · exact Or.inr ⟨rfl, lt_of_hexNumber_lt l m hlen hl hm (by omega)⟩
      · have hle : (e + 1) * 16 ^ m.length ≤ d * 16 ^ m.length := Nat.mul_le_mul_right _ hde
        rw [Nat.add_mul, Nat.one_mul] at hle
        omega

lemma isHexDigit_toDigits (n : ℕ) : ∀ c ∈ Nat.toDigits 16 n, IsHexDigit c := by
  induction n using Nat.strong_induction_on with
  | _ n ih =>
    by_cases h : n < 16
    · rw [Nat.toDigits_of_lt_base h]
      simpa using ⟨n, h, rfl⟩
    · rw [Nat.toDigits_of_base_le (by norm_num) (by omega)]
      intro c hc
      rcases List.mem_append.mp hc with hc | hc
      · exact ih (n / 16) (by omega) c hc
      · exact ⟨n % 16, Nat.mod_lt _ (by norm_num), List.mem_singleton.mp hc⟩

lemma length_toDigits_le (k n : ℕ) (h : n < 16 ^ (k + 1)) :
    (Nat.toDigits 16 n).length ≤ k + 1 := by
  induction k generalizing n with
  | zero =>
      rw [Nat.toDigits_of_lt_base (by simpa using h)]
      simp
  | succ k ih =>
      by_cases hn : n < 16
      · rw [Nat.toDigits_of_lt_base hn]
        simp
      · have hdiv : n / 16 < 16 ^ (k + 1) := by
          rw [Nat.div_lt_iff_lt_mul (by norm_num), ← pow_succ]
          exact h
        rw [Nat.toDigits_of_base_le (by norm_num) (by omega), List.length_append,
          List.length_singleton]
        exact Nat.succ_le_succ (ih (n / 16) hdiv)

/-- A sequence number below `16 ^ 16` is rendered as sixteen digits. -/
lemma hex016_digits {n : ℕ} (h : n < 16 ^ 16) :
    (hex016 n).toList.length = 16 ∧ ∀ c ∈ (hex016 n).toList, IsHexDigit c := by
  have hlen := length_toDigits_le 15 n h
  simp only [hex016, String.toList_ofList, List.length_append, List.length_replicate]
  refine ⟨by omega, ?_⟩
  intro c hc
  rcases List.mem_append.mp hc with hc | hc
  · exact ⟨0, by norm_num, List.eq_of_mem_replicate hc⟩
  · exact isHexDigit_toDigits n c hc

/-- **One writer's ids ascend.** -/
theorem writeId_lt {token : String} {m n : ℕ} (hmn : m < n) (hn : n < 16 ^ 16) :
    writeId token m < writeId token n := by
  obtain ⟨hlen, hdigits⟩ := hex016_digits (hmn.trans hn)
  obtain ⟨hlen', hdigits'⟩ := hex016_digits hn
  have hlt : (hex016 m).toList < (hex016 n).toList := by
    refine lt_of_hexNumber_lt _ _ (hlen.trans hlen'.symm) hdigits hdigits' ?_
    rw [hexNumber_hex016, hexNumber_hex016]
    exact hmn
  rw [String.lt_iff, writeId, writeId, String.toList_append, String.toList_append]
  exact List.append_left_lt hlt

/-! ## Tables -/

section Tables

variable {R : Type}

/-- The table holds only records that were handed out, and no write id twice. -/
structure TableSound (handed : List (Pending R)) (table : Table R) : Prop where
  nodup : (table.map Pending.writeId).Nodup
  handed : ∀ p ∈ table, p ∈ handed

/-- Records handed out under distinct ids are determined by their id. -/
lemma eq_of_writeId_eq {handed : List (Pending R)} (hnodup : (handed.map Pending.writeId).Nodup)
    {p q : Pending R} (hp : p ∈ handed) (hq : q ∈ handed) (h : p.writeId = q.writeId) : p = q :=
  List.inj_on_of_nodup_map hnodup hp hq h

lemma mem_insertOnce_of_mem {table : Table R} {p : Pending R} (row : Pending R) (h : p ∈ table) :
    p ∈ insertOnce table row := by
  unfold insertOnce
  split
  · exact h
  · exact List.mem_append_left _ h

lemma mem_foldl_insertOnce_of_mem (rows : List (Pending R)) :
    ∀ {table : Table R} {p : Pending R}, p ∈ table → p ∈ rows.foldl insertOnce table := by
  induction rows with
  | nil => intro table p h; exact h
  | cons row rows ih => intro table p h; exact ih (mem_insertOnce_of_mem row h)

/-- Inserting a handed-out row keeps the table sound. -/
lemma TableSound.insertOnce {handed : List (Pending R)} {table : Table R} {row : Pending R}
    (h : TableSound handed table) (hrow : row ∈ handed) :
    TableSound handed (insertOnce table row) := by
  unfold Persistence.insertOnce
  split
  · exact h
  · next hfresh =>
    refine ⟨?_, ?_⟩
    · rw [List.map_append, List.map_singleton]
      exact List.nodup_append.mpr
        ⟨h.nodup, List.nodup_singleton _, fun a ha b hb => by
          rw [List.mem_singleton] at hb
          subst hb
          exact fun hab => hfresh (hab ▸ ha)⟩
    · intro p hp
      rcases List.mem_append.mp hp with hp | hp
      · exact h.handed p hp
      · rw [List.mem_singleton] at hp
        exact hp ▸ hrow

/-- A whole transaction keeps the table sound. -/
lemma TableSound.insertAll {handed rows : List (Pending R)} {table : Table R}
    (h : TableSound handed table) (hrows : ∀ p ∈ rows, p ∈ handed) :
    TableSound handed (rows.foldl Persistence.insertOnce table) := by
  induction rows generalizing table with
  | nil => exact h
  | cons row rows ih =>
      rw [List.forall_mem_cons] at hrows
      exact ih (h.insertOnce hrows.1) hrows.2

/-- After its insert a row is in the table, whether the insert stored it or skipped it: a stored
row under the same id is the same record. -/
lemma TableSound.mem_insertOnce {handed : List (Pending R)} {table : Table R} {row : Pending R}
    (h : TableSound handed table) (hnodup : (handed.map Pending.writeId).Nodup)
    (hrow : row ∈ handed) : row ∈ Persistence.insertOnce table row := by
  unfold Persistence.insertOnce
  split
  · next hstored =>
    obtain ⟨q, hq, hid⟩ := List.mem_map.mp hstored
    have : q = row := eq_of_writeId_eq hnodup (h.handed q hq) hrow hid
    exact this ▸ hq
  · exact List.mem_append_right _ (List.mem_singleton_self row)

/-- After a commit every submitted row is stored. -/
lemma TableSound.mem_insertAll {handed rows : List (Pending R)} {table : Table R}
    (h : TableSound handed table) (hnodup : (handed.map Pending.writeId).Nodup)
    (hrows : ∀ p ∈ rows, p ∈ handed) :
    ∀ p ∈ rows, p ∈ rows.foldl Persistence.insertOnce table := by
  induction rows generalizing table with
  | nil => intro p hp; exact absurd hp List.not_mem_nil
  | cons row rows ih =>
      rw [List.forall_mem_cons] at hrows
      intro p hp
      rcases List.mem_cons.mp hp with rfl | hp
      · exact mem_foldl_insertOnce_of_mem rows (h.mem_insertOnce hnodup hrows.1)
      · exact ih (h.insertOnce hrows.1) hrows.2 p hp

/-- Handing out more records does not disturb a table. -/
lemma TableSound.mono {handed handed' : List (Pending R)} {table : Table R}
    (h : TableSound handed table) (hsub : ∀ p ∈ handed, p ∈ handed') :
    TableSound handed' table :=
  ⟨h.nodup, fun p hp => hsub p (h.handed p hp)⟩

end Tables

end Sentinel.Persistence
