import Mathlib.Data.List.Basic

/-!
# Decoding UTF-8 with replacement

`bytes.decode("utf-8", errors="replace")`, one octet at a time.  A sequence that is under way is
`Pending`; it ends with its last octet, or with an octet that cannot continue it or the end of the
text, and then a replacement character stands for the octets it had.

A character stands for at most four octets, whether the text is well formed or not
(`length_le_decode`).
-/

namespace Utf8

def replacement : Char := Char.ofNat 0xfffd

/-- A sequence of which `seen` octets have been read and `missing` are to come; the next one has to
be between `lo` and `hi`. -/
structure Pending where
  seen : ℕ
  missing : ℕ
  value : ℕ
  lo : ℕ
  hi : ℕ
  missing_pos : 0 < missing
  seen_le : seen + missing ≤ 4

/-- The sequence that an octet begins, if it begins one of several octets. -/
def lead (b : ℕ) : Option Pending :=
  if 0xc2 ≤ b ∧ b ≤ 0xdf then some ⟨1, 1, b - 0xc0, 0x80, 0xbf, by decide, by decide⟩
  else if 0xe0 ≤ b ∧ b ≤ 0xef then
    some ⟨1, 2, b - 0xe0, if b = 0xe0 then 0xa0 else 0x80, if b = 0xed then 0x9f else 0xbf,
      by decide, by decide⟩
  else if 0xf0 ≤ b ∧ b ≤ 0xf4 then
    some ⟨1, 3, b - 0xf0, if b = 0xf0 then 0x90 else 0x80, if b = 0xf4 then 0x8f else 0xbf,
      by decide, by decide⟩
  else none

/-- An octet with no sequence under way: the characters that are complete, and the sequence it
begins. -/
def start (b : ℕ) : List Char × Option Pending :=
  if b < 0x80 then ([Char.ofNat b], none)
  else
    match lead b with
    | some pending => ([], some pending)
    | none => ([replacement], none)

/-- An octet with a sequence under way. -/
def Pending.continue (p : Pending) (b : ℕ) : List Char × Option Pending :=
  if p.lo ≤ b ∧ b ≤ p.hi then
    let value := p.value * 64 + (b - 0x80)
    if h : p.missing = 1 then ([Char.ofNat value], none)
    else
      ([], some ⟨p.seen + 1, p.missing - 1, value, 0x80, 0xbf, by have := p.missing_pos; omega, by
        have := p.seen_le
        have := p.missing_pos
        omega⟩)
  else (replacement :: (start b).1, (start b).2)

def octet : Option Pending → ℕ → List Char × Option Pending
  | none, b => start b
  | some p, b => p.continue b

/-- The characters of a text that goes on after a sequence. -/
def decodeFrom (pending : Option Pending) : List UInt8 → List Char
  | [] => if pending.isSome then [replacement] else []
  | b :: bytes => (octet pending b.toNat).1 ++ decodeFrom (octet pending b.toNat).2 bytes

def decode (bytes : List UInt8) : List Char := decodeFrom none bytes

/-! ## The length of a text -/

/-- The octets of the sequence under way. -/
def seen (pending : Option Pending) : ℕ := pending.elim 0 Pending.seen

lemma seen_le (pending : Option Pending) : seen pending ≤ 3 := by
  cases pending with
  | none => exact Nat.zero_le 3
  | some p =>
      have hle := p.seen_le
      have hpos := p.missing_pos
      show p.seen ≤ 3
      omega

lemma seen_lead {b : ℕ} {p : Pending} (h : lead b = some p) : p.seen = 1 := by
  unfold lead at h
  split_ifs at h <;> rw [← Option.some.inj h]

lemma seen_start (b : ℕ) : 1 + seen none ≤ 4 * (start b).1.length + seen (start b).2 := by
  unfold start
  split_ifs with hascii
  · show 1 + 0 ≤ 4 * 1 + 0
    omega
  · cases hlead : lead b with
    | none => exact (by decide : 1 + 0 ≤ 4 * 1 + 0)
    | some p =>
        have hseen := seen_lead hlead
        show 1 + 0 ≤ 4 * 0 + p.seen
        omega

/-- No octet is lost. -/
lemma seen_octet (pending : Option Pending) (b : ℕ) :
    1 + seen pending ≤ 4 * (octet pending b).1.length + seen (octet pending b).2 := by
  cases pending with
  | none => exact seen_start b
  | some p =>
      have hseen := seen_le (some p)
      show 1 + seen (some p) ≤ 4 * (p.continue b).1.length + seen (p.continue b).2
      unfold Pending.continue
      split_ifs with hrange hlast
      · simp only [List.length_singleton]
        omega
      · show 1 + p.seen ≤ 4 * 0 + (p.seen + 1)
        omega
      · have hstart := seen_start b
        simp only [List.length_cons]
        omega

lemma length_le_decodeFrom (bytes : List UInt8) (pending : Option Pending) :
    bytes.length + seen pending ≤ 4 * (decodeFrom pending bytes).length := by
  induction bytes generalizing pending with
  | nil =>
      have hseen := seen_le pending
      cases pending with
      | none => exact Nat.zero_le _
      | some p =>
          show 0 + seen (some p) ≤ 4 * 1
          omega
  | cons b bytes ih =>
      have hoctet := seen_octet pending b.toNat
      have hrest := ih (octet pending b.toNat).2
      rw [decodeFrom, List.length_append, List.length_cons]
      omega

/-- **A character stands for at most four octets.** -/
theorem length_le_decode (bytes : List UInt8) : bytes.length ≤ 4 * (decode bytes).length :=
  length_le_decodeFrom bytes none

/-! ## Well-formed texts -/

/-- ASCII is decoded as it is. -/
lemma decode_ascii_append {text : List UInt8} (h : ∀ b ∈ text, b.toNat < 0x80)
    (bytes : List UInt8) :
    decode (text ++ bytes) = text.map (fun b => Char.ofNat b.toNat) ++ decode bytes := by
  induction text with
  | nil => rfl
  | cons b text ih =>
      have hb : octet none b.toNat = ([Char.ofNat b.toNat], none) :=
        if_pos (h b List.mem_cons_self)
      have htail := ih fun b' hb' => h b' (List.mem_cons_of_mem _ hb')
      rw [List.cons_append, decode, decodeFrom, hb]
      exact congrArg (Char.ofNat b.toNat :: ·) htail

end Utf8
