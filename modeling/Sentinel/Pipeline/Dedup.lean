import Mathlib.Algebra.Order.Ring.Rat
import Mathlib.Tactic.Linarith
import Sentinel.Library.Expiry

/-!
# The dedup window

`pipeline.dedup.DedupWindow`, a TTL- and size-bounded set of event ids, and what it computes.

The window keeps only ids and expiries.  `Tracks` relates it to the whole list of *admissions*, the
calls of `seen` that returned `False`: the entries are the last `max_entries` admissions, without
those that have expired.  `Tracks.seen` is the specification of one call, and
`DedupWindow.seen_iff` reads the answer off the admissions.

Clock readings are exact numbers.
-/

namespace Sentinel

/-- `DedupWindow`: `entries` is the `dict` from id to expiry in insertion order. -/
structure DedupWindow where
  ttl : ℚ
  maxEntries : ℕ
  ttl_pos : 0 < ttl
  maxEntries_pos : 1 ≤ maxEntries
  entries : List (String × ℚ) := []
  hits : ℕ := 0
  misses : ℕ := 0
  evictionsTtl : ℕ := 0
  evictionsCap : ℕ := 0

namespace DedupWindow

/-- `_evict_expired`: walk from the oldest entry and stop at the first live one. -/
def evictExpired (w : DedupWindow) (now : ℚ) : DedupWindow :=
  { w with
    entries := w.entries.dropWhile fun entry => decide (entry.2 ≤ now)
    evictionsTtl := w.evictionsTtl
      + (w.entries.takeWhile fun entry => decide (entry.2 ≤ now)).length }

/-- `_evict_to_cap`: drop the oldest entry. -/
def evictToCap (w : DedupWindow) : DedupWindow :=
  { w with entries := w.entries.tail, evictionsCap := w.evictionsCap + 1 }

/-- `seen` at clock reading `now`: `true` for a duplicate, else the key is recorded. -/
def seen (w : DedupWindow) (key : String) (now : ℚ) : Bool × DedupWindow :=
  let w := w.evictExpired now
  if key ∈ w.entries.map Prod.fst then (true, { w with hits := w.hits + 1 })
  else
    let w := if w.entries.length ≥ w.maxEntries then w.evictToCap else w
    (false, { w with entries := w.entries ++ [(key, now + w.ttl)], misses := w.misses + 1 })

/-! ## Admissions -/

/-- A key admitted by the window, and when. -/
structure Admission where
  time : ℚ
  key : String
deriving DecidableEq

def Admission.entry (ttl : ℚ) (a : Admission) : String × ℚ := (a.key, a.time + ttl)

/-- The admissions still in the window: among the last `maxEntries`, and not expired. -/
def live (w : DedupWindow) (admitted : List Admission) (now : ℚ) : List Admission :=
  (admitted.rtake w.maxEntries).filter fun a => decide (now < a.time + w.ttl)

/-- `w` is the window after the calls that admitted `admitted`, the last clock reading of any
call being `clock`. -/
structure Tracks (w : DedupWindow) (admitted : List Admission) (clock : ℚ) : Prop where
  sorted : admitted.Pairwise fun a b => a.time ≤ b.time
  past : ∀ a ∈ admitted, a.time ≤ clock
  entries : w.entries = (w.live admitted clock).map (Admission.entry w.ttl)

lemma tracks_empty {w : DedupWindow} (h : w.entries = []) (clock : ℚ) : Tracks w [] clock := by
  refine ⟨List.Pairwise.nil, by simp, ?_⟩
  simp [h, live, List.rtake]

@[simp] lemma seen_ttl (w : DedupWindow) (key : String) (now : ℚ) :
    (w.seen key now).2.ttl = w.ttl := by
  unfold seen
  simp only
  split_ifs <;> rfl

@[simp] lemma seen_maxEntries (w : DedupWindow) (key : String) (now : ℚ) :
    (w.seen key now).2.maxEntries = w.maxEntries := by
  unfold seen
  simp only
  split_ifs <;> rfl

/-- The live admissions depend on the settings only, not on what the window holds. -/
lemma live_congr {w v : DedupWindow} (httl : v.ttl = w.ttl) (hmax : v.maxEntries = w.maxEntries)
    (admitted : List Admission) (now : ℚ) : v.live admitted now = w.live admitted now := by
  simp only [live, httl, hmax]

/-- Evicting what has expired at `now` leaves the admissions live at `now`. -/
lemma Tracks.evictExpired {w : DedupWindow} {admitted : List Admission} {clock now : ℚ}
    (h : Tracks w admitted clock) (hnow : clock ≤ now) :
    Tracks (w.evictExpired now) admitted now := by
  refine ⟨h.sorted, fun a ha => le_trans (h.past a ha) hnow, ?_⟩
  have hsorted : (w.live admitted clock).Pairwise fun a b => a.time ≤ b.time :=
    (h.sorted.sublist (Expiry.rtake_sublist _ _)).filter _
  have hfront : w.entries.Pairwise fun a b =>
      decide (b.2 ≤ now) = true → decide (a.2 ≤ now) = true := by
    rw [h.entries, List.pairwise_map]
    refine hsorted.imp fun {a b} hab hb => ?_
    have hb' : b.time + w.ttl ≤ now := of_decide_eq_true hb
    exact decide_eq_true (show a.time + w.ttl ≤ now by linarith)
  show w.entries.dropWhile _ = (w.live admitted now).map _
  rw [Expiry.dropWhile_eq_filter hfront, h.entries, List.filter_map, live, live, List.filter_filter]
  refine congrArg _ (List.filter_congr fun a _ => ?_)
  show (!decide (a.time + w.ttl ≤ now) && decide (clock < a.time + w.ttl))
    = decide (now < a.time + w.ttl)
  by_cases ha : now < a.time + w.ttl
  · simp [ha, lt_of_le_of_lt hnow ha, not_le.mpr ha]
  · simp [ha, not_lt.mp ha]

/-- A live admission keeps every later one alive. -/
lemma live_of_sorted {ttl now : ℚ} {a : Admission} {l : List Admission}
    (hsorted : (a :: l).Pairwise fun a b => a.time ≤ b.time) (ha : now < a.time + ttl) :
    (a :: l).filter (fun a => decide (now < a.time + ttl)) = a :: l := by
  rw [List.pairwise_cons] at hsorted
  refine List.filter_eq_self.mpr fun b hb => decide_eq_true ?_
  rcases List.mem_cons.mp hb with rfl | hb
  · exact ha
  · have := hsorted.1 b hb
    linarith

/-- Admitting one more key, after the eviction that makes room for it. -/
lemma Tracks.admit {w : DedupWindow} {admitted : List Admission} {now : ℚ}
    (h : Tracks w admitted now) (key : String) :
    (if w.entries.length ≥ w.maxEntries then w.evictToCap else w).entries ++ [(key, now + w.ttl)]
      = (w.live (admitted ++ [⟨now, key⟩]) now).map (Admission.entry w.ttl) := by
  obtain ⟨m, hm⟩ : ∃ m, w.maxEntries = m + 1 :=
    ⟨w.maxEntries - 1, by have := w.maxEntries_pos; omega⟩
  have hnew : now < now + w.ttl := by have := w.ttl_pos; linarith
  have hlive : w.live (admitted ++ [⟨now, key⟩]) now
      = (admitted.rtake m).filter (fun a => decide (now < a.time + w.ttl)) ++ [⟨now, key⟩] := by
    rw [live, hm, List.rtake_concat_succ, List.filter_append]
    simp [hnew]
  rw [hlive, List.map_append, List.map_singleton]
  refine congrArg (· ++ _) ?_
  by_cases hlen : admitted.length ≤ m
  -- below the cap nothing is evicted, and the last `m` admissions are all of them
  · have hself : w.entries = ((admitted.rtake m).filter
        (fun a => decide (now < a.time + w.ttl))).map (Admission.entry w.ttl) := by
      rw [h.entries, live, hm, Expiry.rtake_eq_self (by omega), Expiry.rtake_eq_self hlen]
    have hshort : ¬ w.entries.length ≥ w.maxEntries := by
      have := List.length_filter_le (fun a : Admission => decide (now < a.time + w.ttl))
        (admitted.rtake m)
      rw [Expiry.length_rtake] at this
      rw [hself, List.length_map, hm]
      omega
    rw [if_neg hshort, hself]
  · obtain ⟨a, ha⟩ := Expiry.rtake_succ_eq_cons (l := admitted) (n := m) (by omega)
    have hsorted : (a :: admitted.rtake m).Pairwise fun a b => a.time ≤ b.time :=
      ha ▸ h.sorted.sublist (Expiry.rtake_sublist _ _)
    by_cases hage : now < a.time + w.ttl
    -- the oldest of the last `m + 1` admissions is live: the window is full and it goes
    · have hfull : w.entries = (a :: admitted.rtake m).map (Admission.entry w.ttl) := by
        rw [h.entries, live, hm, ha, live_of_sorted hsorted hage]
      have hcap : w.entries.length ≥ w.maxEntries := by
        rw [hfull, hm, List.length_map, List.length_cons, Expiry.length_rtake]
        omega
      have htail : (admitted.rtake m).filter (fun a => decide (now < a.time + w.ttl))
          = admitted.rtake m := by
        have := live_of_sorted hsorted hage
        rw [List.filter_cons_of_pos (by simpa using hage)] at this
        exact List.tail_eq_of_cons_eq this
      rw [if_pos hcap, htail, evictToCap, hfull, List.map_cons, List.tail_cons]
    -- it is not: the entries already lie among the last `m` admissions
    · have hself : w.entries = ((admitted.rtake m).filter
          (fun a => decide (now < a.time + w.ttl))).map (Admission.entry w.ttl) := by
        rw [h.entries, live, hm, ha, List.filter_cons_of_neg (by simpa using hage)]
      have hshort : ¬ w.entries.length ≥ w.maxEntries := by
        have := List.length_filter_le (fun a : Admission => decide (now < a.time + w.ttl))
          (admitted.rtake m)
        rw [Expiry.length_rtake] at this
        rw [hself, List.length_map, hm]
        omega
      rw [if_neg hshort, hself]

/-! ## One call -/

lemma seen_of_mem {w : DedupWindow} {key : String} {now : ℚ}
    (h : key ∈ (w.evictExpired now).entries.map Prod.fst) :
    w.seen key now
      = (true, { w.evictExpired now with hits := (w.evictExpired now).hits + 1 }) := by
  rw [seen, if_pos h]

lemma seen_of_not_mem {w : DedupWindow} {key : String} {now : ℚ}
    (h : key ∉ (w.evictExpired now).entries.map Prod.fst) :
    w.seen key now = (false,
      let v := w.evictExpired now
      let v := if v.entries.length ≥ v.maxEntries then v.evictToCap else v
      { v with entries := v.entries ++ [(key, now + v.ttl)], misses := v.misses + 1 }) := by
  rw [seen, if_neg h]

lemma Tracks.mem_entries_iff {w : DedupWindow} {admitted : List Admission} {now : ℚ}
    (h : Tracks w admitted now) (key : String) :
    key ∈ w.entries.map Prod.fst ↔ ∃ a ∈ w.live admitted now, a.key = key := by
  rw [h.entries, List.map_map, List.mem_map]
  rfl

/-- **What `seen` answers.**  A key is a duplicate exactly if one of the last `maxEntries`
admissions admitted it less than `ttl` ago. -/
theorem Tracks.seen_iff {w : DedupWindow} {before : List Admission} {clock now : ℚ}
    (h : Tracks w before clock) (hnow : clock ≤ now) (key : String) :
    (w.seen key now).1 = true ↔ ∃ a ∈ w.live before now, a.key = key := by
  have hlive : (w.evictExpired now).live before now = w.live before now := rfl
  rw [← hlive, ← (h.evictExpired hnow).mem_entries_iff key]
  by_cases hkey : key ∈ (w.evictExpired now).entries.map Prod.fst
  · simp only [seen_of_mem hkey, hkey]
  · simp only [seen_of_not_mem hkey, hkey, Bool.false_eq_true]

lemma Tracks.seen_duplicate {w : DedupWindow} {before : List Admission} {clock now : ℚ}
    (h : Tracks w before clock) (hnow : clock ≤ now) {key : String}
    (hseen : (w.seen key now).1 = true) : Tracks (w.seen key now).2 before now := by
  have he := h.evictExpired hnow
  by_cases hkey : key ∈ (w.evictExpired now).entries.map Prod.fst
  · rw [seen_of_mem hkey]
    exact ⟨he.sorted, he.past, he.entries⟩
  · simp [seen_of_not_mem hkey] at hseen

lemma Tracks.seen_fresh {w : DedupWindow} {before : List Admission} {clock now : ℚ}
    (h : Tracks w before clock) (hnow : clock ≤ now) {key : String}
    (hseen : (w.seen key now).1 = false) :
    Tracks (w.seen key now).2 (before ++ [⟨now, key⟩]) now := by
  have he := h.evictExpired hnow
  by_cases hkey : key ∈ (w.evictExpired now).entries.map Prod.fst
  · simp [seen_of_mem hkey] at hseen
  · refine ⟨?_, ?_, ?_⟩
    · refine List.pairwise_append.mpr ⟨h.sorted, List.pairwise_singleton _ _, ?_⟩
      intro a ha b hb
      rw [List.mem_singleton] at hb
      subst hb
      exact he.past a ha
    · intro a ha
      rcases List.mem_append.mp ha with ha | ha
      · exact he.past a ha
      · rw [List.mem_singleton] at ha
        subst ha
        exact le_refl now
    · have hadmit := he.admit key
      rw [live_congr (seen_ttl w key now) (seen_maxEntries w key now), seen_ttl]
      rw [seen_of_not_mem hkey]
      simp only
      split_ifs at hadmit ⊢ <;> exact hadmit

end DedupWindow

end Sentinel
