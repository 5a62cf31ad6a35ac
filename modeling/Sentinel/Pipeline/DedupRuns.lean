import Sentinel.Pipeline.Dedup

/-!
# What a run of `seen` computes

Any sequence of calls of `DedupWindow.seen` on a new window, under a clock that never runs
backwards.  The answer to a call is a statement about the admissions before it alone
(`DedupWindow.seen_means`): a key is a duplicate exactly if its latest admission is among the last
`max_entries` ones and less than `ttl` old.  Between the calls the entries stay in order of
expiry, within the cap, and the four counters account for every call and every entry.
-/

namespace Sentinel

namespace DedupWindow

/-- `__init__`: nothing seen, nothing counted. -/
def new (ttl : ℚ) (maxEntries : ℕ) (httl : 0 < ttl) (hmax : 1 ≤ maxEntries) : DedupWindow :=
  { ttl, maxEntries, ttl_pos := httl, maxEntries_pos := hmax }

/-- A call of `seen`, and what the clock says when it is made. -/
structure Call where
  key : String
  now : ℚ

/-- The window after some calls. -/
def afterCalls (w : DedupWindow) : List Call → DedupWindow
  | [] => w
  | c :: calls => (w.seen c.key c.now).2.afterCalls calls

/-- The calls among them that were admitted. -/
def admissions (w : DedupWindow) : List Call → List Admission
  | [] => []
  | c :: calls =>
      (if (w.seen c.key c.now).1 then [] else [⟨c.now, c.key⟩])
        ++ (w.seen c.key c.now).2.admissions calls

/-- The clock readings never decrease. -/
def Monotonic (calls : List Call) : Prop :=
  calls.Pairwise fun c d => c.now ≤ d.now

/-- `a` is the latest admission of its key, and `later` are the admissions since. -/
structure Latest (admitted : List Admission) (a : Admission) (later : List Admission) : Prop where
  split : ∃ earlier, admitted = earlier ++ a :: later
  last : ∀ b ∈ later, b.key ≠ a.key

/-- What holds of a window of at most `maxEntries` entries after `calls` calls. -/
structure Accounted (w : DedupWindow) (maxEntries calls : ℕ) : Prop where
  bounded : w.entries.length ≤ maxEntries
  ordered : w.entries.Pairwise fun a b => a.2 ≤ b.2
  counted : w.hits + w.misses = calls
  balanced : w.misses = w.entries.length + w.evictionsTtl + w.evictionsCap

/-! ## The latest admission of a key -/

/-- A key that was admitted has a latest admission. -/
lemma exists_latest {key : String} : ∀ {admitted : List Admission},
    (∃ a ∈ admitted, a.key = key) → ∃ a later, Latest admitted a later ∧ a.key = key
  | [], h => by simp at h
  | a :: admitted, h => by
      by_cases hlater : ∃ b ∈ admitted, b.key = key
      · obtain ⟨b, later, ⟨⟨earlier, hsplit⟩, hlast⟩, hkey⟩ := exists_latest hlater
        exact ⟨b, later, ⟨⟨a :: earlier, by rw [hsplit, List.cons_append]⟩, hlast⟩, hkey⟩
      · have hkey : a.key = key := by
          obtain ⟨b, hb, hb'⟩ := h
          rcases List.mem_cons.mp hb with rfl | hb
          · exact hb'
          · exact absurd ⟨b, hb, hb'⟩ hlater
        refine ⟨a, admitted, ⟨⟨[], rfl⟩, fun b hb hb' => hlater ⟨b, hb, ?_⟩⟩, hkey⟩
        rw [hb', hkey]

/-- The latest admission of a key is no older than any other. -/
lemma Latest.time_le {admitted later : List Admission} {a b : Admission}
    (h : Latest admitted a later) (hsorted : admitted.Pairwise fun a b => a.time ≤ b.time)
    (hb : b ∈ admitted) (hkey : b.key = a.key) : b.time ≤ a.time := by
  obtain ⟨earlier, rfl⟩ := h.split
  rcases List.mem_append.mp hb with hb | hb
  · exact (List.pairwise_append.mp hsorted).2.2 b hb a List.mem_cons_self
  · rcases List.mem_cons.mp hb with rfl | hb
    · exact le_refl _
    · exact absurd hkey (h.last b hb)

/-- One of the live admissions admitted the key exactly if the latest one of all did. -/
lemma exists_live_iff (w : DedupWindow) {admitted : List Admission}
    (hsorted : admitted.Pairwise fun a b => a.time ≤ b.time) (key : String) (now : ℚ) :
    (∃ a ∈ w.live admitted now, a.key = key) ↔
      ∃ a later, Latest admitted a later ∧ a.key = key ∧ later.length < w.maxEntries ∧
        now - w.ttl < a.time := by
  have happend : admitted.take (admitted.length - w.maxEntries) ++ admitted.rtake w.maxEntries
      = admitted := List.take_append_drop _ _
  constructor
  · rintro ⟨a, ha, hkey⟩
    rw [live, List.mem_filter, decide_eq_true_eq] at ha
    obtain ⟨b, later, hlatest, hb⟩ := exists_latest ⟨a, ha.1, hkey⟩
    have htime : a.time ≤ b.time :=
      hlatest.time_le (hsorted.sublist (Expiry.rtake_sublist _ _)) ha.1 (by rw [hkey, hb])
    obtain ⟨⟨earlier, hsplit⟩, hlast⟩ := hlatest
    refine ⟨b, later, ⟨⟨admitted.take (admitted.length - w.maxEntries) ++ earlier, ?_⟩, hlast⟩, hb,
      ?_, by linarith [ha.2]⟩
    · rw [List.append_assoc, ← hsplit, happend]
    · have hlength := Expiry.length_rtake admitted w.maxEntries
      rw [hsplit, List.length_append, List.length_cons] at hlength
      omega
  · rintro ⟨a, later, ⟨⟨earlier, rfl⟩, -⟩, hkey, hlength, htime⟩
    refine ⟨a, ?_, hkey⟩
    rw [live, List.mem_filter, decide_eq_true_eq]
    refine ⟨?_, by linarith⟩
    have hdrop : (earlier ++ a :: later).length - w.maxEntries ≤ earlier.length := by
      rw [List.length_append, List.length_cons]
      omega
    rw [List.rtake, List.drop_append_of_le_length hdrop]
    exact List.mem_append_right _ List.mem_cons_self

/-! ## The counters -/

lemma evictExpired_length (w : DedupWindow) (now : ℚ) :
    (w.evictExpired now).entries.length + (w.evictExpired now).evictionsTtl
      = w.entries.length + w.evictionsTtl := by
  have h := congrArg List.length
    (List.takeWhile_append_dropWhile (p := fun entry : String × ℚ => decide (entry.2 ≤ now))
      (l := w.entries))
  rw [List.length_append] at h
  simp only [evictExpired]
  omega

/-- One call more is counted once, and its entry with it. -/
lemma seen_counts {w : DedupWindow} {calls : ℕ} (hcounted : w.hits + w.misses = calls)
    (hbalanced : w.misses = w.entries.length + w.evictionsTtl + w.evictionsCap)
    (key : String) (now : ℚ) :
    (w.seen key now).2.hits + (w.seen key now).2.misses = calls + 1 ∧
      (w.seen key now).2.misses = (w.seen key now).2.entries.length
        + (w.seen key now).2.evictionsTtl + (w.seen key now).2.evictionsCap := by
  have hlength := evictExpired_length w now
  have hhits : (w.evictExpired now).hits = w.hits := rfl
  have hmisses : (w.evictExpired now).misses = w.misses := rfl
  have hcap : (w.evictExpired now).evictionsCap = w.evictionsCap := rfl
  by_cases hkey : key ∈ (w.evictExpired now).entries.map Prod.fst
  · rw [seen_of_mem hkey]
    simp only
    omega
  · rw [seen_of_not_mem hkey]
    simp only
    split_ifs with hfull
    -- making room for the entry moves one from the entries to `evictions_cap`
    · have := (w.evictExpired now).maxEntries_pos
      simp only [evictToCap, List.length_append, List.length_tail, List.length_singleton]
      omega
    · simp only [List.length_append, List.length_singleton]
      omega

/-! ## Any run -/

@[simp] lemma afterCalls_ttl : ∀ (calls : List Call) (w : DedupWindow),
    (w.afterCalls calls).ttl = w.ttl
  | [], _ => rfl
  | c :: calls, w => by rw [afterCalls, afterCalls_ttl calls, seen_ttl]

@[simp] lemma afterCalls_maxEntries : ∀ (calls : List Call) (w : DedupWindow),
    (w.afterCalls calls).maxEntries = w.maxEntries
  | [], _ => rfl
  | c :: calls, w => by rw [afterCalls, afterCalls_maxEntries calls, seen_maxEntries]

/-- One call keeps the relation of the window to the admissions so far. -/
lemma Tracks.seen {w : DedupWindow} {before : List Admission} {clock now : ℚ}
    (h : Tracks w before clock) (hnow : clock ≤ now) (key : String) :
    Tracks (w.seen key now).2
      (before ++ if (w.seen key now).1 then [] else [⟨now, key⟩]) now := by
  cases hseen : (w.seen key now).1 with
  | true => simpa using h.seen_duplicate hnow hseen
  | false => simpa using h.seen_fresh hnow hseen

/-- And so does a run of calls, which leaves the clock at one of their readings. -/
lemma Tracks.afterCalls : ∀ {calls : List Call} {w : DedupWindow} {before : List Admission}
    {clock : ℚ}, Tracks w before clock → Monotonic calls → (∀ c ∈ calls, clock ≤ c.now) →
      ∃ last, Tracks (w.afterCalls calls) (before ++ w.admissions calls) last ∧
        ∀ t, clock ≤ t → (∀ c ∈ calls, c.now ≤ t) → last ≤ t
  | [], w, before, clock, h, _, _ => by
      refine ⟨clock, ?_, fun t ht _ => ht⟩
      rw [admissions, List.append_nil]
      exact h
  | c :: calls, w, before, clock, h, hmono, hclock => by
      obtain ⟨hfirst, hmono⟩ := List.pairwise_cons.mp hmono
      obtain ⟨last, htracks, hlast⟩ :=
        (h.seen (hclock c List.mem_cons_self) c.key).afterCalls hmono hfirst
      refine ⟨last, ?_, fun t _ ht => ?_⟩
      · rw [admissions, ← List.append_assoc]
        exact htracks
      · exact hlast t (ht c List.mem_cons_self) fun d hd => ht d (List.mem_cons_of_mem _ hd)

lemma afterCalls_counts : ∀ (calls : List Call) {w : DedupWindow} {n : ℕ},
    w.hits + w.misses = n →
    w.misses = w.entries.length + w.evictionsTtl + w.evictionsCap →
      (w.afterCalls calls).hits + (w.afterCalls calls).misses = n + calls.length ∧
        (w.afterCalls calls).misses = (w.afterCalls calls).entries.length
          + (w.afterCalls calls).evictionsTtl + (w.afterCalls calls).evictionsCap
  | [], _, _, hcounted, hbalanced => ⟨hcounted, hbalanced⟩
  | c :: calls, _, n, hcounted, hbalanced => by
      obtain ⟨hcounted, hbalanced⟩ := seen_counts hcounted hbalanced c.key c.now
      obtain ⟨hcounted, hbalanced⟩ := afterCalls_counts calls hcounted hbalanced
      refine ⟨?_, hbalanced⟩
      rw [afterCalls, hcounted, List.length_cons]
      omega

/-- What `Tracks` says of the entries: they fit, and they are in order of expiry. -/
lemma Tracks.bounded {w : DedupWindow} {admitted : List Admission} {clock : ℚ}
    (h : Tracks w admitted clock) :
    w.entries.length ≤ w.maxEntries ∧ w.entries.Pairwise fun a b => a.2 ≤ b.2 := by
  constructor
  · calc w.entries.length
        = (w.live admitted clock).length := by rw [h.entries, List.length_map]
      _ ≤ (admitted.rtake w.maxEntries).length := List.length_filter_le _ _
      _ ≤ w.maxEntries := by rw [Expiry.length_rtake]; omega
  · rw [h.entries, List.pairwise_map]
    refine ((h.sorted.sublist (Expiry.rtake_sublist _ _)).filter _).imp fun {a b} hab => ?_
    exact add_le_add_left hab w.ttl

/-- Before the last of some calls on a new window, its entries are those that `Tracks` says, as of
a reading that is not later. -/
lemma tracks_new {ttl : ℚ} {maxEntries : ℕ} (httl : 0 < ttl) (hmax : 1 ≤ maxEntries)
    {calls : List Call} {c : Call} (hmono : Monotonic (calls ++ [c])) :
    ∃ clock ≤ c.now, Tracks ((new ttl maxEntries httl hmax).afterCalls calls)
      ((new ttl maxEntries httl hmax).admissions calls) clock := by
  have hlater : ∀ d ∈ calls, d.now ≤ c.now := fun d hd =>
    (List.pairwise_append.mp hmono).2.2 d hd c (List.mem_singleton_self c)
  -- a new window is in order at any reading, the first one for example
  obtain ⟨first, hfirst⟩ : ∃ first, ∀ d ∈ calls ++ [c], first ≤ d.now := by
    cases calls with
    | nil => exact ⟨c.now, by simp⟩
    | cons b calls =>
        refine ⟨b.now, fun d hd => ?_⟩
        rcases List.mem_cons.mp hd with rfl | hd
        · exact le_refl _
        · exact (List.pairwise_cons.mp hmono).1 d hd
  obtain ⟨last, htracks, hlast⟩ :=
    (tracks_empty (w := new ttl maxEntries httl hmax) rfl first).afterCalls
      (List.pairwise_append.mp hmono).1 fun d hd => hfirst d (List.mem_append_left _ hd)
  exact ⟨last, hlast _ (hfirst c (by simp)) hlater, htracks⟩

/-- **The dedup window computes its declarative meaning.**  In any run of calls under a clock that
never runs backwards, a key is a duplicate exactly if its latest admission is among the last
`maxEntries` admissions and was made later than `ttl` ago; and after the call the entries are
within the cap and in order of expiry, every call is a hit or a miss, and every miss is an entry
or an eviction. -/
theorem seen_means (ttl : ℚ) (maxEntries : ℕ) (httl : 0 < ttl) (hmax : 1 ≤ maxEntries)
    (calls : List Call) (key : String) (now : ℚ) (hmono : Monotonic (calls ++ [⟨key, now⟩])) :
    ((((new ttl maxEntries httl hmax).afterCalls calls).seen key now).1 = true ↔
        ∃ a later, Latest ((new ttl maxEntries httl hmax).admissions calls) a later ∧
          a.key = key ∧ later.length < maxEntries ∧ now - ttl < a.time) ∧
      Accounted (((new ttl maxEntries httl hmax).afterCalls calls).seen key now).2 maxEntries
        (calls.length + 1) := by
  obtain ⟨clock, hclock, htracks⟩ := tracks_new httl hmax hmono
  obtain ⟨hcounted, hbalanced⟩ :=
    afterCalls_counts calls (w := new ttl maxEntries httl hmax) (n := 0) rfl rfl
  obtain ⟨hcounted, hbalanced⟩ := seen_counts hcounted hbalanced key now
  obtain ⟨hbounded, hordered⟩ := (htracks.seen hclock key).bounded
  refine ⟨?_, ?_, hordered, ?_, hbalanced⟩
  · rw [htracks.seen_iff hclock, exists_live_iff _ htracks.sorted, afterCalls_maxEntries,
      afterCalls_ttl]
    rfl
  · rw [seen_maxEntries, afterCalls_maxEntries] at hbounded
    exact hbounded
  · rw [hcounted, Nat.zero_add]

theorem seen_means_twice :
    (((new 60 2 (by decide) (by decide)).afterCalls [⟨"a", 0⟩, ⟨"b", 10⟩]).seen "a" 20).1 = true ∧
      Monotonic ([⟨"a", 0⟩, ⟨"b", 10⟩] ++ [⟨"a", 20⟩]) ∧
      Accounted (((new 60 2 (by decide) (by decide)).afterCalls
        [⟨"a", 0⟩, ⟨"b", 10⟩]).seen "a" 20).2 2 3 := by
  have hmono : Monotonic ([⟨"a", 0⟩, ⟨"b", 10⟩] ++ [⟨"a", 20⟩]) := by
    unfold Monotonic
    decide
  have h := seen_means 60 2 (by decide) (by decide) [⟨"a", 0⟩, ⟨"b", 10⟩] "a" 20 hmono
  refine ⟨h.1.mpr ⟨⟨0, "a"⟩, [⟨10, "b"⟩], ⟨⟨[], ?_⟩, by decide⟩, rfl, by decide, by norm_num⟩,
    hmono, h.2⟩
  decide +kernel

end DedupWindow

end Sentinel
