import Mathlib.Data.List.Lattice
import Sentinel.AuthLog.Occurrences

/-!
# Numbering the same lines again

The lines of a log, parsed at two clock readings, differ only in the times of their records
(`Settled.untimed_eq`), and no id is made from those.  What is left is the state of the occurrence
counters.  After a pass they hold the records of the last run of equal timestamps
(`counters_after`); numbering on from there gives the same numbers exactly when the first and the
last run have no record in common (`renumber_iff`).  Records that differ in their occurrence have
different ids (`ids_eq_iff`).
-/

namespace Sentinel.AuthLog

open Calendar

/-! ## The records of a line at two clock readings -/

/-- The record without its time, which no id is made from. -/
def untimed (r : RawAuthEvent) : RawAuthEvent :=
  ⟨{ r.toAuthFields with occurredAt := 0 }, ⟨r.valid.host, r.valid.syslogTs, r.valid.pid,
    r.valid.action, r.valid.outcome, r.valid.severity, r.valid.user, r.valid.ip, r.valid.port,
    r.valid.message⟩⟩

/-- The line raises at neither reading, and yields records at both or at neither. -/
def Settled (c : Context) (line : List Char) (now now' : DateTime) : Prop :=
  ∃ records records', parseAuthRecords c now line = some records ∧
    parseAuthRecords c now' line = some records' ∧ (records = [] ↔ records' = [])

lemma headerTimestamp_fst (c : Context) (now now' : DateTime) (syslog : Match) :
    (headerTimestamp c now syslog).1 = (headerTimestamp c now' syslog).1 := by
  simp only [headerTimestamp]
  split
  · rfl
  · rfl

/-- Only the time of the records depends on the clock. -/
lemma Settled.untimed_eq {c : Context} {line : List Char} {now now' : DateTime}
    (h : Settled c line now now') {records records' : List RawAuthEvent}
    (hparse : parseAuthRecords c now line = some records)
    (hparse' : parseAuthRecords c now' line = some records') :
    records.map untimed = records'.map untimed := by
  rcases h with ⟨_, _, hsome, hsome', hiff⟩
  rw [hparse, Option.some.injEq] at hsome
  rw [hparse', Option.some.injEq] at hsome'
  rw [← hsome, ← hsome'] at hiff
  by_cases hnil : records = []
  · rw [hnil, hiff.mp hnil]
  · rcases exists_of_parseAuthRecords hparse hnil with
      ⟨syslog, body, t, first, hsyslog, hbody, hfields, rfl⟩
    rcases exists_of_parseAuthRecords hparse' (fun hnil' => hnil (hiff.mpr hnil')) with
      ⟨syslog', body', t', first', hsyslog', hbody', hfields', rfl⟩
    rw [hsyslog, Option.some.injEq] at hsyslog'
    subst hsyslog'
    rw [hbody, Option.some.injEq] at hbody'
    subst hbody'
    have hsame : ∀ n, untimed (withOccurrence first n) = untimed (withOccurrence first' n) := by
      intro n
      simp only [untimed, withOccurrence, hfields, hfields', authFields,
        headerTimestamp_fst c now now' syslog]
    rw [List.map_map, List.map_map]
    exact List.map_congr_left fun n _ => hsame n

lemma number_untimed (s : Counters) (records : List RawAuthEvent) :
    number s (records.map untimed) = ((number s records).1.map untimed, (number s records).2) := by
  cases records with
  | nil => rfl
  | cons first rest =>
      rw [List.map_cons, number_cons, number_cons]
      refine Prod.ext ?_ ?_
      · by_cases hbase : (s.at first.syslogTs).seen (keyOf first) = 0
        · rw [if_pos hbase]
          exact if_pos hbase
        · rw [if_neg hbase, List.map_map]
          refine (if_neg hbase).trans ?_
          rw [← List.map_cons (f := untimed), List.map_map]
          rfl
      · simp only [List.length_cons, List.length_map]
        rfl

lemma numberBatches_untimed (s : Counters) (l : List (List RawAuthEvent)) :
    numberBatches s (l.map fun batch => batch.map untimed) =
      ((numberBatches s l).1.map untimed, (numberBatches s l).2) := by
  induction l generalizing s with
  | nil => rfl
  | cons batch l ih =>
      rw [List.map_cons, numberBatches, numberBatches, number_untimed, ih, List.map_append]

/-! ## Numbering the same lines from two states of the counters -/

lemma Counters.at_of_eq {s : Counters} {ts : String} (h : ts = s.seenTs) : s.at ts = s :=
  if_neg (not_not.mpr h)

lemma Counters.at_of_ne {s : Counters} {ts : String} (h : ts ≠ s.seenTs) :
    s.at ts = { seenTs := ts } :=
  if_pos h

/-- The numbering goes on from the counters at the first timestamp. -/
lemma numberBatches_congr {s s' : Counters} {a : Item} {items : List Item} (hpos : 0 < a.2)
    (h : s'.at a.1.syslogTs = s.at a.1.syslogTs) :
    numberBatches s' ((a :: items).map Item.records) =
      numberBatches s ((a :: items).map Item.records) := by
  have hnumber : number s' (Item.records a) = number s (Item.records a) := by
    rw [number_records s' hpos, number_records s hpos, h]
  rw [List.map_cons, numberBatches, numberBatches, hnumber]

/-- The records are the same but for their occurrences. -/
lemma forall₂_numberBatches {items : List Item} (hpos : ∀ a ∈ items, 0 < a.2) :
    ∀ s s' : Counters, List.Forall₂ (fun r r' => ∃ n, r' = withOccurrence r n)
      (numberBatches s (items.map Item.records)).1
      (numberBatches s' (items.map Item.records)).1 := by
  induction items with
  | nil => intro s s'; exact List.Forall₂.nil
  | cons a items ih =>
      intro s s'
      have ha := hpos a List.mem_cons_self
      rw [List.map_cons, numberBatches, numberBatches, number_records s ha, number_records s' ha]
      refine List.rel_append ?_ (ih (fun b hb => hpos b (List.mem_cons_of_mem _ hb)) _ _)
      rw [List.forall₂_map_left_iff, List.forall₂_map_right_iff, List.forall₂_same]
      intro n _
      exact ⟨_, rfl⟩

/-- Counters that are ahead by `d` number alike just when `d` is zero on the records up to the next
timestamp. -/
lemma numberBatches_eq_iff {items : List Item} (hpos : ∀ a ∈ items, 0 < a.2) :
    ∀ (s s' : Counters) (d : Key → ℕ), s'.seenTs = s.seenTs →
      (∀ k, s'.seen k = s.seen k + d k) →
      ((numberBatches s' (items.map Item.records)).1 =
          (numberBatches s (items.map Item.records)).1 ↔
        ∀ key ∈ (items.map itemKey).takeWhile (fun key => key.1 = s.seenTs), d key.2 = 0) := by
  induction items with
  | nil => intro s s' d _ _; simp [numberBatches]
  | cons a items ih =>
      intro s s' d hts hseen
      have ha := hpos a List.mem_cons_self
      by_cases htsa : a.1.syslogTs = s.seenTs
      · have hat : s.at a.1.syslogTs = s := Counters.at_of_eq htsa
        have hat' : s'.at a.1.syslogTs = s' := Counters.at_of_eq (htsa.trans hts.symm)
        have hblock : (List.range a.2).map (fun n => withOccurrence a.1 (s'.seen (keyOf a.1) + n)) =
            (List.range a.2).map (fun n => withOccurrence a.1 (s.seen (keyOf a.1) + n)) ↔
              d (keyOf a.1) = 0 := by
          rw [hseen]
          constructor
          · intro heq
            have hfirst := List.map_inj_left.mp heq 0 (List.mem_range.mpr ha)
            have hoccurrence := congrArg (fun r : RawAuthEvent => r.occurrence) hfirst
            simp only [withOccurrence] at hoccurrence
            omega
          · intro hzero
            rw [hzero, Nat.add_zero]
        have hnext := ih (fun b hb => hpos b (List.mem_cons_of_mem _ hb))
          { s with seen := Function.update s.seen (keyOf a.1) (s.seen (keyOf a.1) + a.2) }
          { s' with seen := Function.update s'.seen (keyOf a.1) (s'.seen (keyOf a.1) + a.2) }
          d hts (by
            intro k
            by_cases hk : k = keyOf a.1
            · simp only [hk, Function.update_self, hseen]
              omega
            · simp only [Function.update_of_ne hk, hseen])
        have htake : ((a :: items).map itemKey).takeWhile (fun key => key.1 = s.seenTs) =
            itemKey a :: (items.map itemKey).takeWhile (fun key => key.1 = s.seenTs) :=
          List.takeWhile_cons_of_pos (decide_eq_true htsa)
        rw [htake, List.map_cons, numberBatches, numberBatches, number_records s ha,
          number_records s' ha, hat, hat']
        constructor
        · intro heq key hkey
          rcases List.append_inj heq (by simp) with ⟨hhead, htail⟩
          rcases List.mem_cons.mp hkey with rfl | hkey
          · exact hblock.mp hhead
          · exact hnext.mp htail key hkey
        · intro hzero
          have hhead := hblock.mpr (hzero (itemKey a) List.mem_cons_self)
          have htail := hnext.mpr fun key hkey => hzero key (List.mem_cons_of_mem _ hkey)
          exact congrArg₂ _ hhead htail
      · -- the timestamp changes, and both start again
        have hat : s'.at a.1.syslogTs = s.at a.1.syslogTs := by
          rw [Counters.at_of_ne htsa, Counters.at_of_ne (hts.symm ▸ htsa)]
        rw [numberBatches_congr ha hat]
        simp [itemKey, htsa]

/-! ## The counters after a pass -/

/-- The timestamps and keys up to the first change of the timestamp. -/
def firstRun (keys : List (String × Key)) : List (String × Key) :=
  match keys with
  | [] => []
  | key :: _ => keys.takeWhile fun key' => key'.1 = key.1

/-- The timestamps and keys since the last change of the timestamp. -/
def lastRun (keys : List (String × Key)) : List (String × Key) := firstRun keys.reverse

/-- After a pass, the counters hold the keys of the last run. -/
lemma counters_after (items : List Item) (hpos : ∀ a ∈ items, 0 < a.2) :
    (∀ key ∈ (items.map itemKey).reverse.head?,
        (numberBatches {} (items.map Item.records)).2.seenTs = key.1) ∧
      ∀ k, 0 < (numberBatches {} (items.map Item.records)).2.seen k ↔
        ((numberBatches {} (items.map Item.records)).2.seenTs, k) ∈
          (items.map itemKey).reverse.takeWhile fun key =>
            key.1 = (numberBatches {} (items.map Item.records)).2.seenTs := by
  induction items using List.reverseRecOn with
  | nil => simp [numberBatches]
  | append_singleton items a ih =>
      have ha := hpos a (by simp)
      rcases ih fun b hb => hpos b (List.mem_append_left _ hb) with ⟨hlast, hseen⟩
      set s := (numberBatches {} (items.map Item.records)).2 with hs
      have hnext : (numberBatches {} ((items ++ [a]).map Item.records)).2 =
          (number s (Item.records a)).2 := by
        rw [List.map_append, numberBatches_append]
        rfl
      have hreverse : ((items ++ [a]).map itemKey).reverse =
          itemKey a :: (items.map itemKey).reverse := by
        simp
      have htake : (itemKey a :: (items.map itemKey).reverse).takeWhile
            (fun key => key.1 = a.1.syslogTs) =
          itemKey a :: (items.map itemKey).reverse.takeWhile (fun key => key.1 = a.1.syslogTs) :=
        List.takeWhile_cons_of_pos (decide_eq_true rfl)
      rw [hnext, hreverse, number_records s ha]
      dsimp only
      rw [seenTs_at, htake]
      refine ⟨?_, ?_⟩
      · intro key hkey
        rw [← Option.some.inj hkey]
        rfl
      · intro k
        rw [List.mem_cons]
        by_cases hk : k = keyOf a.1
        · rw [hk, Function.update_self]
          exact ⟨fun _ => Or.inl rfl, fun _ => by omega⟩
        · have hne : (a.1.syslogTs, k) ≠ itemKey a := fun heq => hk (Prod.mk.inj heq).2
          rw [Function.update_of_ne hk, or_iff_right hne]
          by_cases hts : a.1.syslogTs = s.seenTs
          · rw [Counters.at_of_eq hts, hseen, hts]
          · -- the last timestamp before was another one, so the run begins here
            rw [Counters.at_of_ne hts]
            refine ⟨fun h => absurd h (Nat.lt_irrefl 0), ?_⟩
            intro hmem
            cases hrev : (items.map itemKey).reverse with
            | nil => rw [hrev] at hmem; cases hmem
            | cons key keys =>
                rw [hrev] at hmem hlast
                have hkey : s.seenTs = key.1 := hlast key rfl
                rw [List.takeWhile_cons_of_neg] at hmem
                · cases hmem
                · rw [decide_eq_true_eq, ← hkey]
                  exact Ne.symm hts

lemma firstRun_eq {keys : List (String × Key)} {ts : String} (h : ∀ key ∈ keys.head?, ts = key.1) :
    firstRun keys = keys.takeWhile fun key => key.1 = ts := by
  cases keys with
  | nil => rfl
  | cons key keys => rw [h key rfl, firstRun]

lemma fst_of_mem_takeWhile {keys : List (String × Key)} {ts : String} {key : String × Key}
    (h : key ∈ keys.takeWhile fun key => key.1 = ts) : key.1 = ts := by
  simpa using List.mem_takeWhile_imp h

/-- Counters that hold nothing number like fresh ones. -/
lemma Counters.at_of_cleared {s : Counters} (h : s.seen = fun _ => 0) (ts : String) :
    s.at ts = { seenTs := ts } := by
  by_cases hts : ts = s.seenTs
  · rw [Counters.at_of_eq hts, hts, ← h]
  · exact Counters.at_of_ne hts

lemma numberBatches_of_cleared {s : Counters} (h : s.seen = fun _ => 0) {items : List Item}
    (hpos : ∀ a ∈ items, 0 < a.2) :
    (numberBatches s (items.map Item.records)).1 =
      (numberBatches {} (items.map Item.records)).1 := by
  cases items with
  | nil => rfl
  | cons a items =>
      rw [numberBatches_congr (hpos a List.mem_cons_self)]
      rw [Counters.at_of_cleared h, Counters.at_of_cleared rfl]

/-- **Numbering on after a pass** gives the same numbers exactly when the first and the last run
have no record in common. -/
lemma renumber_iff {items : List Item} (hpos : ∀ a ∈ items, 0 < a.2) :
    (numberBatches (numberBatches {} (items.map Item.records)).2 (items.map Item.records)).1 =
        (numberBatches {} (items.map Item.records)).1 ↔
      (firstRun (items.map itemKey)).Disjoint (lastRun (items.map itemKey)) := by
  rcases counters_after items hpos with ⟨hlast, hseen⟩
  set s := (numberBatches {} (items.map Item.records)).2
  rw [lastRun, firstRun_eq hlast]
  cases items with
  | nil => simp [numberBatches, firstRun]
  | cons a items =>
      have ha := hpos a List.mem_cons_self
      have hfirst : firstRun ((a :: items).map itemKey) =
          ((a :: items).map itemKey).takeWhile fun key => key.1 = a.1.syslogTs :=
        firstRun_eq fun key hkey => by rw [← Option.some.inj hkey]; rfl
      have hfresh : numberBatches {} ((a :: items).map Item.records) =
          numberBatches { seenTs := a.1.syslogTs } ((a :: items).map Item.records) := by
        refine numberBatches_congr ha ?_
        rw [Counters.at_of_cleared rfl, Counters.at_of_cleared rfl]
      rw [hfirst, hfresh]
      by_cases hts : s.seenTs = a.1.syslogTs
      · rw [numberBatches_eq_iff hpos { seenTs := a.1.syslogTs } s s.seen hts
          fun k => (Nat.zero_add _).symm]
        constructor
        · intro hzero key hkey hkey'
          have hpair : (s.seenTs, key.2) = key := Prod.ext (fst_of_mem_takeWhile hkey').symm rfl
          have hcounted : 0 < s.seen key.2 := by
            rw [hseen, hpair]
            exact hkey'
          exact absurd (hzero key hkey) hcounted.ne'
        · intro hdisjoint key hkey
          by_contra hne
          have hpair : (s.seenTs, key.2) = key :=
            Prod.ext (hts.trans (fst_of_mem_takeWhile hkey).symm) rfl
          have hcounted := (hseen key.2).mp (Nat.pos_of_ne_zero hne)
          rw [hpair] at hcounted
          exact hdisjoint hkey hcounted
      · have hat : s.at a.1.syslogTs = ({ seenTs := a.1.syslogTs } : Counters).at a.1.syslogTs := by
          rw [Counters.at_of_ne (Ne.symm hts), Counters.at_of_cleared rfl]
        rw [numberBatches_congr ha hat]
        refine iff_of_true rfl ?_
        intro key hkey hkey'
        exact hts ((fst_of_mem_takeWhile hkey').symm.trans (fst_of_mem_takeWhile hkey))

/-! ## Ids and occurrences -/

/-- The occurrence comes last in the joined text, so it can be read back. -/
lemma occurrence_eq_of_canonical {r : RawAuthEvent} {m n : ℕ}
    (h : canonical (withOccurrence r m).identity = canonical (withOccurrence r n).identity) :
    m = n := by
  have hne : ∀ k, (withOccurrence r k).identity ≠ [] := fun _ => List.cons_ne_nil _ _
  rw [canonical_eq_iff (hne m) (hne n)] at h
  have htexts : ∀ k, identityTexts (withOccurrence r k).identity =
      identityTexts [.str r.syslogTs, .str r.host, .str r.pid, .str r.action, .str r.user,
        .str r.ip, .int r.port] ++ [(toString k).toList] := fun _ => rfl
  simp only [htexts, JoinedText.pieces, List.flatMap_append, List.append_cancel_left_eq,
    List.flatMap_singleton] at h
  exact toString_injective (JoinedText.splitOn_injective _ h)

lemma ids_eq_iff (hash : TextHash) {l l' : List RawAuthEvent}
    (h : List.Forall₂ (fun r r' => ∃ n, r' = withOccurrence r n) l l')
    (hsha : ∀ r ∈ l, ∀ r' ∈ l',
      hash.digest (canonical r.identity) = hash.digest (canonical r'.identity) →
        canonical r.identity = canonical r'.identity) :
    (l'.map fun r => computeId hash.digest r.identity) =
        (l.map fun r => computeId hash.digest r.identity) ↔ l' = l := by
  refine ⟨?_, fun heq => by rw [heq]⟩
  induction h with
  | nil => intro _; rfl
  | @cons r r' l l' hr _ ih =>
      intro hids
      rcases hr with ⟨n, rfl⟩
      rw [List.map_cons, List.map_cons, List.cons.injEq] at hids
      have hcanonical := hsha r List.mem_cons_self _ List.mem_cons_self hids.1.symm
      have hn : r.occurrence = n := occurrence_eq_of_canonical (r := r) hcanonical
      have htail := ih (fun a ha b hb =>
        hsha a (List.mem_cons_of_mem _ ha) b (List.mem_cons_of_mem _ hb)) hids.2
      rw [htail, ← hn]
      rfl

end Sentinel.AuthLog
