import Sentinel.AuthLog.Collector
import Sentinel.Library.Numbering
import Sentinel.Normalizer.Identity

/-!
# Distinct attempts and distinct event ids

The occurrence counter is kept per host, pid, message and action, while the id is made from
timestamp, host, pid, action, user, address, port and occurrence.  The message decides action, user,
address and port, so equal counter keys give equal labels; the converse is false, because two
messages (a failed publickey and a failed password) can be about the same attempt.

If lines with equal timestamps stand together, the collector's counters, which are cleared when the
timestamp changes, number like counters for each timestamp and key (`numberBatches_eq`).  The ids
are then pairwise distinct exactly when equal labels mean equal messages
(`ids_nodup_iff`).
-/

namespace Sentinel.AuthLog

open Numbering

/-! ## Batches -/

/-- The results of parsing lines, up to the first exception. -/
def parsed (c : Context) : List Read → List (List RawAuthEvent)
  | [] => []
  | read :: reads =>
      match parseAuthRecords c read.now read.line with
      | none => []
      | some records => records :: parsed c reads

/-- The records of each line that yields any, in the order they are delivered. -/
def batches (c : Context) (polls : List (List Read)) : List (List RawAuthEvent) :=
  (polls.flatMap (parsed c)).filter (· ≠ [])

/-- `_number` for one batch after the other. -/
def numberBatches : Counters → List (List RawAuthEvent) → List RawAuthEvent × Counters
  | s, [] => ([], s)
  | s, batch :: rest =>
      ((number s batch).1 ++ (numberBatches (number s batch).2 rest).1,
        (numberBatches (number s batch).2 rest).2)

lemma numberBatches_append (s : Counters) (l m : List (List RawAuthEvent)) :
    numberBatches s (l ++ m) =
      ((numberBatches s l).1 ++ (numberBatches (numberBatches s l).2 m).1,
        (numberBatches (numberBatches s l).2 m).2) := by
  induction l generalizing s with
  | nil => rfl
  | cons batch l ih => simp [numberBatches, ih]

/-- A line without records changes nothing. -/
lemma numberBatches_filter (s : Counters) (l : List (List RawAuthEvent)) :
    numberBatches s (l.filter (· ≠ [])) = numberBatches s l := by
  induction l generalizing s with
  | nil => rfl
  | cons batch l ih =>
      cases batch with
      | nil => rw [List.filter_cons_of_neg (by simp), ih, numberBatches]; rfl
      | cons first rest =>
          rw [List.filter_cons_of_pos (by simp), numberBatches, numberBatches, ih]

lemma drainLines_eq (c : Context) (s : Counters) (reads : List Read) :
    drainLines c s reads = numberBatches s (parsed c reads) := by
  induction reads generalizing s with
  | nil => rfl
  | cons read reads ih =>
      cases h : parseAuthRecords c read.now read.line with
      | none => simp [drainLines, parsed, h, numberBatches]
      | some records => simp [drainLines, parsed, h, numberBatches, ih]

/-- The cuts between polls do not matter. -/
lemma drainPolls_eq (c : Context) (s : Counters) (polls : List (List Read)) :
    drainPolls c s polls = numberBatches s (batches c polls) := by
  rw [batches, numberBatches_filter]
  induction polls generalizing s with
  | nil => rfl
  | cons poll polls ih =>
      rw [List.flatMap_cons, numberBatches_append]
      simp only [drainPolls, drainLines_eq, ih]

/-- A record that stands for a line, and how many copies of it. -/
abbrev Item := RawAuthEvent × ℕ

def Item.records (a : Item) : List RawAuthEvent := (List.range a.2).map (withOccurrence a.1)

lemma exists_item_of_parsed {c : Context} {reads : List Read} {batch : List RawAuthEvent}
    (h : batch ∈ parsed c reads) (hne : batch ≠ []) :
    ∃ a : Item, FromMessage c a.1 ∧ 0 < a.2 ∧ batch = Item.records a := by
  induction reads with
  | nil => cases h
  | cons read reads ih =>
      simp only [parsed] at h
      split at h
      · cases h
      · rename_i records hparse
        rcases List.mem_cons.mp h with rfl | h
        · rcases parseAuthRecords_spec hparse with hnil | ⟨first, count, hfrom, hpos, hrecords⟩
          · exact absurd hnil hne
          · exact ⟨(first, count), hfrom, hpos, hrecords⟩
        · exact ih h

lemma exists_items (c : Context) (polls : List (List Read)) :
    ∃ items : List Item, batches c polls = items.map Item.records ∧
      ∀ a ∈ items, FromMessage c a.1 ∧ 0 < a.2 := by
  have hall : ∀ batch ∈ batches c polls,
      ∃ a : Item, FromMessage c a.1 ∧ 0 < a.2 ∧ batch = Item.records a := by
    intro batch hbatch
    rcases List.mem_filter.mp hbatch with ⟨hmem, hne⟩
    rcases List.mem_flatMap.mp hmem with ⟨poll, -, hparsed⟩
    exact exists_item_of_parsed hparsed (by simpa using hne)
  generalize batches c polls = l at hall ⊢
  induction l with
  | nil => exact ⟨[], rfl, by simp⟩
  | cons batch l ih =>
      rcases hall batch List.mem_cons_self with ⟨a, hfrom, hpos, rfl⟩
      rcases ih fun b hb => hall b (List.mem_cons_of_mem _ hb) with ⟨items, rfl, hitems⟩
      refine ⟨a :: items, rfl, ?_⟩
      intro b hb
      rcases List.mem_cons.mp hb with rfl | hb
      · exact ⟨hfrom, hpos⟩
      · exact hitems b hb

/-! ## The counters number per timestamp and key -/

def itemKey (a : Item) : String × Key := (a.1.syslogTs, keyOf a.1)

/-- The counters `_number` works with, after it has looked at the timestamp. -/
def Counters.at (s : Counters) (ts : String) : Counters :=
  if ts ≠ s.seenTs then { seenTs := ts } else s

lemma number_cons (s : Counters) (first : RawAuthEvent) (rest : List RawAuthEvent) :
    number s (first :: rest) =
      (if (s.at first.syslogTs).seen (keyOf first) = 0 then first :: rest
        else (first :: rest).map fun r =>
          withOccurrence r ((s.at first.syslogTs).seen (keyOf first) + r.occurrence),
        { s.at first.syslogTs with
          seen := Function.update (s.at first.syslogTs).seen (keyOf first)
            ((s.at first.syslogTs).seen (keyOf first) + (first :: rest).length) }) := by
  by_cases hbase : (s.at first.syslogTs).seen (keyOf first) = 0
  · rw [if_pos hbase]
    exact if_pos hbase
  · rw [if_neg hbase]
    exact if_neg hbase

lemma number_records (s : Counters) {a : Item} (hpos : 0 < a.2) :
    number s (Item.records a) =
      ((List.range a.2).map fun n =>
          withOccurrence a.1 ((s.at a.1.syslogTs).seen (keyOf a.1) + n),
        { s.at a.1.syslogTs with
          seen := Function.update (s.at a.1.syslogTs).seen (keyOf a.1)
            ((s.at a.1.syslogTs).seen (keyOf a.1) + a.2) }) := by
  rcases a with ⟨first, count⟩
  cases count with
  | zero => cases hpos
  | succ count =>
      have hlen : (Item.records (first, count + 1)).length = count + 1 := by simp [Item.records]
      have hcons : Item.records (first, count + 1) = withOccurrence first 0 ::
          ((List.range count).map Nat.succ).map (withOccurrence first) := by
        simp [Item.records, List.range_succ_eq_map]
      have hnumber : number s (Item.records (first, count + 1)) =
          (if (s.at first.syslogTs).seen (keyOf first) = 0 then Item.records (first, count + 1)
            else (Item.records (first, count + 1)).map fun r =>
              withOccurrence r ((s.at first.syslogTs).seen (keyOf first) + r.occurrence),
            { s.at first.syslogTs with
              seen := Function.update (s.at first.syslogTs).seen (keyOf first)
                ((s.at first.syslogTs).seen (keyOf first)
                  + (Item.records (first, count + 1)).length) }) := by
        rw [hcons]
        exact number_cons s _ _
      rw [hnumber, hlen]
      refine Prod.ext ?_ rfl
      by_cases hbase : (s.at first.syslogTs).seen (keyOf first) = 0
      · simp [hbase, Item.records]
      · simp only [hbase, if_false, Item.records, List.map_map]
        rfl

/-- Equal elements stand together. -/
def Contiguous {α : Type} (l : List α) : Prop :=
  ∀ before a after, l = before ++ a :: after → a ∈ before → before.getLast? = some a

/-- The counters stand where the counters per timestamp and key do, after batches with the
timestamps `past`. -/
structure Follows (s : Counters) (next : String × Key → ℕ) (past : List String) : Prop where
  seen : ∀ k, s.seen k = next (s.seenTs, k)
  fresh : ∀ ts k, ts ∉ past → next (ts, k) = 0
  last : past ≠ [] → past.getLast? = some s.seenTs

/-- The counters at the next timestamp, which is the current one or has not occurred. -/
lemma Follows.at {s : Counters} {next : String × Key → ℕ} {past : List String}
    (h : Follows s next past) {ts : String} (hts : ts ∈ past → past.getLast? = some ts) (k : Key) :
    (s.at ts).seen k = next (ts, k) := by
  simp only [Counters.at]
  split_ifs with heq
  · have hpast : ts ∉ past := by
      intro hmem
      have hlast := h.last (List.ne_nil_of_mem hmem)
      rw [hts hmem, Option.some.injEq] at hlast
      exact heq hlast
    exact (h.fresh ts k hpast).symm
  · rw [not_not] at heq
    rw [h.seen, heq]

lemma seenTs_at (s : Counters) (ts : String) : (s.at ts).seenTs = ts := by
  simp only [Counters.at]
  split_ifs with heq
  · rfl
  · exact (not_not.mp heq).symm

/-- **The collector numbers like counters for each timestamp and key.** -/
lemma numberBatches_eq (items : List Item) : ∀ (s : Counters) (next : String × Key → ℕ)
    (past : List String), Follows s next past → (∀ a ∈ items, 0 < a.2) →
    Contiguous (past ++ items.map fun a => a.1.syslogTs) →
    (numberBatches s (items.map Item.records)).1 =
      (numberAll itemKey Prod.snd next items).map fun p => withOccurrence p.1.1 p.2 := by
  induction items with
  | nil => intro s next past _ _ _; rfl
  | cons a items ih =>
      intro s next past hfollows hpos hcontig
      have hts : a.1.syslogTs ∈ past → past.getLast? = some a.1.syslogTs :=
        hcontig past a.1.syslogTs _ rfl
      have hat := fun k => hfollows.at hts k
      have hstep : Follows (number s (Item.records a)).2
          (Function.update next (itemKey a) (next (itemKey a) + a.2))
          (past ++ [a.1.syslogTs]) := by
        rw [number_records s (hpos a List.mem_cons_self)]
        refine ⟨?_, ?_, ?_⟩
        · intro k
          dsimp only
          rw [seenTs_at]
          by_cases hk : k = keyOf a.1
          · rw [hk, Function.update_self, show (a.1.syslogTs, keyOf a.1) = itemKey a from rfl,
              Function.update_self, hat]
            rfl
          · have hne : (a.1.syslogTs, k) ≠ itemKey a := by
              intro heq
              exact hk (Prod.mk.inj heq).2
            rw [Function.update_of_ne hk, Function.update_of_ne hne, hat]
        · intro ts k hpast
          rw [List.mem_append, List.mem_singleton, not_or] at hpast
          have hne : (ts, k) ≠ itemKey a := by
            intro heq
            exact hpast.2 (Prod.mk.inj heq).1
          rw [Function.update_of_ne hne]
          exact hfollows.fresh ts k hpast.1
        · intro _
          simp [seenTs_at]
      have hrest := ih _ _ _ hstep (fun b hb => hpos b (List.mem_cons_of_mem _ hb))
        (by simpa using hcontig)
      rw [List.map_cons, numberBatches, hrest, numberAll, List.map_append]
      refine congrArg₂ _ ?_ rfl
      rw [number_records s (hpos a List.mem_cons_self), List.map_map]
      refine List.map_congr_left ?_
      intro n _
      show withOccurrence a.1 _ = withOccurrence a.1 _
      rw [hat]
      rfl

/-! ## Attempts and ids -/

/-- The timestamps of the lines that yield records. -/
def stamps (c : Context) (polls : List (List Read)) : List String :=
  (batches c polls).filterMap fun batch => batch.head?.map fun r => r.syslogTs

/-- What the id of a record is made from, apart from its occurrence. -/
structure Attempt where
  syslogTs : String
  host : String
  pid : String
  action : String
  user : String
  ip : String
  port : ℕ
deriving DecidableEq

def attempt (r : RawAuthEvent) : Attempt :=
  ⟨r.syslogTs, r.host, r.pid, r.action, r.user, r.ip, r.port⟩

/-- Ids tell records apart just as attempt and occurrence do. -/
lemma computeId_eq_iff (hash : TextHash) {r r' : RawAuthEvent} (h : SeparatorFree r.identity)
    (h' : SeparatorFree r'.identity)
    (hsha : hash.digest (canonical r.identity) = hash.digest (canonical r'.identity) →
      canonical r.identity = canonical r'.identity) :
    computeId hash.digest r.identity = computeId hash.digest r'.identity ↔
      (attempt r, r.occurrence) = (attempt r', r'.occurrence) := by
  have hidentity : r.identity = r'.identity ↔
      (attempt r, r.occurrence) = (attempt r', r'.occurrence) := by
    simp [RawAuthEvent.identity, attempt, and_assoc]
  rw [← hidentity]
  constructor
  · intro hid
    have heq : (RawEvent.auth r).identity = (RawEvent.auth r').identity :=
      RawEvent.identity_eq_of_canonical trivial h h' (hsha hid)
    exact heq
  · intro heq
    rw [heq]

lemma mem_records {a : Item} {r : RawAuthEvent} (h : r ∈ Item.records a) :
    ∃ n, r = withOccurrence a.1 n := by
  rcases List.mem_map.mp h with ⟨n, -, rfl⟩
  exact ⟨n, rfl⟩

lemma first_mem_records {a : Item} (hpos : 0 < a.2) : withOccurrence a.1 0 ∈ Item.records a :=
  List.mem_map.mpr ⟨0, List.mem_range.mpr hpos, rfl⟩

/-- What the first record of each line has, if all its records have it. -/
lemma filterMap_head_records {β : Type} {items : List Item} (g : RawAuthEvent → β)
    (hg : ∀ r n, g (withOccurrence r n) = g r) (hpos : ∀ a ∈ items, 0 < a.2) :
    (items.map Item.records).filterMap (fun batch => batch.head?.map g) =
      items.map fun a => g a.1 := by
  have hhead : ∀ a ∈ items, (Item.records a).head?.map g = some (g a.1) := by
    intro a ha
    rw [Item.records, List.head?_map, List.head?_range, if_neg (hpos a ha).ne']
    exact congrArg some (hg a.1 0)
  rw [List.filterMap_map, ← List.filterMap_eq_map]
  exact List.filterMap_congr hhead

lemma stamps_eq {c : Context} {polls : List (List Read)} {items : List Item}
    (hbatches : batches c polls = items.map Item.records) (hpos : ∀ a ∈ items, 0 < a.2) :
    stamps c polls = items.map fun a => a.1.syslogTs := by
  rw [stamps, hbatches]
  exact filterMap_head_records _ (fun _ _ => rfl) hpos

/-- Distinctness depends only on which elements are told apart. -/
lemma nodup_map_iff {α β γ : Type} {l : List α} {f : α → β} {g : α → γ}
    (h : ∀ a ∈ l, ∀ b ∈ l, f a = f b ↔ g a = g b) : (l.map f).Nodup ↔ (l.map g).Nodup := by
  rw [List.Nodup, List.Nodup, List.pairwise_map, List.pairwise_map]
  exact List.Pairwise.iff_of_mem fun ha hb => not_congr (h _ ha _ hb)

/-- What a fresh collector passes on, if equal timestamps stand together. -/
lemma drainPolls_eq_numberAll {c : Context} {polls : List (List Read)} {items : List Item}
    (hcontig : Contiguous (stamps c polls)) (hbatches : batches c polls = items.map Item.records)
    (hpos : ∀ a ∈ items, 0 < a.2) :
    (drainPolls c {} polls).1 =
      (numberAll itemKey Prod.snd (fun _ => 0) items).map fun p => withOccurrence p.1.1 p.2 := by
  have hstart : Follows {} (fun _ => 0) [] :=
    ⟨fun _ => rfl, fun _ _ _ => rfl, fun h => absurd rfl h⟩
  rw [drainPolls_eq, hbatches]
  refine numberBatches_eq items {} _ [] hstart hpos ?_
  rwa [List.nil_append, ← stamps_eq hbatches hpos]

/-- **The ids of one pass are distinct exactly when equal attempts come with equal messages.** -/
theorem ids_nodup_iff (c : Context) (hash : TextHash) (polls : List (List Read))
    (hcontig : Contiguous (stamps c polls))
    (hsep : ∀ r ∈ (drainPolls c {} polls).1, SeparatorFree r.identity)
    (hsha : ∀ r ∈ (drainPolls c {} polls).1, ∀ r' ∈ (drainPolls c {} polls).1,
      hash.digest (canonical r.identity) = hash.digest (canonical r'.identity) →
        canonical r.identity = canonical r'.identity) :
    (emittedIds hash (drainPolls c {} polls).1).Nodup ↔
      ∀ r ∈ (batches c polls).flatten, ∀ r' ∈ (batches c polls).flatten,
        attempt r = attempt r' → r.message = r'.message := by
  rcases exists_items c polls with ⟨items, hbatches, hitems⟩
  have hpos : ∀ a ∈ items, 0 < a.2 := fun a ha => (hitems a ha).2
  rw [drainPolls_eq_numberAll hcontig hbatches hpos] at hsep hsha ⊢
  set copies := numberAll itemKey Prod.snd (fun _ => 0) items with hcopies
  have hmem : ∀ p ∈ copies, withOccurrence p.1.1 p.2 ∈
      copies.map fun p => withOccurrence p.1.1 p.2 :=
    fun p hp => List.mem_map.mpr ⟨p, hp, rfl⟩
  have hids : emittedIds hash (copies.map fun p => withOccurrence p.1.1 p.2) =
      copies.map fun p => computeId hash.digest (withOccurrence p.1.1 p.2).identity := by
    have hfrom : ∀ r ∈ copies.map fun p => withOccurrence p.1.1 p.2, FromMessage c r := by
      intro r hr
      rcases List.mem_map.mp hr with ⟨p, hp, rfl⟩
      exact (hitems p.1 (mem_of_mem_numberAll hp)).1.withOccurrence p.2
    rw [emittedIds_eq hash hfrom, List.map_map]
    rfl
  have htold : ∀ p ∈ copies, ∀ q ∈ copies,
      computeId hash.digest (withOccurrence p.1.1 p.2).identity
          = computeId hash.digest (withOccurrence q.1.1 q.2).identity ↔
        (attempt p.1.1, p.2) = (attempt q.1.1, q.2) := by
    intro p hp q hq
    exact computeId_eq_iff hash (hsep _ (hmem p hp)) (hsep _ (hmem q hq))
      (hsha _ (hmem p hp) _ (hmem q hq))
  have hlabel : ∀ a ∈ items, ∀ b ∈ items, itemKey a = itemKey b → attempt a.1 = attempt b.1 := by
    intro a ha b hb hkey
    simp only [itemKey, keyOf, Prod.mk.injEq] at hkey
    rcases hkey with ⟨hts, hhost, hpid, hmessage, haction⟩
    rcases (hitems a ha).1.eq_of_message_eq (hitems b hb).1 hmessage with ⟨huser, hip, hport⟩
    rw [attempt, attempt, hts, hhost, hpid, haction, huser, hip, hport]
  have hnodup : (copies.map fun p => (attempt p.1.1, p.2)).Nodup ↔
      ∀ a ∈ items, ∀ b ∈ items, attempt a.1 = attempt b.1 → itemKey a = itemKey b :=
    nodup_labels_iff (fun a : Item => attempt a.1) (fun _ _ => rfl) hpos hlabel
  rw [hids, nodup_map_iff htold, hnodup, hbatches]
  constructor
  · intro hkeys r hr r' hr' hattempt
    rcases List.mem_flatten.mp hr with ⟨_, hmem, hr⟩
    rcases List.mem_flatten.mp hr' with ⟨_, hmem', hr'⟩
    rcases List.mem_map.mp hmem with ⟨a, ha, rfl⟩
    rcases List.mem_map.mp hmem' with ⟨b, hb, rfl⟩
    rcases mem_records hr with ⟨n, rfl⟩
    rcases mem_records hr' with ⟨m, rfl⟩
    have hkey := hkeys a ha b hb hattempt
    simp only [itemKey, keyOf, Prod.mk.injEq] at hkey
    exact hkey.2.2.2.1
  · intro hmessages a ha b hb hattempt
    have hmessage := hmessages _
      (List.mem_flatten_of_mem (List.mem_map_of_mem ha) (first_mem_records (hpos a ha))) _
      (List.mem_flatten_of_mem (List.mem_map_of_mem hb) (first_mem_records (hpos b hb))) hattempt
    simp only [attempt, Attempt.mk.injEq] at hattempt
    rcases hattempt with ⟨hts, hhost, hpid, haction, -⟩
    simp only [itemKey, keyOf]
    rw [hts, hhost, hpid, haction, show a.1.message = b.1.message from hmessage]

/-! ## Attempts on one connection, in one second -/

def sampleContext : Context where
  unicode := PyText.ascii

/-- A line of the sample log, read a second after it was written. -/
lemma sampleYear_valid : 1 ≤ 2026 ∧ 2026 ≤ 9999 := by decide

lemma sampleMonth_valid : 1 ≤ 6 ∧ 6 ≤ 12 := by decide

lemma sampleDay_valid : 1 ≤ 16 ∧ 16 ≤ Calendar.daysInMonth 2026 6 := by decide

def sampleRead (message : String) : Read where
  line := ("Jun 16 12:00:00 web sshd[9]: " ++ message).toList
  now := ⟨2026, 6, 16, 12, 0, 1, 0, sampleYear_valid, sampleMonth_valid, sampleDay_valid, by decide⟩

def failedPublickey : Read := sampleRead "Failed publickey for root from 1.2.3.4 port 22 ssh2"

def failedPassword : Read := sampleRead "Failed password for root from 1.2.3.4 port 22 ssh2"

def twiceFailedPassword : Read :=
  sampleRead "message repeated 2 times: [ Failed password for root from 1.2.3.4 port 22 ssh2]"

lemma firstDigest_hex :
    IsHexDigest "c5ad2f9d967eb887d503d50487c3412d829d0871805b3ddc2fdb6ee20bb49f03" := by
  decide +kernel

/-- SHA-256 on the texts of the sample records. -/
def sampleHash : TextHash where
  digest text :=
    if text = "Jun 16 12:00:00\x1fweb\x1f9\x1fssh_login_failed\x1froot\x1f1.2.3.4\x1f22\x1f0" then
      "c5ad2f9d967eb887d503d50487c3412d829d0871805b3ddc2fdb6ee20bb49f03"
    else if
      text = "Jun 16 12:00:00\x1fweb\x1f9\x1fssh_login_failed\x1froot\x1f1.2.3.4\x1f22\x1f1" then
      "0944d52f0eddb743994a9fa257549a90f9304b087c09b8d55ee1a9e0927532b8"
    else "72d9ad9ff2f8d6fb955f52988f9ebdecd0d8d2d0e0e77ddb195fd9ab970f7dbb"
  hex text := by
    split_ifs
    · exact firstDigest_hex
    · decide +kernel
    · decide +kernel

lemma contiguous_of_forall_eq {α : Type} {l : List α} {a : α} (h : ∀ b ∈ l, b = a) :
    Contiguous l := by
  intro before b after hl hmem
  have hall : ∀ x ∈ before, x = b := by
    intro x hx
    rw [h x (by rw [hl]; exact List.mem_append_left _ hx), h b (by rw [hl]; simp)]
  rw [List.getLast?_eq_some_getLast (List.ne_nil_of_mem hmem),
    hall _ (List.getLast_mem (List.ne_nil_of_mem hmem))]

/-- The fields of a sample record, with the message of a failed password. -/
def sampleFields : AuthFields :=
  { occurredAt := 1781611200, host := "web", syslogTs := "Jun 16 12:00:00", pid := "9"
    action := actionFail, outcome := "failure", severity := 4, user := "root", ip := "1.2.3.4"
    port := 22, message := "Failed password for root from 1.2.3.4 port 22 ssh2" }

def passwordRecord : RawAuthEvent := ⟨sampleFields, by decide⟩

def publickeyRecord : RawAuthEvent :=
  ⟨{ sampleFields with message := "Failed publickey for root from 1.2.3.4 port 22 ssh2" },
    by decide⟩

lemma batches_repeated : batches sampleContext [[failedPassword], [twiceFailedPassword]] =
    [[withOccurrence passwordRecord 0],
      [withOccurrence passwordRecord 0, withOccurrence passwordRecord 1]] := by
  decide +kernel

lemma batches_methods : batches sampleContext [[failedPublickey, failedPassword]] =
    [[withOccurrence publickeyRecord 0], [withOccurrence passwordRecord 0]] := by
  decide +kernel

theorem ids_nodup_iff_repeated :
    (emittedIds sampleHash
      (drainPolls sampleContext {} [[failedPassword], [twiceFailedPassword]]).1).Nodup := by
  have hdrain := drainPolls_eq sampleContext {} [[failedPassword], [twiceFailedPassword]]
  have hiff := ids_nodup_iff sampleContext sampleHash [[failedPassword], [twiceFailedPassword]]
  simp only [hdrain, batches_repeated, stamps] at hiff ⊢
  exact (hiff (contiguous_of_forall_eq (a := "Jun 16 12:00:00") (by decide)) (by decide)
    (by decide)).mpr (by decide)

/-- A failed publickey and a failed password on the same connection in the same second have
different messages, so both are numbered 0, and they share an id. -/
theorem ids_not_distinct :
    ¬ ∀ (c : Context) (hash : TextHash) (polls : List (List Read)), Contiguous (stamps c polls) →
      (∀ r ∈ (drainPolls c {} polls).1, SeparatorFree r.identity) →
      (∀ r ∈ (drainPolls c {} polls).1, ∀ r' ∈ (drainPolls c {} polls).1,
        hash.digest (canonical r.identity) = hash.digest (canonical r'.identity) →
          canonical r.identity = canonical r'.identity) →
      (emittedIds hash (drainPolls c {} polls).1).Nodup := by
  intro hclaim
  have hdrain := drainPolls_eq sampleContext {} [[failedPublickey, failedPassword]]
  have hnodup := hclaim sampleContext sampleHash [[failedPublickey, failedPassword]]
  simp only [hdrain, batches_methods, stamps] at hnodup
  have hsame := hnodup (contiguous_of_forall_eq (a := "Jun 16 12:00:00") (by decide)) (by decide)
    (by decide)
  exact absurd hsame (by decide)

end Sentinel.AuthLog
