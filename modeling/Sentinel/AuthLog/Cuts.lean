import Sentinel.AuthLog.Failures
import Sentinel.AuthLog.Hidden
import Sentinel.Library.Utf8

/-!
# Lines and reads

The tail drops a partial line of more than `_MAX_LINE_LEN` bytes, "too long to ever parse".  The
parser refuses a line of more than `_MAX_LINE_LEN` characters, and a character may have several
bytes.  So a line with more bytes than characters may be analysed if one read has all of it, and
dropped if a read ends in it.  `cut_independent_iff` says that this is the only way in which what is
detected depends on the reads.
-/

namespace Sentinel.AuthLog

open Lines Tail Calendar PyText

/-! ## Cutting a log -/

/-- The lines that the tail gives out for some chunks, and the tail after them. -/
def drain (decode : Bytes → List Char) : Tail → List Bytes → List (List Char) × Tail
  | t, [] => ([], t)
  | t, chunk :: chunks =>
      ((t.split decode chunk).1 ++ (drain decode (t.split decode chunk).2 chunks).1,
        (drain decode (t.split decode chunk).2 chunks).2)

/-- Chunks as the reads of a log may return them. -/
structure Cutting (content : Bytes) (chunks : List Bytes) : Prop where
  flatten : chunks.flatten = content
  reads : ∀ chunk ∈ chunks, chunk ≠ [] ∧ chunk.length ≤ maxRead

/-- The records of a line; there are none if the parser raises. -/
def recordsOf (c : Context) (now : DateTime) (line : List Char) : List RawAuthEvent :=
  (parseAuthRecords c now line).getD []

/-- The records of a log that is read in these chunks. -/
def detected (c : Context) (now : DateTime) (chunks : List Bytes) : List RawAuthEvent :=
  (drain Utf8.decode {} chunks).1.flatMap (recordsOf c now)

/-! ## Lines that have records -/

/-- The line of an authentication event: not too many characters, a header of `sshd`, one of the
known messages, at least once, a time, and fields that the raw model takes. -/
def IsAuthLine (c : Context) (now : DateTime) (line : List Char) : Prop :=
  line.length ≤ maxLineLen ∧
    ∃ syslog body t,
      (syslogRe c.unicode).matchText (line.rdropWhile (· == '\n')) = some syslog ∧
      String.ofList (Match.text syslog .proc) ∈ sshdProcs ∧
      matchBody c.unicode (unwrapRepeat c.unicode (Match.text syslog .msg)).1 = some body ∧
      0 < (unwrapRepeat c.unicode (Match.text syslog .msg)).2 ∧
      (headerTimestamp c now syslog).2 = some (some t) ∧
      (authFields c syslog body (headerTimestamp c now syslog).1
        (unwrapRepeat c.unicode (Match.text syslog .msg)).1 t).Valid

section Records

variable {c : Context} {now : DateTime} {line : List Char}

lemma recordsOf_ne_nil (h : IsAuthLine c now line) : recordsOf c now line ≠ [] := by
  obtain ⟨hlength, syslog, body, t, hsyslog, hproc, hbody, hcount, htime, hvalid⟩ := h
  have hparse : parseAuthRecords c now line =
      some ((List.range (unwrapRepeat c.unicode (Match.text syslog .msg)).2).map
        (withOccurrence ⟨_, hvalid⟩)) := by
    rw [parseAuthRecords, if_neg (Nat.not_lt.mpr hlength), hsyslog]
    simp only [not_not.mpr hproc, if_false, hbody, htime, Option.map_some, RawAuthEvent.build,
      dif_pos hvalid]
  rw [recordsOf, hparse, Option.getD_some]
  intro hnil
  rw [List.map_eq_nil_iff, List.range_eq_nil] at hnil
  omega

lemma isAuthLine_of_recordsOf (h : recordsOf c now line ≠ []) : IsAuthLine c now line := by
  unfold recordsOf parseAuthRecords at h
  split_ifs at h with hlength
  · exact absurd rfl h
  refine ⟨Nat.not_lt.mp hlength, ?_⟩
  cases hsyslog : (syslogRe c.unicode).matchText (line.rdropWhile (· == '\n')) with
  | none =>
      rw [hsyslog] at h
      exact absurd rfl h
  | some syslog =>
      rw [hsyslog] at h
      dsimp only at h
      by_cases hproc : String.ofList (Match.text syslog .proc) ∈ sshdProcs
      swap
      · rw [if_pos hproc] at h
        exact absurd rfl h
      rw [if_neg (not_not.mpr hproc)] at h
      cases hbody : matchBody c.unicode (unwrapRepeat c.unicode (Match.text syslog .msg)).1 with
      | none =>
          rw [hbody] at h
          exact absurd rfl h
      | some body =>
          simp only [hbody] at h
          cases htime : (headerTimestamp c now syslog).2 with
          | none =>
              rw [htime] at h
              exact absurd rfl h
          | some timestamp =>
              simp only [htime, Option.map_some, Option.getD_some] at h
              cases timestamp with
              | none => exact absurd rfl h
              | some t =>
                  by_cases hvalid : (authFields c syslog body (headerTimestamp c now syslog).1
                      (unwrapRepeat c.unicode (Match.text syslog .msg)).1 t).Valid
                  · simp only [RawAuthEvent.build, dif_pos hvalid] at h
                    refine ⟨syslog, body, t, rfl, hproc, hbody, ?_, htime, hvalid⟩
                    by_contra hzero
                    rw [Nat.eq_zero_of_not_pos hzero] at h
                    exact h rfl
                  · simp only [RawAuthEvent.build, dif_neg hvalid] at h
                    exact absurd rfl h

end Records

/-! ## Draining -/

section Drain

variable (decode : Bytes → List Char)

lemma drain_append (t : Tail) (chunks chunks' : List Bytes) :
    drain decode t (chunks ++ chunks') =
      ((drain decode t chunks).1 ++ (drain decode (drain decode t chunks).2 chunks').1,
        (drain decode (drain decode t chunks).2 chunks').2) := by
  induction chunks generalizing t with
  | nil => rfl
  | cons chunk chunks ih =>
      rw [List.cons_append, drain, ih]
      simp only [drain, List.append_assoc]

/-- The lines depend on the partial line and the discard flag only. -/
lemma drain_congr {t t' : Tail} (hbuf : t.buf = t'.buf) (hdiscarding : t.discarding = t'.discarding)
    (chunks : List Bytes) : (drain decode t chunks).1 = (drain decode t' chunks).1 := by
  induction chunks generalizing t t' with
  | nil => rfl
  | cons chunk chunks ih =>
      have hsplit : (t.split decode chunk).1 = (t'.split decode chunk).1 ∧
          (t.split decode chunk).2.buf = (t'.split decode chunk).2.buf ∧
          (t.split decode chunk).2.discarding = (t'.split decode chunk).2.discarding := by
        by_cases hlong : (rest newline (t'.buf ++ chunk)).length > maxLineLen <;>
          simp [Tail.split, hbuf, hdiscarding, hlong]
      rw [drain, drain, hsplit.1, ih hsplit.2.1 hsplit.2.2]

/-- The tail keeps track of what it drains. -/
lemma drain_buffers {stream : Bytes} {headless : Bool} {t : Tail}
    (h : Failures.Buffers stream headless t) (chunks : List Bytes) :
    Failures.Buffers (stream ++ chunks.flatten) headless (drain decode t chunks).2 ∧
      ∃ ended new : List Bytes, (drain decode t chunks).1 = new.map decode ∧
        Failures.consumed headless (stream ++ chunks.flatten) =
          Failures.consumed headless stream ++ ended ∧
        Failures.Sifted ended new := by
  induction chunks generalizing stream t with
  | nil =>
      rw [List.flatten_nil, List.append_nil]
      exact ⟨h, [], [], rfl, (List.append_nil _).symm, Failures.Sifted.refl []⟩
  | cons chunk chunks ih =>
      obtain ⟨hbuffers, ended, new, hlines, hconsumed, hsifted⟩ := h.split decode chunk
      obtain ⟨hbuffers', ended', new', hlines', hconsumed', hsifted'⟩ := ih hbuffers
      rw [List.append_assoc] at hbuffers' hconsumed'
      refine ⟨hbuffers', ended ++ ended', new ++ new', ?_, ?_, hsifted.append hsifted'⟩
      · rw [drain, hlines, hlines', List.map_append]
      · rw [List.flatten_cons, hconsumed', hconsumed, List.append_assoc]

lemma buffers_empty : Failures.Buffers [] false {} := by
  refine ⟨List.not_mem_nil, ?_, ?_⟩
  · intro _
    exact ⟨(rest_of_notMem List.not_mem_nil).symm, fun hheadless => by cases hheadless⟩
  · intro hdiscarding
    cases hdiscarding

/-- No call leaves more than a line in the buffer. -/
lemma length_buf_split_le (t : Tail) (chunk : Bytes) :
    (t.split decode chunk).2.buf.length ≤ maxLineLen := by
  by_cases hlong : (rest newline (t.buf ++ chunk)).length > maxLineLen
  · simp [Tail.split, hlong]
  · have hshort : (rest newline (t.buf ++ chunk)).length ≤ maxLineLen := Nat.not_lt.mp hlong
    simp [Tail.split, hlong, hshort]

lemma length_buf_drain_le {t : Tail} (h : t.buf.length ≤ maxLineLen) (chunks : List Bytes) :
    (drain decode t chunks).2.buf.length ≤ maxLineLen := by
  induction chunks generalizing t with
  | nil => exact h
  | cons chunk chunks ih => exact ih (length_buf_split_le decode t chunk)

/-- **Line splitting is exact for every chunking.**  A fresh tail gives out decodings of lines of
the stream, each at most once and in their order; the lines of at most `maxLineLen` bytes are all
there, and after every call the partial line has at most as many. -/
theorem drained_lines (startAtEnd : Bool) (chunks : List Bytes) :
    ∃ lines last, chunks.flatten = unlines newline lines ++ last ∧
      (∀ line ∈ lines, newline ∉ line) ∧ newline ∉ last ∧
      (∃ given : List Bytes,
        (drain decode { skipHistory := startAtEnd } chunks).1 = given.map decode ∧
        given.Sublist lines ∧ given.filter Failures.short = lines.filter Failures.short) ∧
      ∀ called, called <+: chunks →
        (drain decode { skipHistory := startAtEnd } called).2.buf.length ≤ maxLineLen := by
  obtain ⟨lines, last, hlines, hlast, hstream⟩ := exists_lines newline chunks.flatten
  refine ⟨lines, last, hstream, hlines, hlast, ?_, ?_⟩
  · have hfresh : Failures.Buffers [] false { skipHistory := startAtEnd } :=
      buffers_empty.congr rfl rfl
    obtain ⟨-, ended, given, hgiven, hconsumed, hsifted⟩ := drain_buffers decode hfresh chunks
    have hended : ended = lines := by
      rw [List.nil_append] at hconsumed
      calc ended = complete newline chunks.flatten := hconsumed.symm
        _ = lines := by
            rw [hstream, complete_unlines_append hlines, complete_of_notMem hlast, List.append_nil]
    rw [hended] at hsifted
    exact ⟨given, hgiven, hsifted.sublist, hsifted.kept⟩
  · intro called _
    exact length_buf_drain_le decode (Nat.zero_le _) called

/-- Between two lines the tail keeps nothing. -/
lemma Failures.Buffers.between {stream : Bytes} {t : Tail} (h : Failures.Buffers stream false t)
    (hrest : rest newline stream = []) : t.buf = [] ∧ t.discarding = false := by
  have hdiscarding : t.discarding = false := by
    by_contra hne
    rcases h.dropped (Bool.eq_true_of_not_eq_false hne) with hlong | ⟨hheadless, -⟩
    · rw [hrest] at hlong
      exact absurd hlong (Nat.not_lt_zero _)
    · cases hheadless
  exact ⟨by rw [(h.kept hdiscarding).1, hrest], hdiscarding⟩

end Drain

/-! ## One line, in one read or in two -/

section OneLine

variable (decode : Bytes → List Char) {t : Tail} {line : Bytes}

lemma drain_whole (hline : newline ∉ line) (hbuf : t.buf = [])
    (hdiscarding : t.discarding = false) :
    drain decode t [line ++ [newline]] =
      ([decode line], { t with buf := [], discarding := false }) := by
  have hunlines : unlines newline [line] = line ++ [newline] := by simp [unlines]
  have hfree : ∀ l ∈ [line], newline ∉ l := by simpa using hline
  have hcomplete := complete_unlines hfree
  have hrest := rest_unlines hfree
  rw [hunlines] at hcomplete hrest
  simp [drain, Tail.split, hbuf, hdiscarding, hcomplete, hrest]

lemma drain_cut (hline : newline ∉ line) (hlong : maxLineLen < line.length) (hbuf : t.buf = [])
    (hdiscarding : t.discarding = false) :
    drain decode t [line, [newline]] =
      ([], { t with buf := [], discarding := false, skipped := t.skipped + 1 }) := by
  have hfirst : t.split decode line =
      ([], { t with buf := [], discarding := true, skipped := t.skipped + 1 }) := by
    simp [Tail.split, hbuf, hdiscarding, complete_of_notMem hline, rest_of_notMem hline, hlong]
  have hfree : ∀ l ∈ [[]], newline ∉ l := by simp
  have hcomplete : complete newline [newline] = [[]] := complete_unlines hfree
  have hrest : rest newline [newline] = [] := rest_unlines hfree
  rw [drain, hfirst]
  simp [drain, Tail.split, hcomplete, hrest]

end OneLine

/-- One byte at a time. -/
def singles (bytes : Bytes) : List Bytes := bytes.map fun b => [b]

lemma flatten_singles (bytes : Bytes) : (singles bytes).flatten = bytes :=
  List.flatMap_singleton' bytes

lemma reads_singles (bytes : Bytes) :
    ∀ chunk ∈ singles bytes, chunk ≠ [] ∧ chunk.length ≤ maxRead := by
  intro chunk hchunk
  obtain ⟨b, -, rfl⟩ := List.mem_map.mp hchunk
  exact ⟨List.cons_ne_nil b [], (by decide +kernel : 1 ≤ maxRead)⟩

lemma flatMap_filter_of_nil {α β : Type*} {f : α → List β} {p : α → Bool} {l : List α}
    (h : ∀ a ∈ l, p a = false → f a = []) : (l.filter p).flatMap f = l.flatMap f := by
  induction l with
  | nil => rfl
  | cons a l ih =>
      have htail := ih fun b hb => h b (List.mem_cons_of_mem a hb)
      cases ha : p a with
      | true => rw [List.filter_cons_of_pos ha, List.flatMap_cons, List.flatMap_cons, htail]
      | false =>
          rw [List.filter_cons_of_neg (Bool.eq_false_iff.mp ha), List.flatMap_cons, htail,
            h a List.mem_cons_self ha, List.nil_append]

/-- A line that is analysed in one read and dropped in two. -/
lemma exists_cuttings (c : Context) (now : DateTime) {content : Bytes} {line : Bytes}
    (hmem : line ∈ complete newline content) (hlong : maxLineLen < line.length)
    (hauth : IsAuthLine c now (Utf8.decode line)) :
    ∃ chunks chunks', Cutting content chunks ∧ Cutting content chunks' ∧
      detected c now chunks ≠ detected c now chunks' := by
  obtain ⟨lines, last, hfree, hlast, rfl⟩ := exists_lines newline content
  rw [complete_unlines_append hfree, complete_of_notMem hlast, List.append_nil] at hmem
  obtain ⟨before, after, rfl⟩ := List.append_of_mem hmem
  have hline := hfree line hmem
  have hcontent : unlines newline (before ++ line :: after) ++ last =
      unlines newline before ++ ((line ++ [newline]) ++ (unlines newline after ++ last)) := by
    simp [unlines]
  have hne : line ≠ [] := by
    rintro rfl
    exact absurd hlong (Nat.not_lt_zero _)
  -- a character has at most four bytes
  have hlength : line.length + 1 ≤ maxRead := by
    have hbytes := Utf8.length_le_decode line
    have hchars : (Utf8.decode line).length ≤ 8192 := hauth.1
    show line.length + 1 ≤ 1048576
    omega
  -- the tail is between two lines
  obtain ⟨hbuffers, -⟩ := drain_buffers Utf8.decode buffers_empty (singles (unlines newline before))
  rw [List.nil_append, flatten_singles] at hbuffers
  obtain ⟨hbuf, hdiscarding⟩ := hbuffers.between
    (rest_unlines fun l hl => hfree l (List.mem_append_left _ hl))
  have hcutting : ∀ chunks, chunks.flatten = line ++ [newline] →
      (∀ chunk ∈ chunks, chunk ≠ [] ∧ chunk.length ≤ maxRead) →
      Cutting (unlines newline (before ++ line :: after) ++ last)
        (singles (unlines newline before) ++
          (chunks ++ singles (unlines newline after ++ last))) := by
    intro chunks hflatten hreads
    refine ⟨?_, ?_⟩
    · rw [List.flatten_append, List.flatten_append, flatten_singles, flatten_singles, hflatten,
        hcontent]
    · exact List.forall_mem_append.mpr ⟨reads_singles _,
        List.forall_mem_append.mpr ⟨hreads, reads_singles _⟩⟩
  refine ⟨_, _, hcutting [line ++ [newline]] (by simp) ?_, hcutting [line, [newline]] (by simp) ?_,
    ?_⟩
  · simpa using hlength
  · have hlength' : line.length ≤ maxRead := Nat.le_of_succ_le hlength
    have hone : 1 ≤ maxRead := Nat.le_trans (Nat.le_add_left 1 _) hlength
    simpa [hne] using ⟨hlength', hone⟩
  · intro hsame
    simp only [detected, drain_append, drain_whole Utf8.decode hline hbuf hdiscarding,
      drain_cut Utf8.decode hline hlong hbuf hdiscarding, List.flatMap_append] at hsame
    have hrest := List.append_cancel_left hsame
    rw [List.flatMap_singleton, List.flatMap_nil, List.nil_append] at hrest
    refine recordsOf_ne_nil hauth (List.append_left_eq_self.mp (hrest.trans ?_))
    -- only the count of dropped lines differs
    refine congrArg (List.flatMap (recordsOf c now)) ?_
    apply drain_congr <;> rfl

/-- **What is detected does not depend on the reads, unless the line of an authentication event has
more bytes than the tail keeps of a partial line.** -/
theorem cut_independent_iff (c : Context) (now : DateTime) (content : Bytes) :
    (∀ chunks chunks', Cutting content chunks → Cutting content chunks' →
        detected c now chunks = detected c now chunks') ↔
      ∀ line ∈ complete newline content, maxLineLen < line.length →
        ¬ IsAuthLine c now (Utf8.decode line) := by
  constructor
  · intro hall line hmem hlong hauth
    obtain ⟨chunks, chunks', hcutting, hcutting', hdiffer⟩ :=
      exists_cuttings c now hmem hlong hauth
    exact hdiffer (hall chunks chunks' hcutting hcutting')
  · intro hlong
    -- both find the records of the lines that are short enough
    have hshort : ∀ chunks, Cutting content chunks → detected c now chunks =
        ((complete newline content).filter Failures.short).flatMap
          fun line => recordsOf c now (Utf8.decode line) := by
      intro chunks hcutting
      obtain ⟨-, ended, new, hlines, hconsumed, hsifted⟩ :=
        drain_buffers Utf8.decode buffers_empty chunks
      rw [List.nil_append, hcutting.flatten] at hconsumed
      have hended : complete newline content = ended := hconsumed
      rw [hended, ← hsifted.kept, detected, hlines, List.flatMap_map]
      refine (flatMap_filter_of_nil ?_).symm
      intro line hline hdropped
      have hmem : line ∈ complete newline content := hended ▸ hsifted.sublist.subset hline
      have hbytes : maxLineLen < line.length := by
        simpa [Failures.short] using hdropped
      by_contra hrecords
      exact hlong line hmem hbytes (isAuthLine_of_recordsOf hrecords)
    intro chunks chunks' hcutting hcutting'
    rw [hshort chunks hcutting, hshort chunks' hcutting']

/-! ## A line with more bytes than characters -/

/-- `é` -/
def accented : Bytes := [0xc3, 0xa9]

lemma decode_accented (n : ℕ) :
    Utf8.decode (List.replicate n accented).flatten = List.replicate n 'é' := by
  induction n with
  | zero => rfl
  | succ n ih =>
      rw [List.replicate_succ, List.flatten_cons, List.replicate_succ, ← ih]
      rfl

lemma dot_accents (n : ℕ) : ∀ ch ∈ ' ' :: List.replicate n 'é', dot ch = true := by
  intro ch hch
  rcases List.mem_cons.mp hch with rfl | hch
  · decide
  · rw [List.eq_of_mem_replicate hch]
    decide

/-- A login with a key whose comment has `n` accents. -/
def accentedLogin (n : ℕ) : Message := hostileTrailer (List.replicate n 'é') (dot_accents n)

/-- What comes before them. -/
def beforeAccents : List Char :=
  webHeader.text ++ ((accentedLogin 0).shape.opening ++ ((accentedLogin 0).beforeAfter ++ [' ']))

lemma accentedLogin_text (n : ℕ) :
    webHeader.text ++ (accentedLogin n).text = beforeAccents ++ List.replicate n 'é' := by
  rw [Message.text, Message.named_eq]
  show webHeader.text ++ ((accentedLogin 0).shape.opening ++ ((accentedLogin 0).beforeAfter ++
    ' ' :: List.replicate n 'é')) = _
  simp [beforeAccents]

/-- The line of that login. -/
def accentedLine (n : ℕ) : Bytes :=
  asciiEncode beforeAccents ++ (List.replicate n accented).flatten

lemma decode_accentedLine (n : ℕ) :
    Utf8.decode (accentedLine n) = webHeader.text ++ (accentedLogin n).text := by
  have hascii : ∀ b ∈ asciiEncode beforeAccents, b.toNat < 0x80 := by decide +kernel
  have hround : (asciiEncode beforeAccents).map (fun b => Char.ofNat b.toNat) = beforeAccents := by
    decide +kernel
  rw [accentedLine, Utf8.decode_ascii_append hascii, hround, decode_accented, accentedLogin_text]

/-- The line is that of an authentication event if it does not have too many characters. -/
lemma isAuthLine_accents {n : ℕ}
    (hlength : (webHeader.text ++ (accentedLogin n).text).length ≤ maxLineLen) :
    IsAuthLine plainContext noon (Utf8.decode (accentedLine n)) := by
  have hnone : ∀ before ip port,
      ¬ LastOrigin plainContext.unicode (accentedLogin n).trailer.after before ip port := by
    rintro before ip port ⟨⟨tail, htext, horigin⟩, -⟩
    obtain ⟨trailer, rfl, -⟩ := horigin
    have hmem : 'f' ∈ ' ' :: List.replicate n 'é' := by
      rw [show ' ' :: List.replicate n 'é' = _ from htext]
      simp
    rcases List.mem_cons.mp hmem with heq | hmem
    · exact absurd heq (by decide)
    · exact absurd (List.eq_of_mem_replicate hmem) (by decide)
  have hlast := (accentedLogin n).lastOrigin_of_not_after ascii_lawful hnone
  have hbody := ((accentedLogin n).matchBody_text ascii_lawful _).mpr
    ⟨(by decide : (accentedLogin 0).shape.recognised = true), _, _, _,
      (by decide : (accentedLogin 0).user ≠ []), hlast, rfl⟩
  obtain ⟨t, htime⟩ := webHeader_valid.time
  have hvalid := (Header.fields_valid_iff (c := plainContext) ascii_lawful webHeader webHeader_valid
    hlength webClient_inRange "root".toList t).mpr (by decide +kernel : Bounded 1 256 "root")
  have hparse : parseAuthRecords plainContext noon (webHeader.text ++ (accentedLogin n).text) =
      some [withOccurrence ⟨_, hvalid⟩ 0] := by
    rcases Message.parseAuthRecords_message noon ascii_lawful webHeader (c := plainContext)
      (w := .plain) True.intro (accentedLogin n) with ⟨-, hnot⟩ | ⟨hparse, -⟩
    · exact absurd ⟨hlength, True.intro⟩ hnot
    · exact hparse.trans
        (Header.records_of_valid (c := plainContext) webHeader 1 hbody htime hvalid)
  apply isAuthLine_of_recordsOf
  rw [decode_accentedLine, recordsOf, hparse]
  exact List.cons_ne_nil _ _

lemma newline_notMem_accentedLine (n : ℕ) : newline ∉ accentedLine n := by
  intro hmem
  rcases List.mem_append.mp hmem with hmem | hmem
  · exact absurd hmem (by decide +kernel)
  · obtain ⟨bytes, hbytes, hmem⟩ := List.mem_flatten.mp hmem
    rw [List.eq_of_mem_replicate hbytes] at hmem
    exact absurd hmem (by decide)

lemma length_accentedLine (n : ℕ) :
    (accentedLine n).length = beforeAccents.length + 2 * n := by
  simp [accentedLine, asciiEncode, accented, Nat.mul_comm]

lemma length_beforeAccents : beforeAccents.length = 84 := by decide +kernel

/-- A login with 5000 accents, in one read, and with its newline in the next. -/
theorem cut_changes_detection :
    ¬ ∀ (c : Context) (now : DateTime) (content : Bytes) (chunks chunks' : List Bytes),
      Cutting content chunks → Cutting content chunks' →
      detected c now chunks = detected c now chunks' := by
  intro hclaim
  have hlength : (accentedLine 5000).length = 10084 := by
    rw [length_accentedLine, length_beforeAccents]
  have hfree := newline_notMem_accentedLine 5000
  have hauth : IsAuthLine plainContext noon (Utf8.decode (accentedLine 5000)) := by
    apply isAuthLine_accents
    rw [accentedLogin_text, List.length_append, List.length_replicate, length_beforeAccents]
    decide
  generalize accentedLine 5000 = line at hlength hfree hauth
  have hlong : maxLineLen < line.length := by
    rw [hlength]
    decide
  have hone : Cutting (line ++ [newline]) [line ++ [newline]] := by
    refine ⟨by simp, ?_⟩
    simp [hlength, maxRead]
  have htwo : Cutting (line ++ [newline]) [line, [newline]] := by
    have hne : line ≠ [] := by
      rintro rfl
      cases hlength
    refine ⟨by simp, ?_⟩
    simp [hlength, hne, maxRead]
  have hsame := hclaim plainContext noon _ _ _ hone htwo
  rw [detected, detected, drain_whole Utf8.decode hfree rfl rfl,
    drain_cut Utf8.decode hfree hlong rfl rfl, List.flatMap_singleton] at hsame
  exact recordsOf_ne_nil hauth hsame

end Sentinel.AuthLog
