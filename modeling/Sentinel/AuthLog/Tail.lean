import Sentinel.AuthLog.Parser
import Sentinel.Library.Lines

/-!
# Tailing a file

The tail state of `AuthLogCollector` and the operations of `_read_new_lines` on it: opening the file
at the path, reading a chunk, splitting it into lines, flushing what is left of a rotated file and
rewinding a truncated one.  A file is known by its inode.  Decoding a line is a parameter: nothing
here depends on how bytes become characters.

While a tail is in the middle of a file of whole lines, it has given out the lines that end before
its position and keeps the beginning of the next one (`Tail.At`); `Tail.At.read` is what one read
does to that.
-/

namespace Sentinel.AuthLog

open Lines

abbrev Bytes := List UInt8

def newline : UInt8 := 10

/-- `decode("utf-8", errors="replace")` on ASCII bytes. -/
def asciiDecode (bytes : Bytes) : List Char := bytes.map fun b => Char.ofNat b.toNat

def asciiEncode (text : List Char) : Bytes := text.map fun ch => UInt8.ofNat ch.toNat

/-- `_MAX_READ`. -/
def maxRead : ℕ := 2 ^ 20

/-- The file at the path, if there is one, and the contents of all files. -/
structure Disk where
  path : Option ℕ
  content : ℕ → Bytes

structure Tail where
  handle : Option ℕ := none
  pos : ℕ := 0
  buf : Bytes := []
  discarding : Bool := false
  skipHistory : Bool := false
  skipped : ℕ := 0

namespace Tail

variable (decode : Bytes → List Char)

/-- `_open`, of the file `f` at the path. -/
def openLog (disk : Disk) (f : ℕ) (t : Tail) : Tail :=
  if t.skipHistory then
    { t with
      handle := some f
      skipHistory := false
      pos := (disk.content f).length
      -- ending mid-line: the rest of that line is history too
      discarding := if disk.content f = [] then t.discarding
        else (disk.content f).getLast? ≠ some newline }
  else { t with handle := some f }

/-- `_split`. -/
def split (t : Tail) (chunk : Bytes) : List (List Char) × Tail :=
  let ended := complete newline (t.buf ++ chunk)
  let partialLine := rest newline (t.buf ++ chunk)
  let (ended, discarding) :=
    if t.discarding ∧ ended ≠ [] then (ended.tail, false) else (ended, t.discarding)
  if partialLine.length > maxLineLen then
    (ended.map decode, { t with buf := [], discarding := true, skipped := t.skipped + 1 })
  else (ended.map decode, { t with buf := partialLine, discarding := discarding })

/-- `handle.read(_MAX_READ)` at the position of the tail. -/
def chunk (disk : Disk) (f : ℕ) (t : Tail) : Bytes := ((disk.content f).drop t.pos).take maxRead

/-- Read a chunk of the open file `f` and split it. -/
def read (disk : Disk) (f : ℕ) (t : Tail) : List (List Char) × Tail :=
  split decode { t with pos := t.pos + (t.chunk disk f).length } (t.chunk disk f)

/-- `_flush_partial`. -/
def flushPartial (t : Tail) : List (List Char) × Tail :=
  (if t.discarding ∨ t.buf = [] then [] else [decode t.buf],
    { t with buf := [], discarding := false })

/-- `_close` and `_pos = 0`. -/
def close (t : Tail) : Tail := { t with handle := none, pos := 0 }

/-- What `_follow_rotation` does to the tail of a file that was truncated in place. -/
def rewind (t : Tail) : Tail := { t with pos := 0, buf := [], discarding := false }

/-! ## In the middle of a file -/

/-- The tail stands at a position of the file `f`, whose content is given, with the beginning of
the line it is in. -/
structure At (t : Tail) (f : ℕ) (content : Bytes) : Prop where
  handle : t.handle = some f
  pos_le : t.pos ≤ content.length
  buf : t.buf = rest newline (content.take t.pos)
  discarding : t.discarding = false
  skipHistory : t.skipHistory = false

/-- The lines that end before the position of the tail. -/
def ended (t : Tail) (content : Bytes) : List (List Char) :=
  (complete newline (content.take t.pos)).map decode

/-- A log that is written in whole lines, none longer than the parser takes. -/
def WholeLines (lines : List Bytes) : Prop :=
  ∀ line ∈ lines, newline ∉ line ∧ line.length ≤ maxLineLen

instance (lines : List Bytes) : Decidable (WholeLines lines) :=
  inferInstanceAs (Decidable (∀ line ∈ lines, _))

lemma WholeLines.notMem {lines : List Bytes} (h : WholeLines lines) :
    ∀ line ∈ lines, newline ∉ line := fun line hline => (h line hline).1

variable {decode}

/-- A read outside an over-long line that does not get into one. -/
lemma read_eq {disk : Disk} {f : ℕ} {t : Tail} (hdiscarding : t.discarding = false)
    (hrest : (rest newline (t.buf ++ t.chunk disk f)).length ≤ maxLineLen) :
    t.read decode disk f =
      ((complete newline (t.buf ++ t.chunk disk f)).map decode,
        { t with
          pos := t.pos + (t.chunk disk f).length
          buf := rest newline (t.buf ++ t.chunk disk f)
          discarding := false }) := by
  simp [read, split, hdiscarding, Nat.not_lt.mpr hrest]

lemma length_chunk (disk : Disk) (f : ℕ) (t : Tail) :
    (t.chunk disk f).length = min maxRead ((disk.content f).length - t.pos) := by
  rw [chunk, List.length_take, List.length_drop]

lemma take_append_chunk (disk : Disk) (f : ℕ) (t : Tail) :
    (disk.content f).take t.pos ++ t.chunk disk f =
      (disk.content f).take (t.pos + (t.chunk disk f).length) := by
  rw [List.take_add, length_chunk, chunk]
  congr 1
  rw [List.take_eq_take_iff, List.length_drop]
  omega

variable (decode) in
/-- One read that does not end in an over-long line: it gives out the lines that end in the
chunk. -/
lemma At.read_of_short (disk : Disk) {f : ℕ} {t : Tail} (h : At t f (disk.content f))
    (hshort : (rest newline
      ((disk.content f).take (t.pos + (t.chunk disk f).length))).length ≤ maxLineLen) :
    At (t.read decode disk f).2 f (disk.content f) ∧
      (t.read decode disk f).2.pos = t.pos + (t.chunk disk f).length ∧
      ended decode (t.read decode disk f).2 (disk.content f) =
        ended decode t (disk.content f) ++ (t.read decode disk f).1 := by
  have hrest : rest newline (t.buf ++ t.chunk disk f) =
      rest newline ((disk.content f).take (t.pos + (t.chunk disk f).length)) := by
    rw [h.buf, ← rest_append, take_append_chunk]
  rw [read_eq h.discarding (by rw [hrest]; exact hshort)]
  refine ⟨⟨h.handle, ?_, hrest, rfl, h.skipHistory⟩, rfl, ?_⟩
  · have hle := h.pos_le
    simp only [length_chunk]
    omega
  · simp only [ended]
    rw [← take_append_chunk, complete_append, ← h.buf, List.map_append]

variable (decode) in
/-- One read of a file of whole lines. -/
lemma At.read (disk : Disk) {f : ℕ} {t : Tail} {lines : List Bytes} (h : At t f (disk.content f))
    (hcontent : disk.content f = unlines newline lines) (hlines : WholeLines lines) :
    At (t.read decode disk f).2 f (disk.content f) ∧
      (t.read decode disk f).2.pos = t.pos + (t.chunk disk f).length ∧
      ended decode (t.read decode disk f).2 (disk.content f) =
        ended decode t (disk.content f) ++ (t.read decode disk f).1 :=
  h.read_of_short decode disk
    (length_rest_le hlines ((List.take_append_drop _ _).trans hcontent))

/-- A short read ends at the end of the file. -/
lemma pos_of_short (disk : Disk) {f : ℕ} {t : Tail} (h : t.pos ≤ (disk.content f).length)
    (hshort : (t.chunk disk f).length < maxRead) :
    t.pos + (t.chunk disk f).length = (disk.content f).length := by
  rw [length_chunk] at hshort ⊢
  omega

lemma ended_of_pos_eq {t : Tail} {lines : List Bytes} (hlines : WholeLines lines)
    (hpos : t.pos = (unlines newline lines).length) :
    ended decode t (unlines newline lines) = lines.map decode := by
  rw [ended, hpos, List.take_length, complete_unlines hlines.notMem]

/-- At the end of a file of whole lines nothing is left to flush. -/
lemma At.buf_eq_nil {t : Tail} {f : ℕ} {lines : List Bytes} (h : At t f (unlines newline lines))
    (hlines : WholeLines lines) (hpos : t.pos = (unlines newline lines).length) : t.buf = [] := by
  rw [h.buf, hpos, List.take_length, rest_unlines hlines.notMem]

/-- The file grows behind the tail. -/
lemma At.append {t : Tail} {f : ℕ} {content : Bytes} (h : At t f content) (more : Bytes) :
    At t f (content ++ more) := by
  refine ⟨h.handle, ?_, ?_, h.discarding, h.skipHistory⟩
  · rw [List.length_append]
    exact Nat.le_add_right_of_le h.pos_le
  · rw [h.buf, List.take_append_of_le_length h.pos_le]

lemma ended_append {t : Tail} {content : Bytes} (h : t.pos ≤ content.length) (more : Bytes) :
    ended decode t (content ++ more) = ended decode t content := by
  rw [ended, ended, List.take_append_of_le_length h]

end Tail

/-- Lines that carry the number of where they were read from: adding those of `f` changes what there
is of `f` only. -/
lemma linesOf_append (l : List (ℕ × List Char)) (f g : ℕ) (lines : List (List Char)) :
    ((l ++ lines.map fun line => (f, line)).filter fun p => p.1 = g).map (fun p => p.2) =
      (l.filter fun p => p.1 = g).map (fun p => p.2) ++ if f = g then lines else [] := by
  by_cases hfg : f = g
  · simp [hfg, List.filter_map, Function.comp_def]
  · simp [hfg, List.filter_map, Function.comp_def]

end Sentinel.AuthLog
