import Sentinel.Collectors.Base
import Sentinel.Detection.ActionIndex
import Sentinel.Normalizer.Raw

/-!
# Padding around a payload

An attacker chooses what stands before or after a payload.  Two places cut a text short: `clip` at
collection, which keeps head and tail around a marker, and `_scan_windows` at matching, which scans
the head and the tail of a long value.  A literal payload at one end of the text is in what either
of them keeps, so padding on one side does not hide it from `contains` or from `regex`.
-/

namespace Sentinel.Engine

/-- The pattern matches exactly the literal `w`: it compiles, and a search finds it where `w`
occurs. -/
structure RegexEngine.Literal (re : RegexEngine) (pattern w : String) : Prop where
  compiles : re.compiles pattern = true
  search_eq : ∀ pos window, re.search pos pattern window =
    if w.toList <:+: window.toList then .hit else .miss

lemma RegexEngine.Literal.search_hit {re : RegexEngine} {pattern w : String}
    (h : re.Literal pattern w) (pos : List ℕ) {window : String}
    (hmem : w.toList <:+: window.toList) : re.search pos pattern window = .hit := by
  rw [h.search_eq, if_pos hmem]

/-- A payload in the only window, or at one end of a value with two, is in one of the windows. -/
lemma exists_scanWindow {w value : String}
    (h : w.toList <:+: value.toList ∧ value.length ≤ maxRegexInput ∨
      Padded w value ∧ w.length ≤ maxRegexInput / 2) :
    ∃ window ∈ scanWindows value, w.toList <:+: window.toList := by
  unfold scanWindows
  split
  case isTrue hshort =>
    refine ⟨value, List.mem_singleton_self value, ?_⟩
    rcases h with ⟨hmem, -⟩ | ⟨hpadded, -⟩
    · exact hmem
    · exact hpadded.isInfix
  case isFalse hlong =>
    rcases h with ⟨-, hshort⟩ | ⟨hpadded, hroom⟩
    · exact absurd hshort hlong
    · have hlength : w.toList.length ≤ maxRegexInput / 2 := by
        rw [String.length_toList]
        exact hroom
      rcases hpadded.prefix_or_suffix with hpre | hsuf
      · refine ⟨_, List.mem_cons_self, ?_⟩
        rw [String.toList_ofList]
        exact (List.prefix_take_iff.mpr ⟨hpre, hlength⟩).isInfix
      · refine ⟨_, List.mem_cons_of_mem _ (List.mem_singleton_self _), ?_⟩
        rw [String.toList_ofList, ← String.length_toList]
        exact (isSuffix_drop hsuf hlength).isInfix

/-- A search that never runs out of time finds what one of the windows has. -/
lemma searchAny_of_mem {search : String → SearchOutcome} {windows : List String}
    (hdone : ∀ window, search window ≠ .timeout)
    (h : ∃ window ∈ windows, search window = .hit) : searchAny search windows = some true := by
  induction windows with
  | nil =>
      obtain ⟨window, hmem, -⟩ := h
      exact absurd hmem (List.not_mem_nil)
  | cons first windows ih =>
      rw [searchAny]
      cases hfirst : search first with
      | hit => rfl
      | timeout => exact absurd hfirst (hdone first)
      | miss =>
          obtain ⟨window, hmem, hhit⟩ := h
          rcases List.mem_cons.mp hmem with rfl | hmem
          · rw [hfirst] at hhit
            cases hhit
          · exact ih ⟨window, hmem, hhit⟩

/-- The regex operator finds the payload. -/
lemma RegexEngine.Literal.regexSearch_eq {re : RegexEngine} {pattern w : String}
    (h : re.Literal pattern w) (pos : List ℕ) {value : String}
    (hvalue : w.toList <:+: value.toList ∧ value.length ≤ maxRegexInput ∨
      Padded w value ∧ w.length ≤ maxRegexInput / 2) :
    regexSearch re pos (.str value) (.scalar (.str pattern)) = some true := by
  show (if re.compiles pattern then _ else _) = _
  rw [if_pos h.compiles]
  refine searchAny_of_mem ?_ ?_
  · intro window
    rw [h.search_eq]
    split <;> simp
  · obtain ⟨window, hwindow, hmem⟩ := exists_scanWindow hvalue
    exact ⟨window, hwindow, h.search_hit pos hmem⟩

def commandLineField : String := "process.command_line"

/-- What `resolve_field` finds at `process.command_line`. -/
lemma resolveField_commandLine (isoformat : ℚ → String) {event : Event} {text : String}
    (h : event.process.commandLine = some text) :
    resolveField commandLineField (event.modelDump isoformat) = .str text := by
  have hpath : fieldPath commandLineField = ["process", "command_line"] := by decide
  rw [resolveField, hpath, resolveParts_cons]
  show resolveParts _ (Event.processView event.process) = _
  rw [Event.processView, h, resolveParts_cons]
  rfl

/-- **Padding on one side cannot push a payload out of a rule's reach.**  `clip` fits the limit and
changes no text that does; a payload with room beside the marker survives it at either end, and so
`contains` and a literal regex are true of the clipped command line; and of an unclipped value of
any length the literal regex is true if the payload fits half of what is scanned. -/
theorem padding_in_reach (re : RegexEngine) (pattern w : String) (hliteral : re.Literal pattern w)
    (text : String) (htext : Padded w text) :
    (∀ limit, 5 ≤ limit → ∀ t, (clip t limit).length ≤ limit ∧
      (t.length ≤ limit → clip t limit = t)) ∧
    (∀ limit, 2 * w.length + 6 ≤ limit → w.toList <:+: (clip text limit).toList) ∧
    (2 * w.length + 6 ≤ maxCommandLine → ∀ isoformat (event : Event),
      event.process.commandLine = some (clip text maxCommandLine) → ∀ pos,
        evaluateCondition re (event.modelDump isoformat) pos
          (.field commandLineField .contains (.scalar (.str w))) = some true ∧
        evaluateCondition re (event.modelDump isoformat) pos
          (.field commandLineField .regex (.scalar (.str pattern))) = some true) ∧
    (w.length ≤ maxRegexInput / 2 → ∀ path view, resolveField path view = .str text → ∀ pos,
      evaluateCondition re view pos (.field path .regex (.scalar (.str pattern))) = some true) := by
  refine ⟨?_, fun limit hroom => htext.isInfix_clip hroom, ?_, ?_⟩
  · exact fun limit hlimit t => ⟨length_clip_le t hlimit, fun hshort => clip_of_short hshort⟩
  · intro hroom isoformat event hevent pos
    have hmem := htext.isInfix_clip hroom
    have hlength : (clip text maxCommandLine).length ≤ maxRegexInput :=
      (length_clip_le text (by decide)).trans (by decide)
    rw [evaluateCondition, evaluateCondition, resolveField_commandLine isoformat hevent]
    exact ⟨congrArg some (decide_eq_true hmem),
      hliteral.regexSearch_eq pos (Or.inl ⟨hmem, hlength⟩)⟩
  · intro hroom path view hview pos
    rw [evaluateCondition, hview]
    exact hliteral.regexSearch_eq pos (Or.inr ⟨htext, hroom⟩)

/-- A payload behind fifty thousand blanks. -/
def paddedShell : String := String.ofList (List.replicate 50000 ' ') ++ "/dev/tcp/"

lemma paddedShell_bounded :
    ∀ c ∈ some (clip paddedShell maxCommandLine), c.length ≤ 10000 := by
  intro c hc
  rw [← Option.some.inj hc]
  exact length_clip_le paddedShell (by decide)

/-- The command that the collector reports. -/
def shellStarted : Event :=
  { failedLogin with
    process :=
      { commandLine := some (clip paddedShell maxCommandLine)
        commandLine_bounded := paddedShell_bounded } }

theorem padding_in_reach_shell :
    evaluateCondition (plainPlatform.regex rootSession)
        (shellStarted.modelDump plainPlatform.isoformat) []
        (.field commandLineField .contains (.scalar (.str "/dev/tcp/"))) = some true ∧
      evaluateCondition (plainPlatform.regex rootSession)
        (shellStarted.modelDump plainPlatform.isoformat) []
        (.field commandLineField .regex (.scalar (.str "/dev/tcp/"))) = some true ∧
      evaluateCondition (plainPlatform.regex rootSession) [("message", .str paddedShell)] []
        (.field "message" .regex (.scalar (.str "/dev/tcp/"))) = some true := by
  have hliteral : (plainPlatform.regex rootSession).Literal "/dev/tcp/" "/dev/tcp/" :=
    ⟨rfl, fun _ _ => rfl⟩
  obtain ⟨-, -, hclipped, hwhole⟩ := padding_in_reach (plainPlatform.regex rootSession) "/dev/tcp/"
    "/dev/tcp/" hliteral paddedShell ⟨_, Or.inr rfl⟩
  obtain ⟨hcontains, hregex⟩ :=
    hclipped (by decide) plainPlatform.isoformat shellStarted rfl []
  refine ⟨hcontains, hregex, hwhole (by decide) "message" _ ?_ []⟩
  have hpath : fieldPath "message" = ["message"] := by decide
  rw [resolveField, hpath]
  rfl

end Sentinel.Engine
