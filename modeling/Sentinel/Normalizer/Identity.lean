import Sentinel.Library.JoinedText
import Sentinel.Normalizer.Mapper

/-!
# When two records share an event id

`Event.compute_id` joins the identity of a record with the unit separator.  None of the raw models
keeps that character out of a text, and nothing strips it from an executable or a command line, so
the join can be ambiguous.  `id_injective_iff` says exactly when: two records of one source share an
id, and differ, just when their identities consist of the same separator-free pieces, dealt out
differently over the components.
-/

namespace Sentinel

/-- The components of an identity, as they are joined. -/
def identityTexts (parts : List Part) : List (List Char) := parts.map fun part => part.text.toList

/-- The same pieces, dealt out differently over the components. -/
def Ambiguous (parts parts' : List Part) : Prop :=
  JoinedText.pieces unitSeparator (identityTexts parts)
      = JoinedText.pieces unitSeparator (identityTexts parts') ∧
    JoinedText.separators unitSeparator (identityTexts parts)
      ≠ JoinedText.separators unitSeparator (identityTexts parts')

instance (parts parts' : List Part) : Decidable (Ambiguous parts parts') :=
  inferInstanceAs (Decidable (_ ∧ _))

lemma toList_canonical (parts : List Part) :
    (canonical parts).toList = [unitSeparator].intercalate (identityTexts parts) := by
  rw [canonical, String.toList_intercalate, String.toList_singleton, List.map_map]
  rfl

lemma canonical_eq_iff {parts parts' : List Part} (h : parts ≠ []) (h' : parts' ≠ []) :
    canonical parts = canonical parts' ↔
      JoinedText.pieces unitSeparator (identityTexts parts)
        = JoinedText.pieces unitSeparator (identityTexts parts') := by
  rw [← String.toList_inj, toList_canonical, toList_canonical]
  exact JoinedText.intercalate_eq_iff _ (by simpa [identityTexts] using h)
    (by simpa [identityTexts] using h')

lemma toString_injective : Function.Injective (fun n : ℕ => (toString n).toList) := by
  intro m n h
  have hdigits : Nat.toDigits 10 m = Nat.toDigits 10 n := by
    simpa [Nat.toString_eq_repr, Nat.repr_eq_ofList_toDigits] using h
  rw [← Nat.ofDigitChars_toDigits (b := 10) (n := m) (by decide) (by decide), hdigits,
    Nat.ofDigitChars_toDigits (by decide) (by decide)]

lemma notMem_toString (n : ℕ) {ch : Char} (hch : ch.isDigit = false) :
    ch ∉ (toString n).toList := by
  intro h
  have hmem : ch ∈ Nat.toDigits 10 n := by
    simpa [Nat.toString_eq_repr, Nat.repr_eq_ofList_toDigits] using h
  have hdigit : ch.isDigit = true := Nat.isDigit_of_mem_toDigits (by decide) (by decide) hmem
  rw [hdigit] at hch
  cases hch

/-- No text of an identity contains the separator. -/
def SeparatorFree (parts : List Part) : Prop :=
  ∀ text, Part.str text ∈ parts → unitSeparator ∉ text.toList

lemma SeparatorFree.notMem {parts : List Part} (h : SeparatorFree parts) {part : Part}
    (hpart : part ∈ parts) : unitSeparator ∉ part.text.toList := by
  cases part with
  | str text => exact h text hpart
  | int n => exact notMem_toString n (by decide)

instance (parts : List Part) : Decidable (SeparatorFree parts) :=
  decidable_of_iff (∀ part ∈ parts, unitSeparator ∉ part.text.toList)
    ⟨fun h text htext => h (.str text) htext, fun h _ hpart => h.notMem hpart⟩

lemma SeparatorFree.pieces_eq {parts : List Part} (h : SeparatorFree parts) (hne : parts ≠ []) :
    JoinedText.pieces unitSeparator (identityTexts parts) = identityTexts parts := by
  refine JoinedText.pieces_eq_self _ (by simpa [identityTexts] using hne) ?_
  intro text htext
  rcases List.mem_map.mp htext with ⟨part, hpart, rfl⟩
  exact h.notMem hpart

namespace RawEvent

lemma identity_ne_nil (raw : RawEvent) : raw.identity ≠ [] := by
  cases raw with
  | auth raw => exact List.cons_ne_nil _ _
  | process raw => exact List.cons_ne_nil _ _
  | file raw => exact List.cons_ne_nil _ _
  | network raw => exact List.cons_ne_nil _ _

/-- Records of one source have components of the same kinds, so the texts tell them apart. -/
lemma identity_eq_of_texts {raw raw' : RawEvent} (hsource : SameSource raw raw')
    (h : identityTexts raw.identity = identityTexts raw'.identity) :
    raw.identity = raw'.identity := by
  have hstr : ∀ s t : String, (Part.str s).text.toList = (Part.str t).text.toList → s = t :=
    fun s t hst => String.toList_inj.mp hst
  have hint : ∀ m n : ℕ, (Part.int m).text.toList = (Part.int n).text.toList → m = n :=
    fun m n hmn => toString_injective hmn
  cases raw with
  | auth raw =>
      cases raw' with
      | auth raw' =>
          simp only [identity, RawAuthEvent.identity, identityTexts, List.map_cons, List.map_nil,
            List.cons.injEq] at h
          obtain ⟨h1, h2, h3, h4, h5, h6, h7, h8, -⟩ := h
          simp only [identity, RawAuthEvent.identity]
          rw [hstr _ _ h1, hstr _ _ h2, hstr _ _ h3, hstr _ _ h4, hstr _ _ h5, hstr _ _ h6,
            hint _ _ h7, hint _ _ h8]
      | process _ => cases hsource
      | file _ => cases hsource
      | network _ => cases hsource
  | process raw =>
      cases raw' with
      | process raw' =>
          simp only [identity, RawProcessEvent.identity, identityTexts, List.map_cons,
            List.map_nil, List.cons.injEq] at h
          obtain ⟨h1, h2, h3, h4, h5, -⟩ := h
          simp only [identity, RawProcessEvent.identity]
          rw [hint _ _ h1, hint _ _ h2, hstr _ _ h3, hstr _ _ h4, hstr _ _ h5]
      | auth _ => cases hsource
      | file _ => cases hsource
      | network _ => cases hsource
  | file raw =>
      cases raw' with
      | file raw' =>
          simp only [identity, RawFileEvent.identity, identityTexts, List.map_cons, List.map_nil,
            List.cons.injEq] at h
          obtain ⟨h1, h2, h3, -⟩ := h
          simp only [identity, RawFileEvent.identity]
          rw [hstr _ _ h1, hstr _ _ h2, hstr _ _ h3]
      | auth _ => cases hsource
      | process _ => cases hsource
      | network _ => cases hsource
  | network raw =>
      cases raw' with
      | network raw' =>
          simp only [identity, RawNetworkEvent.identity, identityTexts, List.map_cons,
            List.map_nil, List.cons.injEq] at h
          obtain ⟨h1, h2, h3, h4, h5, h6, h7, -⟩ := h
          simp only [identity, RawNetworkEvent.identity]
          rw [hstr _ _ h1, hstr _ _ h2, hint _ _ h3, hstr _ _ h4, hint _ _ h5, hint _ _ h6,
            hstr _ _ h7]
      | auth _ => cases hsource
      | process _ => cases hsource
      | file _ => cases hsource

/-- Without separators, the joined text tells identities apart. -/
lemma identity_eq_of_canonical {raw raw' : RawEvent} (hsource : SameSource raw raw')
    (h : SeparatorFree raw.identity) (h' : SeparatorFree raw'.identity)
    (hcanonical : canonical raw.identity = canonical raw'.identity) :
    raw.identity = raw'.identity := by
  have hpieces := (canonical_eq_iff raw.identity_ne_nil raw'.identity_ne_nil).mp hcanonical
  rw [h.pieces_eq raw.identity_ne_nil, h'.pieces_eq raw'.identity_ne_nil] at hpieces
  exact identity_eq_of_texts hsource hpieces

/-- **Two records of one source with equal ids have equal identities exactly when their identities
are not ambiguous.**  SHA-256 enters only through the two texts hashed, which are taken not to
collide. -/
theorem id_injective_iff (hash : TextHash) (raw raw' : RawEvent) (hsource : SameSource raw raw')
    (event event' : Event) (hmap : raw.map hash = some event) (hmap' : raw'.map hash = some event')
    (hsha : hash.digest (canonical raw.identity) = hash.digest (canonical raw'.identity) →
      canonical raw.identity = canonical raw'.identity) :
    (event.event.id = event'.event.id → raw.identity = raw'.identity) ↔
      ¬ Ambiguous raw.identity raw'.identity := by
  have hcanonical := canonical_eq_iff raw.identity_ne_nil raw'.identity_ne_nil
  rw [id_of_map hmap, id_of_map hmap']
  constructor
  · rintro hinj ⟨hpieces, hseparators⟩
    refine hseparators ?_
    rw [hinj (congrArg hash.digest (hcanonical.mpr hpieces))]
  · intro hclear hid
    have hpieces := hcanonical.mp (hsha hid)
    have hseparators : JoinedText.separators unitSeparator (identityTexts raw.identity)
        = JoinedText.separators unitSeparator (identityTexts raw'.identity) := by
      by_contra hne
      exact hclear ⟨hpieces, hne⟩
    exact identity_eq_of_texts hsource (JoinedText.eq_of_pieces_eq _ hseparators hpieces)

/-! ## Two process starts -/

/-- A start of one process instance, with some executable and command line. -/
def startFields (executable cmdline : String) : ProcessFields :=
  { occurredAt := 0, host := "web", action := "process_started", severity := 3, pid := 1, ppid := 1
    starttime := 2, comm := "a", cmdline := some cmdline, executable := some executable }

lemma processDigest_hex :
    IsHexDigest "5cedc54232c0b5f2cad2f3b3f7e0e459e4764ca8cc32befa19f5fe9d7053d0ec" := by
  decide +kernel

/-- SHA-256 on the texts below. -/
def processHash : TextHash where
  digest text :=
    if text = "1\x1f2\x1fprocess_started\x1fa\x1fb\x1fc" then
      "5cedc54232c0b5f2cad2f3b3f7e0e459e4764ca8cc32befa19f5fe9d7053d0ec"
    else if text = "1\x1f2\x1fprocess_started\x1fa\x1fb" then
      "6e95061a6ef5dd6e5cefc85925a7be801592a6046e544b9fbb48396303b24fe1"
    else "66fb2b8a049cdad05345367662410f232afa455ecf68b223c4e81d7f18a86ffc"
  hex text := by
    split_ifs
    · exact processDigest_hex
    · decide +kernel
    · decide +kernel

theorem id_injective_iff_clean :
    ∃ event event',
      (RawEvent.process ⟨startFields "a" "b", by decide⟩).map processHash = some event ∧
      (RawEvent.process ⟨startFields "a" "c", by decide⟩).map processHash = some event' ∧
      event.event.id ≠ event'.event.id := by
  have hsome : ((RawEvent.process ⟨startFields "a" "b", by decide⟩).map processHash).isSome ∧
      ((RawEvent.process ⟨startFields "a" "c", by decide⟩).map processHash).isSome := by
    decide
  obtain ⟨event, hevent⟩ := Option.isSome_iff_exists.mp hsome.1
  obtain ⟨event', hevent'⟩ := Option.isSome_iff_exists.mp hsome.2
  refine ⟨event, event', hevent, hevent', ?_⟩
  intro hid
  have hiff := id_injective_iff processHash (.process ⟨startFields "a" "b", by decide⟩)
    (.process ⟨startFields "a" "c", by decide⟩) trivial event event' hevent hevent' (by decide)
  exact absurd (hiff.mpr (by decide) hid) (by decide)

/-- Equal ids do not mean equal identities: an executable and a command line that contain the
separator can be read as another executable and another command line. -/
theorem id_not_injective :
    ¬ ∀ (hash : TextHash) (raw raw' : RawEvent) (event event' : Event), SameSource raw raw' →
      raw.map hash = some event → raw'.map hash = some event' →
      (hash.digest (canonical raw.identity) = hash.digest (canonical raw'.identity) →
        canonical raw.identity = canonical raw'.identity) →
      event.event.id = event'.event.id → raw.identity = raw'.identity := by
  intro hclaim
  have hsome : ((RawEvent.process ⟨startFields "a\x1fb" "c", by decide⟩).map processHash).isSome ∧
      ((RawEvent.process ⟨startFields "a" "b\x1fc", by decide⟩).map processHash).isSome := by
    decide
  obtain ⟨event, hevent⟩ := Option.isSome_iff_exists.mp hsome.1
  obtain ⟨event', hevent'⟩ := Option.isSome_iff_exists.mp hsome.2
  have hid : event.event.id = event'.event.id := by
    rw [id_of_map hevent, id_of_map hevent']
    decide
  have heq := hclaim processHash (.process ⟨startFields "a\x1fb" "c", by decide⟩)
    (.process ⟨startFields "a" "b\x1fc", by decide⟩) event event' trivial hevent hevent' (by decide)
    hid
  exact absurd heq (by decide)

end RawEvent

end Sentinel
