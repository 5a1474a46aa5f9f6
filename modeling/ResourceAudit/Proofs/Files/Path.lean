import ResourceAudit.Files.Path

/-!
# The path above a path

Following a path follows the path above it first (`parent?_eq_some`): the one is the other and at
least one more step.
-/

namespace ResourceAudit.Path

/-! ## Segments -/

theorem segments_of_notMem {s : List Char} (h : '/' ∉ s) : segments s = [s] := by
  induction s with
  | nil => rfl
  | cons c rest ih =>
      rw [List.mem_cons, not_or] at h
      rw [segments, if_neg (Ne.symm h.1), ih h.2]

theorem segments_append (s rest : List Char) :
    segments (s ++ '/' :: rest) = segments s ++ segments rest := by
  induction s with
  | nil => rfl
  | cons c s ih =>
      rw [List.cons_append, segments, segments, ih]
      split
      · rfl
      · cases hs : segments s with
        | nil => exact absurd hs (segments_ne_nil s)
        | cons first others => rfl

theorem segments_append_slash {s : List Char} (h : '/' ∉ s) (rest : List Char) :
    segments (s ++ '/' :: rest) = s :: segments rest := by
  rw [segments_append, segments_of_notMem h, List.singleton_append]

theorem notMem_of_mem_segments {s segment : List Char} (h : segment ∈ segments s) :
    '/' ∉ segment := by
  induction s generalizing segment with
  | nil =>
      rw [segments, List.mem_singleton] at h
      exact h ▸ List.not_mem_nil
  | cons c rest ih =>
      rw [segments] at h
      split at h
      · rcases List.mem_cons.1 h with rfl | h
        · exact List.not_mem_nil
        · exact ih h
      · rename_i hc
        split at h
        · exact absurd ‹_› (segments_ne_nil rest)
        · rename_i s others hrest
          rcases List.mem_cons.1 h with rfl | h
          · rw [List.mem_cons, not_or]
            exact ⟨Ne.symm hc, ih (hrest ▸ List.mem_cons_self)⟩
          · exact ih (hrest ▸ List.mem_cons_of_mem _ h)

theorem segments_joinSegments {first : List Char} {others : List (List Char)}
    (h : ∀ s ∈ first :: others, '/' ∉ s) :
    segments (joinSegments (first :: others)) = first :: others := by
  induction others generalizing first with
  | nil => exact segments_of_notMem (h first List.mem_cons_self)
  | cons s others ih =>
      rw [joinSegments_cons (List.cons_ne_nil s others),
        segments_append_slash (h first List.mem_cons_self),
        ih fun x hx => h x (List.mem_cons_of_mem _ hx)]

/-! ## Paths by their segments -/

theorem ofText?_eq_some {text : String} {first : List Char} {others : List (List Char)}
    (h : segments text.toList = first :: others) (hne : first ≠ [] ∨ others ≠ []) :
    ∃ path, ofText? text = some path ∧ path.fromRoot = first.isEmpty ∧
      path.steps = (first :: others).filterMap Step.ofSegment? := by
  unfold ofText?
  cases htext : text.toList with
  | nil =>
      rw [htext] at h
      cases h
      simp at hne
  | cons c rest =>
      rw [htext] at h
      refine ⟨_, rfl, ?_, by rw [h]⟩
      rw [segments] at h
      split at h
      · rename_i hc
        cases h
        simp [hc]
      · rename_i hc
        split at h
        · cases h
          simp [hc]
        · cases h
          simp [hc]

theorem isSome_ofSegment? {segment : List Char} (h : isIdle segment = false) :
    ∃ step, Step.ofSegment? segment = some step := by
  unfold Step.ofSegment?
  split
  · cases h
  · cases h
  · exact ⟨_, rfl⟩
  · exact ⟨_, rfl⟩

/-! ## The path above -/

theorem eq_append_dropWhile {p : List Char → Bool} (l : List (List Char)) :
    ∃ skipped, l = skipped ++ l.dropWhile p :=
  ⟨l.takeWhile p, List.takeWhile_append_dropWhile.symm⟩

/-- The text of the path that a path's first segment and some further ones make. -/
def higherText (first : List Char) : List (List Char) → String
  | [] => if first.isEmpty then "/" else String.ofList first
  | kept => String.ofList (joinSegments (first :: kept))

/-- The segments of a path are those of the path above it, and some more with a step among them. -/
theorem segments_of_parent? {text above : String} (h : parent? text = some above)
    (hne : above.isEmpty = false) :
    ∃ first kept more, segments text.toList = first :: (kept ++ more) ∧
      (∃ segment ∈ more, isIdle segment = false) ∧ above = higherText first kept := by
  unfold parent? at h
  split at h
  · cases h
  · rename_i first others hsegments
    split at h
    · rename_i last before hdrop
      have hlast := List.head?_dropWhile_not isIdle others.reverse
      obtain ⟨skipped, hskipped⟩ := eq_append_dropWhile (p := isIdle) others.reverse
      obtain ⟨idle, hidle⟩ := eq_append_dropWhile (p := isIdle) before
      rw [hdrop] at hskipped hlast
      generalize before.dropWhile isIdle = top at h hidle
      have hothers : others = top.reverse ++ (idle.reverse ++ [last] ++ skipped.reverse) := by
        rw [← List.reverse_reverse others, hskipped, hidle]
        simp
      refine ⟨first, top.reverse, _, hothers ▸ hsegments, ⟨last, by simp, hlast⟩, ?_⟩
      split at h
      · rename_i htop
        rw [htop]
        exact (Option.some.inj h).symm
      · rename_i hkept
        rw [higherText]
        · exact (Option.some.inj h).symm
        · exact hkept
    · split at h
      · cases h
      · cases h
        cases hne

theorem ofText?_higherText {first : List Char} {kept : List (List Char)}
    (h : ∀ s ∈ first :: kept, '/' ∉ s) :
    ∃ path, ofText? (higherText first kept) = some path ∧ path.fromRoot = first.isEmpty ∧
      path.steps = (first :: kept).filterMap Step.ofSegment? := by
  cases kept with
  | nil =>
      cases first with
      | nil => exact ⟨_, rfl, rfl, rfl⟩
      | cons c s =>
          have hsegments : segments (c :: s) = [c :: s] :=
            segments_of_notMem (h _ List.mem_cons_self)
          exact ofText?_eq_some (by simpa [higherText] using hsegments)
            (.inl (List.cons_ne_nil c s))
  | cons s kept =>
      have hsegments := segments_joinSegments h
      exact ofText?_eq_some (by simpa [higherText] using hsegments) (.inr (List.cons_ne_nil s kept))

theorem parent?_eq_some {text above : String} (h : parent? text = some above)
    (hne : above.isEmpty = false) :
    ∃ path higher more, ofText? text = some path ∧ ofText? above = some higher ∧
      path.fromRoot = higher.fromRoot ∧ path.steps = higher.steps ++ more ∧ more ≠ [] := by
  obtain ⟨first, kept, more, hsegments, ⟨segment, hmem, hstep⟩, rfl⟩ := segments_of_parent? h hne
  have hplain : ∀ s ∈ first :: kept, '/' ∉ s := by
    intro s hs
    refine notMem_of_mem_segments (s := text.toList) ?_
    rw [hsegments, ← List.cons_append]
    exact List.mem_append_left _ hs
  have hsome : kept ++ more ≠ [] := by
    rintro hnil
    rw [(List.append_eq_nil_iff.1 hnil).2] at hmem
    cases hmem
  obtain ⟨path, hpath, hroot, hsteps⟩ := ofText?_eq_some hsegments (.inr hsome)
  obtain ⟨higher, hhigher, hroot', hsteps'⟩ := ofText?_higherText hplain
  refine ⟨path, higher, more.filterMap Step.ofSegment?, hpath, hhigher,
    hroot.trans hroot'.symm, ?_, ?_⟩
  · rw [hsteps, hsteps', ← List.cons_append, List.filterMap_append]
  · obtain ⟨step, hsegment⟩ := isSome_ofSegment? hstep
    exact List.ne_nil_of_mem (List.mem_filterMap.2 ⟨segment, hmem, hsegment⟩)

/-! ## Paths and those above them -/

theorem withAncestors_eq_cons {text : String} (h : text.isEmpty = false) :
    ∃ above, withAncestors text = text :: above := by
  cases hsegments : segments text.toList with
  | nil => exact absurd hsegments (segments_ne_nil _)
  | cons s others =>
      rw [withAncestors, hsegments, List.length_cons, chainUp, h]
      cases parent? text with
      | none => exact ⟨[], rfl⟩
      | some above => exact ⟨chainUp others.length above, rfl⟩

end ResourceAudit.Path
