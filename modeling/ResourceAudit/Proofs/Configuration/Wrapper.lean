import ResourceAudit.Proofs.Configuration.Declarations
import ResourceAudit.Proofs.Evaluation.Jobs

/-!
# The wrapper of a document

A sole `resource` key is looked through. Where the key stands more than once it is taken for a
type, and the types in its blocks for names: the resources declared in the blocks are then seen by
no check of their own types. One key with all the maps, and one key for each block, make the same
configuration exactly if there is one block or nothing else was declared that way anyhow
(`ofJson_wrappedEach_eq_ok_iff`).
-/

namespace ResourceAudit

/-! ## Documents under wrappers -/

/-- A block of a document: a map, or a list of maps. -/
inductive Json.IsBlock : Json → Prop
  | map (entries : List (String × Json)) : IsBlock (.object entries)
  | maps (maps : List (List (String × Json))) : IsBlock (.list (maps.map .object))

/-- The maps of a block, in order. -/
def mapsOf : Json → List Json
  | .list items => items
  | other => [other]

/-- The document with one `resource` key for each block. -/
def wrappedEach (blocks : List Json) : Json := .object (blocks.map fun block => ("resource", block))

/-- The document with one `resource` key for the maps of all blocks. -/
def wrappedOnce (blocks : List Json) : Json :=
  .object [("resource", .list (blocks.flatMap mapsOf))]

/-- The entries of the blocks, each as a resource of type `resource` that is named for its type. -/
def typesAsNames (blocks : List Json) : List Declaration :=
  (blocks.flatMap entriesOf).map fun entry => ⟨"resource", entry.1, entry.2⟩

theorem mergedEntries_append (block : String) (items rest : List Json) :
    mergedEntries block (items ++ rest) =
      mergedEntries block items >>= fun entries =>
        (mergedEntries block rest).map (entries ++ ·) := by
  induction items with
  | nil =>
      rw [List.nil_append, mergedEntries]
      cases mergedEntries block rest <;> rfl
  | cons item items ih =>
      cases item with
      | object es =>
          rw [List.cons_append, mergedEntries, ih, mergedEntries]
          cases mergedEntries block items with
          | error e => rfl
          | ok entries =>
              cases mergedEntries block rest <;> simp [bind, Except.bind, Except.map]
      | _ => rfl

namespace Json.IsBlock

variable {b : Json}

theorem mergedEntries_mapsOf (h : b.IsBlock) (block : String) :
    mergedEntries block (mapsOf b) = .ok (entriesOf b) := by
  cases h with
  | map entries => simp [mapsOf, mergedEntries, entriesOf, Except.map]
  | maps maps =>
      induction maps with
      | nil => rfl
      | cons m rest ih =>
          simp only [mapsOf] at ih
          simp only [mapsOf, List.map_cons, mergedEntries, ih, Except.map, entriesOf,
            List.flatMap_cons]

theorem blockEntries_eq (h : b.IsBlock) (block : String) :
    blockEntries block b = .ok (entriesOf b) := by
  have hmerged := h.mergedEntries_mapsOf block
  cases h with
  | map entries => rfl
  | maps maps => exact hmerged

end Json.IsBlock

variable {blocks : List Json}

theorem mergedEntries_flatMap_mapsOf (h : ∀ b ∈ blocks, b.IsBlock) (block : String) :
    mergedEntries block (blocks.flatMap mapsOf) = .ok (blocks.flatMap entriesOf) := by
  induction blocks with
  | nil => rfl
  | cons b rest ih =>
      have hb := (h b List.mem_cons_self).mergedEntries_mapsOf block
      have hrest := ih fun b' hb' => h b' (List.mem_cons_of_mem _ hb')
      rw [List.flatMap_cons, mergedEntries_append, hb, hrest]
      rfl

theorem documentBlocks_wrapper (inner : Json) :
    documentBlocks (.object [("resource", inner)]) = blockEntries wrapperKey inner := rfl

namespace Configuration

theorem ofJson_wrappedOnce (h : ∀ b ∈ blocks, b.IsBlock) :
    ofJson (wrappedOnce blocks) =
      (declarationsIn (blocks.flatMap entriesOf)).map ofDeclarations := by
  have hblocks : documentBlocks (wrappedOnce blocks) = .ok (blocks.flatMap entriesOf) := by
    rw [wrappedOnce, documentBlocks_wrapper]
    exact mergedEntries_flatMap_mapsOf h wrapperKey
  rw [ofJson, declarations, hblocks]
  rfl

/-- Under one key a document says the same with its maps in a list. -/
theorem ofJson_wrappedEach_singleton {b : Json} (h : b.IsBlock) :
    ofJson (wrappedEach [b]) = ofJson (wrappedOnce [b]) := by
  have hblocks : documentBlocks (wrappedEach [b]) = .ok (entriesOf b) := by
    rw [wrappedEach, List.map_singleton, documentBlocks_wrapper]
    exact h.blockEntries_eq wrapperKey
  rw [ofJson_wrappedOnce (by simpa using h), ofJson, declarations, hblocks]
  simp [bind, Except.bind]

theorem declarationsIn_typesAsNames (h : ∀ b ∈ blocks, b.IsBlock) :
    declarationsIn (blocks.map fun block => ("resource", block)) = .ok (typesAsNames blocks) := by
  induction blocks with
  | nil => rfl
  | cons b rest ih =>
      have hb := (h b List.mem_cons_self).blockEntries_eq "resource"
      have hrest := ih fun b' hb' => h b' (List.mem_cons_of_mem _ hb')
      rw [List.map_cons, declarationsIn, hb, hrest]
      simp [bind, Except.bind, pure, Except.pure, typesAsNames]

/-- Under several keys every entry of a block becomes a resource of type `resource`. -/
theorem ofJson_wrappedEach_of_one_lt (h : ∀ b ∈ blocks, b.IsBlock) (hlen : 1 < blocks.length) :
    ofJson (wrappedEach blocks) = .ok (.ofDeclarations (typesAsNames blocks)) := by
  have hblocks : documentBlocks (wrappedEach blocks) =
      .ok (blocks.map fun block => ("resource", block)) := by
    match blocks, hlen with
    | _ :: _ :: _, _ => rfl
  rw [ofJson, declarations, hblocks]
  simp only [bind, Except.bind, declarationsIn_typesAsNames h]
  rfl

theorem type_of_mem_typesAsNames {r : Resource}
    (hr : r ∈ (ofDeclarations (typesAsNames blocks)).resources) : r.type = "resource" := by
  obtain ⟨key, hkey, rfl⟩ := mem_resources_ofDeclarations.1 hr
  obtain ⟨d, hd, rfl⟩ := List.mem_map.1 hkey
  obtain ⟨entry, _, rfl⟩ := List.mem_map.1 hd
  rfl

/-- The wrapper may stand once. Under several keys, what the blocks declare comes to the
configuration as something else, unless all of it was declared as that: with any resource of
another type the two documents differ, and no check but those of type `resource` sees it. -/
theorem ofJson_wrappedEach_eq_ok_iff {c : Configuration} (hne : blocks ≠ [])
    (h : ∀ b ∈ blocks, b.IsBlock) (hc : ofJson (wrappedOnce blocks) = .ok c) :
    (ofJson (wrappedEach blocks) = .ok c ↔
      blocks.length = 1 ∨ c = ofDeclarations (typesAsNames blocks)) ∧
    ((∃ r ∈ c.resources, r.type ≠ "resource") →
      (ofJson (wrappedEach blocks) = .ok c ↔ blocks.length = 1)) ∧
    (1 < blocks.length →
      ofJson (wrappedEach blocks) = .ok (ofDeclarations (typesAsNames blocks)) ∧
      ∀ registry : Registry, ∀ j ∈ registry.jobs (ofDeclarations (typesAsNames blocks)),
        j.resource.type = "resource" ∧ j.checks = registry.checksFor "resource") := by
  have hlen : blocks.length = 1 ∨ 1 < blocks.length := by
    have hpos := List.length_pos_of_ne_nil hne
    omega
  have hiff : ofJson (wrappedEach blocks) = .ok c ↔
      blocks.length = 1 ∨ c = ofDeclarations (typesAsNames blocks) := by
    rcases hlen with hone | hmany
    · obtain ⟨b, rfl⟩ := List.length_eq_one_iff.1 hone
      have hsame := ofJson_wrappedEach_singleton (h b List.mem_cons_self)
      exact ⟨fun _ => Or.inl rfl, fun _ => hsame.trans hc⟩
    · rw [ofJson_wrappedEach_of_one_lt h hmany, Except.ok.injEq]
      constructor
      · exact fun heq => Or.inr heq.symm
      · rintro (hone | heq)
        · omega
        · exact heq.symm
  refine ⟨hiff, ?_, fun hmany => ⟨ofJson_wrappedEach_of_one_lt h hmany, ?_⟩⟩
  · rintro ⟨r, hr, htype⟩
    rw [hiff]
    constructor
    · rintro (hone | rfl)
      · exact hone
      · exact absurd (type_of_mem_typesAsNames hr) htype
    · exact Or.inl
  · intro registry j hj
    obtain ⟨hmem, hchecks, _⟩ := Registry.checks_of_mem_jobs hj
    have htype : j.resource.type = "resource" :=
      type_of_mem_typesAsNames ((resources_perm_ofList _).mem_iff.2 hmem)
    exact ⟨htype, htype ▸ hchecks⟩

/-- Two `resource` keys hide a machine and a network from the checks of their types. -/
theorem ofJson_two_wrappers :
    let blocks : List Json := [.object [("vm", .object [("web", .object [])])],
      .list [.object [("net", .object [("a", .object [])])]]]
    ofJson (wrappedEach blocks) ≠ ofJson (wrappedOnce blocks) ∧
      ofJson (wrappedOnce blocks) = .ok ⟨[⟨"vm", [⟨"vm", "web", .attributes .empty⟩]⟩,
        ⟨"net", [⟨"net", "a", .attributes .empty⟩]⟩]⟩ := by
  intro blocks
  have hblocks : ∀ b ∈ blocks, b.IsBlock := by
    intro b hb
    rcases List.mem_cons.1 hb with rfl | hb
    · exact .map _
    · rw [List.mem_singleton.1 hb]
      exact .maps [_]
  refine ⟨fun heq => ?_, by rfl⟩
  have hiff := (ofJson_wrappedEach_eq_ok_iff (by simp [blocks]) hblocks (c := ⟨[⟨"vm",
    [⟨"vm", "web", .attributes .empty⟩]⟩, ⟨"net", [⟨"net", "a", .attributes .empty⟩]⟩]⟩) rfl).2.1
    ⟨⟨"vm", "web", .attributes .empty⟩, by simp [resources], by decide⟩
  exact absurd (hiff.1 heq) (by decide)

end Configuration

end ResourceAudit
