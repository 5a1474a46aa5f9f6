import ResourceAudit.Proofs.Configuration.Respelling

/-!
# The outline of a document

The outline of a document is all of it but the bodies. It alone decides whether the document is
accepted: it has to be an object of blocks, in a sole wrapper or not, and a block is a map or a list
of maps. A refusal tells the first thing that is neither (`Json.Refused`). Documents with the same
outline are refused alike, or declare the same pairs in the same order
(`ofJson_decided_by_outline`).
-/

namespace ResourceAudit

namespace Json

/-! ## Blocks and what is none -/

/-- What is said of a value under a key that is no block: its kind or, of a list, the kind of the
first item that is no map. -/
inductive NoBlock (key : String) : Json → String → Prop
  | kind {value : Json} (map : value.kind ≠ .object) (list : value.kind ≠ .list) :
      NoBlock key value
        s!"resource type `{key}` must map names to resources, found {value.kind.phrase}"
  | item (maps : List (List (String × Json))) {item : Json} (after : List Json)
      (kind : item.kind ≠ .object) :
      NoBlock key (.list (maps.map .object ++ item :: after))
        s!"resource type `{key}` must map names to resources, found a list of {item.kind.phrase}"

/-- The values of a document by type: those in its sole wrapper, if it has one, or else its own. -/
inductive Opens : Json → List (String × Json) → Prop
  | wrapped {inner : Json} (h : inner.IsBlock) :
      Opens (.object [("resource", inner)]) (entriesOf inner)
  | bare {blocks : List (String × Json)} (h : ∀ inner, blocks ≠ [("resource", inner)]) :
      Opens (.object blocks) blocks

/-- A document in which every type has a block. -/
def IsDocument (document : Json) : Prop :=
  ∃ blocks, document.Opens blocks ∧ ∀ block ∈ blocks, block.2.IsBlock

/-- What is said of a value that is no document. Of several values that are no blocks, it is the
first in the document. -/
inductive Refused : Json → String → Prop
  | root {document : Json} (kind : document.kind ≠ .object) :
      Refused document "configuration must be a JSON object keyed by resource type"
  | wrapper {inner : Json} {text : String} (h : inner.NoBlock "resource" text) :
      Refused (.object [("resource", inner)]) text
  | block {document value : Json} {before after : List (String × Json)} {type text : String}
      (opens : document.Opens (before ++ (type, value) :: after))
      (blocks : ∀ block ∈ before, block.2.IsBlock) (h : value.NoBlock type text) :
      Refused document text

theorem list_isBlock_or_noBlock (key : String) (items : List Json) :
    (Json.list items).IsBlock ∨ ∃ text, NoBlock key (.list items) text := by
  induction items with
  | nil => exact .inl (.maps [])
  | cons item rest ih =>
      cases item with
      | object es =>
          rcases ih with hmaps | ⟨_, hitem⟩
          · cases hmaps with
            | maps maps => exact .inl (.maps (es :: maps))
          · cases hitem with
            | kind _ hlist => exact absurd rfl hlist
            | item maps after hkind => exact .inr ⟨_, .item (es :: maps) after hkind⟩
      | _ => exact .inr ⟨_, .item [] rest (by simp [kind])⟩

theorem isBlock_or_noBlock (key : String) (value : Json) :
    value.IsBlock ∨ ∃ text, NoBlock key value text := by
  cases value with
  | object es => exact .inl (.map es)
  | list items => exact list_isBlock_or_noBlock key items
  | _ => exact .inr ⟨_, .kind (by simp [kind]) (by simp [kind])⟩

variable {document : Json}

theorem Opens.isDocument_or_refused {blocks : List (String × Json)} (h : document.Opens blocks) :
    document.IsDocument ∨ ∃ text, document.Refused text := by
  rcases forall_or_first (fun block => isBlock_or_noBlock block.1 block.2) blocks with
    hall | ⟨before, block, after, text, rfl, hbefore, hno⟩
  · exact .inl ⟨blocks, h, hall⟩
  · exact .inr ⟨text, .block h hbefore hno⟩

theorem isDocument_or_refused (document : Json) :
    document.IsDocument ∨ ∃ text, document.Refused text := by
  cases document with
  | object blocks =>
      by_cases hwrapper : ∃ inner, blocks = [("resource", inner)]
      · obtain ⟨inner, rfl⟩ := hwrapper
        rcases isBlock_or_noBlock "resource" inner with hblock | ⟨text, hno⟩
        · exact (Opens.wrapped hblock).isDocument_or_refused
        · exact .inr ⟨text, .wrapper hno⟩
      · exact (Opens.bare fun inner h => hwrapper ⟨inner, h⟩).isDocument_or_refused
  | _ => exact .inr ⟨_, .root (by simp [kind])⟩

/-! ## Values that differ in their bodies only -/

/-- Entries with the same keys in the same order, and values that `R` relates. -/
def SameKeys (R : Json → Json → Prop) : List (String × Json) → List (String × Json) → Prop :=
  List.Forall₂ fun a b => a.1 = b.1 ∧ R a.2 b.2

/-- Items of a block: maps with the same keys, or the same value if it is no map. -/
inductive SameItem (R : Json → Json → Prop) : Json → Json → Prop
  | map {es es' : List (String × Json)} (h : SameKeys R es es') :
      SameItem R (.object es) (.object es')
  | other {value : Json} (kind : value.kind ≠ .object) : SameItem R value value

/-- Blocks with the same keys in the same order, or the same value if it is neither a map nor a
list. -/
inductive SameBlock (R : Json → Json → Prop) : Json → Json → Prop
  | map {es es' : List (String × Json)} (h : SameKeys R es es') :
      SameBlock R (.object es) (.object es')
  | list {items items' : List Json} (h : List.Forall₂ (SameItem R) items items') :
      SameBlock R (.list items) (.list items')
  | other {value : Json} (map : value.kind ≠ .object) (list : value.kind ≠ .list) :
      SameBlock R value value

/-- Blocks of a type that have the same names, whatever the bodies. -/
def SameNames : Json → Json → Prop := SameBlock fun _ _ => True

/-- Documents with the same types and names in the same places, whatever the bodies. -/
inductive SameOutline : Json → Json → Prop
  | wrapped {inner inner' : Json} (h : SameBlock SameNames inner inner') :
      SameOutline (.object [("resource", inner)]) (.object [("resource", inner')])
  | bare {blocks blocks' : List (String × Json)} (h : ∀ inner, blocks ≠ [("resource", inner)])
      (names : SameKeys SameNames blocks blocks') : SameOutline (.object blocks) (.object blocks')
  | other {document : Json} (kind : document.kind ≠ .object) : SameOutline document document

end Json

open Json

/-! ## Refusals -/

variable {document : Json} {text : String}

theorem mergedEntries_cons_of_kind (key : String) {item : Json} (after : List Json)
    (h : item.kind ≠ .object) :
    mergedEntries key (item :: after) = .error (.itemKind key item.kind) := by
  cases item with
  | object es => exact absurd rfl h
  | _ => rfl

theorem Json.NoBlock.blockEntries_eq {key : String} {value : Json} (h : value.NoBlock key text) :
    ∃ e, blockEntries key value = .error e ∧ e.chain = [text] := by
  cases h with
  | kind hmap hlist =>
      cases value with
      | object es => exact absurd rfl hmap
      | list items => exact absurd rfl hlist
      | _ => exact ⟨_, rfl, rfl⟩
  | item maps after hkind =>
      rw [blockEntries, mergedEntries_append, mergedEntries_map_object]
      simp only [bind, Except.bind, mergedEntries_cons_of_kind key after hkind]
      exact ⟨_, rfl, rfl⟩

theorem declarationsIn_of_isBlock {blocks : List (String × Json)}
    (h : ∀ block ∈ blocks, block.2.IsBlock) : ∃ ds, declarationsIn blocks = .ok ds := by
  induction blocks with
  | nil => exact ⟨[], rfl⟩
  | cons block rest ih =>
      obtain ⟨hblock, hrest⟩ := List.forall_mem_cons.1 h
      obtain ⟨ds, hds⟩ := ih hrest
      rw [declarationsIn, hblock.blockEntries_eq, hds]
      exact ⟨_, rfl⟩

theorem declarationsIn_of_noBlock {before after : List (String × Json)} {type : String}
    {value : Json} (hbefore : ∀ block ∈ before, block.2.IsBlock) (h : value.NoBlock type text) :
    ∃ e, declarationsIn (before ++ (type, value) :: after) = .error e ∧ e.chain = [text] := by
  obtain ⟨ds, hds⟩ := declarationsIn_of_isBlock hbefore
  obtain ⟨e, he, htext⟩ := h.blockEntries_eq
  refine ⟨e, ?_, htext⟩
  rw [declarationsIn_append, hds, declarationsIn, he]
  rfl

theorem Json.Opens.documentBlocks_eq {blocks : List (String × Json)} (h : document.Opens blocks) :
    documentBlocks document = .ok blocks := by
  cases h with
  | wrapped hinner => rw [documentBlocks_wrapper, hinner.blockEntries_eq]
  | bare hbare => exact Configuration.documentBlocks_of_ne hbare

namespace Configuration

theorem ofJson_of_opens {blocks : List (String × Json)} (h : document.Opens blocks) :
    ofJson document = (declarationsIn blocks).map ofDeclarations := by
  rw [ofJson, declarations, h.documentBlocks_eq]
  rfl

theorem ofJson_of_isDocument (h : document.IsDocument) : ∃ c, ofJson document = .ok c := by
  obtain ⟨blocks, hopens, hblocks⟩ := h
  obtain ⟨ds, hds⟩ := declarationsIn_of_isBlock hblocks
  rw [ofJson_of_opens hopens, hds]
  exact ⟨_, rfl⟩

theorem ofJson_of_refused (h : document.Refused text) :
    ∃ e, ofJson document = .error e ∧ e.chain = [text] := by
  cases h with
  | root hkind =>
      cases document with
      | object blocks => exact absurd rfl hkind
      | _ => exact ⟨_, rfl, rfl⟩
  | wrapper hinner =>
      obtain ⟨e, he, htext⟩ := hinner.blockEntries_eq
      refine ⟨e, ?_, htext⟩
      rw [ofJson, declarations, documentBlocks_wrapper, wrapperKey, he]
      rfl
  | block hopens hbefore hvalue =>
      obtain ⟨e, he, htext⟩ := declarationsIn_of_noBlock hbefore hvalue
      refine ⟨e, ?_, htext⟩
      rw [ofJson_of_opens hopens, he]
      rfl

end Configuration

/-! ## Outlines -/

section Outline

variable {R : Json → Json → Prop}

theorem mergedEntries_alike (key : String) {items items' : List Json}
    (h : List.Forall₂ (SameItem R) items items') :
    Alike (SameKeys R) (mergedEntries key items) (mergedEntries key items') := by
  induction h with
  | nil => exact .accepted .nil
  | cons hitem _ ih =>
      cases hitem with
      | map hes => exact ih.map fun _ _ hrest => List.rel_append hes hrest
      | other hkind =>
          rw [mergedEntries_cons_of_kind key _ hkind, mergedEntries_cons_of_kind key _ hkind]
          exact .refused _

theorem blockEntries_alike (key : String) {value value' : Json} (h : SameBlock R value value') :
    Alike (SameKeys R) (blockEntries key value) (blockEntries key value') := by
  cases h with
  | map hes => exact .accepted hes
  | list hitems => exact mergedEntries_alike key hitems
  | other hmap hlist =>
      cases value with
      | object es => exact absurd rfl hmap
      | list items => exact absurd rfl hlist
      | _ => exact .refused _

/-- No document with the same outline has a wrapper where this one has none. -/
theorem ne_wrapper_of_sameKeys {blocks blocks' : List (String × Json)}
    (h : ∀ inner, blocks ≠ [("resource", inner)]) (hsame : SameKeys R blocks blocks') :
    ∀ inner, blocks' ≠ [("resource", inner)] := by
  rintro inner rfl
  cases hsame with
  | @cons block _ _ _ hblock hrest =>
      cases hrest
      obtain ⟨key, value⟩ := block
      obtain ⟨rfl, -⟩ := hblock
      exact h value rfl

theorem documentBlocks_alike {document document' : Json} (h : SameOutline document document') :
    Alike (SameKeys SameNames) (documentBlocks document) (documentBlocks document') := by
  cases h with
  | wrapped hinner => exact blockEntries_alike wrapperKey hinner
  | bare hbare hnames =>
      rw [Configuration.documentBlocks_of_ne hbare,
        Configuration.documentBlocks_of_ne (ne_wrapper_of_sameKeys hbare hnames)]
      exact .accepted hnames
  | other hkind =>
      cases document with
      | object blocks => exact absurd rfl hkind
      | _ => exact .refused _

theorem map_key_of_sameKeys (type : String) {es es' : List (String × Json)}
    (h : SameKeys R es es') :
    es.map (fun e => (type, e.1)) = es'.map fun e => (type, e.1) := by
  induction h with
  | nil => rfl
  | cons hentry _ ih => rw [List.map_cons, List.map_cons, hentry.1, ih]

theorem declarationsIn_alike {blocks blocks' : List (String × Json)}
    (h : SameKeys SameNames blocks blocks') :
    Alike (fun ds ds' => ds.map Declaration.key = ds'.map Declaration.key)
      (declarationsIn blocks) (declarationsIn blocks') := by
  induction h with
  | nil => exact .accepted rfl
  | @cons block block' _ _ hblock _ ih =>
      obtain ⟨type, value⟩ := block
      obtain ⟨type', value'⟩ := block'
      obtain ⟨rfl, hnames⟩ := hblock
      refine (blockEntries_alike type hnames).bind fun es es' hes => ?_
      refine ih.bind fun ds ds' hds => .accepted ?_
      simpa [Function.comp_def, Declaration.key, hds] using map_key_of_sameKeys type hes

end Outline

namespace Configuration

/-- The pairs of a configuration stand type by type, each where it is first declared. -/
theorem map_key_ofDeclarations (ds : List Declaration) :
    (ofDeclarations ds).resources.map Resource.key =
      ((ds.map Declaration.key).map (·.1)).eraseDups.flatMap fun type =>
        ((ds.map Declaration.key).filter (·.1 = type)).eraseDups := by
  have htypes : (ds.map Declaration.key).map (·.1) = ds.map (·.type) := by
    rw [List.map_map]
    rfl
  have hfilter (type : String) : (ds.map Declaration.key).filter (·.1 = type) =
      (ds.filter (·.type = type)).map Declaration.key := by
    rw [List.filter_map]
    rfl
  have hresources : (ofDeclarations ds).resources =
      (ofDeclarations ds).types.flatMap (ofDeclarations ds).ofType := resources_ofList _
  rw [hresources, List.map_flatMap, types_ofDeclarations, htypes]
  simp only [ofType_ofDeclarations, hfilter]

theorem ofJson_alike {document document' : Json} (h : SameOutline document document') :
    (ofJson document).map (·.resources.map Resource.key) =
      (ofJson document').map (·.resources.map Resource.key) := by
  have hdeclared := (documentBlocks_alike h).bind fun _ _ hblocks => declarationsIn_alike hblocks
  have hconfigurations : Alike (fun c c' : Configuration =>
      c.resources.map Resource.key = c'.resources.map Resource.key)
      (ofJson document) (ofJson document') := by
    refine hdeclared.map fun ds ds' hds => ?_
    rw [map_key_ofDeclarations, map_key_ofDeclarations, hds]
  exact hconfigurations.map_eq fun _ _ hpairs => hpairs

/-- Whether a document is accepted, what a refusal says, and which pairs it declares in which order
is decided by its outline. No body is ever the reason for a refusal. -/
theorem ofJson_decided_by_outline (document : Json) :
    ((∃ c, ofJson document = .ok c) ↔ document.IsDocument) ∧
    (∀ causes, (ofJson document).mapError DocumentError.chain = .error causes ↔
      ∃ text, document.Refused text ∧ causes = [text]) ∧
    ∀ document', document.SameOutline document' →
      (ofJson document).map (·.resources.map Resource.key) =
        (ofJson document').map (·.resources.map Resource.key) := by
  have hone : document.IsDocument ∨ ∃ causes, ∃ text, document.Refused text ∧ causes = [text] := by
    rcases isDocument_or_refused document with hdocument | ⟨text, hrefused⟩
    · exact .inl hdocument
    · exact .inr ⟨[text], text, hrefused, rfl⟩
  have hoks (c : Configuration) : (ofJson document).mapError DocumentError.chain = .ok c ↔
      ofJson document = .ok c := mapError_eq_ok
  have haccepts (h : document.IsDocument) :
      ∃ c, (ofJson document).mapError DocumentError.chain = .ok c := by
    simp only [hoks]
    exact ofJson_of_isDocument h
  have hrefuses (causes : List String) (h : ∃ text, document.Refused text ∧ causes = [text]) :
      (ofJson document).mapError DocumentError.chain = .error causes := by
    obtain ⟨text, hrefused, rfl⟩ := h
    obtain ⟨e, he, htext⟩ := ofJson_of_refused hrefused
    rw [he, ← htext]
    rfl
  obtain ⟨haccepted, hrefused⟩ := outcome_iff haccepts hrefuses hone
  simp only [hoks] at haccepted
  exact ⟨haccepted, hrefused, fun _ => ofJson_alike⟩

/-- A wrapped document that declares `web` twice, and one with a number among its maps, for two
bodies of which the second is malformed. -/
theorem ofJson_decided_by_outline_strayNumber :
    let twice (body : Json) : Json := .object [("resource", .list [
      .object [("vm", .object [("web", body), ("db", .null)])],
      .object [("net", .object []), ("vm", .list [.object [("web", body)]])]])]
    let stray (body : Json) : Json := .object [("vm", .object [("web", body)]),
      ("net", .list [.object [("a", body)], .number (.int 7), .null]), ("db", .null)]
    let body : Json := .object []
    let body' : Json := .object [("k", .null), ("k", .list [])]
    (twice body).SameOutline (twice body') ∧
    (ofJson (twice body')).map (·.resources.map Resource.key) =
      .ok [("vm", "web"), ("vm", "db")] ∧
    (stray body).SameOutline (stray body') ∧
    (ofJson (stray body')).mapError DocumentError.chain =
      .error ["resource type `net` must map names to resources, found a list of a number"] := by
  intro twice stray body body'
  have hentry (name : String) : ∀ {x y : Json}, (fun a b : String × Json =>
      a.1 = b.1 ∧ True) (name, x) (name, y) := ⟨rfl, trivial⟩
  have htwice : (twice body).SameOutline (twice body') := by
    refine .wrapped (.list (.cons (.map (.cons ⟨rfl, ?_⟩ .nil)) (.cons (.map ?_) .nil)))
    · exact .map (.cons (hentry "web") (.cons (hentry "db") .nil))
    · exact .cons ⟨rfl, .map .nil⟩ (.cons ⟨rfl, .list (.cons (.map (.cons (hentry "web") .nil))
        .nil)⟩ .nil)
  have hstray : (stray body).SameOutline (stray body') := by
    refine .bare (by simp) (.cons ⟨rfl, ?_⟩ (.cons ⟨rfl, ?_⟩ (.cons ⟨rfl, ?_⟩ .nil)))
    · exact .map (.cons (hentry "web") .nil)
    · exact .list (.cons (.map (.cons (hentry "a") .nil)) (.cons (.other (by decide))
        (.cons (.other (by decide)) .nil)))
    · exact .other (by decide) (by decide)
  refine ⟨htwice, ?_, hstray, ?_⟩
  · rw [← (ofJson_decided_by_outline (twice body)).2.2 _ htwice]
    rfl
  · have hnumber : (Json.list [.object [("a", body')], .number (.int 7), .null]).NoBlock "net"
        "resource type `net` must map names to resources, found a list of a number" :=
      .item [[("a", body')]] [.null] (by decide)
    have hopens : (stray body').Opens ([("vm", .object [("web", body')])] ++
        ("net", .list [.object [("a", body')], .number (.int 7), .null]) :: [("db", .null)]) :=
      .bare (by simp)
    have hbefore : ∀ block ∈ [("vm", Json.object [("web", body')])], block.2.IsBlock := by
      intro block hblock
      rw [List.mem_singleton.1 hblock]
      exact .map _
    exact ((ofJson_decided_by_outline (stray body')).2.1 _).2
      ⟨_, .block hopens hbefore hnumber, rfl⟩

end Configuration

end ResourceAudit
