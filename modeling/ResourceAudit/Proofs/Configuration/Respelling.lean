import ResourceAudit.Proofs.Configuration.Wrapper
import ResourceAudit.Proofs.Json.Nesting
import Mathlib.Logic.Relation

/-!
# Spellings of a document

A document can be put differently without saying anything else: wrapped as a whole, its maps cut
into lists of maps or over repeated keys, its bodies put into lists of their own. However such
rewrites are combined, the configuration stays the same (`ofJson_eq_of_respelled`). Texts follow,
as long as what they spell does not nest too deep for the reader.
-/

namespace ResourceAudit

/-! ## Rewrites -/

/-- One element of a list gives way to others. -/
inductive InPlace {α : Type} (R : α → List α → Prop) : List α → List α → Prop
  | intro (before after : List α) {x : α} {ys : List α} (h : R x ys) :
      InPlace R (before ++ x :: after) (before ++ ys ++ after)

namespace Json

variable {R : String × Json → List (String × Json) → Prop}

/-- A rewrite of a map in a list: of one of its entries, or into the maps that it is cut into. -/
inductive MapRewrite (R : String × Json → List (String × Json) → Prop) : Json → List Json → Prop
  | entry {es es' : List (String × Json)} (h : InPlace R es es') :
      MapRewrite R (.object es) [.object es']
  | cut (parts : List (List (String × Json))) :
      MapRewrite R (.object parts.flatten) (parts.map .object)

/-- A rewrite of a block: of one of its entries, or of a map into a list of maps. -/
inductive BlockRewrite (R : String × Json → List (String × Json) → Prop) : Json → Json → Prop
  | entry {es es' : List (String × Json)} (h : InPlace R es es') :
      BlockRewrite R (.object es) (.object es')
  | cut (parts : List (List (String × Json))) :
      BlockRewrite R (.object parts.flatten) (.list (parts.map .object))
  | item {items items' : List Json} (h : InPlace (MapRewrite R) items items') :
      BlockRewrite R (.list items) (.list items')

/-- A body is put into a list, unless it is alone in one. -/
inductive BodyRewrite : String × Json → List (String × Json) → Prop
  | wrap (name : String) {body : Json} (h : ∀ inner, body ≠ .list [inner]) :
      BodyRewrite (name, body) [(name, .list [body])]

/-- A rewrite of a type: in its block, or into several keys for the same entries. -/
inductive TypeRewrite : String × Json → List (String × Json) → Prop
  | block (type : String) {b b' : Json} (h : BlockRewrite BodyRewrite b b') :
      TypeRewrite (type, b) [(type, b')]
  | keys (type : String) {b : Json} {blocks : List Json} (hb : b.IsBlock)
      (hblocks : ∀ b ∈ blocks, b.IsBlock) (hne : blocks ≠ [])
      (hentries : blocks.flatMap entriesOf = entriesOf b) :
      TypeRewrite (type, b) (blocks.map fun b => (type, b))

/-- A rewrite of a document: a wrapper around it, or one among its types, in or out of the
wrapper. -/
inductive Respelling : Json → Json → Prop
  | wrap {blocks : List (String × Json)} (h : ∀ inner, blocks ≠ [(wrapperKey, inner)]) :
      Respelling (.object blocks) (.object [(wrapperKey, .object blocks)])
  | bare {blocks blocks' : List (String × Json)} (h : ∀ inner, blocks ≠ [(wrapperKey, inner)])
      (step : InPlace TypeRewrite blocks blocks') : Respelling (.object blocks) (.object blocks')
  | wrapped {inner inner' : Json} (step : BlockRewrite TypeRewrite inner inner') :
      Respelling (.object [(wrapperKey, inner)]) (.object [(wrapperKey, inner')])

end Json

open Json

theorem InPlace.within {α : Type} {R : α → List α → Prop} {xs ys : List α} (h : InPlace R xs ys)
    (front back : List α) : InPlace R (front ++ (xs ++ back)) (front ++ (ys ++ back)) := by
  cases h with
  | intro before after h =>
      simpa only [List.append_assoc, List.cons_append] using
        InPlace.intro (front ++ before) (after ++ back) h

/-! ## Entries of a rewritten block -/

theorem mergedEntries_map_object (block : String) (parts : List (List (String × Json))) :
    mergedEntries block (parts.map .object) = .ok parts.flatten := by
  induction parts with
  | nil => rfl
  | cons part rest ih =>
      rw [List.map_cons, mergedEntries, ih]
      rfl

/-- A rewritten block has the same entries, or has them rewritten in one place. -/
theorem blockEntries_of_rewrite {R : String × Json → List (String × Json) → Prop} {b b' : Json}
    (h : BlockRewrite R b b') (block : String) :
    blockEntries block b = blockEntries block b' ∨
      ∃ es es', blockEntries block b = .ok es ∧ blockEntries block b' = .ok es' ∧
        InPlace R es es' := by
  cases h with
  | @entry es es' h => exact .inr ⟨es, es', rfl, rfl, h⟩
  | cut parts => exact .inl (mergedEntries_map_object block parts).symm
  | item h =>
      obtain ⟨before, after, h⟩ := h
      simp only [blockEntries, mergedEntries_append, List.append_assoc]
      -- What stands in front may be refused already, and then the rewrite is not even looked at.
      cases mergedEntries block before with
      | error e => exact .inl rfl
      | ok front =>
          cases h with
          | @entry es es' h =>
              simp only [mergedEntries]
              cases mergedEntries block after with
              | error e => exact .inl rfl
              | ok back => exact .inr ⟨_, _, rfl, rfl, by simpa using h.within front back⟩
          | cut parts =>
              simp only [mergedEntries, mergedEntries_map_object]
              exact .inl rfl

/-! ## What declarations read as -/

/-- What a declaration makes of its resource where there is no other. -/
def Declaration.resource (d : Declaration) : Resource := ⟨d.type, d.name, .ofJson d.body⟩

/-- The resources of some types, before those declared more than once are given up. -/
def readings (blocks : List (String × Json)) : Except DocumentError (List Resource) :=
  (declarationsIn blocks).map (List.map Declaration.resource)

theorem declarationsIn_append (xs ys : List (String × Json)) :
    declarationsIn (xs ++ ys) =
      declarationsIn xs >>= fun ds => (declarationsIn ys).map (ds ++ ·) := by
  induction xs with
  | nil =>
      rw [List.nil_append, declarationsIn]
      cases declarationsIn ys <;> rfl
  | cons block rest ih =>
      obtain ⟨type, b⟩ := block
      rw [List.cons_append, declarationsIn, ih, declarationsIn]
      cases blockEntries type b with
      | error e => rfl
      | ok entries =>
          cases declarationsIn rest with
          | error e => rfl
          | ok ds =>
              cases declarationsIn ys <;> simp [bind, Except.bind, Except.map, pure, Except.pure]

theorem readings_append (xs ys : List (String × Json)) :
    readings (xs ++ ys) = readings xs >>= fun rs => (readings ys).map (rs ++ ·) := by
  rw [readings, declarationsIn_append, readings, readings]
  cases declarationsIn xs with
  | error e => rfl
  | ok ds => cases declarationsIn ys <;> simp [bind, Except.bind, Except.map]

theorem readings_singleton (type : String) (b : Json) :
    readings [(type, b)] =
      (blockEntries type b).map (List.map fun e => ⟨type, e.1, .ofJson e.2⟩) := by
  rw [readings, declarationsIn, declarationsIn]
  cases blockEntries type b with
  | error e => rfl
  | ok es =>
      simp [bind, Except.bind, pure, Except.pure, Except.map, Declaration.resource]

/-- A rewrite that does not show in the place where it happens does not show at all. -/
theorem readings_of_inPlace {R : String × Json → List (String × Json) → Prop}
    (hR : ∀ {x ys}, R x ys → readings [x] = readings ys) {xs ys : List (String × Json)}
    (h : InPlace R xs ys) : readings xs = readings ys := by
  cases h with
  | intro before after h =>
      rw [List.append_cons, readings_append (before ++ _), readings_append before, hR h,
        ← readings_append before, ← readings_append]

/-- Under one type, blocks one behind the other read as their entries in turn. -/
theorem readings_keys (type : String) {blocks : List Json} (h : ∀ b ∈ blocks, b.IsBlock) :
    readings (blocks.map fun b => (type, b)) =
      .ok ((blocks.flatMap entriesOf).map fun e => ⟨type, e.1, .ofJson e.2⟩) := by
  induction blocks with
  | nil => rfl
  | cons b rest ih =>
      have hb := (h b List.mem_cons_self).blockEntries_eq type
      have hrest := ih fun b' hb' => h b' (List.mem_cons_of_mem _ hb')
      rw [List.map_cons, ← List.singleton_append, readings_append, readings_singleton, hb, hrest,
        List.flatMap_cons, List.map_append]
      rfl

theorem ofJson_wrap {body : Json} (h : ∀ inner, body ≠ .list [inner]) :
    Body.ofJson (.list [body]) = Body.ofJson body := by
  have hbare : unwrapped body = body := unwraps_iff.1 (.bare h)
  rw [Body.ofJson, Body.ofJson, hbare, unwrapped]

namespace Json

theorem BodyRewrite.map_eq {es es' : List (String × Json)} (h : InPlace BodyRewrite es es')
    (type : String) :
    es.map (fun e => (⟨type, e.1, .ofJson e.2⟩ : Resource)) =
      es'.map fun e => ⟨type, e.1, .ofJson e.2⟩ := by
  obtain ⟨before, after, h⟩ := h
  obtain ⟨name, hbody⟩ := h
  simp [ofJson_wrap hbody]

theorem TypeRewrite.readings_eq {x : String × Json} {ys : List (String × Json)}
    (h : TypeRewrite x ys) : readings [x] = readings ys := by
  cases h with
  | block type h =>
      rw [readings_singleton, readings_singleton]
      rcases blockEntries_of_rewrite h type with heq | ⟨es, es', hes, hes', hstep⟩
      · rw [heq]
      · rw [hes, hes']
        exact congrArg Except.ok (BodyRewrite.map_eq hstep type)
  | keys type hb hblocks _ hentries =>
      rw [readings_keys type hblocks, readings_singleton, hb.blockEntries_eq, hentries]
      rfl

/-- A type does not become another one, nor none. -/
theorem TypeRewrite.head {x : String × Json} {ys : List (String × Json)} (h : TypeRewrite x ys) :
    ∃ b rest, ys = (x.1, b) :: rest := by
  cases h with
  | @block type b b' h => exact ⟨b', [], rfl⟩
  | @keys type b blocks hb hblocks hne hentries =>
      obtain ⟨b', rest, rfl⟩ := List.exists_cons_of_ne_nil hne
      exact ⟨b', _, rfl⟩

end Json

/-! ## Configurations -/

namespace Configuration

open Ledger

/-- The configuration of resources, those that come more than once given up. -/
def merged (rs : List Resource) : Configuration :=
  .ofList <| (rs.map Resource.key).eraseDups.map fun key =>
    { type := key.1
      name := key.2
      body :=
        match rs.filter (·.key = key) with
        | [r] => r.body
        | _ => .duplicate }

theorem ofDeclarations_eq_merged (ds : List Declaration) :
    ofDeclarations ds = merged (ds.map Declaration.resource) := by
  have hkeys : (ds.map Declaration.resource).map Resource.key = ds.map Declaration.key := by
    rw [List.map_map]
    rfl
  have hfilter (key : String × String) : (ds.map Declaration.resource).filter (·.key = key) =
      (ds.filter (·.key = key)).map Declaration.resource := by
    rw [List.filter_map]
    rfl
  rw [ofDeclarations, resources_ofDeclarations, merged, hkeys]
  congr 1
  apply List.map_congr_left
  intro key _
  rw [hfilter, resourceOf, rowOf, soleBody]
  generalize ds.filter (·.key = key) = found
  rcases found with _ | ⟨d, _ | ⟨e, rest⟩⟩ <;> rfl

theorem ofJson_eq_readings {document : Json} {blocks : List (String × Json)}
    (h : documentBlocks document = .ok blocks) :
    ofJson document = (readings blocks).map merged := by
  rw [ofJson, declarations, h, readings]
  simp only [bind, Except.bind]
  cases declarationsIn blocks with
  | error e => rfl
  | ok ds => exact congrArg Except.ok (ofDeclarations_eq_merged ds)

theorem documentBlocks_of_ne {blocks : List (String × Json)}
    (h : ∀ inner, blocks ≠ [(wrapperKey, inner)]) :
    documentBlocks (.object blocks) = .ok blocks := by
  unfold documentBlocks
  split
  · rename_i key inner heq
    cases heq
    rw [if_neg]
    rintro rfl
    exact h inner rfl
  · rename_i heq
    cases heq
    rfl
  · rename_i hobject
    exact absurd rfl (hobject blocks)

theorem ne_wrapper_of_inPlace {blocks blocks' : List (String × Json)}
    (h : ∀ inner, blocks ≠ [(wrapperKey, inner)]) (step : InPlace TypeRewrite blocks blocks') :
    ∀ inner, blocks' ≠ [(wrapperKey, inner)] := by
  rintro inner heq
  obtain ⟨before, after, hrewrite⟩ := step
  rename_i x ys
  obtain ⟨b, rest, rfl⟩ := hrewrite.head
  -- The key of the type stays, so nothing else was there before either.
  rcases before with _ | ⟨y, before⟩
  · simp only [List.nil_append, List.cons_append, List.cons.injEq, List.append_eq_nil_iff,
      Prod.mk.injEq] at heq
    obtain ⟨⟨hkey, -⟩, -, rfl⟩ := heq
    exact h x.2 (by rw [← hkey]; rfl)
  · simp at heq

theorem ofJson_eq_of_respelling {document document' : Json} (h : Respelling document document') :
    ofJson document = ofJson document' := by
  cases h with
  | @wrap blocks h =>
      have hwrapped : documentBlocks (.object [(wrapperKey, .object blocks)]) = .ok blocks := rfl
      rw [ofJson_eq_readings (documentBlocks_of_ne h), ofJson_eq_readings hwrapped]
  | bare h step =>
      rw [ofJson_eq_readings (documentBlocks_of_ne h),
        ofJson_eq_readings (documentBlocks_of_ne (ne_wrapper_of_inPlace h step)),
        readings_of_inPlace TypeRewrite.readings_eq step]
  | @wrapped inner inner' step =>
      rcases blockEntries_of_rewrite step wrapperKey with heq | ⟨es, es', hes, hes', hstep⟩
      · have hblocks : documentBlocks (.object [(wrapperKey, inner)]) =
            documentBlocks (.object [(wrapperKey, inner')]) := heq
        rw [ofJson, ofJson, declarations, declarations, hblocks]
      · have hinner : documentBlocks (.object [(wrapperKey, inner)]) = .ok es := hes
        have hinner' : documentBlocks (.object [(wrapperKey, inner')]) = .ok es' := hes'
        rw [ofJson_eq_readings hinner, ofJson_eq_readings hinner',
          readings_of_inPlace TypeRewrite.readings_eq hstep]

theorem ofJson_eq_of_respelled {document document' : Json}
    (h : Relation.EqvGen Respelling document document') :
    ofJson document = ofJson document' := by
  induction h with
  | rel _ _ h => exact ofJson_eq_of_respelling h
  | refl _ => rfl
  | symm _ _ _ ih => exact ih.symm
  | trans _ _ _ _ _ ih ih' => exact ih.trans ih'

/-! ## Texts -/

theorem parse_of_spells {text : String} {document : Json} (h : Spells text document)
    (hnests : document.NestsWithin Reader.deepest) : parse text = ofJson document := by
  rw [parse, readTree_eq_ok_iff.2 ⟨h, hnests⟩]

theorem ofJson_of_parse_eq_ok {text : String} {document : Json} {c : Configuration}
    (h : Spells text document) (hparse : parse text = .ok c) : ofJson document = .ok c := by
  obtain ⟨document', hread, hc⟩ := parse_eq_ok hparse
  rwa [h.unique (readTree_eq_ok_iff.1 hread).1]

/-- However a document is put, it makes the same configuration. So do its texts, as long as they do
not nest too deep to be read at all. -/
theorem parse_eq_of_respelled {document document' : Json}
    (h : Relation.EqvGen Respelling document document') :
    ofJson document' = ofJson document ∧
    ∀ text c, Spells text document → parse text = .ok c →
      ∀ text', Spells text' document' →
        (document'.NestsWithin Reader.deepest → parse text' = .ok c) ∧
        (¬ document'.NestsWithin Reader.deepest →
          ∃ refusal, parse text' = .error (.unreadable refusal)) := by
  refine ⟨(ofJson_eq_of_respelled h).symm, fun text c htext hparse text' htext' => ⟨?_, ?_⟩⟩
  · intro hnests
    rw [parse_of_spells htext' hnests, ← ofJson_eq_of_respelled h]
    exact ofJson_of_parse_eq_ok htext hparse
  · intro hdeep
    obtain ⟨refusal, hread⟩ := htext'.readTree_eq_error hdeep
    exact ⟨refusal, by rw [parse, hread]⟩

/-- A body and a block put into lists, and a type's entries under two keys in the wrapper. -/
theorem parse_eq_of_respelled_combined :
    let web : String × Json := ("web", .object [])
    let document : Json := .object [("vm", .object [web, ("db", .string "y")])]
    let document' : Json := .object [("resource", .object
      [("vm", .list [.object [], .object [web]]), ("vm", .object [("db", .list [.string "y"])])])]
    Relation.EqvGen Respelling document document' ∧
      ∃ c, parse document.compact = .ok c ∧ parse document'.compact = .ok c := by
  intro web document document'
  let wrapped (blocks : List (String × Json)) : Json := .object [(wrapperKey, .object blocks)]
  let db : String × Json := ("vm", .object [("db", .string "y")])
  have hkeys : TypeRewrite ("vm", .object [web, ("db", .string "y")])
      ([.object [web], .object [("db", .string "y")]].map fun b => ("vm", b)) := by
    refine .keys "vm" (.map _) (fun b hb => ?_) (by simp) rfl
    rcases List.mem_pair.1 hb with rfl | rfl <;> exact .map _
  have hcut : TypeRewrite ("vm", .object [web]) [("vm", .list [.object [], .object [web]])] :=
    .block "vm" (.cut [[], [web]])
  have hwrap : BodyRewrite ("db", .string "y") [("db", .list [.string "y"])] :=
    .wrap "db" fun _ => nofun
  have hbody : TypeRewrite db [("vm", .object [("db", .list [.string "y"])])] :=
    .block "vm" (.entry (.intro [] [] hwrap))
  have hrespelled : Relation.EqvGen Respelling document document' := by
    have hfirst : Respelling document (wrapped [("vm", .object [web, ("db", .string "y")])]) :=
      .wrap (by simp [wrapperKey])
    have hsecond : Respelling (wrapped [("vm", .object [web, ("db", .string "y")])])
        (wrapped [("vm", .object [web]), db]) := .wrapped (.entry (.intro [] [] hkeys))
    have hthird : Respelling (wrapped [("vm", .object [web]), db])
        (wrapped [("vm", .list [.object [], .object [web]]), db]) :=
      .wrapped (.entry (.intro [] [db] hcut))
    have hfourth : Respelling (wrapped [("vm", .list [.object [], .object [web]]), db])
        document' := .wrapped (.entry (.intro [_] [] hbody))
    exact .trans _ _ _ (.rel _ _ hfirst) <| .trans _ _ _ (.rel _ _ hsecond) <|
      .trans _ _ _ (.rel _ _ hthird) (.rel _ _ hfourth)
  have hlegible : Legible Reader.deepest document := by decide
  have hlegible' : Legible Reader.deepest document' := by decide
  have hspells : Spells document.compact document := hlegible.spells .none
  obtain ⟨c, hc⟩ : ∃ c, parse document.compact = .ok c := by
    rw [parse_of_spells hspells hlegible.nestsWithin]
    exact ⟨_, rfl⟩
  obtain ⟨-, htexts⟩ := parse_eq_of_respelled hrespelled
  obtain ⟨hsame, -⟩ := htexts _ c hspells hc _ (hlegible'.spells .none)
  exact ⟨hrespelled, c, hc, hsame hlegible'.nestsWithin⟩

/-- A document that nests as deep as a text may. -/
def deepDocument : Json :=
  .object [("vm", .object [("web", .object [("tags", nested 124)])])]

/-- The wrapper takes the text of a document over the limit of the reader. -/
theorem parse_wrapped_deepDocument :
    let wrapped : Json := .object [("resource", deepDocument)]
    Respelling deepDocument wrapped ∧ Spells deepDocument.compact deepDocument ∧
      Spells wrapped.compact wrapped ∧ (∃ c, parse deepDocument.compact = .ok c) ∧
      ∀ c, parse wrapped.compact ≠ .ok c := by
  intro wrapped
  have hlegible : Legible 127 deepDocument := by decide +kernel
  have hlegible' : Legible 128 wrapped := by decide +kernel
  have hdeep : ¬ NestsWithin 127 (.object [("resource", deepDocument)]) := by
    rintro (_ | _ | _ | _ | _ | hwrapped)
    rcases hwrapped _ List.mem_cons_self with _ | _ | _ | _ | _ | hdocument
    rcases hdocument _ List.mem_cons_self with _ | _ | _ | _ | _ | htype
    rcases htype _ List.mem_cons_self with _ | _ | _ | _ | _ | hbody
    exact absurd (le_of_nestsWithin_nested (hbody _ List.mem_cons_self)) (by decide)
  have hspells : Spells deepDocument.compact deepDocument := hlegible.spells .none
  have hspells' : Spells wrapped.compact wrapped := hlegible'.spells .none
  refine ⟨.wrap (by simp [wrapperKey]), hspells, hspells', ?_, fun c hc => ?_⟩
  · rw [parse_of_spells hspells hlegible.nestsWithin]
    exact ⟨_, rfl⟩
  · obtain ⟨refusal, hrefused⟩ := hspells'.readTree_eq_error hdeep
    rw [parse, hrefused] at hc
    cases hc

end Configuration

end ResourceAudit
