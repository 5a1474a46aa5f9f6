import ResourceAudit.Proofs.Check.Builtin
import ResourceAudit.Proofs.Dictionary
import Mathlib.Logic.Relation

/-!
# Other ways of writing an attribute

A list of one item may stand for the item, and an empty list for no attribute. What else may happen
to a list depends on who reads it: along first items the rest does not count, and where every item
counts their order does not. The built-in checks tell no such writings apart.
-/

namespace ResourceAudit

/-! ## Rewritings of values -/

namespace Json

/-- A relation between values, carried to a place inside them. -/
inductive Within (R : Json → Json → Prop) : Json → Json → Prop
  | here {j j' : Json} (h : R j j') : Within R j j'
  | item {j j' : Json} (before after : List Json) (h : Within R j j') :
      Within R (.list (before ++ j :: after)) (.list (before ++ j' :: after))
  | member {j j' : Json} (before after : List (String × Json)) (key : String)
      (h : Within R j j') :
      Within R (.object (before ++ (key, j) :: after)) (.object (before ++ (key, j') :: after))

/-- A value is put inside a list. -/
inductive Wraps : Json → Json → Prop
  | wrap (j : Json) : Wraps j (.list [j])

/-- Items are added behind the first of a list. -/
inductive Continues : Json → Json → Prop
  | continue (first : Json) (rest more : List Json) :
      Continues (.list (first :: rest)) (.list (first :: rest ++ more))

/-- The items of a list are put in another order, or one is added that says nothing. -/
inductive Rearranges : Json → Json → Prop
  | shuffle {items items' : List Json} (h : items.Perm items') :
      Rearranges (.list items) (.list items')
  | pad (before after : List Json) {j : Json} (h : j.isVoid = true) :
      Rearranges (.list (before ++ after)) (.list (before ++ j :: after))

/-- An item is added to a list. -/
inductive Enlarges : Json → Json → Prop
  | enlarge (before after : List Json) (j : Json) :
      Enlarges (.list (before ++ after)) (.list (before ++ j :: after))

/-- Lists around nothing. -/
inductive Hollow : Json → Prop
  | empty : Hollow (.list [])
  | wrap {j : Json} (h : Hollow j) : Hollow (.list [j])

/-- Somewhere inside an attribute a value is put inside a list, or an attribute is left out that
is only lists around nothing. -/
inductive Rewraps : Option Json → Option Json → Prop
  | wraps {j j' : Json} (h : Within Wraps j j') : Rewraps (some j) (some j')
  | drops {j : Json} (h : Hollow j) : Rewraps (some j) none

/-! ## Values that say nothing -/

section

variable {R : Json → Json → Prop} {j j' : Json}

theorem isVoid_list (items : List Json) : (list items).isVoid = items.all isVoid :=
  areVoid_eq_all items

theorem Within.isVoid_eq (hR : ∀ j j', R j j' → j.isVoid = j'.isVoid) (h : Within R j j') :
    j.isVoid = j'.isVoid := by
  induction h with
  | here h => exact hR _ _ h
  | item before after _ ih => simp [isVoid_list, ih]
  | member before after key => cases before <;> rfl

theorem Wraps.isVoid_eq (h : Wraps j j') : j.isVoid = j'.isVoid := by
  cases h
  simp [isVoid_list]

theorem Rearranges.isVoid_eq (h : Rearranges j j') : j.isVoid = j'.isVoid := by
  cases h with
  | shuffle h => rw [isVoid_list, isVoid_list, h.all_eq]
  | pad before after h => simp [isVoid_list, h]

/-- A value that says something goes on doing so when items are added. -/
theorem Within.isVoid_enlarged (h : Within Enlarges j j') (hj : j.isVoid = false) :
    j'.isVoid = false := by
  induction h with
  | here h =>
      obtain ⟨before, after, _⟩ := h
      simp only [isVoid_list, List.all_append, List.all_cons, Bool.and_eq_false_iff] at hj ⊢
      tauto
  | item before after _ ih =>
      simp only [isVoid_list, List.all_append, List.all_cons, Bool.and_eq_false_iff] at hj ⊢
      tauto
  | member before after key => simp [isVoid]

theorem isVoid_enlarged (h : Relation.ReflTransGen (Within Enlarges) j j')
    (hj : j.isVoid = false) : j'.isVoid = false := by
  induction h with
  | refl => exact hj
  | tail _ h ih => exact h.isVoid_enlarged ih

theorem Hollow.isVoid_eq (h : Hollow j) : j.isVoid = true := by
  induction h with
  | empty => rfl
  | wrap _ ih => simp [isVoid_list, ih]

end

end Json

/-! ## Ends of descents -/

/-- A normalized attribute, the members of an object left out. -/
def Normalized.outline : Normalized → Normalized
  | .scalar (.object _) => .scalar (.object [])
  | other => other

theorem Normalized.outline_eq_string_iff {n : Normalized} {s : String} :
    n.outline = .scalar (.string s) ↔ n = .scalar (.string s) := by
  cases n with
  | absent => simp [outline]
  | scalar value => cases value <;> simp [outline]

theorem Normalized.outline_eq_object_iff {n : Normalized} :
    n.outline = .scalar (.object []) ↔ ∃ members, n = .scalar (.object members) := by
  cases n with
  | absent => simp [outline]
  | scalar value => cases value <;> simp [outline]

namespace Json

section

variable {R : Json → Json → Prop} {j j' : Json}

theorem Within.outline_eq
    (hR : ∀ j j', R j j' → (Normalized.ofJson j).outline = (Normalized.ofJson j').outline)
    (h : Within R j j') : (Normalized.ofJson j).outline = (Normalized.ofJson j').outline := by
  induction h with
  | here h => exact hR _ _ h
  | item before after _ ih =>
      -- The descent meets the change only if it is in the first item.
      cases before with
      | nil => exact ih
      | cons first rest => rfl
  | member => rfl

theorem Wraps.ofJson_eq (h : Wraps j j') : Normalized.ofJson j = Normalized.ofJson j' := by
  cases h
  rfl

theorem Continues.ofJson_eq (h : Continues j j') :
    Normalized.ofJson j = Normalized.ofJson j' := by
  cases h
  rfl

theorem Hollow.ofJson_eq (h : Hollow j) : Normalized.ofJson j = .absent := by
  induction h with
  | empty => rfl
  | wrap _ ih => exact ih

end

end Json

/-! ## What the checks see of an attribute -/

theorem eq_of_eqvGen {α β : Type} {R : α → α → Prop} {f : α → β} (hR : ∀ a b, R a b → f a = f b)
    {a b : α} (h : Relation.EqvGen R a b) : f a = f b := by
  induction h with
  | rel a b h => exact hR a b h
  | refl => rfl
  | symm _ _ _ ih => exact ih.symm
  | trans _ _ _ _ _ ih ih' => exact ih.trans ih'

namespace Json

variable {value? value?' : Option Json}

theorem Rewraps.isVoid_eq (h : Rewraps value? value?') :
    value?.all isVoid = value?'.all isVoid := by
  cases h with
  | wraps h => exact h.isVoid_eq fun _ _ => Wraps.isVoid_eq
  | drops h => exact h.isVoid_eq

theorem Rewraps.outline_eq (h : Rewraps value? value?') :
    (Normalized.ofRaw value?).outline = (Normalized.ofRaw value?').outline := by
  cases h with
  | wraps h => exact h.outline_eq fun _ _ h => congrArg _ h.ofJson_eq
  | drops h => exact congrArg Normalized.outline h.ofJson_eq

theorem all_isVoid_enlarged
    (h : Option.Rel (Relation.ReflTransGen (Within Enlarges)) value? value?')
    (hvalue : value?.all isVoid = false) : value?'.all isVoid = false := by
  cases h with
  | none => exact hvalue
  | some h => exact isVoid_enlarged h hvalue

theorem exists_leaf_iff :
    (∃ value, value? = some value ∧ ∃ leaf, value.HasLeaf leaf ∧ leaf.Substantial) ↔
      value?.all isVoid = false := by
  cases value? with
  | none => simp
  | some value => simp [← isVoid_eq_false_iff]

theorem exists_string_iff {P : String → Prop} :
    (∃ value, value? = some value ∧ ∃ s, value.LeadsTo (.string s) ∧ P s) ↔
      ∃ s, (Normalized.ofRaw value?).outline = .scalar (.string s) ∧ P s := by
  simp only [Normalized.outline_eq_string_iff]
  cases value? with
  | none => simp [Normalized.ofRaw]
  | some value => simp [Normalized.ofRaw, leadsTo_iff]

theorem exists_object_iff :
    (∃ value, value? = some value ∧ ∃ members, value.LeadsTo (.object members)) ↔
      (Normalized.ofRaw value?).outline = .scalar (.object []) := by
  rw [Normalized.outline_eq_object_iff]
  cases value? with
  | none => simp [Normalized.ofRaw]
  | some value => simp [Normalized.ofRaw, leadsTo_iff]

end Json

/-! ## Predicates -/

namespace Builtin

variable {r r' : Resource}

theorem predicate_instanceProfile_eq
    (h : (r.attribute? "iam_instance_profile").all Json.isVoid =
      (r'.attribute? "iam_instance_profile").all Json.isVoid) :
    instanceProfile.predicate r = instanceProfile.predicate r' := by
  refine (settles_instanceProfile r).congr (settles_instanceProfile r') ?_ (by simp)
  rw [Json.exists_leaf_iff, Json.exists_leaf_iff, h]

theorem predicate_privateSubnet_eq
    (h : (r.normalized "subnet_id").outline = (r'.normalized "subnet_id").outline) :
    privateSubnet.predicate r = privateSubnet.predicate r' := by
  rw [Resource.normalized, Resource.normalized] at h
  refine (settles_privateSubnet r).congr (settles_privateSubnet r') ?_ fun f => ?_
  · rw [Json.exists_string_iff, Json.exists_string_iff, h]
  · simp only [and_left_comm, exists_and_left]
    rw [Json.exists_object_iff, Json.exists_object_iff, h]

theorem predicate_groupDescription_eq
    (h : (r.normalized "description").outline = (r'.normalized "description").outline) :
    groupDescription.predicate r = groupDescription.predicate r' := by
  rw [Resource.normalized, Resource.normalized] at h
  refine (settles_groupDescription r).congr (settles_groupDescription r') ?_ (by simp)
  simp only [exists_and_left]
  rw [Json.exists_string_iff, Json.exists_string_iff, h]

end Builtin

/-! ## Judgements -/

/-- The same resource, its attributes written in another way. -/
structure Resource.Rewrites (R : Option Json → Option Json → Prop) (r r' : Resource) : Prop where
  type : r.type = r'.type
  name : r.name = r'.name
  defect : r.defect? = r'.defect?
  attributes : ∀ key, R (r.attribute? key) (r'.attribute? key)

section

variable {R : Option Json → Option Json → Prop} {r r' : Resource}

theorem Resource.Rewrites.judge_eq {check : Check} (h : r.Rewrites R r')
    (hpredicate : check.predicate r = check.predicate r') : check.judge r = check.judge r' := by
  rw [Check.judge, Check.judge, Check.outcome, Check.outcome, h.type, h.name, h.defect, hpredicate]

/-- One attribute of a well-formed resource is set. -/
theorem Resource.rewrites_insert {type name key : String} {value : Json} {attributes : Attributes}
    (hrefl : ∀ value?, R value? value?) (h : R (attributes.get? key) (some value)) :
    Rewrites R ⟨type, name, .attributes attributes⟩
      ⟨type, name, .attributes (attributes.insert key value)⟩ where
  type := rfl
  name := rfl
  defect := rfl
  attributes query := by
    have hinsert : attribute? ⟨type, name, .attributes (attributes.insert key value)⟩ query =
        if key = query then some value else attributes.get? query :=
      Dictionary.get?_insert attributes key query value
    rw [hinsert]
    split
    · rename_i heq
      exact heq ▸ h
    · exact hrefl _

namespace Builtin

theorem judge_eq_of_isVoid_eq (h : r.Rewrites R r')
    (hR : ∀ a b, R a b → a.all Json.isVoid = b.all Json.isVoid) :
    instanceProfile.judge r = instanceProfile.judge r' :=
  h.judge_eq (predicate_instanceProfile_eq (hR _ _ (h.attributes _)))

theorem judge_eq_of_outline_eq (h : r.Rewrites R r')
    (hR : ∀ a b, R a b → (Normalized.ofRaw a).outline = (Normalized.ofRaw b).outline) :
    privateSubnet.judge r = privateSubnet.judge r' ∧
      groupDescription.judge r = groupDescription.judge r' :=
  ⟨h.judge_eq (predicate_privateSubnet_eq (hR _ _ (h.attributes _))),
    h.judge_eq (predicate_groupDescription_eq (hR _ _ (h.attributes _)))⟩

/-- No built-in check sees how values are wrapped. -/
theorem judge_eq_of_rewraps (h : r.Rewrites (Relation.EqvGen Json.Rewraps) r') :
    ∀ check ∈ checks, check.judge r = check.judge r' := by
  have hvoid := judge_eq_of_isVoid_eq h fun _ _ =>
    eq_of_eqvGen (f := Option.all Json.isVoid) fun _ _ => Json.Rewraps.isVoid_eq
  have houtline := judge_eq_of_outline_eq h fun _ _ =>
    eq_of_eqvGen (f := fun value? => (Normalized.ofRaw value?).outline)
      fun _ _ => Json.Rewraps.outline_eq
  simpa [checks] using And.intro hvoid houtline

/-- Where first items are read, what is added behind them does not count. -/
theorem judge_eq_of_continues
    (h : r.Rewrites (Option.Rel (Relation.EqvGen (Json.Within Json.Continues))) r') :
    privateSubnet.judge r = privateSubnet.judge r' ∧
      groupDescription.judge r = groupDescription.judge r' := by
  refine judge_eq_of_outline_eq h fun a b hab => ?_
  cases hab with
  | none => rfl
  | some h =>
      exact eq_of_eqvGen (f := fun value => (Normalized.ofJson value).outline)
        (fun _ _ h => h.outline_eq fun _ _ h => congrArg _ h.ofJson_eq) h

/-- Where all items are read, their order does not count, and neither do those that say nothing. -/
theorem judge_eq_of_rearranges
    (h : r.Rewrites (Option.Rel (Relation.EqvGen (Json.Within Json.Rearranges))) r') :
    instanceProfile.judge r = instanceProfile.judge r' := by
  refine judge_eq_of_isVoid_eq h fun a b hab => ?_
  cases hab with
  | none => rfl
  | some h =>
      exact eq_of_eqvGen (f := Json.isVoid)
        (fun _ _ h => h.isVoid_eq fun _ _ => Json.Rearranges.isVoid_eq) h

/-- Where all items are read, more of them take no passing away. -/
theorem judge_eq_of_enlarges
    (h : r.Rewrites (Option.Rel (Relation.ReflTransGen (Json.Within Json.Enlarges))) r')
    (hpassed : (instanceProfile.judge r).verdict = .passed) :
    instanceProfile.judge r = instanceProfile.judge r' := by
  have hvoid : (r.attribute? "iam_instance_profile").all Json.isVoid = false := by
    obtain ⟨_, _, hanswer⟩ := Check.verdict_judge_ne_failed_iff.1 (by rw [hpassed]; nofun)
    have hpredicate := hanswer.resolve_right (settles_instanceProfile r).ne_skipped
    exact Json.exists_leaf_iff.1 ((settles_instanceProfile r).passed_iff.1 hpredicate)
  have hvoid' : (r'.attribute? "iam_instance_profile").all Json.isVoid = false :=
    Json.all_isVoid_enlarged (h.attributes _) hvoid
  exact h.judge_eq (predicate_instanceProfile_eq (hvoid.trans hvoid'.symm))

end Builtin

end

end ResourceAudit
