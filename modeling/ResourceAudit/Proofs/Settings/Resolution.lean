import ResourceAudit.Proofs.Accepted
import ResourceAudit.Proofs.Audit.Stages
import ResourceAudit.Proofs.Dictionary
import ResourceAudit.Settings

/-!
# Which plan settings resolve to

Overrides come before settings, and settings before what goes without saying. `Settings.Accepted`
tells which settings have a plan in a build and `Settings.Refused` what is wrong with the others;
`Plan.Follows` tells the plan. Resolution does just this (`Settings.resolve_settles`).
-/

namespace ResourceAudit

/-! ## Precedence -/

/-- What is asked for, else what is set, else what goes without saying. -/
def inForce {α : Type} (asked set : Option α) (unsaid : α) : α := asked.getD (set.getD unsaid)

/-- What may be said about a check in a build: anything if the build contains it, and that it is
off if it is a check at all. -/
def CheckSettings.FitsIn (c : CheckSettings) (b : Build) (id : String) : Prop :=
  id ∈ b.checkIds ∨ id ∈ Builtin.knownIds ∧ c.enabled = some false

/-- What is wrong with anything else that is said about a check. -/
inductive CheckSettings.Misfit (c : CheckSettings) (b : Build) (id : String) : SettingsError → Prop
  | unknown (h : id ∉ Builtin.knownIds) : c.Misfit b id (.unknownCheck id)
  | absent (known : id ∈ Builtin.knownIds) (absent : id ∉ b.checkIds)
      (on : c.enabled ≠ some false) : c.Misfit b id (.absentCheck id)

namespace Settings

variable {b : Build} {s : Settings} {o : Overrides}

def SchemaFits (s : Settings) : Prop :=
  ∀ found, s.schema = some found → found = "iacguard.config.v1"

def ProfileFits (s : Settings) (o : Overrides) : Prop :=
  inForce o.profile s.profile "strict" ∈ ["strict", "none"]

/-- Settings that have a plan under overrides in a build. -/
structure Accepted (s : Settings) (b : Build) (o : Overrides) : Prop where
  schema : s.SchemaFits
  profile : s.ProfileFits o
  checks : ∀ id c, s.checks.get? id = some c → c.FitsIn b id

/-- Why settings have no plan: for their schema, else for their profile, else for the first of the
checks, in the order of the ids, for which they say what does not fit. -/
inductive Refused (s : Settings) (b : Build) (o : Overrides) : SettingsError → Prop
  | schema {found : String} (h : s.schema = some found) (other : found ≠ "iacguard.config.v1") :
      s.Refused b o (.schema found)
  | profile (schema : s.SchemaFits) (h : ¬ s.ProfileFits o) :
      s.Refused b o (.profile (inForce o.profile s.profile "strict"))
  | check (schema : s.SchemaFits) (profile : s.ProfileFits o) {id : String} {c : CheckSettings}
      {e : SettingsError} (said : s.checks.get? id = some c) (h : c.Misfit b id e)
      (least : ∀ id' c' e', s.checks.get? id' = some c' → c'.Misfit b id' e' → id ≤ id') :
      s.Refused b o e

end Settings

/-- The plan of settings under overrides, for the checks of a build: on are those that settings
switch on or, if they leave them alone, that the profile does. -/
structure Plan.Follows (p : Plan) (b : Build) (s : Settings) (o : Overrides) : Prop where
  profile : p.profile = inForce o.profile s.profile "strict"
  parallel : p.parallel = inForce o.parallel s.parallel false
  checks : p.checks.keys = b.checkIds
  enabled : ∀ id, p.isEnabled id = true ↔
    id ∈ b.checkIds ∧ ((s.checks.get? id).bind (·.enabled)).getD (p.profile = "strict") = true

/-! ## Checks of a build -/

namespace Build

theorem checkIds_sublist (b : Build) : b.checkIds.Sublist Builtin.knownIds :=
  b.checks_sublist.map _

theorem pairwise_checkIds (b : Build) : b.checkIds.Pairwise (· < ·) := by
  have hknown : Builtin.knownIds.Pairwise (· < ·) := by decide
  exact hknown.sublist b.checkIds_sublist

end Build

theorem CheckSettings.fitsIn_or_misfit (b : Build) (id : String) (c : CheckSettings) :
    c.FitsIn b id ∨ ∃ e, c.Misfit b id e := by
  by_cases hknown : id ∈ Builtin.knownIds
  · by_cases hpresent : id ∈ b.checkIds
    · exact .inl (.inl hpresent)
    · by_cases hoff : c.enabled = some false
      · exact .inl (.inr ⟨hknown, hoff⟩)
      · exact .inr ⟨_, .absent hknown hpresent hoff⟩
  · exact .inr ⟨_, .unknown hknown⟩

theorem CheckSettings.Misfit.not_fitsIn {b : Build} {id : String} {c : CheckSettings}
    {e : SettingsError} (h : c.Misfit b id e) : ¬ c.FitsIn b id := by
  rintro (hpresent | ⟨hknown, hoff⟩)
  · cases h with
    | unknown hunknown => exact hunknown (b.checkIds_sublist.subset hpresent)
    | absent _ habsent _ => exact habsent hpresent
  · cases h with
    | unknown hunknown => exact hunknown hknown
    | absent _ _ hon => exact hon hoff

/-! ## One check after the other -/

/-- What entries say about a check. -/
def said (es : List (String × CheckSettings)) (id : String) : Option Bool :=
  (es.find? fun e => e.1 = id).bind (·.2.enabled)

theorem said_cons (e : String × CheckSettings) (es : List (String × CheckSettings)) (id : String) :
    said (e :: es) id = if e.1 = id then e.2.enabled else said es id := by
  by_cases hid : e.1 = id <;> simp [said, hid]

theorem said_of_notMem {es : List (String × CheckSettings)} {id : String}
    (h : id ∉ es.map (·.1)) : said es id = none := by
  have hfind : es.find? (fun e => e.1 = id) = none := by
    rw [List.find?_eq_none]
    intro e he heq
    exact h (List.mem_map.2 ⟨e, he, by simpa using heq⟩)
  rw [said, hfind]
  rfl

theorem bind_enabled_get? (d : Dictionary CheckSettings) (id : String) :
    (d.get? id).bind (·.enabled) = said d.entries id := by
  rw [Dictionary.get?, Option.bind_map]
  rfl

/-- A plan with other switches, on or off as entries say where they say anything. -/
structure Plan.Switched (es : List (String × CheckSettings)) (p q : Plan) : Prop where
  profile : q.profile = p.profile
  parallel : q.parallel = p.parallel
  checks : ∀ id, q.checks.get? id = (p.checks.get? id).map fun on => (said es id).getD on

namespace Settings

variable {b : Build} {p : Plan}

/-- The switches of a plan are those of the checks in a build. -/
def Switches (p : Plan) (b : Build) : Prop :=
  ∀ id, (p.checks.get? id).isSome = true ↔ id ∈ b.checkIds

theorem applyCheck_of_fitsIn {id : String} {c : CheckSettings} (hp : Switches p b)
    (h : c.FitsIn b id) : ∃ q, applyCheck p id c = .ok q ∧ Plan.Switched [(id, c)] p q := by
  have hsaid (id' : String) : said [(id, c)] id' = if id = id' then c.enabled else none :=
    said_cons _ _ _
  by_cases hpresent : id ∈ b.checkIds
  · rw [applyCheck, if_pos ((hp id).2 hpresent)]
    cases henabled : c.enabled with
    | none =>
        refine ⟨p, rfl, rfl, rfl, fun id' => ?_⟩
        rw [hsaid, henabled]
        simp
    | some on =>
        refine ⟨_, rfl, rfl, rfl, fun id' => ?_⟩
        rw [hsaid, henabled, Dictionary.get?_insert]
        by_cases hid : id = id'
        · obtain ⟨value, hvalue⟩ := Option.isSome_iff_exists.1 ((hp id).2 hpresent)
          simp [← hid, hvalue]
        · simp [hid]
  · obtain ⟨hknown, hoff⟩ := h.resolve_left hpresent
    refine ⟨p, ?_, rfl, rfl, fun id' => ?_⟩
    · rw [applyCheck, if_neg ((hp id).not.2 hpresent), if_neg (by simpa using hknown),
        if_neg (by simpa using hoff)]
    · rw [hsaid]
      by_cases hid : id = id'
      · have habsent : p.checks.get? id' = none := by
          rw [← hid]
          exact Option.not_isSome_iff_eq_none.1 ((hp id).not.2 hpresent)
        simp [habsent]
      · simp [hid]

theorem applyCheck_of_misfit {id : String} {c : CheckSettings} {e : SettingsError}
    (hp : Switches p b) (h : c.Misfit b id e) : applyCheck p id c = .error e := by
  cases h with
  | unknown hunknown =>
      have habsent : id ∉ b.checkIds := fun h => hunknown (b.checkIds_sublist.subset h)
      rw [applyCheck, if_neg ((hp id).not.2 habsent), if_pos (by simpa using hunknown)]
  | absent hknown habsent hon =>
      rw [applyCheck, if_neg ((hp id).not.2 habsent), if_neg (by simpa using hknown), if_pos hon]

theorem Switches.switched {es : List (String × CheckSettings)} {q : Plan} (hp : Switches p b)
    (h : Plan.Switched es p q) : Switches q b := by
  intro id
  rw [h.checks, Option.isSome_map, hp]

/-- Entries that fit are all applied. -/
theorem applyChecks_of_fitsIn {es : List (String × CheckSettings)} (hp : Switches p b)
    (hkeys : (es.map (·.1)).Nodup) (h : ∀ e ∈ es, e.2.FitsIn b e.1) :
    ∃ q, es.foldlM (fun p e => applyCheck p e.1 e.2) p = .ok q ∧ Plan.Switched es p q := by
  induction es generalizing p with
  | nil => exact ⟨p, rfl, rfl, rfl, fun id => by simp [said]⟩
  | cons e rest ih =>
      obtain ⟨hnew, hrest⟩ := List.nodup_cons.1 hkeys
      obtain ⟨hfirst, hothers⟩ := List.forall_mem_cons.1 h
      obtain ⟨q, hq, hpq⟩ := applyCheck_of_fitsIn hp hfirst
      obtain ⟨r, hr, hqr⟩ := ih (hp.switched hpq) hrest hothers
      refine ⟨r, ?_, hqr.profile.trans hpq.profile, hqr.parallel.trans hpq.parallel, fun id => ?_⟩
      · rw [List.foldlM_cons, hq]
        exact hr
      · rw [hqr.checks, hpq.checks, Option.map_map]
        congr 1
        funext on
        simp only [Function.comp_apply, said_cons]
        -- No later entry is about the check of this one, so what it says stands.
        by_cases hid : e.1 = id
        · rw [if_pos hid, if_pos hid, said_of_notMem (hid ▸ hnew)]
          rfl
        · rw [if_neg hid, if_neg hid]
          rfl

/-- The first entry that does not fit is the one that is refused. -/
theorem applyChecks_of_misfit {before after : List (String × CheckSettings)}
    {x : String × CheckSettings} {e : SettingsError} (hp : Switches p b)
    (hkeys : (before.map (·.1)).Nodup) (hbefore : ∀ x ∈ before, x.2.FitsIn b x.1)
    (h : x.2.Misfit b x.1 e) :
    (before ++ x :: after).foldlM (fun p e => applyCheck p e.1 e.2) p = .error e := by
  obtain ⟨q, hq, hpq⟩ := applyChecks_of_fitsIn hp hkeys hbefore
  rw [List.foldlM_append, hq]
  simp only [bind, Except.bind]
  rw [List.foldlM_cons, applyCheck_of_misfit (hp.switched hpq) h]
  rfl

/-! ## Resolution -/

variable {s : Settings} {o : Overrides}

theorem checkSchema_of_fits (h : s.SchemaFits) : s.checkSchema = .ok () := by
  unfold checkSchema
  split
  · rfl
  · rename_i found hfound
    exact if_pos (h found hfound)

theorem checkSchema_of_ne {found : String} (h : s.schema = some found)
    (hother : found ≠ "iacguard.config.v1") : s.checkSchema = .error (.schema found) := by
  rw [checkSchema, h]
  exact if_neg hother

theorem profileName_eq (s : Settings) (o : Overrides) :
    s.profileName o = inForce o.profile s.profile "strict" := by
  rw [profileName, inForce]
  cases o.profile <;> rfl

theorem parallel_eq (s : Settings) (o : Overrides) :
    (o.parallel <|> s.parallel).getD false = inForce o.parallel s.parallel false := by
  rw [inForce]
  cases o.parallel <;> rfl

theorem get?_ofProfile (b : Build) (p : Profile) (id : String) :
    (Plan.ofProfile b p).checks.get? id = if id ∈ b.checkIds then some p.enables else none :=
  Dictionary.get?_foldl_insert_const p.enables b.checkIds .empty id

/-- Where resolution starts: the plan that settings make as long as they name no check. -/
theorem startingPlan_of_fits (b : Build) (h : s.ProfileFits o) :
    ∃ p, s.startingPlan b o = .ok p ∧ p.profile = inForce o.profile s.profile "strict" ∧
      p.parallel = inForce o.parallel s.parallel false ∧
      ∀ id, p.checks.get? id =
        if id ∈ b.checkIds then some (decide (p.profile = "strict")) else none := by
  unfold startingPlan
  rw [profileName_eq, parallel_eq]
  unfold ProfileFits at h
  generalize inForce o.profile s.profile "strict" = name at h
  rcases List.mem_pair.1 h with rfl | rfl
  · exact ⟨_, rfl, rfl, rfl, get?_ofProfile b .strict⟩
  · exact ⟨_, rfl, rfl, rfl, get?_ofProfile b .none⟩

theorem startingPlan_of_not_fits (b : Build) (h : ¬ s.ProfileFits o) :
    s.startingPlan b o = .error (.profile (inForce o.profile s.profile "strict")) := by
  unfold startingPlan
  rw [profileName_eq]
  unfold ProfileFits at h
  generalize inForce o.profile s.profile "strict" = name at h
  have hname : Profile.ofName? name = none := by
    rw [Profile.ofName?, List.find?_eq_none]
    intro p hp heq
    refine h (List.mem_pair.2 ?_)
    have hpname : p.name = name := by simpa using heq
    cases p with
    | strict => exact .inl hpname.symm
    | none => exact .inr hpname.symm
  rw [hname]

theorem resolve_of_fits (hschema : s.SchemaFits) (hprofile : s.ProfileFits o) :
    ∃ p, Switches p b ∧ p.profile = inForce o.profile s.profile "strict" ∧
      p.parallel = inForce o.parallel s.parallel false ∧
      (∀ id, p.checks.get? id =
        if id ∈ b.checkIds then some (decide (p.profile = "strict")) else none) ∧
      resolve b s o = s.checks.entries.foldlM (fun p e => applyCheck p e.1 e.2) p := by
  obtain ⟨p, hp, hname, hparallel, hchecks⟩ := startingPlan_of_fits b hprofile
  refine ⟨p, fun id => ?_, hname, hparallel, hchecks, ?_⟩
  · rw [hchecks]
    by_cases hid : id ∈ b.checkIds <;> simp [hid]
  · rw [resolve, checkSchema_of_fits hschema, hp]
    rfl

theorem exists_follows_of_accepted (h : s.Accepted b o) :
    ∃ p, resolve b s o = .ok p ∧ p.Follows b s o := by
  obtain ⟨p, hp, hname, hparallel, hchecks, hresolve⟩ := resolve_of_fits h.schema h.profile
  have hfits : ∀ e ∈ s.checks.entries, e.2.FitsIn b e.1 := fun e he =>
    h.checks e.1 e.2 (Dictionary.get?_eq_some_iff.2 he)
  obtain ⟨q, hq, hpq⟩ := applyChecks_of_fitsIn hp s.checks.nodup_keys hfits
  refine ⟨q, hresolve.trans hq, ?_⟩
  constructor
  case profile => exact hpq.profile.trans hname
  case parallel => exact hpq.parallel.trans hparallel
  case checks =>
    refine Dictionary.keys_eq_of_mem_iff b.pairwise_checkIds fun id => ?_
    rw [Dictionary.mem_keys_iff, hp.switched hpq]
  case enabled =>
    intro id
    rw [Plan.isEnabled, hpq.checks, hchecks, hpq.profile, bind_enabled_get?]
    by_cases hid : id ∈ b.checkIds <;> simp [hid]

theorem resolve_of_refused {e : SettingsError} (h : s.Refused b o e) :
    resolve b s o = .error e := by
  cases h with
  | schema hfound hother =>
      rw [resolve, checkSchema_of_ne hfound hother]
      rfl
  | profile hschema hprofile =>
      rw [resolve, checkSchema_of_fits hschema, startingPlan_of_not_fits b hprofile]
      rfl
  | @check hschema hprofile id c _ hsaid hmisfit hleast =>
      obtain ⟨p, hp, -, -, -, hresolve⟩ := resolve_of_fits hschema hprofile
      obtain ⟨before, after, hsplit⟩ := List.append_of_mem (Dictionary.get?_eq_some_iff.1 hsaid)
      have hsorted := s.checks.sorted
      have hnodup := s.checks.nodup_keys
      rw [hsplit] at hsorted hnodup
      -- Entries stand in the order of their ids, so that all in front of the least misfit fit.
      have hbefore : ∀ x ∈ before, x.2.FitsIn b x.1 := by
        intro x hx
        refine (x.2.fitsIn_or_misfit b x.1).resolve_right fun ⟨e', he'⟩ => ?_
        have hget : s.checks.get? x.1 = some x.2 := by
          rw [Dictionary.get?_eq_some_iff, hsplit]
          exact List.mem_append_left _ hx
        have hlt : x.1 < id := (List.pairwise_append.1 hsorted).2.2 x hx _ List.mem_cons_self
        exact String.not_lt.2 (hleast x.1 x.2 e' hget he') hlt
      rw [hresolve, hsplit]
      rw [List.map_append] at hnodup
      exact applyChecks_of_misfit hp (List.nodup_append.1 hnodup).1 hbefore hmisfit

theorem accepted_or_refused (b : Build) (s : Settings) (o : Overrides) :
    s.Accepted b o ∨ ∃ e, s.Refused b o e := by
  by_cases hschema : s.SchemaFits
  · by_cases hprofile : s.ProfileFits o
    · rcases forall_or_first (fun x : String × CheckSettings => x.2.fitsIn_or_misfit b x.1)
        s.checks.entries with hfits | ⟨before, x, after, e, hsplit, hbefore, hmisfit⟩
      · exact .inl ⟨hschema, hprofile, fun id c hget =>
          hfits (id, c) (Dictionary.get?_eq_some_iff.1 hget)⟩
      · have hmem : x ∈ s.checks.entries := by simp [hsplit]
        refine .inr ⟨e, .check hschema hprofile (Dictionary.get?_eq_some_iff.2 hmem) hmisfit ?_⟩
        intro id' c' e' hget' hmisfit'
        have hmem' := Dictionary.get?_eq_some_iff.1 hget'
        have hsorted := s.checks.sorted
        rw [hsplit] at hmem' hsorted
        rcases List.mem_append.1 hmem' with hin | hin
        · exact absurd (hbefore _ hin) hmisfit'.not_fitsIn
        · rcases List.mem_cons.1 hin with rfl | hafter
          · exact String.le_refl _
          · have hrest := (List.pairwise_append.1 hsorted).2.1
            exact String.not_lt.1 (String.lt_asymm ((List.pairwise_cons.1 hrest).1 _ hafter))
    · exact .inr ⟨_, .profile hschema hprofile⟩
  · simp only [SchemaFits, not_forall] at hschema
    obtain ⟨found, hfound, hother⟩ := hschema
    exact .inr ⟨_, .schema hfound hother⟩

end Settings

/-- Settings have one plan at most under overrides in a build. -/
theorem Plan.Follows.eq {b : Build} {s : Settings} {o : Overrides} {p q : Plan}
    (hp : p.Follows b s o) (hq : q.Follows b s o) : p = q := by
  have hprofile : p.profile = q.profile := hp.profile.trans hq.profile.symm
  have hparallel : p.parallel = q.parallel := hp.parallel.trans hq.parallel.symm
  have hkeys : p.checks.keys = q.checks.keys := hp.checks.trans hq.checks.symm
  have henabled (id : String) : p.isEnabled id = q.isEnabled id := by
    rw [Bool.eq_iff_iff, hp.enabled, hq.enabled, hprofile]
  have hchecks : p.checks = q.checks := by
    apply Dictionary.ext_get?
    intro id
    have hsome : (p.checks.get? id).isSome = (q.checks.get? id).isSome := by
      rw [Bool.eq_iff_iff, ← Dictionary.mem_keys_iff, ← Dictionary.mem_keys_iff, hkeys]
    have hvalue := henabled id
    simp only [isEnabled] at hvalue
    cases hpid : p.checks.get? id <;> cases hqid : q.checks.get? id <;> simp_all
  cases p
  cases q
  simp_all

/-- In every build settings resolve under overrides to the plan that follows them, unless they are
refused, for the first reason in order. -/
theorem Settings.resolve_settles (b : Build) (s : Settings) (o : Overrides) :
    ((∃ p, resolve b s o = .ok p) ↔ s.Accepted b o) ∧
    (∀ e, resolve b s o = .error e ↔ s.Refused b o e) ∧
    ∀ p, resolve b s o = .ok p ↔ s.Accepted b o ∧ p.Follows b s o := by
  have haccepted (h : s.Accepted b o) : ∃ p, resolve b s o = .ok p := by
    obtain ⟨p, hp, -⟩ := exists_follows_of_accepted h
    exact ⟨p, hp⟩
  obtain ⟨hok, herror⟩ := outcome_iff haccepted (fun _ => resolve_of_refused)
    (accepted_or_refused b s o)
  refine ⟨hok, herror, fun p => ⟨fun hp => ?_, fun ⟨h, hp⟩ => ?_⟩⟩
  · have h : s.Accepted b o := hok.1 ⟨p, hp⟩
    obtain ⟨q, hq, hfollows⟩ := exists_follows_of_accepted h
    cases hp.symm.trans hq
    exact ⟨h, hfollows⟩
  · obtain ⟨q, hq, hfollows⟩ := exists_follows_of_accepted h
    rw [hq, hp.eq hfollows]

/-- In a build without the third check, that one may be switched off and not left to the profile. -/
example :
    let b : Build := ⟨true, true, false⟩
    let settings (c : CheckSettings) : Settings :=
      ⟨none, some "strict", none, .ofList [("CUSTOM_AWS_3", c), ("CUSTOM_AWS_1", ⟨some true⟩)]⟩
    Settings.resolve b (settings ⟨some false⟩) ⟨some "none", some true⟩ =
        .ok ⟨"none", true, .ofList [("CUSTOM_AWS_1", true), ("CUSTOM_AWS_2", false)]⟩ ∧
      Settings.resolve b (settings ⟨none⟩) ⟨some "none", some true⟩ =
        .error (.absentCheck "CUSTOM_AWS_3") := by
  decide +kernel

end ResourceAudit
