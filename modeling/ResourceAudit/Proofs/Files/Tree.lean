import ResourceAudit.Files.Tree
import ResourceAudit.Proofs.Accepted

/-!
# Paths through a changing tree

A path names a place by its steps alone (`place?`), and on the way there it needs directories. So a
change that removes nothing leaves every path leading where it led (`Keeps`), and a file is read
back under the path it was written to.
-/

namespace ResourceAudit.FileTree

/-! ## Places by name -/

def stepFrom (p : Place) : Path.Step → Place
  | .stay => p
  | .up => p.dropLast
  | .down name => p ++ [name]

/-- The place that a path names, whatever stands on the way. -/
def place? (standing : Place) (text : String) : Option Place :=
  (Path.ofText? text).map fun path => path.steps.foldl stepFrom (start standing path)

/-- Whether a step from a directory leads anywhere. -/
def Passable (t : FileTree) (p : Place) : Path.Step → Prop
  | .down name => (t.node? (p ++ [name])).isSome
  | _ => True

variable {t t' : FileTree}

theorem follow_cons_eq_ok {p q : Place} {step : Path.Step} {rest : List Path.Step} :
    t.follow p (step :: rest) = .ok q ↔
      t.node? p = some .directory ∧ t.Passable p step ∧
        t.follow (stepFrom p step) rest = .ok q := by
  by_cases hp : t.node? p = some .directory
  · cases step with
    | stay => simp [follow, hp, Passable, stepFrom]
    | up => simp [follow, hp, Passable, stepFrom]
    | down name =>
        by_cases hname : (t.node? (p ++ [name])).isSome
        · simp [follow, hp, Passable, stepFrom, hname]
        · simp [follow, hp, Passable, hname]
  · cases step <;> simp [follow, hp]

theorem follow_eq_foldl {p q : Place} {steps : List Path.Step} (h : t.follow p steps = .ok q) :
    q = steps.foldl stepFrom p := by
  induction steps generalizing p with
  | nil =>
      cases h
      rfl
  | cons step rest ih => exact ih (follow_cons_eq_ok.1 h).2.2

theorem follow_append {p d : Place} {steps : List Path.Step} (h : t.follow p steps = .ok d)
    (more : List Path.Step) : t.follow p (steps ++ more) = t.follow d more := by
  induction steps generalizing p with
  | nil =>
      cases h
      rfl
  | cons step rest ih =>
      obtain ⟨hp, hpass, hrest⟩ := follow_cons_eq_ok.1 h
      rw [List.cons_append, ← ih hrest]
      cases step with
      | stay | up => simp [follow, hp, stepFrom]
      | down name =>
          have hsome : (t.node? (p ++ [name])).isSome = true := hpass
          simp [follow, hp, hsome, stepFrom]

theorem follow_append_eq_ok {p d q : Place} {steps more : List Path.Step}
    (h : t.follow p steps = .ok d) (hmore : t.follow d more = .ok q) :
    t.follow p (steps ++ more) = .ok q :=
  (follow_append h more).trans hmore

theorem directory_of_follow_append {p q : Place} {steps more : List Path.Step}
    (h : t.follow p (steps ++ more) = .ok q) (hq : t.node? q = some .directory) :
    ∃ d, t.follow p steps = .ok d ∧ t.node? d = some .directory := by
  induction steps generalizing p with
  | nil =>
      refine ⟨p, rfl, ?_⟩
      cases more with
      | nil =>
          cases h
          exact hq
      | cons step rest => exact (follow_cons_eq_ok.1 h).1
  | cons step rest ih =>
      obtain ⟨hp, hpass, hrest⟩ := follow_cons_eq_ok.1 h
      obtain ⟨d, hfollow, hd⟩ := ih hrest
      exact ⟨d, follow_cons_eq_ok.2 ⟨hp, hpass, hfollow⟩, hd⟩

/-! ## Operations that succeed -/

theorem followToDirectory_eq_ok {p q : Place} {steps : List Path.Step} :
    t.followToDirectory p steps = .ok q ↔
      t.follow p steps = .ok q ∧ t.node? q = some .directory := by
  rw [followToDirectory, bind_eq_ok]
  constructor
  · rintro ⟨r, hfollow, h⟩
    split at h
    · rename_i hr
      cases h
      exact ⟨hfollow, hr⟩
    · cases h
  · rintro ⟨hfollow, hq⟩
    exact ⟨q, hfollow, by rw [if_pos hq]; rfl⟩

theorem site_eq_name {p q : Place} {steps : List Path.Step} (h : t.site p steps = .ok (.name q)) :
    ∃ before name d, steps = before ++ [.down name] ∧ t.follow p before = .ok d ∧
      t.node? d = some .directory ∧ q = d ++ [name] := by
  unfold site at h
  split at h
  · cases h
  · rename_i name hlast
    obtain ⟨before, rfl⟩ := List.getLast?_eq_some_iff.1 hlast
    obtain ⟨d, hd, hq⟩ := map_eq_ok.1 h
    rw [List.dropLast_concat] at hd
    obtain ⟨hfollow, hnode⟩ := followToDirectory_eq_ok.1 hd
    cases hq
    exact ⟨before, name, d, rfl, hfollow, hnode, rfl⟩
  · obtain ⟨d, -, hq⟩ := map_eq_ok.1 h
    cases hq

/-- What makes a path one to write to: the directory it leads into, and the name in it. -/
structure Leads (t : FileTree) (standing : Place) (text : String) (p : Place) : Prop where
  intro ::
  free : t.node? p ≠ some .directory
  into : ∃ path before name d, Path.ofText? text = some path ∧ path.asksDirectory = false ∧
    path.steps = before ++ [.down name] ∧ t.follow (start standing path) before = .ok d ∧
    t.node? d = some .directory ∧ p = d ++ [name]

theorem target_eq_ok_iff {standing p : Place} {text : String} :
    t.target standing text = .ok p ↔ t.Leads standing text p := by
  constructor
  · intro h
    unfold target at h
    split at h
    · cases h
    · rename_i path hpath
      split at h
      · cases h
      · cases h
      · rename_i q hsite
        obtain ⟨before, name, d, hsteps, hfollow, hd, rfl⟩ := site_eq_name hsite
        split at h
        · cases h
        · rename_i hfree
          simp only [Bool.or_eq_true, decide_eq_true_eq, not_or, Bool.not_eq_true] at hfree
          cases h
          exact ⟨hfree.2, path, before, name, d, hpath, hfree.1, hsteps, hfollow, hd, rfl⟩
  · rintro ⟨hfree, path, before, name, d, hpath, hasks, hsteps, hfollow, hd, rfl⟩
    have hinto := followToDirectory_eq_ok.2 ⟨hfollow, hd⟩
    simp [target, hpath, site, hsteps, hinto, Except.map, hasks, hfree]

theorem Leads.ne_root {standing p : Place} {text : String} (h : t.Leads standing text p) :
    p ≠ [] := by
  obtain ⟨-, path, before, name, d, -, -, -, -, -, rfl⟩ := h
  exact List.append_ne_nil_of_right_ne_nil d (List.cons_ne_nil name [])

theorem place?_of_leads {standing p : Place} {text : String} (h : t.Leads standing text p) :
    place? standing text = some p := by
  obtain ⟨-, path, before, name, d, hpath, -, hsteps, hfollow, -, rfl⟩ := h
  rw [place?, hpath, Option.map_some, hsteps, List.foldl_append, ← follow_eq_foldl hfollow]
  rfl

/-- A file is read under the path it can be written to. -/
theorem read_of_leads {standing p : Place} {text content : String} (h : t.Leads standing text p)
    (hp : t.node? p = some (.file content)) : t.read standing text = .ok content := by
  obtain ⟨-, path, before, name, d, hpath, hasks, hsteps, hfollow, hd, rfl⟩ := h
  have hlast : t.follow d [.down name] = .ok (d ++ [name]) :=
    follow_cons_eq_ok.2 ⟨hd, by simp [Passable, hp], rfl⟩
  have hall : t.follow (start standing path) path.steps = .ok (d ++ [name]) :=
    hsteps ▸ follow_append_eq_ok hfollow hlast
  simp [read, look, hpath, hall, hp, hasks]

/-! ## Changes that remove nothing -/

/-- Directories stay directories, and where something stands, something stands. -/
structure Keeps (t t' : FileTree) : Prop where
  directory : ∀ p, t.node? p = some .directory → t'.node? p = some .directory
  present : ∀ p, (t.node? p).isSome → (t'.node? p).isSome

theorem keeps_set {p : Place} (n : Node) (hp : t.node? p ≠ some .directory) :
    Keeps t (t.set p n) := by
  constructor
  · intro q hq
    rw [node?_set]
    split
    · rfl
    · split
      · rename_i heq
        exact absurd (heq ▸ hq) hp
      · exact hq
  · intro q hq
    rw [node?_set]
    split
    · rfl
    · split
      · rfl
      · exact hq

theorem Keeps.follow (h : Keeps t t') {p q : Place} {steps : List Path.Step}
    (hfollow : t.follow p steps = .ok q) : t'.follow p steps = .ok q := by
  induction steps generalizing p with
  | nil => exact hfollow
  | cons step rest ih =>
      obtain ⟨hp, hpass, hrest⟩ := follow_cons_eq_ok.1 hfollow
      refine follow_cons_eq_ok.2 ⟨h.directory p hp, ?_, ih hrest⟩
      cases step with
      | stay => trivial
      | up => trivial
      | down name => exact h.present _ hpass

theorem Keeps.leads (h : Keeps t t') {standing p : Place} {text : String}
    (hleads : t.Leads standing text p) (hfree : t'.node? p ≠ some .directory) :
    t'.Leads standing text p := by
  obtain ⟨-, path, before, name, d, hpath, hasks, hsteps, hfollow, hd, hp⟩ := hleads
  exact ⟨hfree, path, before, name, d, hpath, hasks, hsteps, h.follow hfollow, h.directory d hd, hp⟩

theorem isDirectory_iff {standing : Place} {text : String} :
    t.isDirectory standing text = true ↔
      ∃ path p, Path.ofText? text = some path ∧
        t.follow (start standing path) path.steps = .ok p ∧ t.node? p = some .directory := by
  constructor
  · intro h
    unfold isDirectory look at h
    cases hpath : Path.ofText? text with
    | none => simp [hpath] at h
    | some path =>
        cases hfollow : t.follow (start standing path) path.steps with
        | error e => simp [hpath, hfollow] at h
        | ok p =>
            refine ⟨path, p, rfl, hfollow, ?_⟩
            simp only [hpath, hfollow] at h
            split at h
            · rename_i hlook
              split at hlook
              · cases hlook
              · assumption
              · split at hlook <;> cases hlook
            · cases h
  · rintro ⟨path, p, hpath, hfollow, hp⟩
    simp [isDirectory, look, hpath, hfollow, hp]

theorem Keeps.isDirectory (h : Keeps t t') {standing : Place} {text : String}
    (hd : t.isDirectory standing text = true) : t'.isDirectory standing text = true := by
  obtain ⟨path, p, hpath, hfollow, hp⟩ := isDirectory_iff.1 hd
  exact isDirectory_iff.2 ⟨path, p, hpath, h.follow hfollow, h.directory p hp⟩

end ResourceAudit.FileTree
