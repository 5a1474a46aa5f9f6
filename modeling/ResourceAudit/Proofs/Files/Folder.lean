import ResourceAudit.Proofs.Files.World
import Mathlib.Data.List.Basic

/-!
# Files in a directory

A name joined to the path of a directory is that name in the place where the path leads
(`ofText?_join`). So what is read and written there is a matter of that one place
(`Folder.look_join`, `target_join_eq_ok_iff`), however the directory is spelled.
-/

namespace ResourceAudit

namespace Path

/-! ## Steps of joined paths -/

def isAbsolute (text : String) : Bool := text.toList.head? = some '/'

def stepsOf (text : String) : List Step := (segments text.toList).filterMap Step.ofSegment?

/-- A name that is no path of several steps and no step but down. -/
structure IsName (name : String) : Prop where
  noSlash : '/' ∉ name.toList
  step : Step.ofSegment? name.toList = some (.down name)

theorem filterMap_segments_append_slash (s : List Char) :
    (segments (s ++ ['/'])).filterMap Step.ofSegment? =
      (segments s).filterMap Step.ofSegment? := by
  rw [segments_append, List.filterMap_append]
  simp [segments, Step.ofSegment?]

theorem IsName.ne_nil {name : String} (h : IsName name) : name.toList ≠ [] := by
  intro hnil
  have hstep := h.step
  rw [hnil] at hstep
  cases hstep

theorem IsName.filterMap_segments {name : String} (h : IsName name) :
    (segments name.toList).filterMap Step.ofSegment? = [.down name] := by
  rw [segments_of_notMem h.noSlash]
  simp [h.step]

/-- How a joined path is spelled: the directory, up to a slash at its end, in front of the name. -/
theorem toList_join (directory name : String) :
    directory = "" ∧ (join directory name).toList = name.toList ∨
      ∃ s, (directory.toList = s ∨ directory.toList = s ++ ['/']) ∧ directory ≠ "" ∧
        (join directory name).toList = s ++ '/' :: name.toList := by
  by_cases hempty : directory = ""
  · exact .inl ⟨hempty, by simp [join, hempty]⟩
  · right
    by_cases hslash : directory.toList.getLast? = some '/'
    · obtain ⟨s, hs⟩ := List.getLast?_eq_some_iff.1 hslash
      exact ⟨s, .inr hs, hempty, by simp [join, hs]⟩
    · exact ⟨directory.toList, .inl rfl, hempty, by simp [join, hempty, hslash]⟩

variable {directory name : String}

theorem stepsOf_join (h : IsName name) :
    stepsOf (join directory name) = stepsOf directory ++ [.down name] := by
  rw [stepsOf, stepsOf]
  rcases toList_join directory name with ⟨rfl, hjoin⟩ | ⟨s, hs, -, hjoin⟩
  · rw [hjoin, h.filterMap_segments]
    rfl
  · rw [hjoin, segments_append, List.filterMap_append, h.filterMap_segments]
    rcases hs with hs | hs
    · rw [hs]
    · rw [hs, filterMap_segments_append_slash]

theorem isAbsolute_join (h : IsName name) :
    isAbsolute (join directory name) = isAbsolute directory := by
  rw [isAbsolute, isAbsolute]
  rcases toList_join directory name with ⟨rfl, hjoin⟩ | ⟨s, hs, hne, hjoin⟩
  · rw [hjoin]
    have hfirst : name.toList.head? ≠ some '/' := fun hslash =>
      h.noSlash (List.mem_of_mem_head? hslash)
    simp [hfirst]
  · rw [hjoin]
    cases s with
    | nil =>
        rcases hs with hs | hs
        · exact absurd (String.toList_eq_nil_iff.1 hs) hne
        · rw [hs]
          rfl
    | cons c s =>
        rcases hs with hs | hs
        · rw [hs]
          rfl
        · rw [hs]
          rfl

theorem getLast?_join (h : IsName name) : (join directory name).toList.getLast? ≠ some '/' := by
  have hlast : (join directory name).toList.getLast? = name.toList.getLast? := by
    rcases toList_join directory name with ⟨-, hjoin⟩ | ⟨s, -, -, hjoin⟩
    · rw [hjoin]
    · rw [hjoin, List.getLast?_append_cons, List.getLast?_cons_of_ne_nil h.ne_nil]
  rw [hlast]
  exact fun hslash => h.noSlash (List.mem_of_getLast? hslash)

theorem ofText?_of_ne {text : String} (h : text ≠ "") :
    ofText? text = some ⟨isAbsolute text, stepsOf text, text.toList.getLast? = some '/'⟩ := by
  rw [ofText?, isAbsolute, stepsOf]
  cases htext : text.toList with
  | nil => exact absurd (String.toList_eq_nil_iff.1 htext) h
  | cons c rest => simp

theorem join_ne_empty (h : IsName name) : join directory name ≠ "" := by
  intro hempty
  rcases toList_join directory name with ⟨-, hjoin⟩ | ⟨s, -, -, hjoin⟩
  · rw [hempty] at hjoin
    exact h.ne_nil hjoin.symm
  · rw [hempty] at hjoin
    exact absurd hjoin.symm (by simp)

theorem ofText?_join (h : IsName name) :
    ofText? (join directory name) =
      some ⟨isAbsolute directory, stepsOf directory ++ [.down name], false⟩ := by
  rw [ofText?_of_ne (join_ne_empty h), isAbsolute_join h, stepsOf_join h,
    decide_eq_false (getLast?_join h)]

end Path

namespace FileTree

/-! ## Directories by path -/

/-- A directory stands where the path leads. The empty path leads to where its reader stands. -/
structure Folder (t : FileTree) (standing : Place) (directory : String) (q : Place) : Prop where
  follow : t.follow (if Path.isAbsolute directory then [] else standing)
    (Path.stepsOf directory) = .ok q
  node : t.node? q = some .directory

variable {t t' : FileTree} {standing q : Place} {directory name : String}

theorem Folder.unique {q' : Place} (h : t.Folder standing directory q)
    (h' : t.Folder standing directory q') : q = q' :=
  Except.ok.inj (h.follow.symm.trans h'.follow)

theorem follow_of_directories
    (hkept : ∀ p, t.node? p = some .directory → t'.node? p = some .directory) {p : Place}
    {steps : List Path.Step} (h : t.follow p steps = .ok q) (hq : t.node? q = some .directory) :
    t'.follow p steps = .ok q := by
  induction steps generalizing p with
  | nil => exact h
  | cons step rest ih =>
      obtain ⟨hp, -, hrest⟩ := follow_cons_eq_ok.1 h
      refine follow_cons_eq_ok.2 ⟨hkept p hp, ?_, ih hrest⟩
      cases step with
      | stay | up => trivial
      | down name =>
          have hfirst : t.follow (p ++ [name]) ([] ++ rest) = .ok q := hrest
          obtain ⟨d, hd, hnode⟩ := directory_of_follow_append hfirst hq
          cases hd
          exact Option.isSome_of_eq_some (hkept _ hnode)

/-- Only directories are on the way to a directory. -/
theorem Folder.of_directories (h : t.Folder standing directory q)
    (hkept : ∀ p, t.node? p = some .directory → t'.node? p = some .directory) :
    t'.Folder standing directory q :=
  ⟨follow_of_directories hkept h.follow h.node, hkept q h.node⟩

/-- A path to a directory leads to one, unless it is empty. -/
theorem isDirectory_iff_folder (hne : directory ≠ "") :
    t.isDirectory standing directory = true ↔ ∃ q, t.Folder standing directory q := by
  rw [isDirectory_iff, Path.ofText?_of_ne hne]
  constructor
  · rintro ⟨path, q, ⟨⟩, hfollow, hq⟩
    exact ⟨q, hfollow, hq⟩
  · rintro ⟨q, hfollow, hq⟩
    exact ⟨_, q, rfl, hfollow, hq⟩

/-! ## Names in a directory -/

theorem Folder.look_join (h : t.Folder standing directory q) (hname : Path.IsName name) :
    t.look standing (Path.join directory name) =
      match t.node? (q ++ [name]) with
      | none => .error .missing
      | some node => .ok node := by
  have hfollow := follow_append h.follow [.down name]
  rw [look, Path.ofText?_join hname]
  simp only [start, hfollow, FileTree.follow, h.node]
  cases hnode : t.node? (q ++ [name]) with
  | none => rfl
  | some node => cases node <;> simp [hnode]

theorem leads_join_iff {p : Place} (hname : Path.IsName name) :
    t.Leads standing (Path.join directory name) p ↔
      t.node? p ≠ some .directory ∧ ∃ q, t.Folder standing directory q ∧ p = q ++ [name] := by
  constructor
  · rintro ⟨hfree, path, before, last, d, hpath, -, hsteps, hfollow, hd, rfl⟩
    rw [Path.ofText?_join hname] at hpath
    cases hpath
    obtain ⟨rfl, hlast⟩ := List.append_inj' hsteps rfl
    cases hlast
    exact ⟨hfree, d, ⟨hfollow, hd⟩, rfl⟩
  · rintro ⟨hfree, q, h, rfl⟩
    exact ⟨hfree, _, _, name, q, Path.ofText?_join hname, rfl, rfl, h.follow, h.node, rfl⟩

/-- A file can be written under a name in a directory that is there, unless it is one itself. -/
theorem target_join_eq_ok_iff {p : Place} (hname : Path.IsName name) :
    t.target standing (Path.join directory name) = .ok p ↔
      t.node? p ≠ some .directory ∧ ∃ q, t.Folder standing directory q ∧ p = q ++ [name] :=
  target_eq_ok_iff.trans (leads_join_iff hname)

end FileTree

end ResourceAudit
