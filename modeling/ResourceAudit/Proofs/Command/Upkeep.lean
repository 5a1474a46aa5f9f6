import ResourceAudit.Proofs.Accepted
import ResourceAudit.Proofs.Command.Publishing
import Mathlib.Data.List.Nodup

/-!
# Published schemas

Schemas that were written to a directory are watched there (`guarded_of_emit`): validation finds
what was removed or changed since and nothing else, and writing them again brings back what was
published. Under the empty path alone it finds nothing, though schemas are written there. All that
holds as long as the words lead the tasks to the same directory (`Resumes`): without a directory
among them, that is a matter of the environment and of where the host stands.
-/

namespace ResourceAudit.Upkeep

variable {w : World} {t : FileTree} {q : Place} {directory : String} {ps : List Publication}

/-! ## Differences -/

/-- How what stands in a directory differs from a publication, if it does. -/
def driftAt (t : FileTree) (q : Place) (p : Publication) : Option Drift :=
  match t.node? (q ++ [p.fileName]) with
  | none => some .missing
  | some node => if node = .file p.text then none else some .outOfDate

theorem run_driftOf {p : Publication} (hfolder : w.files.Folder w.standing directory q)
    (hname : Path.IsName p.fileName)
    (hfree : w.files.node? (q ++ [p.fileName]) ≠ some .directory) :
    (driftOf directory p : StateM World _).run w = (.ok (driftAt w.files q p), w) := by
  have hlook := hfolder.look_join hname
  have hpresent : (Host.isPresent (Path.join directory p.fileName) : StateM World _).run w =
      ((w.files.look w.standing (Path.join directory p.fileName)).isOk, w) := rfl
  have hread := World.run_readText (Path.join directory p.fileName) w
  rw [FileTree.read] at hread
  rw [driftOf, World.run_bind hpresent, driftAt]
  cases hnode : w.files.node? (q ++ [p.fileName]) with
  | none =>
      rw [hlook, hnode]
      rfl
  | some node =>
      cases node with
      | directory => exact absurd hnode hfree
      | file text =>
          rw [hnode] at hlook
          rw [hlook] at hread ⊢
          simp only [Node.file.injEq]
          exact World.run_bind hread

/-- The names of the files that differ, each with how it does. -/
def found (t : FileTree) (q : Place) (ps : List Publication) : List (String × Drift) :=
  ps.filterMap fun p => (driftAt t q p).map (p.fileName, ·)

theorem found_cons (t : FileTree) (q : Place) (p : Publication) (ps : List Publication) :
    found t q (p :: ps) =
      match driftAt t q p with
      | none => found t q ps
      | some d => (p.fileName, d) :: found t q ps := by
  rw [found, List.filterMap_cons, ← found]
  cases driftAt t q p <;> rfl

theorem run_drifts (hfolder : w.files.Folder w.standing directory q)
    (hnames : ∀ p ∈ ps, Path.IsName p.fileName) (hfree : Free w.files q ps) :
    (drifts directory ps : StateM World _).run w = (.ok (found w.files q ps), w) := by
  induction ps with
  | nil => rfl
  | cons p rest ih =>
      obtain ⟨hname, hnames⟩ := List.forall_mem_cons.1 hnames
      obtain ⟨hp, hrest⟩ := List.forall_mem_cons.1 hfree
      rw [drifts, World.run_bind (run_driftOf hfolder hname hp)]
      simp only [World.run_bind (ih hnames hrest), found_cons]
      cases driftAt w.files q p <;> rfl

/-- The publications whose files differ in one way, by the names of the files. -/
def namesOf (t : FileTree) (q : Place) (d : Drift) (ps : List Publication) : List String :=
  (ps.filter fun p => driftAt t q p = some d).map Publication.fileName

theorem map_filter_found (t : FileTree) (q : Place) (d : Drift) (ps : List Publication) :
    ((found t q ps).filter fun f => f.2 = d).map (·.1) = namesOf t q d ps := by
  induction ps with
  | nil => rfl
  | cons p rest ih =>
      rw [namesOf] at ih ⊢
      rw [found_cons, List.filter_cons]
      cases hdrift : driftAt t q p with
      | none => simpa using ih
      | some d' =>
          by_cases hd : d' = d
          · simpa [hd] using ih
          · simpa [hd] using ih

theorem driftAt_eq_none {p : Publication} :
    driftAt t q p = none ↔ t.node? (q ++ [p.fileName]) = some (.file p.text) := by
  rw [driftAt]
  cases t.node? (q ++ [p.fileName]) with
  | none => simp
  | some node => simp

theorem driftAt_eq_missing {p : Publication} :
    driftAt t q p = some .missing ↔ t.node? (q ++ [p.fileName]) = none := by
  rw [driftAt]
  cases t.node? (q ++ [p.fileName]) with
  | none => simp
  | some node => simp

theorem driftAt_eq_outOfDate {p : Publication}
    (hfree : t.node? (q ++ [p.fileName]) ≠ some .directory) :
    driftAt t q p = some .outOfDate ↔
      ∃ text, text ≠ p.text ∧ t.node? (q ++ [p.fileName]) = some (.file text) := by
  rw [driftAt]
  cases hnode : t.node? (q ++ [p.fileName]) with
  | none => simp
  | some node =>
      cases node with
      | directory => exact absurd hnode hfree
      | file text => simp [eq_comm]

/-- These are the names of the files of some publications, in order: those of which something
holds. -/
structure AreNames (names : List String) (holds : Publication → Prop) : Prop where
  sublist : names.Sublist (Publication.all.map Publication.fileName)
  mem_iff : ∀ p ∈ Publication.all, p.fileName ∈ names ↔ holds p

theorem areNames_namesOf {d : Drift} {holds : Publication → Prop}
    (h : ∀ p ∈ Publication.all, driftAt t q p = some d ↔ holds p) :
    AreNames (namesOf t q d Publication.all) holds := by
  refine ⟨List.filter_sublist.map _, fun p hp => ?_⟩
  rw [← h p hp, namesOf, List.mem_map]
  constructor
  · rintro ⟨p', hp', hname⟩
    obtain ⟨hmem, hdrift⟩ := List.mem_filter.1 hp'
    obtain rfl := List.inj_on_of_nodup_map Publication.nodup_fileName hmem hp hname
    exact of_decide_eq_true hdrift
  · exact fun hdrift => ⟨p, List.mem_filter.2 ⟨hp, decide_eq_true hdrift⟩, rfl⟩

/-- Every publication is in a directory as it would be written. -/
def Published (t : FileTree) (q : Place) : Prop :=
  ∀ p ∈ Publication.all, t.node? (q ++ [p.fileName]) = some (.file p.text)

theorem not_published_of_missing {p : Publication} (hp : p ∈ Publication.all)
    (h : t.node? (q ++ [p.fileName]) = none) : ¬ Published t q := fun hall => by
  cases h.symm.trans (hall p hp)

theorem found_eq_nil : found t q Publication.all = [] ↔ Published t q := by
  rw [found, List.filterMap_eq_nil_iff]
  exact forall₂_congr fun p _ => Option.map_eq_none_iff.trans driftAt_eq_none

/-! ## Validating -/

def upToDate : Exit := .success (lines ["All schemas are up to date."])

/-- What is said of a path that leads to no directory. -/
def noSchemas (directory : String) : Exit :=
  .success <| lines
    [s!"No schemas at {directory}; nothing to validate. " ++
      "Run `cargo xtask emit-schemas` to create them."]

/-- The failure that names missing files and files with other texts. -/
def drifted (missing outOfDate : List String) : Exit :=
  .failure ""
    (lines (listed "Missing schemas:" missing ++ listed "Schemas out of date:" outOfDate ++
      ["", "Run `cargo xtask emit-schemas` to regenerate."]))
    ["xtask failed", "Schema validation failed"]

/-- What validation says of a directory that is there, by what stands in it. Under the empty path
there is none. -/
def verdict (directory : String) (t : FileTree) (q : Place) : Exit :=
  if directory = "" then noSchemas directory
  else
    match found t q Publication.all with
    | [] => upToDate
    | _ => drifted (namesOf t q .missing Publication.all) (namesOf t q .outOfDate Publication.all)

theorem verdict_of_published (hne : directory ≠ "") (h : Published t q) :
    verdict directory t q = upToDate := by
  rw [verdict, if_neg hne, found_eq_nil.2 h]

theorem verdict_of_not_published (hne : directory ≠ "") (h : ¬ Published t q) :
    verdict directory t q =
      drifted (namesOf t q .missing Publication.all) (namesOf t q .outOfDate Publication.all) := by
  rw [verdict, if_neg hne]
  split
  · exact absurd (found_eq_nil.1 ‹_›) h
  · rfl

/-- Only what stands in the places of publications matters. -/
theorem verdict_congr {t' : FileTree}
    (h : ∀ p ∈ Publication.all, t'.node? (q ++ [p.fileName]) = t.node? (q ++ [p.fileName])) :
    verdict directory t' q = verdict directory t q := by
  have hdrift : ∀ p ∈ Publication.all, driftAt t' q p = driftAt t q p := fun p hp => by
    rw [driftAt, driftAt, h p hp]
  have hfound : found t' q Publication.all = found t q Publication.all :=
    List.filterMap_congr fun p hp => by rw [hdrift p hp]
  have hnames (d : Drift) : namesOf t' q d Publication.all = namesOf t q d Publication.all :=
    congrArg _ (List.filter_congr fun p hp => by rw [hdrift p hp])
  rw [verdict, verdict, hfound, hnames, hnames]

theorem run_validateSchemas (hfolder : w.files.Folder w.standing directory q)
    (hfree : Free w.files q Publication.all) :
    (validateSchemas directory : StateM World _).run w = (verdict directory w.files q, w) := by
  have hask : (Host.isDirectory directory : StateM World _).run w =
      (w.files.isDirectory w.standing directory, w) := rfl
  rw [validateSchemas, World.run_bind hask, verdict]
  by_cases hempty : directory = ""
  · subst hempty
    rfl
  · rw [(FileTree.isDirectory_iff_folder hempty).2 ⟨q, hfolder⟩, if_neg hempty,
      ← map_filter_found, ← map_filter_found]
    refine (World.run_bind (run_drifts hfolder Publication.isName_fileName hfree)).trans ?_
    cases found w.files q Publication.all <;> rfl

/-! ## Tasks that only read -/

/-- A task that leaves every world as it is. -/
def Reads {α : Type} (x : StateM World α) : Prop := ∀ w, (x.run w).2 = w

theorem reads_pure {α : Type} (a : α) : Reads (pure a) := fun _ => rfl

theorem reads_ask {α : Type} (f : World → α) : Reads (World.ask f) := fun _ => rfl

theorem Reads.bind {α β : Type} {x : StateM World α} {f : α → StateM World β} (hx : Reads x)
    (hf : ∀ a, Reads (f a)) : Reads (x >>= f) := by
  intro w
  have hrun : x.run w = ((x.run w).1, w) := Prod.ext rfl (hx w)
  rw [World.run_bind hrun]
  exact hf _ w

theorem reads_driftOf (directory : String) (p : Publication) : Reads (driftOf directory p) := by
  refine (reads_ask _).bind fun there => ?_
  cases there with
  | false => exact reads_pure _
  | true =>
      refine (reads_ask _).bind fun text => ?_
      cases text <;> exact reads_pure _

theorem reads_drifts (directory : String) (ps : List Publication) :
    Reads (drifts directory ps) := by
  induction ps with
  | nil => exact reads_pure _
  | cons p rest ih =>
      refine (reads_driftOf directory p).bind fun drift => ?_
      cases drift with
      | error e => exact reads_pure _
      | ok drift =>
          refine ih.bind fun others => ?_
          cases others with
          | error e => exact reads_pure _
          | ok others => cases drift <;> exact reads_pure _

theorem reads_validateSchemas (directory : String) : Reads (validateSchemas directory) := by
  refine (reads_ask _).bind fun there => ?_
  cases there with
  | false => exact reads_pure _
  | true =>
      refine (reads_drifts directory _).bind fun found => ?_
      rcases found with e | _ | _ <;> exact reads_pure _

/-! ## Tasks on a directory -/

variable {w' : World} {args : List String} {given : Option String}

/-- The directory of the project, as a world has it. -/
def rootIn (w : World) : Except TaskError String :=
  match w.environment packageVariable with
  | some directory => .ok (rootFrom directory)
  | none => (w.here.mapError .nowhere).map rootFrom

def folderIn (w : World) : Option String → Except TaskError String
  | some directory => .ok directory
  | none => (rootIn w).map (Path.join · "schemas")

theorem run_projectRoot (w : World) :
    (projectRoot : StateM World _).run w = (rootIn w, w) := by
  have hvariable : (Host.environment packageVariable : StateM World _).run w =
      (w.environment packageVariable, w) := rfl
  rw [projectRoot, World.run_bind hvariable, rootIn]
  cases w.environment packageVariable <;> rfl

theorem run_schemasDirectory (given : Option String) (w : World) :
    (schemasDirectory given : StateM World _).run w = (folderIn w given, w) := by
  cases given with
  | some directory => rfl
  | none =>
      rw [schemasDirectory, World.run_bind (run_projectRoot w)]
      rfl

theorem rootIn_eq_ok_iff {root : String} :
    rootIn w = .ok root ↔
      (∃ directory, w.environment packageVariable = some directory ∧ rootFrom directory = root) ∨
        w.environment packageVariable = none ∧ w.files.node? w.standing = some .directory ∧
          rootFrom (World.pathOf w.standing) = root := by
  rw [rootIn, World.here]
  cases w.environment packageVariable with
  | some directory => simp
  | none =>
      by_cases hthere : w.files.node? w.standing = some .directory <;>
        simp [hthere, Except.map, Except.mapError]

/-- The empty path is the directory of the schemas only if it is asked for. -/
theorem eq_empty_of_folderIn (h : folderIn w given = .ok directory) :
    directory = "" ↔ given = some "" := by
  cases given with
  | some directory =>
      cases h
      simp
  | none =>
      have hname : Path.IsName "schemas" := ⟨by decide, by decide⟩
      obtain ⟨root, -, rfl⟩ := map_eq_ok.1 h
      simp [Path.join_ne_empty hname]

/-- A world in which the tasks look for the schemas where they did in another: their host stands in
the same place. If they were given no directory, the environment still names the same one, or if it
names none that place is still there. -/
structure Resumes (given : Option String) (w w' : World) : Prop where
  standing : w'.standing = w.standing
  environment : given = none → w'.environment packageVariable = w.environment packageVariable
  there : given = none → w.environment packageVariable = none →
    w'.files.node? w.standing = some .directory

theorem Resumes.folderIn_eq_ok (hresumes : Resumes given w w')
    (h : folderIn w given = .ok directory) : folderIn w' given = .ok directory := by
  cases given with
  | some _ => exact h
  | none =>
      obtain ⟨root, hroot, rfl⟩ := map_eq_ok.1 h
      refine map_eq_ok.2 ⟨root, ?_, rfl⟩
      rw [rootIn_eq_ok_iff, hresumes.environment rfl, hresumes.standing]
      obtain hnamed | ⟨hvariable, -, hroot⟩ := rootIn_eq_ok_iff.1 hroot
      · exact .inl hnamed
      · exact .inr ⟨hvariable, hresumes.there rfl hvariable, hroot⟩

/-- Where directories are kept, the tasks find their way as before. -/
theorem resumes_withFiles {t : FileTree} (h : folderIn w given = .ok directory)
    (hkept : ∀ p, w.files.node? p = some .directory → t.node? p = some .directory) :
    Resumes given w (w.withFiles t) := by
  refine ⟨rfl, fun _ => rfl, ?_⟩
  rintro rfl hvariable
  obtain ⟨root, hroot, -⟩ := map_eq_ok.1 h
  obtain ⟨_, hnamed, -⟩ | ⟨-, hthere, -⟩ := rootIn_eq_ok_iff.1 hroot
  · rw [hvariable] at hnamed
    cases hnamed
  · exact hkept _ hthere

theorem run_onSchemas {task : String → StateM World Exit} (h : folderIn w given = .ok directory) :
    (onSchemas task given).run w = (task directory).run w := by
  have hrun := run_schemasDirectory given w
  rw [h] at hrun
  exact World.run_bind hrun

theorem reads_onSchemas {task : String → StateM World Exit} (htask : ∀ d, Reads (task d))
    (given : Option String) : Reads (onSchemas task given) := by
  refine Reads.bind (fun w => by rw [run_schemasDirectory]) fun directory => ?_
  cases directory with
  | error e => exact reads_pure _
  | ok directory => exact htask directory

def emit (args : List String) : StateM World Exit := runWords ("emit-schemas" :: args)

def validate (args : List String) : StateM World Exit := runWords ("validate-schemas" :: args)

theorem emit_eq (args : List String) : emit args = onSchemas emitSchemas args.head? := by
  rw [List.head?_eq_getElem?]
  rfl

theorem validate_eq (args : List String) : validate args = onSchemas validateSchemas args.head? := by
  rw [List.head?_eq_getElem?]
  rfl

/-- Schemas are emitted only where their directory is known. -/
theorem exists_folderIn_of_emit {w₁ : World} {exit : Exit} (h : (emit args).run w = (exit, w₁))
    (hok : exit.code = 0) :
    ∃ directory, folderIn w args.head? = .ok directory ∧
      (emitSchemas directory : StateM World _).run w = (exit, w₁) := by
  rw [emit_eq] at h
  cases hdirectory : folderIn w args.head? with
  | ok directory => exact ⟨directory, rfl, run_onSchemas hdirectory ▸ h⟩
  | error e =>
      have hrun := run_schemasDirectory args.head? w
      rw [hdirectory] at hrun
      cases (World.run_bind hrun).symm.trans h
      cases hok

/-! ## Schemas that are watched -/

/-- What the tasks make of a world in which the directory is at a place. Emitting ends as it did when
it first succeeded. -/
structure Guards (args : List String) (exit : Exit) (directory : String) (q : Place)
    (w : World) : Prop where
  validates : directory ≠ "" → Published w.files q → (validate args).run w = (upToDate, w)
  caught : directory ≠ "" → ¬ Published w.files q → ∃ missing outOfDate,
    (validate args).run w = (drifted missing outOfDate, w) ∧
      AreNames missing (fun p => w.files.node? (q ++ [p.fileName]) = none) ∧
      AreNames outOfDate (fun p => ∃ text, text ≠ p.text ∧
        w.files.node? (q ++ [p.fileName]) = some (.file text))
  unnoticed : directory = "" → (validate args).run w = (noSchemas directory, w)
  elsewhere : ∀ t : FileTree,
    (∀ p, w.files.node? p = some .directory → t.node? p = some .directory) →
    (∀ p ∈ Publication.all, t.node? (q ++ [p.fileName]) = w.files.node? (q ++ [p.fileName])) →
    (validate args).run (w.withFiles t) = (((validate args).run w).1, w.withFiles t)
  restored : ∃ t, (emit args).run w = (exit, w.withFiles t) ∧
    t.Folder w.standing directory q ∧ Published t q ∧
    (∀ place, (∀ p ∈ Publication.all, place ≠ q ++ [p.fileName]) →
      t.node? place = w.files.node? place) ∧
    (Published w.files q → ∀ place, t.node? place = w.files.node? place) ∧
    (directory ≠ "" → (validate args).run (w.withFiles t) = (upToDate, w.withFiles t))

theorem Published.free (h : Published t q) : Free t q Publication.all := by
  intro p hp
  simp [h p hp]

theorem published_publish : Published (publish q Publication.all t) q :=
  node?_publish Publication.nodup_fileName

theorem node?_publish_of_published (h : Published t q) (place : Place) :
    (publish q Publication.all t).node? place = t.node? place := by
  by_cases hplace : ∃ p ∈ Publication.all, place = q ++ [p.fileName]
  · obtain ⟨p, hp, rfl⟩ := hplace
    rw [published_publish p hp, h p hp]
  · exact node?_publish_of_ne fun p hp heq => hplace ⟨p, hp, heq⟩

theorem node?_publish_of_directory (hfree : Free t q Publication.all) {place : Place}
    (h : t.node? place = some .directory) :
    (publish q Publication.all t).node? place = some .directory := by
  rw [node?_publish_of_ne, h]
  rintro p hp rfl
  exact hfree p hp h

theorem guards_of_folder (hdirectory : folderIn w args.head? = .ok directory)
    (hfolder : w.files.Folder w.standing directory q)
    (hfree : Free w.files q Publication.all) :
    Guards args (emitted directory) directory q w := by
  have hvalidate {t : FileTree}
      (hkept : ∀ p, w.files.node? p = some .directory → t.node? p = some .directory)
      (htfree : Free t q Publication.all) :
      (validate args).run (w.withFiles t) = (verdict directory t q, w.withFiles t) := by
    rw [validate_eq, run_onSchemas ((resumes_withFiles hdirectory hkept).folderIn_eq_ok hdirectory)]
    exact run_validateSchemas (hfolder.of_directories hkept) htfree
  have hhere : (validate args).run w = (verdict directory w.files q, w) :=
    hvalidate (fun _ h => h) hfree
  constructor
  case validates => exact fun hne h => verdict_of_published hne h ▸ hhere
  case caught =>
    exact fun hne h => ⟨_, _, verdict_of_not_published hne h ▸ hhere,
      areNames_namesOf fun p _ => driftAt_eq_missing,
      areNames_namesOf fun p hp => driftAt_eq_outOfDate (hfree p hp)⟩
  case unnoticed =>
    rintro rfl
    exact hhere
  case elsewhere =>
    intro t hkept hsame
    have htfree : Free t q Publication.all := fun p hp => hsame p hp ▸ hfree p hp
    rw [hvalidate hkept htfree, hhere, verdict_congr hsame]
  case restored =>
    have hkept (p : Place) (hp : w.files.node? p = some .directory) :
        (publish q Publication.all w.files).node? p = some .directory :=
      node?_publish_of_directory hfree hp
    refine ⟨publish q Publication.all w.files, ?_, hfolder.of_directories hkept, published_publish,
      fun _ => node?_publish_of_ne, node?_publish_of_published, fun hne => ?_⟩
    · rw [emit_eq, run_onSchemas hdirectory]
      exact run_emitSchemas hfolder hfree
    · rw [hvalidate hkept published_publish.free, verdict_of_published hne published_publish]

/-- Once schemas were emitted, validation with the same words finds them as published, finds out
what happened to them as long as their directory is there and the words still lead to it, and never
changes a world. The empty path is the only exception in a tree without links and permissions:
schemas are emitted under it, but validation takes it for no directory. (Where both files of schemas
are links to one file, the one that is written last is all that validation finds.) -/
theorem guarded_of_emit {w w₁ : World} {args : List String} {exit : Exit}
    (h : (emit args).run w = (exit, w₁)) (hok : exit.code = 0) :
    (∀ w', ((validate args).run w').2 = w') ∧
      ∃ directory q, (schemasDirectory args.head? : StateM World _).run w = (.ok directory, w) ∧
        (directory = "" ↔ args.head? = some "") ∧ Resumes args.head? w w₁ ∧
        w₁.files.Folder w.standing directory q ∧ Published w₁.files q ∧
        Guards args exit directory q w₁ ∧
        ∀ w₂ : World, Resumes args.head? w w₂ → w₂.files.Folder w.standing directory q →
          Free w₂.files q Publication.all → Guards args exit directory q w₂ := by
  refine ⟨?_, ?_⟩
  · rw [validate_eq]
    exact reads_onSchemas reads_validateSchemas args.head?
  obtain ⟨directory, hdirectory, hemit⟩ := exists_folderIn_of_emit h hok
  obtain ⟨t, q, hkept, hfolder, hfree, rfl, rfl⟩ := emitSchemas_ok hemit hok
  have hguards (w₂ : World) (hresumes : Resumes args.head? w w₂)
      (hfolder₂ : w₂.files.Folder w.standing directory q)
      (hfree₂ : Free w₂.files q Publication.all) : Guards args (emitted directory) directory q w₂ :=
    guards_of_folder (hresumes.folderIn_eq_ok hdirectory) (hresumes.standing ▸ hfolder₂) hfree₂
  have hthere : (publish q Publication.all t).Folder w.standing directory q :=
    hfolder.of_directories fun _ => node?_publish_of_directory hfree
  have hresumes : Resumes args.head? w (w.withFiles (publish q Publication.all t)) :=
    resumes_withFiles hdirectory fun p hp => node?_publish_of_directory hfree (hkept.node?_eq_some hp)
  exact ⟨directory, q, hdirectory ▸ run_schemasDirectory args.head? w,
    eq_empty_of_folderIn hdirectory, hresumes, hthere, published_publish,
    hguards _ hresumes hthere published_publish.free, hguards⟩

/-- A host in the root of a tree that holds one file and a directory. Its environment names the
directory of the tasks. -/
def workshop (name text : String) : World :=
  { files := ⟨[([name], .file text), (["schemas"], .directory)]⟩
    standing := []
    environment := fun _ => some "/xtask"
    clock := fun _ => .epoch
    readings := 0 }

/-- One schema was changed and the other removed. Validation finds that out under the one path of
the root and in the directory of the project, and not under the other path of the root. -/
theorem guarded_of_emit_root :
    let w := workshop "iacguard.report.v1.json" "stale"
    ((validate ["/"]).run w).1.code = 1 ∧ ((validate []).run w).1.code = 1 ∧
      (validate [""]).run w = (noSchemas "", w) := by
  intro w
  have hfree : Free w.files [] Publication.all := by
    unfold Free
    decide
  have hfree' : Free w.files ["schemas"] Publication.all := by
    unfold Free
    decide
  have hmissing : ¬ Published w.files [] :=
    not_published_of_missing (List.mem_cons_of_mem _ List.mem_cons_self) (by decide)
  have hmissing' : ¬ Published w.files ["schemas"] :=
    not_published_of_missing List.mem_cons_self (by decide)
  have hguards (args : List String) {directory : String} {q : Place}
      (hdirectory : folderIn w args.head? = .ok directory)
      (hfolder : w.files.Folder w.standing directory q) (hfree : Free w.files q Publication.all) :
      Guards args (emitted directory) directory q w := by
    have hemit : (emit args).run w =
        (emitted directory, w.withFiles (publish q Publication.all w.files)) := by
      rw [emit_eq, run_onSchemas hdirectory]
      exact run_emitSchemas hfolder hfree
    obtain ⟨-, directory', q', hrun, -, -, hthere, -, -, hguards⟩ := guarded_of_emit hemit rfl
    rw [run_schemasDirectory, hdirectory] at hrun
    cases hrun
    obtain rfl := hthere.unique
      (hfolder.of_directories fun _ => node?_publish_of_directory hfree)
    exact hguards w ⟨rfl, fun _ => rfl, fun _ _ => rfl⟩ hfolder hfree
  refine ⟨?_, ?_, ?_⟩
  · obtain ⟨_, _, hrun, -, -⟩ :=
      (hguards ["/"] rfl ⟨rfl, rfl⟩ hfree).caught (by decide) hmissing
    rw [hrun]
    rfl
  · obtain ⟨_, _, hrun, -, -⟩ :=
      (hguards [] rfl ⟨rfl, rfl⟩ hfree').caught (by decide) hmissing'
    rw [hrun]
    rfl
  · exact (hguards [""] rfl ⟨rfl, rfl⟩ hfree).unnoticed rfl

end ResourceAudit.Upkeep
