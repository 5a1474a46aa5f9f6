import ResourceAudit.Command.Upkeep
import ResourceAudit.Proofs.Files.Folder

/-!
# Writing schemas

Publications are written into a directory one after the other. Where that succeeds the directory is
there and no directory is in the place of a file (`emitSchemas_ok`), and where both hold it succeeds
(`run_emitSchemas`).
-/

namespace ResourceAudit

namespace World

/-! ## Making directories -/

theorem makeDirectories_of_folder {w : World} {directory : String} {q : Place}
    (h : w.files.Folder w.standing directory q) :
    (Host.makeDirectories directory : StateM World _).run w = (.ok (), w) := by
  by_cases hne : directory = ""
  · subst hne
    rfl
  · obtain ⟨above, habove⟩ := Path.withAncestors_eq_cons (by simpa using hne)
    rw [Host.makeDirectories, habove]
    exact makeChain_of_isDirectory above ((FileTree.isDirectory_iff_folder hne).2 ⟨q, h⟩)

end World

namespace Publication

/-! ## Names of files -/

theorem isName_fileName : ∀ p ∈ all, Path.IsName p.fileName := by
  have hreport : Path.IsName "iacguard.report.v1.json" := ⟨by decide, by decide⟩
  have hsettings : Path.IsName "iacguard.config.v1.json" := ⟨by decide, by decide⟩
  exact List.forall_mem_cons.2 ⟨hreport, List.forall_mem_singleton.2 hsettings⟩

theorem nodup_fileName : (all.map fileName).Nodup := by
  decide

end Publication

namespace Upkeep

variable {w : World} {t : FileTree} {q : Place} {directory : String} {ps : List Publication}

/-! ## Writing -/

/-- A tree after the files of publications were written into a directory. -/
def publish (q : Place) (ps : List Publication) (t : FileTree) : FileTree :=
  ps.foldl (fun t p => t.set (q ++ [p.fileName]) (.file p.text)) t

/-- No directory stands where the files of these publications go. -/
def Free (t : FileTree) (q : Place) (ps : List Publication) : Prop :=
  ∀ p ∈ ps, t.node? (q ++ [p.fileName]) ≠ some .directory

theorem node?_set_file (t : FileTree) (q place : Place) (p : Publication) :
    (t.set (q ++ [p.fileName]) (.file p.text)).node? place =
      if place = q ++ [p.fileName] then some (.file p.text) else t.node? place := by
  rw [FileTree.node?_set]
  split
  · rename_i hroot
    subst hroot
    rw [if_neg (by simp)]
    rfl
  · rfl

theorem node?_publish_of_ne {place : Place} (h : ∀ p ∈ ps, place ≠ q ++ [p.fileName]) :
    (publish q ps t).node? place = t.node? place := by
  induction ps generalizing t with
  | nil => rfl
  | cons p rest ih =>
      obtain ⟨hp, hrest⟩ := List.forall_mem_cons.1 h
      rw [publish, List.foldl_cons, ← publish, ih hrest, node?_set_file, if_neg hp]

theorem node?_publish (hnodup : (ps.map Publication.fileName).Nodup) :
    ∀ p ∈ ps, (publish q ps t).node? (q ++ [p.fileName]) = some (.file p.text) := by
  induction ps generalizing t with
  | nil => exact List.forall_mem_nil _
  | cons p rest ih =>
      rw [List.map_cons, List.nodup_cons] at hnodup
      rw [publish, List.foldl_cons, ← publish]
      refine List.forall_mem_cons.2 ⟨?_, ih hnodup.2⟩
      rw [node?_publish_of_ne, node?_set_file, if_pos rfl]
      intro p' hp' heq
      rw [List.append_cancel_left_eq, List.cons.injEq] at heq
      exact hnodup.1 (heq.1 ▸ List.mem_map_of_mem hp')

theorem run_writeAll_cons (directory : String) (p : Publication) (rest : List Publication)
    (w : World) :
    (writeAll directory (p :: rest) : StateM World _).run w =
      match w.files.target w.standing (Path.join directory p.fileName) with
      | .error e => (([], some (.unwritten (Path.join directory p.fileName) e)), w)
      | .ok place =>
        let r := (writeAll directory rest : StateM World _).run
          (w.withFiles (w.files.set place (.file p.text)))
        ((s!"Wrote {Path.join directory p.fileName}" :: r.1.1, r.1.2), r.2) := by
  have hwrite := World.run_writeText (Path.join directory p.fileName) p.text w
  rw [writeAll]
  cases htarget : w.files.target w.standing (Path.join directory p.fileName) with
  | error e =>
      rw [htarget] at hwrite
      exact World.run_bind hwrite
  | ok place =>
      rw [htarget] at hwrite
      exact World.run_bind hwrite

theorem Free.keeps {p : Publication} (h : Free t q (p :: ps)) :
    t.Keeps (t.set (q ++ [p.fileName]) (.file p.text)) :=
  FileTree.keeps_set _ (h p List.mem_cons_self)

theorem free_set_iff {p : Publication} (hp : t.node? (q ++ [p.fileName]) ≠ some .directory) :
    Free (t.set (q ++ [p.fileName]) (.file p.text)) q ps ↔ Free t q ps := by
  refine forall₂_congr fun p' _ => ?_
  rw [node?_set_file]
  split
  · rename_i heq
    rw [heq]
    exact iff_of_true (by simp) hp
  · rfl

/-- The lines about files that were written into a directory. -/
def wroteLines (directory : String) (ps : List Publication) : List String :=
  ps.map fun p => s!"Wrote {Path.join directory p.fileName}"

theorem run_writeAll (hfolder : w.files.Folder w.standing directory q)
    (hnames : ∀ p ∈ ps, Path.IsName p.fileName) (hfree : Free w.files q ps) :
    (writeAll directory ps : StateM World _).run w =
      ((wroteLines directory ps, none), w.withFiles (publish q ps w.files)) := by
  induction ps generalizing w with
  | nil => rfl
  | cons p rest ih =>
      obtain ⟨hname, hnames⟩ := List.forall_mem_cons.1 hnames
      obtain ⟨hp, hrest⟩ := List.forall_mem_cons.1 hfree
      have htarget := (FileTree.target_join_eq_ok_iff hname).2 ⟨hp, q, hfolder, rfl⟩
      have hafter := ih (w := w.withFiles (w.files.set (q ++ [p.fileName]) (.file p.text)))
        (hfolder.of_directories hfree.keeps.directory) hnames ((free_set_iff hp).2 hrest)
      rw [run_writeAll_cons, htarget]
      simp only [hafter]
      rfl

/-- Where something was written there is a directory for it. -/
theorem folder_of_writeAll {p : Publication} (hname : Path.IsName p.fileName)
    (h : ((writeAll directory (p :: ps) : StateM World _).run w).1.2 = none) :
    ∃ q, w.files.Folder w.standing directory q := by
  rw [run_writeAll_cons] at h
  cases htarget : w.files.target w.standing (Path.join directory p.fileName) with
  | error e =>
      rw [htarget] at h
      cases h
  | ok place =>
      obtain ⟨-, q, hfolder, -⟩ := (FileTree.target_join_eq_ok_iff hname).1 htarget
      exact ⟨q, hfolder⟩

theorem free_of_writeAll (hfolder : w.files.Folder w.standing directory q)
    (hnames : ∀ p ∈ ps, Path.IsName p.fileName)
    (h : ((writeAll directory ps : StateM World _).run w).1.2 = none) : Free w.files q ps := by
  induction ps generalizing w with
  | nil => exact List.forall_mem_nil _
  | cons p rest ih =>
      obtain ⟨hname, hnames⟩ := List.forall_mem_cons.1 hnames
      rw [run_writeAll_cons] at h
      cases htarget : w.files.target w.standing (Path.join directory p.fileName) with
      | error e =>
          rw [htarget] at h
          cases h
      | ok place =>
          obtain ⟨hp, q', hfolder', rfl⟩ := (FileTree.target_join_eq_ok_iff hname).1 htarget
          obtain rfl := hfolder.unique hfolder'
          rw [htarget] at h
          have hkept := hfolder.of_directories (FileTree.keeps_set (.file p.text) hp).directory
          exact List.forall_mem_cons.2 ⟨hp, (free_set_iff hp).1 (ih hkept hnames h)⟩

/-! ## Emitting -/

def emitted (directory : String) : Exit :=
  .success (lines (wroteLines directory Publication.all ++ ["", "Schemas emitted successfully."]))

theorem run_emitSchemas (hfolder : w.files.Folder w.standing directory q)
    (hfree : Free w.files q Publication.all) :
    (emitSchemas directory : StateM World _).run w =
      (emitted directory, w.withFiles (publish q Publication.all w.files)) := by
  rw [emitSchemas, World.run_bind (World.makeDirectories_of_folder hfolder)]
  exact World.run_bind (run_writeAll hfolder Publication.isName_fileName hfree)

/-- Emitting that succeeds makes directories, as far as they are missing, and then writes. -/
theorem emitSchemas_ok {w' : World} {exit : Exit}
    (h : (emitSchemas directory : StateM World _).run w = (exit, w')) (hok : exit.code = 0) :
    ∃ t q, w.files.Furnishes t ∧ t.Folder w.standing directory q ∧ Free t q Publication.all ∧
      exit = emitted directory ∧ w' = w.withFiles (publish q Publication.all t) := by
  obtain ⟨r, t, hmake, hmade, -⟩ := World.makeChain_spec (Path.withAncestors directory) w
  rw [← Host.makeDirectories] at hmake
  rw [emitSchemas, World.run_bind hmake] at h
  cases r with
  | error e =>
      cases h
      cases hok
  | ok _ =>
      rcases hwrite : (writeAll directory Publication.all : StateM World _).run (w.withFiles t) with
        ⟨⟨ls, e | _⟩, w''⟩
      · have hnone : ((writeAll directory Publication.all : StateM World _).run
            (w.withFiles t)).1.2 = none := by rw [hwrite]
        obtain ⟨q, hfolder⟩ := folder_of_writeAll
          (Publication.isName_fileName _ List.mem_cons_self) hnone
        have hfree := free_of_writeAll hfolder Publication.isName_fileName hnone
        refine ⟨t, q, hmade, hfolder, hfree, ?_⟩
        rw [run_writeAll hfolder Publication.isName_fileName hfree] at hwrite
        cases hwrite
        simp only [World.run_bind
          (run_writeAll hfolder Publication.isName_fileName hfree)] at h
        cases h
        exact ⟨rfl, rfl⟩
      · simp only [World.run_bind hwrite] at h
        cases h
        cases hok

end Upkeep

end ResourceAudit
