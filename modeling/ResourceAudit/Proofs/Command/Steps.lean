import ResourceAudit.Command.Run
import ResourceAudit.Proofs.Files.World

/-!
# Reading and writing files

What the steps of a command do to a world: reading changes nothing, and writing a file makes
directories for it and then puts it in its place (`writeTo_ok`) or makes directories only
(`writeTo_error`). A file that was written stays (`Holds`) until one is written in its place.
-/

namespace ResourceAudit

namespace Command

variable {α β : Type}

/-! ## Steps -/

theorem steps_bind_ok {x : Steps (StateM World) α} {f : α → Steps (StateM World) β}
    {w w' : World} {a : α} (h : x.run.run w = (.ok a, w')) :
    (x >>= f).run.run w = (f a).run.run w' := by
  rw [ExceptT.run_bind, World.run_bind h]

theorem steps_bind_error {x : Steps (StateM World) α} {f : α → Steps (StateM World) β}
    {w w' : World} {e : CommandError} (h : x.run.run w = (.error e, w')) :
    (x >>= f).run.run w = (.error e, w') := by
  rw [ExceptT.run_bind, World.run_bind h]
  rfl

theorem steps_lift {x : StateM World α} {w w' : World} {a : α} (h : x.run w = (a, w')) :
    (liftM x : Steps (StateM World) α).run.run w = (.ok a, w') := by
  rw [ExceptT.run_liftM, StateT.run_map, h]
  rfl

theorem run_readFrom (source : Source) (path : String) (w : World) :
    (readFrom source path : Steps (StateM World) String).run.run w =
      (match w.files.read w.standing path with
        | .ok text => .ok text
        | .error e => .error (.unread source path e), w) := by
  rw [readFrom, steps_bind_ok (steps_lift (World.run_readText path w))]
  cases w.files.read w.standing path <;> rfl

/-- The settings that a world holds under a path; none are there where no file is. -/
def settingsIn (w : World) (path : String) : Except FileError String :=
  match w.files.read w.standing path with
  | .error .missing => .ok ""
  | other => other

theorem run_readSettings (path : String) (w : World) :
    (readSettings path : Steps (StateM World) String).run.run w =
      ((settingsIn w path).mapError (.unread .settings path), w) := by
  rw [readSettings, steps_bind_ok (steps_lift (World.run_readText path w)), settingsIn]
  rcases w.files.read w.standing path with e | text
  · cases e <;> rfl
  · rfl

/-! ## Making room for a file -/

/-- The directory that a file goes into, where its path names one. -/
def folder? (path : String) : Option String :=
  (Path.parent? path).filter fun parent => !parent.isEmpty

theorem run_makeRoom (a : Artifact) (path : String) (w : World) :
    (makeRoom a path : Steps (StateM World) Unit).run.run w =
      match folder? path with
      | none => (.ok (), w)
      | some parent =>
        match (Host.makeDirectories parent : StateM World _).run w with
        | (.ok (), w') => (.ok (), w')
        | (.error e, w') => (.error (.unwritten a path (.directory parent e)), w') := by
  unfold makeRoom folder?
  cases Path.parent? path with
  | none => rfl
  | some parent =>
      cases hempty : parent.isEmpty with
      | true =>
          simp only [Option.filter_some, hempty]
          rfl
      | false =>
          simp only [Option.filter_some, hempty, Bool.not_false, Bool.false_eq_true, if_true,
            if_false]
          rcases hmake : (Host.makeDirectories parent : StateM World _).run w with ⟨e | _, w'⟩
          · exact steps_bind_ok (steps_lift hmake)
          · exact steps_bind_ok (steps_lift hmake)

/-- The directory that a file goes into is there. -/
def HasRoom (t : FileTree) (standing : Place) (path : String) : Prop :=
  ∀ parent ∈ folder? path, t.isDirectory standing parent = true

theorem withAncestors_eq_cons {path parent : String} (h : parent ∈ folder? path) :
    ∃ above, Path.withAncestors parent = parent :: above :=
  Path.withAncestors_eq_cons (by simpa using (Option.filter_eq_some_iff.1 h).2)

theorem makeRoom_spec (a : Artifact) (path : String) (w : World) :
    ∃ r t, (makeRoom a path : Steps (StateM World) Unit).run.run w = (r, w.withFiles t) ∧
      w.files.Furnishes t ∧ (r = .ok () → HasRoom t w.standing path) := by
  rw [run_makeRoom]
  cases hfolder : folder? path with
  | none => exact ⟨.ok (), w.files, rfl, .refl _, fun _ => by simp [HasRoom, hfolder]⟩
  | some parent =>
      obtain ⟨above, habove⟩ := withAncestors_eq_cons hfolder
      obtain ⟨r, t, hchain, hmade, hr⟩ := World.makeChain_spec (Path.withAncestors parent) w
      rw [habove] at hr
      simp only [Host.makeDirectories, hchain]
      cases r with
      | ok _ =>
          refine ⟨.ok (), t, rfl, hmade, fun _ => ?_⟩
          simpa [HasRoom, hfolder] using hr rfl
      | error e => exact ⟨.error _, t, rfl, hmade, nofun⟩

theorem makeRoom_of_hasRoom (a : Artifact) {path : String} {w : World}
    (h : HasRoom w.files w.standing path) :
    (makeRoom a path : Steps (StateM World) Unit).run.run w = (.ok (), w) := by
  rw [run_makeRoom]
  cases hfolder : folder? path with
  | none => rfl
  | some parent =>
      obtain ⟨above, habove⟩ := withAncestors_eq_cons hfolder
      simp only [Host.makeDirectories, habove,
        World.makeChain_of_isDirectory above (h parent hfolder)]

theorem run_makeRoom_later (a : Artifact) (path : String) (w : World) (n : Nat) :
    (makeRoom a path : Steps (StateM World) Unit).run.run (w.later n) =
      (((makeRoom a path : Steps (StateM World) Unit).run.run w).1,
        ((makeRoom a path : Steps (StateM World) Unit).run.run w).2.later n) := by
  rw [run_makeRoom, run_makeRoom]
  cases folder? path with
  | none => rfl
  | some parent =>
      simp only [Host.makeDirectories, World.run_makeChain_later]
      rcases (Host.makeChain (Path.withAncestors parent) : StateM World _).run w with ⟨e | _, w'⟩
      · rfl
      · rfl

/-! ## Writing a file -/

theorem run_writeTo (a : Artifact) (path text : String) {w w₁ : World}
    (hroom : (makeRoom a path : Steps (StateM World) Unit).run.run w = (.ok (), w₁)) :
    (writeTo a path text : Steps (StateM World) Unit).run.run w =
      match w₁.files.target w₁.standing path with
      | .ok p => (.ok (), w₁.withFiles (w₁.files.set p (.file text)))
      | .error e => (.error (.unwritten a path (.file e)), w₁) := by
  have hwrite := World.run_writeText path text w₁
  rw [writeTo, steps_bind_ok hroom]
  cases htarget : w₁.files.target w₁.standing path with
  | ok p =>
      rw [htarget] at hwrite
      exact steps_bind_ok (steps_lift hwrite)
  | error e =>
      rw [htarget] at hwrite
      exact steps_bind_ok (steps_lift hwrite)

/-- A file was put under a path, in a tree that has a directory for it. -/
structure Put (w w' : World) (path text : String) (t : FileTree) (p : Place) : Prop where
  made : w.files.Furnishes t
  room : HasRoom t w.standing path
  leads : t.Leads w.standing path p
  eq : w' = w.withFiles (t.set p (.file text))

theorem Put.standing_eq {w w' : World} {path text : String} {t : FileTree} {p : Place}
    (h : Put w w' path text t p) : w'.standing = w.standing := by
  rw [h.eq]
  rfl

theorem Put.place?_eq {w w' : World} {path text : String} {t : FileTree} {p : Place}
    (h : Put w w' path text t p) : FileTree.place? w.standing path = some p :=
  FileTree.place?_of_leads h.leads

theorem writeTo_ok {a : Artifact} {path text : String} {w w' : World}
    (h : (writeTo a path text : Steps (StateM World) Unit).run.run w = (.ok (), w')) :
    ∃ t p, Put w w' path text t p := by
  obtain ⟨r, t, hroom, hmade, hr⟩ := makeRoom_spec a path w
  cases r with
  | error e =>
      rw [writeTo, steps_bind_error hroom] at h
      cases h
  | ok _ =>
      rw [run_writeTo a path text hroom] at h
      split at h
      · rename_i p htarget
        cases h
        exact ⟨t, p, hmade, hr rfl, FileTree.target_eq_ok_iff.1 htarget, rfl⟩
      · cases h

theorem writeTo_error {a : Artifact} {path text : String} {w w' : World} {e : CommandError}
    (h : (writeTo a path text : Steps (StateM World) Unit).run.run w = (.error e, w')) :
    ∃ t, w' = w.withFiles t ∧ w.files.Furnishes t := by
  obtain ⟨r, t, hroom, hmade, -⟩ := makeRoom_spec a path w
  refine ⟨t, ?_, hmade⟩
  cases r with
  | error e =>
      rw [writeTo, steps_bind_error hroom] at h
      cases h
      rfl
  | ok _ =>
      rw [run_writeTo a path text hroom] at h
      split at h
      · cases h
      · cases h
        rfl

/-! ## Files that can be written -/

/-- A file can be written under the path: there is a directory for it or one can be made, and no
directory stands in its place. -/
def Takes (w : World) (path : String) : Prop :=
  ∃ w', (writeTo .report path "" : Steps (StateM World) Unit).run.run w = (.ok (), w')

theorem makeRoom_ok {a : Artifact} {path : String} {w w' : World}
    (h : (makeRoom a path : Steps (StateM World) Unit).run.run w = (.ok (), w')) (b : Artifact) :
    (makeRoom b path : Steps (StateM World) Unit).run.run w = (.ok (), w') := by
  rw [run_makeRoom] at h ⊢
  cases hfolder : folder? path with
  | none => simpa only [hfolder] using h
  | some parent =>
      rcases hmake : (Host.makeDirectories parent : StateM World _).run w with ⟨e | _, w₁⟩
      · simp only [hfolder, hmake] at h
        cases h
      · simpa only [hfolder, hmake] using h

theorem Takes.writeTo {w : World} {path : String} (h : Takes w path) (a : Artifact) (n : Nat)
    (text : String) :
    ∃ w', (writeTo a path text : Steps (StateM World) Unit).run.run (w.later n) =
      (.ok (), w') := by
  obtain ⟨w', h⟩ := h
  rcases hroom : (makeRoom .report path : Steps (StateM World) Unit).run.run w with ⟨e | _, w₁⟩
  · rw [Command.writeTo, steps_bind_error hroom] at h
    cases h
  · have hlater := run_makeRoom_later a path w n
    rw [makeRoom_ok hroom a] at hlater
    rw [run_writeTo .report path "" hroom] at h
    rw [run_writeTo a path text hlater]
    have htarget : (w₁.later n).files.target (w₁.later n).standing path =
        w₁.files.target w₁.standing path := rfl
    rw [htarget]
    split at h
    · exact ⟨_, rfl⟩
    · cases h

theorem makeRoom_error_again {a : Artifact} {path : String} {w w' : World} {e : CommandError}
    (h : (makeRoom a path : Steps (StateM World) Unit).run.run w = (.error e, w')) (b : Artifact) :
    ∃ e' w'', (makeRoom b path : Steps (StateM World) Unit).run.run w' = (.error e', w'') := by
  rw [run_makeRoom] at h
  cases hfolder : folder? path with
  | none =>
      rw [hfolder] at h
      cases h
  | some parent =>
      rw [hfolder] at h
      rcases hmake : (Host.makeDirectories parent : StateM World _).run w with ⟨e₁ | _, w₁⟩
      · simp only [hmake] at h
        cases h
        obtain ⟨e', w'', hagain⟩ := World.staysStuck_chainUp _ _ hmake
        refine ⟨.unwritten b path (.directory parent e'), w'', ?_⟩
        rw [run_makeRoom, hfolder]
        simp only [Host.makeDirectories, Path.withAncestors, hagain]
      · simp only [hmake] at h
        cases h

/-- Where a file could not be written, no report can be written afterwards. -/
theorem not_takes_of_writeTo_error {a : Artifact} {path text : String} {w w' : World}
    {e : CommandError}
    (h : (writeTo a path text : Steps (StateM World) Unit).run.run w = (.error e, w')) :
    ¬ Takes w' path := by
  rintro ⟨w'', hagain⟩
  rcases hroom : (makeRoom a path : Steps (StateM World) Unit).run.run w with ⟨e₁ | _, w₁⟩
  · rw [writeTo, steps_bind_error hroom] at h
    cases h
    obtain ⟨e', w₂, hstuck⟩ := makeRoom_error_again hroom .report
    rw [writeTo, steps_bind_error hstuck] at hagain
    cases hagain
  · obtain ⟨r, t, hspec, -, hr⟩ := makeRoom_spec a path w
    rw [hroom] at hspec
    obtain ⟨rfl, rfl⟩ := Prod.mk.inj hspec
    rw [run_writeTo a path text hroom] at h
    split at h
    · cases h
    · rename_i htarget
      cases h
      rw [run_writeTo .report path "" (makeRoom_of_hasRoom .report (hr rfl)), htarget] at hagain
      cases hagain

/-! ## Files that are there -/

/-- A file with this text stands at a place, and the path leads to it. -/
structure Holds (w : World) (path text : String) (p : Place) : Prop where
  room : HasRoom w.files w.standing path
  leads : w.files.Leads w.standing path p
  node : w.files.node? p = some (.file text)

theorem HasRoom.keeps {t t' : FileTree} {standing : Place} {path : String}
    (h : HasRoom t standing path) (hkeeps : t.Keeps t') : HasRoom t' standing path :=
  fun parent hparent => hkeeps.isDirectory (h parent hparent)

theorem Put.holds {w w' : World} {path text : String} {t : FileTree} {p : Place}
    (h : Put w w' path text t p) : Holds w' path text p := by
  obtain ⟨-, hroom, hleads, rfl⟩ := h
  have hkeeps : t.Keeps (t.set p (.file text)) := FileTree.keeps_set _ hleads.free
  have hnode : (t.set p (.file text)).node? p = some (.file text) := by
    rw [FileTree.node?_set, if_neg hleads.ne_root, if_pos rfl]
  exact ⟨hroom.keeps hkeeps, hkeeps.leads hleads (by simp [hnode]), hnode⟩

namespace Holds

variable {w : World} {path text : String} {p : Place}

theorem read (h : Holds w path text p) : w.files.read w.standing path = .ok text :=
  FileTree.read_of_leads h.leads h.node

theorem furnished (h : Holds w path text p) {t : FileTree} (hmade : w.files.Furnishes t) :
    Holds (w.withFiles t) path text p := by
  have hnode := hmade.node?_eq_some h.node
  exact ⟨h.room.keeps hmade.keeps, hmade.keeps.leads h.leads (by simp [hnode]), hnode⟩

theorem set (h : Holds w path text p) {q : Place} (n : Node) (hq : p ≠ q)
    (hfree : w.files.node? q ≠ some .directory) :
    Holds (w.withFiles (w.files.set q n)) path text p := by
  have hkeeps : w.files.Keeps (w.files.set q n) := FileTree.keeps_set n hfree
  have hnode : (w.files.set q n).node? p = some (.file text) := by
    rw [FileTree.node?_set, if_neg h.leads.ne_root, if_neg hq, h.node]
  exact ⟨h.room.keeps hkeeps, hkeeps.leads h.leads (by simp [hnode]), hnode⟩

theorem later (h : Holds w path text p) (n : Nat) : Holds (w.later n) path text p :=
  ⟨h.room, h.leads, h.node⟩

/-- The file can be written over. -/
theorem writeTo (h : Holds w path text p) (a : Artifact) (other : String) :
    (writeTo a path other : Steps (StateM World) Unit).run.run w =
      (.ok (), w.withFiles (w.files.set p (.file other))) := by
  rw [run_writeTo a path other (makeRoom_of_hasRoom a h.room), FileTree.target_eq_ok_iff.2 h.leads]

/-- A file that is written elsewhere leaves it as it is. -/
theorem put (h : Holds w path text p) {w' : World} {path' text' : String} {t : FileTree}
    {q : Place} (hput : Put w w' path' text' t q) (hq : p ≠ q) : Holds w' path text p := by
  obtain ⟨hmade, -, hleads, rfl⟩ := hput
  exact (h.furnished hmade).set (.file text') hq hleads.free

end Holds

end Command

end ResourceAudit
