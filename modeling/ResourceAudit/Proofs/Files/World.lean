import ResourceAudit.Files.World
import ResourceAudit.Proofs.Files.Path
import ResourceAudit.Proofs.Files.Tree

/-!
# What commands do to a world

Making directories leaves all else as it was (`Furnishes`), whether it succeeds or not.
-/

namespace ResourceAudit

namespace FileTree

/-- Directories were made where nothing stood, and nothing else was changed. -/
def Furnishes (t t' : FileTree) : Prop :=
  ∀ p, t'.node? p = t.node? p ∨ t.node? p = none ∧ t'.node? p = some .directory

namespace Furnishes

variable {t t' t'' : FileTree}

theorem refl (t : FileTree) : Furnishes t t := fun _ => .inl rfl

theorem trans (h : Furnishes t t') (h' : Furnishes t' t'') : Furnishes t t'' := by
  intro p
  rcases h' p with hp' | ⟨hnone', hp'⟩
  · rcases h p with hp | ⟨hnone, hp⟩
    · exact .inl (hp'.trans hp)
    · exact .inr ⟨hnone, hp'.trans hp⟩
  · rcases h p with hp | ⟨-, hp⟩
    · exact .inr ⟨hp ▸ hnone', hp'⟩
    · rw [hp] at hnone'
      cases hnone'

theorem node?_eq_some (h : Furnishes t t') {p : Place} {n : Node} (hp : t.node? p = some n) :
    t'.node? p = some n := by
  rcases h p with heq | ⟨hnone, -⟩
  · exact heq.trans hp
  · rw [hp] at hnone
    cases hnone

theorem keeps (h : Furnishes t t') : Keeps t t' := by
  constructor
  · exact fun p hp => h.node?_eq_some hp
  · intro p hp
    obtain ⟨n, hn⟩ := Option.isSome_iff_exists.1 hp
    rw [h.node?_eq_some hn]
    rfl

end Furnishes

variable {t t' : FileTree}

theorem furnishes_set {p : Place} (hp : t.node? p = none) : Furnishes t (t.set p .directory) := by
  intro q
  rw [node?_set]
  split
  · rename_i hq
    exact .inl (hq ▸ rfl)
  · split
    · rename_i hq
      exact .inr ⟨hq ▸ hp, rfl⟩
    · exact .inl rfl

/-! ## Making a directory -/

theorem makeDirectory_eq_ok {standing : Place} {text : String}
    (h : t.makeDirectory standing text = .ok t') :
    Furnishes t t' ∧ t.isDirectory standing text = false ∧ t'.isDirectory standing text = true := by
  unfold makeDirectory at h
  split at h
  · cases h
  · rename_i path hpath
    split at h
    · cases h
    · cases h
    · rename_i p hsite
      split at h
      · cases h
      · rename_i hnone
        rw [Bool.not_eq_true, Option.isSome_eq_false_iff, Option.isNone_iff_eq_none] at hnone
        cases h
        have hmade := furnishes_set hnone
        obtain ⟨before, name, d, hsteps, hfollow, hd, rfl⟩ := site_eq_name hsite
        have hnode : (t.set (d ++ [name]) .directory).node? (d ++ [name]) = some .directory := by
          simp [node?_set]
        refine ⟨hmade, ?_, ?_⟩
        · rw [Bool.eq_false_iff]
          intro hdirectory
          obtain ⟨path', p, hpath', hfollow', hp⟩ := isDirectory_iff.1 hdirectory
          rw [hpath] at hpath'
          cases hpath'
          have hplace := follow_eq_foldl hfollow'
          rw [hsteps, List.foldl_append, ← follow_eq_foldl hfollow] at hplace
          rw [hplace] at hp
          exact absurd (hnone.symm.trans hp) nofun
        · have hlast : (t.set (d ++ [name]) .directory).follow d [.down name] = .ok (d ++ [name]) :=
            follow_cons_eq_ok.2 ⟨hmade.node?_eq_some hd, by simp [Passable, hnode], rfl⟩
          exact isDirectory_iff.2 ⟨path, d ++ [name], hpath,
            hsteps ▸ follow_append_eq_ok (hmade.keeps.follow hfollow) hlast, hnode⟩

/-- A directory that is there, or can be made, is in one that is there. -/
theorem isDirectory_above {standing : Place} {text above : String}
    (hparent : Path.parent? text = some above) (hne : above.isEmpty = false)
    (h : t.isDirectory standing text = true ∨ ∃ t', t.makeDirectory standing text = .ok t') :
    t.isDirectory standing above = true := by
  obtain ⟨path, higher, more, hpath, hhigher, hroot, hsteps, hmore⟩ :=
    Path.parent?_eq_some hparent hne
  have hstart : start standing path = start standing higher := by rw [start, start, hroot]
  suffices hway : ∃ d, t.follow (start standing higher) higher.steps = .ok d ∧
      t.node? d = some .directory by
    obtain ⟨d, hfollow, hd⟩ := hway
    exact isDirectory_iff.2 ⟨higher, d, hhigher, hfollow, hd⟩
  rcases h with hthere | ⟨t', hmake⟩
  · obtain ⟨path', q, hpath', hfollow, hq⟩ := isDirectory_iff.1 hthere
    rw [hpath] at hpath'
    cases hpath'
    rw [hsteps, hstart] at hfollow
    exact directory_of_follow_append hfollow hq
  · rw [makeDirectory, hpath] at hmake
    simp only at hmake
    split at hmake
    · cases hmake
    · cases hmake
    · rename_i p hsite
      obtain ⟨before, name, d, hbefore, hfollow, hd, -⟩ := site_eq_name hsite
      obtain ⟨rest, last, rfl⟩ := List.eq_nil_or_concat more |>.resolve_left hmore
      rw [hsteps, List.concat_eq_append, ← List.append_assoc] at hbefore
      rw [← (List.append_inj' hbefore rfl).1, hstart] at hfollow
      exact directory_of_follow_append hfollow hd

end FileTree

namespace World

/-- The world after the clock was read some more times. -/
def later (w : World) (n : Nat) : World := { w with readings := w.readings + n }

variable {α β : Type}

theorem run_bind {x : StateM World α} {f : α → StateM World β} {w w' : World} {a : α}
    (h : x.run w = (a, w')) : (x >>= f).run w = (f a).run w' := by
  rw [StateT.run_bind, h]
  rfl

theorem run_readText (path : String) (w : World) :
    (Host.readText path : StateM World _).run w = (w.files.read w.standing path, w) := rfl

theorem run_now (w : World) : (Host.now : StateM World _).run w = (w.clock w.readings, w.later 1) :=
  rfl

theorem change_ok {f : World → Except FileError FileTree} {w : World} {t : FileTree}
    (h : f w = .ok t) : (change f).run w = (.ok (), w.withFiles t) := by
  simp only [change, StateT.run, h]

theorem change_error {f : World → Except FileError FileTree} {w : World} {e : FileError}
    (h : f w = .error e) : (change f).run w = (.error e, w) := by
  simp only [change, StateT.run, h]

theorem run_writeText (path text : String) (w : World) :
    (Host.writeText path text : StateM World _).run w =
      match w.files.target w.standing path with
      | .ok p => (.ok (), w.withFiles (w.files.set p (.file text)))
      | .error e => (.error e, w) := by
  cases htarget : w.files.target w.standing path with
  | ok p =>
      have hwrite : w.files.write w.standing path text = .ok (w.files.set p (.file text)) := by
        rw [FileTree.write, htarget]
        rfl
      exact change_ok hwrite
  | error e =>
      have hwrite : w.files.write w.standing path text = .error e := by
        rw [FileTree.write, htarget]
        rfl
      exact change_error hwrite

/-! ## Making directories -/

theorem run_settle (path : String) (w : World) :
    (Host.settle path : StateM World _).run w =
      match w.files.makeDirectory w.standing path with
      | .ok t => (.ok (), w.withFiles t)
      | .error e => (if w.files.isDirectory w.standing path then .ok () else .error e, w) := by
  have hask : (Host.isDirectory path : StateM World _).run w =
      (w.files.isDirectory w.standing path, w) := rfl
  rw [Host.settle]
  cases hresult : w.files.makeDirectory w.standing path with
  | ok t =>
      have hmake : (Host.makeDirectory path : StateM World _).run w = (.ok (), w.withFiles t) :=
        change_ok hresult
      exact run_bind hmake
  | error e =>
      have hmake : (Host.makeDirectory path : StateM World _).run w = (.error e, w) :=
        change_error hresult
      rw [run_bind hmake, run_bind hask]
      cases w.files.isDirectory w.standing path <;> rfl

theorem run_makeChain_cons (path : String) (above : List String) (w : World) :
    (Host.makeChain (path :: above) : StateM World _).run w =
      match (Host.settle path : StateM World _).run w with
      | (.error .missing, w₁) =>
        match (Host.makeChain above : StateM World _).run w₁ with
        | (.ok (), w₂) => (Host.settle path : StateM World _).run w₂
        | (.error e, w₂) => (.error e, w₂)
      | (r, w₁) => (r, w₁) := by
  rw [Host.makeChain]
  rcases hsettle : (Host.settle path : StateM World _).run w with ⟨e | _, w₁⟩
  · rw [run_bind hsettle]
    cases e with
    | missing =>
        rcases habove : (Host.makeChain above : StateM World _).run w₁ with ⟨e | _, w₂⟩
        · simp only [run_bind habove, habove]
          rfl
        · simp only [run_bind habove, habove]
    | _ => rfl
  · exact run_bind hsettle

theorem settle_spec (path : String) (w : World) :
    ∃ r t, (Host.settle path : StateM World _).run w = (r, w.withFiles t) ∧
      w.files.Furnishes t ∧ (r = .ok () ↔ t.isDirectory w.standing path = true) := by
  rw [run_settle]
  cases hmake : w.files.makeDirectory w.standing path with
  | ok t =>
      obtain ⟨hmade, -, hdirectory⟩ := FileTree.makeDirectory_eq_ok hmake
      exact ⟨.ok (), t, rfl, hmade, by simp [hdirectory]⟩
  | error e =>
      refine ⟨_, w.files, rfl, .refl _, ?_⟩
      cases w.files.isDirectory w.standing path <;> simp

/-- Making directories may stop half-way; where it does not, the first of them is there. -/
theorem makeChain_spec (paths : List String) (w : World) :
    ∃ r t, (Host.makeChain paths : StateM World _).run w = (r, w.withFiles t) ∧
      w.files.Furnishes t ∧
      (r = .ok () → ∀ path ∈ paths.head?, t.isDirectory w.standing path = true) := by
  induction paths generalizing w with
  | nil => exact ⟨.ok (), w.files, rfl, .refl _, fun _ => nofun⟩
  | cons path above ih =>
      obtain ⟨r, t, hsettle, hmade, hr⟩ := settle_spec path w
      rw [run_makeChain_cons, hsettle]
      split
      · rename_i w₁ heq
        obtain ⟨rfl, rfl⟩ := Prod.mk.inj heq
        obtain ⟨r', t', habove, hmade', -⟩ := ih (w.withFiles t)
        rw [habove]
        cases r' with
        | ok _ =>
            obtain ⟨r'', t'', hagain, hmade'', hr''⟩ :=
              settle_spec path ((w.withFiles t).withFiles t')
            refine ⟨r'', t'', hagain, (hmade.trans hmade').trans hmade'', ?_⟩
            rintro hok _ ⟨⟩
            exact hr''.1 hok
        | error e => exact ⟨.error e, t', rfl, hmade.trans hmade', nofun⟩
      · rename_i hother heq
        obtain ⟨rfl, rfl⟩ := Prod.mk.inj heq
        refine ⟨r, t, rfl, hmade, ?_⟩
        rintro hok _ ⟨⟩
        exact hr.1 hok

/-- Nothing is made where the directory is there. -/
theorem makeChain_of_isDirectory {path : String} (above : List String) {w : World}
    (h : w.files.isDirectory w.standing path = true) :
    (Host.makeChain (path :: above) : StateM World _).run w = (.ok (), w) := by
  have hsettle : (Host.settle path : StateM World _).run w = (.ok (), w) := by
    rw [run_settle]
    cases hmake : w.files.makeDirectory w.standing path with
    | ok t =>
        have hfree := (FileTree.makeDirectory_eq_ok hmake).2.1
        rw [h] at hfree
        cases hfree
    | error e => simp [h]
  rw [run_makeChain_cons, hsettle]

/-! ## Trying again -/

theorem settle_error {path : String} {w w' : World} {e : FileError}
    (h : (Host.settle path : StateM World _).run w = (.error e, w')) : w' = w := by
  rw [run_settle] at h
  split at h
  · cases h
  · exact (Prod.mk.inj h).2.symm

theorem makeChain_ok_again {paths : List String} {w w' : World}
    (h : (Host.makeChain paths : StateM World _).run w = (.ok (), w')) :
    (Host.makeChain paths : StateM World _).run w' = (.ok (), w') := by
  obtain ⟨r, t, hchain, -, hr⟩ := makeChain_spec paths w
  rw [h] at hchain
  obtain ⟨rfl, rfl⟩ := Prod.mk.inj hchain
  cases paths with
  | nil => rfl
  | cons path above => exact makeChain_of_isDirectory above (hr rfl path rfl)

/-- Making directories cannot succeed in the world that a failed attempt left. -/
def StaysStuck (paths : List String) : Prop :=
  ∀ {w w' : World} {e : FileError}, (Host.makeChain paths : StateM World _).run w = (.error e, w') →
    ∃ e' w'', (Host.makeChain paths : StateM World _).run w' = (.error e', w'')

theorem staysStuck_nil : StaysStuck [] := by
  intro w w' e h
  cases h

/-- An attempt fails that begins with a failure and does not find the directories above. -/
theorem makeChain_cons_error {path : String} {above : List String} {w w' : World} {e e' : FileError}
    (hsettle : (Host.settle path : StateM World _).run w = (.error e, w))
    (habove : (Host.makeChain above : StateM World _).run w = (.error e', w')) :
    ∃ e'' w'', (Host.makeChain (path :: above) : StateM World _).run w = (.error e'', w'') := by
  rw [run_makeChain_cons, hsettle]
  cases e with
  | missing => exact ⟨e', w', by simp only [habove]⟩
  | _ => exact ⟨_, w, rfl⟩

theorem staysStuck_cons {path : String} {above : List String} (hstuck : StaysStuck above)
    (hlink : ∀ {w w' : World}, (Host.settle path : StateM World _).run w = (.ok (), w') →
      (Host.makeChain above : StateM World _).run w = (.ok (), w)) :
    StaysStuck (path :: above) := by
  intro w w' e h
  have hfirst := h
  rw [run_makeChain_cons] at h
  rcases hsettle : (Host.settle path : StateM World _).run w with ⟨e₀ | _, w₁⟩
  · obtain rfl := settle_error hsettle
    rw [hsettle] at h
    cases e₀ with
    | missing =>
        rcases habove : (Host.makeChain above : StateM World _).run w₁ with ⟨e₁ | _, w₂⟩
        · -- The directory cannot be there now: those above it would be.
          simp only [habove] at h
          cases h
          obtain ⟨e', w'', hagain⟩ := hstuck habove
          rcases hretry : (Host.settle path : StateM World _).run w' with ⟨e₂ | _, w₃⟩
          · obtain rfl := settle_error hretry
            exact makeChain_cons_error hretry hagain
          · rw [hlink hretry] at hagain
            cases hagain
        · simp only [habove] at h
          obtain rfl := settle_error h
          refine ⟨e, w', ?_⟩
          rw [run_makeChain_cons, h]
          cases e with
          | missing => simp only [makeChain_ok_again habove, h]
          | _ => rfl
    | _ =>
        cases h
        exact ⟨_, _, hfirst⟩
  · rw [hsettle] at h
    cases h

theorem settle_ok {path : String} {w w' : World}
    (h : (Host.settle path : StateM World _).run w = (.ok (), w')) :
    w.files.isDirectory w.standing path = true ∨
      ∃ t, w.files.makeDirectory w.standing path = .ok t := by
  rw [run_settle] at h
  cases hmake : w.files.makeDirectory w.standing path with
  | ok t => exact .inr ⟨t, rfl⟩
  | error e =>
      rw [hmake] at h
      cases hthere : w.files.isDirectory w.standing path with
      | true => exact .inl rfl
      | false =>
          rw [hthere] at h
          cases h

/-- The directories above one that is there, or can be made, are there. -/
theorem makeChain_above {path above : String} (hparent : Path.parent? path = some above) (n : Nat)
    {w w' : World} (h : (Host.settle path : StateM World _).run w = (.ok (), w')) :
    (Host.makeChain (Path.chainUp n above) : StateM World _).run w = (.ok (), w) := by
  cases n with
  | zero => rfl
  | succ n =>
      rw [Path.chainUp]
      split
      · rfl
      · rename_i hempty
        rw [Bool.not_eq_true] at hempty
        have hthere := FileTree.isDirectory_above hparent hempty (settle_ok h)
        cases Path.parent? above with
        | none => exact makeChain_of_isDirectory [] hthere
        | some higher => exact makeChain_of_isDirectory _ hthere

theorem staysStuck_chainUp (n : Nat) (text : String) : StaysStuck (Path.chainUp n text) := by
  induction n generalizing text with
  | zero => exact staysStuck_nil
  | succ n ih =>
      rw [Path.chainUp]
      split
      · exact staysStuck_nil
      · cases hparent : Path.parent? text with
        | none => exact staysStuck_cons staysStuck_nil fun _ => rfl
        | some above => exact staysStuck_cons (ih above) (makeChain_above hparent n)

/-! ## The clock -/

theorem run_settle_later (path : String) (w : World) (n : Nat) :
    (Host.settle path : StateM World _).run (w.later n) =
      (((Host.settle path : StateM World _).run w).1,
        ((Host.settle path : StateM World _).run w).2.later n) := by
  rw [run_settle, run_settle]
  have hmake : (w.later n).files.makeDirectory (w.later n).standing path =
      w.files.makeDirectory w.standing path := rfl
  rw [hmake]
  cases w.files.makeDirectory w.standing path <;> rfl

theorem run_makeChain_later (paths : List String) (w : World) (n : Nat) :
    (Host.makeChain paths : StateM World _).run (w.later n) =
      (((Host.makeChain paths : StateM World _).run w).1,
        ((Host.makeChain paths : StateM World _).run w).2.later n) := by
  induction paths generalizing w with
  | nil => rfl
  | cons path above ih =>
      rw [run_makeChain_cons, run_makeChain_cons, run_settle_later]
      rcases (Host.settle path : StateM World _).run w with ⟨e | _, w₁⟩
      · cases e with
        | missing =>
            simp only [ih w₁]
            rcases (Host.makeChain above : StateM World _).run w₁ with ⟨e | _, w₂⟩
            · rfl
            · exact run_settle_later path w₂ n
        | _ => rfl
      · rfl

end World

end ResourceAudit
