import ResourceAudit.Proofs.Command.Check

/-!
# The Markdown of a report that was left

To show the report that an audit left gives the Markdown of the report that the audit made
(`markdown_agrees`): what is written to the disk and read again says the same. If the audit wrote
Markdown, it is that one too.
-/

namespace ResourceAudit

/-! ## Options in one word -/

namespace Arguments

variable {f : Form} {g g' : Given} {o : OptionForm} {word name value : String}

theorem read_nil (f : Form) (g : Given) : read f g [] = .ok (g, []) := by rw [read]

/-- A word that gives a value to an option. -/
def assignment (name value : String) : String := "--" ++ name ++ "=" ++ value

theorem splitLong_append {name : List Char} (hname : '=' ∉ name) (value : List Char) :
    splitLong (name ++ '=' :: value) = .long (String.ofList name) (some (String.ofList value)) := by
  have hplain : ∀ c ∈ name, decide (c ≠ '=') = true :=
    fun c hc => decide_eq_true fun heq => hname (heq ▸ hc)
  have htake : (name ++ '=' :: value).takeWhile (· ≠ '=') = name := by
    rw [List.takeWhile_append_of_pos hplain]
    simp
  have hdrop : (name ++ '=' :: value).dropWhile (· ≠ '=') = '=' :: value := by
    rw [List.dropWhile_append_of_pos hplain]
    simp
  rw [splitLong, htake, hdrop]

theorem classify_assignment {name : String} (hname : '=' ∉ name.toList) (value : String) :
    classify (assignment name value) = .long name (some value) := by
  have hword : (assignment name value).toList =
      '-' :: '-' :: (name.toList ++ '=' :: value.toList) := by
    simp [assignment]
  have hsplit := splitLong_append hname value.toList
  rw [String.ofList_toList, String.ofList_toList] at hsplit
  obtain ⟨c, more, hcons⟩ := List.exists_cons_of_ne_nil
    (List.append_ne_nil_of_right_ne_nil name.toList (List.cons_ne_nil '=' value.toList))
  rw [hcons] at hword hsplit
  rw [classify, hword]
  exact hsplit

theorem read_assignment (rest : List String) (hname : '=' ∉ name.toList)
    (hform : f.options.find? (fun o => o.name = name) = some o) (htakes : o.takesValue = true)
    (hnew : g.withOption o.name value = .ok g') :
    read f g (assignment name value :: rest) = read f g' rest := by
  rw [read]
  simp [classify_assignment hname, hform, htakes, hnew, takeValue]

theorem read_command (hleads : f.leadsToCommand = true) (hword : classify word = .plain)
    (rest : List String) : read f g (word :: rest) = .ok (g, word :: rest) := by
  rw [read]
  simp [hword, hleads]

end Arguments

namespace Command

open Arguments (assignment read_nil read_assignment read_command)

/-! ## Asking for Markdown -/

/-- Options that name a report, and a file to write its Markdown to. -/
def markdownOptions (path : String) (output : Option String) : List String :=
  assignment "report" path :: (output.map (assignment "output")).toList

theorem read_markdownOptions (path : String) (output : Option String) :
    Arguments.read markdownForm .none (markdownOptions path output) =
      .ok (⟨("report", path) :: (output.map ("output", ·)).toList, []⟩, []) := by
  refine (read_assignment _ (by decide) rfl rfl rfl).trans ?_
  cases output with
  | none => exact read_nil _ _
  | some out => exact (read_assignment [] (by decide) rfl rfl rfl).trans (read_nil _ _)

/-- Every report can be asked for, and every file be named for its Markdown. -/
theorem ofWords_markdownOptions (path : String) (output : Option String) :
    CommandLine.ofWords ("md" :: markdownOptions path output) =
      .ok ⟨"iacguard.toml", none, "warn", .markdown path output⟩ := by
  have hcommand : Command.ofWords "md" (markdownOptions path output) =
      .ok (.markdown path output) := by
    have hreader : Command.ofWords "md" (markdownOptions path output) =
        readMarkdown (markdownOptions path output) := rfl
    rw [hreader, readMarkdown, read_markdownOptions]
    cases output <;> rfl
  rw [CommandLine.ofWords, read_command rfl rfl]
  simp only [bind, Except.bind, hcommand]
  rfl

/-! ## Showing a report -/

variable {b : Build} {words : List String} {line : CommandLine} {o : CheckOptions} {w w' : World}
  {path : String} {r : Report}

theorem run_printing {steps : Steps (StateM World) String} {text : String}
    (h : steps.run.run w = (.ok text, w')) :
    (printing steps : StateM World Exit).run w = (.success text, w') :=
  World.run_bind h

theorem runWords_eq_run (hwords : CommandLine.ofWords words = .ok line) :
    (runWords b words : StateM World Exit) = run b line := by
  rw [runWords, hwords]

namespace HoldsReport

theorem congr (h : HoldsReport w path r) (hfiles : w'.files = w.files)
    (hstanding : w'.standing = w.standing) : HoldsReport w' path r := by
  rw [HoldsReport, hfiles, hstanding]
  exact h

theorem run_markdown (h : HoldsReport w path r) :
    (runMarkdown path none : StateM World Exit).run w = (.success r.markdown, w) := by
  obtain ⟨text, htext, hparse⟩ := h
  have hread := run_readFrom .report path w
  rw [htext] at hread
  refine run_printing ?_
  rw [steps_bind_ok hread, hparse]
  rfl

theorem run_markdown_to (h : HoldsReport w path r) {out : String} (htakes : Takes w out) :
    ∃ w', (runMarkdown path (some out) : StateM World Exit).run w = (.success "", w') ∧
      w'.files.read w'.standing out = .ok r.markdown := by
  obtain ⟨text, htext, hparse⟩ := h
  have hread := run_readFrom .report path w
  rw [htext] at hread
  obtain ⟨w', hwrite⟩ := htakes.writeTo .output 0 r.markdown
  obtain ⟨t, p, hput⟩ := writeTo_ok hwrite
  refine ⟨w', run_printing ?_, hput.holds.read⟩
  rw [steps_bind_ok hread, hparse]
  exact steps_bind_ok hwrite

end HoldsReport

/-- The report under a path is shown as the Markdown of a report, whoever asks for it. -/
structure Shows (w : World) (path : String) (r : Report) : Prop where
  asked : ∀ output, ∃ words line, CommandLine.ofWords words = .ok line ∧
    line.command = .markdown path output
  printed : ∀ {b words line}, CommandLine.ofWords words = .ok line →
    line.command = .markdown path none →
    (runWords b words : StateM World Exit).run w = (.success r.markdown, w)
  written : ∀ {b words line out}, CommandLine.ofWords words = .ok line →
    line.command = .markdown path (some out) → Takes w out →
    ∃ w', (runWords b words : StateM World Exit).run w = (.success "", w') ∧
      w'.files.read w'.standing out = .ok r.markdown

theorem HoldsReport.shows (h : HoldsReport w path r) : Shows w path r where
  asked output := ⟨_, _, ofWords_markdownOptions path output, rfl⟩
  printed hwords hcommand := by
    rw [runWords_eq_run hwords, run, hcommand]
    exact h.run_markdown
  written hwords hcommand htakes := by
    rw [runWords_eq_run hwords, run, hcommand]
    exact h.run_markdown_to htakes

/-! ## What audits leave -/

/-- How an audit leaves a report that it made: its own, or that of the error that stopped it. -/
inductive Leaves (b : Build) (line : CommandLine) (o : CheckOptions) (w : World) :
    Exit → World → Report → Prop
  | judged {r : Report} {w' : World} :
      (auditSteps b line o : Steps (StateM World) Report).run.run w = (.ok r, w') →
      Leaves b line o w ⟨r.outcome.exitCode, r.digest, ""⟩ w' r
  | stopped {e : CommandError} {r : Report} {w₁ w' : World} :
      (auditSteps b line o : Steps (StateM World) Report).run.run w = (.error e, w₁) →
      r = .ofError (causesInLine e.chain) (w₁.clock w₁.readings) →
      (writeTo .report o.reportFile r.serialize : Steps (StateM World) Unit).run.run (w₁.later 1) =
        (.ok (), w') →
      Leaves b line o w ⟨1, "", s!"iacguard error: {causesInLine e.chain}\n"⟩ w' r

theorem auditEnd_of_run_eq {result : Except CommandError Report}
    (h : (auditSteps b line o : Steps (StateM World) Report).run.run w = (result, w')) :
    AuditEnd b line o w result w' := by
  obtain ⟨result', w₁, hsteps, hend⟩ := auditSteps_ends b line o w
  obtain ⟨rfl, rfl⟩ := Prod.mk.inj (h.symm.trans hsteps)
  exact hend

namespace Leaves

variable {exit : Exit}

theorem holdsReport (h : Leaves b line o w exit w' r) (hapart : WritesApart o w.standing) :
    HoldsReport w' o.reportFile r := by
  cases h with
  | judged hsteps => exact ((auditEnd_of_run_eq hsteps).holdsReport hapart).2
  | stopped _ hr hwrite =>
      obtain ⟨t, p, hput⟩ := writeTo_ok hwrite
      exact hput.holds.report (hr ▸ rfl)

theorem markdownFile (h : Leaves b line o w exit w' r) (hcode : exit.code ≠ 1)
    (hasks : o.writesMarkdown = true) :
    w'.files.read w'.standing o.markdownFile = .ok r.markdown := by
  cases h with
  | judged hsteps =>
      cases auditEnd_of_run_eq hsteps with
      | plain _ hplain _ =>
          rw [hasks] at hplain
          cases hplain
      | shown _ _ _ hmarkdown =>
          obtain ⟨t, p, hput⟩ := writeTo_ok hmarkdown
          exact hput.holds.read
  | stopped _ _ _ => exact absurd rfl hcode

end Leaves

/-- Only an audit that is stopped, and cannot write a report, leaves none. -/
theorem runCheck_leaves (b : Build) (line : CommandLine) (o : CheckOptions) (w : World) :
    ∃ exit w', (runCheck b line o : StateM World Exit).run w = (exit, w') ∧
      (exit.code ≠ 1 ∨ Takes w o.reportFile ∨ Takes w' o.reportFile →
        ∃ r, Leaves b line o w exit w' r) := by
  obtain ⟨result, w₁, hsteps, hend⟩ := auditSteps_ends b line o w
  rw [runCheck, World.run_bind hsteps]
  cases result with
  | ok r => exact ⟨_, w₁, rfl, fun _ => ⟨r, .judged hsteps⟩⟩
  | error e =>
      refine ⟨_, _, World.run_bind (run_leaveError o.reportFile (causesInLine e.chain) w₁), ?_⟩
      rcases hwrite : (writeTo .report o.reportFile
        (Report.ofError (causesInLine e.chain) (w₁.clock w₁.readings)).serialize :
          Steps (StateM World) Unit).run.run (w₁.later 1) with ⟨e' | _, w'⟩
      · rintro (hcode | htakes | htakes)
        · exact absurd rfl hcode
        · obtain ⟨w'', hok⟩ := hend.rewritable htakes
            (Report.ofError (causesInLine e.chain) (w₁.clock w₁.readings)).serialize
          rw [hok] at hwrite
          cases hwrite
        · exact absurd htakes (not_takes_of_writeTo_error hwrite)
      · exact fun _ => ⟨_, .stopped hsteps rfl hwrite⟩

/-! ## Agreement -/

/-- For every command line that asks for an audit, and every world: as long as nothing changes, the
report that is left is shown as the Markdown of the report that was made. -/
theorem markdown_agrees {b : Build} {words : List String} {line : CommandLine} {o : CheckOptions}
    {w : World} (hwords : CommandLine.ofWords words = .ok line) (hcommand : line.command = .check o)
    (hapart : WritesApart o w.standing) :
    ∃ exit w', (runWords b words : StateM World Exit).run w = (exit, w') ∧
      (exit.code ≠ 1 ∨ Takes w o.reportFile ∨ Takes w' o.reportFile →
        ∃ r, Leaves b line o w exit w' r) ∧
      ∀ r, Leaves b line o w exit w' r →
        (∀ w'', w''.files = w'.files → w''.standing = w'.standing → Shows w'' o.reportFile r) ∧
        (exit.code ≠ 1 → o.writesMarkdown = true →
          w'.files.read w'.standing o.markdownFile = .ok r.markdown) := by
  obtain ⟨exit, w', hcheck, hleaves⟩ := runCheck_leaves b line o w
  rw [runWords_eq_run hwords, run, hcommand]
  refine ⟨exit, w', hcheck, hleaves, fun r hr => ⟨?_, hr.markdownFile⟩⟩
  -- What is shown rests on the file alone, and reading undoes writing.
  intro w'' hfiles hstanding
  exact ((hr.holdsReport hapart).congr hfiles hstanding).shows

/-- A world with a document in which a group has no description. -/
def undescribed : World where
  files := ⟨[(["work"], .directory), (["work", "main.json"], .file <| Json.compact <| .object
    [("aws_security_group", .object [("ssh", .object [])])])]⟩
  standing := ["work"]
  clock := fun _ => .epoch
  readings := 0

def undescribedOptions : CheckOptions :=
  ⟨"main.json", defaultReportFile, true, "artifacts/iacguard/comment.md", false⟩

theorem markdown_agrees_undescribed :
    let line : CommandLine := ⟨"iacguard.toml", none, "warn", .check undescribedOptions⟩
    ∃ exit w' r, (runWords .full ["check", "--input", "main.json", "--write-markdown"] :
        StateM World Exit).run undescribed = (exit, w') ∧
      exit.code = 2 ∧ Leaves .full line undescribedOptions undescribed exit w' r ∧
      (runWords .full ["md"] : StateM World Exit).run w' = (.success r.markdown, w') ∧
      w'.files.read w'.standing "artifacts/iacguard/comment.md" = .ok r.markdown := by
  intro line
  have hwords : CommandLine.ofWords ["check", "--input", "main.json", "--write-markdown"] =
      .ok line := by
    decide +kernel
  have hshow : CommandLine.ofWords ["md"] =
      .ok ⟨"iacguard.toml", none, "warn", .markdown defaultReportFile none⟩ := by
    decide +kernel
  have hapart : WritesApart undescribedOptions undescribed.standing := by
    rintro - p hp
    have hreport : FileTree.place? undescribed.standing undescribedOptions.reportFile =
        some ["work", "artifacts", "iacguard", "report.json"] := by decide +kernel
    have hmarkdown : FileTree.place? undescribed.standing undescribedOptions.markdownFile =
        some ["work", "artifacts", "iacguard", "comment.md"] := by decide +kernel
    rw [hreport] at hp
    cases hp
    rw [hmarkdown]
    decide
  have hcode : ((runWords .full ["check", "--input", "main.json", "--write-markdown"] :
      StateM World Exit).run undescribed).1.code = 2 := by
    decide +kernel
  obtain ⟨exit, w', hrun, hleaves, hagrees⟩ := markdown_agrees (b := .full) hwords rfl hapart
  rw [hrun] at hcode
  have hne : exit.code ≠ 1 := by
    rw [hcode]
    decide
  obtain ⟨r, hr⟩ := hleaves (.inl hne)
  obtain ⟨hshows, hfile⟩ := hagrees r hr
  exact ⟨exit, w', r, hrun, hcode, hr, (hshows w' rfl rfl).printed hshow rfl, hfile hne rfl⟩

end Command

end ResourceAudit
