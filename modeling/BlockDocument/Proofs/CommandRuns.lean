import BlockDocument.Command.Run
import BlockDocument.Proofs.FileWrites

/-!
# What a run comes down to

A run is decided by what its command line asks for (`invocationOf`) and by the settings that files
and extras give (`adjusted?`). If there are settings and a task, it performs the task; in all other
cases it ends without having written anything (`runInvocation_cases`). Each task has its lemma
here, so that nothing else has to look into it.
-/

namespace BlockDocument.Command

/-- What a command line asks for. -/
def invocationOf (arguments : List Text) : Except Refusal Invocation :=
  Invocation.ofArguments (Split.ofArguments arguments).plain

/-- The extras of a command line. -/
def extrasOf (arguments : List Text) : Dictionary Text := (Split.ofArguments arguments).dictionary

/-- The settings that files and extras give, with the extras left over, if they give any. -/
def adjusted? (tree : FileTree) (i : Invocation) (extras : Dictionary Text) : Option Adjusted :=
  ((layers i.config).settings tree).toOption.bind fun settings =>
    (applyExtras settings extras).toOption

/-- The page of a preview. -/
def previewOf (tree : FileTree) (settings : Settings) (nonce : Option Text) (input : Text) :
    Html.RenderedPage :=
  Html.previewPage (settings.pageOptions nonce)
    (parseFile tree settings.preview.resolveIncludes input).result

/-- The status of a preview that is delivered. -/
def previewStatus (tree : FileTree) (settings : Settings) (input : Text) : Nat :=
  match (parseFile tree settings.preview.resolveIncludes input).result with
  | .ok _ => 0
  | .error _ => 1

theorem previewStatus_eq_one_iff {tree : FileTree} {settings : Settings} {input : Text} :
    previewStatus tree settings input = 1
      ↔ ∃ e, (parseFile tree settings.preview.resolveIncludes input).result = .error e := by
  unfold previewStatus
  rcases (parseFile tree settings.preview.resolveIncludes input).result with e | d
  · exact ⟨fun _ => ⟨e, rfl⟩, fun _ => rfl⟩
  · exact ⟨fun h => absurd (show 0 = 1 from h) Nat.zero_ne_one, fun ⟨_, h⟩ => by cases h⟩

variable {tree : FileTree} {arguments : List Text} {i : Invocation} {extras : Dictionary Text}

theorem run_of_invocation (h : invocationOf arguments = .ok i) :
    run tree arguments = (runInvocation tree (extrasOf arguments) i).select i.verbose := by
  unfold invocationOf at h
  unfold run
  simp only [h]
  rfl

theorem run_of_refusal {refusal : Refusal} (h : invocationOf arguments = .error refusal) :
    run tree arguments = refuse tree refusal := by
  unfold invocationOf at h
  unfold run
  simp only [h]

@[simp] theorem tree_refuse (refusal : Refusal) : (refuse tree refusal).tree = tree := by
  cases refusal <;> rfl

theorem adjusted?_eq_some {a : Adjusted} : adjusted? tree i extras = some a
    ↔ ∃ settings, (layers i.config).settings tree = .ok settings
      ∧ applyExtras settings extras = .ok a := by
  unfold adjusted?
  constructor
  · intro h
    obtain ⟨settings, hs, ha⟩ := Option.bind_eq_some_iff.1 h
    refine ⟨settings, ?_, ?_⟩
    · rcases hl : (layers i.config).settings tree with e | s <;> rw [hl] at hs <;> cases hs
      rfl
    · rcases hx : applyExtras settings extras with e | s <;> rw [hx] at ha <;> cases ha
      rfl
  · rintro ⟨settings, hs, ha⟩
    rw [hs]
    show (applyExtras settings extras).toOption = some a
    rw [ha]
    rfl

theorem runInvocation_of_listThemes (h : i.listThemes = true) :
    runInvocation tree extras i = .print tree themeList := by
  unfold runInvocation
  rw [if_pos h]

theorem runInvocation_of_config {fault : ConfigFault} (hl : i.listThemes = false)
    (h : (layers i.config).settings tree = .error fault) :
    runInvocation tree extras i = .fail tree (configMessage fault) := by
  unfold runInvocation
  simp only [hl, h, Bool.false_eq_true, ↓reduceIte]

theorem runInvocation_of_extra {settings : Settings} {fault : ExtraFault}
    (hl : i.listThemes = false) (hs : (layers i.config).settings tree = .ok settings)
    (h : applyExtras settings extras = .error fault) :
    runInvocation tree extras i = .fail tree fault.message := by
  unfold runInvocation
  simp only [hl, hs, h, Bool.false_eq_true, ↓reduceIte]

theorem runInvocation_of_adjusted {a : Adjusted} {task : Task} (hl : i.listThemes = false)
    (ha : adjusted? tree i extras = some a) (ht : i.task = some task) :
    runInvocation tree extras i = runTask tree a task := by
  obtain ⟨settings, hs, hx⟩ := adjusted?_eq_some.1 ha
  unfold runInvocation
  simp only [hl, hs, hx, ht, Bool.false_eq_true, ↓reduceIte]

/-- A run performs a task or leaves the files alone. -/
theorem runInvocation_cases (tree : FileTree) (extras : Dictionary Text) (i : Invocation) :
    (runInvocation tree extras i).tree = tree
      ∨ ∃ task a, i.listThemes = false ∧ i.task = some task ∧ adjusted? tree i extras = some a
        ∧ runInvocation tree extras i = runTask tree a task := by
  cases hl : i.listThemes with
  | true =>
    left
    rw [runInvocation_of_listThemes hl]
    rfl
  | false =>
    rcases hs : (layers i.config).settings tree with fault | settings
    · left
      rw [runInvocation_of_config hl hs]
      rfl
    · rcases hx : applyExtras settings extras with fault | a
      · left
        rw [runInvocation_of_extra hl hs hx]
        rfl
      · rcases ht : i.task with _ | task
        · left
          unfold runInvocation
          simp only [hl, hs, hx, ht, Bool.false_eq_true, ↓reduceIte]
          rfl
        · have ha := adjusted?_eq_some.2 ⟨settings, hs, hx⟩
          exact .inr ⟨task, a, rfl, rfl, ha, runInvocation_of_adjusted hl ha ht⟩

/-! ## Previews -/

variable {settings : Settings} {nonce : Option Text} {input path : Text}

theorem runPreview_missing {e : FileError} (h : tree.find input = .error e)
    (output : Option Text) :
    runPreview tree settings nonce input output = .fail tree (readFailure input e) := by
  unfold runPreview
  rw [h]

/-- What a preview says before it is delivered. -/
def previewMessages (tree : FileTree) (settings : Settings) (nonce : Option Text) (input : Text) :
    List Message :=
  parseMessages input (parseFile tree settings.preview.resolveIncludes input)
    ++ (previewOf tree settings nonce input).notices.map noticeMessage

theorem runPreview_printed {found : List Text × Entry} (h : tree.find input = .ok found) :
    runPreview tree settings nonce input none
      = Outcome.precede (previewMessages tree settings nonce input)
        { status := previewStatus tree settings input
          output := (previewOf tree settings nonce input).html
          tree } := by
  unfold runPreview
  simp only [h]
  rfl

theorem runPreview_written {found : List Text × Entry} {written : FileTree}
    (h : tree.find input = .ok found)
    (hw : tree.write path (previewOf tree settings nonce input).html = .ok written) :
    runPreview tree settings nonce input (some path)
      = Outcome.precede (previewMessages tree settings nonce input)
        { status := previewStatus tree settings input
          messages := [.log .info ("wrote ".toList ++ path)]
          tree := written } := by
  have hpublish : publish tree (settings.pageOptions nonce) (some path)
      (parseFile tree settings.preview.resolveIncludes input).result
        = ⟨.ok (.file path), written, (previewOf tree settings nonce input).notices⟩ := by
    unfold previewOf at hw
    unfold publish
    simp only [hw]
    rfl
  unfold runPreview
  simp only [h, hpublish]
  rfl

theorem runPreview_unwritten {found : List Text × Entry} {e : FileError}
    (h : tree.find input = .ok found)
    (hw : tree.write path (previewOf tree settings nonce input).html = .error e) :
    runPreview tree settings nonce input (some path)
      = Outcome.precede (previewMessages tree settings nonce input)
        (.fail tree ("Error: ".toList ++ PublishFailure.message ⟨path, e⟩)) := by
  have hpublish : publish tree (settings.pageOptions nonce) (some path)
      (parseFile tree settings.preview.resolveIncludes input).result
        = ⟨.error ⟨path, e⟩, tree, (previewOf tree settings nonce input).notices⟩ := by
    unfold previewOf at hw
    unfold publish
    simp only [hw]
    rfl
  unfold runPreview
  simp only [h, hpublish]
  rfl

/-- A preview leaves the files alone or writes its page to the file for it. -/
theorem tree_runPreview (output : Option Text) :
    (runPreview tree settings nonce input output).tree = tree
      ∨ ∃ path, output = some path ∧ tree.write path (previewOf tree settings nonce input).html
        = .ok (runPreview tree settings nonce input output).tree := by
  rcases h : tree.find input with e | found
  · left
    rw [runPreview_missing h]
    rfl
  · cases output with
    | none =>
      left
      rw [runPreview_printed h]
      rfl
    | some path =>
      rcases hw : tree.write path (previewOf tree settings nonce input).html with e | written
      · left
        rw [runPreview_unwritten h hw]
        rfl
      · right
        refine ⟨path, rfl, ?_⟩
        rw [runPreview_written h hw, hw]
        rfl

/-! ## Checking and formatting -/

@[simp] theorem tree_runCheck : (runCheck tree settings input).tree = tree := by
  unfold runCheck
  split <;> rfl

theorem runCheck_missing {e : FileError} (h : tree.readText input = .error e) :
    runCheck tree settings input = .fail tree (readFailure input e) := by
  unfold runCheck
  rw [h]

theorem runFormat_missing {e : FileError} (h : tree.readText input = .error e) (write : Bool) :
    runFormat tree settings input write = .fail tree (readFailure input e) := by
  unfold runFormat
  rw [h]

/-- Formatting leaves the files alone or writes text over its input that is not what was there. -/
theorem tree_runFormat (write : Bool) :
    (runFormat tree settings input write).tree = tree
      ∨ write = true ∧ ∃ source, tree.readText input = .ok source
        ∧ Source.format settings.layout source ≠ source
        ∧ tree.write input (Source.format settings.layout source)
          = .ok (runFormat tree settings input write).tree := by
  rcases h : tree.readText input with e | source
  · left
    rw [runFormat_missing h]
    rfl
  · unfold runFormat
    simp only [h]
    cases write with
    | false => exact .inl rfl
    | true =>
      simp only [Bool.not_true, Bool.false_eq_true, ↓reduceIte]
      by_cases hsame : Source.format settings.layout source = source
      · left
        rw [if_pos hsame]
      · rw [if_neg hsame]
        rcases hw : tree.write input (Source.format settings.layout source) with e | written
        · exact .inl rfl
        · exact .inr ⟨trivial, source, rfl, hsame, hw⟩

theorem readText_of_find {e : FileError} (h : tree.find input = .error e) :
    tree.readText input = .error e := by
  unfold FileTree.readText
  rw [h]

end BlockDocument.Command
