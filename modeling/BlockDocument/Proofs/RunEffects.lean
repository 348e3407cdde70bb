import BlockDocument.Proofs.CommandRuns
import BlockDocument.Proofs.OptionReading
import Mathlib.Control.Monad.Basic
import Mathlib.Tactic.ByContra

/-!
# What a run writes

A run changes at most one file: the one that a preview was told to write, or the input of a format
that was told to write, if formatting changes its text (`mayWrite_of_changed`). A run that ends
early changes none (`run_of_endsEarly`). A preview that is delivered to a file leaves the page
there that it prints without one, and ends in the same status (`run_written`, `run_printed`).
-/

namespace BlockDocument.Command

/-- What a task reads. -/
def Task.input? : Task → Option Text
  | .preview input _ _ _ _ | .check input | .format input _ => some input
  | .stylesheet => none

/-- The places that a run may write to. -/
def MayWrite (tree : FileTree) (arguments : List Text) (place : List Text) : Prop :=
  ∃ i path, invocationOf arguments = .ok i ∧ tree.place path = .ok place ∧
    ((∃ input theme nonce policySource,
        i.task = some (.preview input (some path) theme nonce policySource)) ∨
      i.task = some (.format path true) ∧ ∃ source a, tree.readText path = .ok source ∧
        adjusted? tree i (extrasOf arguments) = some a ∧
        Source.format a.settings.layout source ≠ source)

/-- Whether a run ends because there are no settings, because an extra has a value that its setting
cannot have, or because its input is missing. -/
def EndsEarly (tree : FileTree) (i : Invocation) (extras : Dictionary Text) : Prop :=
  (∃ fault, (layers i.config).settings tree = .error fault) ∨
  (∃ settings fault, (layers i.config).settings tree = .ok settings ∧
    applyExtras settings extras = .error fault) ∨
  ∃ task input e, i.task = some task ∧ task.input? = some input ∧ tree.find input = .error e

variable {tree : FileTree} {arguments : List Text} {i : Invocation}

@[simp] theorem tree_select (verbose : Bool) (o : Outcome) : (o.select verbose).tree = o.tree := rfl

theorem changed_of_write {path content : Text} {written : FileTree} {place : List Text}
    (h : tree.write path content = .ok written)
    (hchanged : written.entry? place ≠ tree.entry? place) : tree.place path = .ok place := by
  by_contra hplace
  exact hchanged (FileTree.entry?_of_write h hplace)

theorem mayWrite_of_changed {place : List Text}
    (h : FileTree.entry? (run tree arguments).tree place ≠ tree.entry? place) :
    MayWrite tree arguments place := by
  rcases hi : invocationOf arguments with refusal | i
  · rw [run_of_refusal hi, tree_refuse] at h
    exact absurd rfl h
  · rw [run_of_invocation hi, tree_select] at h
    rcases runInvocation_cases tree (extrasOf arguments) i with hsame | ⟨task, a, -, ht, ha, hrun⟩
    · rw [hsame] at h
      exact absurd rfl h
    · rw [hrun] at h
      cases task with
      | preview input output theme nonce policySource =>
        rcases @tree_runPreview tree _ _ _ output with hsame | ⟨path, rfl, hw⟩
        · exact absurd (congrArg (FileTree.entry? · place) hsame) h
        · exact ⟨i, path, hi, changed_of_write hw h, .inl ⟨input, theme, nonce, policySource, ht⟩⟩
      | check input => exact absurd (congrArg (FileTree.entry? · place) tree_runCheck) h
      | format input write =>
        rcases @tree_runFormat tree _ _ write with hsame | ⟨rfl, source, hsource, hformat, hw⟩
        · exact absurd (congrArg (FileTree.entry? · place) hsame) h
        · exact ⟨i, input, hi, changed_of_write hw h, .inr ⟨ht, source, a, hsource, ha, hformat⟩⟩
      | stylesheet => exact absurd rfl h

/-! ## Runs that end early -/

theorem runInvocation_of_endsEarly {extras : Dictionary Text} (hl : i.listThemes = false)
    (h : EndsEarly tree i extras) :
    ∃ messages text, runInvocation tree extras i = .precede messages (.fail tree text) := by
  rcases hs : (layers i.config).settings tree with fault | settings
  · exact ⟨[], _, runInvocation_of_config hl hs⟩
  · rcases hx : applyExtras settings extras with fault | a
    · exact ⟨[], _, runInvocation_of_extra hl hs hx⟩
    · rcases h with ⟨fault, hf⟩ | ⟨settings', fault, hs', hf⟩ | ⟨task, input, e, ht, hinput, he⟩
      · rw [hs] at hf
        cases hf
      · cases hs.symm.trans hs'
        rw [hx] at hf
        cases hf
      · rw [runInvocation_of_adjusted hl (adjusted?_eq_some.2 ⟨settings, hs, hx⟩) ht]
        cases task with
        | preview input' output theme nonce policySource =>
          cases hinput
          exact ⟨_, _, congrArg (Outcome.precede _) (runPreview_missing he output)⟩
        | check input' =>
          cases hinput
          exact ⟨_, _, congrArg (Outcome.precede _) (runCheck_missing (readText_of_find he))⟩
        | format input' write =>
          cases hinput
          exact ⟨_, _, congrArg (Outcome.precede _) (runFormat_missing (readText_of_find he) write)⟩
        | stylesheet => cases hinput

theorem run_of_endsEarly (hi : invocationOf arguments = .ok i)
    (h : EndsEarly tree i (extrasOf arguments)) :
    (run tree arguments).tree = tree
      ∧ (i.listThemes = false → (run tree arguments).status = 1) := by
  rw [run_of_invocation hi]
  cases hl : i.listThemes with
  | true =>
    rw [runInvocation_of_listThemes hl]
    exact ⟨rfl, nofun⟩
  | false =>
    obtain ⟨messages, text, hrun⟩ := runInvocation_of_endsEarly hl h
    rw [hrun]
    exact ⟨rfl, fun _ => rfl⟩

/-! ## Previews that are delivered -/

section Delivered

variable {a : Adjusted} {input path : Text} {theme nonce policySource : Option Text}
  {found : List Text × Entry}

/-- The page of a run. -/
def pageOf (tree : FileTree) (a : Adjusted) (input : Text)
    (theme nonce policySource : Option Text) : Html.RenderedPage :=
  previewOf tree (previewSettings a.settings theme policySource)
    (chooseNonce nonce a.unused).1 input

theorem run_printed (hi : invocationOf arguments = .ok i) (hl : i.listThemes = false)
    (ht : i.task = some (.preview input none theme nonce policySource))
    (ha : adjusted? tree i (extrasOf arguments) = some a) (hfound : tree.find input = .ok found) :
    (run tree arguments).status = previewStatus tree a.settings input
      ∧ (run tree arguments).output = (pageOf tree a input theme nonce policySource).html
      ∧ (run tree arguments).tree = tree := by
  rw [run_of_invocation hi, runInvocation_of_adjusted hl ha ht]
  simp only [runTask]
  rw [runPreview_printed hfound]
  exact ⟨rfl, rfl, rfl⟩

theorem run_written (hi : invocationOf arguments = .ok i) (hl : i.listThemes = false)
    (ht : i.task = some (.preview input (some path) theme nonce policySource))
    (ha : adjusted? tree i (extrasOf arguments) = some a) (hfound : tree.find input = .ok found)
    {written : FileTree}
    (hw : tree.write path (pageOf tree a input theme nonce policySource).html = .ok written) :
    (run tree arguments).status = previewStatus tree a.settings input
      ∧ (run tree arguments).tree = written := by
  rw [run_of_invocation hi, runInvocation_of_adjusted hl ha ht]
  simp only [runTask]
  rw [runPreview_written hfound hw]
  exact ⟨rfl, rfl⟩

end Delivered

/-- Whether a command line is another one without the words that give the output. -/
def DropsOutput (bare arguments : List Text) : Prop :=
  ∃ before words after, WritesOutput words ∧ ['-', '-'] ∉ before ∧
    (Split.ofArguments arguments).plain = before ++ (words ++ after) ∧
    (Split.ofArguments bare).plain = before ++ after

theorem invocationOf_of_dropsOutput {bare : List Text} {input : Text}
    {output theme nonce policySource : Option Text} (h : DropsOutput bare arguments)
    (hi : invocationOf arguments = .ok i)
    (ht : i.task = some (.preview input output theme nonce policySource)) :
    invocationOf bare = .ok i.withoutOutput := by
  obtain ⟨before, words, after, hw, hno, hwith, hwithout⟩ := h
  unfold invocationOf at hi ⊢
  rw [hwith] at hi
  rw [hwithout]
  exact Invocation.ofArguments_withoutOutput hw hno hi ht

/-- The command touches only the file it was told to write. -/
theorem run_touches_only_its_target (tree : FileTree) (arguments : List Text) :
    (∀ place, FileTree.entry? (run tree arguments).tree place ≠ tree.entry? place →
      MayWrite tree arguments place) ∧
    ∀ i, invocationOf arguments = .ok i →
      (EndsEarly tree i (extrasOf arguments) → (run tree arguments).tree = tree ∧
        (i.listThemes = false → (run tree arguments).status = 1)) ∧
      ∀ a input path theme nonce policySource, i.listThemes = false →
        i.task = some (.preview input (some path) theme nonce policySource) →
        adjusted? tree i (extrasOf arguments) = some a →
        (∃ found, tree.find input = .ok found) →
        (∃ content written, tree.write path content = .ok written) →
        ∃ page, (run tree arguments).tree.readText path = .ok page ∧
          (∀ bare, extrasOf bare = extrasOf arguments →
            invocationOf bare = .ok i.withoutOutput ∨ DropsOutput bare arguments →
            (run tree bare).output = page ∧
            (run tree bare).status = (run tree arguments).status ∧ (run tree bare).tree = tree) ∧
          ((run tree arguments).status = 1 ↔
            ∃ e, (parseFile tree a.settings.preview.resolveIncludes input).result = .error e) ∧
          ∀ e, (parseFile tree a.settings.preview.resolveIncludes input).result = .error e →
            page = Html.failurePage e.message ((previewSettings a.settings theme
              policySource).pageOptions (chooseNonce nonce a.unused).1).policy := by
  refine ⟨fun place => mayWrite_of_changed, fun i hi => ⟨run_of_endsEarly hi, ?_⟩⟩
  rintro a input path theme nonce policySource hl ht ha ⟨found, hfound⟩ ⟨content, _, hcontent⟩
  obtain ⟨written, hw⟩ :=
    FileTree.write_congr hcontent (pageOf tree a input theme nonce policySource).html
  obtain ⟨hstatus, htree⟩ := run_written hi hl ht ha hfound hw
  refine ⟨(pageOf tree a input theme nonce policySource).html, ?_, ?_, ?_, ?_⟩
  · rw [htree]
    exact FileTree.readText_of_write hw
  · intro bare hextras hbare
    have hi' : invocationOf bare = .ok i.withoutOutput :=
      hbare.elim id fun hdrops => invocationOf_of_dropsOutput hdrops hi ht
    have ht' : i.withoutOutput.task = some (.preview input none theme nonce policySource) := by
      unfold Invocation.withoutOutput
      rw [ht]
      rfl
    rw [← hextras] at ha
    obtain ⟨hstatus', houtput, htree'⟩ := run_printed hi' hl ht' ha hfound
    exact ⟨houtput, hstatus'.trans hstatus.symm, htree'⟩
  · rw [hstatus]
    exact previewStatus_eq_one_iff
  · intro e he
    show (Html.previewPage _ (parseFile tree a.settings.preview.resolveIncludes input).result).html
      = _
    rw [he]
    rfl

def documentTree : FileTree := .ofEntries [] [("d.json".toList, .file (.text "[]".toList))]

def writtenPreview : List Text := ["preview", "d.json", "-o", "page.html"].map String.toList

def printedPreview : List Text := ["preview", "d.json"].map String.toList

def pageInvocation : Invocation :=
  { task := some (.preview "d.json".toList (some "page.html".toList) none none none) }

theorem run_touches_only_its_target_page :
    ∃ page, (run documentTree writtenPreview).tree.readText "page.html".toList = .ok page ∧
      (run documentTree printedPreview).output = page := by
  obtain ⟨hi, hsome⟩ : invocationOf writtenPreview = .ok pageInvocation ∧
      (adjusted? documentTree pageInvocation (extrasOf writtenPreview)).isSome = true := by
    decide +kernel
  obtain ⟨a, ha⟩ := Option.isSome_iff_exists.1 hsome
  obtain ⟨-, h⟩ := run_touches_only_its_target documentTree writtenPreview
  obtain ⟨page, hread, hbare, -⟩ := (h pageInvocation hi).2 a _ _ _ _ _ rfl rfl ha
    ⟨_, rfl⟩ ⟨[], _, rfl⟩
  have hdrops : DropsOutput printedPreview writtenPreview :=
    ⟨printedPreview, _, [], .letter "page.html".toList, by decide, rfl, rfl⟩
  exact ⟨page, hread, (hbare printedPreview rfl (.inr hdrops)).1⟩

end BlockDocument.Command
