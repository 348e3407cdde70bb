import BlockDocument.Proofs.SettingPaths

/-!
# Layers of settings

A setting has the value of the last override of its key, or else the one in the last file that
contains the key, or else the built-in one (`build_of_steps`). A `Leaf` is a single setting with
the path of its key.
-/

namespace BlockDocument

open Setting (at?)

/-- A single setting. -/
inductive Leaf
  | theme | resolveIncludes | policySource | maxRows | maxColumns | indent | maxBlankLines
  | warnUnknownBlocks
  deriving DecidableEq, Repr

namespace Leaf

/-- All of them. -/
def all : List Leaf :=
  [theme, resolveIncludes, policySource, maxRows, maxColumns, indent, maxBlankLines,
    warnUnknownBlocks]

theorem mem_all (leaf : Leaf) : leaf ∈ all := by
  cases leaf <;> decide

/-- The names that lead to a setting. -/
def path : Leaf → List Text
  | theme => ["preview".toList, "theme".toList]
  | resolveIncludes => ["preview".toList, "resolve_includes".toList]
  | policySource => ["preview".toList, "csp_source".toList]
  | maxRows => ["preview".toList, "sheet".toList, "max_rows".toList]
  | maxColumns => ["preview".toList, "sheet".toList, "max_cols".toList]
  | indent => ["format".toList, "indent_string".toList]
  | maxBlankLines => ["format".toList, "max_blank_lines".toList]
  | warnUnknownBlocks => ["check".toList, "warn_unknown_blocks".toList]

/-- The built-in value of a setting. -/
def builtIn : Leaf → Setting
  | theme => .text "default".toList
  | resolveIncludes => .bool true
  | policySource => .text []
  | maxRows => .integer 1000
  | maxColumns => .integer 100
  | indent => .text "  ".toList
  | maxBlankLines => .integer 1
  | warnUnknownBlocks => .bool true

/-- What is used of the value that is given for a setting, unless it is of no use. -/
def use? (leaf : Leaf) (value : Setting) : Option Setting :=
  match leaf with
  | theme | policySource | indent => value.toText?.map .text
  | resolveIncludes | warnUnknownBlocks => value.toBool?.map .bool
  | maxRows | maxColumns | maxBlankLines => value.toCount?.map fun n : Nat => .integer n

/-- That a value is of the type of a setting. -/
def OfType (leaf : Leaf) (value : Setting) : Prop :=
  match leaf with
  | theme | policySource | indent => ∃ t, value = .text t
  | resolveIncludes | warnUnknownBlocks => ∃ b, value = .bool b
  | maxRows | maxColumns | maxBlankLines => ∃ n : Nat, value = .integer n

/-- A value of the type of a setting is used as it is. -/
theorem use?_of_ofType {leaf : Leaf} {value : Setting} (h : leaf.OfType value) :
    leaf.use? value = some value := by
  cases leaf <;> obtain ⟨_, rfl⟩ := h <;> rfl

/-- The value that a setting has. -/
def value (leaf : Leaf) (s : Settings) : Setting :=
  match leaf with
  | theme => .text s.preview.theme
  | resolveIncludes => .bool s.preview.resolveIncludes
  | policySource => .text s.preview.policySource
  | maxRows => .integer s.preview.limits.maxRows
  | maxColumns => .integer s.preview.limits.maxColumns
  | indent => .text s.layout.indent
  | maxBlankLines => .integer s.layout.maxBlankLines
  | warnUnknownBlocks => .bool s.check.warnUnknownBlocks

/-- Whether a value is of the type of a setting, or can be converted to it. -/
def fit (leaf : Leaf) (value : Setting) : Bool := (leaf.use? value).isSome

theorem fit_table (leaf : Leaf) (ms : List (Text × Setting)) : leaf.fit (.table ms) = false := by
  cases leaf <;> rfl

theorem path_ne_nil (leaf : Leaf) : leaf.path ≠ [] := by
  cases leaf <;> exact List.cons_ne_nil _ _

theorem at?_builtIn (leaf : Leaf) : at? leaf.path ({} : Settings).setting = some leaf.builtIn := by
  cases leaf <;> rfl

theorem fit_builtIn (leaf : Leaf) : leaf.fit leaf.builtIn = true := by
  cases leaf <;> rfl

end Leaf

/-! ## Reading settings -/

namespace Setting

variable {α : Type}

theorem field?_of_get? {s v : Setting} {name : Text} (h : s.get? name = some v) (place : Nat) :
    s.field? name place = some v := by
  cases s with
  | table ms => exact h
  | nil | bool | integer | real | text | array => cases h

theorem readField_of_get? {s v : Setting} {name : Text} (h : s.get? name = some v)
    {read : Setting → Configured α} {a : α} (hread : read v = .ok a) (place : Nat) :
    s.readField read name place = .ok (some a) := by
  rw [readField, field?_of_get? h]
  simp only [hread]
  rfl

theorem useField_of_get? {s v : Setting} {name : Text} (h : s.get? name = some v)
    {use? : Setting → Option α} {a : α} (huse : use? v = some a) (place : Nat) :
    s.useField use? name place = .ok (some a) :=
  readField_of_get? h (by rw [huse]; rfl) place

theorem at?_eq_some_cons {s v : Setting} {name : Text} {path : List Text}
    (h : at? (name :: path) s = some v) :
    ∃ inner, s.get? name = some inner ∧ at? path inner = some v :=
  Option.bind_eq_some_iff.1 h

end Setting

open Setting

theorem limits_of_leaves {s rows columns : Setting} {r c : Nat}
    (hrows : s.get? "max_rows".toList = some rows) (hr : rows.toCount? = some r)
    (hcolumns : s.get? "max_cols".toList = some columns) (hc : columns.toCount? = some c) :
    Html.SheetLimits.ofSetting s = .ok ⟨r, c⟩ := by
  unfold Html.SheetLimits.ofSetting
  rw [useField_of_get? hrows hr, useField_of_get? hcolumns hc]
  rfl

theorem preview_of_leaves {s theme resolve policy sheet : Setting} {t p : Text} {b : Bool}
    {limits : Html.SheetLimits} (htheme : s.get? "theme".toList = some theme)
    (ht : theme.toText? = some t) (hresolve : s.get? "resolve_includes".toList = some resolve)
    (hb : resolve.toBool? = some b) (hpolicy : s.get? "csp_source".toList = some policy)
    (hp : policy.toText? = some p) (hsheet : s.get? "sheet".toList = some sheet)
    (hlimits : Html.SheetLimits.ofSetting sheet = .ok limits) :
    PreviewSettings.ofSetting s = .ok ⟨t, b, p, limits⟩ := by
  unfold PreviewSettings.ofSetting
  rw [useField_of_get? htheme ht, useField_of_get? hresolve hb, useField_of_get? hpolicy hp,
    readField_of_get? hsheet hlimits]
  rfl

theorem layout_of_leaves {s indent blank : Setting} {t : Text} {n : Nat}
    (hindent : s.get? "indent_string".toList = some indent) (ht : indent.toText? = some t)
    (hblank : s.get? "max_blank_lines".toList = some blank) (hn : blank.toCount? = some n) :
    Source.Layout.ofSetting s = .ok ⟨t, n⟩ := by
  unfold Source.Layout.ofSetting
  rw [useField_of_get? hindent ht, useField_of_get? hblank hn]
  rfl

theorem check_of_leaves {s warn : Setting} {b : Bool}
    (hwarn : s.get? "warn_unknown_blocks".toList = some warn) (hb : warn.toBool? = some b) :
    Source.CheckOptions.ofSetting s = .ok ⟨b⟩ := by
  unfold Source.CheckOptions.ofSetting
  rw [useField_of_get? hwarn hb]
  rfl

theorem get?_of_at? {s v : Setting} {name : Text} (h : at? [name] s = some v) :
    s.get? name = some v := by
  obtain ⟨inner, hinner, h⟩ := at?_eq_some_cons h
  rwa [at?, ← hinner] at h

theorem at?_of_get? {s inner : Setting} {name : Text} (h : s.get? name = some inner)
    (path : List Text) : at? (name :: path) s = at? path inner := by
  rw [at?, h, Option.bind_some]

theorem exists_of_isSome_map {α β : Type} {x : Option α} {f : α → β}
    (h : (x.map f).isSome = true) : ∃ a, x = some a := by
  rw [Option.isSome_map] at h
  exact Option.isSome_iff_exists.1 h

/-- Settings can be read from a tree that holds a value of use for each of them, and then have
those values. -/
theorem ofSetting_of_leaves {s : Setting} {given : Leaf → Setting}
    (hat : ∀ leaf : Leaf, at? leaf.path s = some (given leaf))
    (hfit : ∀ leaf : Leaf, leaf.fit (given leaf) = true) :
    ∃ settings, Settings.ofSetting s = .ok settings ∧
      ∀ leaf : Leaf, leaf.use? (given leaf) = some (leaf.value settings) := by
  obtain ⟨preview, hpreview, htheme⟩ := at?_eq_some_cons (hat .theme)
  obtain ⟨sheet, hsheet, hrows⟩ := at?_eq_some_cons
    ((at?_of_get? hpreview _).symm.trans (hat .maxRows))
  obtain ⟨layout, hlayout, hindent⟩ := at?_eq_some_cons (hat .indent)
  obtain ⟨check, hcheck, hwarn⟩ := at?_eq_some_cons (hat .warnUnknownBlocks)
  have hresolve := (at?_of_get? hpreview _).symm.trans (hat .resolveIncludes)
  have hpolicy := (at?_of_get? hpreview _).symm.trans (hat .policySource)
  have hcolumns := (at?_of_get? hsheet _).symm.trans
    ((at?_of_get? hpreview _).symm.trans (hat .maxColumns))
  have hblank := (at?_of_get? hlayout _).symm.trans (hat .maxBlankLines)
  obtain ⟨t, ht⟩ := exists_of_isSome_map (hfit .theme)
  obtain ⟨b, hb⟩ := exists_of_isSome_map (hfit .resolveIncludes)
  obtain ⟨p, hp⟩ := exists_of_isSome_map (hfit .policySource)
  obtain ⟨r, hr⟩ := exists_of_isSome_map (hfit .maxRows)
  obtain ⟨c, hc⟩ := exists_of_isSome_map (hfit .maxColumns)
  obtain ⟨i, hi⟩ := exists_of_isSome_map (hfit .indent)
  obtain ⟨n, hn⟩ := exists_of_isSome_map (hfit .maxBlankLines)
  obtain ⟨w, hw⟩ := exists_of_isSome_map (hfit .warnUnknownBlocks)
  have hlimits := limits_of_leaves (get?_of_at? hrows) hr (get?_of_at? hcolumns) hc
  refine ⟨⟨⟨t, b, p, ⟨r, c⟩⟩, ⟨i, n⟩, ⟨w⟩⟩, ?_, fun leaf => ?_⟩
  · unfold Settings.ofSetting
    rw [readField_of_get? hpreview (preview_of_leaves (get?_of_at? htheme) ht
        (get?_of_at? hresolve) hb (get?_of_at? hpolicy) hp hsheet hlimits),
      readField_of_get? hlayout (layout_of_leaves (get?_of_at? hindent) hi (get?_of_at? hblank) hn),
      readField_of_get? hcheck (check_of_leaves (get?_of_at? hwarn) hw)]
    rfl
  · cases leaf <;>
      simp only [Leaf.use?, Leaf.value, ht, hb, hp, hr, hc, hi, hn, hw, Option.map_some]

/-! ## Steps -/

/-- Whether a key leads to a setting. -/
def Leaf.hasKey (leaf : Leaf) (key : Text) : Bool :=
  ((KeyPath.parse? key).bind fun p => p.steps.mapM stepName?) = some leaf.path

/-- The members of a file of settings, if there is such a file. -/
def contents? (tree : FileTree) (path : Text) : Option (List (Text × Setting)) :=
  (tree.readText path).toOption.bind Toml.parse?

namespace Layers

/-- One layer being added. -/
inductive Step
  | file (path : Text)
  | optionalFile (path : Text)
  | override (key : Text) (value : Setting)

/-- Adds a layer. -/
def add (l : Layers) : Step → Configured Layers
  | .file path => .ok (l.addFile path)
  | .optionalFile path => .ok (l.addOptionalFile path)
  | .override key value => l.addOverride key value

/-- The settings that layers make together which were added one after the other. -/
def build (tree : FileTree) (steps : List Step) : Configured Settings :=
  (steps.foldlM add {}).bind (settings tree)

namespace Step

/-- The file that a step adds. -/
def file? : Step → Option SettingsFile
  | file path => some ⟨path, true⟩
  | optionalFile path => some ⟨path, false⟩
  | override .. => none

/-- The override that a step adds. -/
def override? : Step → Option (KeyPath × Setting)
  | override key value => (KeyPath.parse? key).map (·, value)
  | file _ | optionalFile _ => none

/-- What a step overrides a setting with. -/
def overrides? (leaf : Leaf) : Step → Option Setting
  | override key value => if leaf.hasKey key then some value else none
  | file _ | optionalFile _ => none

/-- What the file of a step gives for a setting. -/
def fileGives? (tree : FileTree) (leaf : Leaf) : Step → Option Setting
  | file path | optionalFile path => (contents? tree path).bind (givenByFile? leaf.path)
  | override .. => none

/-- That a file is there and gives all settings only what fits. -/
def FileFits (tree : FileTree) (path : Text) : Prop :=
  ∃ members, contents? tree path = some members ∧
    ∀ leaf : Leaf, fileFits leaf.fit leaf.path members = true

theorem fileFits_iff {tree : FileTree} {path : Text} :
    FileFits tree path ↔ ((contents? tree path).any fun members =>
      Leaf.all.all fun leaf => fileFits leaf.fit leaf.path members) = true := by
  rw [Option.any_eq_true]
  refine exists_congr fun members => and_congr_right fun _ => ?_
  rw [List.all_eq_true]
  exact ⟨fun h leaf _ => h leaf, fun h leaf => h leaf leaf.mem_all⟩

instance (tree : FileTree) (path : Text) : Decidable (FileFits tree path) :=
  decidable_of_iff _ fileFits_iff.symm

/-- That a step adds what fits. Instead of an optional file there may be nothing, also under the
other path where it would be looked for. -/
def Fits (tree : FileTree) (other : Text → Text) : Step → Prop
  | file path => FileFits tree path
  | optionalFile path =>
    FileFits tree path ∨ tree.isFile path = false ∧ tree.isFile (other path) = false
  | override key value => ∃ leaf : Leaf, leaf.hasKey key = true ∧ leaf.fit value = true

end Step

/-- The value that steps give for a setting: that of the last override, else that in the last file
which contains the setting, else the built-in one. -/
def given (tree : FileTree) (steps : List Step) (leaf : Leaf) : Setting :=
  ((steps.reverse.findSome? (Step.overrides? leaf)).or
    (steps.reverse.findSome? (Step.fileGives? tree leaf))).getD leaf.builtIn

variable {tree : FileTree}

theorem parse?_of_hasKey {leaf : Leaf} {key : Text} (h : leaf.hasKey key = true) :
    ∃ p, KeyPath.parse? key = some p ∧ p.steps.mapM stepName? = some leaf.path :=
  Option.bind_eq_some_iff.1 (of_decide_eq_true h)

theorem foldlM_add : ∀ {steps : List Step} (l : Layers), (∀ step ∈ steps, step.Fits tree tomlPath) →
    steps.foldlM add l
      = .ok ⟨l.files ++ steps.filterMap Step.file?, l.overrides ++ steps.filterMap Step.override?⟩
  | [], l, _ => by simp only [List.filterMap_nil, List.append_nil]; rfl
  | step :: steps, l, h => by
    have hstep := h step (.head _)
    have hsteps : ∀ step ∈ steps, step.Fits tree tomlPath := fun s hs => h s (.tail _ hs)
    rw [List.foldlM_cons]
    cases step with
    | file path =>
      simp only [add, addFile]
      exact (foldlM_add _ hsteps).trans (by simp [List.filterMap_cons, Step.file?, Step.override?])
    | optionalFile path =>
      simp only [add, addOptionalFile]
      exact (foldlM_add _ hsteps).trans (by simp [List.filterMap_cons, Step.file?, Step.override?])
    | override key value =>
      obtain ⟨leaf, hkey, -⟩ := hstep
      obtain ⟨p, hp, -⟩ := parse?_of_hasKey hkey
      simp only [add, addOverride, hp]
      exact (foldlM_add _ hsteps).trans
        (by simp [List.filterMap_cons, Step.file?, Step.override?, hp])

/-! ### Files -/

theorem isFile_of_readText {path t : Text} (h : tree.readText path = .ok t) :
    tree.isFile path = true := by
  unfold FileTree.readText at h
  unfold FileTree.isFile
  split at h <;> first | cases h; done | simp only [*]

theorem read_of_contents? {path : Text} {members : List (Text × Setting)} (required : Bool)
    (h : contents? tree path = some members) :
    SettingsFile.read tree ⟨path, required⟩ = .ok members := by
  obtain ⟨t, ht, hparse⟩ := Option.bind_eq_some_iff.1 h
  rcases hread : tree.readText path with e | t' <;> rw [hread] at ht <;> cases ht
  have hfind : tree.findSettings? path = some path :=
    List.find?_cons_of_pos (isFile_of_readText hread)
  unfold SettingsFile.read SettingsFile.text?
  simp only [hfind, Option.bind_some, hread, Except.toOption, hparse]

theorem contents?_of_not_isFile {path : Text} (h : tree.isFile path = false) :
    contents? tree path = none := by
  rcases hread : tree.readText path with e | t
  · rw [contents?, hread]
    rfl
  · rw [isFile_of_readText hread] at h
    cases h

theorem read_of_absent {path : Text} (h : tree.isFile path = false)
    (htoml : tree.isFile (tomlPath path) = false) :
    SettingsFile.read tree ⟨path, false⟩ = .ok [] := by
  have hfind : tree.findSettings? path = none := by
    simp [FileTree.findSettings?, h, htoml]
  unfold SettingsFile.read SettingsFile.text?
  simp only [hfind]
  rfl

/-- What the file of a fitting step is read as. -/
theorem read_of_fits {step : Step} {f : SettingsFile} (h : step.Fits tree tomlPath)
    (hf : step.file? = some f) : ∃ members, f.read tree = .ok members ∧
      ∀ leaf : Leaf, fileFits leaf.fit leaf.path members = true ∧
        step.fileGives? tree leaf = givenByFile? leaf.path members := by
  cases step with
  | file path =>
    cases hf
    obtain ⟨members, hmembers, hfits⟩ := h
    refine ⟨members, read_of_contents? true hmembers, fun leaf => ⟨hfits leaf, ?_⟩⟩
    rw [Step.fileGives?, hmembers, Option.bind_some]
  | optionalFile path =>
    cases hf
    obtain ⟨members, hmembers, hfits⟩ | ⟨habsent, htoml⟩ := h
    · refine ⟨members, read_of_contents? false hmembers, fun leaf => ⟨hfits leaf, ?_⟩⟩
      rw [Step.fileGives?, hmembers, Option.bind_some]
    · refine ⟨[], read_of_absent habsent htoml, fun leaf => ⟨rfl, ?_⟩⟩
      rw [Step.fileGives?, contents?_of_not_isFile habsent]
      rfl
  | override key value => cases hf

theorem fileGives?_of_file?_none {step : Step} (h : step.file? = none) (leaf : Leaf) :
    step.fileGives? tree leaf = none := by
  cases step with
  | override => rfl
  | file | optionalFile => cases h

theorem overlayFiles_of_fits : ∀ {steps : List Step} (s : Setting),
    (∀ step ∈ steps, step.Fits tree tomlPath) →
      ∃ s', overlayFiles tree s (steps.filterMap Step.file?) = .ok s' ∧
        ∀ leaf : Leaf, at? leaf.path s'
          = (steps.reverse.findSome? (Step.fileGives? tree leaf)).or (at? leaf.path s)
  | [], s, _ => ⟨s, rfl, fun _ => rfl⟩
  | step :: steps, s, h => by
    have hsteps : ∀ step ∈ steps, step.Fits tree tomlPath := fun s hs => h s (.tail _ hs)
    rcases hf : step.file? with _ | f
    · obtain ⟨s', hs', hat⟩ := overlayFiles_of_fits s hsteps
      refine ⟨s', by rwa [List.filterMap_cons_none hf], fun leaf => ?_⟩
      rw [hat, findSome?_reverse_cons, fileGives?_of_file?_none hf, Option.or_none]
    · -- the later files are laid over this one, so what they give comes first
      obtain ⟨members, hread, hmembers⟩ := read_of_fits (h step (.head _)) hf
      obtain ⟨s', hs', hat⟩ := overlayFiles_of_fits (s.overlayFile members) hsteps
      refine ⟨s', ?_, fun leaf => ?_⟩
      · rw [List.filterMap_cons_some hf, overlayFiles, hread]
        exact hs'
      · rw [hat, at?_overlayFile leaf.fit_table leaf.path_ne_nil _ _ (hmembers leaf).1,
          findSome?_reverse_cons, (hmembers leaf).2, Option.or_assoc]

/-! ### Overrides -/

theorem leaf_eq_of_begins (a b : Leaf) (h : a.path <+: b.path) : a = b := by
  revert h
  cases a <;> cases b <;> first | exact fun _ => rfl | decide

/-- No key leads to two settings. -/
theorem leaf_eq_of_hasKey {leaf leaf' : Leaf} {key : Text} (h : leaf.hasKey key = true)
    (h' : leaf'.hasKey key = true) : leaf = leaf' := by
  obtain ⟨p, hp, hnames⟩ := parse?_of_hasKey h
  obtain ⟨p', hp', hnames'⟩ := parse?_of_hasKey h'
  cases hp.symm.trans hp'
  have hpath : leaf.path = leaf'.path := Option.some.inj (hnames.symm.trans hnames')
  exact leaf_eq_of_begins _ _ (hpath ▸ List.prefix_rfl)

theorem at?_put_override {leaf leaf' : Leaf} {key : Text} {p : KeyPath} {value : Setting}
    (hkey : leaf'.hasKey key = true) (hp : KeyPath.parse? key = some p)
    (hvalue : leaf'.fit value = true) (s : Setting) :
    at? leaf.path (s.put p value)
      = ((Step.override key value).overrides? leaf).or (at? leaf.path s) := by
  obtain ⟨p', hp', hnames⟩ := parse?_of_hasKey hkey
  cases hp.symm.trans hp'
  rw [Step.overrides?]
  by_cases heq : leaf = leaf'
  · subst heq
    rw [at?_put leaf.fit_table leaf.path_ne_nil s p value (fitsAt_self hnames hvalue),
      givenAt?_self value hnames, if_pos hkey]
  · -- the paths of two settings part, so the override of one does not touch the other
    have hapart := apart_of_not_begins leaf.fit value hnames
      (mt (leaf_eq_of_begins _ _) (Ne.symm heq)) (mt (leaf_eq_of_begins _ _) heq)
    have hother : ¬leaf.hasKey key = true := fun h => heq (leaf_eq_of_hasKey h hkey)
    rw [at?_put leaf.fit_table leaf.path_ne_nil s p value hapart.2, hapart.1, if_neg hother]

theorem overrides?_of_override?_none {step : Step} (h : step.Fits tree tomlPath)
    (hnone : step.override? = none) (leaf : Leaf) : step.overrides? leaf = none := by
  cases step with
  | file | optionalFile => rfl
  | override key value =>
    obtain ⟨_, hkey, -⟩ := h
    obtain ⟨p, hp, -⟩ := parse?_of_hasKey hkey
    rw [Step.override?, hp] at hnone
    cases hnone

theorem at?_foldl_put : ∀ {steps : List Step} (s : Setting),
    (∀ step ∈ steps, step.Fits tree tomlPath) → ∀ leaf : Leaf,
      at? leaf.path ((steps.filterMap Step.override?).foldl (fun s o => s.put o.1 o.2) s)
        = (steps.reverse.findSome? (Step.overrides? leaf)).or (at? leaf.path s)
  | [], s, _, _ => rfl
  | step :: steps, s, h, leaf => by
    have hsteps : ∀ step ∈ steps, step.Fits tree tomlPath := fun s hs => h s (.tail _ hs)
    have hstep := h step (.head _)
    rw [findSome?_reverse_cons]
    rcases ho : step.override? with _ | o
    · rw [List.filterMap_cons_none ho, at?_foldl_put s hsteps,
        overrides?_of_override?_none hstep ho, Option.or_none]
    · rw [List.filterMap_cons_some ho, List.foldl_cons, at?_foldl_put _ hsteps]
      cases step with
      | file | optionalFile => cases ho
      | override key value =>
        obtain ⟨leaf', hkey, hvalue⟩ := hstep
        obtain ⟨p, hp, rfl⟩ := Option.map_eq_some_iff.1 ho
        rw [at?_put_override hkey hp hvalue, Option.or_assoc]

/-! ### All layers -/

theorem fit_given {steps : List Step} (h : ∀ step ∈ steps, step.Fits tree tomlPath)
    (leaf : Leaf) : leaf.fit (given tree steps leaf) = true := by
  rw [given]
  rcases hoverride : steps.reverse.findSome? (Step.overrides? leaf) with _ | v
  · rw [Option.none_or]
    rcases hfile : steps.reverse.findSome? (Step.fileGives? tree leaf) with _ | v
    · exact leaf.fit_builtIn
    · obtain ⟨step, hstep, hv⟩ := List.exists_of_findSome?_eq_some hfile
      have hfits := h step (List.mem_reverse.1 hstep)
      rcases hf : step.file? with _ | f
      · rw [fileGives?_of_file?_none hf] at hv
        cases hv
      · obtain ⟨members, -, hmembers⟩ := read_of_fits hfits hf
        exact fit_of_givenByFile? (hmembers leaf).1 ((hmembers leaf).2.symm.trans hv)
  · obtain ⟨step, hstep, hv⟩ := List.exists_of_findSome?_eq_some hoverride
    have hfits := h step (List.mem_reverse.1 hstep)
    cases step with
    | file | optionalFile => cases hv
    | override key value =>
      obtain ⟨leaf', hkey', hvalue⟩ := hfits
      rw [Step.overrides?] at hv
      split_ifs at hv with hkey
      cases hv
      rwa [leaf_eq_of_hasKey hkey hkey']

theorem exists_build {steps : List Step} (h : ∀ step ∈ steps, step.Fits tree tomlPath) :
    ∃ s, build tree steps = .ok s ∧
      ∀ leaf : Leaf, leaf.use? (given tree steps leaf) = some (leaf.value s) := by
  obtain ⟨files, hfiles, hat⟩ := overlayFiles_of_fits ({} : Settings).setting h
  have hgiven : ∀ leaf : Leaf, at? leaf.path ((steps.filterMap Step.override?).foldl
      (fun s o => s.put o.1 o.2) files) = some (given tree steps leaf) := fun leaf => by
    rw [at?_foldl_put files h leaf, hat leaf, leaf.at?_builtIn, ← Option.or_assoc, given]
    rcases (steps.reverse.findSome? (Step.overrides? leaf)).or
      (steps.reverse.findSome? (Step.fileGives? tree leaf)) <;> rfl
  obtain ⟨s, hs, hvalues⟩ := ofSetting_of_leaves hgiven (fit_given h)
  refine ⟨s, ?_, hvalues⟩
  rw [build, foldlM_add {} h]
  show settings tree _ = _
  rw [settings, setting]
  simp only [List.nil_append, hfiles]
  exact hs

theorem foldlM_add_swap {file override : Step} (hfile : file.file?.isSome = true)
    (hoverride : override.file? = none) (after : List Step) (l : Layers) :
    (override :: file :: after).foldlM add l = (file :: override :: after).foldlM add l := by
  simp only [List.foldlM_cons]
  cases override with
  | file | optionalFile => cases hoverride
  | override key value =>
    cases file with
    | override => cases hfile
    | file path | optionalFile path =>
      simp only [add, addOverride]
      rcases KeyPath.parse? key <;> rfl

theorem build_swap {file override : Step} (hfile : file.file?.isSome = true)
    (hoverride : override.file? = none) (before after : List Step) :
    build tree (before ++ override :: file :: after)
      = build tree (before ++ file :: override :: after) := by
  rw [build, build, List.foldlM_append, List.foldlM_append]
  simp only [foldlM_add_swap hfile hoverride after]

theorem given_concat {step : Step} {leaf : Leaf} (hoverride : step.overrides? leaf = none)
    (hfile : step.fileGives? tree leaf = none) (steps : List Step) :
    given tree (steps ++ [step]) leaf = given tree steps leaf := by
  simp only [given, List.reverse_append, List.reverse_singleton, List.singleton_append,
    List.findSome?_cons, hoverride, hfile]

theorem overrides?_of_isSome {step : Step} (h : step.file?.isSome = true) (leaf : Leaf) :
    step.overrides? leaf = none := by
  cases step with
  | file | optionalFile => rfl
  | override => cases h

/-- Layers that fit make settings, each with what is used of the value that is given for it, which
is that value itself if it is of the type of the setting. It does not matter where among the files
an override is added, and a file that does not contain a setting leaves it as it was. -/
theorem build_of_steps (tree : FileTree) :
    (∀ steps : List Step, (∀ step ∈ steps, step.Fits tree tomlPath) →
      ∃ s, build tree steps = .ok s ∧
        ∀ leaf : Leaf, leaf.use? (given tree steps leaf) = some (leaf.value s) ∧
          (leaf.OfType (given tree steps leaf) → leaf.value s = given tree steps leaf)) ∧
    (∀ (file override : Step) (before after : List Step), file.file?.isSome = true →
      override.file? = none → build tree (before ++ override :: file :: after)
        = build tree (before ++ file :: override :: after)) ∧
    (∀ (file : Step) (steps : List Step) (leaf : Leaf) (s s' : Settings), file.file?.isSome = true →
      (∀ step ∈ steps ++ [file], step.Fits tree tomlPath) → file.fileGives? tree leaf = none →
      build tree steps = .ok s → build tree (steps ++ [file]) = .ok s' →
        leaf.value s' = leaf.value s) := by
  refine ⟨fun steps h => ?_, fun file override before after hfile hoverride =>
    build_swap hfile hoverride before after, fun file steps leaf s s' hfile h hgives hs hs' => ?_⟩
  · obtain ⟨s, hs, hvalue⟩ := exists_build h
    refine ⟨s, hs, fun leaf => ⟨hvalue leaf, fun htype => ?_⟩⟩
    have hused := hvalue leaf
    rw [Leaf.use?_of_ofType htype] at hused
    exact (Option.some.inj hused).symm
  · obtain ⟨t, ht, hvalue⟩ := exists_build fun step hstep => h step (List.mem_append_left _ hstep)
    obtain ⟨t', ht', hvalue'⟩ := exists_build h
    cases hs.symm.trans ht
    cases hs'.symm.trans ht'
    have hsame := hvalue' leaf
    rw [given_concat (overrides?_of_isSome hfile leaf) hgives, hvalue leaf] at hsame
    exact (Option.some.inj hsame).symm

/-- A directory with one file of settings. -/
def limitsTree : FileTree :=
  .ofEntries [] [("osf.toml".toList, .file (.text "[preview.sheet]\nmax_rows = 7\n".toList))]

/-- An override before a file that is missing. -/
def overrideSteps : List Step :=
  [.override "preview.theme".toList (.text "retro".toList), .optionalFile "none".toList]

theorem build_of_steps_limits :
    (∃ s s', build limitsTree overrideSteps = .ok s ∧
      build limitsTree (overrideSteps ++ [.file "osf.toml".toList]) = .ok s' ∧
      (∀ leaf : Leaf, leaf.use? (given limitsTree (overrideSteps ++ [.file "osf.toml".toList]) leaf)
        = some (leaf.value s')) ∧
      Leaf.maxColumns.value s' = Leaf.maxColumns.value s) ∧
    build limitsTree [.override "preview.theme".toList (.text "retro".toList),
        .file "osf.toml".toList]
      = build limitsTree [.file "osf.toml".toList,
          .override "preview.theme".toList (.text "retro".toList)] := by
  obtain ⟨hbuild, hswap, hleaves⟩ := build_of_steps limitsTree
  obtain ⟨hkey, hfile, hgives⟩ : Leaf.theme.hasKey "preview.theme".toList = true ∧
      Step.FileFits limitsTree "osf.toml".toList ∧
      Step.fileGives? limitsTree .maxColumns (.file "osf.toml".toList) = none := by
    decide +kernel
  have hfits : ∀ step ∈ overrideSteps ++ [.file "osf.toml".toList],
      step.Fits limitsTree tomlPath := fun step hstep => by
    simp only [overrideSteps, List.cons_append, List.nil_append, List.mem_cons, List.not_mem_nil,
      or_false] at hstep
    obtain rfl | rfl | rfl := hstep
    · exact ⟨.theme, hkey, rfl⟩
    · exact .inr (by decide)
    · exact hfile
  have hbefore : ∀ step ∈ overrideSteps, step.Fits limitsTree tomlPath :=
    fun step hstep => hfits step (List.mem_append_left _ hstep)
  obtain ⟨s, hs, -⟩ := hbuild overrideSteps hbefore
  obtain ⟨s', hs', hvalues⟩ := hbuild _ hfits
  exact ⟨⟨s, s', hs, hs', fun leaf => (hvalues leaf).1,
      hleaves _ _ _ s s' rfl hfits hgives hs hs'⟩,
    hswap _ _ [] [] rfl rfl⟩

/-- A path with `.toml` in place of its extension. -/
def otherExtension (path : Text) : Text :=
  let backwards := Path.trimFromEnd path.reverse
  let component := backwards.takeWhile (· ≠ '/')
  let extension := component.takeWhile (· ≠ '.')
  if component = ['.', '.'] || (component.drop (extension.length + 1)).isEmpty then tomlPath path
  else (backwards.drop (extension.length + 1)).reverse ++ ".toml".toList

/-- A directory with a file whose name has a second extension. -/
def secondExtensionTree : FileTree :=
  .ofEntries [] [("a.cfg.toml".toList, .file (.text "[preview]\ntheme = \"retro\"\n".toList))]

/-- It does not do that no file has the extension `.toml` in place of that of an optional path,
since `.toml` is put behind the extension. -/
theorem not_build_of_otherExtension :
    (∀ step ∈ [Step.optionalFile "a.cfg".toList], step.Fits secondExtensionTree otherExtension) ∧
    ¬∃ s, build secondExtensionTree [.optionalFile "a.cfg".toList] = .ok s ∧
      ∀ leaf : Leaf, leaf.use? (given secondExtensionTree [.optionalFile "a.cfg".toList] leaf)
        = some (leaf.value s) := by
  refine ⟨fun step hstep => ?_, ?_⟩
  · cases List.mem_singleton.1 hstep
    exact .inr (by decide)
  · rintro ⟨s, hs, hvalues⟩
    have htheme : (build secondExtensionTree [.optionalFile "a.cfg".toList]).toOption.map
        (fun s => s.preview.theme) = some "retro".toList := by
      decide +kernel
    have hgiven : given secondExtensionTree [.optionalFile "a.cfg".toList] .theme
        = .text "default".toList := by
      rw [given]
      simp only [List.reverse_singleton, List.findSome?_singleton, Step.overrides?, Step.fileGives?]
      rw [contents?_of_not_isFile (by decide)]
      rfl
    have hdefault : Leaf.theme.use? (.text "default".toList) = some (Leaf.theme.value s) :=
      hgiven ▸ hvalues .theme
    rw [hs] at htheme
    have hretro : s.preview.theme = "retro".toList := Option.some.inj htheme
    have hsame : "default".toList = s.preview.theme := Setting.text.inj (Option.some.inj hdefault)
    exact absurd (hsame.trans hretro) (by decide)

end Layers

end BlockDocument
