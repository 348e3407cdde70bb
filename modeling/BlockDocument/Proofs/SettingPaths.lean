import Mathlib.Tactic.SplitIfs
import BlockDocument.Config.Layers

/-!
# Settings under a path

What stands under a path of names once something was laid over a tree is the last that was given
for the path, or else what stood there before (`at?_put`, `at?_overlayFile`). That takes that
whatever is given on the way is a table, and that what is given at the end of the path is none.
-/

namespace BlockDocument

/-- What is found last. -/
theorem findSome?_reverse_cons {α β : Type} (f : α → Option β) (a : α) (as : List α) :
    (a :: as).reverse.findSome? f = (as.reverse.findSome? f).or (f a) := by
  rw [List.reverse_cons, List.findSome?_append, List.findSome?_singleton]

/-- The steps of a key path. -/
def KeyPath.steps (p : KeyPath) : List PathStep := .name p.first :: p.rest

namespace Setting

/-- What stands under a path of names. -/
def at? : (path : List Text) → Setting → Option Setting
  | [], s => some s
  | name :: path, s => (s.get? name).bind (at? path)

/-- What a tree that has not been laid over another one gives for a path of names in lower case.
Of what is given several times the last counts. -/
def given? : (path : List Text) → Setting → Option Setting
  | [], s => some s
  | name :: path, s =>
    s.members.reverse.findSome? fun m => if Text.toLower m.1 = name then given? path m.2 else none

/-- What a setting at the end of some steps gives for a path. -/
def givenAt? : (path : List Text) → List PathStep → Setting → Option Setting
  | path, [], s => given? path s
  | name :: path, .name n :: steps, s =>
    if Text.toLower n = name then givenAt? path steps s else none
  | [], _ :: _, _ | _ :: _, .item _ :: _, _ => none

/-- What the outermost table of a file gives for a path. -/
def givenByFile? (path : List Text) (members : List (Text × Setting)) : Option Setting :=
  members.reverse.findSome? fun m => givenAt? path (outerPath m.1).steps m.2

/-- Whether a tree gives tables on the way along a path, and what is fit at its end. -/
def fits (fit : Setting → Bool) : (path : List Text) → Setting → Bool
  | [], s => fit s
  | name :: path, table ms => ms.all fun m => Text.toLower m.1 ≠ name || fits fit path m.2
  | _ :: _, _ => false

/-- Whether a setting at the end of some steps gives what is fit for a path. -/
def fitsAt (fit : Setting → Bool) : (path : List Text) → List PathStep → Setting → Bool
  | path, [], s => fits fit path s
  | name :: path, .name n :: steps, s => Text.toLower n ≠ name || fitsAt fit path steps s
  | [], _ :: _, _ | _ :: _, .item _ :: _, _ => false

/-- Whether the outermost table of a file gives what is fit for a path. -/
def fileFits (fit : Setting → Bool) (path : List Text) (members : List (Text × Setting)) : Bool :=
  members.all fun m => fitsAt fit path (outerPath m.1).steps m.2

variable {fit : Setting → Bool}

theorem fits_cons {name : Text} {path : List Text} {s : Setting} :
    fits fit (name :: path) s = true ↔
      ∃ ms, s = table ms ∧ ∀ m ∈ ms, Text.toLower m.1 = name → fits fit path m.2 = true := by
  cases s with
  | table ms =>
    rw [fits, List.all_eq_true]
    refine ⟨fun h => ⟨ms, rfl, fun m hm hname => ?_⟩, fun ⟨_, heq, h⟩ m hm => ?_⟩
    · simpa [hname] using h m hm
    · cases heq
      by_cases hname : Text.toLower m.1 = name
      · simpa [hname] using h m hm hname
      · simp [hname]
  | nil | bool | integer | real | text | array =>
    exact ⟨fun h => by simp [fits] at h, fun ⟨_, heq, _⟩ => by cases heq⟩

theorem fitsAt_cons {name n : Text} {path : List Text} {steps : List PathStep} {s : Setting} :
    fitsAt fit (name :: path) (.name n :: steps) s = true ↔
      (Text.toLower n = name → fitsAt fit path steps s = true) := by
  rw [fitsAt]
  by_cases hname : Text.toLower n = name <;> simp [hname]

theorem at?_modify_self (s : Setting) (name : Text) (change : Option Setting → Setting)
    (path : List Text) :
    at? (name :: path) (s.modify name change) = at? path (change (s.get? name)) := by
  rw [at?, get?_modify_self, Option.bind_some]

theorem at?_modify_of_ne (s : Setting) {name other : Text} (change : Option Setting → Setting)
    (hne : other ≠ name) (path : List Text) :
    at? (other :: path) (s.modify name change) = at? (other :: path) s := by
  rw [at?, get?_modify_of_ne s change hne, at?]

/-- Where nothing stands, nothing stands further down. -/
theorem at?_getD (s : Setting) (name : Text) {empty : Setting} (hempty : empty.members = [])
    {path : List Text} (hpath : path ≠ []) :
    at? path ((s.get? name).getD empty) = at? (name :: path) s := by
  rw [at?]
  rcases s.get? name with _ | inner
  · obtain ⟨n, path, rfl⟩ := List.exists_cons_of_ne_nil hpath
    rw [Option.getD_none, at?, get?, hempty]
    rfl
  · rfl

theorem given?_cons (name : Text) (path : List Text) (m : Text × Setting)
    (ms : List (Text × Setting)) :
    given? (name :: path) (table (m :: ms)) = (given? (name :: path) (table ms)).or
      (if Text.toLower m.1 = name then given? path m.2 else none) := by
  rw [given?, given?, members, members, findSome?_reverse_cons]

theorem overlay_of_ne_table {v : Setting} (hv : ∀ ms, v ≠ table ms) (s : Setting) (name : Text) :
    s.overlay name v = s.modify (Text.toLower name) fun _ => v := by
  cases v <;> first | rfl | exact absurd rfl (hv _)

/-- Laying one member over a tree, if members can be laid over the tables below. -/
theorem at?_overlay (hfit : ∀ ms, fit (table ms) = false) {path : List Text}
    (hbelow : path ≠ [] → ∀ (s : Setting) (ms : List (Text × Setting)),
      fits fit path (table ms) = true → at? path (s.overlayAll ms) = (given? path (table ms)).or (at? path s))
    (s : Setting) (name n : Text) (v : Setting)
    (h : Text.toLower n = name → fits fit path v = true) :
    at? (name :: path) (s.overlay n v)
      = (if Text.toLower n = name then given? path v else none).or (at? (name :: path) s) := by
  by_cases hname : Text.toLower n = name
  · rw [if_pos hname]
    subst hname
    cases path with
    | nil =>
      -- nothing at the end of the path is a table, so it replaces what stood there
      have hv : ∀ ms, v ≠ table ms := by
        rintro ms rfl
        have hms := h rfl
        rw [fits, hfit] at hms
        cases hms
      rw [overlay_of_ne_table hv, at?_modify_self]
      rfl
    | cons n' path =>
      obtain ⟨ms, rfl, hms⟩ := fits_cons.1 (h rfl)
      rw [overlay, at?_modify_self,
        hbelow (List.cons_ne_nil _ _) _ _ (fits_cons.2 ⟨ms, rfl, hms⟩),
        at?_getD s _ rfl (List.cons_ne_nil _ _)]
  · rw [if_neg hname, Option.none_or]
    by_cases hv : ∃ ms, v = table ms
    · obtain ⟨ms, rfl⟩ := hv
      rw [overlay, at?_modify_of_ne _ _ (Ne.symm hname)]
    · rw [overlay_of_ne_table (not_exists.1 hv), at?_modify_of_ne _ _ (Ne.symm hname)]

/-- Laying members over a tree. The induction is on the path, which leads into smaller tables. -/
theorem at?_overlayAll (hfit : ∀ ms, fit (table ms) = false) : ∀ {path : List Text}, path ≠ [] →
    ∀ (s : Setting) (ms : List (Text × Setting)), fits fit path (table ms) = true →
      at? path (s.overlayAll ms) = (given? path (table ms)).or (at? path s)
  | [], hpath, _, _, _ => absurd rfl hpath
  | name :: path, _, s, [], _ => rfl
  | name :: path, hpath, s, (n, v) :: ms, h => by
    obtain ⟨_, heq, hms⟩ := fits_cons.1 h
    cases heq
    have hrest := fits_cons.2 ⟨ms, rfl, fun m hm => hms m (.tail _ hm)⟩
    have hv := at?_overlay hfit (fun hpath => at?_overlayAll hfit hpath) s name n v
      (hms _ (.head _))
    rw [overlayAll, at?_overlayAll hfit hpath _ ms hrest, hv, given?_cons, Option.or_assoc]

/-- Putting a setting at the end of some steps. -/
theorem at?_setSteps (hfit : ∀ ms, fit (table ms) = false) (v : Setting) :
    ∀ {steps : List PathStep} {path : List Text}, steps ≠ [] → path ≠ [] → ∀ s : Setting,
      fitsAt fit path steps v = true →
        at? path (setSteps v steps s) = (givenAt? path steps v).or (at? path s)
  | [], _, hsteps, _, _, _ => absurd rfl hsteps
  | _, [], _, hpath, _, _ => absurd rfl hpath
  | .item _ :: _, _ :: _, _, _, _, h => by
    rw [fitsAt] at h
    cases h
  | [.name n], name :: path, _, _, s, h => by
    rw [givenAt?, givenAt?]
    refine at?_overlay hfit (fun hpath => at?_overlayAll hfit hpath) s name n v fun hname => ?_
    have h := fitsAt_cons.1 h hname
    rwa [fitsAt] at h
  | .name n :: step :: steps, name :: path, _, _, s, h => by
    rw [setSteps, givenAt?]
    · by_cases hname : Text.toLower n = name
      · have hrest := fitsAt_cons.1 h hname
        have hpath : path ≠ [] := by
          rintro rfl
          rw [fitsAt] at hrest
          cases hrest
        rw [if_pos hname]
        subst hname
        rw [at?_modify_self, at?_setSteps hfit v (List.cons_ne_nil _ _) hpath _ hrest,
          at?_getD s _ rfl hpath]
      · rw [if_neg hname, Option.none_or, at?_modify_of_ne _ _ (Ne.symm hname)]
    · exact List.cons_ne_nil _ _

theorem at?_put (hfit : ∀ ms, fit (table ms) = false) {path : List Text} (hpath : path ≠ [])
    (s : Setting) (p : KeyPath) (v : Setting) (h : fitsAt fit path p.steps v = true) :
    at? path (s.put p v) = (givenAt? path p.steps v).or (at? path s) :=
  at?_setSteps hfit v (List.cons_ne_nil _ _) hpath s h

theorem at?_overlayFile (hfit : ∀ ms, fit (table ms) = false) {path : List Text}
    (hpath : path ≠ []) : ∀ (members : List (Text × Setting)) (s : Setting), fileFits fit path members = true →
      at? path (s.overlayFile members) = (givenByFile? path members).or (at? path s)
  | [], _, _ => rfl
  | m :: ms, s, h => by
    rw [fileFits, List.all_cons, Bool.and_eq_true] at h
    have ih := at?_overlayFile hfit hpath ms (s.put (outerPath m.1) m.2) h.2
    rw [overlayFile, List.foldl_cons, ← overlayFile, ih,
      at?_put hfit hpath s _ _ h.1, givenByFile?, givenByFile?, findSome?_reverse_cons,
      Option.or_assoc]

/-! ## What is given is fit -/

theorem fit_of_given? : ∀ {path : List Text} {s v : Setting}, fits fit path s = true →
    given? path s = some v → fit v = true
  | [], s, v, h, hv => by
    cases hv
    exact h
  | name :: path, s, v, h, hv => by
    obtain ⟨ms, rfl, hms⟩ := fits_cons.1 h
    obtain ⟨m, hm, hv⟩ := List.exists_of_findSome?_eq_some hv
    split_ifs at hv with hname
    exact fit_of_given? (hms m (List.mem_reverse.1 hm) hname) hv

theorem fit_of_givenAt? : ∀ {steps : List PathStep} {path : List Text} {s v : Setting},
    fitsAt fit path steps s = true → givenAt? path steps s = some v → fit v = true
  | [], path, s, v, h, hv => by
    rw [fitsAt] at h
    rw [givenAt?] at hv
    exact fit_of_given? h hv
  | .name n :: steps, name :: path, s, v, h, hv => by
    rw [givenAt?] at hv
    split_ifs at hv with hname
    exact fit_of_givenAt? (fitsAt_cons.1 h hname) hv
  | .name _ :: _, [], _, _, h, _ => by
    rw [fitsAt] at h
    cases h
  | .item _ :: _, [], _, _, h, _ => by
    rw [fitsAt] at h
    cases h
  | .item _ :: _, _ :: _, _, _, h, _ => by
    rw [fitsAt] at h
    cases h

theorem fit_of_givenByFile? {path : List Text} {members : List (Text × Setting)} {v : Setting}
    (h : fileFits fit path members = true) (hv : givenByFile? path members = some v) :
    fit v = true := by
  obtain ⟨m, hm, hv⟩ := List.exists_of_findSome?_eq_some hv
  exact fit_of_givenAt? (List.all_eq_true.1 h m (List.mem_reverse.1 hm)) hv

/-! ## Steps by name -/

/-- The name of a step in lower case. -/
def stepName? : PathStep → Option Text
  | .name n => some (Text.toLower n)
  | .item _ => none

theorem givenAt?_self : ∀ {steps : List PathStep} {path : List Text} (v : Setting),
    steps.mapM stepName? = some path → givenAt? path steps v = some v
  | [], path, v, h => by
    cases h
    rfl
  | step :: steps, path, v, h => by
    rw [List.mapM_cons] at h
    obtain ⟨name, hname, h⟩ := Option.bind_eq_some_iff.1 h
    obtain ⟨names, hnames, h⟩ := Option.bind_eq_some_iff.1 h
    cases h
    cases step with
    | name n =>
      rw [givenAt?, if_pos (Option.some.inj hname), givenAt?_self v hnames]
    | item index => cases hname

theorem fitsAt_self : ∀ {steps : List PathStep} {path : List Text} {v : Setting},
    steps.mapM stepName? = some path → fit v = true → fitsAt fit path steps v = true
  | [], path, v, h, hv => by
    cases h
    rw [fitsAt]
    exact hv
  | step :: steps, path, v, h, hv => by
    rw [List.mapM_cons] at h
    obtain ⟨name, hname, h⟩ := Option.bind_eq_some_iff.1 h
    obtain ⟨names, hnames, h⟩ := Option.bind_eq_some_iff.1 h
    cases h
    cases step with
    | name n =>
      exact fitsAt_cons.2 fun _ => fitsAt_self hnames hv
    | item index => cases hname

/-- A path that parts from the steps is not touched. -/
theorem apart_of_not_begins (fit : Setting → Bool) :
    ∀ {steps : List PathStep} {path names : List Text} (v : Setting),
    steps.mapM stepName? = some names → ¬names <+: path → ¬path <+: names →
      givenAt? path steps v = none ∧ fitsAt fit path steps v = true
  | [], path, names, v, h, hn, hp => by
    cases h
    exact absurd List.nil_prefix hn
  | step :: steps, [], names, v, h, hn, hp => absurd List.nil_prefix hp
  | step :: steps, m :: path, names, v, h, hn, hp => by
    rw [List.mapM_cons] at h
    obtain ⟨name, hname, h⟩ := Option.bind_eq_some_iff.1 h
    obtain ⟨names, hnames, h⟩ := Option.bind_eq_some_iff.1 h
    cases h
    cases step with
    | item index => cases hname
    | name n =>
      cases hname
      rw [givenAt?, fitsAt_cons]
      by_cases hm : Text.toLower n = m
      · subst hm
        rw [List.prefix_cons_inj] at hn hp
        have ih := apart_of_not_begins fit v hnames hn hp
        exact ⟨by rw [if_pos rfl, ih.1], fun _ => ih.2⟩
      · exact ⟨if_neg hm, fun h => absurd h hm⟩

end Setting

end BlockDocument
