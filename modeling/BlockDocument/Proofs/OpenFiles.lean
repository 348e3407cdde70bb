import Mathlib.Data.List.Nodup
import BlockDocument.Proofs.Forest

/-!
# The record of files that are open

Includes can be resolved by calls that share a record of the files that are open, a stack of paths
and a number of levels, and change it as they open and close files. `State.step` is what such calls
do one after the other. Calls that wait for the ones they have made are `callers`, and the files
may be others at each step. The stack and the number change in one step, as nothing is done in
between that looks at them.

Whatever happens, the record tells which calls wait (`Records`): so a call that ends leaves the
record as it was. In a tree of files that stays as it is, the calls come to the same result as
`parseSource` and `parseFile`, which hand the open files on instead of keeping a record.
-/

namespace BlockDocument

/-- What there is to know of files at some time: the canonical path of a path, and the text that is
read from it. -/
structure Disk where
  canonical : Text → Except FileError Text
  readText : Text → Except FileError Text

/-- What there is to know of the files of a tree. -/
def FileTree.disk (tree : FileTree) : Disk := ⟨tree.canonical, tree.readText⟩

/-- The record of the files that are open: their canonical paths, in the order in which they were
opened, and how many levels of includes that is. -/
structure OpenFiles where
  stack : List Text := []
  depth : Nat := 0
  deriving DecidableEq, Repr

namespace OpenFiles

/-- The record when a further file is open. -/
def push (files : OpenFiles) (file : Text) : OpenFiles := ⟨files.stack ++ [file], files.depth + 1⟩

/-- The record when the file that was opened last is closed. -/
def pop (files : OpenFiles) : OpenFiles := ⟨files.stack.dropLast, files.depth - 1⟩

@[simp]
theorem pop_push (files : OpenFiles) (file : Text) : (files.push file).pop = files := by
  rw [push, pop, List.dropLast_concat]
  rfl

/-- The file that a path leads to with its document, if it can be included. -/
def enter (files : OpenFiles) (disk : Disk) (path : Text) : Except Failure (Text × Document) :=
  if maxIncludeDepth ≤ files.depth then .error (.includeTooDeep path)
  else
    match disk.canonical path with
    | .error e => .error (.missingInclude path e)
    | .ok file =>
      if files.stack.contains file then .error (.includeCycle path)
      else
        match disk.readText file with
        | .error e => .error (.missingInclude path e)
        | .ok source =>
          ((readSource source).mapError (.malformedInclude path)).map fun document =>
            (file, document)

theorem enter_eq_ok {files : OpenFiles} {disk : Disk} {path file : Text} {document : Document}
    (h : files.enter disk path = .ok (file, document)) :
    files.depth < maxIncludeDepth ∧ disk.canonical path = .ok file ∧ file ∉ files.stack := by
  unfold enter at h
  split at h
  · cases h
  rename_i hdepth
  split at h
  · cases h
  rename_i found hcanonical
  split at h
  · cases h
  rename_i hopen
  split at h
  · cases h
  rename_i source _
  rcases hread : readSource source with e | d <;> rw [hread] at h
  · cases h
  · cases h
    exact ⟨Nat.not_le.1 hdepth, hcanonical, by simpa using hopen⟩

end OpenFiles

namespace Resolver

/-- A call that waits for one that it has made. -/
inductive Caller
  /-- Expanding blocks, for what a block in front of the pending ones stands for. -/
  | expand (directory : Text) (expanded pending : List Block)
  /-- Loading a path, for the blocks of the file that it has opened. -/
  | load (path file : Text)

/-- What is being done. -/
inductive Task
  | expand (directory : Text) (expanded pending : List Block)
  | load (path : Text)
  | done (result : Except Failure (List Block))

/-- The record, the calls that wait, the last of them first, and what is being done. -/
structure State where
  files : OpenFiles
  callers : List Caller
  task : Task

/-- What is done next, the files being those of a disk. -/
def State.step (disk : Disk) : State → Option State
  | ⟨files, callers, .expand _ expanded []⟩ => some ⟨files, callers, .done (.ok expanded)⟩
  | ⟨files, callers, .expand directory expanded (block :: pending)⟩ =>
    match block.includeTarget? with
    | none => some ⟨files, callers, .expand directory (expanded ++ [block]) pending⟩
    | some target =>
      some ⟨files, .expand directory expanded pending :: callers,
        .load (Path.join directory target)⟩
  | ⟨files, callers, .load path⟩ =>
    match files.enter disk path with
    | .error failure => some ⟨files, callers, .done (.error failure)⟩
    | .ok (file, document) =>
      some ⟨files.push file, .load path file :: callers,
        .expand (Path.parent file) [] document.blocks⟩
  | ⟨files, .load _ _ :: callers, .done result⟩ => some ⟨files.pop, callers, .done result⟩
  | ⟨files, .expand directory expanded pending :: callers, .done (.ok included)⟩ =>
    some ⟨files, callers, .expand directory (expanded ++ included) pending⟩
  | ⟨files, .expand _ _ _ :: callers, .done (.error failure)⟩ =>
    some ⟨files, callers, .done (.error failure)⟩
  | ⟨_, [], .done _⟩ => none

/-- Steps that lead from a state at some time to another one at a later time. -/
inductive Runs (disks : Nat → Disk) : Nat → State → Nat → State → Prop
  | refl {n : Nat} {s : State} : Runs disks n s n s
  | step {n k : Nat} {s s' s'' : State} :
      s.step (disks n) = some s' → Runs disks (n + 1) s' k s'' → Runs disks n s k s''

variable {disks : Nat → Disk}

theorem Runs.trans {n m k : Nat} {s s' s'' : State} (h : Runs disks n s m s')
    (h' : Runs disks m s' k s'') : Runs disks n s k s'' := by
  induction h with
  | refl => exact h'
  | step hs _ ih => exact .step hs (ih h')

/-! ## The record and the calls that wait -/

/-- The files whose loading waits, each with the path that led to it, in the order in which they
were opened. -/
def included : List Caller → List (Text × Text)
  | [] => []
  | .load path file :: callers => included callers ++ [(path, file)]
  | .expand _ _ _ :: callers => included callers

/-- That a record is that of the calls that wait at some time, with the given files open below
the included ones. -/
structure Records (disks : Nat → Disk) (below : List Text) (n : Nat) (callers : List Caller)
    (files : OpenFiles) : Prop where
  depth_eq : files.depth = (included callers).length
  depth_le : files.depth ≤ maxIncludeDepth
  stack_eq : files.stack = below ++ (included callers).map Prod.snd
  nodup : files.stack.Nodup
  canonical : ∀ i ∈ included callers, ∃ k < n, (disks k).canonical i.1 = .ok i.2

namespace Records

variable {below : List Text} {n : Nat} {callers : List Caller} {files : OpenFiles}

theorem later (h : Records disks below n callers files) {callers' : List Caller}
    (hcallers : included callers' = included callers) :
    Records disks below (n + 1) callers' files where
  depth_eq := hcallers ▸ h.depth_eq
  depth_le := h.depth_le
  stack_eq := hcallers ▸ h.stack_eq
  nodup := h.nodup
  canonical i hi := by
    obtain ⟨k, hk, hc⟩ := h.canonical i (hcallers ▸ hi)
    exact ⟨k, Nat.lt_succ_of_lt hk, hc⟩

theorem push (h : Records disks below n callers files) {path file : Text} {document : Document}
    (ha : files.enter (disks n) path = .ok (file, document)) :
    Records disks below (n + 1) (.load path file :: callers) (files.push file) := by
  obtain ⟨hdepth, hcanonical, hfile⟩ := OpenFiles.enter_eq_ok ha
  constructor
  · simp [OpenFiles.push, included, h.depth_eq]
  · exact hdepth
  · simp [OpenFiles.push, included, h.stack_eq]
  · rw [OpenFiles.push, ← List.concat_eq_append]
    exact h.nodup.concat hfile
  · intro i hi
    rcases List.mem_append.1 hi with hi | hi
    · exact (h.later rfl).canonical i hi
    · cases List.mem_singleton.1 hi
      exact ⟨n, Nat.lt_succ_self n, hcanonical⟩

theorem pop {path file : Text} (h : Records disks below n (.load path file :: callers) files) :
    Records disks below n callers files.pop := by
  have hdepth : files.depth = (included callers).length + 1 := by
    simpa [included] using h.depth_eq
  have hstack : files.stack = (below ++ (included callers).map Prod.snd) ++ [file] := by
    simpa [included] using h.stack_eq
  have hpop : files.pop.stack = below ++ (included callers).map Prod.snd := by
    rw [OpenFiles.pop, hstack, List.dropLast_concat]
  constructor
  · rw [OpenFiles.pop, hdepth]
    rfl
  · exact Nat.le_trans (Nat.sub_le _ _) h.depth_le
  · exact hpop
  · exact h.nodup.sublist (List.dropLast_sublist _)
  · exact fun i hi => h.canonical i (List.mem_append_left _ hi)

/-- Calls that wait have one record. -/
theorem unique (h : Records disks below n callers files) {k : Nat} {files' : OpenFiles}
    (h' : Records disks below k callers files') : files' = files := by
  obtain ⟨stack, depth⟩ := files
  obtain ⟨stack', depth'⟩ := files'
  rw [OpenFiles.mk.injEq]
  exact ⟨h'.stack_eq.trans h.stack_eq.symm, h'.depth_eq.trans h.depth_eq.symm⟩

theorem step {s s' : State} (h : Records disks below n s.callers s.files)
    (hs : s.step (disks n) = some s') : Records disks below (n + 1) s'.callers s'.files := by
  unfold State.step at hs
  split at hs
  · cases hs
    exact h.later rfl
  · split at hs <;> cases hs
    · exact h.later rfl
    · exact h.later rfl
  · split at hs <;> cases hs
    · exact h.later rfl
    · exact h.push ‹_›
  · cases hs
    exact h.pop.later rfl
  · cases hs
    exact h.later rfl
  · cases hs
    exact h.later rfl
  · cases hs

theorem of_runs {s s' : State} {k : Nat} (h : Records disks below n s.callers s.files)
    (hr : Runs disks n s k s') : Records disks below k s'.callers s'.files := by
  induction hr with
  | refl => exact h
  | step hs _ ih => exact ih (h.step hs)

end Records

/-! ## Calls come to an end -/

/-- Loading from a tree of files, to which the files that are open are handed on. -/
def loadWith (files : OpenFiles) (tree : FileTree) : Text → Resolution (List Block) :=
  loadBlocks tree (maxIncludeDepth - files.depth) files.stack.reverse

theorem result_loadWith (files : OpenFiles) (tree : FileTree) (path : Text) :
    (loadWith files tree path).result
      = match files.enter tree.disk path with
        | .error failure => .error failure
        | .ok (file, document) =>
          (expandBlocks (loadWith (files.push file) tree) (Path.parent file)
            document.blocks).result := by
  unfold OpenFiles.enter loadWith
  by_cases hdepth : maxIncludeDepth ≤ files.depth
  · rw [if_pos hdepth, Nat.sub_eq_zero_of_le hdepth]
    rfl
  · obtain ⟨levels, hlevels⟩ : ∃ levels, maxIncludeDepth - files.depth = levels + 1 :=
      ⟨maxIncludeDepth - files.depth - 1, by omega⟩
    have hpush : ∀ file, maxIncludeDepth - (files.push file).depth = levels := by
      intro file
      simp only [OpenFiles.push]
      omega
    have hstack : ∀ file, (files.push file).stack.reverse = file :: files.stack.reverse := by
      intro file
      simp [OpenFiles.push]
    rw [if_neg hdepth, hlevels]
    simp only [loadBlocks, FileTree.disk, hpush, hstack, List.contains_reverse]
    rcases tree.canonical path with e | file
    · rfl
    simp only
    by_cases hopen : files.stack.contains file = true
    · simp only [hopen, if_true]
      rfl
    · simp only [hopen]
      rcases tree.readText file with e | source
      · rfl
      · rcases hread : readSource source with e | document
        · simp only [Except.mapError, hread]
          rfl
        · simp only [Except.mapError, hread]
          rfl

/-- That a task is done at some time, with the record and the calls that wait as they were before
it. In a tree of files its result is the given one. -/
def Returns (disks : Nat → Disk) (files : OpenFiles) (task : Task)
    (value : FileTree → Except Failure (List Block)) : Prop :=
  ∀ callers n, ∃ k result, Runs disks n ⟨files, callers, task⟩ k ⟨files, callers, .done result⟩
    ∧ ∀ tree, (∀ i, disks i = tree.disk) → result = value tree

/-- Expanding comes to an end if loading does. -/
theorem returns_expand {files : OpenFiles} {load : FileTree → Text → Resolution (List Block)}
    (hload : ∀ path, Returns disks files (.load path) fun tree => (load tree path).result)
    (directory : Text) : ∀ expanded pending : List Block,
      Returns disks files (.expand directory expanded pending) fun tree =>
        (expandBlocks (load tree) directory pending).result.map (expanded ++ ·)
  | expanded, [], callers, n => by
    refine ⟨n + 1, .ok expanded, .step rfl .refl, fun tree _ => ?_⟩
    simp [expandBlocks, Resolution.of, Except.map]
  | expanded, block :: pending, callers, n => by
    rcases htarget : block.includeTarget? with _ | target
    · obtain ⟨k, result, hrun, hvalue⟩ :=
        returns_expand hload directory (expanded ++ [block]) pending callers (n + 1)
      refine ⟨k, result, .step (by simp only [State.step, htarget]) hrun, fun tree htree => ?_⟩
      rw [hvalue tree htree]
      simp only [expandBlocks, htarget, Resolution.map]
      rcases (expandBlocks (load tree) directory pending).result with e | blocks
      · rfl
      · simp [Except.map]
    · obtain ⟨k, loaded, hrun, hloaded⟩ := hload (Path.join directory target)
        (.expand directory expanded pending :: callers) (n + 1)
      have hcall : Runs disks n ⟨files, callers, .expand directory expanded (block :: pending)⟩ k
          ⟨files, .expand directory expanded pending :: callers, .done loaded⟩ :=
        .step (by simp only [State.step, htarget]) hrun
      rcases loaded with failure | blocks
      · refine ⟨k + 1, .error failure, hcall.trans (.step rfl .refl), fun tree htree => ?_⟩
        simp only [expandBlocks, htarget, Resolution.andThen, ← hloaded tree htree]
        rfl
      · obtain ⟨l, result, hrest, hvalue⟩ :=
          returns_expand hload directory (expanded ++ blocks) pending callers (k + 1)
        refine ⟨l, result, hcall.trans (.step rfl hrest), fun tree htree => ?_⟩
        rw [hvalue tree htree]
        simp only [expandBlocks, htarget, Resolution.andThen, ← hloaded tree htree,
          Resolution.map]
        rcases (expandBlocks (load tree) directory pending).result with e | rest
        · rfl
        · simp [Except.map]

/-- Loading comes to an end, at the latest where the files are too deep. -/
theorem returns_load : ∀ (levels : Nat) {files : OpenFiles},
    maxIncludeDepth - files.depth = levels → ∀ path,
      Returns disks files (.load path) fun tree => (loadWith files tree path).result
  | levels, files, hlevels, path, callers, n => by
    rcases henter : files.enter (disks n) path with failure | ⟨file, document⟩
    · refine ⟨n + 1, .error failure, .step (by simp only [State.step, henter]) .refl,
        fun tree htree => ?_⟩
      beta_reduce
      rw [result_loadWith, ← htree n, henter]
    · have hdepth := (OpenFiles.enter_eq_ok henter).1
      obtain ⟨levels, rfl⟩ : ∃ l, levels = l + 1 := ⟨levels - 1, by omega⟩
      have hlevels' : maxIncludeDepth - (files.push file).depth = levels := by
        simp only [OpenFiles.push]
        omega
      obtain ⟨k, result, hrun, hvalue⟩ := returns_expand (returns_load levels hlevels')
        (Path.parent file) [] document.blocks (.load path file :: callers) (n + 1)
      have hclose : Runs disks k ⟨files.push file, .load path file :: callers, .done result⟩
          (k + 1) ⟨files, callers, .done result⟩ :=
        .step (by simp only [State.step, OpenFiles.pop_push]) .refl
      refine ⟨k + 1, result, .step (by simp only [State.step, henter]) (hrun.trans hclose),
        fun tree htree => ?_⟩
      rw [hvalue tree htree]
      beta_reduce
      rw [result_loadWith, ← htree n, henter]
      dsimp only
      rcases (expandBlocks (loadWith (files.push file) tree) (Path.parent file)
        document.blocks).result with e | blocks <;> rfl

theorem exists_done (disks : Nat → Disk) (n : Nat) : ∀ s : State,
    ∃ k result, Runs disks n s k ⟨s.files, s.callers, .done result⟩
  | ⟨files, callers, .expand directory expanded pending⟩ => by
    obtain ⟨k, result, hrun, -⟩ :=
      returns_expand (returns_load _ rfl) directory expanded pending callers n
    exact ⟨k, result, hrun⟩
  | ⟨files, callers, .load path⟩ => by
    obtain ⟨k, result, hrun, -⟩ := returns_load _ rfl path callers n
    exact ⟨k, result, hrun⟩
  | ⟨_, _, .done result⟩ => ⟨n, result, .refl⟩

/-! ## From the start -/

/-- What is read with its includes: a text, with the directory that its targets are seen from, or
a file. -/
inductive Start
  | text (directory source : Text)
  | file (path : Text)

namespace Start

/-- The file that is open from the start, if one is. -/
def root? (disk : Disk) : Start → Option Text
  | text _ _ => none
  | file path => (disk.canonical path).toOption

/-- The directory that targets are seen from at first. -/
def directory : Start → Text
  | text directory _ => directory
  | file path => Path.parent path

/-- Where the calls begin, once the document is read. -/
def state (start : Start) (disk : Disk) (document : Document) : State :=
  ⟨⟨(start.root? disk).toList, 0⟩, [], .expand start.directory [] document.blocks⟩

/-- That this is the document in a tree of files, before its includes are read. -/
def Holds (tree : FileTree) (document : Document) : Start → Prop
  | text _ source => readSource source = .ok document
  | file path => tree.Holds path document

/-- Reads the document in a tree of files with its includes. -/
def read (tree : FileTree) : Start → Resolution Document
  | text directory source => parseSource tree (.resolve directory) source
  | file path => parseFile tree true path

end Start

theorem records_state (disks : Nat → Disk) (start : Start) (document : Document) :
    Records disks (start.root? (disks 0)).toList 0 (start.state (disks 0) document).callers
      (start.state (disks 0) document).files where
  depth_eq := rfl
  depth_le := Nat.zero_le _
  stack_eq := (List.append_nil _).symm
  nodup := by
    show (start.root? (disks 0)).toList.Nodup
    rcases start.root? (disks 0) with _ | root
    · exact List.nodup_nil
    · exact List.nodup_singleton root
  canonical := List.forall_mem_nil _

/-- Reading a document with its includes is expanding its blocks from the start. -/
theorem result_read {tree : FileTree} {start : Start} {document : Document}
    (h : start.Holds tree document) :
    (start.read tree).result
      = (expandBlocks (loadWith ⟨(start.root? tree.disk).toList, 0⟩ tree) start.directory
          document.blocks).result.map .mk := by
  cases start with
  | text directory source =>
    simp only [Start.read, parseSource, show readSource source = .ok document from h]
    rfl
  | file path =>
    obtain ⟨source, hsource, hread⟩ := h
    have hreverse : (tree.canonical path).toOption.toList.reverse
        = (tree.canonical path).toOption.toList := by
      rcases tree.canonical path <;> rfl
    show _ = (expandBlocks (loadBlocks tree maxIncludeDepth
      (tree.canonical path).toOption.toList.reverse) (Path.parent path)
        document.blocks).result.map Document.mk
    simp only [Start.read, parseFile, hsource, hread, if_true, hreverse]
    rfl

/-- In every state that is reached the record is that of the calls that wait, and whatever is being
done then comes to an end with the same calls waiting, and so with the same record. In a tree of
files the calls give what reading the document with its includes gives. -/
theorem record_follows_calls (disks : Nat → Disk) (start : Start) (document : Document) :
    (∀ n s, Runs disks 0 (start.state (disks 0) document) n s →
      Records disks (start.root? (disks 0)).toList n s.callers s.files
        ∧ (s.files.stack.length = s.files.depth ∨ s.files.stack.length = s.files.depth + 1)
        ∧ (∃ k result, Runs disks n s k ⟨s.files, s.callers, .done result⟩)
        ∧ ∀ k s', Runs disks n s k s' → s'.callers = s.callers → s'.files = s.files)
    ∧ ∀ tree, (∀ n, disks n = tree.disk) → start.Holds tree document →
      ∃ k result, Runs disks 0 (start.state (disks 0) document) k
          ⟨⟨(start.root? (disks 0)).toList, 0⟩, [], .done result⟩
        ∧ (start.read tree).result = result.map .mk := by
  refine ⟨fun n s hrun => ?_, fun tree htree hdocument => ?_⟩
  · have hrecords := (records_state disks start document).of_runs hrun
    refine ⟨hrecords, ?_, exists_done disks n s, fun k s' hrun' hcallers => ?_⟩
    · rw [hrecords.stack_eq, hrecords.depth_eq, List.length_append, List.length_map]
      rcases start.root? (disks 0) with _ | root
      · exact .inl (Nat.zero_add _)
      · exact .inr (Nat.add_comm 1 _)
    · have hrecords' := hrecords.of_runs hrun'
      rw [hcallers] at hrecords'
      exact hrecords.unique hrecords'
  · obtain ⟨k, result, hrun, hvalue⟩ := returns_expand (returns_load _ rfl) start.directory []
      document.blocks [] 0
    refine ⟨k, result, hrun, ?_⟩
    rw [result_read hdocument, hvalue tree htree, htree 0]
    beta_reduce
    rcases (expandBlocks _ start.directory document.blocks).result with e | blocks <;> rfl

end Resolver

end BlockDocument
