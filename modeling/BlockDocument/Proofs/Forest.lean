import BlockDocument.Include
import BlockDocument.Proofs.Entries

/-!
# Include forests

What blocks stand for is a forest: a leaf for a block that stands for itself, a node for a file
that is included, with the forest of that file's blocks inside it. `Block.Includes` says which
blocks include a file and `Forest.Of` which forest belongs to blocks in a directory. It knows
neither of files that are open nor of a limit.

Reading a document with its includes succeeds exactly when the document has a forest that is not
too deep, and gives its leaves. A forest is finite and there is only one for given blocks
(`Forest.Of.unique`), so no file can stand inside itself (`Forest.Of.not_mem_files`): the check for
cycles refuses nothing that has a forest.
-/

namespace BlockDocument

namespace Resolution

variable {α β : Type}

theorem result_map {f : α → β} {r : Resolution α} {b : β} :
    (r.map f).result = .ok b ↔ ∃ a, r.result = .ok a ∧ f a = b := by
  simp only [map]
  cases r.result <;> simp [Except.map]

theorem result_andThen {r : Resolution α} {next : α → Resolution β} {b : β} :
    (r.andThen next).result = .ok b ↔ ∃ a, r.result = .ok a ∧ (next a).result = .ok b := by
  unfold andThen
  cases r.result <;> simp

theorem of_mapError {ε δ α : Type} {f : ε → δ} {e : Except ε α} {a : α}
    (h : e.mapError f = .ok a) : e = .ok a := by
  cases e with
  | error e => cases h
  | ok b =>
    cases h
    rfl

end Resolution

namespace Block

/-- That a block includes a target: it is of the kind `include`, and the target is the text of its
attribute `src` or, if it has no such attribute, of its attribute `path`. -/
inductive Includes : Block → Text → Prop
  | src {block : Unknown} {target : Text} : block.kind = "include".toList →
      ("src".toList, .text target) ∈ block.attributes.entries → Includes (.unknown block) target
  | path {block : Unknown} {target : Text} : block.kind = "include".toList →
      (∀ value, ("src".toList, value) ∉ block.attributes.entries) →
      ("path".toList, .text target) ∈ block.attributes.entries → Includes (.unknown block) target

theorem includeTarget?_unknown_eq_some_iff {block : Unknown} {target : Text} :
    (unknown block).includeTarget? = some target ↔ block.kind = "include".toList ∧
      (block.attributes.get? "src".toList).or (block.attributes.get? "path".toList)
        = some (.text target) := by
  rw [includeTarget?]
  generalize (block.attributes.get? _).or (block.attributes.get? _) = value
  by_cases hkind : block.kind = "include".toList
  · rw [if_pos hkind, and_iff_right hkind]
    split
    · rw [Option.some.injEq, Option.some.injEq, Json.text.injEq]
    · rename_i hother
      exact iff_of_false (Option.some_ne_none target).symm (hother target)
  · rw [if_neg hkind]
    exact iff_of_false (Option.some_ne_none target).symm fun h => hkind h.1

theorem includeTarget?_eq_some_iff {block : Block} {target : Text} :
    block.includeTarget? = some target ↔ block.Includes target := by
  constructor
  · intro h
    cases block with
    | unknown block =>
      obtain ⟨hkind, hvalue⟩ := includeTarget?_unknown_eq_some_iff.1 h
      rcases Option.or_eq_some_iff.1 hvalue with hsrc | ⟨hsrc, hpath⟩
      · exact .src hkind (Dictionary.get?_eq_some_iff.1 hsrc)
      · exact .path hkind (Dictionary.get?_eq_none_iff.1 hsrc) (Dictionary.get?_eq_some_iff.1 hpath)
    | properties | doc | slide | sheet | table | chart | diagram | code => cases h
  · intro h
    cases h with
    | src hkind hsrc =>
      rw [includeTarget?_unknown_eq_some_iff, Dictionary.get?_eq_some_iff.2 hsrc]
      exact ⟨hkind, rfl⟩
    | path hkind hsrc hpath =>
      rw [includeTarget?_unknown_eq_some_iff, Dictionary.get?_eq_none_iff.2 hsrc,
        Dictionary.get?_eq_some_iff.2 hpath]
      exact ⟨hkind, rfl⟩

theorem includeTarget?_eq_none_iff {block : Block} :
    block.includeTarget? = none ↔ ∀ target, ¬ block.Includes target := by
  simp only [Option.eq_none_iff_forall_ne_some, ne_eq, includeTarget?_eq_some_iff]

/-- A block includes one target at most. -/
theorem Includes.unique {block : Block} {target other : Text} (h : block.Includes target)
    (ho : block.Includes other) : target = other :=
  Option.some.inj
    ((includeTarget?_eq_some_iff.2 h).symm.trans (includeTarget?_eq_some_iff.2 ho))

end Block

/-- The blocks that blocks stand for, with the files they come from. -/
inductive Forest
  | nil
  | leaf (block : Block) (rest : Forest)
  | file (path : Text) (inside rest : Forest)

/-- That a file can be read and holds a document. -/
def FileTree.Holds (tree : FileTree) (path : Text) (document : Document) : Prop :=
  ∃ source, tree.readText path = .ok source ∧ readSource source = .ok document

/-- That no target leads to a file from one directory and to another file from the other. -/
def FileTree.Agree (tree : FileTree) (directory other : Text) : Prop :=
  ∀ target path path', tree.canonical (Path.join directory target) = .ok path →
    tree.canonical (Path.join other target) = .ok path' → path = path'

theorem FileTree.agree_refl {tree : FileTree} (directory : Text) : tree.Agree directory directory :=
  fun _ _ _ h h' => Except.ok.inj (h.symm.trans h')

namespace Forest

/-- The blocks at the leaves, from left to right. -/
def leaves : Forest → List Block
  | nil => []
  | leaf block rest => block :: rest.leaves
  | file _ inside rest => inside.leaves ++ rest.leaves

/-- The largest number of files that stand one inside the other. -/
def depth : Forest → Nat
  | nil => 0
  | leaf _ rest => rest.depth
  | file _ inside rest => max (inside.depth + 1) rest.depth

/-- The files of a forest. -/
def files : Forest → List Text
  | nil => []
  | leaf _ rest => rest.files
  | file path inside rest => path :: (inside.files ++ rest.files)

/-- The forest of blocks in a directory. A block that includes a target stands for the file that
the target leads to, and the targets in that file are seen from the directory of the file. -/
inductive Of (tree : FileTree) : (directory : Text) → List Block → Forest → Prop
  | nil {directory : Text} : Of tree directory [] .nil
  | leaf {directory : Text} {block : Block} {blocks : List Block} {rest : Forest} :
      (∀ target, ¬ block.Includes target) → Of tree directory blocks rest →
        Of tree directory (block :: blocks) (.leaf block rest)
  | file {directory target path : Text} {block : Block} {blocks : List Block}
      {document : Document} {inside rest : Forest} :
      block.Includes target → tree.canonical (Path.join directory target) = .ok path →
        tree.Holds path document →
        Of tree (Path.parent path) document.blocks inside → Of tree directory blocks rest →
        Of tree directory (block :: blocks) (.file path inside rest)

/-- A file that blocks include, or that the blocks of such a file include, and so on. -/
inductive Reaches (tree : FileTree) : (directory : Text) → List Block → (path : Text) → Prop
  | target {directory target path : Text} {block : Block} {blocks : List Block} :
      block ∈ blocks → block.Includes target →
        tree.canonical (Path.join directory target) = .ok path → Reaches tree directory blocks path
  | step {directory path path' : Text} {blocks : List Block} {document : Document} :
      Reaches tree directory blocks path → tree.Holds path document →
        Reaches tree (Path.parent path) document.blocks path' → Reaches tree directory blocks path'

variable {tree : FileTree}

theorem holds_unique {path : Text} {d e : Document} (hd : tree.Holds path d)
    (he : tree.Holds path e) : d = e := by
  obtain ⟨s, hs, hd⟩ := hd
  obtain ⟨t, ht, he⟩ := he
  rw [hs] at ht
  cases ht
  rw [hd] at he
  cases he
  rfl

namespace Of

variable {directory : Text} {blocks : List Block} {forest : Forest}

/-- Blocks have one forest, also when they are seen from two directories that agree. -/
theorem unique_of_agree (h : Of tree directory blocks forest) : ∀ {other : Text} {forest' : Forest},
    Of tree other blocks forest' → tree.Agree directory other → forest = forest' := by
  induction h with
  | nil =>
    intro _ _ h _
    cases h
    rfl
  | leaf hb _ ih =>
    intro _ _ h ha
    cases h with
    | leaf _ hr => rw [ih hr ha]
    | file ht => exact absurd ht (hb _)
  | file ht hc hd _ _ ihi ihr =>
    intro _ _ h ha
    cases h with
    | leaf hb => exact absurd ht (hb _)
    | file ht' hc' hd' hi' hr' =>
      cases ht.unique ht'
      cases ha _ _ _ hc hc'
      cases holds_unique hd hd'
      rw [ihi hi' (FileTree.agree_refl _), ihr hr' ha]

theorem unique (h : Of tree directory blocks forest) {other : Forest}
    (ho : Of tree directory blocks other) : forest = other :=
  h.unique_of_agree ho (FileTree.agree_refl _)

theorem not_includes_leaves (h : Of tree directory blocks forest) :
    ∀ block ∈ forest.leaves, ∀ target, ¬ block.Includes target := by
  induction h with
  | nil => exact fun block hm => absurd hm List.not_mem_nil
  | leaf hb _ ih =>
    intro block hm
    rcases List.mem_cons.1 hm with rfl | hm
    · exact hb
    · exact ih block hm
  | file _ _ _ _ _ ihi ihr =>
    intro block hm
    rcases List.mem_append.1 hm with hm | hm
    · exact ihi block hm
    · exact ihr block hm

/-- The file of a node holds a document, and what stands inside the node is its forest. -/
theorem inside_of_mem_files (h : Of tree directory blocks forest) : ∀ {path : Text},
    path ∈ forest.files → ∃ document inside, tree.Holds path document
      ∧ Of tree (Path.parent path) document.blocks inside
      ∧ path :: inside.files <:+: forest.files := by
  induction h with
  | nil => exact fun hm => absurd hm List.not_mem_nil
  | leaf _ _ ih => exact fun hm => ih hm
  | @file _ _ file _ _ document inside rest _ _ hd hi _ ihi ihr =>
    intro path hm
    rcases List.mem_cons.1 hm with rfl | hm
    · exact ⟨document, inside, hd, hi, [], rest.files, rfl⟩
    · have hsub : inside.files ++ rest.files <:+: (Forest.file file inside rest).files :=
        (List.suffix_cons _ _).isInfix
      rcases List.mem_append.1 hm with hm | hm
      · obtain ⟨d, i, hd, hi, hs⟩ := ihi hm
        exact ⟨d, i, hd, hi, hs.trans ((List.prefix_append _ _).isInfix.trans hsub)⟩
      · obtain ⟨d, i, hd, hi, hs⟩ := ihr hm
        exact ⟨d, i, hd, hi, hs.trans ((List.suffix_append _ _).isInfix.trans hsub)⟩

/-- No file stands inside itself, since its forest would be smaller than itself. -/
theorem not_mem_files {path : Text} {document : Document} {inside : Forest}
    (hd : tree.Holds path document) (hi : Of tree (Path.parent path) document.blocks inside) :
    path ∉ inside.files := by
  intro hm
  obtain ⟨d, i, hd', hi', hs⟩ := hi.inside_of_mem_files hm
  -- the file holds one document, and that has one forest, so the inner forest is the outer one
  cases holds_unique hd hd'
  rw [hi.unique hi'] at hs
  have := hs.length_le
  rw [List.length_cons] at this
  omega

theorem mem_files_of_target (h : Of tree directory blocks forest) {block : Block}
    {target path : Text} (hm : block ∈ blocks) (ht : block.Includes target)
    (hc : tree.canonical (Path.join directory target) = .ok path) : path ∈ forest.files := by
  induction h with
  | nil => exact absurd hm List.not_mem_nil
  | leaf hb _ ih =>
    rcases List.mem_cons.1 hm with rfl | hm
    · exact absurd ht (hb _)
    · exact ih hm hc
  | file ht' hc' _ _ _ _ ihr =>
    rcases List.mem_cons.1 hm with rfl | hm
    · cases ht.unique ht'
      rw [hc'] at hc
      cases hc
      exact List.mem_cons_self
    · exact List.mem_cons_of_mem _ (List.mem_append_right _ (ihr hm hc))

theorem mem_files_of_reaches {path : Text} (hr : Reaches tree directory blocks path) :
    ∀ {forest : Forest}, Of tree directory blocks forest → path ∈ forest.files := by
  induction hr with
  | target hm ht hc => exact fun h => h.mem_files_of_target hm ht hc
  | step _ hd _ ih ih' =>
    intro forest h
    obtain ⟨d, inside, hd', hi, hs⟩ := h.inside_of_mem_files (ih h)
    cases holds_unique hd hd'
    exact hs.subset (List.mem_cons_of_mem _ (ih' hi))

/-- Blocks that lead to a file which leads back to itself have no forest. -/
theorem no_forest_of_cycle {path : Text} {document : Document}
    (hr : Reaches tree directory blocks path) (hd : tree.Holds path document)
    (hc : Reaches tree (Path.parent path) document.blocks path) :
    ¬ Of tree directory blocks forest := by
  intro h
  obtain ⟨d, inside, hd', hi, -⟩ := h.inside_of_mem_files (mem_files_of_reaches hr h)
  cases holds_unique hd hd'
  exact not_mem_files hd hi (mem_files_of_reaches hc hi)

end Of

/-! ## Reading -/

/-- That blocks are the leaves of a file's forest, which is less deep than the given level. -/
def LoadsWithin (tree : FileTree) (levels : Nat) (path : Text) (blocks : List Block) : Prop :=
  ∃ file document inside, tree.canonical path = .ok file ∧ tree.Holds file document
    ∧ Of tree (Path.parent file) document.blocks inside ∧ inside.depth < levels
    ∧ blocks = inside.leaves

/-- What expanding blocks gives are the leaves of their forest, if what loading gives are. -/
theorem of_expandBlocks {load : Text → Resolution (List Block)} {levels : Nat}
    (hl : ∀ path out, (load path).result = .ok out → LoadsWithin tree levels path out)
    (directory : Text) : ∀ (blocks out : List Block),
      (expandBlocks load directory blocks).result = .ok out →
        ∃ forest, Of tree directory blocks forest ∧ forest.depth ≤ levels ∧ out = forest.leaves
  | [], out, h => by
    cases h
    exact ⟨.nil, .nil, Nat.zero_le _, rfl⟩
  | block :: blocks, out, h => by
    unfold expandBlocks at h
    split at h
    · rename_i hb
      obtain ⟨rest, hr, rfl⟩ := Resolution.result_map.1 h
      obtain ⟨forest, hf, hd, rfl⟩ := of_expandBlocks hl directory blocks rest hr
      exact ⟨.leaf block forest, .leaf (Block.includeTarget?_eq_none_iff.1 hb) hf, hd, rfl⟩
    · rename_i target ht
      obtain ⟨included, hi, h⟩ := Resolution.result_andThen.1 h
      obtain ⟨rest, hr, rfl⟩ := Resolution.result_map.1 h
      obtain ⟨file, document, inside, hc, hd, ho, hlt, rfl⟩ := hl _ _ hi
      obtain ⟨forest, hf, hle, rfl⟩ := of_expandBlocks hl directory blocks rest hr
      exact ⟨.file file inside forest, .file (Block.includeTarget?_eq_some_iff.1 ht) hc hd ho hf,
        Nat.max_le.2 ⟨hlt, hle⟩, rfl⟩

theorem loadsWithin_of_loadBlocks : ∀ (levels : Nat) (opened : List Text) (path : Text)
    (out : List Block), (loadBlocks tree levels opened path).result = .ok out →
      LoadsWithin tree levels path out
  | 0, opened, path, out, h => by
    cases h
  | levels + 1, opened, path, out, h => by
    unfold loadBlocks at h
    split at h
    · cases h
    · rename_i file hc
      split at h
      · cases h
      · obtain ⟨document, ho, h⟩ := Resolution.result_andThen.1 h
        obtain ⟨inside, hi, hd, rfl⟩ :=
          of_expandBlocks (loadsWithin_of_loadBlocks levels (file :: opened)) _ _ _ h
        refine ⟨file, document, inside, hc, ?_, hi, Nat.lt_succ_of_le hd, rfl⟩
        split at ho
        · cases ho
        · rename_i source hs
          exact ⟨source, hs, Resolution.of_mapError ho⟩

/-- Blocks with a forest expand to its leaves if it is no deeper than the levels allowed and none
of its files is open. -/
theorem Of.expandBlocks {directory : Text} {blocks : List Block} {forest : Forest}
    (h : Of tree directory blocks forest) : ∀ (levels : Nat) (opened : List Text),
      forest.depth ≤ levels → (∀ path ∈ opened, path ∉ forest.files) →
        (BlockDocument.expandBlocks (loadBlocks tree levels opened) directory blocks).result
          = .ok forest.leaves := by
  induction h with
  | nil => exact fun _ _ _ _ => rfl
  | leaf hb _ ih =>
    intro levels opened hd ho
    unfold BlockDocument.expandBlocks
    rw [Block.includeTarget?_eq_none_iff.2 hb]
    exact Resolution.result_map.2 ⟨_, ih levels opened hd ho, rfl⟩
  | @file directory target file _ _ document inside rest ht hc hh hi _ ihi ihr =>
    intro levels opened hd ho
    obtain ⟨hdi, hdr⟩ := Nat.max_le.1 hd
    obtain ⟨levels, rfl⟩ : ∃ n, levels = n + 1 := ⟨levels - 1, by omega⟩
    have hfile : file ∉ opened := fun hm => ho file hm List.mem_cons_self
    -- inside the file, that file is open too: it is not among the files there
    have hin : ∀ path ∈ file :: opened, path ∉ inside.files := by
      intro path hm hf
      rcases List.mem_cons.1 hm with rfl | hm
      · exact not_mem_files hh hi hf
      · exact ho path hm (List.mem_cons_of_mem _ (List.mem_append_left _ hf))
    have hrest : ∀ path ∈ opened, path ∉ rest.files := fun path hm hf =>
      ho path hm (List.mem_cons_of_mem _ (List.mem_append_right _ hf))
    have hload : (loadBlocks tree (levels + 1) opened (Path.join directory target)).result
        = .ok inside.leaves := by
      obtain ⟨source, hs, hr⟩ := hh
      unfold loadBlocks
      rw [hc]
      simp only [List.contains_iff_mem, hfile, ↓reduceIte, hs, hr]
      exact Resolution.result_andThen.2
        ⟨document, rfl, ihi levels (file :: opened) (Nat.le_of_succ_le_succ hdi) hin⟩
    unfold BlockDocument.expandBlocks
    rw [Block.includeTarget?_eq_some_iff.2 ht]
    exact Resolution.result_andThen.2
      ⟨_, hload, Resolution.result_map.2 ⟨_, ihr (levels + 1) opened hdr hrest, rfl⟩⟩

end Forest

/-- A text that holds a document whose blocks, seen from a directory, have a forest that is not
too deep, and the document of the leaves of that forest. -/
def Resolves (tree : FileTree) (directory source : Text) (resolved : Document) : Prop :=
  ∃ document forest, readSource source = .ok document
    ∧ Forest.Of tree directory document.blocks forest ∧ forest.depth ≤ maxIncludeDepth
    ∧ resolved.blocks = forest.leaves

/-- Reading a text with its includes gives what the text resolves to, and no block of that includes
a target any more; a text that leads to a file which leads back to itself is refused. -/
theorem parseSource_resolve (tree : FileTree) (directory source : Text) :
    (∀ resolved, (parseSource tree (.resolve directory) source).result = .ok resolved ↔
      Resolves tree directory source resolved)
    ∧ (∀ resolved, (parseSource tree (.resolve directory) source).result = .ok resolved →
      ∀ block ∈ resolved.blocks, ∀ target, ¬ block.Includes target)
    ∧ ∀ document path included, readSource source = .ok document →
      Forest.Reaches tree directory document.blocks path → tree.Holds path included →
      Forest.Reaches tree (Path.parent path) included.blocks path →
      ∃ failure, (parseSource tree (.resolve directory) source).result = .error failure := by
  have hread : ∀ resolved, (parseSource tree (.resolve directory) source).result = .ok resolved ↔
      Resolves tree directory source resolved := by
    intro resolved
    unfold parseSource resolveDocument
    constructor
    · intro h
      obtain ⟨document, hs, h⟩ := Resolution.result_andThen.1 h
      obtain ⟨blocks, hb, rfl⟩ := Resolution.result_map.1 h
      obtain ⟨forest, hf, hd, rfl⟩ :=
        Forest.of_expandBlocks (Forest.loadsWithin_of_loadBlocks _ _) _ _ _ hb
      exact ⟨document, forest, Resolution.of_mapError hs, hf, hd, rfl⟩
    · rintro ⟨document, forest, hs, hf, hd, hl⟩
      refine Resolution.result_andThen.2 ⟨document, by rw [hs]; rfl, ?_⟩
      refine Resolution.result_map.2 ⟨_, hf.expandBlocks _ [] hd (by simp), ?_⟩
      rw [← hl]
  refine ⟨hread, fun resolved h => ?_, fun document path included hs hr hh hc => ?_⟩
  · obtain ⟨document, forest, -, hf, -, hl⟩ := (hread resolved).1 h
    rw [hl]
    exact hf.not_includes_leaves
  · rcases hp : (parseSource tree (.resolve directory) source).result with failure | resolved
    · exact ⟨failure, rfl⟩
    · obtain ⟨d, forest, hd, hf, -⟩ := (hread resolved).1 hp
      rw [hs] at hd
      cases hd
      exact absurd hf (Forest.Of.no_forest_of_cycle hr hh hc)

end BlockDocument
