import Mathlib.Data.List.TakeWhile
import BlockDocument.Proofs.Forest

/-!
# Reading a file and reading its text

A directory can be spelled in many ways. Two spellings that lead to one place agree on every
target (`FileTree.agree_of_leads`), and the directory that a path's file is in is the same place,
whether it is taken from the path or from the file's canonical path (`FileTree.leads_parent`).

So a file that leads back to itself would have a forest inside its own forest, and cannot be read
with its includes whether or not it counts as open from the start: reading a file and reading its
text from the directory of the file come to the same.
-/

namespace BlockDocument

namespace Path

/-! ## Components -/

theorem pieces_ne_nil (path : Text) : pieces path ≠ [] := by
  rcases path with _ | ⟨c, path⟩
  · simp [pieces]
  · unfold pieces
    split
    · simp
    · cases pieces path <;> simp [Text.extendFirst]

theorem pieces_append_slash (rest : Text) : ∀ path : Text,
    pieces (path ++ '/' :: rest) = pieces path ++ pieces rest
  | [] => by simp [pieces]
  | c :: path => by
    have ih := pieces_append_slash rest path
    rw [List.cons_append, pieces, pieces, ih]
    split
    · rfl
    · rcases hp : pieces path with _ | ⟨piece, more⟩
      · exact absurd hp (pieces_ne_nil path)
      · rfl

theorem components_append_slash (path rest : Text) :
    components (path ++ '/' :: rest) = components path ++ components rest := by
  rw [components, pieces_append_slash, List.filter_append]
  rfl

@[simp]
theorem components_nil : components [] = [] := rfl

theorem pieces_of_noSlash : ∀ {name : Text}, '/' ∉ name → pieces name = [name]
  | [], _ => rfl
  | c :: name, h => by
    rw [List.mem_cons, not_or] at h
    rw [pieces, if_neg (Ne.symm h.1), pieces_of_noSlash h.2]
    rfl

theorem components_of_noSlash {name : Text} (hn : name ≠ []) (h : '/' ∉ name) :
    components name = [name] := by
  rw [components, pieces_of_noSlash h, List.filter_cons_of_pos (by simpa using hn), List.filter_nil]

theorem noSlash_of_mem_pieces : ∀ {path piece : Text}, piece ∈ pieces path → '/' ∉ piece
  | [], piece, h => by
    rw [List.mem_singleton.1 h]
    exact List.not_mem_nil
  | c :: path, piece, h => by
    have ih : ∀ p ∈ pieces path, '/' ∉ p := fun _ hp => noSlash_of_mem_pieces hp
    unfold pieces at h
    split at h
    · rcases List.mem_cons.1 h with rfl | h
      · exact List.not_mem_nil
      · exact ih piece h
    · rename_i hc
      rcases hp : pieces path with _ | ⟨first, more⟩
      · exact absurd hp (pieces_ne_nil path)
      · rw [hp] at h ih
        rcases List.mem_cons.1 h with rfl | h
        · rw [List.mem_cons, not_or]
          exact ⟨Ne.symm hc, ih first List.mem_cons_self⟩
        · exact ih piece (List.mem_cons_of_mem _ h)

theorem mem_components {path component : Text} (h : component ∈ components path) :
    component ≠ [] ∧ '/' ∉ component := by
  obtain ⟨hm, hn⟩ := List.mem_filter.1 h
  exact ⟨by simpa using hn, noSlash_of_mem_pieces hm⟩

theorem components_absolute : ∀ {names : List Text}, (∀ name ∈ names, IsName name) →
    components (absolute names) = names
  | [], _ => rfl
  | [name], h => by
    have hname := h name List.mem_cons_self
    exact (components_append_slash [] name).trans
      (components_of_noSlash hname.nonempty hname.noSlash)
  | name :: next :: names, h => by
    have hname := h name List.mem_cons_self
    have ih : components (absolute (next :: names)) = next :: names :=
      components_absolute fun n hn => h n (List.mem_cons_of_mem _ hn)
    have hjoin : absolute (name :: next :: names) = '/' :: name ++ absolute (next :: names) := by
      simp [absolute, Text.join]
    have hrest : components (absolute (next :: names))
        = components (Text.join ['/'] (next :: names)) := components_append_slash [] _
    rw [hjoin]
    show components ([] ++ '/' :: (name ++ '/' :: Text.join ['/'] (next :: names))) = _
    rw [components_append_slash, components_append_slash, ← hrest, ih,
      components_of_noSlash hname.nonempty hname.noSlash]
    rfl

theorem isAbsolute_append {path : Text} (h : path ≠ []) (rest : Text) :
    isAbsolute (path ++ rest) = isAbsolute path := by
  rcases path with _ | ⟨c, path⟩
  · exact absurd rfl h
  · rfl

theorem join_of_not_absolute {directory target : Text} (hd : directory ≠ [])
    (ht : isAbsolute target = false) :
    isAbsolute (join directory target) = isAbsolute directory
      ∧ components (join directory target) = components directory ++ components target := by
  have hcond : (isAbsolute target || directory.isEmpty) = false := by simp [ht, hd]
  unfold join
  rw [hcond]
  simp only [Bool.false_eq_true, ↓reduceIte]
  split
  · rename_i hw
    obtain ⟨front, rfl⟩ := List.getLast?_eq_some_iff.1 (of_decide_eq_true hw)
    refine ⟨isAbsolute_append hd target, ?_⟩
    rw [List.append_assoc, List.singleton_append, components_append_slash, components_append_slash,
      components_nil, List.append_nil]
  · exact ⟨isAbsolute_append hd _, components_append_slash _ _⟩

/-! ## Parents -/

theorem parent_of_noSlash {path : Text} (h : '/' ∉ path) : parent path = ['.'] := by
  have hd : path.reverse.dropWhile (· != '/') = [] := by
    refine List.dropWhile_eq_nil_iff.2 fun c hc => ?_
    have hne : c ≠ '/' := fun he => h (he ▸ List.mem_reverse.1 hc)
    simpa using hne
  unfold parent
  rw [hd]

theorem parent_append {front name : Text} (h : '/' ∉ name) :
    parent (front ++ '/' :: name) = (trimFromEnd ('/' :: front.reverse)).reverse := by
  have hd : (front ++ '/' :: name).reverse.dropWhile (· != '/') = '/' :: front.reverse := by
    rw [List.reverse_append, List.reverse_cons, List.append_assoc, List.singleton_append,
      List.dropWhile_append_of_pos]
    · rfl
    · intro c hc
      have hne : c ≠ '/' := fun he => h (he ▸ List.mem_reverse.1 hc)
      simpa using hne
  unfold parent
  rw [hd]

/-- A path is a name or has a last slash. -/
theorem noSlash_or_exists_last (path : Text) :
    '/' ∉ path ∨ ∃ front name, '/' ∉ name ∧ path = front ++ '/' :: name := by
  by_cases h : '/' ∈ path
  · obtain ⟨name, front, hp, hn⟩ := List.eq_append_cons_of_mem (List.mem_reverse.2 h)
    refine .inr ⟨front.reverse, name.reverse, by simpa using hn, ?_⟩
    rw [← List.reverse_reverse path, hp]
    simp
  · exact .inl h

end Path

namespace FileTree

variable {tree : FileTree}

/-! ## Walking -/

theorem walk_append {next : List Text} {more : List Text} : ∀ {first place : List Text},
    tree.walk place (first ++ more) = .ok next
      ↔ ∃ mid, tree.walk place first = .ok mid ∧ tree.walk mid more = .ok next
  | [], place => by simp [walk]
  | component :: first, place => by
    rw [List.cons_append, walk_cons]
    simp only [walk_append, walk_cons]
    constructor
    · rintro ⟨mid, hs, next', hw, hn⟩
      exact ⟨next', ⟨mid, hs, hw⟩, hn⟩
    · rintro ⟨next', ⟨mid, hs, hw⟩, hn⟩
      exact ⟨mid, hs, next', hw, hn⟩

theorem isName_of_walk : ∀ {components place next : List Text}, (∀ name ∈ place, Path.IsName name) →
    (∀ c ∈ components, c ≠ [] ∧ '/' ∉ c) → tree.walk place components = .ok next →
      ∀ name ∈ next, Path.IsName name
  | [], _, _, hp, _, h => Except.ok.inj h ▸ hp
  | component :: components, place, next, hp, hc, h => by
    obtain ⟨mid, hs, hw⟩ := walk_cons.1 h
    have hmid : ∀ name ∈ mid, Path.IsName name := by
      obtain ⟨-, ⟨-, rfl⟩ | ⟨-, rfl⟩ | ⟨h1, h2, rfl⟩⟩ := step_cases hs
      · exact hp
      · exact fun name hm => hp name (List.dropLast_subset _ hm)
      · intro name hm
        rcases List.mem_append.1 hm with hm | hm
        · exact hp name hm
        · rw [List.mem_singleton.1 hm]
          obtain ⟨hn, hslash⟩ := hc component List.mem_cons_self
          exact ⟨hn, hslash, h1, h2⟩
    exact isName_of_walk hmid (fun c hm => hc c (List.mem_cons_of_mem _ hm)) hw

/-- Names lead to themselves. -/
theorem walk_names : ∀ {names place next : List Text}, (∀ name ∈ names, Path.IsName name) →
    tree.walk place names = .ok next → next = place ++ names
  | [], _, _, _, h => by
    rw [List.append_nil]
    exact (Except.ok.inj h).symm
  | name :: names, place, next, hn, h => by
    obtain ⟨mid, hs, hw⟩ := walk_cons.1 h
    have hname := hn name List.mem_cons_self
    have hnext := walk_names (fun n hm => hn n (List.mem_cons_of_mem _ hm)) hw
    obtain ⟨-, ⟨hd, -⟩ | ⟨hd, -⟩ | ⟨-, -, rfl⟩⟩ := step_cases hs
    · exact absurd hd hname.notHere
    · exact absurd hd hname.notAbove
    · rw [hnext, List.append_assoc, List.singleton_append]

/-! ## Leading somewhere -/

/-- That walking along a path's components ends at a place. -/
def Leads (tree : FileTree) (path : Text) (place : List Text) : Prop :=
  tree.walk (if Path.isAbsolute path then [] else tree.home) (Path.components path) = .ok place

theorem leads_of_find {path : Text} {place : List Text} {e : Entry}
    (h : tree.find path = .ok (place, e)) : tree.Leads path place ∧ tree.entry? place = some e := by
  unfold find at h
  split at h
  · cases h
  · rename_i found hp
    have hl : tree.Leads path found := walk_of_place hp
    split at h
    · cases h
    · rename_i he
      split at h
      · cases h
      · cases h
        exact ⟨hl, he⟩
    · rename_i he
      cases h
      exact ⟨hl, he⟩

theorem find_of_readText {path source : Text} (h : tree.readText path = .ok source) :
    ∃ place, tree.find path = .ok (place, .file (.text source)) := by
  unfold readText at h
  split at h
  · cases h
  · cases h
  · rename_i place content hf
    cases h
    exact ⟨place, hf⟩
  · cases h

theorem exists_find_of_canonical {path file : Text} (h : tree.canonical path = .ok file) :
    ∃ place e, tree.find path = .ok (place, e) ∧ file = Path.absolute place := by
  unfold canonical at h
  rcases hf : tree.find path with err | ⟨place, e⟩
  · rw [hf] at h
    cases h
  · rw [hf] at h
    exact ⟨place, e, rfl, (Except.ok.inj h).symm⟩

theorem leads_join {directory target : Text} {place next : List Text}
    (hd : tree.Leads directory place) (ht : Path.isAbsolute target = false)
    (h : tree.Leads (Path.join directory target) next) :
    tree.walk place (Path.components target) = .ok next := by
  by_cases hn : directory = []
  · subst hn
    have hjoin : Path.join [] target = target := by simp [Path.join]
    cases Except.ok.inj (show Except.ok tree.home = .ok place from hd)
    rw [hjoin, Leads, ht] at h
    exact h
  · obtain ⟨ha, hc⟩ := Path.join_of_not_absolute hn ht
    rw [Leads, ha, hc] at h
    obtain ⟨mid, hmid, hnext⟩ := walk_append.1 h
    cases Except.ok.inj (hd.symm.trans hmid)
    exact hnext

/-- Directories that lead to one place agree on every target. -/
theorem agree_of_leads {directory other : Text} {place : List Text}
    (hd : tree.Leads directory place) (ho : tree.Leads other place) :
    tree.Agree directory other := by
  intro target file file' hf hf'
  cases ha : Path.isAbsolute target with
  | true =>
    have hjoin : ∀ d, Path.join d target = target := fun d => by simp [Path.join, ha]
    rw [hjoin] at hf hf'
    exact Except.ok.inj (hf.symm.trans hf')
  | false =>
    obtain ⟨next, e, hfind, rfl⟩ := exists_find_of_canonical hf
    obtain ⟨next', e', hfind', rfl⟩ := exists_find_of_canonical hf'
    have hnext := leads_join hd ha (leads_of_find hfind).1
    have hnext' := leads_join ho ha (leads_of_find hfind').1
    rw [Except.ok.inj (hnext.symm.trans hnext')]

theorem leads_trimFromEnd {place : List Text} : ∀ backwards : Text,
    tree.Leads backwards.reverse place → tree.Leads (Path.trimFromEnd backwards).reverse place := by
  intro backwards
  fun_induction Path.trimFromEnd backwards with
  | case1 c rest ih =>
    intro h
    apply ih
    have hn : (c :: rest).reverse ≠ [] := by simp
    rw [List.reverse_cons] at h
    unfold Leads at h ⊢
    rwa [Path.isAbsolute_append hn, Path.components_append_slash, Path.components_nil,
      List.append_nil] at h
  | case2 rest ih =>
    intro h
    apply ih
    have hn : ('/' :: rest).reverse ≠ [] := by simp
    rw [List.reverse_cons] at h
    unfold Leads at h ⊢
    rw [Path.isAbsolute_append hn, List.reverse_cons, List.append_assoc, List.singleton_append,
      Path.components_append_slash] at h
    rw [List.reverse_cons, Path.components_append_slash, Path.components_nil, List.append_nil,
      ← List.reverse_cons]
    obtain ⟨mid, hmid, hdot⟩ := walk_append.1 h
    obtain ⟨next, hs, hnext⟩ := walk_cons.1 hdot
    obtain ⟨-, ⟨-, rfl⟩ | ⟨hc, -⟩ | ⟨hc, -, -⟩⟩ := step_cases hs
    · rw [← Except.ok.inj hnext, List.reverse_cons]
      exact hmid
    · cases hc
    · exact absurd rfl hc
  | case3 => exact id

/-- A step that leads to a file goes by the name of the file. -/
theorem step_file {place next : List Text} {component : Text}
    {content : FileContent} (hs : tree.step place component = .ok next)
    (he : tree.entry? next = some (.file content)) :
    tree.entry? place = some .directory ∧ next = place ++ [component] := by
  obtain ⟨hd, ⟨-, rfl⟩ | ⟨-, rfl⟩ | ⟨-, -, hnext⟩⟩ := step_cases hs
  · rw [hd] at he
    cases he
  · rw [entry?_dropLast hd] at he
    cases he
  · exact ⟨hd, hnext⟩

theorem ne_nil_of_find {path : Text} {found : List Text × Entry} (h : tree.find path = .ok found) :
    path ≠ [] := by
  rintro rfl
  cases h

theorem wantsDirectory_of_find_file {path : Text} {place : List Text} {content : FileContent}
    (h : tree.find path = .ok (place, .file content)) : Path.wantsDirectory path = false := by
  unfold find at h
  split at h
  · cases h
  · split at h
    · cases h
    · split at h
      · cases h
      · rename_i hd
        exact Bool.eq_false_iff.2 hd
    · cases h

theorem leads_here (h : tree.entry? tree.home = some .directory) : tree.Leads ['.'] tree.home := by
  have hs : tree.step tree.home ['.'] = .ok tree.home := by
    unfold step
    rw [h]
    rfl
  exact walk_cons.2 ⟨tree.home, hs, rfl⟩

theorem leads_append_slash {front rest : Text} {place : List Text} :
    tree.Leads (front ++ '/' :: rest) place
      ↔ ∃ mid, tree.Leads (front ++ ['/']) mid
        ∧ tree.walk mid (Path.components rest) = .ok place := by
  have ha : Path.isAbsolute (front ++ '/' :: rest) = Path.isAbsolute (front ++ ['/']) := by
    rw [show front ++ '/' :: rest = (front ++ ['/']) ++ rest by simp,
      Path.isAbsolute_append (by simp)]
  unfold Leads
  rw [ha, Path.components_append_slash, Path.components_append_slash, Path.components_nil,
    List.append_nil]
  exact walk_append

/-- The directory of a file's path leads to the place that the file stands in. -/
theorem leads_parent {path : Text} {place : List Text}
    {content : FileContent} (h : tree.find path = .ok (place, .file content)) :
    tree.Leads (Path.parent path) place.dropLast := by
  obtain ⟨hl, he⟩ := leads_of_find h
  rcases Path.noSlash_or_exists_last path with hn | ⟨front, name, hn, rfl⟩
  · have ha : Path.isAbsolute path = false :=
      decide_eq_false fun hh => hn (List.mem_of_mem_head? hh)
    rw [Leads, ha, if_neg Bool.false_ne_true,
      Path.components_of_noSlash (ne_nil_of_find h) hn] at hl
    obtain ⟨next, hs, hnext⟩ := walk_cons.1 hl
    cases Except.ok.inj hnext
    obtain ⟨hd, rfl⟩ := step_file hs he
    rw [Path.parent_of_noSlash hn, List.dropLast_concat]
    exact leads_here hd
  · have hname : name ≠ [] := by
      rintro rfl
      have hd := wantsDirectory_of_find_file h
      simp [Path.wantsDirectory] at hd
    obtain ⟨mid, hmid, hlast⟩ := leads_append_slash.1 hl
    rw [Path.components_of_noSlash hname hn] at hlast
    obtain ⟨next, hs, hnext⟩ := walk_cons.1 hlast
    cases Except.ok.inj hnext
    obtain ⟨-, rfl⟩ := step_file hs he
    rw [Path.parent_append hn, List.dropLast_concat]
    apply leads_trimFromEnd
    rwa [List.reverse_cons, List.reverse_reverse]

theorem find_absolute {place next : List Text} {e : Entry} (hn : ∀ name ∈ place, Path.IsName name)
    (h : tree.find (Path.absolute place) = .ok (next, e)) : next = place := by
  have hl : tree.walk [] (Path.components (Path.absolute place)) = .ok next := (leads_of_find h).1
  rw [Path.components_absolute hn] at hl
  exact walk_names hn hl

theorem isName_of_find {path : Text} {place : List Text} {e : Entry}
    (h : tree.find path = .ok (place, e)) : ∀ name ∈ place, Path.IsName name := by
  refine isName_of_walk ?_ (fun _ hc => Path.mem_components hc) (leads_of_find h).1
  split
  · exact List.forall_mem_nil _
  · exact tree.isName_home

end FileTree

/-! ## The file that is read -/

variable {tree : FileTree} {path source root : Text} {document : Document}

/-- A file that is read with its includes is not among them. -/
theorem Forest.Of.root_not_mem_files (hs : tree.readText path = .ok source)
    (hd : readSource source = .ok document) (hc : tree.canonical path = .ok root) {forest : Forest}
    (h : Of tree (Path.parent path) document.blocks forest) : root ∉ forest.files := by
  intro hm
  obtain ⟨document', inside, ⟨source', hs', hd'⟩, hi, hsub⟩ := h.inside_of_mem_files hm
  obtain ⟨place, hfind⟩ := FileTree.find_of_readText hs
  obtain ⟨place', hfind'⟩ := FileTree.find_of_readText hs'
  obtain ⟨_, _, hfind'', rfl⟩ := FileTree.exists_find_of_canonical hc
  cases Except.ok.inj (hfind.symm.trans hfind'')
  cases FileTree.find_absolute (FileTree.isName_of_find hfind) hfind'
  -- the file is read from the same place again, and its directory leads to the same place
  have hsame : some (Entry.file (.text source)) = some (.file (.text source')) :=
    (FileTree.leads_of_find hfind).2.symm.trans (FileTree.leads_of_find hfind').2
  cases hsame
  rw [hd] at hd'
  cases hd'
  have hagree := FileTree.agree_of_leads (FileTree.leads_parent hfind)
    (FileTree.leads_parent hfind')
  rw [← h.unique_of_agree hi hagree] at hsub
  have := hsub.length_le
  rw [List.length_cons] at this
  omega

theorem resolveDocument_eq_ok {opened : List Text} {directory : Text} {resolved : Document}
    (ho : ∀ forest, Forest.Of tree directory document.blocks forest →
      ∀ file ∈ opened, file ∉ forest.files) :
    (resolveDocument tree opened directory document).result = .ok resolved
      ↔ ∃ forest, Forest.Of tree directory document.blocks forest
        ∧ forest.depth ≤ maxIncludeDepth ∧ resolved.blocks = forest.leaves := by
  unfold resolveDocument
  constructor
  · intro h
    obtain ⟨blocks, hb, rfl⟩ := Resolution.result_map.1 h
    exact Forest.of_expandBlocks (Forest.loadsWithin_of_loadBlocks _ _) _ _ _ hb
  · rintro ⟨forest, hf, hd, hl⟩
    refine Resolution.result_map.2 ⟨_, hf.expandBlocks _ opened hd (ho forest hf), ?_⟩
    rw [← hl]

theorem toOption_congr {ε α : Type} {a b : Except ε α} (h : ∀ x, a = .ok x ↔ b = .ok x) :
    a.toOption = b.toOption := by
  rcases a with e | x
  · rcases b with e' | y
    · rfl
    · cases (h y).2 rfl
  · rw [(h x).1 rfl]

/-- Reading a file comes to the same as reading its text from the directory of the file. -/
theorem toOption_parseFile (hs : tree.readText path = .ok source)
    (resolve : Bool) :
    (parseFile tree resolve path).result.toOption
      = (parseSource tree (if resolve then .resolve (Path.parent path) else .keep)
          source).result.toOption := by
  unfold parseFile parseSource
  simp only [hs]
  cases hd : readSource source with
  | error stop => rfl
  | ok document =>
    cases resolve with
    | false => rfl
    | true =>
      have hroot : ∀ forest, Forest.Of tree (Path.parent path) document.blocks forest →
          ∀ file ∈ (tree.canonical path).toOption.toList, file ∉ forest.files := by
        intro forest hf file hm
        rcases hc : tree.canonical path with e | root
        · rw [hc] at hm
          cases hm
        · rw [hc] at hm
          cases List.mem_singleton.1 hm
          exact hf.root_not_mem_files hs hd hc
      simp only [↓reduceIte]
      have hnone : ∀ forest, Forest.Of tree (Path.parent path) document.blocks forest →
          ∀ file ∈ [], file ∉ forest.files := fun _ _ => List.forall_mem_nil _
      exact toOption_congr fun resolved =>
        (resolveDocument_eq_ok hroot).trans (resolveDocument_eq_ok hnone).symm

/-- A directory with a file that includes itself. -/
def selfIncludeTree : FileTree :=
  .ofEntries ["docs".toList] [("main.json".toList, .file (.text
    "[\x7b\"type\":\"include\",\"src\":\"main.json\"\x7d]".toList))]

theorem toOption_parseFile_selfInclude :
    selfIncludeTree.readText "../docs/main.json".toList
        = .ok "[\x7b\"type\":\"include\",\"src\":\"main.json\"\x7d]".toList
      ∧ (parseFile selfIncludeTree true "../docs/main.json".toList).result.toOption
        = (parseSource selfIncludeTree (.resolve "../docs".toList)
            "[\x7b\"type\":\"include\",\"src\":\"main.json\"\x7d]".toList).result.toOption := by
  have hread : selfIncludeTree.readText "../docs/main.json".toList
      = .ok "[\x7b\"type\":\"include\",\"src\":\"main.json\"\x7d]".toList := rfl
  exact ⟨hread, toOption_parseFile hread true⟩

end BlockDocument
