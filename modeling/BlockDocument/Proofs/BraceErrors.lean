import BlockDocument.Proofs.SourceMarks

/-!
# Unmatched braces

The errors that a check reports are the braces of the source that have no partner. Without them
the braces that are left match each other, and that cannot be had by leaving out fewer
(`errors_are_least_deletion`).

Read from its end, a sequence of braces comes down to two numbers, how many closing braces of it
and how many opening ones have no partner. Leaving out one brace moves one of the two by one
(`counts_of_sublist`), so a sequence cannot be balanced by leaving out fewer than their sum.
-/

namespace BlockDocument.Source

/-- Braces that match each other. -/
inductive Balanced : List Brace → Prop
  | nil : Balanced []
  | block {inside rest : List Brace} : Balanced inside → Balanced rest →
      Balanced (.opening :: (inside ++ .closing :: rest))

/-- How many closing braces have no partner. -/
def strayCount : List Brace → Nat
  | [] => 0
  | .opening :: bs => strayCount bs - 1
  | .closing :: bs => strayCount bs + 1

/-- How many opening braces have no partner. -/
def openCount : List Brace → Nat
  | [] => 0
  | .opening :: bs => if strayCount bs = 0 then openCount bs + 1 else openCount bs
  | .closing :: bs => openCount bs

theorem counts_append {bs : List Brace} (h : Balanced bs) : ∀ rest : List Brace,
    strayCount (bs ++ rest) = strayCount rest ∧ openCount (bs ++ rest) = openCount rest := by
  induction h with
  | nil => exact fun _ => ⟨rfl, rfl⟩
  | @block inside after _ _ ihinside ihafter =>
    intro rest
    obtain ⟨hs, ho⟩ := ihinside (.closing :: (after ++ rest))
    obtain ⟨hs', ho'⟩ := ihafter rest
    simp only [List.cons_append, List.append_assoc, strayCount, openCount, hs, ho, hs', ho']
    simp

theorem counts_of_balanced {bs : List Brace} (h : Balanced bs) :
    strayCount bs = 0 ∧ openCount bs = 0 := by
  have := counts_append h []
  rwa [List.append_nil] at this

/-- Without opening braces that lack a partner, braces are balanced up to the first closing one
that does. The induction is on how many braces there are. -/
theorem balanced_of_counts : ∀ (size : Nat) (bs : List Brace), bs.length ≤ size →
    openCount bs = 0 → (strayCount bs = 0 → Balanced bs) ∧
      ∀ n, strayCount bs = n + 1 → ∃ before after, bs = before ++ .closing :: after ∧
        Balanced before ∧ strayCount after = n ∧ openCount after = 0
  | _, [], _, _ => ⟨fun _ => .nil, fun n h => by simp [strayCount] at h⟩
  | size + 1, .closing :: bs, hsize, ho => by
    refine ⟨fun h => by simp [strayCount] at h, fun n h => ⟨[], bs, rfl, .nil, ?_, ho⟩⟩
    simpa [strayCount] using h
  | size + 1, .opening :: bs, hsize, ho => by
    have hlen : bs.length ≤ size := by simpa using hsize
    have hstray : strayCount bs ≠ 0 := fun h => by simp [openCount, h] at ho
    have ho' : openCount bs = 0 := by simpa [openCount, hstray] using ho
    obtain ⟨k, hk⟩ := Nat.exists_eq_succ_of_ne_zero hstray
    obtain ⟨inside, rest, rfl, hinside, hrest, horest⟩ :=
      (balanced_of_counts size bs hlen ho').2 k hk
    have hlen' : rest.length ≤ size := by
      simp only [List.length_append, List.length_cons] at hlen
      omega
    obtain ⟨hbalanced, hsplit⟩ := balanced_of_counts size rest hlen' horest
    rw [strayCount, hk]
    refine ⟨fun h => ?_, fun n h => ?_⟩
    · exact .block hinside (hbalanced (by omega))
    · -- the first closing brace closes this opening one, the next one without a partner is behind
      obtain ⟨before, after, rfl, hbefore, hafter, hoafter⟩ := hsplit n (by omega)
      exact ⟨.opening :: (inside ++ .closing :: before), after, by simp, .block hinside hbefore,
        hafter, hoafter⟩

theorem balanced_iff {bs : List Brace} : Balanced bs ↔ strayCount bs = 0 ∧ openCount bs = 0 :=
  ⟨counts_of_balanced, fun h => (balanced_of_counts _ bs le_rfl h.2).1 h.1⟩

/-- Leaving out braces moves both counts together by no more than the number of braces left out. -/
theorem counts_of_sublist {rest bs : List Brace} (h : rest.Sublist bs) :
    (strayCount bs - strayCount rest) + (strayCount rest - strayCount bs)
      + ((openCount bs - openCount rest) + (openCount rest - openCount bs)) + rest.length
      ≤ bs.length := by
  induction h with
  | slnil => simp
  | @cons rest bs b _ ih =>
    cases b <;> simp only [strayCount, openCount, List.length_cons]
    · split_ifs <;> omega
    · omega
  | @cons_cons rest bs b _ ih =>
    cases b <;> simp only [strayCount, openCount, List.length_cons]
    · split_ifs <;> omega
    · omega

theorem counts_le_of_balanced {rest bs : List Brace} (h : rest.Sublist bs) (hb : Balanced rest) :
    strayCount bs + openCount bs + rest.length ≤ bs.length := by
  have := counts_of_sublist h
  obtain ⟨hs, ho⟩ := counts_of_balanced hb
  omega

/-! ## Braces with their places -/

/-- The structural braces of lines with their places, the first line having the given index. -/
def placedBraces : (index : Nat) → List Text → List ((Nat × Nat) × Brace)
  | _, [] => []
  | index, line :: lines =>
    (braces line).map (fun b => ((index, b.1), b.2)) ++ placedBraces (index + 1) lines

/-- The structural braces of source text in order, with their places counted from zero. -/
def sourceBraces (source : Text) : List ((Nat × Nat) × Brace) := placedBraces 0 source.lines

/-- Whether a finding is about a brace without a partner. -/
def Finding.isUnmatched : Finding → Bool
  | .unexpectedClosing | .unclosedBlock => true
  | .unknownBlock _ => false

/-- Whether something is reported about a brace at a place. -/
def reportsAt (found : List Diagnostic) (place : Nat × Nat) : Bool :=
  found.any fun d => d.finding.isUnmatched && d.place = (place.1 + 1, place.2 + 1)

/-- Whether a mark is a brace. -/
def Mark.isBrace : Mark → Bool
  | .brace _ => true
  | .unknownKeyword _ => false

/-- A brace as a mark. -/
def braceMark (b : (Nat × Nat) × Brace) : (Nat × Nat) × Mark := (b.1, .brace b.2)

theorem demand_filter : ∀ ms : List ((Nat × Nat) × Mark),
    demand (ms.filter fun m => m.2.isBrace) = demand ms
  | [] => rfl
  | (_, .unknownKeyword _) :: ms => demand_filter ms
  | (_, .brace .opening) :: ms => congrArg (· - 1) (demand_filter ms)
  | (_, .brace .closing) :: ms => congrArg (· + 1) (demand_filter ms)

/-- What is found about braces depends on the braces alone. -/
theorem filter_report : ∀ (ms : List ((Nat × Nat) × Mark)) (depth : Nat),
    (report depth ms).filter (fun d => d.finding.isUnmatched)
      = report depth (ms.filter fun m => m.2.isBrace)
  | [], _ => rfl
  | (_, .unknownKeyword _) :: ms, depth => filter_report ms depth
  | (place, .brace .opening) :: ms, depth => by
    have ih := filter_report ms (depth + 1)
    rw [List.filter_cons_of_pos (by rfl), report, report, demand_filter]
    split
    · exact congrArg (Diagnostic.atIndex place.1 place.2 .unclosedBlock :: ·) ih
    · exact ih
  | (place, .brace .closing) :: ms, 0 =>
    congrArg (Diagnostic.atIndex place.1 place.2 .unexpectedClosing :: ·) (filter_report ms 0)
  | (_, .brace .closing) :: ms, depth + 1 => filter_report ms depth

variable (options : CheckOptions)

theorem filter_lineMarks (line : Text) : (lineMarks options line).filter (fun m => m.2.isBrace)
    = (braces line).map fun b => (b.1, .brace b.2) := by
  have hkeyword : (keywordMarks options line).filter (fun m => m.2.isBrace) = [] := by
    unfold keywordMarks
    split
    · split <;> rfl
    · rfl
  have hbraces : ∀ m ∈ (braces line).map fun b => (b.1, Mark.brace b.2), m.2.isBrace = true := by
    rintro _ hm
    obtain ⟨_, _, rfl⟩ := List.mem_map.1 hm
    rfl
  rw [lineMarks, List.filter_append, hkeyword, List.nil_append, List.filter_eq_self.2 hbraces]

theorem filter_marks : ∀ (lines : List Text) (index : Nat),
    (marks options index lines).filter (fun m => m.2.isBrace)
      = (placedBraces index lines).map braceMark
  | [], _ => rfl
  | line :: lines, index => by
    have hline : (fun m : (Nat × Nat) × Mark => m.2.isBrace)
        ∘ (fun m : Nat × Mark => ((index, m.1), m.2)) = fun m => m.2.isBrace := rfl
    rw [marks, List.filter_append, filter_marks lines, List.filter_map, hline, filter_lineMarks,
      placedBraces, List.map_append, List.map_map, List.map_map]
    rfl

/-- What a check finds about braces. -/
theorem filter_check (source : Text) :
    (check options source).filter (fun d => d.finding.isUnmatched)
      = report 0 ((sourceBraces source).map braceMark) := by
  rw [check_eq_report, filter_report, filter_marks]
  rfl

theorem reportsAt_check (source : Text) (place : Nat × Nat) :
    reportsAt (check options source) place
      = reportsAt (report 0 ((sourceBraces source).map braceMark)) place := by
  rw [← filter_check options, reportsAt, reportsAt, List.any_filter]
  congr 1
  funext d
  rw [← Bool.and_assoc, Bool.and_self]

theorem nodup_places (source : Text) : ((sourceBraces source).map Prod.fst).Nodup := by
  have h := (pairwise_marks {} source.lines 0).filter fun m => m.2.isBrace
  rw [filter_marks, List.pairwise_map] at h
  refine List.pairwise_map.2 (h.imp fun {a b} hlt heq => ?_)
  rw [Prod.lex_def] at hlt
  simp only [braceMark, heq, lt_self_iff_false, and_false, or_self] at hlt

/-! ## Braces that have a partner -/

/-- The braces that have a partner among them or among `depth` braces that are open before. -/
def matched : (depth : Nat) → List ((Nat × Nat) × Brace) → List ((Nat × Nat) × Brace)
  | _, [] => []
  | depth, (place, .opening) :: bs =>
    if strayCount (bs.map Prod.snd) = 0 then matched (depth + 1) bs
    else (place, .opening) :: matched (depth + 1) bs
  | 0, (_, .closing) :: bs => matched 0 bs
  | depth + 1, (place, .closing) :: bs => (place, .closing) :: matched depth bs

theorem demand_braceMark : ∀ bs : List ((Nat × Nat) × Brace),
    demand (bs.map braceMark) = strayCount (bs.map Prod.snd)
  | [] => rfl
  | (_, .opening) :: bs => congrArg (· - 1) (demand_braceMark bs)
  | (_, .closing) :: bs => congrArg (· + 1) (demand_braceMark bs)

theorem counts_matched : ∀ (bs : List ((Nat × Nat) × Brace)) (depth : Nat),
    strayCount ((matched depth bs).map Prod.snd) = min depth (strayCount (bs.map Prod.snd))
      ∧ openCount ((matched depth bs).map Prod.snd) = 0
  | [], _ => by simp [matched, strayCount, openCount]
  | (_, .opening) :: bs, depth => by
    obtain ⟨hs, ho⟩ := counts_matched bs (depth + 1)
    rw [matched]
    split
    · rename_i h
      rw [hs, List.map_cons, strayCount, h]
      exact ⟨by omega, ho⟩
    · rename_i h
      simp only [List.map_cons, strayCount, openCount, hs, ho]
      exact ⟨by omega, if_neg (by omega)⟩
  | (_, .closing) :: bs, 0 => by
    obtain ⟨hs, ho⟩ := counts_matched bs 0
    rw [matched, hs, Nat.zero_min, Nat.zero_min]
    exact ⟨rfl, ho⟩
  | (_, .closing) :: bs, depth + 1 => by
    obtain ⟨hs, ho⟩ := counts_matched bs depth
    simp only [matched, List.map_cons, strayCount, openCount, hs, ho, and_true]
    omega

theorem length_matched : ∀ (bs : List ((Nat × Nat) × Brace)) (depth : Nat),
    (matched depth bs).length + (report depth (bs.map braceMark)).length = bs.length
  | [], _ => rfl
  | (_, .opening) :: bs, depth => by
    have ih := length_matched bs (depth + 1)
    simp only [matched, List.map_cons, braceMark, report, demand_braceMark]
    split
    · simp only [List.length_cons]
      omega
    · simp only [List.length_cons]
      omega
  | (_, .closing) :: bs, 0 => by
    have ih := length_matched bs 0
    simp only [matched, List.map_cons, braceMark, report, List.length_cons]
    omega
  | (_, .closing) :: bs, depth + 1 => by
    have ih := length_matched bs depth
    simp only [matched, List.map_cons, braceMark, report, List.length_cons]
    omega

theorem length_report : ∀ (bs : List ((Nat × Nat) × Brace)) (depth : Nat),
    (report depth (bs.map braceMark)).length
      = (strayCount (bs.map Prod.snd) - depth) + openCount (bs.map Prod.snd)
  | [], _ => by simp [report, strayCount, openCount]
  | (_, .opening) :: bs, depth => by
    have ih := length_report bs (depth + 1)
    simp only [List.map_cons, braceMark, report, demand_braceMark, strayCount, openCount]
    split
    · rw [List.length_cons]
      omega
    · omega
  | (_, .closing) :: bs, 0 => by
    have ih := length_report bs 0
    simp only [List.map_cons, braceMark, report, strayCount, openCount, List.length_cons]
    omega
  | (_, .closing) :: bs, depth + 1 => by
    have ih := length_report bs depth
    rw [List.map_cons, braceMark, report, ih, List.map_cons, strayCount, openCount]
    omega

theorem reportsAt_cons (d : Diagnostic) (found : List Diagnostic) (place : Nat × Nat) :
    reportsAt (d :: found) place
      = ((d.finding.isUnmatched && d.place = (place.1 + 1, place.2 + 1))
        || reportsAt found place) :=
  List.any_cons

/-- What is reported about some braces is reported at their places. -/
theorem not_reportsAt {place : Nat × Nat} {bs : List ((Nat × Nat) × Brace)}
    (h : place ∉ bs.map Prod.fst) (depth : Nat) :
    reportsAt (report depth (bs.map braceMark)) place = false := by
  rw [reportsAt, List.any_eq_false]
  intro d hd hreports
  have hplace : d.place = (place.1 + 1, place.2 + 1) :=
    of_decide_eq_true (Bool.and_eq_true_iff.1 hreports).2
  have hmem := (sublist_place_report _ _).subset (List.mem_map_of_mem (f := Diagnostic.place) hd)
  simp only [hplace, List.map_map, List.mem_map, Function.comp, braceMark, Prod.mk.injEq,
    Nat.add_right_cancel_iff] at hmem
  obtain ⟨b, hb, hline, hcolumn⟩ := hmem
  exact h (List.mem_map.2 ⟨b, hb, Prod.ext hline hcolumn⟩)

/-- The braces at which nothing is reported are those that have a partner. -/
theorem filter_reportsAt : ∀ (bs : List ((Nat × Nat) × Brace)) (depth : Nat),
    (bs.map Prod.fst).Nodup →
      bs.filter (fun b => !reportsAt (report depth (bs.map braceMark)) b.1) = matched depth bs
  | [], _, _ => rfl
  | (place, b) :: bs, depth, h => by
    obtain ⟨hplace, hnodup⟩ := List.nodup_cons.1 h
    -- what is reported at the first brace is not reported at another one
    have hrest : ∀ (d : Diagnostic) (depth : Nat), d.place = (place.1 + 1, place.2 + 1) →
        bs.filter (fun b => !reportsAt (d :: report depth (bs.map braceMark)) b.1)
          = bs.filter fun b => !reportsAt (report depth (bs.map braceMark)) b.1 := by
      intro d depth hd
      refine List.filter_congr fun x hx => ?_
      have hne : d.place ≠ (x.1.1 + 1, x.1.2 + 1) := fun heq => by
        rw [hd, Prod.mk.injEq, Nat.add_right_cancel_iff, Nat.add_right_cancel_iff] at heq
        exact hplace (List.mem_map.2 ⟨x, hx, (Prod.ext heq.1 heq.2).symm⟩)
      rw [reportsAt_cons, decide_eq_false hne, Bool.and_false, Bool.false_or]
    have hreported : ∀ (b : Brace) (d : Diagnostic) (found : List Diagnostic),
        d.finding.isUnmatched = true → d.place = (place.1 + 1, place.2 + 1) →
          ((place, b) :: bs).filter (fun b => !reportsAt (d :: found) b.1)
            = bs.filter fun b => !reportsAt (d :: found) b.1 := fun b d found hd hd' =>
      List.filter_cons_of_neg (by simp [reportsAt_cons, hd, hd'])
    have hsilent : ∀ (b : Brace) (depth : Nat),
        ((place, b) :: bs).filter (fun b => !reportsAt (report depth (bs.map braceMark)) b.1)
          = (place, b) :: bs.filter fun b => !reportsAt (report depth (bs.map braceMark)) b.1 :=
      fun b depth => List.filter_cons_of_pos (by rw [not_reportsAt hplace]; rfl)
    cases b with
    | opening =>
      rw [List.map_cons, braceMark, report, demand_braceMark, matched]
      split
      · rw [hreported _ _ _ rfl rfl, hrest _ _ rfl, filter_reportsAt bs _ hnodup]
      · rw [hsilent, filter_reportsAt bs _ hnodup]
    | closing =>
      cases depth with
      | zero =>
        rw [List.map_cons, braceMark, report, matched, hreported _ _ _ rfl rfl, hrest _ _ rfl,
          filter_reportsAt bs _ hnodup]
      | succ depth =>
        rw [List.map_cons, braceMark, report, matched, hsilent, filter_reportsAt bs _ hnodup]

/-! ## The order of errors -/

theorem not_unexpectedClosing_of_demand_le : ∀ {ms : List ((Nat × Nat) × Mark)} {depth : Nat},
    demand ms ≤ depth → ∀ d ∈ report depth ms, d.finding ≠ .unexpectedClosing
  | [], _, _, _, hd => by cases hd
  | (_, .unknownKeyword _) :: ms, depth, h, d, hd => by
    rcases List.mem_cons.1 hd with rfl | hd
    · simp [Diagnostic.atIndex]
    · exact not_unexpectedClosing_of_demand_le (show demand ms ≤ depth from h) d hd
  | (_, .brace .opening) :: ms, depth, h, d, hd => by
    have hle : demand ms ≤ depth + 1 := by
      rw [demand] at h
      omega
    have ih := not_unexpectedClosing_of_demand_le hle d
    rw [report] at hd
    split at hd
    · rcases List.mem_cons.1 hd with rfl | hd
      · simp [Diagnostic.atIndex]
      · exact ih hd
    · exact ih hd
  | (_, .brace .closing) :: ms, 0, h, _, _ => by
    rw [demand] at h
    omega
  | (_, .brace .closing) :: ms, depth + 1, h, d, hd => by
    have hle : demand ms ≤ depth := by
      rw [demand] at h
      omega
    exact not_unexpectedClosing_of_demand_le hle d hd

/-- No closing brace is at fault behind an opening one that is. -/
theorem pairwise_report_errors : ∀ (ms : List ((Nat × Nat) × Mark)) (depth : Nat),
    (report depth ms).Pairwise
      fun a b => a.finding = .unclosedBlock → b.finding ≠ .unexpectedClosing
  | [], _ => .nil
  | (_, .unknownKeyword _) :: ms, depth =>
    .cons (fun _ _ h => by simp [Diagnostic.atIndex] at h) (pairwise_report_errors ms depth)
  | (_, .brace .opening) :: ms, depth => by
    have ih := pairwise_report_errors ms (depth + 1)
    rw [report]
    split
    · rename_i h
      exact .cons (fun d hd _ => not_unexpectedClosing_of_demand_le (by omega) d hd) ih
    · exact ih
  | (_, .brace .closing) :: ms, 0 =>
    .cons (fun _ _ h => by simp [Diagnostic.atIndex] at h) (pairwise_report_errors ms 0)
  | (_, .brace .closing) :: ms, depth + 1 => pairwise_report_errors ms depth

theorem unexpected_before_unclosed (source : Text) {a b : Diagnostic}
    (ha : a ∈ check options source) (hb : b ∈ check options source)
    (hfa : a.finding = .unexpectedClosing) (hfb : b.finding = .unclosedBlock) :
    Prod.Lex (· < ·) (· < ·) a.place b.place := by
  rw [check_eq_report] at ha hb
  obtain ⟨i, hi, rfl⟩ := List.getElem_of_mem ha
  obtain ⟨j, hj, rfl⟩ := List.getElem_of_mem hb
  rcases Nat.lt_trichotomy i j with hij | rfl | hij
  · exact List.pairwise_iff_getElem.1 (pairwise_report_marks options source.lines 0 0) i j hi hj hij
  · cases hfa.symm.trans hfb
  · exact absurd hfa
      (List.pairwise_iff_getElem.1 (pairwise_report_errors _ 0) j i hj hi hij hfb)

/-! ## All braces -/

theorem hasErrors_eq_false_iff (found : List Diagnostic) :
    hasErrors found = false ↔ found.filter (fun d => d.finding.isUnmatched) = [] := by
  rw [hasErrors, List.any_eq_false, List.filter_eq_nil_iff]
  refine forall₂_congr fun d _ => not_congr ?_
  rcases d with ⟨_, _, finding⟩
  cases finding <;> simp [Finding.severity, Finding.isUnmatched]

/-- The braces at which a check reports an error are as few as can be left out for the others to
match each other. -/
theorem errors_are_least_deletion (source : Text) :
    let found := check options source
    let errors := found.filter fun d => d.finding.isUnmatched
    let kept := (sourceBraces source).filter fun b => !reportsAt found b.1
    Balanced (kept.map Prod.snd)
      ∧ kept.length + errors.length = (sourceBraces source).length
      ∧ (∀ rest : List ((Nat × Nat) × Brace), rest.Sublist (sourceBraces source) →
          Balanced (rest.map Prod.snd) → rest.length + errors.length ≤ (sourceBraces source).length)
      ∧ (∀ a ∈ found, ∀ b ∈ found, a.finding = .unexpectedClosing → b.finding = .unclosedBlock →
          Prod.Lex (· < ·) (· < ·) a.place b.place)
      ∧ (hasErrors found = false ↔ Balanced ((sourceBraces source).map Prod.snd)) := by
  intro found errors kept
  have herrors : errors = report 0 ((sourceBraces source).map braceMark) := filter_check _ _
  have hkept : kept = matched 0 (sourceBraces source) := by
    rw [← filter_reportsAt _ 0 (nodup_places source)]
    exact List.filter_congr fun b _ => by rw [reportsAt_check]
  have hlength : errors.length = strayCount ((sourceBraces source).map Prod.snd)
      + openCount ((sourceBraces source).map Prod.snd) := by
    rw [herrors, length_report, Nat.sub_zero]
  refine ⟨?_, ?_, fun rest hrest hbalanced => ?_, fun a ha b hb hfa hfb =>
    unexpected_before_unclosed options source ha hb hfa hfb, ?_⟩
  · rw [hkept, balanced_iff]
    have := counts_matched (sourceBraces source) 0
    rwa [Nat.zero_min] at this
  · rw [hkept, herrors]
    exact length_matched _ 0
  · have := counts_le_of_balanced (hrest.map Prod.snd) hbalanced
    rw [List.length_map, List.length_map] at this
    omega
  · rw [hasErrors_eq_false_iff, ← List.length_eq_zero_iff, balanced_iff]
    change errors.length = 0 ↔ _
    rw [hlength]
    omega

end BlockDocument.Source
