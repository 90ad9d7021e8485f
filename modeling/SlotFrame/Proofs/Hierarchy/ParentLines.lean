import SlotFrame.Proofs.Hierarchy.Exploration

/-! # Lines of parents

Where nothing but parents counts, at most one name stands directly above a name, and what stands
above it is a line: the name itself, its parent, the parent of that, up to the first definition
without one. A closure then has one name at a time to expand, and finds the line in order. It would
stop short only at a name that it has visited, from which a way would lead back; where that has been
ruled out it finds the whole line. Conversely a line that comes to an end leads nowhere back.

Main definition: `ParentLine`.

Main statements: `exists_parentLine_of_closureFrom` (a closure without ways back finds a line) and
`Hierarchy.ancestors_eq_ok_iff_parentLine` (what stands above a name is its line). -/

namespace SlotFrame

variable {α : Type} [Inheriting α] {definition? : String → Option α}

/-- The line of a name, each name with its definition: the name itself, and then the line of its
parent if it has one. -/
inductive ParentLine (definition? : String → Option α) : String → List (String × α) → Prop
  | top {n : String} {e : α} (hn : definition? n = some e) (hp : Inheriting.parent e = none) :
      ParentLine definition? n [(n, e)]
  | step {n p : String} {e : α} {line : List (String × α)} (hn : definition? n = some e)
      (hp : Inheriting.parent e = some p) (hline : ParentLine definition? p line) :
      ParentLine definition? n ((n, e) :: line)

namespace ParentLine

/-- A name has at most one line. -/
theorem unique {n : String} {line line' : List (String × α)} (h : ParentLine definition? n line)
    (h' : ParentLine definition? n line') : line = line' := by
  induction h generalizing line' with
  | top hn hp =>
    cases h' with
    | top hn' _ =>
      cases Option.some.inj (hn.symm.trans hn')
      rfl
    | step hn' hp' _ =>
      cases Option.some.inj (hn.symm.trans hn')
      cases hp.symm.trans hp'
  | step hn hp _ ih =>
    cases h' with
    | top hn' hp' =>
      cases Option.some.inj (hn.symm.trans hn')
      cases hp.symm.trans hp'
    | step hn' hp' hline' =>
      cases Option.some.inj (hn.symm.trans hn')
      cases Option.some.inj (hp.symm.trans hp')
      rw [ih hline']

/-- The names of a line stand for its definitions. -/
theorem filterMap_keysOf {n : String} {line : List (String × α)}
    (h : ParentLine definition? n line) :
    (keysOf line).filterMap definition? = line.map Prod.snd := by
  induction h with
  | top hn _ => rw [keysOf_cons, List.filterMap_cons, hn]; rfl
  | step hn _ _ ih => rw [keysOf_cons, List.filterMap_cons, hn, ih]; rfl

end ParentLine

/-! ### Hierarchies in which only parents count -/

section onlyParents

variable {kind : ElementKind} {o : Traversal} (hisA : o.isA = true)
  (hmixins : ∀ e : α, o.mixins = true → Inheriting.mixins e = [])

include hisA hmixins

theorem declared_eq_parent {n : String} {e : α} (hn : definition? n = some e) :
    Above.declared kind o definition? n = .ok (Inheriting.parent e).toList := by
  have hnone : (if o.mixins then Inheriting.mixins e else []) = [] := by
    by_cases hm : o.mixins = true
    · rw [if_pos hm, hmixins e hm]
    · rw [if_neg hm]
  unfold Above.declared
  rw [hn]
  dsimp only
  rw [if_pos hisA, hnone, List.append_nil]

theorem parent_declared_iff {n p : String} :
    (Above.declared kind o definition?).Parent n p ↔
      ∃ e, definition? n = some e ∧ Inheriting.parent e = some p := by
  constructor
  · rintro ⟨names, hnames, hp⟩
    cases hn : definition? n with
    | none =>
      unfold Above.declared at hnames
      rw [hn] at hnames
      cases hnames
    | some e =>
      rw [declared_eq_parent hisA hmixins hn] at hnames
      cases hnames
      exact ⟨e, rfl, Option.mem_toList.1 hp⟩
  · rintro ⟨e, hn, hp⟩
    exact ⟨_, declared_eq_parent hisA hmixins hn, Option.mem_toList.2 hp⟩

/-- A way upwards begins at the parent. -/
theorem ascends_declared_iff {n q : String} :
    (Above.declared kind o definition?).Ascends n q ↔ ∃ e p, definition? n = some e ∧
      Inheriting.parent e = some p ∧ (Above.declared kind o definition?).Reaches p q := by
  constructor
  · intro hq
    obtain ⟨p, hparent, hreach⟩ := Relation.TransGen.head'_iff.1 hq
    obtain ⟨e, hn, hp⟩ := (parent_declared_iff hisA hmixins).1 hparent
    exact ⟨e, p, hn, hp, hreach⟩
  · rintro ⟨e, p, hn, hp, hreach⟩
    have hparent : (Above.declared kind o definition?).Parent n p :=
      (parent_declared_iff hisA hmixins).2 ⟨e, hn, hp⟩
    exact Relation.TransGen.head'_iff.2 ⟨p, hparent, hreach⟩

/-- All that a line leads to is known, and none of it leads back to itself. -/
theorem ParentLine.grounded {n : String} {line : List (String × α)}
    (h : ParentLine definition? n line) {x : String}
    (hx : (Above.declared kind o definition?).Reaches n x) :
    (∃ names, Above.declared kind o definition? x = .ok names) ∧
      ¬ (Above.declared kind o definition?).Ascends x x := by
  induction h generalizing x with
  | @top n e hn hp =>
    have hend : ∀ q, ¬ (Above.declared kind o definition?).Ascends n q := by
      intro q hq
      obtain ⟨e', p, hn', hp', -⟩ := (ascends_declared_iff hisA hmixins).1 hq
      cases Option.some.inj (hn.symm.trans hn')
      cases hp.symm.trans hp'
    rcases Above.reaches_iff.1 hx with rfl | hasc
    · exact ⟨⟨_, declared_eq_parent hisA hmixins hn⟩, hend x⟩
    · exact absurd hasc (hend x)
  | @step n p e line hn hp _ ih =>
    have hnext : ∀ q, (Above.declared kind o definition?).Ascends n q →
        (Above.declared kind o definition?).Reaches p q := by
      intro q hq
      obtain ⟨e', p', hn', hp', hreach⟩ := (ascends_declared_iff hisA hmixins).1 hq
      cases Option.some.inj (hn.symm.trans hn')
      cases Option.some.inj (hp.symm.trans hp')
      exact hreach
    rcases Above.reaches_iff.1 hx with rfl | hasc
    · refine ⟨⟨_, declared_eq_parent hisA hmixins hn⟩, fun hback => ?_⟩
      -- a way from the name back to itself would be one from its parent to itself
      have hparent : (Above.declared kind o definition?).Parent x p :=
        (parent_declared_iff hisA hmixins).2 ⟨e, hn, hp⟩
      exact (ih (.refl _ p)).2 ((hnext x hback).ascends hparent.ascends)
    · exact ih (hnext x hasc)

/-! ### Closures along a line -/

section closures

variable {limit : Nat} {visited found : List String} {n : String} {e : α}
  (hn : definition? n = some e) (hnew : n ∉ visited)

include hn hnew

/-- A closure that has come to the top of a line is at its end. -/
theorem run_closureFrom_top (hp : Inheriting.parent e = none) :
    (closureFrom (.declared kind o definition?) (limit + 1) visited found [n]).run =
      some (.ok found) := by
  rw [closureFrom_of_dropWhile_cons (dropWhile_of_not_mem hnew), Bounded.run_lift_bind,
    declared_eq_parent hisA hmixins hn, hp]
  show (closureFrom (.declared kind o definition?) limit (n :: visited) found []).run = _
  rw [closureFrom_of_dropWhile_nil rfl]
  rfl

/-- A closure goes on from a name to its parent, if that is new. -/
theorem run_closureFrom_parent {p : String} (hp : Inheriting.parent e = some p)
    (hnext : p ∉ n :: visited) (hfound : p ∉ found) :
    (closureFrom (.declared kind o definition?) (limit + 1) visited found [n]).run =
      (closureFrom (.declared kind o definition?) limit (n :: visited) (found ++ [p]) [p]).run := by
  have hmore : addNames found [p] = found ++ [p] := if_neg hfound
  have hfresh : [p].filter (· ∉ n :: visited) = [p] :=
    List.filter_cons_of_pos (by simpa using hnext)
  rw [closureFrom_of_dropWhile_cons (dropWhile_of_not_mem hnew), Bounded.run_lift_bind,
    declared_eq_parent hisA hmixins hn, hp]
  dsimp only [Option.toList_some]
  rw [hfresh, hmore]
  rfl

end closures

/-- A closure that has come to a name, which all that it has visited leads to, goes on along the line
of that name, as long as nothing leads back. -/
theorem exists_parentLine_of_closureFrom {limit : Nat} {visited found result : List String}
    {n : String} (hnew : n ∉ visited)
    (hvisited : ∀ x ∈ visited, (Above.declared kind o definition?).Reaches x n)
    (hfound : ∀ x ∈ found, x ∈ n :: visited)
    (hnoReturn : ∀ x, (Above.declared kind o definition?).Reaches n x →
      ¬ (Above.declared kind o definition?).Ascends x x)
    (h : (closureFrom (.declared kind o definition?) limit visited found [n]).run =
      some (.ok result)) :
    ∃ e line, ParentLine definition? n ((n, e) :: line) ∧ result = found ++ keysOf line := by
  induction limit generalizing visited found n with
  | zero =>
    unfold closureFrom at h
    rw [dropWhile_of_not_mem hnew] at h
    cases h
  | succ limit ih =>
    cases hn : definition? n with
    | none =>
      rw [closureFrom_of_dropWhile_cons (dropWhile_of_not_mem hnew), Bounded.run_lift_bind] at h
      unfold Above.declared at h
      rw [hn] at h
      cases h
    | some e =>
      cases hp : Inheriting.parent e with
      | none =>
        rw [run_closureFrom_top hisA hmixins hn hnew hp] at h
        cases h
        exact ⟨e, [], .top hn hp, (List.append_nil _).symm⟩
      | some p =>
        have hparent : (Above.declared kind o definition?).Parent n p :=
          (parent_declared_iff hisA hmixins).2 ⟨e, hn, hp⟩
        have hreach : ∀ x ∈ n :: visited, (Above.declared kind o definition?).Reaches x n := by
          intro x hx
          rcases List.mem_cons.1 hx with rfl | hx
          · exact .refl _ x
          · exact hvisited x hx
        -- the parent has not been visited, for it would lead back to itself
        have hnext : p ∉ n :: visited := by
          intro hmem
          have hback := (hreach p hmem).ascends hparent.ascends
          exact hnoReturn p ((Above.Reaches.refl _ n).step hparent) hback
        have hincluded : ∀ x ∈ found ++ [p], x ∈ p :: n :: visited := by
          intro x hx
          rcases List.mem_append.1 hx with hx | hx
          · exact List.mem_cons_of_mem _ (hfound x hx)
          · rw [List.mem_singleton.1 hx]
            exact List.mem_cons_self
        rw [run_closureFrom_parent hisA hmixins hn hnew hp hnext fun hmem =>
          hnext (hfound p hmem)] at h
        obtain ⟨e', line, hline, rfl⟩ := ih hnext (fun x hx => (hreach x hx).step hparent)
          hincluded (fun x hx => hnoReturn x (((Above.Reaches.refl _ n).step hparent).trans hx)) h
        exact ⟨e, (p, e') :: line, .step hn hp hline, by simp⟩

/-- **What stands above a name is its line**, if nothing but parents counts: the names above it can be
told exactly if it has a line, and are the names of the line, the first one only if it was asked
for. -/
theorem Hierarchy.ancestors_eq_ok_iff_parentLine {h : Hierarchy} (hs : h.Sized)
    (habove : h.above = .declared kind o definition?) {start : String} {reflexive : Bool}
    {names : List String} : h.ancestors start reflexive = .ok names ↔
      ∃ line, ParentLine definition? start line ∧
        names = if reflexive then keysOf line else (keysOf line).tail := by
  have hforth : ∀ {names}, h.ancestors start reflexive = .ok names →
      ∃ line, ParentLine definition? start line ∧
        names = if reflexive then keysOf line else (keysOf line).tail := by
    intro names hnames
    have hsound := (exists_ancestors_iff hs).1 ⟨names, hnames⟩
    have hrun := settle_eq_ok (ancestors_eq_ok_iff.1 hnames).2
    rw [habove] at hsound hrun
    obtain ⟨e, line, hline, rfl⟩ := exists_parentLine_of_closureFrom hisA hmixins
      List.not_mem_nil (fun x hx => absurd hx List.not_mem_nil)
      (by cases reflexive <;> simp) (fun x hx => (hsound x hx).2) hrun
    refine ⟨_, hline, ?_⟩
    cases reflexive <;> rfl
  refine ⟨hforth, ?_⟩
  rintro ⟨line, hline, rfl⟩
  obtain ⟨names, hnames⟩ : ∃ names, h.ancestors start reflexive = .ok names := by
    refine (exists_ancestors_iff hs).2 fun x hx => ?_
    rw [habove] at hx ⊢
    exact hline.grounded hisA hmixins hx
  obtain ⟨line', hline', rfl⟩ := hforth hnames
  rw [hline.unique hline']
  exact hnames

end onlyParents

end SlotFrame
