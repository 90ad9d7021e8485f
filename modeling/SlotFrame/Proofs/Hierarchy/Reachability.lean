import Mathlib.Data.List.Nodup
import Mathlib.Logic.Relation
import SlotFrame.Proofs.Hierarchy.Closure

/-! # What a closure reaches

A closure answers the names that its start leads to, the start itself only if it was asked for. The
search is described by what its state keeps: whatever was met is reached, what stands directly above
a visited name was met, and a name is found exactly when it was met. Each expansion visits a known
name for the first time, so a limit above the number of known names is never exhausted.

Main definitions: `Above.Parent`, `Above.Reaches`, `Above.Ascends`, `ClosureState`.

Main statements: `mem_of_closureFrom` (what is answered is what is reachable),
`exists_closureFrom` (a closure over few known names comes to an end) and `closureFrom_congr` (a
closure looks only at what it reaches). -/

namespace SlotFrame

/-! ### Steps and ways upwards -/

namespace Above

/-- A name stands directly above another. -/
def Parent (above : Above) (n p : String) : Prop := ∃ names, above n = .ok names ∧ p ∈ names

/-- A way upwards of any number of steps. -/
def Reaches (above : Above) : String → String → Prop := Relation.ReflTransGen above.Parent

/-- A way upwards of at least one step. -/
def Ascends (above : Above) : String → String → Prop := Relation.TransGen above.Parent

variable {above : Above} {n p q : String}

theorem Parent.mem {names : List String} (h : above.Parent n p) (hn : above n = .ok names) :
    p ∈ names := by
  obtain ⟨names', hn', hp⟩ := h
  rw [hn] at hn'
  cases hn'
  exact hp

theorem Parent.ascends (h : above.Parent n p) : above.Ascends n p := Relation.TransGen.single h

theorem Reaches.refl (above : Above) (n : String) : above.Reaches n n := Relation.ReflTransGen.refl

theorem Ascends.reaches (h : above.Ascends n p) : above.Reaches n p := h.to_reflTransGen

theorem Reaches.step (h : above.Reaches n p) (hp : above.Parent p q) : above.Reaches n q :=
  Relation.ReflTransGen.tail h hp

theorem Reaches.trans (h : above.Reaches n p) (hp : above.Reaches p q) : above.Reaches n q :=
  Relation.ReflTransGen.trans h hp

theorem Reaches.ascends (h : above.Reaches n p) (hp : above.Ascends p q) : above.Ascends n q :=
  Relation.TransGen.trans_right h hp

theorem reaches_iff : above.Reaches n p ↔ p = n ∨ above.Ascends n p := by
  have h := Relation.reflTransGen_iff_eq_or_transGen (r := above.Parent) (a := n) (b := p)
  exact h

/-- A set that contains all that stands directly above its members contains all that they reach. -/
theorem Reaches.mem_of_closed {P : String → Prop} (hP : ∀ n p, P n → above.Parent n p → P p)
    (h : above.Reaches n p) (hn : P n) : P p := by
  induction h with
  | refl => exact hn
  | tail _ hp ih => exact hP _ _ ih hp

/-- Where every step of one hierarchy is a way upwards in another, so is every way. -/
theorem Ascends.of_parents {above' : Above} {P : String → Prop}
    (hP : ∀ n p, P n → above.Ascends n p → P p)
    (hstep : ∀ n p, P n → above'.Parent n p → above.Ascends n p) (hn : P n)
    (h : above'.Ascends n p) : above.Ascends n p := by
  induction h with
  | single hp => exact hstep _ _ hn hp
  | tail _ hp ih => exact ih.trans (hstep _ _ (hP _ _ hn ih) hp)

end Above

/-! ### Outcomes of bounded searches -/

namespace Bounded

variable {α β : Type}

theorem run_lift_bind (r : Result α) (k : α → Bounded β) :
    (lift r >>= k).run = match r with
      | .ok a => (k a).run
      | .error f => some (.error f) := by
  cases r <;> rfl

theorem run_bind (x : Bounded α) (k : α → Bounded β) :
    (x >>= k).run = match x.run with
      | some (.ok a) => (k a).run
      | some (.error f) => some (.error f)
      | none => none := by
  show (ExceptT.bind x k).run = _
  unfold ExceptT.bind ExceptT.mk
  cases h : x.run with
  | none => exact congrArg (Option.bind · _) h
  | some r =>
    have hx : x = some r := h
    subst hx
    cases r <;> rfl

end Bounded

/-! ### The state of a closure -/

/-- What a closure from a name keeps: its visited names, those found and those that wait. -/
structure ClosureState (above : Above) (start : String) (reflexive : Bool)
    (visited found todo : List String) : Prop where
  begins : start ∈ visited ∨ ∃ rest, todo = start :: rest
  reached : ∀ n, n ∈ visited ∨ n ∈ todo → above.Reaches start n
  known : ∀ n ∈ visited, ∃ names, above n = .ok names
  closed : ∀ n ∈ visited, ∀ p, above.Parent n p → p ∈ visited ∨ p ∈ todo
  found_iff : ∀ n, n ∈ found ↔
    (n ≠ start ∧ (n ∈ visited ∨ n ∈ todo)) ∨ (n = start ∧ reflexive = true)

namespace ClosureState

variable {above : Above} {start : String} {reflexive : Bool} {visited found todo : List String}

theorem new (above : Above) (start : String) (reflexive : Bool) :
    ClosureState above start reflexive [] (if reflexive then [start] else []) [start] where
  begins := .inr ⟨[], rfl⟩
  reached n hn := by
    have he : n = start := by simpa using hn
    rw [he]
    exact .refl above start
  known n hn := by cases hn
  closed n hn := by cases hn
  found_iff n := by cases reflexive <;> simp

/-- The start is the first name that is expanded. -/
theorem begins_visited (h : ClosureState above start reflexive visited found todo) {n : String}
    {rest : List String} (hd : todo.dropWhile (· ∈ visited) = n :: rest) :
    start ∈ n :: visited := by
  rcases h.begins with hv | ⟨tail, rfl⟩
  · exact List.mem_cons_of_mem _ hv
  · by_cases hs : start ∈ visited
    · exact List.mem_cons_of_mem _ hs
    · rw [List.dropWhile_cons_of_neg (by simpa using hs)] at hd
      cases hd
      exact List.mem_cons_self

/-- Dropping what is visited from the stack loses nothing that was met. -/
theorem met_iff {n x : String} {rest : List String}
    (hd : todo.dropWhile (· ∈ visited) = n :: rest) :
    (x ∈ visited ∨ x ∈ todo) ↔ x ∈ n :: visited ∨ x ∈ rest := by
  constructor
  · rintro (hx | hx)
    · exact .inl (List.mem_cons_of_mem _ hx)
    · exact mem_of_dropWhile_cons hd hx
  · have hsub : ∀ y ∈ n :: rest, y ∈ todo := by
      intro y hy
      rw [← hd] at hy
      exact (List.dropWhile_sublist _).subset hy
    rintro (hx | hx)
    · rcases List.mem_cons.1 hx with rfl | hx
      · exact .inr (hsub _ List.mem_cons_self)
      · exact .inl hx
    · exact .inr (hsub x (List.mem_cons_of_mem _ hx))

/-- Expanding a name keeps the state. -/
theorem expand (h : ClosureState above start reflexive visited found todo) {n : String}
    {rest names : List String} (hd : todo.dropWhile (· ∈ visited) = n :: rest)
    (hn : above n = .ok names) :
    let fresh := names.filter (· ∉ n :: visited)
    ClosureState above start reflexive (n :: visited) (addNames found fresh)
      (fresh.reverse ++ rest) := by
  intro fresh
  have hfresh : ∀ x, x ∈ fresh ↔ x ∈ names ∧ x ∉ n :: visited := by
    intro x
    simp [fresh]
  have htodo : ∀ x, x ∈ fresh.reverse ++ rest ↔ x ∈ fresh ∨ x ∈ rest := by
    intro x
    rw [List.mem_append, List.mem_reverse]
  have hstart := h.begins_visited hd
  have hreached : above.Reaches start n :=
    h.reached n ((met_iff hd).2 (.inl List.mem_cons_self))
  refine ⟨.inl hstart, ?_, ?_, ?_, ?_⟩
  · intro x hx
    rw [htodo, ← or_assoc, or_right_comm] at hx
    rcases hx with hx | hx
    · exact h.reached x ((met_iff hd).2 hx)
    · exact hreached.step ⟨names, hn, ((hfresh x).1 hx).1⟩
  · intro x hx
    rcases List.mem_cons.1 hx with rfl | hx
    · exact ⟨names, hn⟩
    · exact h.known x hx
  · intro x hx p hp
    rw [htodo, ← or_assoc, or_right_comm]
    rcases List.mem_cons.1 hx with rfl | hx
    · by_cases hv : p ∈ x :: visited
      · exact .inl (.inl hv)
      · exact .inr ((hfresh p).2 ⟨hp.mem hn, hv⟩)
    · exact .inl ((met_iff hd).1 (h.closed x hx p hp))
  · intro x
    rw [mem_addNames, h.found_iff, htodo, met_iff hd]
    by_cases hx : x = start
    · subst hx
      have hno : x ∉ fresh := fun hf => ((hfresh x).1 hf).2 hstart
      simp [hno]
    · simp only [hx, not_false_eq_true, true_and, false_and, or_false, ne_eq]
      tauto

/-- At the end nothing waits, and what is found is what is reachable. -/
theorem finish (h : ClosureState above start reflexive visited found todo)
    (hd : todo.dropWhile (· ∈ visited) = []) :
    (∀ n, above.Reaches start n → ∃ names, above n = .ok names) ∧
      ∀ n, n ∈ found ↔
        (n ≠ start ∧ above.Reaches start n) ∨ (n = start ∧ reflexive = true) := by
  have hmet : ∀ n, n ∈ visited ∨ n ∈ todo → n ∈ visited := by
    rintro n (hn | hn)
    · exact hn
    · exact mem_of_dropWhile_nil hd hn
  have hstart : start ∈ visited := by
    rcases h.begins with hv | ⟨rest, rfl⟩
    · exact hv
    · exact hmet start (.inr List.mem_cons_self)
  have hall : ∀ n, above.Reaches start n → n ∈ visited := fun n hn =>
    hn.mem_of_closed (P := (· ∈ visited)) (fun x p hx hp => hmet p (h.closed x hx p hp)) hstart
  refine ⟨fun n hn => h.known n (hall n hn), ?_⟩
  intro n
  rw [h.found_iff]
  constructor
  · rintro (⟨hne, hn⟩ | hn)
    · exact .inl ⟨hne, h.reached n hn⟩
    · exact .inr hn
  · rintro (⟨hne, hn⟩ | hn)
    · exact .inl ⟨hne, .inl (hall n hn)⟩
    · exact .inr hn

end ClosureState

/-! ### Outcomes of a closure -/

section outcomes

variable {above : Above} {start : String} {reflexive : Bool}

theorem mem_of_closureFrom {limit : Nat} {visited found todo result : List String}
    (hs : ClosureState above start reflexive visited found todo)
    (h : (closureFrom above limit visited found todo).run = some (.ok result)) :
    (∀ n, above.Reaches start n → ∃ names, above n = .ok names) ∧
      ∀ n, n ∈ result ↔
        (n ≠ start ∧ above.Reaches start n) ∨ (n = start ∧ reflexive = true) := by
  induction limit generalizing visited found todo with
  | zero =>
    cases hd : todo.dropWhile (· ∈ visited) with
    | nil =>
      rw [closureFrom_of_dropWhile_nil hd] at h
      cases h
      exact hs.finish hd
    | cons n rest =>
      unfold closureFrom at h
      rw [hd] at h
      cases h
  | succ limit ih =>
    cases hd : todo.dropWhile (· ∈ visited) with
    | nil =>
      rw [closureFrom_of_dropWhile_nil hd] at h
      cases h
      exact hs.finish hd
    | cons n rest =>
      rw [closureFrom_of_dropWhile_cons hd, Bounded.run_lift_bind] at h
      cases hn : above n with
      | error f =>
        rw [hn] at h
        cases h
      | ok names =>
        rw [hn] at h
        exact ih (hs.expand hd hn) h

/-- A closure fails only where it asks what stands above a name that it reaches. -/
theorem error_of_closureFrom {limit : Nat} {visited found todo : List String} {f : Fault}
    (hs : ClosureState above start reflexive visited found todo)
    (h : (closureFrom above limit visited found todo).run = some (.error f)) :
    ∃ n, above.Reaches start n ∧ above n = .error f := by
  induction limit generalizing visited found todo with
  | zero =>
    unfold closureFrom at h
    split at h
    · cases h
    · cases h
    · contradiction
  | succ limit ih =>
    cases hd : todo.dropWhile (· ∈ visited) with
    | nil =>
      rw [closureFrom_of_dropWhile_nil hd] at h
      cases h
    | cons n rest =>
      rw [closureFrom_of_dropWhile_cons hd, Bounded.run_lift_bind] at h
      cases hn : above n with
      | error f' =>
        rw [hn] at h
        cases h
        have hmet := (ClosureState.met_iff hd).2 (.inl List.mem_cons_self)
        exact ⟨n, hs.reached n hmet, hn⟩
      | ok names =>
        rw [hn] at h
        exact ih (hs.expand hd hn) h

/-- Fewer names are left once another one has been seen. -/
theorem unseen_lt {names seen seen' : List String} {n : String} (hn : n ∈ names) (hs : n ∉ seen)
    (hs' : n ∈ seen') (hsub : ∀ x ∈ seen, x ∈ seen') :
    (names.filter (· ∉ seen')).length < (names.filter (· ∉ seen)).length := by
  have hle : (names.filter (· ∉ seen')).Sublist (names.filter (· ∉ seen)) := by
    apply List.monotone_filter_right
    intro x hx
    simp only [decide_eq_true_eq] at hx ⊢
    exact fun h => hx (hsub x h)
  refine Nat.lt_of_le_of_ne hle.length_le ?_
  intro hlen
  have hmem : n ∈ names.filter (· ∉ seen) := by simpa using ⟨hn, hs⟩
  rw [← hle.eq_of_length hlen] at hmem
  simp [hs'] at hmem

/-- A search is not exhausted as long as more expansions are allowed than there are names left that
it may reach and that are known. -/
theorem exists_closureFrom {limit : Nat} {names visited found todo : List String}
    (hnames : ∀ n ps, above.Reaches start n → above n = .ok ps → n ∈ names)
    (hs : ClosureState above start reflexive visited found todo)
    (h : (names.filter (· ∉ visited)).length < limit) :
    ∃ r, (closureFrom above limit visited found todo).run = some r := by
  induction limit generalizing visited found todo with
  | zero => omega
  | succ limit ih =>
    cases hd : todo.dropWhile (· ∈ visited) with
    | nil =>
      rw [closureFrom_of_dropWhile_nil hd]
      exact ⟨_, rfl⟩
    | cons n rest =>
      rw [closureFrom_of_dropWhile_cons hd, Bounded.run_lift_bind]
      cases hn : above n with
      | error f => exact ⟨_, rfl⟩
      | ok ps =>
        have hreach := hs.reached n ((ClosureState.met_iff hd).2 (.inl List.mem_cons_self))
        have hlt := unseen_lt (hnames n ps hreach hn) (notMem_of_dropWhile_cons hd)
          List.mem_cons_self fun x hx => List.mem_cons_of_mem n hx
        exact ih (hs.expand hd hn) (by omega)

/-- A closure comes to an end within a limit above the number of names that it may reach and that are
known. -/
theorem exists_closure? {limit : Nat} {names : List String}
    (hnames : ∀ n ps, above.Reaches start n → above n = .ok ps → n ∈ names)
    (h : names.length < limit) (reflexive : Bool) :
    ∃ r, (closure? limit above start reflexive).run = some r :=
  exists_closureFrom hnames (.new above start reflexive) (by simpa using h)

/-- A search that has come to an end does so within any greater limit. -/
theorem closureFrom_mono {limit limit' : Nat} (hle : limit ≤ limit')
    {visited found todo : List String} {r : Result (List String)}
    (h : (closureFrom above limit visited found todo).run = some r) :
    (closureFrom above limit' visited found todo).run = some r := by
  induction limit generalizing limit' visited found todo with
  | zero =>
    cases hd : todo.dropWhile (· ∈ visited) with
    | nil =>
      rw [closureFrom_of_dropWhile_nil hd] at h ⊢
      exact h
    | cons n rest =>
      unfold closureFrom at h
      rw [hd] at h
      cases h
  | succ limit ih =>
    obtain ⟨limit', rfl⟩ := Nat.exists_eq_add_of_lt hle
    cases hd : todo.dropWhile (· ∈ visited) with
    | nil =>
      rw [closureFrom_of_dropWhile_nil hd] at h ⊢
      exact h
    | cons n rest =>
      rw [closureFrom_of_dropWhile_cons hd, Bounded.run_lift_bind] at h ⊢
      cases hn : above n with
      | error f =>
        rw [hn] at h
        exact h
      | ok ps =>
        rw [hn] at h
        exact ih (Nat.le_add_right limit limit') h

/-- A closure looks only at what stands above the names that it reaches. -/
theorem closureFrom_congr {above' : Above} {P : String → Prop}
    (hP : ∀ n p, P n → above.Parent n p → P p) (heq : ∀ n, P n → above n = above' n)
    (limit : Nat) (visited found todo : List String) (htodo : ∀ n ∈ todo, P n) :
    closureFrom above limit visited found todo = closureFrom above' limit visited found todo := by
  induction limit generalizing visited found todo with
  | zero =>
    cases hd : todo.dropWhile (· ∈ visited) with
    | nil => rw [closureFrom_of_dropWhile_nil hd, closureFrom_of_dropWhile_nil hd]
    | cons n rest =>
      unfold closureFrom
      rw [hd]
  | succ limit ih =>
    cases hd : todo.dropWhile (· ∈ visited) with
    | nil => rw [closureFrom_of_dropWhile_nil hd, closureFrom_of_dropWhile_nil hd]
    | cons n rest =>
      have hmem : ∀ x ∈ n :: rest, P x := by
        intro x hx
        rw [← hd] at hx
        exact htodo x ((List.dropWhile_sublist _).subset hx)
      have hn : P n := hmem n List.mem_cons_self
      rw [closureFrom_of_dropWhile_cons hd, closureFrom_of_dropWhile_cons hd, ← heq n hn]
      cases habove : above n with
      | error f => rfl
      | ok names =>
        refine ih _ _ _ ?_
        intro x hx
        rcases List.mem_append.1 hx with hx | hx
        · have hin : x ∈ names := List.mem_of_mem_filter (List.mem_reverse.1 hx)
          exact hP n x hn ⟨names, habove, hin⟩
        · exact hmem x (List.mem_cons_of_mem _ hx)

theorem nodup_addNames {found : List String} (h : found.Nodup) (names : List String) :
    (addNames found names).Nodup := by
  unfold addNames
  induction names generalizing found with
  | nil => exact h
  | cons n names ih =>
    refine ih ?_
    dsimp only
    by_cases hn : n ∈ found
    · rw [if_pos hn]
      exact h
    · rw [if_neg hn, List.nodup_append_comm]
      exact List.nodup_cons.2 ⟨hn, h⟩

/-- Nothing is found twice. -/
theorem nodup_of_closureFrom {limit : Nat} {visited found todo result : List String}
    (hfound : found.Nodup)
    (h : (closureFrom above limit visited found todo).run = some (.ok result)) : result.Nodup := by
  induction limit generalizing visited found todo with
  | zero =>
    unfold closureFrom at h
    split at h
    · cases h
      exact hfound
    · cases h
    · contradiction
  | succ limit ih =>
    cases hd : todo.dropWhile (· ∈ visited) with
    | nil =>
      rw [closureFrom_of_dropWhile_nil hd] at h
      cases h
      exact hfound
    | cons n rest =>
      rw [closureFrom_of_dropWhile_cons hd, Bounded.run_lift_bind] at h
      cases hn : above n with
      | error f =>
        rw [hn] at h
        cases h
      | ok names =>
        rw [hn] at h
        exact ih (nodup_addNames hfound _) h

/-- What is found stays in front. -/
theorem prefix_addNames (found names : List String) : found <+: addNames found names := by
  unfold addNames
  induction names generalizing found with
  | nil => exact List.prefix_rfl
  | cons n names ih =>
    refine List.IsPrefix.trans ?_ (ih _)
    dsimp only
    by_cases hn : n ∈ found
    · exact ⟨[], by rw [if_pos hn, List.append_nil]⟩
    · exact ⟨[n], by rw [if_neg hn]⟩

theorem prefix_of_closureFrom {limit : Nat} {visited found todo result : List String}
    (h : (closureFrom above limit visited found todo).run = some (.ok result)) :
    found <+: result := by
  induction limit generalizing visited found todo with
  | zero =>
    unfold closureFrom at h
    split at h
    · cases h
      exact List.prefix_rfl
    · cases h
    · contradiction
  | succ limit ih =>
    cases hd : todo.dropWhile (· ∈ visited) with
    | nil =>
      rw [closureFrom_of_dropWhile_nil hd] at h
      cases h
      exact List.prefix_rfl
    | cons n rest =>
      rw [closureFrom_of_dropWhile_cons hd, Bounded.run_lift_bind] at h
      cases hn : above n with
      | error f =>
        rw [hn] at h
        cases h
      | ok names =>
        rw [hn] at h
        exact (prefix_addNames _ _).trans (ih h)

end outcomes

end SlotFrame
