import Mathlib.Data.Set.Card
import SlotFrame.Proofs.Hierarchy.Acyclicity

/-! # What searches come to

A search from a name that reaches finitely many others comes to an end, and how many expansions it
is allowed makes no difference once they are enough. A closure then is what the name reaches, and a
search for a way back finds one exactly if there is one, unless nothing can be told about some name
that is reached.

Main definitions: `Above.reach`, `Bounded.Steady`.

Main statements: `closure?_reachable`, `exists_run_acyclic?` (the loop and the recursion come to the
same) and `acyclic?_wayBack`. -/

namespace SlotFrame

/-! ### Finitely many names -/

namespace Above

/-- All names that a name reaches. -/
def reach (above : Above) (start : String) : Set String := {n | above.Reaches start n}

variable {above : Above} {start : String}

/-- The names that can be told above a name that reaches finitely many. -/
theorem exists_known (hfinite : (above.reach start).Finite) : ∃ known : List String,
    (∀ n names, above.Reaches start n → above n = .ok names → n ∈ known) ∧
      known.length = (above.reach start).ncard := by
  refine ⟨hfinite.toFinset.toList, ?_, ?_⟩
  · intro n names hreach _
    rw [Finset.mem_toList, Set.Finite.mem_toFinset]
    exact hreach
  · rw [Finset.length_toList, Set.ncard_eq_toFinset_card _ hfinite]

/-- A list with all that stands above its members has all that they reach. -/
theorem finite_reach (names : List String) (hstart : start ∈ names)
    (hclosed : ∀ n ∈ names, ∀ p ∈ (above n).toOption.getD [], p ∈ names) :
    (above.reach start).Finite := by
  refine names.finite_toSet.subset fun n hn => ?_
  refine Reaches.mem_of_closed (P := (· ∈ names)) ?_ hn hstart
  rintro x p hx ⟨parents, hparents, hp⟩
  refine hclosed x hx p ?_
  rw [hparents]
  exact hp

end Above

/-! ### Limits that are enough -/

namespace Bounded

variable {α : Type}

/-- A search under a limit that goes on to have its outcome when more is allowed. -/
def Steady (search : Nat → Bounded α) : Prop :=
  ∀ limit limit' r, limit ≤ limit' → (search limit).run = some r → (search limit').run = some r

/-- Two limits that are enough lead to one outcome. -/
theorem Steady.unique {search : Nat → Bounded α} (hs : Steady search) {limit limit' : Nat}
    {r r' : Result α} (h : (search limit).run = some r) (h' : (search limit').run = some r') :
    r = r' := by
  have hl := hs limit _ r (Nat.le_max_left limit limit') h
  have hr := hs limit' _ r' (Nat.le_max_right limit limit') h'
  exact Option.some.inj (hl.symm.trans hr)

end Bounded

section steadiness

variable {above : Above} {kind : ElementKind} {start : String}

theorem steady_closure? (above : Above) (start : String) (reflexive : Bool) :
    Bounded.Steady fun limit => closure? limit above start reflexive :=
  fun _ _ _ hle h => closureFrom_mono hle h

theorem steady_acyclic? (kind : ElementKind) (above : Above) (start : String) :
    Bounded.Steady fun limit => acyclic? limit kind above start :=
  fun _ _ _ hle h => acyclicFrom_mono hle h

end steadiness

/-! ### Closures -/

section closures

variable {above : Above} {start : String} {reflexive : Bool}

/-- A closure comes to an end as soon as it is allowed more expansions than there are names that it
reaches. -/
theorem exists_run_closure? (hfinite : (above.reach start).Finite) (reflexive : Bool) :
    ∃ outcome, ∀ limit, (above.reach start).ncard < limit →
      (closure? limit above start reflexive).run = some outcome := by
  obtain ⟨known, hknown, hlength⟩ := Above.exists_known hfinite
  obtain ⟨outcome, hrun⟩ := exists_closure? hknown (Nat.lt_succ_self _) reflexive
  refine ⟨outcome, fun limit hlimit => ?_⟩
  exact steady_closure? above start reflexive _ limit outcome (by omega) hrun

/-- In a hierarchy that is large enough a closure has the outcome that it has within any limit. -/
theorem Hierarchy.Sized.closure_eq {h : Hierarchy} (hs : h.Sized) {limit : Nat}
    {outcome : Result (List String)}
    (hrun : (closure? limit h.above start reflexive).run = some outcome) :
    h.closure start reflexive = outcome := by
  obtain ⟨r, hr⟩ := hs.exists_closure start reflexive
  unfold closure settle
  rw [hr]
  exact (steady_closure? h.above start reflexive).unique hr hrun

/-- A closure that has come to an end answers if all that is reached is known. -/
theorem exists_names_of_run_closure? {limit : Nat} {outcome : Result (List String)}
    (h : (closure? limit above start reflexive).run = some outcome)
    (hall : ∀ n, above.Reaches start n → ∃ parents, above n = .ok parents) :
    ∃ names, outcome = .ok names := by
  cases outcome with
  | ok names => exact ⟨names, rfl⟩
  | error f =>
    obtain ⟨n, hreach, hf⟩ := error_of_closureFrom (.new above start reflexive) h
    obtain ⟨parents, hn⟩ := hall n hreach
    rw [hn] at hf
    cases hf

/-- What a closure that has come to an end says about the names that are reached. -/
theorem of_run_closure? {limit : Nat} {names : List String}
    (h : (closure? limit above start reflexive).run = some (.ok names)) :
    (∀ n, above.Reaches start n → ∃ parents, above n = .ok parents) ∧ names.Nodup ∧
      (reflexive = true → names.head? = some start) ∧
      ∀ n, n ∈ names ↔ (n ≠ start ∧ above.Ascends start n) ∨ (n = start ∧ reflexive = true) := by
  obtain ⟨hknown, hmem⟩ := mem_of_closureFrom (.new above start reflexive) h
  refine ⟨hknown, nodup_of_closureFrom ?_ h, ?_, fun n => ?_⟩
  · cases reflexive <;> simp
  · rintro rfl
    obtain ⟨rest, rfl⟩ := prefix_of_closureFrom h
    rfl
  · rw [hmem n, Above.reaches_iff]
    constructor
    · rintro (⟨hne, he | hn⟩ | hn)
      · exact absurd he hne
      · exact .inl ⟨hne, hn⟩
      · exact .inr hn
    · rintro (⟨hne, hn⟩ | hn)
      · exact .inl ⟨hne, .inr hn⟩
      · exact .inr hn

/-- **A closure is what is reached.** From a name that reaches finitely many others a closure comes
to the same outcome within every limit above their number, and so in every hierarchy that is large
enough. It answers exactly if every name that is reached is known, and fails with what a name says
that is reached. It answers no name twice: all names that the start leads to, and the start, in
front, exactly if it was asked for. -/
theorem closure?_reachable (hfinite : (above.reach start).Finite) (reflexive : Bool) :
    ∃ outcome : Result (List String),
      (∀ limit, (above.reach start).ncard < limit →
        (closure? limit above start reflexive).run = some outcome) ∧
      (∀ h : Hierarchy, h.above = above → h.Sized → h.closure start reflexive = outcome) ∧
      ((∃ names, outcome = .ok names) ↔
        ∀ n, above.Reaches start n → ∃ parents, above n = .ok parents) ∧
      (∀ f, outcome = .error f → ∃ n, above.Reaches start n ∧ above n = .error f) ∧
      ∀ names, outcome = .ok names → names.Nodup ∧
        (reflexive = true → names.head? = some start) ∧
        ∀ n, n ∈ names ↔ (n ≠ start ∧ above.Ascends start n) ∨ (n = start ∧ reflexive = true) := by
  obtain ⟨outcome, hlimit⟩ := exists_run_closure? hfinite reflexive
  have hrun := hlimit _ (Nat.lt_succ_self _)
  refine ⟨outcome, hlimit, ?_, ⟨?_, exists_names_of_run_closure? hrun⟩, ?_, ?_⟩
  · rintro h rfl hs
    exact hs.closure_eq hrun
  · rintro ⟨names, rfl⟩
    exact (of_run_closure? hrun).1
  · rintro f rfl
    exact error_of_closureFrom (.new above start reflexive) hrun
  · rintro names rfl
    exact (of_run_closure? hrun).2

/-- Two ways lead to one name, from where there is a way back into one of them; the other leads back
to its start. -/
def circular : Hierarchy := .ofTable .classDef false
  (Table.ofList [("a", ["b", "c"]), ("b", ["d"]), ("c", ["d", "a"]), ("d", ["b"])])

theorem finite_circular : (circular.above.reach "a").Finite :=
  Above.finite_reach ["a", "b", "c", "d"] (by decide) (by decide +kernel)

/-- A start that leads back to itself is not answered unless it is asked for. -/
theorem closure?_reachable_circular :
    (circular.above.reach "a").Finite ∧
      (closure? 5 circular.above "a" false).run = some (.ok ["b", "c", "d"]) ∧
      circular.above.Ascends "a" "a" ∧
      ∀ n, n ∈ ["b", "c", "d"] ↔
        (n ≠ "a" ∧ circular.above.Ascends "a" n) ∨ (n = "a" ∧ false = true) := by
  have hrun : (closure? 5 circular.above "a" false).run = some (.ok ["b", "c", "d"]) := by
    decide +kernel
  obtain ⟨outcome, hlimit, -, -, -, hnames⟩ := closure?_reachable finite_circular false
  have houtcome := (steady_closure? circular.above "a" false).unique
    (hlimit _ (Nat.lt_succ_self _)) hrun
  have hback : circular.above.Ascends "a" "a" :=
    .tail (.single ⟨["b", "c"], by decide +kernel, by decide⟩)
      ⟨["d", "a"], (by decide +kernel : circular.above "c" = .ok ["d", "a"]), by decide⟩
  exact ⟨finite_circular, hrun, hback, (hnames _ houtcome).2.2⟩

end closures

/-! ### Ways back -/

section waysBack

variable {above : Above} {start : String}

/-- A search for a way back comes to an end as soon as it is allowed more expansions than there are
names that are reached. The loop over marks and a stack and the recursion come to the same. -/
theorem exists_run_acyclic? (hfinite : (above.reach start).Finite) (kind : ElementKind) :
    ∃ outcome, (∀ limit, (above.reach start).ncard < limit →
        (acyclic? limit kind above start).run = some outcome ∧
          (visited? limit kind above start).run = some outcome) ∧
      ∀ f, outcome = .error f → Explains kind above start f := by
  obtain ⟨known, hknown, hlength⟩ := Above.exists_known hfinite
  have hsettles : Settles kind above start (acyclic? (known.length + 1) kind above start) :=
    settles_acyclic? hknown (Nat.lt_succ_self known.length)
  obtain ⟨outcome, hrun, hfault⟩ := hsettles
  refine ⟨outcome, fun limit hlimit => ?_, hfault⟩
  have hloop := steady_acyclic? kind above start _ limit outcome (by omega) hrun
  exact ⟨hloop, run_visited? hloop (Nat.le_refl limit)⟩

/-- **A search for a way back finds one exactly if there is one.** From a name that reaches finitely
many others it comes to the same outcome within every limit above their number, and so in every
hierarchy that is large enough. It ends well exactly if every name that is reached is known and none
leads back to itself; it fails with a way back over names that are reached, or with what a name says
that is reached, whatever fault that is. -/
theorem acyclic?_wayBack (hfinite : (above.reach start).Finite) (kind : ElementKind) :
    ∃ outcome : Result Unit,
      (∀ limit, (above.reach start).ncard < limit →
        (acyclic? limit kind above start).run = some outcome) ∧
      (∀ h : Hierarchy, h.kind = kind → h.above = above → h.Sized → h.acyclic start = outcome) ∧
      (outcome = .ok () ↔ ∀ n, above.Reaches start n →
        (∃ parents, above n = .ok parents) ∧ ¬ above.Ascends n n) ∧
      ∀ f, outcome = .error f →
        (∃ path, f = .cyclic kind path ∧ above.WayBack start path) ∨
          ∃ n, above.Reaches start n ∧ above n = .error f := by
  obtain ⟨outcome, hlimit, hfault⟩ := exists_run_acyclic? hfinite kind
  have hrun := (hlimit _ (Nat.lt_succ_self _)).1
  refine ⟨outcome, fun limit hl => (hlimit limit hl).1, ?_, ⟨?_, ?_⟩,
    fun f hf => (hfault f hf).symm⟩
  · rintro h rfl rfl hs
    obtain ⟨r, hr, -⟩ := hs.settles_acyclic start
    unfold Hierarchy.acyclic Hierarchy.settle
    rw [hr]
    exact (steady_acyclic? h.kind h.above start).unique hr hrun
  · rintro rfl n hreach
    obtain ⟨done, hg, hstart⟩ := grounded_of_acyclic? hrun
    exact hg.of_reaches hstart hreach
  · intro hall
    cases houtcome : outcome with
    | ok u => rfl
    | error f => exact absurd hall (hfault f houtcome).not_forall

/-- The way back is cut out of the way that has led there. -/
theorem acyclic?_wayBack_circular :
    (circular.above.reach "a").Finite ∧ (acyclic? 5 .classDef circular.above "a").run =
        some (.error (.cyclic .classDef ["b", "d", "b"])) ∧
      circular.above.WayBack "a" ["b", "d", "b"] := by
  have hrun : (acyclic? 5 .classDef circular.above "a").run =
      some (.error (.cyclic .classDef ["b", "d", "b"])) := by
    decide +kernel
  obtain ⟨outcome, hlimit, -, -, hfault⟩ := acyclic?_wayBack finite_circular .classDef
  have houtcome := (steady_acyclic? .classDef circular.above "a").unique
    (hlimit _ (Nat.lt_succ_self _)) hrun
  refine ⟨finite_circular, hrun, ?_⟩
  rcases hfault _ houtcome with ⟨path, hpath, hback⟩ | ⟨n, -, hn⟩
  · cases hpath
    exact hback
  · unfold circular Hierarchy.ofTable at hn
    dsimp only at hn
    split at hn <;> cases hn

end waysBack

end SlotFrame
