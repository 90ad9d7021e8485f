import SlotFrame.Proofs.Hierarchy.MarkedPaths

/-! # Hierarchies without a way back

A search for a way back comes to an end in every hierarchy that is large enough, and what it comes
to is what the recursion comes to. So where it ends well all that is reached is known and none of it
leads back to itself, and then the names above a name can be told.

Main definition: `Hierarchy.Sized`.

Main statements: `settles_acyclic?` (a search ends, and fails only where nothing can be told or a
way leads back), `Hierarchy.exists_ancestors_iff` (when the names above a name can be told),
`Hierarchy.mem_ancestors_iff` (which ones they are) and `Hierarchy.ancestors_congr` (they depend on
nothing that is not above the name). -/

namespace SlotFrame

variable {kind : ElementKind} {above : Above}

section outcomes

variable {start : String} {limit : Nat}

/-- A search for a way back comes to an end within a limit above the number of names that it may
reach and that are known. -/
theorem exists_acyclic? {known : List String}
    (hknown : ∀ x ps, above.Reaches start x → above x = .ok ps → x ∈ known)
    (hlimit : known.length < limit) : ∃ r, (acyclic? limit kind above start).run = some r := by
  refine exists_acyclicFrom hknown (.new _) (.refl above start) List.not_mem_nil ?_
  simpa using hlimit

/-- It comes to what the recursion comes to, so it fails only for a reason. -/
theorem settles_acyclic? {known : List String}
    (hknown : ∀ x ps, above.Reaches start x → above x = .ok ps → x ∈ known)
    (hlimit : known.length < limit) : Settles kind above start (acyclic? limit kind above start) := by
  have hvisited : Settles kind above start (visited? limit kind above start) :=
    settles_visited? hknown hlimit
  obtain ⟨r, hr, hfault⟩ := hvisited
  obtain ⟨outcome, hrun⟩ := exists_acyclic? hknown hlimit
  have hsame := (run_visited? hrun (Nat.le_refl limit)).symm.trans hr
  exact ⟨outcome, hrun, Option.some.inj hsame ▸ hfault⟩

/-- A search for a way back that ends well has grounded its start. -/
theorem grounded_of_acyclic? (h : (acyclic? limit kind above start).run = some (.ok ())) :
    ∃ done, Grounded above done ∧ start ∈ done :=
  grounded_of_visited? (run_visited? h (Nat.le_refl limit))

end outcomes

/-! ### Hierarchies -/

namespace Hierarchy

variable {h : Hierarchy} {start : String} {reflexive : Bool}

/-- A hierarchy that knows fewer names than its size says. -/
def Sized (h : Hierarchy) : Prop :=
  ∃ known : List String, (∀ n names, h.above n = .ok names → n ∈ known) ∧ known.length < h.size

/-- In a hierarchy that is large enough every search for a way back comes to an end. -/
theorem Sized.settles_acyclic (hs : h.Sized) (start : String) :
    Settles h.kind h.above start (acyclic? h.size h.kind h.above start) := by
  obtain ⟨known, hknown, hsize⟩ := hs
  exact settles_acyclic? (fun n names _ hn => hknown n names hn) hsize

/-- In a hierarchy that is large enough every closure comes to an end. -/
theorem Sized.exists_closure (hs : h.Sized) (start : String) (reflexive : Bool) :
    ∃ r, (closure? h.size h.above start reflexive).run = some r := by
  obtain ⟨known, hknown, hsize⟩ := hs
  exact exists_closure? (fun n names _ hn => hknown n names hn) hsize reflexive

theorem ancestors_eq_ok_iff {names : List String} :
    h.ancestors start reflexive = .ok names ↔
      h.acyclic start = .ok () ∧ h.closure start reflexive = .ok names := by
  unfold ancestors
  rw [Result.bind_eq_ok_iff]
  constructor
  · rintro ⟨⟨⟩, ha, hc⟩
    exact ⟨ha, hc⟩
  · rintro ⟨ha, hc⟩
    exact ⟨(), ha, hc⟩

/-- Where no way back was found all that is reached is known and does not lead back. -/
theorem grounded_of_acyclic (ha : h.acyclic start = .ok ()) :
    ∃ done, Grounded h.above done ∧ start ∈ done :=
  grounded_of_acyclic? (settle_eq_ok ha)

/-- The names above a name are those that it leads to, itself only if it was asked for. -/
theorem mem_ancestors_iff {names : List String} (hn : h.ancestors start reflexive = .ok names)
    {n : String} : n ∈ names ↔
      h.above.Ascends start n ∨ (n = start ∧ reflexive = true) := by
  obtain ⟨ha, hc⟩ := ancestors_eq_ok_iff.1 hn
  obtain ⟨done, hg, hstart⟩ := grounded_of_acyclic ha
  have hfound := (mem_of_closureFrom (.new h.above start reflexive) (settle_eq_ok hc)).2 n
  rw [hfound]
  have hne : n ≠ start ∧ h.above.Reaches start n ↔ h.above.Ascends start n := by
    constructor
    · rintro ⟨hne, hr⟩
      exact (Above.reaches_iff.1 hr).resolve_left hne
    · intro hasc
      refine ⟨?_, hasc.reaches⟩
      rintro rfl
      exact hg.noReturn n hstart hasc
  rw [hne]

/-- A name is not above itself. -/
theorem ne_of_mem_ancestors {names : List String} (hn : h.ancestors start false = .ok names)
    {n : String} (hmem : n ∈ names) : n ≠ start := by
  obtain ⟨ha, _⟩ := ancestors_eq_ok_iff.1 hn
  obtain ⟨done, hg, hstart⟩ := grounded_of_acyclic ha
  rintro rfl
  rcases (mem_ancestors_iff hn).1 hmem with hasc | ⟨_, hno⟩
  · exact hg.noReturn n hstart hasc
  · cases hno

/-- The names above a name can be told exactly if all that it reaches is known and nothing of it
leads back to itself. -/
theorem exists_ancestors_iff (hs : h.Sized) :
    (∃ names, h.ancestors start reflexive = .ok names) ↔
      ∀ n, h.above.Reaches start n → (∃ names, h.above n = .ok names) ∧ ¬ h.above.Ascends n n := by
  constructor
  · rintro ⟨names, hn⟩ n hr
    obtain ⟨done, hg, hstart⟩ := grounded_of_acyclic (ancestors_eq_ok_iff.1 hn).1
    exact hg.of_reaches hstart hr
  · intro hall
    obtain ⟨r, hr, hfault⟩ := hs.settles_acyclic start
    have ha : h.acyclic start = .ok () := by
      unfold acyclic settle
      rw [hr]
      cases r with
      | ok u => rfl
      | error f => exact absurd hall (hfault f rfl).not_forall
    obtain ⟨r, hr⟩ := hs.exists_closure start reflexive
    cases r with
    | error f =>
      obtain ⟨n, hreach, hf⟩ := error_of_closureFrom (.new h.above start reflexive) hr
      obtain ⟨names, hn⟩ := (hall n hreach).1
      rw [hn] at hf
      cases hf
    | ok names =>
      refine ⟨names, ancestors_eq_ok_iff.2 ⟨ha, ?_⟩⟩
      unfold closure settle
      rw [hr]

/-- The names above a name depend only on what stands above the names that it reaches. -/
theorem ancestors_congr {h' : Hierarchy} (hkind : h.kind = h'.kind) (hsize : h.size = h'.size)
    (heq : ∀ n, h.above.Reaches start n → h.above n = h'.above n) :
    h.ancestors start reflexive = h'.ancestors start reflexive := by
  have hP : ∀ n p, h.above.Reaches start n → h.above.Parent n p → h.above.Reaches start p :=
    fun _ _ hr hp => hr.step hp
  have hstart := Above.Reaches.refl h.above start
  have hacyclic : h.acyclic start = h'.acyclic start := by
    unfold acyclic acyclic?
    rw [acyclicFrom_congr hP heq _ (.new _) hstart, hkind, hsize]
  have hclosure : h.closure start reflexive = h'.closure start reflexive := by
    unfold closure closure?
    rw [closureFrom_congr hP heq, hsize]
    intro n hn
    rw [List.mem_singleton.1 hn]
    exact hstart
  unfold ancestors
  rw [hacyclic, hclosure]

end Hierarchy

end SlotFrame
